import CircuitAI.Framework.Loop
import CircuitAI.Framework.SwapRemove
import CircuitAI.Spec.CompleteLinkage
import Mathlib.Data.List.GetD
import Mathlib.Data.List.Nodup
import Mathlib.Data.List.Perm.Basic
import Mathlib.Order.Bounds.Basic

/-!
# Clusters by complete linkage

* `findClosestPair_ok`: the scan finds a least entry;
* `fixDistances_data`: the five loops rewrite two rows of the table, whichever side of the diagonal they are on;
* `distance_fixDistances`, `getD_mergeClusters`: the matrix and the list of clusters are changed in the same way;
* `Linkage.step`, `Partition.step`, `Close.step`: what a merge keeps;
* `clusterize_ok`: the loop, by induction on the number of clusters.
-/

set_option linter.unusedSectionVars false

namespace Circuit.Spec.CompleteLinkage

open Circuit.Framework List
open TriangularTable
open Impl.HierarchCluster
open CRagMatrix (Pair)

variable {K : Type*} [LinearOrder K] {m : CRagMatrix K} {n is js : ℕ} {i j k x : ℕ}

theorem distance_comm (m : CRagMatrix K) (a b : ℕ) : distance m a b = distance m b a := entry_comm m.data a b

theorem get_eq (m : CRagMatrix K) (h : j < i) : m.get i j = distance m i j := (entry_of_lt m.data h).symm

theorem set_data (m : CRagMatrix K) (h : j < i) (d : K) : (m.set i j d).data = write m.data i j d :=
  (write_of_lt m.data h d).symm

/-! ## The closest pair -/

structure Closest (m : CRagMatrix K) (n : ℕ) (seen : ℕ → ℕ → Prop) (p : Pair K) : Prop where
  jr_lt : p.jr < p.ir
  ir_lt : p.ir < n
  eq : p.distance = distance m p.ir p.jr
  le : ∀ i j, seen i j → j < i → p.distance ≤ distance m i j

theorem Closest.mono {seen seen' : ℕ → ℕ → Prop} {p : Pair K} (h : Closest m n seen p)
    (hseen : ∀ i j, seen' i j → seen i j) : Closest m n seen' p :=
  ⟨h.jr_lt, h.ir_lt, h.eq, fun i j hij => h.le i j (hseen i j hij)⟩

theorem Closest.step {seen : ℕ → ℕ → Prop} {p : Pair K} (h : Closest m n seen p) (hi : i < n) (hj : j < i) :
    Closest m n (fun x y => seen x y ∨ (x = i ∧ y = j)) (if m.get i j < p.distance then ⟨m.get i j, i, j⟩ else p) := by
  rw [get_eq m hj]
  by_cases hlt : distance m i j < p.distance
  · rw [if_pos hlt]
    refine ⟨hj, hi, rfl, fun x y hxy hyx => ?_⟩
    rcases hxy with hxy | ⟨rfl, rfl⟩
    · exact hlt.le.trans (h.le x y hxy hyx)
    · exact le_rfl
  · rw [if_neg hlt]
    refine ⟨h.jr_lt, h.ir_lt, h.eq, fun x y hxy hyx => ?_⟩
    rcases hxy with hxy | ⟨rfl, rfl⟩
    · exact h.le x y hxy hyx
    · exact not_lt.1 hlt

theorem findClosestPair_ok (m : CRagMatrix K) (hn : 2 ≤ n) : Closest m n (fun i _ => i < n) (m.findClosestPair n) := by
  unfold CRagMatrix.findClosestPair
  rw [range'_eq_map_range, foldl_map]
  have hrows := foldl_range_inv (f := fun (p : Pair K) i => (range (1 + i)).foldl (fun p j =>
      if m.get (1 + i) j < p.distance then ⟨m.get (1 + i) j, 1 + i, j⟩ else p) p) (b := ⟨m.get 1 0, 1, 0⟩)
    (fun k p => Closest m n (fun i _ => i < k + 1) p) (n - 1) ?_ fun i hi p hp => ?_
  · exact hrows.mono fun i _ h => by omega
  · refine ⟨Nat.zero_lt_one, hn, get_eq m Nat.zero_lt_one, fun i j hi hj => ?_⟩
    omega
  · have hrow := foldl_range_inv (f := fun (p : Pair K) j =>
        if m.get (1 + i) j < p.distance then ⟨m.get (1 + i) j, 1 + i, j⟩ else p) (b := p)
      (fun k p => Closest m n (fun x y => x < i + 1 ∨ (x = 1 + i ∧ y < k)) p) (1 + i) ?_ fun j hj p hp => ?_
    · refine ⟨hrow.jr_lt, hrow.ir_lt, hrow.eq, fun x y hx hy => hrow.le x y ?_ hy⟩
      omega
    · exact hp.mono fun x y h => h.resolve_right fun h => Nat.not_lt_zero y h.2
    · exact (hp.step (by omega) hj).mono fun x y h => by omega

/-! ## The distances -/

def rowLoop (op : K → K → K) (i j : ℕ) (l : List ℕ) (t : ℕ → K) : ℕ → K :=
  l.foldl (fun t k => write t i k (op (entry t j k) (entry t i k))) t

theorem rowLoop_append (op : K → K → K) (i j : ℕ) (l l' : List ℕ) (t : ℕ → K) :
    rowLoop op i j (l ++ l') t = rowLoop op i j l' (rowLoop op i j l t) := foldl_append

theorem forLoop_data (op : K → K → K) (i j : ℕ) {first last : ℕ} {body : ℕ → CRagMatrix K → CRagMatrix K}
    (hbody : ∀ k, first ≤ k → k < last → ∀ m : CRagMatrix K,
      (body k m).data = write m.data i k (op (entry m.data j k) (entry m.data i k))) (m : CRagMatrix K) :
    (m.forLoop first last body).data = rowLoop op i j (range' first (last - first)) m.data := by
  have hmem : ∀ k ∈ range' first (last - first), first ≤ k ∧ k < last := by
    intro k hk
    rw [mem_range'_1] at hk
    omega
  unfold CRagMatrix.forLoop rowLoop
  generalize range' first (last - first) = l at hmem ⊢
  induction l generalizing m with
  | nil => rfl
  | cons k l ih =>
    obtain ⟨hk, hk'⟩ := hmem k mem_cons_self
    rw [foldl_cons, foldl_cons, ← hbody k hk hk']
    exact ih _ fun k' hk' => hmem k' (mem_cons_of_mem k hk')

def others (n is js : ℕ) : List ℕ :=
  range' 0 js ++ range' (js + 1) (is - (js + 1)) ++ range' (is + 1) (n - (is + 1))

def rest (n is : ℕ) : List ℕ := range' 0 is ++ range' (is + 1) (n - 1 - (is + 1))

theorem fixDistances_data (hjs : js < is) (his : is < n) (m : CRagMatrix K) : (m.fixDistances n is js).data =
      rowLoop (fun a _ => a) is (n - 1) (rest n is) (rowLoop max js is (others n is js) m.data) := by
  rw [rest, others, rowLoop_append, rowLoop_append, rowLoop_append]
  unfold CRagMatrix.fixDistances
  rw [forLoop_data (fun a _ => a) is (n - 1), forLoop_data (fun a _ => a) is (n - 1), forLoop_data max js is,
    forLoop_data max js is, forLoop_data max js is]
  · simp only [Nat.sub_zero]
  · intro k _ hk m
    rw [get_eq m (by omega), get_eq m hk, set_data m hk]
    rfl
  · intro k hk hk' m
    rw [get_eq m (by omega), get_eq m (by omega), set_data m (by omega), write_comm, distance_comm m k js]
    rfl
  · intro k hk hk' m
    rw [get_eq m (by omega), get_eq m (by omega), set_data m (by omega), write_comm, distance_comm m k js,
      distance_comm m k is]
    rfl
  · intro k _ hk m
    rw [get_eq m (by omega), set_data m hk]
    rfl
  · intro k hk hk' m
    rw [get_eq m (by omega), set_data m (by omega), write_comm]
    rfl

theorem mem_others (hjs : js < is) (his : is < n) : k ∈ others n is js ↔ k < n ∧ k ≠ js ∧ k ≠ is := by
  simp only [others, mem_append, mem_range'_1]
  omega

theorem mem_rest (his : is < n) : k ∈ rest n is ↔ k < n - 1 ∧ k ≠ is := by
  simp only [rest, mem_append, mem_range'_1]
  omega

theorem nodup_others (hjs : js < is) : (others n is js).Nodup := by
  unfold others
  refine List.Nodup.append (List.Nodup.append nodup_range' nodup_range' ?_) nodup_range' ?_
  · intro k hk hk'
    rw [mem_range'_1] at hk hk'
    omega
  · intro k hk hk'
    simp only [mem_append, mem_range'_1] at hk hk'
    omega

theorem nodup_rest : (rest n is).Nodup := by
  unfold rest
  refine List.Nodup.append nodup_range' nodup_range' fun k hk hk' => ?_
  rw [mem_range'_1] at hk hk'
  omega

def source (n is x : ℕ) : ℕ := if x = is then n - 1 else x

def mergedDistance (m : CRagMatrix K) (is js u w : ℕ) : K :=
  if u = js then max (distance m is w) (distance m js w)
  else if w = js then max (distance m is u) (distance m js u)
  else distance m u w

theorem entry_others (hjs : js < is) (his : is < n) (m : CRagMatrix K) {u w : ℕ} (hu : u < n) (hw : w < n) (huw : u ≠ w)
    (hu' : u ≠ is) (hw' : w ≠ is) :
    entry (rowLoop max js is (others n is js) m.data) u w = mergedDistance m is js u w := by
  have hmem := fun k => mem_others (k := k) hjs his
  obtain ⟨hrow, hframe⟩ := foldl_write_row max (nodup_others (n := n) hjs) (i := js) (j := is) (fun h => ((hmem _).1 h).2.1 rfl)
    (fun h => ((hmem _).1 h).2.2 rfl) m.data
  unfold mergedDistance
  by_cases hujs : u = js
  · rw [if_pos hujs, hujs]
    exact hrow w ((hmem w).2 ⟨hw, fun h => huw (hujs.trans h.symm), hw'⟩)
  · rw [if_neg hujs]
    by_cases hwjs : w = js
    · rw [if_pos hwjs, hwjs, entry_comm]
      exact hrow u ((hmem u).2 ⟨hu, hujs, hu'⟩)
    · rw [if_neg hwjs]
      exact hframe u w huw (fun h => hujs h.1) (fun h => hwjs h.1)

theorem distance_fixDistances (hjs : js < is) (his : is < n) (m : CRagMatrix K) {y : ℕ} (hx : x < n - 1)
    (hy : y < n - 1) (hxy : x ≠ y) :
    distance (m.fixDistances n is js) x y = mergedDistance m is js (source n is x) (source n is y) := by
  have hmem := fun k => mem_rest (k := k) his
  obtain ⟨hrow, hframe⟩ := foldl_write_row (fun a _ => a) (nodup_rest (n := n)) (i := is) (j := n - 1)
    (fun h => ((hmem _).1 h).2 rfl) (fun h => (lt_irrefl _ ((hmem _).1 h).1)) (rowLoop max js is (others n is js) m.data)
  rw [distance, fixDistances_data hjs his]
  unfold source
  by_cases hxis : x = is
  · rw [if_pos hxis, if_neg (fun h => hxy (hxis.trans h.symm)), hxis]
    refine (hrow y ((hmem y).2 ⟨hy, fun h => hxy (hxis.trans h.symm)⟩)).trans ?_
    exact entry_others hjs his m (by omega) (by omega) (by omega) (by omega) (by omega)
  · rw [if_neg hxis]
    by_cases hyis : y = is
    · rw [if_pos hyis, hyis, entry_comm]
      refine (hrow x ((hmem x).2 ⟨hx, hxis⟩)).trans ?_
      rw [entry_comm]
      exact entry_others hjs his m (by omega) (by omega) (by omega) (by omega) (by omega)
    · rw [if_neg hyis]
      refine (hframe x y hxy (fun h => hxis h.1) (fun h => hyis h.1)).trans ?_
      exact entry_others hjs his m (by omega) (by omega) hxy hxis hyis

/-! ## The clusters -/

def mergedCluster (clusters : Clusters) (is js u : ℕ) : List ℕ :=
  if u = js then clusters.getD js [] ++ clusters.getD is [] else clusters.getD u []

variable {clusters : Clusters}

theorem length_mergeClusters (n is js : ℕ) (clusters : Clusters) :
    (mergeClusters n is js clusters).length = clusters.length - 1 := by
  simp only [mergeClusters, length_dropLast, length_set]

theorem getD_mergeClusters (hlen : clusters.length = n) (hjs : js < is) (his : is < n) (hx : x < n - 1) :
    (mergeClusters n is js clusters).getD x [] = mergedCluster clusters is js (source n is x) := by
  have hlt : x < (mergeClusters n is js clusters).length := by
    rw [length_mergeClusters]
    omega
  rw [getD_eq_getElem _ _ hlt]
  simp only [mergeClusters, getElem_dropLast]
  by_cases hxis : x = is
  · have hsource : source n is x = n - 1 := if_pos hxis
    rw [hsource, mergedCluster, if_neg (by omega), getElem_set, if_pos hxis.symm,
      getD_eq_getElem _ _ (by rw [length_set]; omega), getElem_set_ne (by omega)]
    exact (getD_eq_getElem _ _ (by omega)).symm
  · have hsource : source n is x = x := if_neg hxis
    rw [hsource, mergedCluster, getElem_set_ne (Ne.symm hxis), getElem_set]
    by_cases hxjs : x = js
    · rw [if_pos hxjs, if_pos hxjs.symm]
    · rw [if_neg hxjs, if_neg (Ne.symm hxjs)]
      exact (getD_eq_getElem _ _ (by omega)).symm

theorem source_lt (his : is < n) (hx : x < n - 1) : source n is x < n ∧ source n is x ≠ is := by
  unfold source
  split <;> omega

theorem source_inj {y : ℕ} (hx : x < n - 1) (hy : y < n - 1) (h : source n is x = source n is y) : x = y := by
  unfold source at h
  split at h <;> split at h <;> omega

theorem exists_of_mem_mergeClusters (hlen : clusters.length = n) (hjs : js < is) (his : is < n) {c : List ℕ}
    (hc : c ∈ mergeClusters n is js clusters) : ∃ u < n, u ≠ is ∧ c = mergedCluster clusters is js u := by
  obtain ⟨x, hx, rfl⟩ := getElem_of_mem hc
  have hx' : x < n - 1 := by
    rw [length_mergeClusters] at hx
    omega
  obtain ⟨hlt, hne⟩ := source_lt his hx'
  refine ⟨_, hlt, hne, ?_⟩
  rw [← getD_mergeClusters hlen hjs his hx', getD_eq_getElem _ _ hx]

theorem getD_mem (hx : x < clusters.length) : clusters.getD x [] ∈ clusters := by
  rw [getD_eq_getElem _ _ hx]
  exact getElem_mem hx

/-! ## What a merge keeps -/

section Merge

variable {d : ℕ → ℕ → K} {c c' e : List ℕ} {x y maxDistance : K}

theorem IsLinkage.symm (hd : ∀ a b, d a b = d b a) (h : IsLinkage d c e x) : IsLinkage d e c x := by
  obtain ⟨⟨a, ha, b, hb, hab⟩, hle⟩ := h
  refine ⟨⟨b, hb, a, ha, (hd b a).trans hab⟩, ?_⟩
  rintro y ⟨b', hb', a', ha', rfl⟩
  exact hle ⟨a', ha', b', hb', hd a' b'⟩

theorem IsLinkage.append (h : IsLinkage d c e x) (h' : IsLinkage d c' e y) : IsLinkage d (c ++ c') e (max x y) := by
  have hset : {z | ∃ a ∈ c ++ c', ∃ b ∈ e, d a b = z} =
      {z | ∃ a ∈ c, ∃ b ∈ e, d a b = z} ∪ {z | ∃ a ∈ c', ∃ b ∈ e, d a b = z} := by
    ext z
    simp only [mem_append, or_and_right, exists_or, Set.mem_ofPred_eq, Set.mem_union]
  rw [IsLinkage, hset]
  exact h.union h'

theorem isLinkage_mergedDistance (hd : ∀ a b, d a b = d b a) (h : Linkage d clusters m) (hlen : clusters.length = n)
    (hjs : js < is) (his : is < n) {u w : ℕ} (hu : u < n) (hw : w < n) (huw : u ≠ w) (hu' : u ≠ is) (hw' : w ≠ is) :
    IsLinkage d (mergedCluster clusters is js u) (mergedCluster clusters is js w) (mergedDistance m is js u w) := by
  have hlink : ∀ i j, i < n → j < n → i ≠ j → IsLinkage d (clusters.getD i []) (clusters.getD j []) (distance m i j) :=
    fun i j hi hj hij => h i j (by omega) (by omega) hij
  have hjoin : ∀ v, v < n → v ≠ js → v ≠ is → IsLinkage d (clusters.getD js [] ++ clusters.getD is [])
      (clusters.getD v []) (max (distance m is v) (distance m js v)) := by
    intro v hv hvjs hvis
    rw [max_comm]
    exact (hlink js v (by omega) hv (Ne.symm hvjs)).append (hlink is v his hv (Ne.symm hvis))
  unfold mergedCluster mergedDistance
  by_cases hujs : u = js
  · rw [if_pos hujs, if_pos hujs, if_neg (fun h => huw (hujs.trans h.symm))]
    exact hjoin w hw (fun h => huw (hujs.trans h.symm)) hw'
  · rw [if_neg hujs, if_neg hujs]
    by_cases hwjs : w = js
    · rw [if_pos hwjs, if_pos hwjs]
      exact (hjoin u hu hujs hu').symm hd
    · rw [if_neg hwjs, if_neg hwjs]
      exact hlink u w hu hw huw

theorem Linkage.step (hd : ∀ a b, d a b = d b a) (h : Linkage d clusters m) (hlen : clusters.length = n) (hjs : js < is)
    (his : is < n) : Linkage d (mergeClusters n is js clusters) (m.fixDistances n is js) := by
  intro i j hi hj hij
  rw [length_mergeClusters, hlen] at hi hj
  rw [getD_mergeClusters hlen hjs his hi, getD_mergeClusters hlen hjs his hj, distance_fixDistances hjs his m hi hj hij]
  obtain ⟨hi₁, hi₂⟩ := source_lt his hi
  obtain ⟨hj₁, hj₂⟩ := source_lt his hj
  exact isLinkage_mergedDistance hd h hlen hjs his hi₁ hj₁ (fun heq => hij (source_inj hi hj heq)) hi₂ hj₂

theorem mergeClusters_perm (hlen : clusters.length = n) (hjs : js < is) (his : is < n) :
    (mergeClusters n is js clusters).flatten.Perm clusters.flatten := by
  have hmerge : mergeClusters n is js clusters =
      swapRemove (clusters.set js (clusters.getD js [] ++ clusters.getD is [])) is [] := by
    have hlast : (clusters.set js (clusters.getD js [] ++ clusters.getD is [])).getD (n - 1) [] =
        (clusters.set js (clusters.getD js [] ++ clusters.getD is [])).getLastD [] := by
      rw [getLastD_eq_getLast?, getLast?_eq_getElem?, length_set, hlen, getD_eq_getElem?_getD]
    simp only [mergeClusters, swapRemove, hlast]
  have hget : ∀ x, x < n → clusters[x]? = some (clusters.getD x []) := by
    intro x hx
    rw [getD_eq_getElem _ _ (by omega), getElem?_eq_getElem (by omega)]
  have his' : (clusters.set js (clusters.getD js [] ++ clusters.getD is []))[is]? = some (clusters.getD is []) := by
    rw [getElem?_set_ne (by omega), hget is his]
  -- the points of the cluster `is` cancel on both sides
  have hout := (cons_swapRemove_perm his' []).flatten
  rw [← hmerge, flatten_cons] at hout
  have hset := (set_perm_cons_eraseIdx (l := clusters) (n := js) (by omega)
    (clusters.getD js [] ++ clusters.getD is [])).flatten
  have hold := (getElem_cons_eraseIdx_perm (l := clusters) (n := js) (by omega)).flatten
  rw [flatten_cons] at hset hold
  rw [← getD_eq_getElem _ [] (by omega)] at hold
  have hboth : (clusters.getD is [] ++ (mergeClusters n is js clusters).flatten).Perm
      (clusters.getD is [] ++ clusters.flatten) := by
    refine hout.trans (hset.trans ?_)
    have hswap : ((clusters.getD js [] ++ clusters.getD is []) ++ (clusters.eraseIdx js).flatten).Perm
        (clusters.getD is [] ++ (clusters.getD js [] ++ (clusters.eraseIdx js).flatten)) := by
      rw [← append_assoc]
      exact perm_append_comm.append_right _
    exact hswap.trans (hold.append_left _)
  exact (perm_append_left_iff _).1 hboth

theorem Partition.step (h : Partition k clusters) (hlen : clusters.length = n) (hjs : js < is) (his : is < n) :
    Partition k (mergeClusters n is js clusters) := by
  refine ⟨(mergeClusters_perm hlen hjs his).trans h.perm, fun c hc => ?_⟩
  obtain ⟨u, hu, -, rfl⟩ := exists_of_mem_mergeClusters hlen hjs his hc
  unfold mergedCluster
  split
  · exact append_ne_nil_of_left_ne_nil (h.nonempty _ (getD_mem (by omega))) _
  · exact h.nonempty _ (getD_mem (by omega))

theorem Close.step (hd : ∀ a b, d a b = d b a) (h : Close d maxDistance clusters) (hlink : Linkage d clusters m)
    (hlen : clusters.length = n) (hjs : js < is) (his : is < n) (hmax : distance m is js ≤ maxDistance) :
    Close d maxDistance (mergeClusters n is js clusters) := by
  have hcross : ∀ a ∈ clusters.getD is [], ∀ b ∈ clusters.getD js [], d a b ≤ maxDistance := by
    intro a ha b hb
    exact ((hlink is js (by omega) (by omega) (by omega)).2 ⟨a, ha, b, hb, rfl⟩).trans hmax
  intro c hc a ha b hb hab
  obtain ⟨u, hu, -, rfl⟩ := exists_of_mem_mergeClusters hlen hjs his hc
  unfold mergedCluster at ha hb
  split at ha
  · rw [if_pos ‹_›] at hb
    rcases mem_append.1 ha with ha | ha <;> rcases mem_append.1 hb with hb | hb
    · exact h _ (getD_mem (by omega)) a ha b hb hab
    · rw [hd]
      exact hcross b hb a ha
    · exact hcross a ha b hb
    · exact h _ (getD_mem (by omega)) a ha b hb hab
  · rw [if_neg ‹_›] at hb
    exact h _ (getD_mem (by omega)) a ha b hb hab

end Merge

/-! ## The loop -/

theorem Linkage.apart {d : ℕ → ℕ → K} {maxDistance : K} (h : Linkage d clusters m)
    (hfar : ∀ i j, i < clusters.length → j < i → maxDistance < distance m i j) :
    clusters.Pairwise fun c c' => ∃ a ∈ c, ∃ b ∈ c', maxDistance < d a b := by
  rw [pairwise_iff_getElem]
  intro i j hi hj hij
  obtain ⟨a, ha, b, hb, hab⟩ := (h i j hi hj hij.ne).1
  rw [getD_eq_getElem _ _ hi] at ha
  rw [getD_eq_getElem _ _ hj] at hb
  refine ⟨a, ha, b, hb, ?_⟩
  rw [hab, distance_comm]
  exact hfar j i hj hij

theorem mergeLoop_ok {d : ℕ → ℕ → K} (hd : ∀ a b, d a b = d b a) {maxDistance : K} (n : ℕ) (m : CRagMatrix K)
    (clusters : Clusters) (hlen : clusters.length = n) (hpart : Partition k clusters)
    (hclose : Close d maxDistance clusters) (hlink : Linkage d clusters m) :
    Clustering d maxDistance k (mergeLoop maxDistance n m clusters) := by
  fun_induction mergeLoop maxDistance n m clusters with
  | case1 n m clusters p hfar =>
    have hp := findClosestPair_ok m (Nat.le_add_left 2 n)
    refine ⟨hpart, hclose, hlink.apart fun i j hi hj => ?_⟩
    exact lt_of_lt_of_le hfar (hp.le i j (by omega) hj)
  | case2 n m clusters p hnear ih =>
    have hp := findClosestPair_ok m (Nat.le_add_left 2 n)
    have hmax : distance m p.ir p.jr ≤ maxDistance := hp.eq ▸ not_lt.1 hnear
    refine ih ?_ (hpart.step hlen hp.jr_lt hp.ir_lt) (hclose.step hd hlink hlen hp.jr_lt hp.ir_lt hmax)
      (hlink.step hd hlen hp.jr_lt hp.ir_lt)
    rw [length_mergeClusters, hlen]
    rfl
  | case3 n m clusters hn =>
    refine ⟨hpart, hclose, hlink.apart fun i j hi hj => ?_⟩
    obtain ⟨k, hk⟩ : ∃ k, n = k + 2 := ⟨n - 2, by omega⟩
    exact absurd hk (hn k)

def singletons (n : ℕ) : Clusters := (range n).map fun i => [i]

theorem partition_singletons (n : ℕ) : Partition n (singletons n) := by
  refine ⟨?_, fun c hc => ?_⟩
  · rw [singletons, ← flatMap_def, flatMap_singleton']
  · obtain ⟨i, -, rfl⟩ := mem_map.1 hc
    exact cons_ne_nil i []

theorem close_singletons (d : ℕ → ℕ → K) (maxDistance : K) (n : ℕ) : Close d maxDistance (singletons n) := by
  intro c hc a ha b hb hab
  obtain ⟨i, -, rfl⟩ := mem_map.1 hc
  rw [mem_singleton] at ha hb
  exact absurd (ha.trans hb.symm) hab

theorem linkage_singletons (m : CRagMatrix K) (n : ℕ) : Linkage (distance m) (singletons n) m := by
  intro i j hi hj _
  have hget : ∀ x, x < (singletons n).length → (singletons n).getD x [] = [x] := by
    intro x hx
    rw [getD_eq_getElem _ _ hx]
    simp [singletons]
  rw [hget i hi, hget j hj]
  refine ⟨⟨i, mem_singleton_self i, j, mem_singleton_self j, rfl⟩, ?_⟩
  rintro y ⟨a, ha, b, hb, rfl⟩
  rw [mem_singleton.1 ha, mem_singleton.1 hb]

theorem clusterize_ok (m : CRagMatrix K) (maxDistance : K) :
    Clustering (distance m) maxDistance m.nrows (clusterize m maxDistance) :=
  mergeLoop_ok (distance_comm m) m.nrows m (singletons m.nrows) (by rw [singletons, length_map, length_range])
    (partition_singletons m.nrows) (close_singletons _ _ _) (linkage_singletons m m.nrows)

def fourPoints : CRagMatrix ℤ where
  nrows := 4
  data := fun k => [1, 5, 4, 6, 5, 1].getD k 0

example : clusterize fourPoints 2 = [[0, 1], [3, 2]] := by decide

end Circuit.Spec.CompleteLinkage
