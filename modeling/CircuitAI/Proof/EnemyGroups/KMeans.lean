import CircuitAI.Framework.SortedScan
import CircuitAI.Spec.Regrouping
import Mathlib.Algebra.BigOperators.Ring.List
import Mathlib.Algebra.Field.Rat
import Mathlib.Algebra.Order.BigOperators.Group.List
import Mathlib.Data.Nat.Cast.Order.Ring

/-!
# An iteration of k-means

* `closestIndex_ok`, `maxThreatIdx_ok`: the two scans find a best group, and `closestIndex_eq` says that the sentinel of the
  first one does not matter;
* `GroupOf.addEnemy`: one more member, `groupOf_foldl`: all members of a group;
* `getElem_addEnemies`: the loop over all enemies makes each group of its members;
* `GroupOf.replace`: only groups without members are at the origin and replaced;
* `kMeansIteration_ok`.
-/

set_option linter.unusedSectionVars false

namespace Circuit.Spec.Regrouping

open Circuit.Framework List
open Impl.EnemyGroups
open Impl.TerrainManager (AIFloat3)

variable {ρ : Type*} [DecidableEq ρ]

/-! ## Scans -/

variable {groups : List (EnemyGroup ρ)} {e : EnemyData ρ}

theorem closestIndex_best {closestDistance : WithTop ℚ}
    (h : ∃ g ∈ groups, (e.pos.sqDistance2D g.pos : WithTop ℚ) < closestDistance) :
    closestIndex closestDistance groups e =
      (best (· < ·) (fun g => (e.pos.sqDistance2D g.pos : WithTop ℚ)) groups).map (·.2) :=
  bestBelow_eq h

theorem closestIndex_ok (hne : groups ≠ []) (e : EnemyData ρ) :
    ∃ m g, closestIndex ⊤ groups e = some m ∧ groups[m]? = some g ∧
      ∀ g' ∈ groups, e.pos.sqDistance2D g.pos ≤ e.pos.sqDistance2D g'.pos := by
  obtain ⟨m, g, hbest, hget, hle⟩ := foldl_best (fun a b : WithTop ℚ => a < b) (fun _ _ => lt_asymm)
    (fun _ _ _ hab hbc => not_lt.2 ((not_lt.1 hab).trans (not_lt.1 hbc)))
    (fun g : EnemyGroup ρ => (e.pos.sqDistance2D g.pos : WithTop ℚ)) hne
  refine ⟨m, g, ?_, hget, fun g' hg' => WithTop.coe_le_coe.1 (not_lt.1 (hle g' hg'))⟩
  rw [closestIndex_best ⟨g, mem_of_getElem? hget, WithTop.coe_lt_top _⟩, hbest]
  rfl

theorem maxThreatIdx_ok (hne : groups ≠ []) :
    ∃ g, groups[maxThreatIdx groups]? = some g ∧ ∀ g' ∈ groups, g'.threat ≤ g.threat := by
  obtain ⟨m, g, hbest, hget, hle⟩ := foldl_best (fun a b : ℚ => b < a) (fun _ _ => lt_asymm)
    (fun _ _ _ hab hbc => not_lt.2 ((not_lt.1 hbc).trans (not_lt.1 hab))) (fun g : EnemyGroup ρ => g.threat) hne
  refine ⟨g, ?_, fun g' hg' => not_lt.1 (hle g' hg')⟩
  have hmax : maxThreatIdx groups = (best (fun a b : ℚ => b < a) (fun g => g.threat) groups).elim 0 (·.2) := rfl
  rw [hmax, hbest]
  exact hget

theorem closestIndex_eq {floatMax : ℚ} (h : ∃ g ∈ groups, e.pos.sqDistance2D g.pos < floatMax) :
    closestIndex floatMax groups e = closestIndex ⊤ groups e := by
  obtain ⟨g, hg, hlt⟩ := h
  rw [closestIndex_best ⟨g, hg, WithTop.coe_lt_coe.2 hlt⟩, closestIndex_best ⟨g, hg, WithTop.coe_lt_top _⟩]

/-! ## Members of a group -/

section Members

variable {mod : InitThrMod} {n : ℕ} {members : List (EnemyData ρ)} {g : EnemyGroup ρ}

def share (n : ℕ) (members : List (EnemyData ρ)) : AIFloat3 :=
  ⟨(members.map fun e => e.pos.x / (n : ℚ)).sum, (members.map fun e => e.pos.y / (n : ℚ)).sum,
    (members.map fun e => e.pos.z / (n : ℚ)).sum⟩

structure Filling (mod : InitThrMod) (n : ℕ) (members : List (EnemyData ρ)) (g : EnemyGroup ρ) : Prop where
  units : g.units = ids members
  roleCosts : ∀ r, g.roleCosts r = (members.map (roleCost r)).sum
  cost : g.cost = (members.map cost).sum
  threat : g.threat = (members.map (threat mod)).sum
  pos : g.pos = share n members

theorem filling_clear (mod : InitThrMod) (n : ℕ) (g : EnemyGroup ρ) : Filling mod n [] g.clear :=
  ⟨rfl, fun _ => rfl, rfl, rfl, rfl⟩

theorem ids_append (l l' : List (EnemyData ρ)) : ids (l ++ l') = ids l ++ ids l' := by
  rw [ids, filter_append, map_append, ids, ids]

theorem addEnemy_units (mod : InitThrMod) (n : ℕ) (g : EnemyGroup ρ) (e : EnemyData ρ) :
    (g.addEnemy mod n e).units = g.units ++ ids [e] := by
  cases hf : e.isFake <;> cases hd : e.cdef <;> simp [EnemyGroup.addEnemy, ids, hf, hd]

theorem addEnemy_pos (mod : InitThrMod) (n : ℕ) (g : EnemyGroup ρ) (e : EnemyData ρ) :
    (g.addEnemy mod n e).pos = g.pos.add (e.pos.div (max 1 n : ℕ)) := by
  cases hd : e.cdef <;> simp [EnemyGroup.addEnemy, hd]

theorem addEnemy_roleCosts (mod : InitThrMod) (n : ℕ) (g : EnemyGroup ρ) (e : EnemyData ρ) (r : ρ) :
    (g.addEnemy mod n e).roleCosts r = g.roleCosts r + roleCost r e := by
  cases hd : e.cdef with
  | none => simp [EnemyGroup.addEnemy, roleCost, hd]
  | some d =>
    by_cases hr : d.mainRole = r
    · subst hr
      simp [EnemyGroup.addEnemy, roleCost, hd]
    · simp [EnemyGroup.addEnemy, roleCost, hd, hr, Function.update_of_ne (Ne.symm hr)]

theorem addEnemy_cost (mod : InitThrMod) (n : ℕ) (g : EnemyGroup ρ) (e : EnemyData ρ) :
    (g.addEnemy mod n e).cost = g.cost + cost e := by
  cases hd : e.cdef with
  | none => simp [EnemyGroup.addEnemy, cost, hd]
  | some d =>
    by_cases hs : (!d.isMobile || e.isInRadarOrLOS) = true
    · simp only [EnemyGroup.addEnemy, cost, hd, if_pos hs]
    · simp only [EnemyGroup.addEnemy, cost, hd, if_neg hs, add_zero]

theorem addEnemy_threat (mod : InitThrMod) (n : ℕ) (g : EnemyGroup ρ) (e : EnemyData ρ) :
    (g.addEnemy mod n e).threat = g.threat + threat mod e := by
  cases hd : e.cdef <;> simp [EnemyGroup.addEnemy, threat, hd]

theorem Filling.addEnemy (h : Filling mod n members g) (hn : 1 ≤ n) (e : EnemyData ρ) :
    Filling mod n (members ++ [e]) (g.addEnemy mod n e) where
  units := by rw [addEnemy_units, h.units, ids_append]
  roleCosts r := by rw [addEnemy_roleCosts, h.roleCosts, map_append, sum_append, map_singleton, sum_singleton]
  cost := by rw [addEnemy_cost, h.cost, map_append, sum_append, map_singleton, sum_singleton]
  threat := by rw [addEnemy_threat, h.threat, map_append, sum_append, map_singleton, sum_singleton]
  pos := by
    rw [addEnemy_pos, h.pos, max_eq_right hn]
    simp [share, AIFloat3.add, AIFloat3.div]

theorem filling_foldl (mod : InitThrMod) (hn : 1 ≤ n) (g : EnemyGroup ρ) (members : List (EnemyData ρ)) :
    Filling mod n members (members.foldl (fun g e => g.addEnemy mod n e) g.clear) := by
  induction members using reverseRecOn with
  | nil => exact filling_clear mod n g
  | append_singleton members e ih =>
    rw [foldl_append]
    exact ih.addEnemy hn e

theorem share_length (members : List (EnemyData ρ)) : share members.length members = mean (members.map EnemyData.pos) := by
  have hsum : ∀ f : EnemyData ρ → ℚ, (members.map fun e => f e / members.length).sum =
      (members.map f).sum / members.length := by
    intro f
    simp only [div_eq_mul_inv]
    rw [sum_map_mul_right]
  simp only [share, mean, hsum, map_map, length_map]
  rfl

theorem groupOf_foldl (mod : InitThrMod) (g : EnemyGroup ρ) (members : List (EnemyData ρ)) :
    GroupOf mod members (members.foldl (fun g e => g.addEnemy mod members.length e) g.clear) := by
  rcases eq_nil_or_concat members with rfl | ⟨l, e, rfl⟩
  · exact ⟨rfl, fun _ => rfl, rfl, rfl, fun h => absurd rfl h⟩
  · have h := filling_foldl mod (n := (l.concat e).length) (by simp) g (l.concat e)
    exact ⟨h.units, h.roleCosts, h.cost, h.threat, fun _ => h.pos.trans (share_length _)⟩

theorem mean_ne_zero (hne : members ≠ []) (hpos : Placed members) :
    mean (members.map EnemyData.pos) ≠ AIFloat3.zeroVector := by
  have hsum : (members.length : ℚ) ≤ (members.map fun e => e.pos.x).sum := by
    have h := card_nsmul_le_sum (members.map fun e => e.pos.x) 1 (by simpa using fun e he => (hpos e he).1)
    simpa using h
  have hlen : (0 : ℚ) < members.length := by exact_mod_cast length_pos_iff.2 hne
  intro h
  have hx := congrArg AIFloat3.x h
  simp only [mean, map_map, length_map, AIFloat3.zeroVector] at hx
  have hpos' : 0 < (members.map fun e => e.pos.x).sum / members.length := div_pos (hlen.trans_le hsum) hlen
  exact hpos'.ne' hx

theorem GroupOf.replace (h : GroupOf mod members g) (hpos : Placed members) (p : AIFloat3) :
    GroupOf mod members (if g.pos = .zeroVector then .new p else g) := by
  by_cases hzero : g.pos = .zeroVector
  · rw [if_pos hzero]
    have hnil : members = [] := by
      by_contra hne
      exact mean_ne_zero hne hpos ((h.pos hne).symm.trans hzero)
    subst hnil
    exact ⟨rfl, fun _ => rfl, rfl, rfl, fun hne => absurd rfl hne⟩
  · rwa [if_neg hzero]

end Members

/-! ## All groups -/

section Groups

variable {mod : InitThrMod} {datas : List (EnemyData ρ)} {groups : List (EnemyGroup ρ)} {assigned : EnemyData ρ → ℕ}

theorem count_assigned (h : ∀ e ∈ datas, closestIndex ⊤ groups e = some (assigned e)) (m : ℕ) :
    (datas.map (closestIndex ⊤ groups)).count (some m) = (bin assigned datas m).length := by
  rw [count_eq_countP, countP_map, bin, ← countP_eq_length_filter]
  refine countP_congr fun e he => ?_
  simp [h e he]

theorem getElem_addEnemies (h : ∀ e ∈ datas, closestIndex ⊤ groups e = some (assigned e)) (m : ℕ) :
    (addEnemies mod (groups.map EnemyGroup.clear) datas (datas.map (closestIndex ⊤ groups)))[m]? =
      groups[m]?.map fun g => (bin assigned datas m).foldl
        (fun g e => g.addEnemy mod (bin assigned datas m).length e) g.clear := by
  have hloop : addEnemies mod (groups.map EnemyGroup.clear) datas (datas.map (closestIndex ⊤ groups)) =
      datas.foldl (fun groups e => groups.modify (assigned e)
        fun g => g.addEnemy mod (bin assigned datas (assigned e)).length e) (groups.map EnemyGroup.clear) := by
    have hzip : datas.zip (datas.map (closestIndex ⊤ groups)) = datas.map fun e => (e, some (assigned e)) := by
      rw [← map_prod_left_eq_zip]
      exact map_congr_left fun e he => by rw [h e he]
    simp only [addEnemies, hzip, foldl_map, count_assigned h]
  rw [hloop, foldl_modify_bins (fun e (g : EnemyGroup ρ) => g.addEnemy mod (bin assigned datas (assigned e)).length e),
    getElem?_map, Option.map_map]
  refine congrArg (fun f => groups[m]?.map f) (funext fun g => ?_)
  refine foldl_ext _ _ _ fun g e he => ?_
  rw [(mem_bin.1 he).2]

theorem length_addEnemies (mod : InitThrMod) (groups : List (EnemyGroup ρ)) (datas : List (EnemyData ρ))
    (l : List (Option ℕ)) : (addEnemies mod groups datas l).length = groups.length := by
  unfold addEnemies
  induction datas.zip l generalizing groups with
  | nil => rfl
  | cons ei l ih =>
    rw [foldl_cons, ih]
    split
    · rw [length_modify]
    · rfl

theorem sum_groups {f : EnemyGroup ρ → ℚ} {c : EnemyData ρ → ℚ} (hlt : ∀ e ∈ datas, assigned e < groups.length)
    (h : ∀ (m : ℕ) g, groups[m]? = some g → f g = ((bin assigned datas m).map c).sum) :
    (groups.map f).sum = (datas.map c).sum := by
  have hmap : groups.map f = (range groups.length).map fun m => ((bin assigned datas m).map c).sum := by
    refine ext_getElem (by simp) fun m hm hm' => ?_
    rw [length_map] at hm
    rw [getElem_map, getElem_map, getElem_range]
    exact h m _ (getElem?_eq_getElem hm)
  rw [hmap, sum_bins c hlt]

theorem once_of_group (hlt : ∀ e ∈ datas, assigned e < groups.length)
    (h : ∀ (m : ℕ) g, groups[m]? = some g → GroupOf mod (bin assigned datas m) g) (hids : (ids datas).Nodup)
    (he : e ∈ datas) (hfake : e.isFake = false) : ∃! m : ℕ, ∃ g, groups[m]? = some g ∧ e.id ∈ g.units := by
  have hreal : ∀ d ∈ datas, d.isFake = false → d ∈ datas.filter fun e => !e.isFake := by
    intro d hd hf
    exact mem_filter.2 ⟨hd, by simp [hf]⟩
  obtain ⟨g, hg⟩ : ∃ g, groups[assigned e]? = some g := ⟨_, getElem?_eq_getElem (hlt e he)⟩
  refine ⟨assigned e, ⟨g, hg, ?_⟩, ?_⟩
  · rw [(h _ g hg).units]
    exact List.mem_map_of_mem (mem_filter.2 ⟨mem_bin.2 ⟨he, rfl⟩, by simp [hfake]⟩)
  · rintro m ⟨g, hg, hmem⟩
    rw [(h m g hg).units] at hmem
    obtain ⟨d, hd, hid⟩ := List.mem_map.1 hmem
    obtain ⟨hbin, hf⟩ := mem_filter.1 hd
    obtain ⟨hd', rfl⟩ := mem_bin.1 hbin
    have heq := inj_on_of_nodup_map hids (hreal d hd' (by simpa using hf)) (hreal e he hfake) hid
    rw [heq]

end Groups

/-! ## The iteration -/

theorem foldl_add (l : List AIFloat3) (p : AIFloat3) : l.foldl AIFloat3.add p =
      ⟨p.x + (l.map AIFloat3.x).sum, p.y + (l.map AIFloat3.y).sum, p.z + (l.map AIFloat3.z).sum⟩ := by
  induction l generalizing p with
  | nil => simp
  | cons q l ih =>
    rw [foldl_cons, ih]
    simp [AIFloat3.add, add_assoc]

theorem length_resize {β : Type*} (l : List β) (n : ℕ) (x : β) : (resize l n x).length = n := by
  rw [resize, length_append, length_take, length_replicate]
  omega

theorem newK_pos (enemySize : ℕ) : 0 < newK enemySize := by
  unfold newK
  omega

theorem exists_assigned (hne : groups ≠ []) :
    ∃ assigned : EnemyData ρ → ℕ, ∀ e, ∃ g, closestIndex ⊤ groups e = some (assigned e) ∧ groups[assigned e]? = some g ∧
      ∀ g' ∈ groups, e.pos.sqDistance2D g.pos ≤ e.pos.sqDistance2D g'.pos := by
  choose m g hm hg hle using fun e => closestIndex_ok hne e
  exact ⟨m, fun e => ⟨g e, hm e, hg e, hle e⟩⟩

/-- An iteration of k-means puts every enemy into a group whose mean was nearest, and makes the groups anew. -/
theorem kMeansIteration_ok (mod : InitThrMod) (hostileDatas peaceDatas : List (EnemyData ρ)) (enemyPos : AIFloat3)
    (enemyGroups : List (EnemyGroup ρ)) (hpos : Placed (hostileDatas ++ peaceDatas)) :
    ∃ assigned, Regrouped mod (hostileDatas ++ peaceDatas)
      (startGroups hostileDatas peaceDatas enemyPos enemyGroups) assigned
      (kMeansIteration mod hostileDatas peaceDatas enemyPos enemyGroups) := by
  set datas := hostileDatas ++ peaceDatas
  set newPos := newMeansPosition hostileDatas peaceDatas enemyPos
  set start := startGroups hostileDatas peaceDatas enemyPos enemyGroups
  have hlen : start.length = newK datas.length := length_resize ..
  have hK : 0 < newK datas.length := newK_pos _
  obtain ⟨assigned, hnear⟩ := exists_assigned (ne_nil_of_length_pos (hlen ▸ hK))
  let final := (addEnemies mod (start.map EnemyGroup.clear) datas (datas.map (closestIndex ⊤ start))).map fun g =>
    if g.pos = .zeroVector then EnemyGroup.new newPos else g
  have hfinal : (kMeansIteration mod hostileDatas peaceDatas enemyPos enemyGroups).enemyGroups = final := rfl
  have hflen : final.length = start.length := by
    rw [length_map, length_addEnemies, length_map]
  have hlt : ∀ e ∈ datas, assigned e < final.length := by
    intro e _
    obtain ⟨g, -, hg, -⟩ := hnear e
    rw [hflen]
    exact (List.getElem?_eq_some_iff.1 hg).1
  have hgroup : ∀ (m : ℕ) g, final[m]? = some g → GroupOf mod (bin assigned datas m) g := by
    intro m g hg
    rw [getElem?_map, getElem_addEnemies fun e _ => (hnear e).choose_spec.1, Option.map_map] at hg
    obtain ⟨g₀, -, rfl⟩ := Option.map_eq_some_iff.1 hg
    refine (groupOf_foldl mod g₀ (bin assigned datas m)).replace (fun e he => ?_) newPos
    exact hpos e (mem_bin.1 he).1
  have hfne : final ≠ [] := ne_nil_of_length_pos (by rw [hflen, hlen]; exact hK)
  refine ⟨assigned, ⟨hflen, fun e _ => ?_, hgroup, ?_, fun role => ?_, ?_, ?_, ?_, ?_⟩⟩
  · obtain ⟨g, -, hg, hle⟩ := hnear e
    exact ⟨g, hg, hle⟩
  · exact fun hids e he hfake => once_of_group hlt hgroup hids he hfake
  · exact sum_groups hlt fun m g hg => (hgroup m g hg).roleCosts role
  · exact sum_groups hlt fun m g hg => (hgroup m g hg).cost
  · exact sum_groups hlt fun m g hg => (hgroup m g hg).threat
  · exact maxThreatIdx_ok hfne
  · have hmean : (kMeansIteration mod hostileDatas peaceDatas enemyPos enemyGroups).enemyPos =
        ((final.map EnemyGroup.pos).foldl AIFloat3.add AIFloat3.zeroVector).div (newK datas.length : ℕ) := rfl
    rw [hmean, hfinal, foldl_add, mean, length_map, hflen, hlen]
    simp [AIFloat3.div, AIFloat3.zeroVector]

def twoEnemies : List (EnemyData Unit) :=
  [⟨7, some ⟨(), true⟩, ⟨16, 0, 8⟩, 100, 2, true⟩, ⟨9, none, ⟨48, 0, 8⟩, 0, 1, true⟩]

theorem kMeansIteration_two : Placed twoEnemies ∧
    ∃ assigned, Regrouped ⟨1, 0⟩ twoEnemies (startGroups twoEnemies [] .zeroVector [.new ⟨50, 0, 8⟩]) assigned
      (kMeansIteration ⟨1, 0⟩ twoEnemies [] .zeroVector [.new ⟨50, 0, 8⟩]) := by
  have hpos : Placed twoEnemies := by
    unfold Placed
    decide +kernel
  exact ⟨hpos, kMeansIteration_ok ⟨1, 0⟩ twoEnemies [] .zeroVector [.new ⟨50, 0, 8⟩] hpos⟩

end Circuit.Spec.Regrouping
