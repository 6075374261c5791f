import CircuitAI.Proof.ThreatMap.Snapshots
import CircuitAI.Spec.ThreatLayers
import Mathlib.Analysis.Real.Sqrt
import Mathlib.Tactic.FinCases
import Mathlib.Tactic.Positivity

/-!
# The threat layers are sums

The writes of `Update` first set every cell to its base value and then add; what they leave in a cell is the base value
and the amounts added to it (`layers_apply`). The loops of the drawing methods go through every cell at most once, so
that an enemy adds its contribution (`deposited_around`, `deposited_addEnemyUnit`).
-/

set_option linter.unusedSectionVars false

namespace Circuit.Spec.ThreatLayers

open Framework Impl.ThreatMap Function List

variable {K : Type*} [Field K] [LinearOrder K] [FloorRing K] {env : Env K} {sector : ℤ → Sector K} {e : EnemyData K}
  {layer : Layer} {x z index : ℤ}

/-! ## Writes -/

variable {w : Write K} {range : ℤ} {draw : ℤ → ℤ → List (Write K)} {heat : ℤ → K}

def amount : Write K → Layer × ℤ → K
  | .fill _ _, _ => 0
  | .add layer index heat, n => if n.1 = layer ∧ n.2 = index then heat else 0

def cellOf : Write K → ℤ
  | .fill _ index | .add _ index _ => index

def IsAdd : Write K → Prop
  | .fill _ _ => False
  | .add _ _ _ => True

theorem run_add (hw : IsAdd w) (d : ThreatData K) (l : Layer) (i : ℤ) : w.run d l i = d l i + amount w (l, i) := by
  cases w with
  | fill layer index => exact hw.elim
  | add layer index heat =>
    rw [Write.run, setCell_apply, amount]
    split_ifs with h
    · obtain ⟨rfl, rfl⟩ := h
      rfl
    · rw [add_zero]

theorem foldl_adds {ws : List (Write K)} (hws : ∀ w ∈ ws, IsAdd w) (d : ThreatData K) (l : Layer) (i : ℤ) :
    ws.foldl Write.run d l i = d l i + deposited amount ws (l, i) := by
  induction ws generalizing d with
  | nil => simp
  | cons w ws ih =>
    rw [foldl_cons, ih (fun v hv => hws v (mem_cons_of_mem w hv)), run_add (hws w mem_cons_self),
      deposited_cons, add_assoc]

theorem foldl_prepare {i : ℤ} (hi : InMap env i) (d : ThreatData K) (l : Layer) :
    env.prepare.foldl Write.run d l i = base l :=
  foldl_fills base (fun _ _ _ => rfl) (by cases l <;> simp [Layer.all]) (Int.mem_range_iff.mpr hi) d

/-! ## Cells -/

theorem OnMap.inMap (h : OnMap env x z) : InMap env (z * env.width + x) := by
  obtain ⟨⟨hx, hx'⟩, hz, hz'⟩ := h
  constructor <;> nlinarith

theorem index_inj {w x z x' z' : ℤ} (hx : 0 ≤ x ∧ x < w) (hx' : 0 ≤ x' ∧ x' < w) (h : z * w + x = z' * w + x') :
    z = z' ∧ x = x' := by
  have hdiv : ∀ {x z : ℤ}, 0 ≤ x ∧ x < w → (z * w + x) / w = z := fun {x z} hx => by
    have hw : w ≠ 0 := by omega
    rw [add_comm, Int.add_mul_ediv_right _ _ hw, Int.ediv_eq_zero_of_lt hx.1 hx.2, zero_add]
  have hz : z = z' := (hdiv hx).symm.trans ((congrArg (· / w) h).trans (hdiv hx'))
  exact ⟨hz, by rw [hz] at h; exact add_left_cancel h⟩

theorem nodup_range (a b : ℤ) : (Int.range a b).Nodup := by
  unfold Int.range
  exact List.nodup_range.map fun i j h => by simpa using h

theorem around_eq : env.around e range draw =
    (Int.range (max ((env.posToXZ e).2 - range + 1) 0) (min ((env.posToXZ e).2 + range) env.height)).flatMap fun z =>
      (Int.range (max ((env.posToXZ e).1 - range + 1) 0) (min ((env.posToXZ e).1 + range) env.width)).flatMap fun x =>
        draw (z * env.width + x) (distSq env e x z) :=
  rfl

theorem mem_around : w ∈ env.around e range draw ↔ ∃ x z, OnMap env x z ∧ InBox env e range x z ∧
      w ∈ draw (z * env.width + x) (distSq env e x z) := by
  simp only [around_eq, mem_flatMap, Int.mem_range_iff, InBox, OnMap, abs_lt, max_le_iff, lt_min_iff]
  constructor
  · rintro ⟨z, ⟨⟨hz₁, hz₂⟩, hz₃, hz₄⟩, x, ⟨⟨hx₁, hx₂⟩, hx₃, hx₄⟩, hw⟩
    exact ⟨x, z, ⟨⟨hx₂, hx₄⟩, hz₂, hz₄⟩, ⟨⟨by omega, by omega⟩, by omega, by omega⟩, hw⟩
  · rintro ⟨x, z, ⟨⟨hx₂, hx₄⟩, hz₂, hz₄⟩, ⟨⟨hx₁, hx₃⟩, hz₁, hz₃⟩, hw⟩
    exact ⟨z, ⟨⟨by omega, hz₂⟩, by omega, hz₄⟩, x, ⟨⟨by omega, hx₂⟩, by omega, hx₄⟩, hw⟩

theorem amount_of_cellOf_ne (h : cellOf w ≠ index) : amount w (layer, index) = 0 := by
  cases w with
  | fill => rfl
  | add l i heat => exact if_neg fun h' => h h'.2.symm

def Draws (draw : ℤ → ℤ → List (Write K)) : Prop := ∀ i sum, ∀ w ∈ draw i sum, IsAdd w ∧ cellOf w = i

theorem Draws.around (hdraw : Draws draw) : ∀ w ∈ env.around e range draw, IsAdd w ∧ InMap env (cellOf w) := by
  intro w hw
  obtain ⟨x, z, hmap, -, hw⟩ := mem_around.mp hw
  obtain ⟨hadd, hcell⟩ := hdraw _ _ w hw
  exact ⟨hadd, hcell ▸ hmap.inMap⟩

theorem deposited_around (hdraw : Draws draw) (hmap : OnMap env x z) :
    deposited amount (env.around e range draw) (layer, z * env.width + x) = if InBox env e range x z then
        deposited amount (draw (z * env.width + x) (distSq env e x z)) (layer, z * env.width + x) else 0 := by
  have hother : ∀ x' z', 0 ≤ x' ∧ x' < env.width → ¬ (z' = z ∧ x' = x) →
      deposited amount (draw (z' * env.width + x') (distSq env e x' z')) (layer, z * env.width + x) = 0 := by
    intro x' z' hx' hne
    refine deposited_eq_zero _ fun w hw => amount_of_cellOf_ne fun hw' => hne ?_
    exact index_inj hx' hmap.1 ((hdraw _ _ w hw).2.symm.trans hw')
  have hx : ∀ {x'}, x' ∈ Int.range (max ((env.posToXZ e).1 - range + 1) 0) (min ((env.posToXZ e).1 + range) env.width) →
      0 ≤ x' ∧ x' < env.width := by
    intro x' hx'
    rw [Int.mem_range_iff, max_le_iff, lt_min_iff] at hx'
    exact ⟨hx'.1.2, hx'.2.2⟩
  have hiff : z ∈ Int.range (max ((env.posToXZ e).2 - range + 1) 0) (min ((env.posToXZ e).2 + range) env.height) ∧
      x ∈ Int.range (max ((env.posToXZ e).1 - range + 1) 0) (min ((env.posToXZ e).1 + range) env.width) ↔
      InBox env e range x z := by
    obtain ⟨⟨hx₁, hx₂⟩, hz₁, hz₂⟩ := hmap
    simp only [Int.mem_range_iff, max_le_iff, lt_min_iff, InBox, abs_lt]
    omega
  rw [around_eq, deposited_flatMap_single _ (nodup_range _ _) z fun z' _ hz' => ?_,
    deposited_flatMap_single _ (nodup_range _ _) x fun x' hx' hne => hother x' z (hx hx') fun h => hne h.2]
  · rw [← ite_and, if_congr hiff rfl rfl]
  · rw [deposited_flatMap]
    refine sum_eq_zero fun a ha => ?_
    obtain ⟨x', hx', rfl⟩ := mem_map.mp ha
    exact hother x' z' (hx hx') fun h => hz' h.1

/-! ## Drawing methods -/

theorem deposited_ite (c : Prop) [Decidable c] (l l' : List (Write K)) (n : Layer × ℤ) :
    deposited amount (if c then l else l') n = if c then deposited amount l n else deposited amount l' n :=
  apply_ite (deposited amount · n) c l l'

theorem draws_circle {l : Layer} :
    Draws fun index sum => if range ^ 2 < sum then [] else [.add l index (heat sum)] := by
  intro i sum w hw
  dsimp only at hw
  split_ifs at hw
  · simp at hw
  · rw [mem_singleton.mp hw]
    exact ⟨trivial, rfl⟩

theorem deposited_circle {l : Layer} (hmap : OnMap env x z) :
    deposited amount (env.around e range fun index sum => if range ^ 2 < sum then [] else [.add l index (heat sum)])
      (layer, z * env.width + x) = if layer = l ∧ Within env e range x z then heat (distSq env e x z) else 0 := by
  rw [deposited_around draws_circle hmap]
  simp only [deposited_ite, deposited_nil, deposited_cons, add_zero, amount, and_true, Within]
  rcases lt_or_ge (range ^ 2) (distSq env e x z) with hsum | hsum
  · simp [hsum, hsum.not_ge]
  · by_cases hbox : InBox env e range x z <;> simp [hsum, hsum.not_gt, hbox]

theorem deposited_addEnemyAir (e : EnemyData K) (layer : Layer) (hmap : OnMap env x z) :
    deposited amount (env.addEnemyAir e (speedSlack env e)) (layer, z * env.width + x) =
      if layer = .air then airHeat env e x z else 0 := by
  rw [Env.addEnemyAir, deposited_circle hmap, ite_and]
  rfl

theorem deposited_addDecloaker (e : EnemyData K) (layer : Layer) (hmap : OnMap env x z) :
    deposited amount (env.addDecloaker e) (layer, z * env.width + x) = peaceContribution env e layer x z := by
  rw [Env.addDecloaker, deposited_circle hmap, ite_and]
  rfl

theorem deposited_addShield (e : EnemyData K) (layer : Layer) (hmap : OnMap env x z) :
    deposited amount (env.addShield e) (layer, z * env.width + x) =
      if layer = .shield then shieldHeat env e x z else 0 := by
  rw [Env.addShield, deposited_circle hmap, ite_and]
  rfl

theorem draws_amph {amph surf : ℤ → ℤ → Prop} [∀ i sum, Decidable (amph i sum)] [∀ i sum, Decidable (surf i sum)]
    : Draws fun index sum => (if amph index sum then [.add .amph index (heat sum)] else []) ++
        if surf index sum then [.add .surf index (heat sum)] else [] := by
  intro i sum w hw
  rcases mem_append.mp hw with hw | hw <;> split_ifs at hw
  · rw [mem_singleton.mp hw]
    exact ⟨trivial, rfl⟩
  · simp at hw
  · rw [mem_singleton.mp hw]
    exact ⟨trivial, rfl⟩
  · simp at hw

theorem deposited_addEnemyAmph (sector : ℤ → Sector K) (e : EnemyData K) (layer : Layer) (heat : ℤ → ℤ → K)
    (hmap : OnMap env x z) :
    deposited amount (env.addEnemyAmph sector heat e (speedSlack env e)) (layer, z * env.width + x) =
      if InBox env e (amphRange env e) x z ∧
          (layer = .amph ∧ OnAmph env sector e x z ∨ layer = .surf ∧ OnSurf env sector e x z) then
        heat (amphRange env e) (distSq env e x z) else 0 := by
  rw [Env.addEnemyAmph, deposited_around draws_amph hmap]
  change (if InBox env e (amphRange env e) x z then deposited amount
      ((if OnAmph env sector e x z then [.add .amph _ (heat (amphRange env e) (distSq env e x z))] else []) ++
        if OnSurf env sector e x z then [.add .surf _ (heat (amphRange env e) (distSq env e x z))] else []) _ else 0) = _
  simp only [deposited_append, deposited_ite, deposited_nil, deposited_cons, add_zero, amount, and_true]
  by_cases hbox : InBox env e (amphRange env e) x z <;> by_cases ha : OnAmph env sector e x z <;>
    by_cases hs : OnSurf env sector e x z <;> cases layer <;> simp [hbox, ha, hs]

theorem deposited_addEnemyUnit (hmap : OnMap env x z) :
    deposited amount (env.addEnemyUnit sector e) (layer, z * env.width + x) = contribution env sector e layer x z := by
  have hair := deposited_addEnemyAir e layer hmap
  have hconst := deposited_addEnemyAmph sector e layer (fun _ _ => e.threat) hmap
  have hgrad := deposited_addEnemyAmph sector e layer
    (fun range sum => e.threat * (1 - threatSlope * env.sqrt sum / range)) hmap
  have hcloak := deposited_addDecloaker e layer hmap
  have hshield := deposited_addShield e layer hmap
  unfold Env.addEnemyUnit
  cases hdef : e.cdef with
  | none =>
    have hslack : speedSlack env e = 0 := by rw [speedSlack, hdef]; rfl
    rw [hslack] at hair hgrad
    simp only [Env.addEnemyUnitAll, Env.addEnemyAmphGradient, deposited_append, hair, hgrad, hcloak]
    cases layer <;> simp [contribution, peaceContribution, amphHeat, falloff, hdef]
  | some cdef =>
    have hslack : speedSlack env e =
        min (toInt (env.sqrt (e.velX ^ 2 + e.velZ ^ 2) * env.speedMod)) env.speedModMax := by
      rw [speedSlack, hdef]
      rfl
    rw [hslack] at hair hconst hgrad
    simp only [deposited_append, deposited_ite, deposited_nil, Env.addEnemyAmphConst, Env.addEnemyAmphGradient, hair,
      hconst, hgrad, hcloak, hshield]
    cases layer <;> cases ha : cdef.isAlwaysHit <;>
      simp [contribution, peaceContribution, amphHeat, falloff, hdef, ha, ite_and]

theorem addDecloaker_spec : ∀ w ∈ env.addDecloaker e, IsAdd w ∧ InMap env (cellOf w) := by
  unfold Env.addDecloaker
  exact draws_circle.around

theorem addEnemyUnit_spec : ∀ w ∈ env.addEnemyUnit sector e, IsAdd w ∧ InMap env (cellOf w) := by
  have hair : ∀ slack, ∀ w ∈ env.addEnemyAir e slack, IsAdd w ∧ InMap env (cellOf w) := by
    intro slack
    unfold Env.addEnemyAir
    exact draws_circle.around
  have hamph : ∀ heat slack, ∀ w ∈ env.addEnemyAmph sector heat e slack, IsAdd w ∧ InMap env (cellOf w) := by
    intro heat slack
    unfold Env.addEnemyAmph
    exact draws_amph.around
  have hshield : ∀ w ∈ env.addShield e, IsAdd w ∧ InMap env (cellOf w) := by
    unfold Env.addShield
    exact draws_circle.around
  intro w hw
  unfold Env.addEnemyUnit at hw
  split at hw
  · simp only [Env.addEnemyUnitAll, mem_append] at hw
    rcases hw with (hw | hw) | hw
    · exact hair _ w hw
    · exact hamph _ _ w hw
    · exact addDecloaker_spec w hw
  · simp only [mem_append] at hw
    rcases hw with ((hw | hw) | hw) | hw
    · split_ifs at hw
      · exact hair _ w hw
      · simp at hw
    · split_ifs at hw
      · exact hamph _ _ w hw
      · exact hamph _ _ w hw
      · simp at hw
    · exact addDecloaker_spec w hw
    · split_ifs at hw
      · exact hshield w hw
      · simp at hw

/-! ## Layers -/

theorem layers_apply {hostileDatas peaceDatas : List (EnemyData K)} {d : ThreatData K} (hmap : OnMap env x z) :
    layers env sector hostileDatas peaceDatas d layer (z * env.width + x) =
      base layer + (hostileDatas.map fun e => contribution env sector e layer x z).sum +
        (peaceDatas.map fun e => peaceContribution env e layer x z).sum := by
  have hadds : ∀ w ∈ hostileDatas.flatMap (env.addEnemyUnit sector) ++ peaceDatas.flatMap env.addDecloaker, IsAdd w := by
    intro w hw
    rcases mem_append.mp hw with hw | hw
    · obtain ⟨e, -, hw⟩ := mem_flatMap.mp hw
      exact (addEnemyUnit_spec w hw).1
    · obtain ⟨e, -, hw⟩ := mem_flatMap.mp hw
      exact (addDecloaker_spec w hw).1
  rw [layers, Env.update, append_assoc, foldl_append, foldl_adds hadds, foldl_prepare hmap.inMap,
    deposited_append, deposited_flatMap, deposited_flatMap, add_assoc]
  simp only [deposited_addEnemyUnit hmap, deposited_addDecloaker _ layer hmap]

theorem cellOf_update {hostileDatas peaceDatas : List (EnemyData K)} :
    ∀ w ∈ env.update sector hostileDatas peaceDatas, InMap env (cellOf w) := by
  intro w hw
  simp only [Env.update, mem_append, mem_flatMap] at hw
  rcases hw with (hw | ⟨e, -, hw⟩) | ⟨e, -, hw⟩
  · obtain ⟨l, -, hw⟩ := mem_flatMap.mp hw
    obtain ⟨i, hi, rfl⟩ := mem_map.mp hw
    exact Int.mem_range_iff.mp hi
  · exact (addEnemyUnit_spec w hw).2
  · exact (addDecloaker_spec w hw).2

theorem update_congr {sector' : ℤ → Sector K} (h : ∀ i, InMap env i → sector' i = sector i)
    (hostileDatas peaceDatas : List (EnemyData K)) :
    env.update sector' hostileDatas peaceDatas = env.update sector hostileDatas peaceDatas := by
  have haround : ∀ (e : EnemyData K) range (draw draw' : ℤ → ℤ → List (Write K)),
      (∀ i sum, InMap env i → draw' i sum = draw i sum) → env.around e range draw' = env.around e range draw := by
    intro e range draw draw' hdraw
    rw [around_eq, around_eq]
    refine flatMap_congr fun z hz => flatMap_congr fun x hx => hdraw _ _ (OnMap.inMap ?_)
    rw [Int.mem_range_iff, max_le_iff, lt_min_iff] at hx hz
    exact ⟨⟨hx.1.2, hx.2.2⟩, hz.1.2, hz.2.2⟩
  have hamph : ∀ heat e slack, env.addEnemyAmph sector' heat e slack = env.addEnemyAmph sector heat e slack := by
    intro heat e slack
    unfold Env.addEnemyAmph
    refine haround e _ _ _ fun i sum hi => ?_
    rw [h i hi]
  have hunit : env.addEnemyUnit sector' = env.addEnemyUnit sector := by
    funext e
    simp only [Env.addEnemyUnit, Env.addEnemyUnitAll, Env.addEnemyAmphConst, Env.addEnemyAmphGradient, hamph]
  rw [Env.update, Env.update, hunit]

/-! ## Signs -/

section Signs

variable [IsStrictOrderedRing K] (hsqrt : ∀ x : K, 0 ≤ x → 0 ≤ env.sqrt x ∧ env.sqrt x ^ 2 = x)

theorem InBox.pos (h : InBox env e range x z) : 0 < range := (abs_nonneg _).trans_lt h.1

theorem InBox.distSq_le (h : InBox env e range x z) : distSq env e x z ≤ (2 * range) ^ 2 := by
  obtain ⟨hx, hz⟩ := h
  have hx' := sq_lt_sq' (abs_lt.mp hx).1 (abs_lt.mp hx).2
  have hz' := sq_lt_sq' (abs_lt.mp hz).1 (abs_lt.mp hz).2
  rw [distSq]
  nlinarith

include hsqrt in
theorem sqrt_le (hrange : 0 ≤ range) (h : distSq env e x z ≤ range ^ 2) : env.sqrt (distSq env e x z) ≤ range := by
  have hnn : (0 : K) ≤ (distSq env e x z : ℤ) := by
    rw [distSq]
    positivity
  refine le_of_sq_le_sq ?_ (by exact_mod_cast hrange)
  rw [(hsqrt _ hnn).2]
  exact_mod_cast h

include hsqrt in
theorem falloff_nonneg {val slope : K} (hval : 0 ≤ val) (hrange : 0 < range)
    (hroot : slope * env.sqrt (distSq env e x z) ≤ range) : 0 ≤ falloff env e val slope range x z := by
  have hrange' : (0 : K) < range := by exact_mod_cast hrange
  refine mul_nonneg hval (sub_nonneg.mpr ?_)
  exact (div_le_one hrange').mpr hroot

include hsqrt in
theorem falloff_within {val slope : K} (hval : 0 ≤ val) (hslope : 0 ≤ slope ∧ slope ≤ 1)
    (h : Within env e range x z) : 0 ≤ falloff env e val slope range x z := by
  have hnn : (0 : K) ≤ (distSq env e x z : ℤ) := by
    rw [distSq]
    positivity
  refine falloff_nonneg hsqrt hval h.1.pos (le_trans ?_ (sqrt_le hsqrt h.1.pos.le h.2))
  exact mul_le_of_le_one_left (hsqrt _ hnn).1 hslope.2

include hsqrt in
theorem amphHeat_nonneg (he : Regular e) (h : InBox env e (amphRange env e) x z) : 0 ≤ amphHeat env e x z := by
  rw [amphHeat]
  split_ifs
  · exact he.threat
  · refine falloff_nonneg hsqrt he.threat h.pos ?_
    have hle : env.sqrt (distSq env e x z) ≤ (2 * amphRange env e : ℤ) :=
      sqrt_le hsqrt (by linarith [h.pos]) h.distSq_le
    push_cast at hle
    norm_num [threatSlope]
    linarith

include hsqrt in
theorem cloakHeat_nonneg : 0 ≤ cloakHeat env e x z := by
  rw [cloakHeat]
  split_ifs with h
  · refine falloff_within hsqrt ?_ ⟨by norm_num [cloakSlope], by norm_num [cloakSlope]⟩ h
    rw [threatCloak]
    norm_num
  · exact le_rfl

include hsqrt in
theorem contribution_nonneg (he : Regular e) : 0 ≤ contribution env sector e layer x z := by
  cases layer with
  | air =>
    simp only [contribution, airHeat]
    split_ifs with _ h
    · exact falloff_within hsqrt he.threat ⟨by norm_num [threatSlope], by norm_num [threatSlope]⟩ h
    · exact le_rfl
    · exact le_rfl
  | surf | amph =>
    simp only [contribution]
    split_ifs with h
    · exact amphHeat_nonneg hsqrt he h.2.1
    · exact le_rfl
  | cloak => exact cloakHeat_nonneg hsqrt
  | shield =>
    simp only [contribution, shieldHeat]
    split_ifs
    · exact he.shieldPower
    · exact le_rfl
    · exact le_rfl

include hsqrt in
theorem peaceContribution_nonneg : 0 ≤ peaceContribution env e layer x z := by
  rw [peaceContribution]
  split_ifs
  · exact cloakHeat_nonneg hsqrt
  · exact le_rfl

end Signs

/-! ## Range -/

theorem not_within (h : range ^ 2 < distSq env e x z) : ¬ Within env e range x z := fun hw => hw.2.not_gt h

theorem contribution_far (h : reachSq env e layer < distSq env e x z) : contribution env sector e layer x z = 0 := by
  have hamph : max ((e.range .land + speedSlack env e) ^ 2) ((e.range .water + speedSlack env e) ^ 2) <
      distSq env e x z → ¬ OnSurf env sector e x z ∧ ¬ OnAmph env sector e x z := by
    intro h
    obtain ⟨hland, hwater⟩ := max_lt_iff.mp h
    have hw : ¬ InWater env sector e x z := fun hw => hw.1.not_gt hwater
    exact ⟨fun h' => h'.elim hw fun h' => h'.not_gt hland, fun h' => h'.elim hw fun h' => h'.1.not_gt hland⟩
  cases layer with
  | air => simp [contribution, airHeat, not_within h]
  | surf => simp [contribution, (hamph h).1]
  | amph => simp [contribution, (hamph h).2]
  | cloak => exact if_neg (not_within h)
  | shield => simp [contribution, shieldHeat, not_within h]

theorem peaceContribution_far (h : reachSq env e layer < distSq env e x z) : peaceContribution env e layer x z = 0 := by
  rw [peaceContribution]
  split_ifs with hl
  · subst hl
    exact if_neg (not_within h)
  · rfl

/-! ## `Update` -/

def afterUpdate (env : Env K) (sector : ℤ → Sector K) (hostileDatas peaceDatas : List (EnemyData K)) (s : State K) :
    ThreatData K :=
  let writes := env.update sector hostileDatas peaceDatas
  (ThreatSnapshots.writeAll (s.startUpdate writes) writes).threatData.get s.threatData.next

theorem get_writeAll (s : State K) (ws : List (Write K)) : (ThreatSnapshots.writeAll s ws).threatData.get s.drawArrays =
      ws.foldl Write.run (s.threatData.get s.drawArrays) := by
  induction ws generalizing s with
  | nil => rfl
  | cons w ws ih =>
    rw [ThreatSnapshots.writeAll, foldl_cons]
    refine (ih (s.write w ws)).trans ?_
    rw [State.write, Buffers.get_set_self]

theorem afterUpdate_eq (hostileDatas peaceDatas : List (EnemyData K)) (s : State K) :
    afterUpdate env sector hostileDatas peaceDatas s =
      layers env sector hostileDatas peaceDatas (s.threatData.get s.threatData.next) :=
  get_writeAll (s.startUpdate _) _

/-- After `Update` every cell of every layer holds the base value and the contributions of the enemies. These are not
negative, and zero beyond the range; every index is inside the map. So the layers do not depend on the order of the
enemies, are at least the base value, and do not decrease at any cell when an enemy is added. -/
theorem threat_layers [IsStrictOrderedRing K] (hsqrt : ∀ x : K, 0 ≤ x → 0 ≤ env.sqrt x ∧ env.sqrt x ^ 2 = x)
    (sector : ℤ → Sector K) {hostileDatas peaceDatas : List (EnemyData K)}
    (hregular : ∀ e ∈ hostileDatas ++ peaceDatas, Regular e) (s : State K) : (∀ layer x z, OnMap env x z →
      afterUpdate env sector hostileDatas peaceDatas s layer (z * env.width + x) =
        base layer + (hostileDatas.map fun e => contribution env sector e layer x z).sum +
          (peaceDatas.map fun e => peaceContribution env e layer x z).sum) ∧ (∀ e, Regular e → ∀ layer x z,
      (0 ≤ contribution env sector e layer x z ∧ 0 ≤ peaceContribution env e layer x z) ∧
      (reachSq env e layer < distSq env e x z →
        contribution env sector e layer x z = 0 ∧ peaceContribution env e layer x z = 0)) ∧
    ((∀ w ∈ env.update sector hostileDatas peaceDatas, InMap env (cellOf w)) ∧
      ∀ sector', (∀ i, InMap env i → sector' i = sector i) →
        env.update sector' hostileDatas peaceDatas = env.update sector hostileDatas peaceDatas) ∧
    (∀ hostileDatas' peaceDatas', hostileDatas'.Perm hostileDatas → peaceDatas'.Perm peaceDatas → ∀ s' layer x z,
      OnMap env x z → afterUpdate env sector hostileDatas' peaceDatas' s' layer (z * env.width + x) =
        afterUpdate env sector hostileDatas peaceDatas s layer (z * env.width + x)) ∧ (∀ layer x z, OnMap env x z →
      base layer ≤ afterUpdate env sector hostileDatas peaceDatas s layer (z * env.width + x)) ∧
    ∀ e, Regular e → ∀ layer x z, OnMap env x z →
      afterUpdate env sector hostileDatas peaceDatas s layer (z * env.width + x) ≤
          afterUpdate env sector (e :: hostileDatas) peaceDatas s layer (z * env.width + x) ∧
        afterUpdate env sector hostileDatas peaceDatas s layer (z * env.width + x) ≤
          afterUpdate env sector hostileDatas (e :: peaceDatas) s layer (z * env.width + x) := by
  simp only [afterUpdate_eq]
  refine ⟨fun _ _ _ => layers_apply, fun e he layer x z => ⟨⟨contribution_nonneg hsqrt he, peaceContribution_nonneg hsqrt⟩,
    fun h => ⟨contribution_far h, peaceContribution_far h⟩⟩, ⟨cellOf_update, fun _ h => update_congr h _ _⟩, ?_, ?_, ?_⟩
  · intro hostileDatas' peaceDatas' hh hp s' layer x z hmap
    rw [layers_apply hmap, layers_apply hmap, (hh.map _).sum_eq, (hp.map _).sum_eq]
  · intro layer x z hmap
    rw [layers_apply hmap, add_assoc]
    refine le_add_of_nonneg_right (add_nonneg (sum_nonneg ?_) (sum_nonneg ?_))
    · intro a ha
      obtain ⟨e, he, rfl⟩ := mem_map.mp ha
      exact contribution_nonneg hsqrt (hregular e (mem_append_left _ he))
    · intro a ha
      obtain ⟨e, he, rfl⟩ := mem_map.mp ha
      exact peaceContribution_nonneg hsqrt
  · intro e he layer x z hmap
    have hc : 0 ≤ contribution env sector e layer x z := contribution_nonneg hsqrt he
    have hp : 0 ≤ peaceContribution env e layer x z := peaceContribution_nonneg hsqrt
    rw [layers_apply hmap, layers_apply hmap, layers_apply hmap, map_cons, map_cons, sum_cons,
      sum_cons]
    constructor <;> linarith

noncomputable def square : Env ℝ := ⟨12, 3, 2, 0, 0, Real.sqrt⟩

noncomputable def ground : ℤ → Sector ℝ := fun _ => ⟨false, 0⟩

noncomputable def blip : EnemyData ℝ := ⟨none, 0, 0, 0, 0, 1, 0, fun _ => 2⟩

noncomputable def tower : EnemyData ℝ := ⟨some ⟨true, false, false, false, false⟩, 12, 0, 0, 0, 1, 0, fun _ => 1⟩

theorem threat_layers_square : afterUpdate square ground [blip, tower] [blip] .new .air (0 * square.width + 0) = 1 ∧
    afterUpdate square ground [blip, tower] [blip] .new .air (1 * square.width + 2) = 0 ∧
    (∀ w ∈ square.update ground [blip, tower] [blip], InMap square (cellOf w)) ∧
    afterUpdate square ground [tower, blip] [blip] .new .cloak (0 * square.width + 1) =
      afterUpdate square ground [blip, tower] [blip] .new .cloak (0 * square.width + 1) ∧
    base .cloak ≤ afterUpdate square ground [blip, tower] [blip] .new .cloak (0 * square.width + 1) ∧
    afterUpdate square ground [blip, tower] [blip] .new .air (0 * square.width + 1) ≤
      afterUpdate square ground [tower, blip, tower] [blip] .new .air (0 * square.width + 1) := by
  have hblip : Regular blip := ⟨by norm_num [blip], by norm_num [blip], fun _ => by norm_num [blip]⟩
  have htower : Regular tower := ⟨by norm_num [tower], by norm_num [tower], fun _ => by norm_num [tower]⟩
  have hsqrt : ∀ x : ℝ, 0 ≤ x → 0 ≤ square.sqrt x ∧ square.sqrt x ^ 2 = x := fun x hx =>
    ⟨Real.sqrt_nonneg x, Real.sq_sqrt hx⟩
  have hregular : ∀ e ∈ [blip, tower] ++ [blip], Regular e := by
    intro e he
    fin_cases he
    · exact hblip
    · exact htower
    · exact hblip
  obtain ⟨hsum, hsign, ⟨hin, -⟩, hperm, hbase, hadd⟩ := threat_layers hsqrt ground hregular .new
  have hmap : ∀ {x z : ℤ}, (0 ≤ x ∧ x < 3) → (0 ≤ z ∧ z < 2) → OnMap square x z := fun hx hz => ⟨hx, hz⟩
  have hfirst : contribution square ground blip .air 0 0 = 1 := by
    norm_num [contribution, airHeat, Within, InBox, distSq, Env.posToXZ, toInt, falloff, speedSlack, blip, square]
  have hbeside : contribution square ground tower .air 0 0 = 0 := by
    norm_num [contribution, airHeat, Within, InBox, distSq, Env.posToXZ, toInt, speedSlack, tower, square]
  have hfar : reachSq square blip .air < distSq square blip 2 1 := by
    norm_num [reachSq, distSq, Env.posToXZ, toInt, speedSlack, blip, square]
  have hfar' : reachSq square tower .air < distSq square tower 2 1 := by
    norm_num [reachSq, distSq, Env.posToXZ, toInt, speedSlack, tower, square]
  refine ⟨?_, ?_, hin, ?_, hbase _ _ _ (hmap (by decide) (by decide)),
    (hadd _ htower .air 1 0 (hmap (by decide) (by decide))).1⟩
  · rw [hsum _ _ _ (hmap (by decide) (by decide))]
    simp [hfirst, hbeside, peaceContribution, base]
  · rw [hsum _ _ _ (hmap (by decide) (by decide))]
    simp [(hsign _ hblip _ _ _).2 hfar, (hsign _ htower _ _ _).2 hfar', base]
  · exact hperm _ _ (.swap ..) (.refl _) _ _ _ _ (hmap (by decide) (by decide))

end Circuit.Spec.ThreatLayers
