import CircuitAI.Spec.EnemyRuns

/-!
# The registries of an ally team

The part of a state that says which enemies there are and who has a record of them (`Core`), and what a step can do
to it: an enemy is registered (`register`), an AI gets a record of a registered enemy or loses one (`remove`), and the
sweep goes through `updates`. `Registry` is what makes the registries fit together.
-/

namespace Circuit.Spec.EnemyRuns

open Impl.Enemies Framework Function

/-- The registries. -/
structure Core (α : Type*) where
  circuit : α
  infos : α → ℤ → Option ℕ
  id : ℕ → ℤ
  dead : ℕ → Bool
  next : ℕ
  units : ℤ → Option ℕ
  updates : List ℕ
  iterator : ℕ
  garbage : List ℤ
  pc : Pc α

variable {α ρ : Type*} [DecidableEq α]

/-- The registries of a state. -/
def core (s : State α ρ) : Core α where
  circuit := s.circuit
  infos := s.enemyInfos
  id p := (s.heap p).id
  dead p := (s.heap p).isDead
  next := s.next
  units := s.enemyUnits
  updates := s.enemyUpdates
  iterator := s.enemyIterator
  garbage := s.enemyGarbage
  pc := s.pc

/-- The AI and the id when an enemy enters the line of sight or radar. -/
def Input.entering : Input α ρ → Option (α × ℤ)
  | .enterLOS ai id _ => some (ai, id)
  | .enterRadar ai id _ => some (ai, id)
  | _ => none

namespace Core

def setInfo (c : Core α) (ai : α) (id : ℤ) (p : Option ℕ) : Core α :=
  { c with infos := update c.infos ai (update (c.infos ai) id p) }

/-- A new enemy with the given id. -/
def register (c : Core α) (id : ℤ) : Core α :=
  { c with
    id := update c.id c.next id
    dead := update c.dead c.next false
    next := c.next + 1
    units := update c.units id (some c.next)
    updates := c.updates ++ [c.next] }

/-- The enemy is no longer among the units. -/
def kill (c : Core α) (p : ℕ) : Core α :=
  { c with dead := update c.dead p true, units := update c.units (c.id p) none }

/-- The record of an AI is removed, and the enemy with it if the AI has the authority. -/
def remove (c : Core α) (ai : α) (p : ℕ) : Core α :=
  (if c.circuit = ai then c.kill p else c).setInfo ai (c.id p) none

/-- The ids of `enemyGarbage` that the AI with the authority has still to go through. -/
def toHandle (c : Core α) : List ℤ :=
  match c.pc with
  | .garbage ai rest => if ai = c.circuit then rest else c.garbage
  | _ => c.garbage

/-- What a step does to the registries; `w` is the AI and the id if an enemy enters its line of sight or radar. -/
inductive Step (c : Core α) : Option (α × ℤ) → Event α → Core α → Prop
  | keep {w : Option (α × ℤ)} (hpc : c.pc = .idle) : Step c w .tau c
  | seen {w : Option (α × ℤ)} {id : ℤ} {p : ℕ} (hpc : c.pc = .idle) (hp : c.infos c.circuit id = some p) :
    Step c w (.enterLOS p) c
  | record {ai : α} {id : ℤ} {p : ℕ} (hpc : c.pc = .idle) (hai : c.circuit ≠ ai) (hp : c.units id = some p) :
    Step c (some (ai, id)) .tau (c.setInfo ai id (some p))
  | register {id : ℤ} {e : Event α} (hpc : c.pc = .idle) (hid : c.infos c.circuit id = none)
    (he : e = .tau ∨ e = .enterLOS c.next) :
    Step c (some (c.circuit, id)) e ((c.register id).setInfo c.circuit id (some c.next))
  | destroyed {ai : α} {id : ℤ} {p : ℕ} (hpc : c.pc = .idle) (hp : c.infos ai id = some p) :
    Step c none (.destroyed ai p) (c.remove ai p)
  | update {ai : α} (hpc : c.pc = .idle) : Step c none .tau { c with pc := .garbage ai c.garbage }
  | skip {ai : α} {id : ℤ} {rest : List ℤ} (hpc : c.pc = .garbage ai (id :: rest)) (hid : c.infos ai id = none) :
    Step c none .tau { c with pc := .garbage ai rest }
  | handle {ai : α} {id : ℤ} {rest : List ℤ} {p : ℕ} (hpc : c.pc = .garbage ai (id :: rest))
    (hp : c.infos ai id = some p) : Step c none (.handled ai p) { c.remove ai p with pc := .garbage ai rest }
  | done {ai : α} (hpc : c.pc = .garbage ai []) : Step c none .tau { c with pc := .idle }
  | sweep {n : ℕ} (hpc : c.pc = .garbage c.circuit []) (h : c.iterator < c.updates.length) :
    Step c none .tau { c with garbage := [], pc := .sweep n }
  | beginPass {n : ℕ} (hpc : c.pc = .garbage c.circuit []) (h : c.updates.length ≤ c.iterator) :
    Step c none .beginPass { c with iterator := 0, garbage := [], pc := .sweep n }
  | delete {n p : ℕ} (hpc : c.pc = .sweep n) (hp : c.updates[c.iterator]? = some p) (hd : c.dead p = true) :
    Step c none (.delete p) { c with updates := swapRemove c.updates c.iterator 0 }
  | garbage {n p : ℕ} (hpc : c.pc = .sweep n) (hp : c.updates[c.iterator]? = some p) (hd : c.dead p = false) :
    Step c none (.garbage p) { c.kill p with garbage := c.garbage ++ [c.id p], iterator := c.iterator + 1 }
  | visit {n m p : ℕ} (hpc : c.pc = .sweep n) (hp : c.updates[c.iterator]? = some p) (hd : c.dead p = false) :
    Step c none (.visit p) { c with iterator := c.iterator + 1, pc := .sweep m }
  | endSweep {n : ℕ} (hpc : c.pc = .sweep n) : Step c none .tau { c with pc := .idle }

end Core

/-- The registries fit together. -/
structure Registry (c : Core α) : Prop where
  nodup : c.updates.Nodup
  lt_next : ∀ p ∈ c.updates, p < c.next
  iterator_le : c.iterator ≤ c.updates.length
  units : ∀ id p, c.units id = some p → c.id p = id ∧ p ∈ c.updates ∧ c.dead p = false
  live : ∀ p ∈ c.updates, c.dead p = false → c.units (c.id p) = some p
  infos_id : ∀ ai id p, c.infos ai id = some p → c.id p = id ∧ p < c.next
  infos : ∀ id p, c.infos c.circuit id = some p → p ∈ c.updates
  units_infos : ∀ id p, c.units id = some p → c.infos c.circuit id = some p
  /-- A record of a dead enemy is about to be removed. -/
  pending : ∀ id p, c.infos c.circuit id = some p → c.dead p = true → id ∈ c.toHandle
  /-- Until then the sweep does not come to the enemy again. -/
  swept : ∀ n id p, c.pc = .sweep n → c.infos c.circuit id = some p → c.dead p = true →
    p ∈ c.updates.take c.iterator

end Circuit.Spec.EnemyRuns
