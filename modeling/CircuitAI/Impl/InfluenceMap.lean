import CircuitAI.Impl.ThreatMap

/-!
# The influence map

`CInfluenceMap`: four layers of influence in two buffers. `Update` draws the enemies into the buffer that `pInflData` does
not point to; `Apply` draws the friendly units into it and makes it the one that the getters read. The constructor leaves
`pInflData` with whatever its memory holds; a value that is the address of neither buffer is `none`. As in the threat map,
numbers are of any ordered field with a floor, `sqrt` is a parameter, layers are functions of the index, and the writes
are lists.
-/

namespace Circuit.Impl.InfluenceMap

open Framework
open ThreatMap (toInt)

/-! ## Units and layers -/

/-- What is read of an `SEnemyData`; `isMobile` is none without a definition. -/
structure EnemyData (K : Type*) where
  isMobile : Option Bool
  posX : K
  posZ : K
  threat : K
  rangeLand : ℤ

/-- What is read of a `CAllyUnit` and its definition. -/
structure AllyUnit (K : Type*) where
  posX : K
  posZ : K
  isAttacker : Bool
  isMobile : Bool
  power : K
  maxRange : K
  threatRangeLand : ℤ
  isRoleComm : Bool
  /-- Range and area of effect of the weapons that a commander has. -/
  weapons : List (K × K)
  commRangeMult : K

inductive Layer
  | enemyInfl
  | allyInfl
  | allyDefendInfl
  | influence
  deriving DecidableEq

def Layer.all : List Layer := [.enemyInfl, .allyInfl, .allyDefendInfl, .influence]

/-- `SInfluenceData`. -/
abbrev InfluenceData (K : Type*) := Layer → ℤ → K

/-- What does not change after the constructor, and the square root. -/
structure Env (K : Type*) where
  squareSize : ℤ
  width : ℤ
  height : ℤ
  defRadius : K
  sqrt : K → K

section

variable {K : Type*} [Field K] [LinearOrder K] [FloorRing K]

def inflBase : K := 0

def defaultSlack : K := 64

/-! ## Writes -/

inductive Write (K : Type*)
  | fill (layer : Layer) (index : ℤ)
  | add (layer : Layer) (index : ℤ) (infl : K)
  /-- The influence of the allies less that of the enemies. -/
  | sub (index : ℤ)

def Write.run (d : InfluenceData K) : Write K → InfluenceData K
  | .fill layer index => setCell d layer index inflBase
  | .add layer index infl => setCell d layer index (d layer index + infl)
  | .sub index => setCell d .influence index (d .allyInfl index - d .enemyInfl index)

/-! ## Drawing -/

namespace Env

variable (env : Env K)

def posToXZ (x z : K) : ℤ × ℤ := ((toInt x).tdiv env.squareSize, (toInt z).tdiv env.squareSize)

/-- The loops of the four methods below, which add `val` with its falloff to some layers. -/
def addCircle (layers : List Layer) (posX posZ val : K) (range : ℤ) : List (Write K) :=
  let p := env.posToXZ posX posZ
  (Int.range (max (p.2 - range + 1) 0) (min (p.2 + range) env.height)).flatMap fun z =>
    (Int.range (max (p.1 - range + 1) 0) (min (p.1 + range) env.width)).flatMap fun x =>
      let lenSq := (p.1 - x) ^ 2 + (p.2 - z) ^ 2
      if range ^ 2 < lenSq then []
      else layers.map fun layer => .add layer (z * env.width + x) (val * (1 - 1 * env.sqrt lenSq / range))

/-- The weapon with the longest range, the first of them. -/
def maxWeapon (weapons : List (K × K)) : K × K :=
  weapons.foldl (fun best w => if best.1 < w.1 then w else best) (0, 0)

def getUnitRange (u : AllyUnit K) : ℤ :=
  if u.isRoleComm then
    let w := maxWeapon u.weapons
    (toInt (w.1 * u.commRangeMult + w.2 / (2 : ℤ))).tdiv env.squareSize * 4 + 1
  else if 1000 < u.maxRange then u.threatRangeLand.tdiv 2
  else u.threatRangeLand

def addMobileArmed (u : AllyUnit K) : List (Write K) :=
  env.addCircle [.allyInfl] u.posX u.posZ u.power (env.getUnitRange u)

def addStaticArmed (u : AllyUnit K) : List (Write K) :=
  env.addCircle [.allyInfl, .allyDefendInfl] u.posX u.posZ u.power (u.threatRangeLand.tdiv 2)

def addUnarmed (u : AllyUnit K) : List (Write K) :=
  env.addCircle [.allyDefendInfl] u.posX u.posZ (2 : ℤ) (toInt (defaultSlack * (4 : ℤ) * env.defRadius / env.squareSize))

def addEnemy (e : EnemyData K) : List (Write K) :=
  env.addCircle [.enemyInfl] e.posX e.posZ e.threat
    (if e.isMobile.getD true then e.rangeLand else e.rangeLand.tdiv 2)

def prepare : List (Write K) :=
  Layer.all.flatMap fun layer => (Int.range 0 (env.width * env.height)).map fun index => .fill layer index

def update (hostileDatas : List (EnemyData K)) : List (Write K) :=
  env.prepare ++ hostileDatas.flatMap env.addEnemy

def addAlly (u : AllyUnit K) : List (Write K) :=
  if u.isAttacker then
    if u.isMobile then env.addMobileArmed u else env.addStaticArmed u
  else env.addUnarmed u

def applyAllies (units : List (AllyUnit K)) : List (Write K) :=
  units.flatMap env.addAlly ++ (Int.range 0 (env.width * env.height)).map .sub

end Env

/-! ## State -/

inductive Worker (K : Type*)
  | idle
  | queued (hostileDatas : List (EnemyData K))
  /-- In `Update`, with the writes that are left. -/
  | writing (rest : List (Write K))
  | finished

structure State (K : Type*) where
  inflData : Slot → InfluenceData K
  pInflData : Option Slot
  /-- The buffer into which `enemyInfl` and the other arrays of the getters point. -/
  arrays : Slot
  /-- The buffer into which `drawEnemyInfl` and the others point. -/
  drawArrays : Slot
  isUpdating : Bool
  worker : Worker K

namespace State

/-- The constructor, with what the memory of `pInflData` holds. -/
def new (memory : Option Slot) : State K where
  inflData _ _ _ := inflBase
  pInflData := memory
  arrays := .first
  drawArrays := .second
  isUpdating := false
  worker := .idle

def getNextInflData (s : State K) : Slot :=
  if s.pInflData = some .first then .second else .first

/-- The layer that a getter reads. -/
def getInfl (s : State K) (layer : Layer) (index : ℤ) : K := s.inflData s.arrays layer index - inflBase

def enqueueUpdate (s : State K) (hostileDatas : List (EnemyData K)) : State K :=
  { s with isUpdating := true, worker := .queued hostileDatas }

/-- `Update` is entered, with these writes before it. -/
def startUpdate (s : State K) (writes : List (Write K)) : State K :=
  { s with drawArrays := s.getNextInflData, worker := .writing writes }

def draw (s : State K) (w : Write K) : State K :=
  { s with inflData := Function.update s.inflData s.drawArrays (w.run (s.inflData s.drawArrays)) }

def write (s : State K) (w : Write K) (rest : List (Write K)) : State K :=
  { s.draw w with worker := .writing rest }

def swapBuffers (s : State K) : State K :=
  { s with pInflData := some s.getNextInflData, arrays := s.getNextInflData }

def apply (env : Env K) (s : State K) (units : List (AllyUnit K)) : State K :=
  { ((env.applyAllies units).foldl draw s).swapBuffers with isUpdating := false, worker := .idle }

end State

end

end Circuit.Impl.InfluenceMap
