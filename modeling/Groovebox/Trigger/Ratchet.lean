/-! # Ratchets

A ratchet repeats the notes of a step several times within the step. It has two codes: the value
sent to the engine, which keeps one band of numbers per mode, and the stored position in the list
of all such values. Here stands also why a ratchet or a condition is refused. -/

namespace Groovebox

/-! ## Refusals -/

/-- How the hits of a ratcheted step are spread: evenly, or getting louder or softer. -/
inductive RatchetMode
  | regular | rampUp | rampDown
deriving DecidableEq, Inhabited, Repr

/-- The name of a mode as error messages give it. -/
def RatchetMode.name : RatchetMode → String
  | .regular => "Regular"
  | .rampUp => "RampUp"
  | .rampDown => "RampDown"

/-- The reasons for which a ratchet or a condition is refused. -/
inductive TriggerFault
  | ratchetValue (value : Int)
  | ratchetCount (mode : RatchetMode) (count : Nat)
  | ratchetIndex (index : Int)
  | conditionIndex (index : Int)
deriving DecidableEq, Repr

/-- The message for a refused setting. -/
def TriggerFault.message : TriggerFault → String
  | .ratchetValue v =>
    "ratchet value " ++ toString v ++ " is outside the regular/ramp-up/ramp-down bands"
  | .ratchetCount m c => "ratchet count " ++ toString c ++ " is invalid for " ++ m.name
  | .ratchetIndex i => "ratchet index " ++ toString i ++ " is outside the ratchet table"
  | .conditionIndex i => "condition index " ++ toString i ++ " is outside the condition table"

/-! ## Ratchets -/

/-- A repetition of the notes of a step. Values with a count that no mode admits can be built;
they have no engine value. -/
structure Ratchet where
  /-- How the hits are spread. -/
  mode : RatchetMode := .regular
  /-- The number of hits. -/
  count : Nat := 1
deriving DecidableEq, Repr

namespace Ratchet

instance : Inhabited Ratchet := ⟨{}⟩

/-- The fewest hits a mode admits: a ramp needs two. -/
def fewest : RatchetMode → Nat
  | .regular => 1
  | .rampUp | .rampDown => 2

/-- Whether the count is one the mode admits. -/
def Valid (r : Ratchet) : Prop :=
  fewest r.mode ≤ r.count ∧ r.count ≤ 8

instance (r : Ratchet) : Decidable r.Valid :=
  inferInstanceAs (Decidable (_ ∧ _))

/-- Builds a ratchet, refusing a count that the mode does not admit. -/
def make (mode : RatchetMode) (count : Nat) : Except TriggerFault Ratchet :=
  let r : Ratchet := { mode, count }
  if r.Valid then .ok r else .error (.ratchetCount mode count)

/-- A single hit, which plays like no ratchet at all. -/
def isSingle (r : Ratchet) : Bool :=
  r == {}

/-! ## The engine's code -/

/-- What a mode adds to the count in the engine's code. -/
def band : RatchetMode → Nat
  | .regular => 0
  | .rampUp => 8
  | .rampDown => 18

/-- The engine's value: 1 to 8 for regular hits, 10 to 16 for a ramp up, 20 to 26 for a ramp
down. -/
def encode (r : Ratchet) : Except TriggerFault Nat :=
  if r.Valid then .ok (r.count + band r.mode) else .error (.ratchetCount r.mode r.count)

/-- Reads an engine value. -/
def decode (value : Int) : Except TriggerFault Ratchet :=
  if 1 ≤ value ∧ value ≤ 8 then .ok { mode := .regular, count := value.toNat }
  else if 10 ≤ value ∧ value ≤ 16 then .ok { mode := .rampUp, count := (value - 8).toNat }
  else if 20 ≤ value ∧ value ≤ 26 then .ok { mode := .rampDown, count := (value - 18).toNat }
  else .error (.ratchetValue value)

/-! ## The stored code -/

/-- The engine values in stored order. -/
def wireValues : List Nat :=
  [1, 2, 3, 4, 5, 6, 7, 8, 10, 11, 12, 13, 14, 15, 16, 20, 21, 22, 23, 24, 25, 26]

/-- The stored position; a ratchet without an engine value is stored as a single hit. -/
def index (r : Ratchet) : Nat :=
  match r.encode with
  | .ok value => wireValues.idxOf value
  | .error _ => 0

/-- Reads a stored position. -/
def ofIndex (i : Int) : Except TriggerFault Ratchet :=
  match (if i < 0 then none else wireValues[i.toNat]?) with
  | some value => decode value
  | none => .error (.ratchetIndex i)

/-- The label shown for a ratchet. -/
def label (r : Ratchet) : String :=
  let kind := match r.mode with
    | .regular => "Ratchet: "
    | .rampUp => "Ramp Up: "
    | .rampDown => "Ramp Dn: "
  kind ++ toString r.count ++ "x"

end Ratchet
end Groovebox
