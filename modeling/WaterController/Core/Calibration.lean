import Mathlib.Data.List.Destutter
import Mathlib.Data.List.Sort

/-!
# Piecewise-linear calibrations

A calibration is a list of points, a raw value and the calibrated value it
stands for.  The code computes in 32-bit floats.  The definitions here are
stated over any type with the operations they use, and are read at `Float32`
for the device.

Slice accesses are checked: `Panic` says what the code would die of.
-/

namespace WaterController

/-- The two constants of a number type that the arithmetic classes do not have. -/
class CalNum (F : Type) where
  abs : F → F
  epsilon : F

instance : CalNum Float32 where
  abs := Float32.abs
  -- 2⁻²³, the gap between 1 and the next float
  epsilon := Float32.ofBits 0x34000000

/-- Why the code panics. -/
inductive Panic where
  | indexOutOfBounds
  | subtractOverflow
deriving DecidableEq, Repr

/-- `xs[i]`. -/
def index {α : Type} (xs : List α) (i : Nat) : Except Panic α :=
  match xs[i]? with
  | some x => .ok x
  | none => .error .indexOutOfBounds

/-- `m - n` on lengths. -/
def lengthSub (m n : Nat) : Except Panic Nat :=
  if n ≤ m then .ok (m - n) else .error .subtractOverflow

/-- `xs.windows(2)`. -/
def windows2 {α : Type} (xs : List α) : List (α × α) := xs.zip xs.tail

/-- A calibration.  Its points are sorted by raw value on construction. -/
structure Calibration (F : Type) where
  points : List (F × F)
deriving DecidableEq

section Operations

variable {F : Type} [Add F] [Sub F] [Mul F] [Div F] [LT F] [LE F] [DecidableLT F] [DecidableLE F]
  [CalNum F]

/-- The comparison the constructor sorts by.  Incomparable values count as
equal. -/
def rawLe (a b : F × F) : Prop := ¬ b.1 < a.1

instance (a b : F × F) : Decidable (rawLe a b) := inferInstanceAs (Decidable (¬ _))

def interp (a b : F × F) (x : F) : F :=
  let t := (x - a.1) / (b.1 - a.1)
  a.2 + t * (b.2 - a.2)

namespace Calibration

/-- Build a calibration from at least two points with distinct raw values. -/
def new (points : List (F × F)) : Option (Calibration F) :=
  if points.length < 2 then none
  else
    let pts := points.insertionSort rawLe
    if (windows2 pts).any fun w => decide (CalNum.abs (w.1.1 - w.2.1) < CalNum.epsilon) then none
    else some ⟨pts⟩

/-- The two points whose line `apply` follows at a raw value. -/
def segment (c : Calibration F) (raw : F) : Except Panic ((F × F) × (F × F)) := do
  let pts := c.points
  let first ← index pts 0
  if raw < first.1 then
    return (← index pts 0, ← index pts 1)
  match (windows2 pts).find? fun w => decide (w.1.1 ≤ raw) && decide (raw ≤ w.2.1) with
  | some w => return w
  | none =>
      let n := pts.length
      return (← index pts (← lengthSub n 2), ← index pts (← lengthSub n 1))

/-- Apply the calibration.  Outside the known range the nearest segment is
extrapolated. -/
def apply (c : Calibration F) (raw : F) : Except Panic F := do
  let (a, b) ← c.segment raw
  return interp a b raw

end Calibration

/-! ## Composition -/

/-- Why `then` panics. -/
inductive ThenPanic where
  /-- An application of one of the two calibrations panicked. -/
  | slice (panic : Panic)
  /-- The constructor refused the new points. -/
  | expect (message : String)
deriving DecidableEq, Repr

namespace Calibration

variable [Min F] [Max F]

/-- Solve `cal.apply(x) = y` by walking the segments, without extrapolation. -/
def invertSelf (cal : Calibration F) (y : F) : Option F :=
  let hit := (windows2 cal.points).find? fun w =>
    decide (min w.1.2 w.2.2 ≤ y) && decide (y ≤ max w.1.2 w.2.2)
  hit.map fun w =>
    let (x0, y0) := w.1
    let (x1, y1) := w.2
    if CalNum.abs (y1 - y0) < CalNum.epsilon then x0
    else
      let t := (y - y0) / (y1 - y0)
      x0 + t * (x1 - x0)

/-- The raw values of `other` in the output range of `self`, pulled back through
`self`. -/
def pulledBack (self other : Calibration F) : List F :=
  let selfOuts := self.points.map Prod.snd
  other.points.filterMap fun op =>
    let y := op.1
    -- with no output the range is from infinity to its negative
    match selfOuts.min?, selfOuts.max? with
    | some lo, some hi => if lo ≤ y ∧ y ≤ hi then invertSelf self y else none
    | _, _ => none

/-- The raw values at which `then` takes points. -/
def thenBreakpoints (self other : Calibration F) : List F :=
  let xs := self.points.map Prod.fst ++ pulledBack self other
  let xs := xs.insertionSort fun a b => ¬ b < a
  -- `dedup_by` compares with the last value it kept
  xs.destutter fun kept x => ¬ CalNum.abs (x - kept) < CalNum.epsilon

/-- Compose two calibrations.  The name has a prime because the language has
`then` as a keyword. -/
def then' (self other : Calibration F) : Except ThenPanic (Calibration F) := do
  let pairs ← (thenBreakpoints self other).mapM fun x =>
    match self.apply x >>= other.apply with
    | .ok y => .ok (x, y)
    | .error panic => .error (.slice panic)
  match new pairs with
  | some c => return c
  | none => throw (.expect "chained calibration should have ≥2 unique points")

end Calibration

end Operations

/-- What the derived deserialiser builds from the `points` of a JSON object: it
fills the field and checks nothing. -/
def Calibration.deserialize {F : Type} (points : List (F × F)) : Calibration F := ⟨points⟩

end WaterController
