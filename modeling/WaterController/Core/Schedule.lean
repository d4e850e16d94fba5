import Mathlib.Algebra.GroupWithZero.Nat
import Mathlib.Data.List.Basic

/-!
# Cron-like schedules

A rule fires at a set of hours and minutes on the chosen days of the week, in
local time.  `Schedule.evaluateRange` gives the rules that are due in a window
that is open on the left, minute by minute.

A local time is a number of seconds since the local 1970-01-01T00:00:00 and the
nanoseconds past it.  The clock gives whole Unix seconds, so no reading is a
leap second.
-/

namespace WaterController

/-! ## Local times -/

instance nanos_neZero : NeZero (1000000000 : Nat) := ⟨by decide⟩

/-- A local date and time. -/
@[ext]
structure NaiveDateTime where
  secs : Int
  nanos : Fin 1000000000
deriving DecidableEq, Repr

namespace NaiveDateTime

instance : LE NaiveDateTime where
  le a b := a.secs < b.secs ∨ a.secs = b.secs ∧ a.nanos ≤ b.nanos

instance : LT NaiveDateTime where
  lt a b := a.secs < b.secs ∨ a.secs = b.secs ∧ a.nanos < b.nanos

instance (a b : NaiveDateTime) : Decidable (a ≤ b) := inferInstanceAs (Decidable (_ ∨ _))

instance (a b : NaiveDateTime) : Decidable (a < b) := inferInstanceAs (Decidable (_ ∨ _))

def secsOfDay (dt : NaiveDateTime) : Nat := (dt.secs % 86400).toNat

/-- The hour of the day, 0 to 23. -/
def hour (dt : NaiveDateTime) : Nat := dt.secsOfDay / 3600

/-- The minute of the hour, 0 to 59. -/
def minute (dt : NaiveDateTime) : Nat := dt.secsOfDay % 3600 / 60

/-- The day of the week, 0 for Monday.  1970-01-01 was a Thursday. -/
def numDaysFromMonday (dt : NaiveDateTime) : Nat := ((dt.secs / 86400 + 3) % 7).toNat

/-- The same minute at second zero. -/
def withSecondZero (dt : NaiveDateTime) : NaiveDateTime :=
  { dt with secs := dt.secs - dt.secs % 60 }

def withNanosecondZero (dt : NaiveDateTime) : NaiveDateTime := { dt with nanos := 0 }

def addMinutes (dt : NaiveDateTime) (n : Int) : NaiveDateTime :=
  { dt with secs := dt.secs + 60 * n }

/-- The time from `a` to `b` in nanoseconds. -/
def nanosFrom (b a : NaiveDateTime) : Int :=
  (b.secs - a.secs) * 1000000000 + ((b.nanos.val : Int) - a.nanos.val)

end NaiveDateTime

def floorToMinute (dt : NaiveDateTime) : NaiveDateTime := dt.withSecondZero.withNanosecondZero

/-! ## Rules -/

inductive Action where
  | switch (id : String)
  | waterControl (on : Bool)
deriving DecidableEq, Repr

structure Rule where
  id : String
  action : Action
  hours : List UInt8
  minutes : List UInt8
  /-- Empty means every day. -/
  daysOfWeek : List UInt8
  enabled : Bool
  /-- Auto-off of a scheduled sprinkler, in seconds. -/
  durationSecs : Option UInt32
deriving DecidableEq, Repr

namespace Rule

def matchesDow (r : Rule) (w : Nat) : Bool :=
  if r.daysOfWeek.isEmpty then true
  else r.daysOfWeek.contains (UInt8.ofNat w)

def matchesMinute (r : Rule) (dt : NaiveDateTime) : Bool :=
  if !r.enabled then false
  else if !r.hours.contains (UInt8.ofNat dt.hour) then false
  else if !r.minutes.contains (UInt8.ofNat dt.minute) then false
  else r.matchesDow dt.numDaysFromMonday

end Rule

structure Schedule where
  rules : List Rule
deriving DecidableEq, Repr

namespace Schedule

/-- The cap on the minutes one window looks at: 25 hours. -/
def maxIters : Nat := 25 * 60

/-- The loop over the minutes up to `stop`, with the iterations that are left.
Each minute adds what its visit gives. -/
def minuteLoop {α : Type} (visit : NaiveDateTime → List α) (stop : NaiveDateTime) :
    Nat → NaiveDateTime → List α
  | 0, _ => []
  | iters + 1, t =>
      if t ≤ stop then visit t ++ minuteLoop visit stop iters (t.addMinutes 1) else []

/-- Visit the minutes of the window from `last`, exclusive, to `now`. -/
def visitRange {α : Type} (visit : NaiveDateTime → List α) (last now : NaiveDateTime) : List α :=
  if now ≤ last then []
  else minuteLoop visit (floorToMinute now) maxIters ((floorToMinute last).addMinutes 1)

/-- The rules that are due in the window from `last`, exclusive, to `now`. -/
def evaluateRange (s : Schedule) (last now : NaiveDateTime) : List Rule :=
  visitRange (fun t => s.rules.filter (·.matchesMinute t)) last now

end Schedule

/-- The schedule of a fresh device. -/
def defaultSchedule : Schedule where
  rules := [
    { id := "riego_exterior", action := .switch "sprinkler_1", hours := [10, 22], minutes := [0],
      daysOfWeek := [], enabled := true, durationSecs := none },
    { id := "riego_interior", action := .switch "sprinkler_2", hours := [10, 22], minutes := [30],
      daysOfWeek := [], enabled := true, durationSecs := none }]

end WaterController
