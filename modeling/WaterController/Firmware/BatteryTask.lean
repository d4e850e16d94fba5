import WaterController.Calibration.Interpolation
import WaterController.Firmware.FlowTask
import WaterController.Library.CircularBuffer

/-!
# The battery samples

The sensor task of both firmwares publishes a moving average of the battery over fifteen
samples, which it takes every ten minutes.  The std firmware keeps the samples in a
queue, oldest first.  The no_std firmware keeps them in an array that it writes round
and round, and takes an early sample after ten seconds.

In any arithmetic both divide the sum of the last fifteen samples by their number.  The std
firmware adds them oldest first, and the no_std firmware in the order of its array, which
starts at some sample and comes around.  In floats the two sums may differ by their rounding.
At rational numbers the order does not matter, so both publish the averages
(`battery_averages`), and agree whenever their samples do.

A calibration without two points panics, and that is the end of the task.
-/

namespace WaterController

open Machines (Machine)

/-- A sample of the battery. -/
structure BatterySample (F : Type) where
  /-- The calibrated reading. -/
  v : F
  /-- The average that is published. -/
  avg : F
deriving DecidableEq, Repr

section Tasks

variable {F : Type} [Add F] [Sub F] [Mul F] [Div F] [LT F] [LE F] [DecidableLT F] [DecidableLE F]
  [CountNum F]

open CountNum (ofCount)

/-- One round of the loop: its instant, the calibration in the configuration it reads, and
the reading. -/
structure BatteryRound (F : Type) where
  nowMs : Nat
  battery : Calibration F
  raw : UInt16

/-- The calibrated reading. -/
def BatteryRound.apply (r : BatteryRound F) : Except Panic F :=
  r.battery.apply (ofCount r.raw.toNat)

def average (window : List F) : F := window.foldl (· + ·) (ofCount 0) / ofCount window.length

/-! ## The std firmware -/

/-- What the sensor task remembers of the battery. -/
structure BatteryTask (F : Type) where
  batWindow : List F
  lastBatteryMs : Nat

namespace BatteryTask

def start : BatteryTask F := ⟨[], 0⟩

/-- A sample is due. -/
def due (task : BatteryTask F) (nowMs : Nat) : Bool :=
  nowMs - task.lastBatteryMs ≥ 10 * 60 * 1000 || task.lastBatteryMs == 0

/-- `push_back`, and `pop_front` when there are too many. -/
def pushBack (batWindow : List F) (v : F) : List F :=
  let batWindow := batWindow ++ [v]
  if batWindow.length > 15 then batWindow.tail else batWindow

/-- A round, with what it publishes. -/
def round (task : BatteryTask F) (r : BatteryRound F) :
    Except Panic (BatteryTask F × Option (BatterySample F)) := do
  if task.due r.nowMs then
    let v ← r.apply
    let batWindow := pushBack task.batWindow v
    return (⟨batWindow, r.nowMs⟩, some ⟨v, average batWindow⟩)
  else
    return (task, none)

end BatteryTask

/-- The battery part of the sensor task of the std firmware. -/
def batteryTaskMachine : Machine (Option (BatteryTask F)) (BatteryRound F)
    (Option (BatterySample F)) := .untilError BatteryTask.round

/-! ## The no_std firmware -/

namespace Nostd

/-- What the sensor task remembers of the battery. -/
structure BatteryTask (F : Type) where
  batWindow : Circular.Buffer F 15
  secs : Nat

namespace BatteryTask

def start : BatteryTask F := ⟨.filled (ofCount 0) (by decide), 0⟩

/-- A round, with what it publishes. -/
def round (task : BatteryTask F) (r : BatteryRound F) :
    Except Panic (BatteryTask F × Option (BatterySample F)) := do
  let secs := task.secs + 1
  if secs = 10 ∨ secs % 600 = 0 then
    let v ← r.apply
    let batWindow := task.batWindow.push v
    return (⟨batWindow, secs⟩, some ⟨v, average batWindow.held⟩)
  else
    return ({ task with secs }, none)

end BatteryTask

/-- The battery part of the sensor task of the no_std firmware. -/
def batteryTaskMachine : Machine (Option (BatteryTask F)) (BatteryRound F)
    (Option (BatterySample F)) := .untilError BatteryTask.round

end Nostd

end Tasks

/-! ## What they publish -/

section Averages

variable {F : Type} [Add F] [Div F] [CountNum F]

/-- Each value that is published is the average of the last fifteen samples so far, added in some
order. -/
def Averaged (Order : List F → List F → Prop) (samples : List (BatterySample F)) : Prop :=
  ∀ pre sample post, samples = pre ++ sample :: post →
    ∃ window, Order window (((pre ++ [sample]).map BatterySample.v).rtake 15) ∧
      sample.avg = average window

variable {Order : List F → List F → Prop} {samples : List (BatterySample F)}

theorem averaged_nil : Averaged Order [] :=
  fun _ _ _ h => absurd h.symm (List.append_ne_nil_of_right_ne_nil _ (List.cons_ne_nil _ _))

/-- One more sample. -/
theorem Averaged.concat (h : Averaged Order samples) {v : F} {window : List F}
    (hwindow : Order window ((samples.map BatterySample.v ++ [v]).rtake 15)) :
    Averaged Order (samples ++ [⟨v, average window⟩]) := by
  intro pre sample post hsplit
  rcases post.eq_nil_or_concat with rfl | ⟨post, last, rfl⟩
  · obtain ⟨rfl, hlast⟩ := List.append_inj' hsplit rfl
    obtain rfl := List.singleton_inj.mp hlast
    exact ⟨window, by rw [List.map_append]; exact hwindow, rfl⟩
  · rw [List.concat_eq_append, ← List.cons_append, ← List.append_assoc] at hsplit
    exact h pre sample post (List.append_inj' hsplit rfl).1

/-- An order that does not matter can be left out. -/
theorem Averaged.imp {Order' : List F → List F → Prop} (h : Averaged Order samples)
    (himp : ∀ window last, Order window last →
      ∃ window', Order' window' last ∧ average window = average window') :
    Averaged Order' samples := by
  intro pre sample post hsplit
  obtain ⟨window, horder, havg⟩ := h pre sample post hsplit
  obtain ⟨window', horder', heq⟩ := himp _ _ horder
  exact ⟨window', horder', havg.trans heq⟩

end Averages

/-- The order of rational numbers does not matter. -/
theorem average_perm {xs ys : List ℚ} (h : xs.Perm ys) : average xs = average ys := by
  rw [average, average, h.length_eq, h.foldl_eq' fun x _ y _ z => add_right_comm z x y]

/-- The queue is a ring of fifteen. -/
theorem pushBack_eq_push {F : Type} {batWindow : List F} (h : batWindow.length ≤ 15) (v : F) :
    BatteryTask.pushBack batWindow v = Ring.push 15 batWindow v := by
  rw [BatteryTask.pushBack, Ring.push, List.length_append, List.length_singleton]
  rcases Nat.lt_or_ge batWindow.length 15 with hlt | hge
  · rw [if_neg (by omega), if_neg (by omega)]
  · have hne : batWindow ≠ [] := by
      rintro rfl
      exact absurd hge (Nat.not_le_of_lt (Nat.succ_pos 14))
    rw [if_pos (by omega), if_pos (by omega), List.tail_append_of_ne_nil hne]

section Runs

variable {F : Type} [Add F] [Sub F] [Mul F] [Div F] [LT F] [LE F] [DecidableLT F] [DecidableLE F]
  [CountNum F]

/-- The std firmware adds its samples oldest first. -/
theorem std_averaged (rounds : List (BatteryRound F)) :
    Averaged Eq (batteryTaskMachine.emitted (some .start) rounds) := by
  refine Machine.untilError_emitted _
    (K := fun samples task => Averaged Eq samples ∧
      task.batWindow = (samples.map BatterySample.v).rtake 15) (fun _ _ h => h.1) ?_
    ⟨averaged_nil, rfl⟩ rounds
  rintro samples task r task' o ⟨haveraged, hwindow⟩ hround
  rw [BatteryTask.round] at hround
  split at hround
  · cases hv : r.apply with
    | error panic =>
        rw [hv] at hround
        cases hround
    | ok v =>
        rw [hv] at hround
        cases hround
        have hpush : BatteryTask.pushBack task.batWindow v =
            (samples.map BatterySample.v ++ [v]).rtake 15 := by
          rw [hwindow, pushBack_eq_push (by rw [Ring.length_rtake]; omega),
            Ring.push_rtake (by decide)]
        refine ⟨haveraged.concat hpush, ?_⟩
        rw [Option.toList_some, List.map_append, List.map_singleton]
        exact hpush
  · cases hround
    rw [Option.toList_none, List.append_nil]
    exact ⟨haveraged, hwindow⟩

namespace Nostd

/-- The no_std firmware adds its samples in the order of its array. -/
theorem nostd_averaged (rounds : List (BatteryRound F)) :
    Averaged List.IsRotated (batteryTaskMachine.emitted (some .start) rounds) := by
  refine Machine.untilError_emitted _
    (K := fun samples task => Averaged List.IsRotated samples ∧
      Circular.Holds task.batWindow (samples.map BatterySample.v)) (fun _ _ h => h.1) ?_
    ⟨averaged_nil, .filled _ _⟩ rounds
  rintro samples task r task' o ⟨haveraged, hholds⟩ hround
  rw [BatteryTask.round] at hround
  split at hround
  · cases hv : r.apply with
    | error panic =>
        rw [hv] at hround
        cases hround
    | ok v =>
        rw [hv] at hround
        cases hround
        have hpush := hholds.push v
        refine ⟨haveraged.concat hpush.isRotated, ?_⟩
        rw [Option.toList_some, List.map_append, List.map_singleton]
        exact hpush
  · cases hround
    rw [Option.toList_none, List.append_nil]
    exact ⟨haveraged, hholds⟩

end Nostd

/-- **Battery.**  In every run, in any arithmetic and whatever the calibrations and the readings
are, both firmwares publish the sum of the last fifteen samples they took over their number.  The
std firmware adds them oldest first, and the no_std firmware from some sample on and around.  At
rational numbers both publish the averages. -/
theorem battery_averages (rounds rounds' : List (BatteryRound F))
    (exact exact' : List (BatteryRound ℚ)) :
    (Averaged Eq (batteryTaskMachine.emitted (some .start) rounds) ∧
      Averaged List.IsRotated (Nostd.batteryTaskMachine.emitted (some .start) rounds')) ∧
    Averaged Eq (batteryTaskMachine.emitted (some .start) exact) ∧
    Averaged Eq (Nostd.batteryTaskMachine.emitted (some .start) exact') :=
  ⟨⟨std_averaged rounds, Nostd.nostd_averaged rounds'⟩, std_averaged exact,
    (Nostd.nostd_averaged exact').imp fun _ _ hrotated =>
      ⟨_, rfl, average_perm hrotated.perm⟩⟩

end Runs

end WaterController
