import WaterController.Core.App
import WaterController.Library.Machine

/-!
# The schedule task

Every 30 seconds the task reads the local time, evaluates the window since the
last reading, fires the hits and remembers the reading.  The schedule is the
one in force at the round.

A hit is a rule.  `Schedule.firings` is the same loop with a log of the minute
each hit was found at.
-/

namespace WaterController

open Machines (Machine)

/-! ## Firing -/

/-- Fire one rule.  An unknown switch and a refused command are ignored. -/
def App.fireRule (app : App) (env : Env) (rule : Rule) : App :=
  match rule.action with
  | .switch id => (app.fireScheduleSprinkler env id rule.durationSecs).1
  | .waterControl on => (app.switchCommand env (.waterControl on)).1

/-- Fire the hits of a window, in their order. -/
def App.fireHits (app : App) (env : Env) (hits : List Rule) : App :=
  hits.foldl (fun app rule => app.fireRule env rule) app

/-! ## The loop -/

/-- What a round of the task reads. -/
structure Round where
  schedule : Schedule
  nowLocal : NaiveDateTime
deriving DecidableEq, Repr

/-- The task.  Its state is the last reading and its output the hits. -/
def scheduleTask : Machine NaiveDateTime Round (List Rule) where
  step lastLocal r := (r.nowLocal, r.schedule.evaluateRange lastLocal r.nowLocal)

namespace Schedule

/-- The hits of a window, with the minute of each. -/
def firings (s : Schedule) (last now : NaiveDateTime) : List (NaiveDateTime × Rule) :=
  visitRange (fun t => (s.rules.filter (·.matchesMinute t)).map fun r => (t, r)) last now

theorem map_minuteLoop {α β : Type} (f : α → β) (visit : NaiveDateTime → List α)
    (stop : NaiveDateTime) (iters : Nat) (t : NaiveDateTime) :
    (minuteLoop visit stop iters t).map f = minuteLoop (fun t => (visit t).map f) stop iters t := by
  induction iters generalizing t with
  | zero => rfl
  | succ iters ih =>
      unfold minuteLoop
      split
      · rw [List.map_append, ih]
      · rfl

/-- The log is a log of the hits. -/
theorem map_snd_firings (s : Schedule) (last now : NaiveDateTime) :
    (s.firings last now).map Prod.snd = s.evaluateRange last now := by
  unfold firings evaluateRange visitRange
  split
  · rfl
  · rw [map_minuteLoop]
    simp only [List.map_map]
    exact congrArg (minuteLoop · _ _ _) (funext fun t => List.map_id _)

end Schedule

end WaterController
