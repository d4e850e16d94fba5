import WaterController.App.Run

/-!
# A latched alarm

Once latched, the alarm stays latched until it is cleared or a tick finds the
rule disabled (`active_of_next`).  While it is latched the valve does not rest
open: a close command that was refused, since the valve was opening, is given
again by the very tick that sees the valve open (`tick_state_ne_on`).
-/

namespace WaterController

open Machines (Machine Transition)

/-- A valve that was told to close does not report open. -/
theorem WaterValve.turnOff_state_ne_on (v : WaterValve) (t : Nat) : (v.turnOff t).state ≠ .on := by
  obtain ⟨phase, userState, timing⟩ := v
  cases phase with
  | idle => cases userState <;> simp [turnOff, state]
  | turningOn s | turningOff s | draining s => simp [turnOff, state]

namespace App

variable (serde : Serde (List AlarmEvent))

/-- The mirrored water state of a ticked application is that of its valve. -/
theorem ticked_waterControl (app : App) (now : Nat) :
    (app.ticked now).state.switches.waterControl = .on ↔ (app.ticked now).valve.state = .on :=
  WaterControlState.ofWaterState_eq_on

/-- An evaluation of an enabled rule keeps a latched alarm. -/
theorem active_alarmAt {app : App} {now : Nat} (he : app.config.flowAlarm.enabled = true)
    (ha : app.state.alarm.active = true) : (app.alarmAt now).active = true := by
  simp [alarmAt, he, ha]

/-- An active alarm after an evaluation was latched by it or before. -/
theorem of_active_alarmAt {app : App} {now : Nat} (h : (app.alarmAt now).active = true) :
    app.FiresAt now ∨ (app.config.flowAlarm.enabled = true ∧ app.state.alarm.active = true) := by
  unfold alarmAt at h
  split at h
  · rename_i he
    rcases Bool.or_eq_true_iff.mp h with hf | ha
    · exact .inl (of_decide_eq_true hf)
    · exact .inr ⟨he, ha⟩
  · cases h

/-- A call unlatches the alarm only by clearing it, or by a tick that finds the
rule disabled. -/
theorem active_of_next {app : App} {c : Call} (ha : app.state.alarm.active = true)
    (hn : ((appMachine serde).next app c).state.alarm.active = false) :
    c.op = .clearFlowAlarm ∨ (c.op = .tick ∧ app.config.flowAlarm.enabled = false) := by
  by_cases htick : c.op = .tick
  · refine .inr ⟨htick, ?_⟩
    rw [Bool.eq_false_iff]
    intro he
    have hkeep : ((app.ticked c.time).alarmAt c.time).active = true := active_alarmAt he ha
    rw [next_alarm, htick] at hn
    exact Bool.false_ne_true (hn.symm.trans hkeep)
  · rcases next_alarm_of_not_tick serde app htick with ⟨-, hsame⟩ | ⟨hclear, -⟩
    · rw [hsame, ha] at hn
      cases hn
    · exact .inl hclear

/-- No tick leaves the alarm latched and the valve open. -/
theorem tick_state_ne_on {app app' : App} {env : Env} (h : TickSpec app env app')
    (ha : app'.state.alarm.active = true) : app'.valve.state ≠ .on := by
  have hactive : ((app.ticked env.monotonicMs).alarmAt env.monotonicMs).active = true := by
    rw [← ha, h.state]
  rw [h.valve, closedBy]
  split_ifs with hclose
  · exact WaterValve.turnOff_state_ne_on _ _
  · intro hon
    rcases of_active_alarmAt hactive with hf | ⟨he, hlatched⟩
    · exact hclose (.inl hf)
    · exact hclose (.inr ⟨he, hlatched, (ticked_waterControl app env.monotonicMs).mpr hon⟩)

/-- **Latch.**  In every run from boot, the alarm goes from latched to clear only
by a clear or by a tick that finds the rule disabled, and no tick leaves it
latched with the valve reported open. -/
theorem alarm_latch (config : Config) (nvs : Option NvsStore) (calls : List Call) :
    ∀ t ∈ (appMachine serde).trace (withNvs serde config nvs) calls,
      (t.before.state.alarm.active = true → t.after.state.alarm.active = false →
        t.input.op = .clearFlowAlarm ∨
          (t.input.op = .tick ∧ t.before.config.flowAlarm.enabled = false)) ∧
      (t.input.op = .tick → t.after.state.alarm.active = true → t.after.valve.state ≠ .on) := by
  intro t ht
  obtain ⟨calls₁, c, calls₂, rfl, rfl⟩ := (appMachine serde).mem_trace ht
  constructor
  · intro ha hn
    exact active_of_next serde ha hn
  · intro hop ha
    exact tick_state_ne_on (next_tick serde _ hop) ha

/-- The alarm fires while the valve is opening, which refuses the close.  The
tick at the end of the opening closes the valve. -/
theorem alarm_latch_mid_opening :
    let config := { Config.default {} with flowAlarm := ⟨true, 50.0, 1⟩ }
    let calls : List Call := [
      .plain 0 (.updateState (fun s => { s with sensors.flowLph := some 200.0 }) fun _ => rfl),
      .plain 0 (.switchCommand (.waterControl true)), .plain 0 .tick, .plain 1000 .tick]
    let t := (appMachine (.fails _)).transition
      ((appMachine (.fails _)).run (withNvs (.fails _) config none) calls) (.plain 16000 .tick)
    t.before.valve.phase = .turningOn 0 ∧ t.before.state.alarm.active = true ∧
      t.after.valve.phase = .turningOff 16000 ∧ t.after.valve.state ≠ .on := by
  refine ⟨by decide, by decide, by decide, ?_⟩
  exact (alarm_latch (.fails _) _ none _ _ (Machine.transition_mem_trace _ _ _ _ [])).2 rfl
    (by decide)

end App

end WaterController
