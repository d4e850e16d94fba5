import WaterController.App.Run

/-!
# Events of the flow alarm

The alarm is announced to subscribers by the events of its firing and of its
clearing.  What a call emits beside them are events of other kinds, so the alarm
events of a call can be told from the state it starts in (`alarms_next`).  They
are the changes of the latch but for one case: a tick that finds the rule
disabled unlatches the alarm and emits nothing (`mirrored_iff`).
-/

namespace WaterController

open Machines (Machine Transition)

/-! ## Emitting -/

/-- What an event says of the alarm: that it fires or that it is cleared. -/
def WebhookEvent.alarm? (ev : WebhookEvent) : Option Bool :=
  match ev.kind with
  | .flowAlarmFire => some true
  | .flowAlarmClear => some false
  | _ => none

namespace App

/-- An application has emitted events, and these are the alarm events among them. -/
def Emits (app app' : App) (alarms : List Bool) : Prop :=
  ∃ evs, app'.dispatched = app.dispatched ++ evs ∧ evs.filterMap (·.alarm?) = alarms

theorem Emits.nothing {app app' : App} (h : app'.dispatched = app.dispatched) :
    Emits app app' [] := ⟨[], by rw [h, List.append_nil], rfl⟩

/-- Emitting an event emits what the event says of the alarm. -/
theorem Emits.emitEvent {app app' : App} (h : app'.dispatched = app.dispatched) (env : Env)
    (ev : WebhookEvent) : Emits app (app'.emitEvent env ev) ev.alarm?.toList := by
  refine ⟨_, congrArg (· ++ _) h, ?_⟩
  rw [List.filterMap_cons]
  cases hk : ev.alarm? with
  | none | some b => simp_all [WebhookEvent.alarm?, WebhookEvent.fill]

/-- The alarm events that a transition emits.  Synthetic events are handed to the
application and say nothing about its alarm. -/
def emittedAlarms (t : AppTransition) : List Bool :=
  match t.input.op with
  | .emitEvent _ => []
  | _ => (t.after.dispatched.drop t.before.dispatched.length).filterMap (·.alarm?)

variable (serde : Serde (List AlarmEvent))

/-- An evaluation emits an alarm event when it fires. -/
theorem emits_evaluateFlowAlarm (app : App) (env : Env) :
    Emits app (app.evaluateFlowAlarm serde env env.monotonicMs)
      (if app.FiresAt env.monotonicMs then [true] else []) := by
  rw [evaluateFlowAlarm_eq]
  by_cases hf : app.FiresAt env.monotonicMs
  · rw [if_pos hf, if_pos hf]
    have hrecorded : ((app.checked env.monotonicMs).recordAlarmEvent serde env
        (app.fireRecord env)).dispatched = app.dispatched := rfl
    exact Emits.emitEvent hrecorded env app.fireEvent
  · rw [if_neg hf, if_neg hf]
    exact .nothing rfl

/-- The alarm events of a call, told from the state it starts in. -/
def alarmsOf (app : App) (c : Call) : List Bool :=
  match c.op with
  | .tick => if (app.ticked c.time).FiresAt c.time then [true] else []
  | .clearFlowAlarm => if app.state.alarm.active then [false] else []
  | .emitEvent ev => ev.alarm?.toList
  | .switchCommand _ | .fireScheduleSprinkler _ _ | .replaceConfigSection _ _
  | .updateState _ _ => []

/-- A call emits its alarm events. -/
theorem alarms_next (app : App) (c : Call) :
    Emits app ((appMachine serde).next app c) (app.alarmsOf c) := by
  obtain ⟨env, op⟩ := c
  cases op with
  | switchCommand cmd =>
      obtain ⟨s₁, s₂, v, hs⟩ := switchCommand_frame app env cmd
      exact .nothing (congrArg (·.dispatched) hs)
  | fireScheduleSprinkler id d =>
      obtain ⟨s₁, s₂, hs⟩ := fireScheduleSprinkler_frame app env id d
      exact .nothing (congrArg (·.dispatched) hs)
  | replaceConfigSection cfg section_ =>
      exact Emits.emitEvent rfl env ((WebhookEvent.new .configChanged).withVar "section" section_)
  | clearFlowAlarm =>
      show Emits app (app.clearFlowAlarm env) (if app.state.alarm.active then [false] else [])
      simp only [clearFlowAlarm]
      split
      · exact Emits.emitEvent rfl env (.new .flowAlarmClear)
      · exact .nothing rfl
  | updateState f hf => exact .nothing rfl
  | emitEvent ev => exact Emits.emitEvent rfl env ev
  | tick =>
      have hp := persistValve_spec
        ((app.ticked env.monotonicMs).evaluateFlowAlarm serde env env.monotonicMs) env
      obtain ⟨evs, hevs, halarms⟩ := emits_evaluateFlowAlarm serde (app.ticked env.monotonicMs) env
      exact ⟨evs, (congrArg (·.dispatched) hp.frame).trans hevs, halarms⟩

/-! ## Changes of the latch -/

/-- The alarm is latched. -/
def latched (app : App) : Bool := app.state.alarm.active

/-- The alarm events of a call are the changes of the latch, unless the call finds the
rule disabled with the alarm latched. -/
theorem alarmsOf_eq_changes_iff {app : App} {c : Call} (h : ∀ ev, c.op ≠ .emitEvent ev) :
    app.alarmsOf c = Machine.changes latched ((appMachine serde).transition app c) ↔
      (c.op = .tick → app.latched = true → app.config.flowAlarm.enabled = true) := by
  have hchanges : Machine.changes latched ((appMachine serde).transition app c) =
      if app.latched = ((appMachine serde).next app c).state.alarm.active then []
      else [((appMachine serde).next app c).state.alarm.active] := rfl
  rw [hchanges, next_alarm]
  obtain ⟨env, op⟩ := c
  cases op with
  | emitEvent ev => exact absurd rfl (h ev)
  | switchCommand | fireScheduleSprinkler | replaceConfigSection | updateState =>
      simp [alarmsOf, latched]
  | clearFlowAlarm => cases ha : app.state.alarm.active <;> simp [alarmsOf, latched, ha]
  | tick =>
      have halarm : ((app.ticked env.monotonicMs).alarmAt env.monotonicMs).active =
          (app.config.flowAlarm.enabled &&
            (decide ((app.ticked env.monotonicMs).FiresAt env.monotonicMs) || app.latched)) := by
        rw [alarmAt, show (app.ticked env.monotonicMs).config = app.config from rfl]
        cases app.config.flowAlarm.enabled <;> rfl
      have hfires : (app.ticked env.monotonicMs).FiresAt env.monotonicMs →
          app.config.flowAlarm.enabled = true ∧ app.latched = false :=
        fun hf => ⟨hf.1, hf.2.1⟩
      simp only [alarmsOf, Call.time, halarm, forall_const]
      by_cases hf : (app.ticked env.monotonicMs).FiresAt env.monotonicMs
      · simp [hf, hfires hf]
      · cases app.config.flowAlarm.enabled <;> cases app.latched <;> simp [hf]

/-- The alarm events that a transition emits are those of its call, synthetic ones aside. -/
theorem emittedAlarms_transition (app : App) {c : Call} (h : ∀ ev, c.op ≠ .emitEvent ev) :
    emittedAlarms ((appMachine serde).transition app c) = app.alarmsOf c := by
  obtain ⟨evs, hevs, halarms⟩ := alarms_next serde app c
  have hdrop : (((appMachine serde).transition app c).after.dispatched.drop
      ((appMachine serde).transition app c).before.dispatched.length) = evs := by
    rw [Machine.transition_after, hevs]
    exact List.drop_left
  rw [emittedAlarms, hdrop, halarms]
  split
  · rename_i ev hop
    exact absurd hop (h ev)
  · rfl

/-- A synthetic event changes no latch. -/
theorem mirrored_of_emitEvent (app : App) {c : Call} {ev : WebhookEvent}
    (h : c.op = .emitEvent ev) :
    emittedAlarms ((appMachine serde).transition app c) =
      Machine.changes latched ((appMachine serde).transition app c) := by
  obtain ⟨env, op⟩ := c
  cases h
  exact (if_pos rfl).symm

/-! ## Runs -/

/-- The alarm events of a run mirror the alarm.  The events of a transition are the
changes it makes to the latch, and the events of the run alternate and start with a
firing. -/
def AlarmsMirrored (run : List AppTransition) : Prop :=
  (∀ t ∈ run, emittedAlarms t = Machine.changes latched t) ∧
    (false :: run.flatMap emittedAlarms).IsChain (· ≠ ·)

/-- **Alarm events.**  In every run from boot, the alarm events mirror the alarm if and
only if no tick finds the rule disabled with the alarm latched. -/
theorem mirrored_iff (config : Config) (nvs : Option NvsStore) (calls : List Call) :
    AlarmsMirrored ((appMachine serde).trace (withNvs serde config nvs) calls) ↔
      ∀ t ∈ (appMachine serde).trace (withNvs serde config nvs) calls,
        IsTick t → t.before.latched = true → t.before.config.flowAlarm.enabled = true := by
  have hstep : ∀ t ∈ (appMachine serde).trace (withNvs serde config nvs) calls,
      (emittedAlarms t = Machine.changes latched t ↔
        (IsTick t → t.before.latched = true → t.before.config.flowAlarm.enabled = true)) := by
    intro t ht
    obtain ⟨calls₁, c, calls₂, -, rfl⟩ := (appMachine serde).mem_trace ht
    by_cases hop : ∃ ev, c.op = .emitEvent ev
    · obtain ⟨ev, hev⟩ := hop
      refine iff_of_true (mirrored_of_emitEvent serde _ hev) fun htick => ?_
      exact absurd (hev.symm.trans htick) AppOp.noConfusion
    · rw [emittedAlarms_transition serde _ fun ev hev => hop ⟨ev, hev⟩]
      exact alarmsOf_eq_changes_iff serde fun ev hev => hop ⟨ev, hev⟩
  constructor
  · rintro ⟨hmirror, -⟩ t ht
    exact (hstep t ht).mp (hmirror t ht)
  · intro henabled
    have hmirror := fun t ht => (hstep t ht).mpr (henabled t ht)
    refine ⟨hmirror, ?_⟩
    rw [List.flatMap_congr hmirror]
    exact (appMachine serde).isChain_changes latched (withNvs serde config nvs) calls

/-- An alarm is unlatched by disabling its rule and fires again when the rule is
enabled: subscribers see it fire twice in a row. -/
theorem fires_twice :
    let config := { Config.default {} with flowAlarm := ⟨true, 100.0, 0⟩ }
    let run := (appMachine (.fails _)).trace (withNvs (.fails _) config none) [
      .plain 0 .tick,
      .plain 1000 (.replaceConfigSection (Config.default {}) "flow_alarm"),
      .plain 2000 .tick,
      .plain 3000 (.replaceConfigSection config "flow_alarm"),
      .plain 4000 .tick]
    run.flatMap (Machine.changes latched) = [true, false, true] ∧
      run.flatMap emittedAlarms = [true, true] ∧ ¬ AlarmsMirrored run := by
  intro config run
  have hemitted : run.flatMap emittedAlarms = [true, true] := by decide +kernel
  refine ⟨by decide +kernel, hemitted, ?_⟩
  rintro ⟨-, hchain⟩
  rw [hemitted] at hchain
  simp at hchain

end App

end WaterController
