import WaterController.Core.App
import WaterController.Valve.Refinement

/-!
# Runs of the application

An application takes *calls*: an operation with the instant it happens at.
`appMachine` is the machine of these calls.

The tick is the operation with parts, and each part has one statement that says
all it does: `EvaluateSpec` for the alarm rule and `TickSpec` for the tick.
What other proofs need of a call is read off them: the alarm (`next_alarm`), the
last check, the configuration, and the operations it performs on the valve
(`next_valve`).  The last makes the valve a component of the application, so
what holds along every run of a valve holds here.
-/

namespace WaterController

open Machines (Machine Transition)

/-! ## The machine -/

/-- The operations of an application.  An update of the shared state from
outside leaves the alarm alone. -/
inductive AppOp where
  | switchCommand (cmd : SwitchCommand)
  | fireScheduleSprinkler (id : String) (durationSecs : Option UInt32)
  | replaceConfigSection (cfg : Config) (section_ : String)
  | clearFlowAlarm
  | updateState (f : DeviceSnapshot → DeviceSnapshot) (hf : ∀ s, (f s).alarm = s.alarm)
  | emitEvent (ev : WebhookEvent)
  | tick

/-- The operation installs a configuration. -/
def AppOp.installs : AppOp → Bool
  | .replaceConfigSection _ _ => true
  | .switchCommand _ | .fireScheduleSprinkler _ _ | .clearFlowAlarm | .updateState _ _
  | .emitEvent _ | .tick => false

/-- An operation with the instant it happens at. -/
structure Call where
  env : Env
  op : AppOp

/-- The time of a call. -/
def Call.time (c : Call) : Nat := c.env.monotonicMs

/-- An instant of a platform whose writes succeed. -/
def Env.plain (t : Nat) : Env where
  monotonicMs := t
  now := ⟨(t / 1000 : Nat), ""⟩
  nvsSet _ := .ok ()

theorem Env.writable_plain (t : Nat) : (Env.plain t).Writable := fun _ => rfl

/-- A call at such an instant. -/
def Call.plain (t : Nat) (op : AppOp) : Call := ⟨.plain t, op⟩

/-- What an operation returns. -/
inductive Reply where
  | outcome (o : CommandOutcome)
  | known (b : Bool)
  | outputs (o : TickOutputs)
  | done
deriving DecidableEq, Repr

/-- The application as a machine. -/
def appMachine (serde : Serde (List AlarmEvent)) : Machine App Call Reply where
  step app c :=
    match c.op with
    | .switchCommand cmd =>
        let r := app.switchCommand c.env cmd
        (r.1, .outcome r.2)
    | .fireScheduleSprinkler id durationSecs =>
        let r := app.fireScheduleSprinkler c.env id durationSecs
        (r.1, .known r.2)
    | .replaceConfigSection cfg section_ => (app.replaceConfigSection c.env cfg section_, .done)
    | .clearFlowAlarm => (app.clearFlowAlarm c.env, .done)
    | .updateState f _ => (app.updateState f, .done)
    | .emitEvent ev => (app.emitEvent c.env ev, .done)
    | .tick =>
        let r := app.tick serde c.env
        (r.1, .outputs r.2)

/-- A transition of the application. -/
abbrev AppTransition := Transition App Call Reply

/-- The transition is a tick. -/
def IsTick (t : AppTransition) : Prop := t.input.op = .tick

/-- The calls are made at times that never go back. -/
abbrev TimedCalls (calls : List Call) : Prop := Machine.Timed (fun c => some c.time) calls

namespace App

variable (serde : Serde (List AlarmEvent))

/-! ## The alarm rule -/

/-- The flow is at or above a threshold, and no sprinkler is on. -/
def FlowsHigh (app : App) (threshold : Float32) : Prop :=
  app.state.flow ≥ threshold ∧ app.state.switches.sprinkler1 = false ∧
    app.state.switches.sprinkler2 = false

instance (app : App) (threshold : Float32) : Decidable (app.FlowsHigh threshold) :=
  inferInstanceAs (Decidable (_ ∧ _))

/-- The counter after an evaluation by an enabled rule. -/
def elapsedAt (app : App) (now : Nat) : UInt32 :=
  if app.FlowsHigh app.config.flowAlarm.thresholdLph then
    saturatingAdd app.state.alarm.elapsedSecs (app.flowAlarmDelta now)
  else 0

/-- The evaluation latches the alarm. -/
def FiresAt (app : App) (now : Nat) : Prop :=
  app.config.flowAlarm.enabled = true ∧ app.state.alarm.active = false ∧
    app.config.flowAlarm.durationSecs ≤ app.elapsedAt now

instance (app : App) (now : Nat) : Decidable (app.FiresAt now) :=
  inferInstanceAs (Decidable (_ ∧ _))

/-- The evaluation finds the alarm latched and the valve open. -/
def Retries (app : App) : Prop :=
  app.config.flowAlarm.enabled = true ∧ app.state.alarm.active = true ∧
    app.state.switches.waterControl = .on

instance (app : App) : Decidable app.Retries := inferInstanceAs (Decidable (_ ∧ _))

/-- The evaluation commands the water off. -/
def ClosesAt (app : App) (now : Nat) : Prop := app.FiresAt now ∨ app.Retries

instance (app : App) (now : Nat) : Decidable (app.ClosesAt now) :=
  inferInstanceAs (Decidable (_ ∨ _))

/-- A disabled rule commands nothing. -/
theorem not_closesAt_of_disabled {app : App} (h : app.config.flowAlarm.enabled = false)
    (now : Nat) : ¬ app.ClosesAt now := by
  rintro (⟨he, -⟩ | ⟨he, -⟩) <;> simp [h] at he

/-- The alarm after an evaluation. -/
def alarmAt (app : App) (now : Nat) : FlowAlarm :=
  if app.config.flowAlarm.enabled = true then
    { active := decide (app.FiresAt now) || app.state.alarm.active
      elapsedSecs := app.elapsedAt now }
  else { active := false, elapsedSecs := 0 }

/-- The commands of an evaluation to the valve. -/
def alarmOps (app : App) (now : Nat) : List ValveOp :=
  if app.ClosesAt now then [.turnOff now] else []

/-- The valve after the commands of an evaluation. -/
def closedBy (app : App) (now : Nat) : WaterValve :=
  if app.ClosesAt now then app.valve.turnOff now else app.valve

theorem closedBy_eq (app : App) (now : Nat) :
    app.closedBy now = valveMachine.run app.valve (app.alarmOps now) := by
  unfold closedBy alarmOps
  split_ifs <;> rfl

/-- A water command is a command to the valve: what the guard refuses the valve
would ignore. -/
theorem switchCommand_waterControl (app : App) (env : Env) (on : Bool) :
    (app.switchCommand env (.waterControl on)).1 =
      { app with valve :=
        if on then app.valve.turnOn env.monotonicMs else app.valve.turnOff env.monotonicMs } := by
  simp only [switchCommand]
  cases hb : app.valve.isBusy with
  | false => rfl
  | true =>
      have hkeep := WaterValve.turn_of_isBusy hb env.monotonicMs
      rw [hkeep.1, hkeep.2]
      cases on <;> rfl

/-- Everything an evaluation of the alarm rule does, apart from the record it
keeps and the events it emits. -/
structure EvaluateSpec (app : App) (now : Nat) (app' : App) : Prop where
  config : app'.config = app.config
  valve : app'.valve = app.closedBy now
  sprinklers : app'.sprinkler1 = app.sprinkler1 ∧ app'.sprinkler2 = app.sprinkler2
  state : app'.state = { app.state with alarm := app.alarmAt now }
  lastCheck : app'.flowAlarmLastCheckMs = some now
  persisted : app'.lastPersistedValve = app.lastPersistedValve
  others : ∀ key, key ≠ nvsAlarmHistory → app'.nvs.bind (·.get key) = app.nvs.bind (·.get key)
  hasStore : app'.nvs.isSome = app.nvs.isSome

theorem EvaluateSpec.stored {app app' : App} {now : Nat} (h : EvaluateSpec app now app') :
    storedValveState app'.nvs = storedValveState app.nvs := by
  rw [storedValveState, h.others nvsValveState (by decide), storedValveState]

/-- The record of an alarm touches one key. -/
theorem recordAlarmEvent_others (app : App) (env : Env) (ev : AlarmEvent) {key : String}
    (h : key ≠ nvsAlarmHistory) :
    (app.recordAlarmEvent serde env ev).nvs.bind (·.get key) = app.nvs.bind (·.get key) := by
  cases hn : app.nvs with
  | none => simp [recordAlarmEvent, hn]
  | some nvs =>
      simp only [recordAlarmEvent, hn, Option.map_some, Option.bind_some]
      split
      · exact NvsStore.get_set_ne nvs h _ _
      · rfl

/-- The counter of the code is that of the predicates. -/
private theorem elapsed_eq (app : App) (now : Nat) :
    (if (app.state.switches.sprinkler1 || app.state.switches.sprinkler2) ||
        !decide (app.state.flow ≥ app.config.flowAlarm.thresholdLph) then 0
      else saturatingAdd app.state.alarm.elapsedSecs (app.flowAlarmDelta now)) =
      app.elapsedAt now := by
  have hcond : ((app.state.switches.sprinkler1 || app.state.switches.sprinkler2) ||
      !decide (app.state.flow ≥ app.config.flowAlarm.thresholdLph)) = true ↔
      ¬ app.FlowsHigh app.config.flowAlarm.thresholdLph := by
    simp only [FlowsHigh, Bool.or_eq_true, Bool.not_eq_true', decide_eq_false_iff_not]
    rw [Bool.eq_false_iff, Bool.eq_false_iff]
    tauto
  simp only [hcond, ite_not, elapsedAt]

/-- The event of a firing alarm. -/
def fireEvent (app : App) : WebhookEvent :=
  (((WebhookEvent.new .flowAlarmFire).withVar "flow_lph" (fixed1 app.state.flow)).withVar
    "threshold_lph" (fixed1 app.config.flowAlarm.thresholdLph)).withVar
    "duration_secs" (toString app.config.flowAlarm.durationSecs)

/-- The record of a firing alarm. -/
def fireRecord (app : App) (env : Env) : AlarmEvent where
  epochSecs := env.now.timestamp.toNat
  uptimeMs := env.monotonicMs
  flowLph := app.state.flow
  durationSecs := app.config.flowAlarm.durationSecs

/-- The state behind the check of an evaluation. -/
def checked (app : App) (now : Nat) : App :=
  { app with
    flowAlarmLastCheckMs := some now
    state := { app.state with alarm := app.alarmAt now } }

/-- An evaluation checks.  One that fires also records the alarm and emits its event,
and one that closes turns the valve off. -/
theorem evaluateFlowAlarm_eq (app : App) (env : Env) :
    app.evaluateFlowAlarm serde env env.monotonicMs =
      { (if app.FiresAt env.monotonicMs then
          ((app.checked env.monotonicMs).recordAlarmEvent serde env (app.fireRecord env)).emitEvent
            env app.fireEvent
        else app.checked env.monotonicMs) with valve := app.closedBy env.monotonicMs } := by
  generalize hnow : env.monotonicMs = now
  cases he : app.config.flowAlarm.enabled with
  | false =>
      have hclose := not_closesAt_of_disabled he now
      rw [if_neg fun hf => hclose (.inl hf), closedBy, if_neg hclose]
      simp only [evaluateFlowAlarm, he, checked, alarmAt]
      rfl
  | true =>
      have hfires : (!app.state.alarm.active &&
          decide (app.elapsedAt now ≥ app.config.flowAlarm.durationSecs)) =
          decide (app.FiresAt now) := by
        simp [FiresAt, he, Bool.decide_and, ge_iff_le]
      have hretries : (app.state.alarm.active && decide (app.state.switches.waterControl = .on)) =
          decide app.Retries := by
        simp [Retries, he, Bool.decide_and]
      have halarm : app.alarmAt now = { active := decide (app.FiresAt now) || app.state.alarm.active
                                        elapsedSecs := app.elapsedAt now } := if_pos he
      simp only [evaluateFlowAlarm, he, Bool.not_true, Bool.false_eq_true, if_false, updateState,
        elapsed_eq, hfires, hretries, ← halarm]
      by_cases hf : app.FiresAt now
      · have hclosed : app.closedBy now = app.valve.turnOff now := if_pos (.inl hf)
        rw [if_pos (decide_eq_true hf), if_pos hf, switchCommand_waterControl, hclosed, ← hnow]
        rfl
      · rw [if_neg (by simpa using hf), if_neg hf]
        by_cases hr : app.Retries
        · have hclosed : app.closedBy now = app.valve.turnOff now := if_pos (.inr hr)
          rw [if_pos (decide_eq_true hr), switchCommand_waterControl, hclosed, ← hnow]
          rfl
        · have hclosed : app.closedBy now = app.valve := if_neg (not_or.mpr ⟨hf, hr⟩)
          rw [if_neg (by simpa using hr), hclosed]
          rfl

theorem evaluateFlowAlarm_spec (app : App) (env : Env) :
    EvaluateSpec app env.monotonicMs (app.evaluateFlowAlarm serde env env.monotonicMs) := by
  rw [evaluateFlowAlarm_eq]
  by_cases hf : app.FiresAt env.monotonicMs
  · rw [if_pos hf]
    exact {
      config := rfl
      valve := rfl
      sprinklers := ⟨rfl, rfl⟩
      state := rfl
      lastCheck := rfl
      persisted := rfl
      others := fun _ => recordAlarmEvent_others serde _ env _
      hasStore := Option.isSome_map }
  · rw [if_neg hf]
    exact {
      config := rfl
      valve := rfl
      sprinklers := ⟨rfl, rfl⟩
      state := rfl
      lastCheck := rfl
      persisted := rfl
      others := fun _ _ => rfl
      hasStore := rfl }

/-! ## The tick -/

/-- The state an evaluation in a tick starts from. -/
def ticked (app : App) (now : Nat) : App := (app.tickComponents now).mirror

@[simp] theorem ticked_alarm (app : App) (now : Nat) :
    (app.ticked now).state.alarm = app.state.alarm := rfl

/-- The last stored valve state is the one the store holds. -/
def Synced (app : App) : Prop := app.lastPersistedValve = storedValveState app.nvs

/-- Storing the valve state touches the store and what is known of it. -/
structure PersistSpec (app : App) (env : Env) (app' : App) : Prop where
  frame : app' = { app with nvs := app'.nvs, lastPersistedValve := app'.lastPersistedValve }
  others : ∀ key, key ≠ nvsValveState → app'.nvs.bind (·.get key) = app.nvs.bind (·.get key)
  hasStore : app'.nvs.isSome = app.nvs.isSome
  synced : app.Synced → app'.Synced
  stored : app.Synced → app.nvs.isSome = true → env.Writable →
    storedValveState app'.nvs = some app.valve.userState

/-- The byte written for a user state is read back as that state. -/
theorem storedValveState_set (nvs : NvsStore) (on : Bool) :
    storedValveState (some (nvs.set nvsValveState [if on then 1 else 0] (.ok ()))) = some on := by
  simp only [storedValveState, Option.bind_some, NvsStore.get_set_ok]
  cases on <;> rfl

theorem persistValve_spec (app : App) (env : Env) : PersistSpec app env (app.persistValve env) := by
  cases hn : app.nvs with
  | none =>
      simp only [persistValve, hn]
      exact ⟨rfl, fun _ _ => rfl, rfl, id, fun _ hs => by simp [hn] at hs⟩
  | some nvs =>
      simp only [persistValve, hn]
      by_cases hlast : app.lastPersistedValve = some app.valve.userState
      · rw [if_pos hlast]
        exact ⟨rfl, fun _ _ => rfl, rfl, id, fun hsync _ _ => hsync.symm.trans hlast⟩
      · rw [if_neg hlast]
        cases ho : env.nvsSet nvsValveState with
        | ok u =>
            exact ⟨rfl, fun _ hk => by rw [hn]; exact nvs.get_set_ne hk _ _, by simp [hn],
              fun _ => (storedValveState_set nvs _).symm, fun _ _ _ => storedValveState_set nvs _⟩
        | error e =>
            refine ⟨rfl, fun _ hk => by rw [hn]; exact nvs.get_set_ne hk _ _, by simp [hn],
              fun hsync => ?_, fun _ _ hw => ?_⟩
            · rw [Synced, hn] at hsync
              exact hsync
            · rw [hw nvsValveState] at ho
              cases ho

/-- Everything a tick does, apart from the record and the events of an alarm. -/
structure TickSpec (app : App) (env : Env) (app' : App) : Prop where
  config : app'.config = app.config
  valve : app'.valve = (app.ticked env.monotonicMs).closedBy env.monotonicMs
  sprinklers : app'.sprinkler1 = (app.sprinkler1.tick env.monotonicMs).1 ∧
    app'.sprinkler2 = (app.sprinkler2.tick env.monotonicMs).1
  state : app'.state = { (app.ticked env.monotonicMs).state with
    alarm := (app.ticked env.monotonicMs).alarmAt env.monotonicMs }
  lastCheck : app'.flowAlarmLastCheckMs = some env.monotonicMs
  others : ∀ key, key ≠ nvsValveState → key ≠ nvsAlarmHistory →
    app'.nvs.bind (·.get key) = app.nvs.bind (·.get key)
  hasStore : app'.nvs.isSome = app.nvs.isSome
  synced : app.Synced → app'.Synced
  stored : app.Synced → app.nvs.isSome = true → env.Writable →
    storedValveState app'.nvs = some app'.valve.userState

theorem tick_spec (app : App) (env : Env) : TickSpec app env (app.tick serde env).1 := by
  have he := evaluateFlowAlarm_spec serde (app.ticked env.monotonicMs) env
  have hp := persistValve_spec
    ((app.ticked env.monotonicMs).evaluateFlowAlarm serde env env.monotonicMs) env
  have hsync : app.Synced →
      ((app.ticked env.monotonicMs).evaluateFlowAlarm serde env env.monotonicMs).Synced :=
    fun h => he.persisted.trans (h.trans he.stored.symm)
  show TickSpec app env
    (((app.ticked env.monotonicMs).evaluateFlowAlarm serde env env.monotonicMs).persistValve env)
  have hframe := hp.frame
  exact {
    config := by rw [hframe]; exact he.config
    valve := by rw [hframe]; exact he.valve
    sprinklers := by rw [hframe]; exact he.sprinklers
    state := by rw [hframe]; exact he.state
    lastCheck := by rw [hframe]; exact he.lastCheck
    others := fun key hv ha => (hp.others key hv).trans (he.others key ha)
    hasStore := hp.hasStore.trans he.hasStore
    synced := fun h => hp.synced (hsync h)
    stored := fun h hs hw => by
      rw [hp.stored (hsync h) (he.hasStore.trans hs) hw, hframe] }

/-! ## Calls -/

/-- The operations a call performs on the valve. -/
def valveOps (app : App) (c : Call) : List ValveOp :=
  match c.op with
  | .switchCommand (.waterControl on) => [if on then .turnOn c.time else .turnOff c.time]
  | .replaceConfigSection cfg _ => [.setTiming cfg.switches.valveTiming]
  | .tick => .tick c.time :: (app.ticked c.time).alarmOps c.time
  | _ => []

/-- The outputs of a tick are those of the valve. -/
theorem out_tick (app : App) {c : Call} (h : c.op = .tick) :
    ∃ o, (appMachine serde).out app c = .outputs o ∧ o.valve = (app.valve.tick c.time).2 := by
  obtain ⟨env, op⟩ := c
  cases h
  exact ⟨_, rfl, rfl⟩

theorem next_tick (app : App) {c : Call} (h : c.op = .tick) :
    TickSpec app c.env ((appMachine serde).next app c) := by
  obtain ⟨env, op⟩ := c
  cases h
  exact tick_spec serde app env

theorem switchCommand_frame (app : App) (env : Env) (cmd : SwitchCommand) :
    ∃ s₁ s₂ v, (app.switchCommand env cmd).1 =
      { app with sprinkler1 := s₁, sprinkler2 := s₂, valve := v } := by
  cases cmd with
  | sprinkler1 on | sprinkler2 on => exact ⟨_, _, _, rfl⟩
  | waterControl on => exact ⟨_, _, _, switchCommand_waterControl app env on⟩

theorem fireScheduleSprinkler_frame (app : App) (env : Env) (id : String) (d : Option UInt32) :
    ∃ s₁ s₂, (app.fireScheduleSprinkler env id d).1 =
      { app with sprinkler1 := s₁, sprinkler2 := s₂ } := by
  rw [fireScheduleSprinkler]
  split_ifs <;> exact ⟨_, _, rfl⟩

theorem clearFlowAlarm_frame (app : App) (env : Env) :
    app.clearFlowAlarm env =
      { app with
        state := { app.state with alarm := { active := false, elapsedSecs := 0 } }
        dispatched := (app.clearFlowAlarm env).dispatched } := by
  simp only [clearFlowAlarm]
  split <;> rfl

/-- A call other than a tick leaves the last check and the store alone. -/
theorem next_of_not_tick (app : App) {c : Call} (h : c.op ≠ .tick) :
    ((appMachine serde).next app c).flowAlarmLastCheckMs = app.flowAlarmLastCheckMs ∧
      ((appMachine serde).next app c).nvs = app.nvs ∧
      ((appMachine serde).next app c).lastPersistedValve = app.lastPersistedValve := by
  obtain ⟨env, op⟩ := c
  cases op with
  | switchCommand cmd =>
      obtain ⟨s₁, s₂, v, hs⟩ := switchCommand_frame app env cmd
      rw [show (appMachine serde).next app ⟨env, .switchCommand cmd⟩ = _ from hs]
      exact ⟨rfl, rfl, rfl⟩
  | fireScheduleSprinkler id d =>
      obtain ⟨s₁, s₂, hs⟩ := fireScheduleSprinkler_frame app env id d
      rw [show (appMachine serde).next app ⟨env, .fireScheduleSprinkler id d⟩ = _ from hs]
      exact ⟨rfl, rfl, rfl⟩
  | clearFlowAlarm =>
      have hs := clearFlowAlarm_frame app env
      rw [show (appMachine serde).next app ⟨env, .clearFlowAlarm⟩ = _ from hs]
      exact ⟨rfl, rfl, rfl⟩
  | replaceConfigSection cfg section_ => exact ⟨rfl, rfl, rfl⟩
  | updateState f hf => exact ⟨rfl, rfl, rfl⟩
  | emitEvent ev => exact ⟨rfl, rfl, rfl⟩
  | tick => exact absurd rfl h

/-- No call loses the store. -/
theorem hasStore_next (app : App) (c : Call) :
    ((appMachine serde).next app c).nvs.isSome = app.nvs.isSome := by
  by_cases h : c.op = .tick
  · exact (next_tick serde app h).hasStore
  · rw [(next_of_not_tick serde app h).2.1]

/-- A call touches no keys of the store but those of the valve and of the alarms. -/
theorem others_next (app : App) (c : Call) {key : String} (hv : key ≠ nvsValveState)
    (ha : key ≠ nvsAlarmHistory) :
    ((appMachine serde).next app c).nvs.bind (·.get key) = app.nvs.bind (·.get key) := by
  by_cases h : c.op = .tick
  · exact (next_tick serde app h).others key hv ha
  · rw [(next_of_not_tick serde app h).2.1]

/-- The other calls keep the configuration. -/
theorem next_config (app : App) {c : Call} (h : c.op.installs = false) :
    ((appMachine serde).next app c).config = app.config := by
  obtain ⟨env, op⟩ := c
  cases op with
  | tick => exact (tick_spec serde app env).config
  | switchCommand cmd =>
      obtain ⟨s₁, s₂, v, hs⟩ := switchCommand_frame app env cmd
      exact congrArg (·.config) hs
  | fireScheduleSprinkler id d =>
      obtain ⟨s₁, s₂, hs⟩ := fireScheduleSprinkler_frame app env id d
      exact congrArg (·.config) hs
  | clearFlowAlarm => exact congrArg (·.config) (clearFlowAlarm_frame app env)
  | replaceConfigSection cfg section_ => cases h
  | updateState f hf => rfl
  | emitEvent ev => rfl

/-- A call acts on the valve as its operations. -/
theorem next_valve (app : App) (c : Call) :
    ((appMachine serde).next app c).valve = valveMachine.run app.valve (app.valveOps c) := by
  obtain ⟨env, op⟩ := c
  cases op with
  | switchCommand cmd =>
      cases cmd with
      | sprinkler1 on | sprinkler2 on => rfl
      | waterControl on =>
          have hcmd := congrArg App.valve (switchCommand_waterControl app env on)
          exact hcmd.trans (by cases on <;> rfl)
  | fireScheduleSprinkler id d =>
      obtain ⟨s₁, s₂, hs⟩ := fireScheduleSprinkler_frame app env id d
      exact congrArg (·.valve) hs
  | clearFlowAlarm => exact congrArg (·.valve) (clearFlowAlarm_frame app env)
  | replaceConfigSection cfg section_ => rfl
  | updateState f hf => rfl
  | emitEvent ev => rfl
  | tick =>
      exact (tick_spec serde app env).valve.trans (closedBy_eq _ _)

/-- The alarm after a call. -/
theorem next_alarm (app : App) (c : Call) :
    ((appMachine serde).next app c).state.alarm =
      match c.op with
      | .tick => (app.ticked c.time).alarmAt c.time
      | .clearFlowAlarm => { active := false, elapsedSecs := 0 }
      | _ => app.state.alarm := by
  obtain ⟨env, op⟩ := c
  cases op with
  | switchCommand cmd =>
      obtain ⟨s₁, s₂, v, hs⟩ := switchCommand_frame app env cmd
      exact congrArg (·.state.alarm) hs
  | fireScheduleSprinkler id d =>
      obtain ⟨s₁, s₂, hs⟩ := fireScheduleSprinkler_frame app env id d
      exact congrArg (·.state.alarm) hs
  | clearFlowAlarm => exact congrArg (·.state.alarm) (clearFlowAlarm_frame app env)
  | replaceConfigSection cfg section_ => rfl
  | updateState f hf => exact hf app.state
  | emitEvent ev => rfl
  | tick => exact congrArg (·.alarm) (tick_spec serde app env).state

/-- A call that is no tick leaves the alarm alone or clears it. -/
theorem next_alarm_of_not_tick (app : App) {c : Call} (h : c.op ≠ .tick) :
    (c.op ≠ .clearFlowAlarm ∧ ((appMachine serde).next app c).state.alarm = app.state.alarm) ∨
      (c.op = .clearFlowAlarm ∧
        ((appMachine serde).next app c).state.alarm = { active := false, elapsedSecs := 0 }) := by
  rw [next_alarm]
  obtain ⟨env, op⟩ := c
  cases op with
  | tick => exact absurd rfl h
  | clearFlowAlarm => exact .inr ⟨rfl, rfl⟩
  | switchCommand | fireScheduleSprinkler | replaceConfigSection | updateState | emitEvent =>
      exact .inl ⟨AppOp.noConfusion, rfl⟩

/-! ## Runs -/

/-- The valve of an application at boot is coupled. -/
theorem coupled_withNvs (config : Config) (nvs : Option NvsStore) :
    (withNvs serde config nvs).valve.Coupled := by
  simp only [withNvs]
  split
  · exact WaterValve.coupled_boot _ _
  · exact WaterValve.coupled_withTiming _

theorem coupled_next {app : App} (h : app.valve.Coupled) (c : Call) :
    ((appMachine serde).next app c).valve.Coupled := by
  rw [next_valve]
  exact h.run _

/-- The valve of every reachable application is coupled. -/
theorem coupled_run {app : App} (h : app.valve.Coupled) (calls : List Call) :
    ((appMachine serde).run app calls).valve.Coupled :=
  (appMachine serde).run_invariant (P := fun a => a.valve.Coupled) (G := fun _ _ => True)
    (fun _ c _ ha => coupled_next serde ha c) h fun _ _ => trivial

end App

end WaterController
