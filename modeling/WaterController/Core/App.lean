import WaterController.Core.Config
import WaterController.Core.State
import WaterController.Core.Switch

/-!
# The application

`App` wires the valve, the two sprinklers, the flow alarm and the persistent
store together.  Handlers call its operations, and a task calls `App.tick`,
which refreshes the snapshot and gives the levels of the output pins.

An operation is one instant: every reading of the clock inside it gives the
time of its `Env`.  The codec of the alarm history is the parameter `serde`.
Events go to a dispatcher, which is the list of those handed over so far.
-/

namespace WaterController

/-! ## Commands -/

inductive SwitchCommand where
  | sprinkler1 (on : Bool)
  | sprinkler2 (on : Bool)
  | waterControl (on : Bool)
deriving DecidableEq, Repr

inductive CommandOutcome where
  | ok
  | busy (reason : String)
deriving DecidableEq, Repr

structure TickOutputs where
  sprinkler1 : Bool
  sprinkler2 : Bool
  valve : ValveOutputs
deriving DecidableEq, Repr

/-! ## Arithmetic and text -/

/-- `a.saturating_add(b)`. -/
def saturatingAdd (a b : UInt32) : UInt32 := UInt32.ofNat (min (a.toNat + b.toNat) (2 ^ 32 - 1))

/-- `m / 2 ^ k`, rounded to the nearest integer, a tie to the even one. -/
def roundHalfEven (m k : Nat) : Nat :=
  let q := m / 2 ^ k
  let r := m % 2 ^ k
  if 2 * r < 2 ^ k ∨ (2 * r = 2 ^ k ∧ q % 2 = 0) then q else q + 1

/-- `{x:.1}`: the exact value to one decimal. -/
def fixed1 (x : Float32) : String :=
  let bits := x.toBits.toNat
  let sign := if bits / 2 ^ 31 = 1 then "-" else ""
  let exponent := bits / 2 ^ 23 % 256
  let fraction := bits % 2 ^ 23
  if exponent = 255 then
    if fraction = 0 then sign ++ "inf" else "NaN"
  else
    -- subnormals have no leading one and the exponent of the first normals
    let mantissa := if exponent = 0 then fraction else 2 ^ 23 + fraction
    let tenths := roundHalfEven (10 * mantissa * 2 ^ (exponent - 1)) 149
    sign ++ toString (tenths / 10) ++ "." ++ toString (tenths % 10)

/-! ## The state -/

structure App where
  config : Config
  valve : WaterValve
  sprinkler1 : TimedSwitch
  sprinkler2 : TimedSwitch
  state : DeviceSnapshot
  nvs : Option NvsStore
  lastPersistedValve : Option Bool
  flowAlarmLastCheckMs : Option Nat
  /-- Oldest first. -/
  alarmHistory : List AlarmEvent
  /-- The events handed to the dispatcher, oldest first. -/
  dispatched : List WebhookEvent

namespace App

def alarmHistoryCap : Nat := 16

def nvsAlarmHistory : String := "wc.almhist"

def nvsValveState : String := "wc.valve"

/-- The auto-off of a sprinkler in milliseconds. -/
def autoOffOrNone (secs : UInt32) : Option Nat :=
  if secs = 0 then none else some (secs.toNat * 1000)

/-- The valve state a store holds, if any. -/
def storedValveState (nvs : Option NvsStore) : Option Bool :=
  (nvs.bind (·.get nvsValveState)).bind fun b => b.head?.map (· != 0)

section Operations

variable (serde : Serde (List AlarmEvent))

/-- An application at boot. -/
def withNvs (config : Config) (nvs : Option NvsStore) : App where
  config := config
  valve :=
    match storedValveState nvs with
    | some on => (WaterValve.withTiming config.switches.valveTiming).restore on
    | none => WaterValve.withTiming config.switches.valveTiming
  sprinkler1 := .new (autoOffOrNone config.switches.sprinkler1AutoOffSecs)
  sprinkler2 := .new (autoOffOrNone config.switches.sprinkler2AutoOffSecs)
  state := {}
  nvs := nvs
  lastPersistedValve := storedValveState nvs
  flowAlarmLastCheckMs := none
  alarmHistory :=
    match nvs.bind (·.get nvsAlarmHistory) with
    | none => []
    | some b =>
        match serde.fromSlice b with
        | .ok v => (v.reverse.take alarmHistoryCap).reverse
        | .error _ => []
  dispatched := []

/-- An application without a store. -/
def new (config : Config) : App := withNvs serde config none

/-- Hand an event to the dispatcher, with the standard variables the caller has
not set. -/
def emitEvent (app : App) (env : Env) (ev : WebhookEvent) : App :=
  let ev := ev.fill "event" ev.kind.asStr
  let ev := ev.fill "event_label" ev.kind.label
  let ev := ev.fill "iso_ts" env.now.rfc3339
  let ev := ev.fill "device" app.config.wifi.hostname
  let ev := ev.fill "uptime_s" (toString (env.monotonicMs / 1000))
  { app with dispatched := app.dispatched ++ [ev] }

/-- Append to the alarm history, dropping the oldest entry at the cap, and store
it.  A failure to store is ignored. -/
def recordAlarmEvent (app : App) (env : Env) (ev : AlarmEvent) : App :=
  let h :=
    if app.alarmHistory.length = alarmHistoryCap then app.alarmHistory.tail else app.alarmHistory
  let snapshot := h ++ [ev]
  { app with
    alarmHistory := snapshot
    nvs := app.nvs.map fun nvs =>
      match serde.toVec snapshot with
      | .ok bytes => nvs.set nvsAlarmHistory bytes (env.nvsSet nvsAlarmHistory)
      | .error _ => nvs }

def updateState (app : App) (f : DeviceSnapshot → DeviceSnapshot) : App :=
  { app with state := f app.state }

/-- Replace the configuration and push its live values into the components. -/
def replaceConfigSection (app : App) (env : Env) (cfg : Config) (section_ : String) : App :=
  let app :=
    { app with
      sprinkler1 := app.sprinkler1.setAutoOff (autoOffOrNone cfg.switches.sprinkler1AutoOffSecs)
      sprinkler2 := app.sprinkler2.setAutoOff (autoOffOrNone cfg.switches.sprinkler2AutoOffSecs)
      valve := app.valve.setTiming cfg.switches.valveTiming
      config := cfg }
  app.emitEvent env ((WebhookEvent.new .configChanged).withVar "section" section_)

def replaceConfig (app : App) (env : Env) (cfg : Config) : App :=
  app.replaceConfigSection env cfg "all"

/-- Turn a sprinkler on with an optional duration of its own, in seconds. -/
def startSprinkler (s : TimedSwitch) (now : Nat) (durationSecs : Option UInt32) : TimedSwitch :=
  match durationSecs with
  | some d => s.turnOnFor now (d.toNat * 1000)
  | none => s.turnOn now

/-- Fire a scheduled sprinkler.  The flag says whether its name is known. -/
def fireScheduleSprinkler (app : App) (env : Env) (id : String) (durationSecs : Option UInt32) :
    App × Bool :=
  if id = "sprinkler_1" then
    ({ app with sprinkler1 := startSprinkler app.sprinkler1 env.monotonicMs durationSecs }, true)
  else if id = "sprinkler_2" then
    ({ app with sprinkler2 := startSprinkler app.sprinkler2 env.monotonicMs durationSecs }, true)
  else (app, false)

/-- Switch a sprinkler by hand. -/
def setSprinkler (s : TimedSwitch) (now : Nat) (on : Bool) : TimedSwitch :=
  if on then s.turnOn now else s.turnOff

/-- Apply a switch command.  The water control refuses while a sequence is in
progress. -/
def switchCommand (app : App) (env : Env) (cmd : SwitchCommand) : App × CommandOutcome :=
  let now := env.monotonicMs
  match cmd with
  | .sprinkler1 on => ({ app with sprinkler1 := setSprinkler app.sprinkler1 now on }, .ok)
  | .sprinkler2 on => ({ app with sprinkler2 := setSprinkler app.sprinkler2 now on }, .ok)
  | .waterControl on =>
      if app.valve.isBusy then (app, .busy "valve sequence in progress")
      else
        ({ app with valve := if on then app.valve.turnOn now else app.valve.turnOff now }, .ok)

/-! ## The flow alarm -/

/-- The whole seconds since the last evaluation, in 32 bits. -/
def flowAlarmDelta (app : App) (nowMs : Nat) : UInt32 :=
  match app.flowAlarmLastCheckMs with
  | some t => UInt32.ofNat ((nowMs - t) / 1000)
  | none => 0

/-- Evaluate the flow alarm.  High flow with no sprinkler on fills the counter,
anything else empties it, and a full counter latches the alarm and closes the
water.  While the alarm is latched, an open valve is closed again. -/
def evaluateFlowAlarm (app : App) (env : Env) (nowMs : Nat) : App :=
  let cfg := app.config.flowAlarm
  let deltaS := app.flowAlarmDelta nowMs
  let app := { app with flowAlarmLastCheckMs := some nowMs }
  if !cfg.enabled then
    app.updateState fun s => { s with alarm := { active := false, elapsedSecs := 0 } }
  else
    let snap := app.state
    let anySprinklerOn := snap.switches.sprinkler1 || snap.switches.sprinkler2
    let flow := snap.flow
    let above := decide (flow ≥ cfg.thresholdLph)
    let wasActive := snap.alarm.active
    let elapsedSecs :=
      if anySprinklerOn || !above then 0 else saturatingAdd snap.alarm.elapsedSecs deltaS
    let justFired := !wasActive && decide (elapsedSecs ≥ cfg.durationSecs)
    let app := app.updateState fun s =>
      { s with alarm := { active := justFired || s.alarm.active, elapsedSecs } }
    if justFired then
      let app := app.recordAlarmEvent serde env
        { epochSecs := env.now.timestamp.toNat, uptimeMs := nowMs, flowLph := flow,
          durationSecs := cfg.durationSecs }
      let app := app.emitEvent env ((((WebhookEvent.new .flowAlarmFire).withVar
        "flow_lph" (fixed1 flow)).withVar "threshold_lph" (fixed1 cfg.thresholdLph)).withVar
        "duration_secs" (toString cfg.durationSecs))
      (app.switchCommand env (.waterControl false)).1
    else if wasActive && snap.switches.waterControl = .on then
      (app.switchCommand env (.waterControl false)).1
    else app

/-- Reset the latched alarm and its counter. -/
def clearFlowAlarm (app : App) (env : Env) : App :=
  let wasActive := app.state.alarm.active
  let app := app.updateState fun s => { s with alarm := { active := false, elapsedSecs := 0 } }
  if wasActive then app.emitEvent env (.new .flowAlarmClear) else app

/-! ## The tick -/

/-- Advance the timed components. -/
def tickComponents (app : App) (now : Nat) : App :=
  { app with
    sprinkler1 := (app.sprinkler1.tick now).1
    sprinkler2 := (app.sprinkler2.tick now).1
    valve := (app.valve.tick now).1 }

/-- Mirror the components into the snapshot. -/
def mirror (app : App) : App :=
  app.updateState fun s =>
    { s with switches :=
      { sprinkler1 := app.sprinkler1.isOn
        sprinkler2 := app.sprinkler2.isOn
        waterControl := .ofWaterState app.valve.state } }

/-- Store the user state of the valve when it is not the one last stored.  A
failing write is tried again at the next tick. -/
def persistValve (app : App) (env : Env) : App :=
  match app.nvs with
  | none => app
  | some nvs =>
      let userOn := app.valve.userState
      if app.lastPersistedValve = some userOn then app
      else
        let byte : Bytes := [if userOn then 1 else 0]
        let outcome := env.nvsSet nvsValveState
        { app with
          nvs := some (nvs.set nvsValveState byte outcome)
          lastPersistedValve :=
            match outcome with
            | .ok () => some userOn
            | .error _ => app.lastPersistedValve }

/-- Tick all timed components and refresh the snapshot. -/
def tick (app : App) (env : Env) : App × TickOutputs :=
  let now := env.monotonicMs
  let ticked := (app.tickComponents now).mirror
  ((ticked.evaluateFlowAlarm serde env now).persistValve env,
    { sprinkler1 := ticked.sprinkler1.isOn
      sprinkler2 := ticked.sprinkler2.isOn
      valve := (app.valve.tick now).2 })

end Operations

end App

end WaterController
