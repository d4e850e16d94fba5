import WaterController.App.Commands

/-!
# Power losses

A device lives through calls and power losses.  A power loss leaves nothing but
the store, and the next boot restores the user state of the valve from it.

The store is up to date with the user state after every call (`Kept.stored`).
The user state is not up to date with the valve, since it changes when a sequence
completes, while the open motor has run before.  So the water is lost sight of
when the power goes in the middle of an opening, and otherwise the rebooted
device can close it (`recovers_iff`), unless it is told to run its motor for no
time at all.
-/

namespace WaterController

open Machines (Machine Transition)

/-! ## Lives -/

/-- What happens to a device.  A power loss comes with the configuration of the
boot after it. -/
inductive LifeEvent where
  | call (c : Call)
  | powerLoss (config : Config)

/-- A device, and whether its open motor was energised since the last completed
close sequence.  The device itself does not know that. -/
structure Device where
  app : App
  opened : Bool

namespace WaterValve

/-- An opening is in progress. -/
def isOpening (v : WaterValve) : Bool :=
  match v.phase with
  | .turningOn _ => true
  | .idle | .turningOff _ | .draining _ => false

/-- A closing is in progress. -/
def isClosing (v : WaterValve) : Bool :=
  match v.phase with
  | .turningOff _ => true
  | .idle | .turningOn _ | .draining _ => false

/-- The valve is opening, or it shows open. -/
def MayBeOpen (v : WaterValve) : Prop := v.isOpening = true ∨ v.userState = true

end WaterValve

namespace Device

variable (serde : Serde (List AlarmEvent))

/-- A device at its first boot, which finds a store of any contents. -/
def boot (config : Config) (nvs : NvsStore) : Device where
  app := .withNvs serde config (some nvs)
  opened := false

/-- What a call makes of the note on the open motor. -/
def noteCall (d : Device) (app' : App) (reply : Reply) : Bool :=
  if d.app.valve.isClosing && !app'.valve.isClosing then false
  else
    match reply with
    | .outputs o => d.opened || o.valve.openMotor
    | .outcome _ | .known _ | .done => d.opened

/-- A power loss falls in an opening whose motor was energised. -/
def CutsOpening (d : Device) : Prop := d.opened = true ∧ d.app.valve.isOpening = true

end Device

/-- The life of a device. -/
def lifeMachine (serde : Serde (List AlarmEvent)) : Machine Device LifeEvent (Option Reply) where
  step d
    | .call c =>
        let r := (appMachine serde).step d.app c
        (⟨r.1, d.noteCall r.1 r.2⟩, some r.2)
    | .powerLoss config => (⟨.withNvs serde config d.app.nvs, d.opened⟩, none)

/-! ## What a call does to an open valve -/

namespace WaterValve

/-- A valve that shows closed ignores a command to close. -/
theorem turnOff_of_off {v : WaterValve} (h : v.userState = false) (now : Nat) :
    v.turnOff now = v := by
  obtain ⟨phase, userState, timing⟩ := v
  cases h
  cases phase <;> rfl

/-- An opening valve shows closed. -/
theorem Coupled.userState_of_isOpening {v : WaterValve} (h : v.Coupled) (ho : v.isOpening = true) :
    v.userState = false := by
  obtain ⟨phase, userState, timing⟩ := v
  cases phase with
  | turningOn s => exact h
  | idle | turningOff s | draining s => cases ho

/-- The close motor runs in the pulse of a closing. -/
theorem tick_closeMotor_iff {v : WaterValve} {now : Nat} :
    (v.tick now).2.closeMotor = true ↔
      ∃ s, v.phase = .turningOff s ∧ Stage.InPulse v.timing (now - s) := by
  generalize hv : (v.tick now).1 = v', ho : (v.tick now).2 = o
  have hstep := v.tick_step now
  rw [hv, ho] at hstep
  cases hstep with
  | idle hp | opening s hp | opened s hp | draining s hp | drained s hp => simp [hp]
  | closing s hp => simp [hp]
  | closedDry s hp hle | closedWet s hp hle => simp [hp, Stage.not_inPulse_of_le hle]

/-- A tick leaves a closing that is not over alone. -/
theorem tick_closing {v : WaterValve} {start now : Nat} (hphase : v.phase = .turningOff start)
    (hlt : now - start < v.timing.sequenceMs) : (v.tick now).1 = v := by
  generalize hv : (v.tick now).1 = v', ho : (v.tick now).2 = o
  have hstep := v.tick_step now
  rw [hv, ho] at hstep
  cases hstep with
  | closing => rfl
  | idle | draining => rfl
  | opening s hp | opened s hp | drained s hp => cases hphase.symm.trans hp
  | closedDry s hp hle | closedWet s hp hle =>
      cases hphase.symm.trans hp
      exact absurd hle (Nat.not_le.mpr hlt)

/-- A command or a new timing keeps the user state, and a valve that may be open
in that state. -/
theorem mayBeOpen_next (v : WaterValve) (op : ValveOp) (h : ∀ t, op ≠ .tick t) :
    (valveMachine.next v op).userState = v.userState ∧
      (v.MayBeOpen → (valveMachine.next v op).MayBeOpen) := by
  obtain ⟨phase, userState, timing⟩ := v
  cases op with
  | tick t => exact absurd rfl (h t)
  | setTiming t => exact ⟨rfl, id⟩
  | turnOn t | turnOff t =>
      cases phase <;> cases userState <;>
        simp [MayBeOpen, isOpening, turnOn, turnOff]

/-- A tick that drives the open motor is in an opening, and one that finds the
valve possibly open leaves it so, unless it ends a closing. -/
theorem TickStep.mayBeOpen {v v' : WaterValve} {now : Nat} {o : ValveOutputs}
    (hv : v.Coupled) (h : TickStep v now v' o) :
    (o.openMotor = true ∨ v.MayBeOpen → v'.MayBeOpen) ∨
      (v.isClosing = true ∧ v'.isClosing = false ∧ v'.userState = false) := by
  obtain ⟨phase, userState, timing⟩ := v
  cases h with
  | idle hp | closing s hp | draining s hp =>
      cases hp
      exact .inl (by simp)
  | opening s hp =>
      cases hp
      exact .inl fun _ => .inl rfl
  | opened s hp => exact .inl fun _ => .inr rfl
  | closedDry s hp | closedWet s hp =>
      cases hp
      exact .inr ⟨rfl, rfl, rfl⟩
  | drained s hp =>
      cases hp
      have hoff : userState = false := hv
      exact .inl (by simp [MayBeOpen, isOpening, hoff])

end WaterValve

namespace App

variable (serde : Serde (List AlarmEvent))

/-- A call that is no tick keeps the user state. -/
theorem mayBeOpen_of_not_tick (app : App) {c : Call} (h : c.op ≠ .tick) :
    ((appMachine serde).next app c).valve.userState = app.valve.userState ∧
      (app.valve.MayBeOpen → ((appMachine serde).next app c).valve.MayBeOpen) := by
  rw [next_valve]
  obtain ⟨env, op⟩ := c
  cases op with
  | tick => exact absurd rfl h
  | switchCommand cmd =>
      cases cmd with
      | sprinkler1 on | sprinkler2 on => exact ⟨rfl, id⟩
      | waterControl on =>
          cases on <;> exact WaterValve.mayBeOpen_next _ _ fun _ => ValveOp.noConfusion
  | replaceConfigSection cfg section_ =>
      exact app.valve.mayBeOpen_next _ fun _ => ValveOp.noConfusion
  | fireScheduleSprinkler | clearFlowAlarm | updateState | emitEvent => exact ⟨rfl, id⟩

/-- The valve after a tick. -/
theorem tick_valve {app app' : App} {env : Env} (h : TickSpec app env app') :
    app'.valve = (app.valve.tick env.monotonicMs).1 ∨
      app'.valve = (app.valve.tick env.monotonicMs).1.turnOff env.monotonicMs := by
  rw [h.valve, closedBy]
  split
  · exact .inr rfl
  · exact .inl rfl

end App

/-! ## The store and the valve -/

/-- What holds of a device between its calls. -/
structure Kept (d : Device) : Prop where
  coupled : d.app.valve.Coupled
  hasStore : d.app.nvs.isSome = true
  synced : d.app.Synced
  /-- The store has the user state, and a blank one stands for closed. -/
  stored : (App.storedValveState d.app.nvs).getD false = d.app.valve.userState
  /-- Where the open motor has run, the valve shows it. -/
  accounted : d.opened = true → d.app.valve.MayBeOpen

namespace Kept

variable (serde : Serde (List AlarmEvent))

theorem withNvs_valve (config : Config) (nvs : Option NvsStore) :
    (App.withNvs serde config nvs).valve =
      ⟨.idle, (App.storedValveState nvs).getD false, config.switches.valveTiming⟩ := by
  simp only [App.withNvs]
  cases App.storedValveState nvs <;> rfl

/-- A boot restores what the store has. -/
theorem withNvs_stored (config : Config) (nvs : Option NvsStore) :
    (App.storedValveState (App.withNvs serde config nvs).nvs).getD false =
      (App.withNvs serde config nvs).valve.userState := by
  rw [withNvs_valve]
  rfl

theorem boot (config : Config) (nvs : NvsStore) : Kept (.boot serde config nvs) where
  coupled := App.coupled_withNvs serde config _
  hasStore := rfl
  synced := rfl
  stored := withNvs_stored serde config _
  accounted := fun h => by cases h

variable {d : Device}

/-- A tick accounts for the motor it drives. -/
theorem accounted_tick (h : Kept d) {c : Call} (htick : c.op = .tick)
    (hnote : d.noteCall ((appMachine serde).next d.app c) ((appMachine serde).out d.app c) = true) :
    ((appMachine serde).next d.app c).valve.MayBeOpen := by
  obtain ⟨o, ho, hvalve⟩ := App.out_tick serde d.app htick
  have hstep := d.app.valve.tick_step c.time
  rw [← hvalve] at hstep
  have hafter := App.tick_valve (App.next_tick serde d.app htick)
  rw [ho, Device.noteCall] at hnote
  split at hnote
  · cases hnote
  · rename_i hkept
    rcases hstep.mayBeOpen h.coupled with hmay | ⟨hclosing, hover, hoff⟩
    · have hticked : (d.app.valve.tick c.time).1.MayBeOpen := by
        rcases Bool.or_eq_true_iff.mp hnote with hold | hnew
        · exact hmay (.inr (h.accounted hold))
        · exact hmay (.inl hnew)
      rcases hafter with hv | hv
      · rw [hv]
        exact hticked
      · rw [hv]
        exact (WaterValve.mayBeOpen_next _ (.turnOff _) fun _ => ValveOp.noConfusion).2 hticked
    · -- the tick that ends a closing empties the note
      refine absurd ?_ hkept
      have hsame : ((appMachine serde).next d.app c).valve = (d.app.valve.tick c.time).1 := by
        rcases hafter with hv | hv
        · exact hv
        · exact hv.trans (WaterValve.turnOff_of_off hoff _)
      rw [hclosing, hsame, hover]
      rfl

/-- A call that is no tick drives no motor. -/
theorem accounted_of_not_tick (h : Kept d) {c : Call} (htick : c.op ≠ .tick)
    (hnote : d.noteCall ((appMachine serde).next d.app c) ((appMachine serde).out d.app c) = true) :
    ((appMachine serde).next d.app c).valve.MayBeOpen := by
  refine (App.mayBeOpen_of_not_tick serde d.app htick).2 (h.accounted ?_)
  obtain ⟨env, op⟩ := c
  unfold Device.noteCall at hnote
  split at hnote
  · cases hnote
  · cases op with
    | tick => exact absurd rfl htick
    | switchCommand | fireScheduleSprinkler | replaceConfigSection | clearFlowAlarm | updateState
    | emitEvent => exact hnote

theorem call (h : Kept d) {c : Call} (hw : c.env.Writable) :
    Kept ((lifeMachine serde).next d (.call c)) := by
  by_cases htick : c.op = .tick
  · have hspec := App.next_tick serde d.app htick
    exact {
      coupled := App.coupled_next serde h.coupled c
      hasStore := hspec.hasStore.trans h.hasStore
      synced := hspec.synced h.synced
      stored := congrArg (Option.getD · false) (hspec.stored h.synced h.hasStore hw)
      accounted := h.accounted_tick serde htick }
  · obtain ⟨-, hnvs, hlast⟩ := App.next_of_not_tick serde d.app htick
    have huser := (App.mayBeOpen_of_not_tick serde d.app htick).1
    exact {
      coupled := App.coupled_next serde h.coupled c
      hasStore := (congrArg Option.isSome hnvs).trans h.hasStore
      synced := hlast.trans (h.synced.trans (congrArg App.storedValveState hnvs).symm)
      stored := (congrArg (fun n => (App.storedValveState n).getD false) hnvs).trans
        (h.stored.trans huser.symm)
      accounted := h.accounted_of_not_tick serde htick }

/-- A power loss outside an opening keeps all of it. -/
theorem powerLoss (h : Kept d) (hcut : ¬ d.CutsOpening) (config : Config) :
    Kept ((lifeMachine serde).next d (.powerLoss config)) := by
  refine ⟨App.coupled_withNvs serde config _, h.hasStore, rfl,
    withNvs_stored serde config _, fun hopened => .inr ?_⟩
  show (App.withNvs serde config d.app.nvs).valve.userState = true
  rw [withNvs_valve]
  show (App.storedValveState d.app.nvs).getD false = true
  rw [h.stored]
  exact (h.accounted hopened).resolve_left fun hopening => hcut ⟨hopened, hopening⟩

/-- What a life may bring a device: writes that succeed, and power losses outside
openings. -/
def Spared (d : Device) : LifeEvent → Prop
  | .call c => c.env.Writable
  | .powerLoss _ => ¬ d.CutsOpening

theorem next (h : Kept d) {e : LifeEvent} (he : Spared d e) :
    Kept ((lifeMachine serde).next d e) := by
  cases e with
  | call c => exact h.call serde he
  | powerLoss config => exact h.powerLoss serde he config

/-- It holds along a life of that kind. -/
theorem run (config : Config) (nvs : NvsStore) {events : List LifeEvent}
    (hevents : ∀ t ∈ (lifeMachine serde).trace (.boot serde config nvs) events,
      Spared t.before t.input) :
    Kept ((lifeMachine serde).run (.boot serde config nvs) events) :=
  (lifeMachine serde).run_invariant (fun _ _ he h => h.next serde he) (boot serde config nvs)
    hevents

end Kept

/-! ## Recovery -/

namespace App

variable (serde : Serde (List AlarmEvent))

/-- The tick drives the close motor. -/
def DrivesClose (app : App) (c : Call) : Prop :=
  ∃ o, (appMachine serde).out app c = .outputs o ∧ o.valve.closeMotor = true

/-- A command to turn the water off starts a sequence that drives the close motor:
at some later time a tick does, however the ticks before it fall. -/
def Recovers (app : App) : Prop :=
  ∀ env : Env, (app.switchCommand env (.waterControl false)).2 = .ok ∧
    ∃ due, env.monotonicMs ≤ due ∧
      ∀ ticks : List Call, (∀ c ∈ ticks, c.op = .tick ∧ c.time ≤ due) →
        ∀ c : Call, c.op = .tick → c.time = due →
          DrivesClose serde ((appMachine serde).run
            (app.switchCommand env (.waterControl false)).1 ticks) c

theorem drivesClose_iff (app : App) {c : Call} (htick : c.op = .tick) :
    DrivesClose serde app c ↔
      ∃ s, app.valve.phase = .turningOff s ∧ Stage.InPulse app.valve.timing (c.time - s) := by
  obtain ⟨o, ho, hvalve⟩ := out_tick serde app htick
  rw [← WaterValve.tick_closeMotor_iff, ← hvalve]
  constructor
  · rintro ⟨o', ho', hclose⟩
    cases ho.symm.trans ho'
    exact hclose
  · intro hclose
    exact ⟨o, ho, hclose⟩

/-- Until a closing is over, ticks leave the valve in it. -/
theorem run_ticks_closing (app : App) (start due : Nat)
    (hphase : app.valve.phase = .turningOff start)
    (hdue : due - start < app.valve.timing.sequenceMs) {ticks : List Call}
    (hticks : ∀ c ∈ ticks, c.op = .tick ∧ c.time ≤ due) :
    ((appMachine serde).run app ticks).valve = app.valve := by
  generalize hv : app.valve = v at hphase hdue ⊢
  refine (appMachine serde).run_invariant (P := fun a => a.valve = v)
    (G := fun _ c => c.op = .tick ∧ c.time ≤ due) ?_ hv ?_
  · intro a c ⟨htick, hle⟩ ha
    have htime : c.time - start < v.timing.sequenceMs := by omega
    have hstay : (a.valve.tick c.time).1 = v := by
      rw [ha]
      exact WaterValve.tick_closing hphase htime
    have hbusy : v.isBusy = true := by simp [WaterValve.isBusy, hphase]
    rcases tick_valve (next_tick serde a htick) with hn | hn
    · exact hn.trans hstay
    · rw [hn]
      show (a.valve.tick c.time).1.turnOff c.time = v
      rw [hstay, (WaterValve.turn_of_isBusy hbusy _).2]
  · intro t ht
    exact hticks t.input ((appMachine serde).input_mem_of_mem_trace ht)

/-- An idle application that shows open recovers a settle window after the command. -/
theorem recovers_of_userState {app : App} (hidle : app.valve.phase = .idle)
    (huser : app.valve.userState = true) (hrun : app.valve.timing.motorRunSecs ≠ 0) :
    Recovers serde app := by
  intro env
  have hbusy : app.valve.isBusy = false := by simp [WaterValve.isBusy, hidle]
  have hclosing : app.valve.turn false env.monotonicMs =
      { app.valve with phase := .turningOff env.monotonicMs } := by
    simp [WaterValve.turn, WaterValve.turnOff, hidle, huser]
  have hpos : 0 < app.valve.timing.motorRunMs := by
    have hne : app.valve.timing.motorRunSecs.toNat ≠ 0 :=
      fun h => hrun (UInt32.toNat_inj.mp h)
    rw [ValveTiming.motorRunMs]
    omega
  rw [switchCommand_ok env false hbusy, hclosing]
  refine ⟨rfl, env.monotonicMs + settleMs, Nat.le_add_right _ _, ?_⟩
  intro ticks hticks c htick hc
  have hlt : env.monotonicMs + settleMs - env.monotonicMs < app.valve.timing.sequenceMs := by
    simp only [ValveTiming.sequenceMs]
    omega
  have hstay := run_ticks_closing serde
    { app with valve := { app.valve with phase := .turningOff env.monotonicMs } }
    env.monotonicMs (env.monotonicMs + settleMs) rfl hlt hticks
  rw [drivesClose_iff serde _ htick, hstay, hc]
  refine ⟨env.monotonicMs, rfl, ?_⟩
  simp only [Stage.InPulse]
  omega

/-- An idle application that recovers starts a closing, and has a pulse in it. -/
theorem userState_of_recovers {app : App} (hidle : app.valve.phase = .idle)
    (h : Recovers serde app) :
    app.valve.userState = true ∧ app.valve.timing.motorRunSecs ≠ 0 := by
  have hbusy : app.valve.isBusy = false := by simp [WaterValve.isBusy, hidle]
  obtain ⟨-, due, -, hdrives⟩ := h (.plain 0)
  have hlast := hdrives [] (fun c hc => absurd hc List.not_mem_nil) (.plain due .tick) rfl rfl
  rw [Machine.run_nil, drivesClose_iff serde _ rfl, switchCommand_ok _ false hbusy] at hlast
  obtain ⟨s, hs, hpulse⟩ := hlast
  constructor
  · rw [← Bool.not_eq_false]
    intro huser
    have hstays : app.valve.turn false (Env.plain 0).monotonicMs = app.valve :=
      WaterValve.turnOff_of_off huser _
    rw [hstays, hidle] at hs
    cases hs
  · intro hzero
    have hlt := hpulse.2
    rw [WaterValve.turn_timing, ValveTiming.motorRunMs, hzero] at hlt
    exact absurd hpulse.1 (Nat.not_le.mpr hlt)

/-- An idle application recovers if and only if it shows open and has a pulse. -/
theorem recovers_iff_of_idle {app : App} (hidle : app.valve.phase = .idle) :
    Recovers serde app ↔ app.valve.userState = true ∧ app.valve.timing.motorRunSecs ≠ 0 := by
  constructor
  · intro h
    exact userState_of_recovers serde hidle h
  · rintro ⟨huser, hrun⟩
    exact recovers_of_userState serde hidle huser hrun

end App

/-- **Power loss.**  In every life of a device whose writes succeed, a device that
has come through its earlier power losses outside openings comes through the next
one able to close the water if and only if, where its open motor was energised,
that one falls outside openings too, and the boot after it has a motor pulse. -/
theorem recovers_iff (serde : Serde (List AlarmEvent)) (config : Config) (nvs : NvsStore)
    (events : List LifeEvent) (hwritable : ∀ c, .call c ∈ events → c.env.Writable)
    (pre : List (Transition Device LifeEvent (Option Reply)))
    (t : Transition Device LifeEvent (Option Reply))
    (post : List (Transition Device LifeEvent (Option Reply))) (next : Config)
    (hsplit : (lifeMachine serde).trace (.boot serde config nvs) events = pre ++ t :: post)
    (hloss : t.input = .powerLoss next)
    (hearlier : ∀ u ∈ pre, ∀ cfg, u.input = .powerLoss cfg → ¬ u.before.CutsOpening) :
    (t.before.opened = true → t.after.app.Recovers serde) ↔
      (t.before.opened = true →
        ¬ t.before.CutsOpening ∧ next.switches.valveTiming.motorRunSecs ≠ 0) := by
  obtain ⟨events₁, event, events₂, rfl, rfl, rfl, -⟩ := (lifeMachine serde).trace_split hsplit
  cases hloss
  have hkept : Kept ((lifeMachine serde).run (.boot serde config nvs) events₁) := by
    refine .run serde config nvs ?_
    intro u hu
    have hin : u.input ∈ events₁ := (lifeMachine serde).input_mem_of_mem_trace hu
    cases hevent : u.input with
    | call c => exact hwritable c (List.mem_append_left _ (hevent ▸ hin))
    | powerLoss cfg => exact hearlier u hu cfg hevent
  generalize (lifeMachine serde).run (.boot serde config nvs) events₁ = d at hkept
  have hvalve := Kept.withNvs_valve serde next d.app.nvs
  rw [hkept.stored] at hvalve
  have hrecovers : App.Recovers serde (.withNvs serde next d.app.nvs) ↔
      d.app.valve.userState = true ∧ next.switches.valveTiming.motorRunSecs ≠ 0 := by
    rw [App.recovers_iff_of_idle serde (by rw [hvalve]), hvalve]
  refine forall_congr' fun hopened => hrecovers.trans (and_congr_left fun _ => ?_)
  constructor
  · rintro huser ⟨-, hopening⟩
    rw [hkept.coupled.userState_of_isOpening hopening] at huser
    cases huser
  · intro hcut
    exact (hkept.accounted hopened).resolve_left fun hopening => hcut ⟨hopened, hopening⟩

/-- A power loss behind a completed opening, of a device that then closes. -/
theorem recovers_after_opening :
    let calls : List Call := [.plain 0 (.switchCommand (.waterControl true)), .plain 1000 .tick,
      .plain 16000 .tick]
    let t := (lifeMachine (.fails _)).transition
      ((lifeMachine (.fails _)).run (.boot (.fails _) (Config.default {}) .blank)
        (calls.map .call)) (.powerLoss (Config.default {}))
    t.before.opened = true ∧ t.after.app.Recovers (.fails _) := by
  intro calls t
  have hopened : t.before.opened = true := by decide
  refine ⟨hopened, (recovers_iff (.fails _) (Config.default {}) .blank
    (calls.map .call ++ [.powerLoss (Config.default {})]) (fun c hc => ?_) _ t [] _
    ((lifeMachine _).trace_append _ _ _) rfl (fun u hu cfg hcfg => ?_)).mpr
    (fun _ => ⟨?_, by decide⟩) hopened⟩
  · simp only [calls, List.map_cons, List.map_nil, List.mem_append, List.mem_cons,
      List.not_mem_nil, or_false, LifeEvent.call.injEq, reduceCtorEq] at hc
    rcases hc with rfl | rfl | rfl <;> exact Env.writable_plain _
  · have hin : u.input ∈ calls.map .call := (lifeMachine (.fails _)).input_mem_of_mem_trace hu
    rw [hcfg] at hin
    obtain ⟨c, -, hc⟩ := List.mem_map.mp hin
    cases hc
  · rintro ⟨-, hopening⟩
    revert hopening
    decide

/-- A power loss in front of the end of an opening.  The open motor has run, and the
rebooted device takes the water for closed. -/
theorem lost_in_opening :
    let calls : List Call := [.plain 0 (.switchCommand (.waterControl true)), .plain 1000 .tick]
    let t := (lifeMachine (.fails _)).transition
      ((lifeMachine (.fails _)).run (.boot (.fails _) (Config.default {}) .blank)
        (calls.map .call)) (.powerLoss (Config.default {}))
    t.before.opened = true ∧ ¬ t.after.app.Recovers (.fails _) := by
  intro calls t
  refine ⟨by decide, fun h => ?_⟩
  have huser := ((App.recovers_iff_of_idle (.fails _) (by decide)).mp h).1
  revert huser
  decide

end WaterController
