import WaterController.App.ValvePersistence
import WaterController.Firmware.ConfigApi

/-!
# What a factory reset leaves behind

The reset erases the configuration.  The valve state and the alarm history have
keys of their own in the store, which the reset does not know.  The next boot
restores both.

So the device is fresh after a reset exactly when neither key has anything to
restore (`fresh_after_reset_iff`).  A tick whose write succeeds is enough to end
that (`not_fresh_of_tick`).
-/

namespace WaterController

open Machines (Machine Transition)

namespace App

variable (serde : Serde (List AlarmEvent))

/-- The valve state of a store, by its bytes. -/
theorem storedValveState_eq_none {nvs : NvsStore} :
    storedValveState (some nvs) = none ↔ ∀ b, nvs.get nvsValveState = some b → b = [] := by
  rw [storedValveState, Option.bind_some]
  cases hget : nvs.get nvsValveState with
  | none => simp
  | some b => cases b <;> simp

/-- The alarm history of a boot, by the bytes of its store. -/
theorem alarmHistory_withNvs_eq_nil (config : Config) {nvs : NvsStore} :
    (withNvs serde config (some nvs)).alarmHistory = [] ↔
      ∀ b, nvs.get nvsAlarmHistory = some b → ∀ v, serde.fromSlice b = .ok v → v = [] := by
  simp only [withNvs, Option.bind_some]
  cases hget : nvs.get nvsAlarmHistory with
  | none => simp
  | some b =>
      cases hread : serde.fromSlice b with
      | error e => simp [hread]
      | ok v => simp [hread, alarmHistoryCap]

/-- A boot reads the two keys of its store and nothing else of it. -/
theorem withNvs_congr (config : Config) {nvs nvs' : NvsStore}
    (hvalve : storedValveState (some nvs) = storedValveState (some nvs'))
    (hhistory : (withNvs serde config (some nvs)).alarmHistory =
      (withNvs serde config (some nvs')).alarmHistory) :
    { withNvs serde config (some nvs) with nvs := some nvs' } =
      withNvs serde config (some nvs') := by
  simp only [withNvs] at hhistory
  simp only [withNvs, hvalve, hhistory]

end App

/-! ## The boot after a reset -/

/-- A boot with the stored configuration, on the same store. -/
def rebooted (codecs : Codecs) (build : BuildEnv) (nvs : NvsStore) : Except ConfigError App :=
  (Config.load build codecs.config nvs).map fun cfg =>
    App.withNvs codecs.alarmHistory cfg (some nvs)

/-- A boot gives the application of an empty store, the contents of the store apart. -/
def FreshBoot (codecs : Codecs) (build : BuildEnv) (nvs : NvsStore) : Prop :=
  ∃ app, rebooted codecs build nvs = .ok app ∧
    { app with nvs := some .blank } =
      App.withNvs codecs.alarmHistory (.default build) (some .blank)

section Reset

variable {codecs : Codecs} {build : BuildEnv}

/-- A fresh device has the defaults, restores nothing and shows the water off. -/
theorem FreshBoot.app {nvs : NvsStore} (h : FreshBoot codecs build nvs) :
    ∃ app, rebooted codecs build nvs = .ok app ∧ app.config = .default build ∧
      app.lastPersistedValve = none ∧ app.valve.userState = false ∧ app.alarmHistory = [] := by
  obtain ⟨app, hboot, hsame⟩ := h
  exact ⟨app, hboot, congrArg App.config hsame, congrArg App.lastPersistedValve hsame,
    congrArg (·.valve.userState) hsame, congrArg App.alarmHistory hsame⟩

/-- A reset that succeeds leaves the two other keys to the next boot. -/
theorem freshBoot_factoryReset_iff {env : Env} {nvs : NvsStore}
    (hreset : (Config.factoryReset env nvs).2 = .ok ()) :
    FreshBoot codecs build (Config.factoryReset env nvs).1 ↔
      (∀ b, nvs.get App.nvsValveState = some b → b = []) ∧
        ∀ b, nvs.get App.nvsAlarmHistory = some b →
          ∀ v, codecs.alarmHistory.fromSlice b = .ok v → v = [] := by
  have hok : env.nvsSet Config.nvsKey = .ok () := by
    simp only [Config.factoryReset] at hreset
    cases hset : env.nvsSet Config.nvsKey with
    | ok u => rfl
    | error e =>
        rw [hset] at hreset
        cases hreset
  have hload : (Config.factoryReset env nvs).1.get Config.nvsKey = none := by
    rw [Config.factoryReset, hok]
    exact nvs.get_remove_ok _
  have hvalve : (Config.factoryReset env nvs).1.get App.nvsValveState =
      nvs.get App.nvsValveState := nvs.get_remove_ne (by decide) _
  have hhistory : (Config.factoryReset env nvs).1.get App.nvsAlarmHistory =
      nvs.get App.nvsAlarmHistory := nvs.get_remove_ne (by decide) _
  generalize (Config.factoryReset env nvs).1 = erased at hload hvalve hhistory ⊢
  have hboot : rebooted codecs build erased =
      .ok (App.withNvs codecs.alarmHistory (.default build) (some erased)) := by
    rw [rebooted, Config.load, hload]
    rfl
  rw [← hvalve, ← hhistory, ← App.storedValveState_eq_none,
    ← App.alarmHistory_withNvs_eq_nil codecs.alarmHistory (.default build)]
  constructor
  · rintro ⟨app, happ, hsame⟩
    cases hboot.symm.trans happ
    exact ⟨congrArg App.lastPersistedValve hsame, congrArg App.alarmHistory hsame⟩
  · rintro ⟨hnone, hnil⟩
    exact ⟨_, hboot, App.withNvs_congr codecs.alarmHistory _ hnone hnil⟩

/-- In every run of a device, from any boot, a factory reset that succeeds is followed
by the boot of a fresh device if and only if the store has no valve state and no alarm
history to restore. -/
theorem fresh_after_reset_iff (codecs : Codecs) (build : BuildEnv) (certgen : Firmware.CertGen)
    (fw : Firmware) (events : List FirmwareEvent) (env : Env)
    (hreset : (Config.factoryReset env
      ((firmwareMachine codecs build certgen).run fw events).nvs).2 = .ok ()) :
    let nvs := ((firmwareMachine codecs build certgen).run fw events).nvs
    FreshBoot codecs build (Config.factoryReset env nvs).1 ↔
      (∀ b, nvs.get App.nvsValveState = some b → b = []) ∧
        ∀ b, nvs.get App.nvsAlarmHistory = some b →
          ∀ v, codecs.alarmHistory.fromSlice b = .ok v → v = [] :=
  freshBoot_factoryReset_iff hreset

/-- A device that has ticked with a write that succeeds is not fresh after a reset. -/
theorem not_fresh_of_tick {app app' : App} {c : Call} (htick : c.op = .tick)
    (hsync : app.Synced) (hwrite : c.env.Writable) {nvs : NvsStore}
    (hstore : app.nvs.isSome = true)
    (hnext : (appMachine codecs.alarmHistory).next app c = app') (hnvs : app'.nvs = some nvs)
    {env : Env} (hreset : (Config.factoryReset env nvs).2 = .ok ()) :
    ¬ FreshBoot codecs build (Config.factoryReset env nvs).1 := by
  rw [freshBoot_factoryReset_iff hreset, ← App.storedValveState_eq_none]
  rintro ⟨hnone, -⟩
  have hstored := (App.next_tick codecs.alarmHistory app htick).stored hsync hstore hwrite
  rw [hnext, hnvs, hnone] at hstored
  cases hstored

end Reset

/-- The water is opened on a device out of the box. -/
def opening : List FirmwareEvent :=
  [.call (.plain 0 (.switchCommand (.waterControl true))) rfl, .call (.plain 0 .tick) rfl,
    .call (.plain 16000 .tick) rfl]

/-- The defaults without HTTPS, and codecs that can store them. -/
def httpsOff : Config := { Config.default {} with https := { enabled := false } }

def httpsOffCodecs : Codecs :=
  { Codecs.fails with config := .single httpsOff (asciiBytes "the defaults without HTTPS") }

/-- A device that has never ticked is fresh after a reset, with the configuration that was saved
gone. -/
theorem fresh_after_reset_boot :
    let fw := (firmwareMachine httpsOffCodecs {} Firmware.noCerts).run
      (.ofConfig httpsOffCodecs (Config.default {})) [.setHttps false (.plain 0)]
    fw.app.config = httpsOff ∧ (fw.nvs.get Config.nvsKey).isSome = true ∧
      FreshBoot httpsOffCodecs {} (Config.factoryReset (.plain 0) fw.nvs).1 := by
  intro fw
  have hvalve : fw.nvs.get App.nvsValveState = none := by decide +kernel
  have hhistory : fw.nvs.get App.nvsAlarmHistory = none := by decide +kernel
  refine ⟨by decide +kernel, by decide +kernel, (fresh_after_reset_iff httpsOffCodecs {}
    Firmware.noCerts (.ofConfig httpsOffCodecs (Config.default {})) [.setHttps false (.plain 0)]
    (.plain 0) rfl).mpr ⟨fun b hb => ?_, fun b hb => ?_⟩⟩
  · cases hvalve.symm.trans hb
  · cases hhistory.symm.trans hb

/-- After a reset the device comes up with the water shown open. -/
theorem open_after_reset :
    let nvs := ((firmwareMachine .fails {} Firmware.noCerts).run
      (.ofConfig .fails (Config.default {})) opening).nvs
    (Config.factoryReset (.plain 20000) nvs).2 = .ok () ∧
      ¬ FreshBoot .fails {} (Config.factoryReset (.plain 20000) nvs).1 := by
  refine ⟨rfl, fun hfresh => ?_⟩
  obtain ⟨app, hboot, -, -, hoff, -⟩ := hfresh.app
  have hopen : ((rebooted .fails {} (Config.factoryReset (.plain 20000)
      ((firmwareMachine .fails {} Firmware.noCerts).run
        (.ofConfig .fails (Config.default {})) opening).nvs).1).map
      fun app => app.valve.userState) = .ok true := by
    decide
  rw [hboot] at hopen
  exact absurd (hoff.symm.trans (Except.ok.inj hopen)) Bool.false_ne_true

end WaterController
