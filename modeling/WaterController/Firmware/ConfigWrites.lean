import WaterController.Firmware.ConfigApi

/-!
# What a configuration write can do

The `PUT` routes and the console commands are one kind of thing, a `ConfigWrite`.
It checks a request, edits the configuration, saves it and installs it, and there
is one place in it where the WiFi supervisor may be told: in front of the save for
the WiFi section, behind it for the console, and none for the others.

`WriteStep` says all a write can do, and `perform_step` that every write does one
of these.  The results about writes are read off from there.

A write that fails should change nothing.  It does if and only if it is not a
write of the WiFi section that gets as far as the save with another network list
than the supervisor's (`failed_write_iff`).
-/

namespace WaterController

namespace Firmware

theorem app_nvs (fw : Firmware) : fw.app.nvs = some fw.nvs := (Option.some_get _).symm

@[simp] theorem withNvs_nvs (fw : Firmware) : fw.withNvs fw.nvs = fw := by
  obtain ⟨⟨config, valve, sprinkler1, sprinkler2, state, nvs, persisted, check, history,
    dispatched⟩, wifi, hasStore⟩ := fw
  cases nvs with
  | none => cases hasStore
  | some nvs => rfl

/-- A save that fails leaves the store alone. -/
theorem save_error {serde : Serde Config} {cfg : Config} {env : Env} {nvs : NvsStore}
    {e : ConfigError} (h : (cfg.save serde env nvs).2 = .error e) :
    (cfg.save serde env nvs).1 = nvs := by
  unfold Config.save at h ⊢
  cases hto : serde.toVec cfg with
  | error e => rfl
  | ok bytes =>
      rw [hto] at h
      cases hset : env.nvsSet Config.nvsKey with
      | error e => simp [NvsStore.set]
      | ok u =>
          rw [hset] at h
          cases h

/-- A save that succeeds stores the bytes of what it saves. -/
theorem save_ok {serde : Serde Config} {cfg : Config} {env : Env} {nvs : NvsStore}
    (h : (cfg.save serde env nvs).2 = .ok ()) :
    ∃ bytes, serde.toVec cfg = .ok bytes ∧
      (cfg.save serde env nvs).1 = nvs.set Config.nvsKey bytes (.ok ()) := by
  unfold Config.save at h ⊢
  cases hto : serde.toVec cfg with
  | error e =>
      rw [hto] at h
      cases h
  | ok bytes =>
      rw [hto] at h
      cases hset : env.nvsSet Config.nvsKey with
      | error e =>
          rw [hset] at h
          cases h
      | ok u => exact ⟨bytes, rfl, rfl⟩

end Firmware

/-! ## Writes -/

/-- A write of the configuration: a `PUT`, or a command of the console. -/
inductive ConfigWrite where
  | putConfig (req : Request)
  | putSection (s : Firmware.ConfigSection) (req : Request)
  | modifyNetworks (f : List WifiCreds → List WifiCreds)
  | setHttps (on : Bool)

namespace ConfigWrite

open Firmware (ConfigSection)

/-- The request of a write, unless it came from the console. -/
def request? : ConfigWrite → Option Request
  | .putConfig req | .putSection _ req => some req
  | .modifyNetworks _ | .setHttps _ => none

/-- A request shows the token and is not too large.  The console is not checked. -/
def admitted (w : ConfigWrite) (app : App) : Bool :=
  match w.request? with
  | some req => requireAuth app req && decide (req.body.length ≤ maxBody)
  | none => true

/-- What the supervisor is told in front of the save. -/
def notifyEarly : ConfigWrite → WifiSupervisor → Config → WifiSupervisor
  | .putSection .wifi _, w, cfg => w.connect cfg.wifi.networks
  | _, w, _ => w

/-- What the supervisor is told behind the installation. -/
def notifyLate : ConfigWrite → WifiSupervisor → Config → WifiSupervisor
  | .modifyNetworks _, w, cfg => w.connect cfg.wifi.networks
  | _, w, _ => w

section Codecs

variable (codecs : Codecs)

/-- The edit that the body of a request asks for. -/
def bodyEdit {α : Type} (serde : Serde α) (apply : Config → α → Config) (req : Request) :
    Option (Config → Config) :=
  match serde.fromSlice req.body with
  | .ok new => some fun cfg => apply cfg new
  | .error _ => none

theorem bodyEdit_ok {α : Type} {serde : Serde α} {req : Request} {new : α}
    (h : serde.fromSlice req.body = .ok new) (apply : Config → α → Config) :
    bodyEdit serde apply req = some fun cfg => apply cfg new := by
  simp only [bodyEdit, h]

/-- The edit of a body is that of what the body holds. -/
theorem of_bodyEdit {α : Type} {serde : Serde α} {apply : Config → α → Config} {req : Request}
    {edit : Config → Config} (h : bodyEdit serde apply req = some edit) :
    ∃ new, serde.fromSlice req.body = .ok new ∧ edit = fun cfg => apply cfg new := by
  cases hparse : serde.fromSlice req.body with
  | error e => simp [bodyEdit, hparse] at h
  | ok new =>
      rw [bodyEdit_ok hparse] at h
      exact ⟨new, rfl, (Option.some.inj h).symm⟩

/-- The edit that the body of a section asks for. -/
def sectionEdit : ConfigSection → Request → Option (Config → Config)
  | .wifi => bodyEdit codecs.wifi Firmware.applyWifi
  | .mqtt => bodyEdit codecs.mqtt Firmware.applyMqtt
  | .switches => bodyEdit codecs.switches fun cfg new => { cfg with switches := new }
  | .sensors => bodyEdit codecs.sensors Firmware.applySensors
  | .schedule => bodyEdit codecs.schedule fun cfg new => { cfg with schedule := new }
  | .https => bodyEdit codecs.https Firmware.applyHttps
  | .wireguard => bodyEdit codecs.wireguard Firmware.applyWireguard
  | .time => bodyEdit codecs.time Firmware.applyTime
  | .auth => bodyEdit codecs.auth Firmware.applyAuth
  | .flowAlarm => bodyEdit codecs.flowAlarm fun cfg new => { cfg with flowAlarm := new }
  | .webhooks =>
      bodyEdit codecs.webhooks fun cfg new => { cfg with webhooks := new.take webhooksMax }

/-- The edit a write asks for, if its body can be read. -/
def edit? : ConfigWrite → Option (Config → Config)
  | .putConfig req => bodyEdit codecs.config Config.mergePreservingSecrets req
  | .putSection s req => sectionEdit codecs s req
  | .modifyNetworks f => some fun cfg => { cfg with wifi.networks := f cfg.wifi.networks }
  | .setHttps on => some fun cfg => { cfg with https.enabled := on }

/-- The configuration a write computes from one it has read. -/
def apply (w : ConfigWrite) (base : Config) : Config :=
  match w.edit? codecs with
  | some edit => edit base
  | none => base

/-- The device after a write. -/
def perform (env : Env) (fw : Firmware) : ConfigWrite → Firmware
  | .putConfig req => (fw.putConfig codecs env req).1
  | .putSection s req => (Firmware.putSection codecs s env fw req).1
  | .modifyNetworks f => fw.modifyNetworks codecs f env
  | .setHttps on => fw.setHttps codecs on env

/-- The console reports a failed save, and a handler answers with a status. -/
def succeeds (env : Env) (fw : Firmware) : ConfigWrite → Bool
  | .putConfig req => (fw.putConfig codecs env req).2.status == 204
  | .putSection s req => (Firmware.putSection codecs s env fw req).2.status == 204
  | .modifyNetworks f =>
      ({ fw.app.config with wifi.networks := f fw.app.config.wifi.networks }.save
        codecs.config env fw.nvs).2.isOk
  | .setHttps on =>
      ({ fw.app.config with https.enabled := on }.save codecs.config env fw.nvs).2.isOk

end Codecs

end ConfigWrite

/-! ## What a write can do -/

namespace Firmware

variable (codecs : Codecs)

/-- A device that has saved a configuration, and has it installed. -/
def installed (env : Env) (fw : Firmware) (cfg : Config) (wifi : WifiSupervisor) : Firmware :=
  { (fw.withNvs (cfg.save codecs.config env fw.nvs).1).replaceConfig env cfg with wifi := wifi }

/-- Everything a write can do: whether it succeeds, and the device behind it. -/
inductive WriteStep (admitted : Bool) (edit? : Option (Config → Config))
    (early late : WifiSupervisor → Config → WifiSupervisor) (env : Env) (fw : Firmware) :
    Bool → Firmware → Prop where
  | refused : (admitted = true → edit? = none) →
      WriteStep admitted edit? early late env fw false fw
  | unsaved (edit : Config → Config) (e : ConfigError) : admitted = true → edit? = some edit →
      ((edit fw.app.config).save codecs.config env fw.nvs).2 = .error e →
      WriteStep admitted edit? early late env fw false
        { fw with wifi := early fw.wifi (edit fw.app.config) }
  | written (edit : Config → Config) : admitted = true → edit? = some edit →
      ((edit fw.app.config).save codecs.config env fw.nvs).2 = .ok () →
      WriteStep admitted edit? early late env fw true
        (fw.installed codecs env (edit fw.app.config)
          (late (early fw.wifi (edit fw.app.config)) (edit fw.app.config)))

theorem handlePut_writeStep {α : Type} (serde : Serde α) (apply : Config → α → Config)
    (notify : WifiSupervisor → Config → WifiSupervisor) (env : Env) (fw : Firmware)
    (req : Request) :
    WriteStep codecs (requireAuth fw.app req && decide (req.body.length ≤ maxBody))
      (ConfigWrite.bodyEdit serde apply req) notify (fun w _ => w) env fw
      ((handlePut codecs serde apply notify env fw req).2.status == 204)
      (handlePut codecs serde apply notify env fw req).1 := by
  rw [handlePut]
  split
  · rename_i hauth
    exact .refused fun h => by simp_all
  split
  · rename_i hlarge
    exact .refused fun h => by simp only [Bool.and_eq_true, decide_eq_true_eq] at h; omega
  rename_i hauth hfits
  have hadmitted : (requireAuth fw.app req && decide (req.body.length ≤ maxBody)) = true := by
    simp only [Bool.not_eq_true', Bool.not_eq_false] at hauth
    simp only [hauth, Bool.true_and, decide_eq_true_eq]
    exact Nat.le_of_not_lt hfits
  cases hparse : serde.fromSlice req.body with
  | error e => exact .refused fun _ => by simp [ConfigWrite.bodyEdit, hparse]
  | ok new =>
      have hedit := ConfigWrite.bodyEdit_ok hparse apply
      dsimp only
      cases hsave : ((apply fw.app.config new).save codecs.config env fw.nvs).2 with
      | error e =>
          simp only [save_error hsave, withNvs_nvs]
          exact .unsaved _ e hadmitted hedit hsave
      | ok u => exact .written _ hadmitted hedit hsave

theorem editConfig_writeStep (edit : Config → Config)
    (notify : WifiSupervisor → Config → WifiSupervisor) (env : Env) (fw : Firmware) :
    WriteStep codecs true (some edit) (fun w _ => w) notify env fw
      ((edit fw.app.config).save codecs.config env fw.nvs).2.isOk
      (fw.editConfig codecs edit notify env) := by
  rw [editConfig]
  dsimp only
  cases hsave : ((edit fw.app.config).save codecs.config env fw.nvs).2 with
  | error e =>
      simp only [save_error hsave, withNvs_nvs]
      exact .unsaved edit e rfl rfl hsave
  | ok u => exact .written edit rfl rfl hsave

end Firmware

namespace ConfigWrite

open Firmware (WriteStep handlePut_writeStep editConfig_writeStep)

variable (codecs : Codecs)

/-- Every write is one of the steps. -/
theorem perform_step (w : ConfigWrite) (env : Env) (fw : Firmware) :
    WriteStep codecs (w.admitted fw.app) (w.edit? codecs) w.notifyEarly w.notifyLate env fw
      (w.succeeds codecs env fw) (w.perform codecs env fw) := by
  cases w with
  | putConfig req => exact handlePut_writeStep codecs _ _ _ env fw req
  | putSection s req => cases s <;> exact handlePut_writeStep codecs _ _ _ env fw req
  | modifyNetworks f => exact editConfig_writeStep codecs _ _ env fw
  | setHttps on => exact editConfig_writeStep codecs _ _ env fw

/-- A write that succeeds has saved and installed what it computed. -/
theorem perform_of_succeeds {codecs : Codecs} {env : Env} {fw : Firmware}
    {w : ConfigWrite} (h : w.succeeds codecs env fw = true) :
    (w.perform codecs env fw).app.config = w.apply codecs fw.app.config ∧
      (w.perform codecs env fw).nvs =
        ((w.apply codecs fw.app.config).save codecs.config env fw.nvs).1 ∧
      ((w.apply codecs fw.app.config).save codecs.config env fw.nvs).2 = .ok () := by
  have hstep := w.perform_step codecs env fw
  rw [h] at hstep
  generalize w.perform codecs env fw = fw' at hstep
  cases hstep with
  | written edit hadmitted hedit hsave =>
      have happly : w.apply codecs fw.app.config = edit fw.app.config := by
        simp only [apply, hedit]
      rw [happly]
      exact ⟨rfl, rfl, hsave⟩

/-! ## Failed writes -/

/-- The write is of the WiFi section, its request passes the checks, and the network
list it brings is another than the supervisor's. -/
def Announces (fw : Firmware) (w : ConfigWrite) : Prop :=
  ∃ req new, w = .putSection .wifi req ∧ w.admitted fw.app = true ∧
    codecs.wifi.fromSlice req.body = .ok new ∧
    new.networks.map (Config.restorePassword fw.app.config.wifi.networks) ≠ fw.wifi.networks

end ConfigWrite

/-- A list that differs is taken over. -/
theorem WifiSupervisor.connect_eq_self {w : WifiSupervisor} {networks : List WifiCreds} :
    w.connect networks = w ↔ networks = w.networks := by
  obtain ⟨own, signal⟩ := w
  rw [connect]
  split
  · rename_i hsame
    simp [← hsame]
  · rename_i hother
    simp only [mk.injEq]
    constructor
    · intro h
      exact h.1
    · intro h
      exact absurd h.symm hother

namespace ConfigWrite

variable (codecs : Codecs)

theorem notifyEarly_of_not_wifi {w : ConfigWrite} (h : ∀ req, w ≠ .putSection .wifi req)
    (sup : WifiSupervisor) (cfg : Config) : w.notifyEarly sup cfg = sup := by
  cases w with
  | putSection s req =>
      cases s with
      | wifi => exact absurd rfl (h req)
      | mqtt | switches | sensors | schedule | https | wireguard | time | auth | flowAlarm
      | webhooks => rfl
  | putConfig req | modifyNetworks f | setHttps on => rfl

/-- **Failed writes.**  A write that fails leaves the application as it was, its
configuration, its store and its timings with it.  It leaves the supervisor as it was,
and so the whole device, if and only if it is not a write of the WiFi section that
passes the checks with another network list than the supervisor's. -/
theorem failed_write_iff (env : Env) (fw : Firmware) (w : ConfigWrite)
    (hfails : w.succeeds codecs env fw = false) :
    (w.perform codecs env fw).app = fw.app ∧ (w.perform codecs env fw).wifi = fw.wifi ↔
      ¬ w.Announces codecs fw := by
  have hstep := w.perform_step codecs env fw
  rw [hfails] at hstep
  generalize w.perform codecs env fw = fw' at hstep
  cases hstep with
  | refused hnone =>
      refine iff_of_true ⟨rfl, rfl⟩ ?_
      rintro ⟨req, new, rfl, hadmitted, hparse, -⟩
      have hedit := hnone hadmitted
      cases hedit.symm.trans (bodyEdit_ok hparse Firmware.applyWifi)
  | unsaved edit e hadmitted hedit hsave =>
      simp only [true_and]
      by_cases hwifi : ∃ req, w = .putSection .wifi req
      · obtain ⟨req, rfl⟩ := hwifi
        obtain ⟨new, hparse, rfl⟩ := of_bodyEdit hedit
        simp only [notifyEarly, Firmware.applyWifi, WifiSupervisor.connect_eq_self]
        constructor
        · rintro hsame ⟨req', new', heq, -, hparse', hother⟩
          cases heq
          cases hparse.symm.trans hparse'
          exact hother hsame
        · intro hnot
          by_contra hother
          exact hnot ⟨req, new, rfl, hadmitted, hparse, hother⟩
      · refine iff_of_true (notifyEarly_of_not_wifi (fun req h => hwifi ⟨req, h⟩) _ _) ?_
        rintro ⟨req, -, rfl, -⟩
        exact hwifi ⟨req, rfl⟩

/-- A body that brings one network, and what it is read as. -/
def wifiBody : Bytes :=
  asciiBytes "\x7b\"networks\":[\x7b\"ssid\":\"home\",\"password\":\"secret\"\x7d]\x7d"

def oneNetwork : WifiConfig := { WifiConfig.default {} with networks := [⟨"home", "secret"⟩] }

/-- Codecs that read the one body, and can store the configuration it makes of the
defaults. -/
def wifiCodecs : Codecs :=
  { Codecs.fails with
    config := .single { Config.default {} with wifi := oneNetwork } wifiBody
    wifi := .single oneNetwork wifiBody }

/-- An environment whose store is full. -/
def fullEnv : Env := { Env.plain 0 with nvsSet := fun _ => .error .full }

/-- A request without the token changes nothing. -/
theorem failed_write_unauthorized :
    let fw := Firmware.ofConfig wifiCodecs { Config.default {} with adminToken := "token" }
    let w : ConfigWrite := .putSection .wifi { body := wifiBody }
    w.succeeds wifiCodecs (.plain 0) fw = false ∧
      (w.perform wifiCodecs (.plain 0) fw).app = fw.app ∧
      (w.perform wifiCodecs (.plain 0) fw).wifi = fw.wifi := by
  intro fw w
  refine ⟨rfl, (failed_write_iff wifiCodecs (.plain 0) fw w rfl).mpr ?_⟩
  rintro ⟨req, new, heq, hadmitted, -⟩
  cases hadmitted

/-- A list of networks that cannot be saved is taken over by the supervisor. -/
theorem failed_write_connects :
    let fw := Firmware.ofConfig wifiCodecs (Config.default {})
    let w : ConfigWrite := .putSection .wifi { body := wifiBody }
    w.succeeds wifiCodecs fullEnv fw = false ∧
      (w.perform wifiCodecs fullEnv fw).app.config.wifi.networks = [] ∧
      (w.perform wifiCodecs fullEnv fw).wifi.networks = [⟨"home", "secret"⟩] := by
  intro fw w
  decide +kernel

end ConfigWrite

end WaterController
