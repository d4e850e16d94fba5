import WaterController.Firmware.Sections

/-!
# The host build

The host build serves the routes of the firmware to tests and to a browser on the
desk.  Its application has no store, its WiFi is a fake whose `connect` does nothing,
and it checks no token.  What a section edits is what it edits on the device.

A body that the extractor cannot read is rejected in front of the handler.
-/

namespace WaterController

open Machines (Machine)

namespace Host

open Firmware (ConfigSection applyWifi applyMqtt applySensors applyHttps applyWireguard applyTime
  applyAuth)

/-- How a handler of the configuration answers. -/
inductive Answer where
  | noContent
  | rejected
deriving DecidableEq, Repr

variable (codecs : Codecs)

/-- Answer the `PUT` of a value: compute the configuration and install it. -/
def handlePut {α : Type} (serde : Serde α) (apply : Config → α → Config) (section_ : String)
    (env : Env) (app : App) (body : Bytes) : App × Answer :=
  match serde.fromSlice body with
  | .error _ => (app, .rejected)
  | .ok new => (app.replaceConfigSection env (apply app.config new) section_, .noContent)

/-- `PUT /api/config`. -/
def putConfig : Env → App → Bytes → App × Answer :=
  handlePut codecs.config Config.mergePreservingSecrets "all"

/-- `PUT /api/config/<section>`. -/
def putSection : ConfigSection → Env → App → Bytes → App × Answer
  | .wifi => handlePut codecs.wifi applyWifi "all"
  | .mqtt => handlePut codecs.mqtt applyMqtt "all"
  | .switches => handlePut codecs.switches (fun cfg new => { cfg with switches := new }) "all"
  | .sensors => handlePut codecs.sensors applySensors "all"
  | .schedule => handlePut codecs.schedule (fun cfg new => { cfg with schedule := new }) "all"
  | .https => handlePut codecs.https applyHttps "all"
  | .wireguard => handlePut codecs.wireguard applyWireguard "all"
  | .time => handlePut codecs.time applyTime "all"
  | .auth => handlePut codecs.auth applyAuth "all"
  | .flowAlarm => handlePut codecs.flowAlarm (fun cfg new => { cfg with flowAlarm := new }) "all"
  | .webhooks =>
      handlePut codecs.webhooks (fun cfg new => { cfg with webhooks := new.take webhooksMax })
        "webhooks"

/-- `App::new` with the defaults. -/
def boot (build : BuildEnv) : App := .new codecs.alarmHistory (.default build)

/-! ## The machine -/

/-- What happens to the host build.  A restart forgets everything. -/
inductive HostEvent where
  | call (c : Call) (h : c.op.installs = false)
  | putConfig (env : Env) (body : Bytes)
  | putSection (s : ConfigSection) (env : Env) (body : Bytes)
  | restart

/-- The host build. -/
def hostMachine (build : BuildEnv) : Machine App HostEvent (Option Answer) where
  step app
    | .call c _ => ((appMachine codecs.alarmHistory).next app c, none)
    | .putConfig env body =>
        let r := putConfig codecs env app body
        (r.1, some r.2)
    | .putSection s env body =>
        let r := putSection codecs s env app body
        (r.1, some r.2)
    | .restart => (boot codecs build, none)

/-! ## What a write does -/

theorem config_handlePut {α : Type} {serde : Serde α} {apply : Config → α → Config}
    {section_ : String} {env : Env} {app : App} {body : Bytes} {new : α}
    (hparse : serde.fromSlice body = .ok new) :
    (handlePut serde apply section_ env app body).1.config = apply app.config new := by
  simp only [handlePut, hparse]
  rfl

/-- A body that cannot be read changes nothing. -/
theorem handlePut_rejected {α : Type} {serde : Serde α} {apply : Config → α → Config}
    {section_ : String} {env : Env} {app : App} {body : Bytes} {e : String}
    (hparse : serde.fromSlice body = .error e) :
    (handlePut serde apply section_ env app body).1 = app := by
  simp only [handlePut, hparse]

theorem putSection_rejected {env : Env} {app : App} {s : ConfigSection} {body : Bytes}
    {e : String} (hparse : (s.serde codecs).fromSlice body = .error e) :
    (putSection codecs s env app body).1 = app := by
  cases s <;> exact handlePut_rejected hparse

/-- The configuration behind a `PUT` of a section. -/
theorem config_putSection {env : Env} {app : App} {s : ConfigSection} {body : Bytes}
    {new : s.Value} (hparse : (s.serde codecs).fromSlice body = .ok new) :
    (putSection codecs s env app body).1.config = s.apply app.config new := by
  cases s <;> exact config_handlePut hparse

/-- The configuration behind a `PUT` of all of it. -/
theorem config_putConfig {env : Env} {app : App} {body : Bytes} {new : Config}
    (hparse : codecs.config.fromSlice body = .ok new) :
    (putConfig codecs env app body).1.config = app.config.mergePreservingSecrets new :=
  config_handlePut hparse

end Host

/-! ## Sections and the whole -/

/-- **Sections.**  A successful `PUT` of a section, the webhooks apart, applies what was sent.
It makes of the section what a `PUT` of the whole redacted configuration with the section
replaced makes of it, and leaves every other section as it was.  So it is on the device and on
the host. -/
theorem section_put_agrees (codecs : Codecs) (s : Firmware.ConfigSection) (new : s.Value)
    (hs : s ≠ .webhooks) :
    (∀ (env env' : Env) (fw : Firmware) (req req' : Request),
      (s.serde codecs).fromSlice req.body = .ok new →
      codecs.config.fromSlice req'.body = .ok (s.put new fw.app.config.redactSecretsForApi) →
      (ConfigWrite.putSection s req).succeeds codecs env fw = true →
      (ConfigWrite.putConfig req').succeeds codecs env' fw = true →
      ((ConfigWrite.putSection s req).perform codecs env fw).app.config =
          s.apply fw.app.config new ∧
        s.read ((ConfigWrite.putSection s req).perform codecs env fw).app.config =
          s.read ((ConfigWrite.putConfig req').perform codecs env' fw).app.config ∧
        ∀ s', s' ≠ s → s'.read ((ConfigWrite.putSection s req).perform codecs env fw).app.config =
          s'.read fw.app.config) ∧
    (∀ (env env' : Env) (app : App) (body body' : Bytes),
      (s.serde codecs).fromSlice body = .ok new →
      codecs.config.fromSlice body' = .ok (s.put new app.config.redactSecretsForApi) →
      (Host.putSection codecs s env app body).1.config = s.apply app.config new ∧
        s.read (Host.putSection codecs s env app body).1.config =
          s.read (Host.putConfig codecs env' app body').1.config ∧
        ∀ s', s' ≠ s → s'.read (Host.putSection codecs s env app body).1.config =
          s'.read app.config) := by
  constructor
  · intro env env' fw req req' hparse hparse' hok hok'
    rw [ConfigWrite.config_putSection hparse hok, ConfigWrite.config_putConfig hparse' hok']
    exact ⟨rfl, Firmware.ConfigSection.read_apply hs _ _, fun s' hne =>
      Firmware.ConfigSection.read_apply_of_ne hne _ _⟩
  · intro env env' app body body' hparse hparse'
    rw [Host.config_putSection codecs hparse, Host.config_putConfig codecs hparse']
    exact ⟨rfl, Firmware.ConfigSection.read_apply hs _ _, fun s' hne =>
      Firmware.ConfigSection.read_apply_of_ne hne _ _⟩

/-- A device with a token, and codecs that read a blank token and the defaults. -/
def tokenConfig : Config := { Config.default {} with adminToken := "token" }

def blankTokenBody : Bytes := asciiBytes "\x7b\"admin_token\":\"\"\x7d"

def defaultsBody : Bytes := asciiBytes "\x7b\x7d"

def tokenCodecs : Codecs :=
  { Codecs.fails with
    config := .table [(.default {}, defaultsBody),
      (tokenConfig, asciiBytes "the defaults, and the token")]
    auth := .single ⟨""⟩ blankTokenBody }

/-- A blank token keeps the stored one, sent on its own or with everything. -/
theorem section_put_agrees_token :
    let fw := Firmware.ofConfig tokenCodecs tokenConfig
    let w : ConfigWrite := .putSection .auth ⟨some "Bearer token", blankTokenBody⟩
    let w' : ConfigWrite := .putConfig ⟨some "Bearer token", defaultsBody⟩
    Firmware.ConfigSection.auth.read (w.perform tokenCodecs (.plain 0) fw).app.config =
        Firmware.ConfigSection.auth.read (w'.perform tokenCodecs (.plain 0) fw).app.config ∧
      Firmware.ConfigSection.auth.read
          (Host.putSection tokenCodecs .auth (.plain 0) fw.app blankTokenBody).1.config =
        Firmware.ConfigSection.auth.read
          (Host.putConfig tokenCodecs (.plain 0) fw.app defaultsBody).1.config := by
  intro fw w w'
  have hagrees := section_put_agrees tokenCodecs .auth ⟨""⟩ (by decide)
  have hparse' : tokenCodecs.config.fromSlice defaultsBody =
      .ok (Firmware.ConfigSection.put .auth ⟨""⟩ tokenConfig.redactSecretsForApi) := by
    decide +kernel
  constructor
  · exact (hagrees.1 (.plain 0) (.plain 0) fw ⟨some "Bearer token", blankTokenBody⟩
      ⟨some "Bearer token", defaultsBody⟩ rfl hparse' (by decide +kernel) (by decide +kernel)).2.1
  · exact (hagrees.2 (.plain 0) (.plain 0) fw.app blankTokenBody defaultsBody rfl hparse').2.1

end WaterController
