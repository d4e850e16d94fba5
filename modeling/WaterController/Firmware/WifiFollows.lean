import WaterController.Firmware.ConfigWrites

/-!
# The WiFi supervisor and the configuration

The supervisor has a list of networks of its own.  It starts with the configured
one, and from then on each write has to pass its list on.  The writes of the WiFi
section and of the console do.  A write of the whole configuration does not
(`Passes`).

So the lists agree behind every write of a run if and only if every `PUT` of the
whole configuration brings the networks that are in force (`follows_iff`).
-/

namespace WaterController

open Machines (Machine Transition)

/-! ## The supervisor -/

namespace WifiSupervisor

/-- Start over even with the list it has. -/
def reconnect (w : WifiSupervisor) : WifiSupervisor := { w with rescanSignal := true }

/-- The head of the supervisor's loop: it lowers the flag and tries its list. -/
def startOver (w : WifiSupervisor) : WifiSupervisor := { w with rescanSignal := false }

@[simp] theorem connect_networks (w : WifiSupervisor) (networks : List WifiCreds) :
    (w.connect networks).networks = networks := by
  rw [connect]
  split
  · assumption
  · rfl

theorem connect_rescanSignal {w : WifiSupervisor} {networks : List WifiCreds}
    (h : networks ≠ w.networks) : (w.connect networks).rescanSignal = true := by
  rw [connect, if_neg h.symm]

end WifiSupervisor

/-! ## Runs of writes -/

/-- What happens to a device between two boots, as far as the supervisor is concerned. -/
inductive SupervisedStep where
  | write (env : Env) (w : ConfigWrite)
  | call (c : Call) (h : c.op.installs = false)
  | reconnect
  | startOver

namespace Firmware

theorem hasStore_call (codecs : Codecs) (fw : Firmware) (c : Call) :
    ((appMachine codecs.alarmHistory).next fw.app c).nvs.isSome = true :=
  (App.hasStore_next _ fw.app c).trans fw.hasStore

/-- A device whose application does one call. -/
def call (codecs : Codecs) (fw : Firmware) (c : Call) : Firmware :=
  { fw with
    app := (appMachine codecs.alarmHistory).next fw.app c
    hasStore := hasStore_call codecs fw c }

end Firmware

/-- A device whose writes are answered.  The output of a write says that it succeeded. -/
def supervisedMachine (codecs : Codecs) : Machine Firmware SupervisedStep Bool where
  step fw
    | .write env w => (w.perform codecs env fw, w.succeeds codecs env fw)
    | .call c _ => (fw.call codecs c, true)
    | .reconnect => ({ fw with wifi := fw.wifi.reconnect }, true)
    | .startOver => ({ fw with wifi := fw.wifi.startOver }, true)

namespace Firmware

/-- The networks the configuration names. -/
def networks (fw : Firmware) : List WifiCreds := fw.app.config.wifi.networks

/-- The supervisor has the configured networks. -/
def Follows (fw : Firmware) : Prop := fw.wifi.networks = fw.networks

/-- The supervisor has the configured networks, and has been told to start over if
they are new. -/
def FollowsFrom (fw fw' : Firmware) : Prop :=
  fw'.Follows ∧ (fw'.networks ≠ fw.networks → fw'.wifi.rescanSignal = true)

variable (codecs : Codecs)

@[simp] theorem networks_installed (env : Env) (fw : Firmware) (cfg : Config)
    (wifi : WifiSupervisor) : (fw.installed codecs env cfg wifi).networks = cfg.wifi.networks := rfl

@[simp] theorem wifi_installed (env : Env) (fw : Firmware) (cfg : Config)
    (wifi : WifiSupervisor) : (fw.installed codecs env cfg wifi).wifi = wifi := rfl

/-- All that a successful write does to the configured networks and to the supervisor. -/
inductive Passes (fw : Firmware) : ConfigWrite → Firmware → Prop where
  /-- The supervisor is told of the networks. -/
  | told {w : ConfigWrite} {fw' : Firmware} : (∀ req, w ≠ .putConfig req) →
      fw'.wifi = fw.wifi.connect fw'.networks → Passes fw w fw'
  /-- The networks stay. -/
  | kept {w : ConfigWrite} {fw' : Firmware} : (∀ req, w ≠ .putConfig req) →
      fw'.networks = fw.networks → fw'.wifi = fw.wifi → Passes fw w fw'
  /-- The networks are those of the body, and the supervisor is not told. -/
  | untold {req : Request} {new : Config} {fw' : Firmware} :
      codecs.config.fromSlice req.body = .ok new →
      fw'.networks = new.wifi.networks.map (Config.restorePassword fw.networks) →
      fw'.wifi = fw.wifi → Passes fw (.putConfig req) fw'

theorem passes_of_succeeds {env : Env} {fw : Firmware} {w : ConfigWrite}
    (h : w.succeeds codecs env fw = true) : Passes codecs fw w (w.perform codecs env fw) := by
  have hstep := w.perform_step codecs env fw
  rw [h] at hstep
  generalize w.perform codecs env fw = fw' at hstep
  cases hstep with
  | written edit hadmitted hedit hsave =>
      cases w with
      | putConfig req =>
          obtain ⟨new, hparse, rfl⟩ := ConfigWrite.of_bodyEdit hedit
          exact .untold hparse rfl rfl
      | putSection s req =>
          cases s with
          | wifi => exact .told (fun _ => ConfigWrite.noConfusion) rfl
          | mqtt | switches | sensors | schedule | https | wireguard | time | auth | flowAlarm
          | webhooks =>
              obtain ⟨new, -, rfl⟩ := ConfigWrite.of_bodyEdit hedit
              exact .kept (fun _ => ConfigWrite.noConfusion) rfl rfl
      | modifyNetworks f => exact .told (fun _ => ConfigWrite.noConfusion) rfl
      | setHttps on =>
          cases hedit
          exact .kept (fun _ => ConfigWrite.noConfusion) rfl rfl

/-- A `PUT` of the whole configuration brings the networks that are in force. -/
def KeepsNetworks (fw : Firmware) (req : Request) : Prop :=
  ∀ new, codecs.config.fromSlice req.body = .ok new →
    new.wifi.networks.map (Config.restorePassword fw.networks) = fw.networks

variable {codecs}

/-- A successful write keeps the lists equal, if it is not a `PUT` of the whole
configuration with other networks. -/
theorem Passes.followsFrom {fw fw' : Firmware} {w : ConfigWrite} (h : Passes codecs fw w fw')
    (hkeeps : ∀ req, w = .putConfig req → KeepsNetworks codecs fw req) (hfollows : fw.Follows) :
    fw.FollowsFrom fw' := by
  cases h with
  | told _ hwifi =>
      constructor
      · rw [Follows, hwifi, WifiSupervisor.connect_networks]
      · intro hnew
        rw [hwifi]
        exact WifiSupervisor.connect_rescanSignal (by rwa [hfollows])
  | kept _ hnetworks hwifi =>
      constructor
      · rw [Follows, hwifi, hnetworks]
        exact hfollows
      · intro hnew
        exact absurd hnetworks hnew
  | untold hparse hnetworks hwifi =>
      rw [hkeeps _ rfl _ hparse] at hnetworks
      constructor
      · rw [Follows, hwifi, hnetworks]
        exact hfollows
      · intro hnew
        exact absurd hnetworks hnew

/-- Lists that are still equal behind a `PUT` of the whole configuration have not changed. -/
theorem Passes.keepsNetworks {fw fw' : Firmware} {req : Request}
    (h : Passes codecs fw (.putConfig req) fw') (hfollows : fw.Follows)
    (hfollows' : fw'.Follows) : KeepsNetworks codecs fw req := by
  cases h with
  | told hnot | kept hnot => exact absurd rfl (hnot req)
  | untold hparse hnetworks hwifi =>
      intro new hnew
      cases hparse.symm.trans hnew
      rw [← hnetworks, ← hfollows', hwifi]
      exact hfollows

variable (codecs)

theorem follows_boot (build : BuildEnv) (certgen : CertGen) (env : Env) (nvs : NvsStore) :
    (boot codecs build certgen env nvs).Follows := rfl

/-- What is no write keeps the lists. -/
theorem follows_of_not_write {fw : Firmware} (h : fw.Follows) {i : SupervisedStep}
    (hi : ∀ env w, i ≠ .write env w) : ((supervisedMachine codecs).next fw i).Follows := by
  cases i with
  | write env w => exact absurd rfl (hi env w)
  | call c hc =>
      have hconfig := App.next_config codecs.alarmHistory fw.app hc
      exact h.trans (congrArg (·.wifi.networks) hconfig.symm)
  | reconnect | startOver => exact h

/-- The lists are equal in front of every step of a run from boot whose writes keep
them equal. -/
theorem follows_before (build : BuildEnv) (certgen : CertGen) (env : Env) (nvs : NvsStore)
    {steps : List SupervisedStep}
    (hwrites : ∀ t ∈ (supervisedMachine codecs).trace (boot codecs build certgen env nvs) steps,
      ∀ env w, t.input = .write env w → t.before.Follows → t.after.Follows)
    {t : Transition Firmware SupervisedStep Bool}
    (ht : t ∈ (supervisedMachine codecs).trace (boot codecs build certgen env nvs) steps) :
    t.before.Follows := by
  have hstep : ∀ fw i,
      (∀ env w, i = .write env w → fw.Follows → ((supervisedMachine codecs).next fw i).Follows) →
      fw.Follows → ((supervisedMachine codecs).next fw i).Follows := by
    intro fw i hwrite h
    cases i with
    | write env w => exact hwrite env w rfl h
    | call c hc => exact follows_of_not_write codecs h fun _ _ => SupervisedStep.noConfusion
    | reconnect | startOver =>
        exact follows_of_not_write codecs h fun _ _ => SupervisedStep.noConfusion
  refine ((supervisedMachine codecs).trace_invariant hstep
    (follows_boot codecs build certgen env nvs) (fun u hu env w hinput h => ?_) ht).1
  have hafter := hwrites u hu env w hinput h
  rw [(supervisedMachine codecs).eq_transition hu] at hafter
  exact hafter

/-- **The supervisor follows.**  In every run of successful writes from boot, with
whatever else happens between them, the supervisor has the configured networks
behind each write and has been told to start over when they are new, if and only if
every `PUT` of the whole configuration brings the networks that are in force. -/
theorem follows_iff (build : BuildEnv) (certgen : CertGen) (env : Env) (nvs : NvsStore)
    (steps : List SupervisedStep)
    (hok : ∀ t ∈ (supervisedMachine codecs).trace (boot codecs build certgen env nvs) steps,
      t.output = true) :
    (∀ t ∈ (supervisedMachine codecs).trace (boot codecs build certgen env nvs) steps,
      ∀ env w, t.input = .write env w → t.before.FollowsFrom t.after) ↔
    ∀ t ∈ (supervisedMachine codecs).trace (boot codecs build certgen env nvs) steps,
      ∀ env req, t.input = .write env (.putConfig req) → KeepsNetworks codecs t.before req := by
  have hpasses : ∀ t ∈ (supervisedMachine codecs).trace (boot codecs build certgen env nvs) steps,
      ∀ env w, t.input = .write env w → Passes codecs t.before w t.after := by
    intro t ht env w hinput
    have hout := hok t ht
    rw [(supervisedMachine codecs).eq_transition ht, hinput] at hout ⊢
    exact passes_of_succeeds codecs hout
  constructor
  · intro hfollows t ht env' req hinput
    have hbefore := follows_before codecs build certgen env nvs
      (fun u hu env w hu' _ => (hfollows u hu env w hu').1) ht
    exact (hpasses t ht env' _ hinput).keepsNetworks hbefore (hfollows t ht env' _ hinput).1
  · intro hkeeps
    have hfrom : ∀ t ∈ (supervisedMachine codecs).trace (boot codecs build certgen env nvs) steps,
        ∀ env w, t.input = .write env w → t.before.Follows → t.before.FollowsFrom t.after := by
      intro t ht env w hinput hbefore
      refine (hpasses t ht env w hinput).followsFrom ?_ hbefore
      rintro req rfl
      exact hkeeps t ht env req hinput
    intro t ht env' w hinput
    refine hfrom t ht env' w hinput (follows_before codecs build certgen env nvs ?_ ht)
    intro u hu env w hu' h
    exact (hfrom u hu env w hu' h).1

/-- A body of the whole configuration that brings one network. -/
def configBody : Bytes :=
  asciiBytes "\x7b\"wifi\":\x7b\"networks\":[\x7b\"ssid\":\"home\",\"password\":\"secret\"\x7d]\x7d\x7d"

/-- Codecs that read that body, and store what it says. -/
def configCodecs : Codecs :=
  { Codecs.fails with
    config := .single { Config.default {} with wifi := ConfigWrite.oneNetwork } configBody }

/-- A network list that comes as the WiFi section is followed. -/
theorem follows_wifi_section :
    let steps : List SupervisedStep :=
      [.write (.plain 0) (.putSection .wifi { body := ConfigWrite.wifiBody }), .startOver]
    ∀ t ∈ (supervisedMachine ConfigWrite.wifiCodecs).trace
        (boot ConfigWrite.wifiCodecs {} noCerts (.plain 0) .blank) steps,
      ∀ env w, t.input = .write env w → t.before.FollowsFrom t.after := by
  intro steps
  refine (follows_iff ConfigWrite.wifiCodecs {} noCerts (.plain 0) .blank steps ?_).mpr ?_
  · decide +kernel
  · intro t ht env req hinput
    simp only [steps, Machine.trace_cons, Machine.trace_nil, List.mem_cons, List.not_mem_nil,
      or_false] at ht
    rcases ht with rfl | rfl <;> cases hinput

/-- The same list in a whole configuration is saved and installed, and the supervisor
keeps the empty one. -/
theorem supervisor_misses_put :
    let fw := boot configCodecs {} noCerts (.plain 0) .blank
    let w : ConfigWrite := .putConfig { body := configBody }
    w.succeeds configCodecs (.plain 0) fw = true ∧
      (w.perform configCodecs (.plain 0) fw).networks = [⟨"home", "secret"⟩] ∧
      (w.perform configCodecs (.plain 0) fw).wifi.networks = [] := by
  intro fw w
  decide +kernel

end Firmware

end WaterController
