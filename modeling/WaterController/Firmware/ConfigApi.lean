import WaterController.App.Run

/-!
# Configuration writes of the std firmware

Four things write the configuration of a running device: a `PUT` of the whole of
it, a `PUT` of one section, and two commands of the serial console.  All read the
configuration in force, compute a new one, save it to the store and install it.
The two kinds of `PUT` check the request first.

The store the handlers save to is the one of the application.  `Firmware` has the
proof that there is one.  A write is one step here: what several writers do to
each other is not the subject of this module.
-/

namespace WaterController

open Machines (Machine)

/-! ## The WiFi supervisor -/

/-- The networks the supervisor tries, and the flag that tells it to start over. -/
structure WifiSupervisor where
  networks : List WifiCreds
  rescanSignal : Bool
deriving DecidableEq, Repr

namespace WifiSupervisor

def spawn (initialNetworks : List WifiCreds) : WifiSupervisor := ⟨initialNetworks, true⟩

/-- Take over a list of networks.  The list it has is no reason to start over. -/
def connect (w : WifiSupervisor) (networks : List WifiCreds) : WifiSupervisor :=
  if w.networks = networks then w else ⟨networks, true⟩

end WifiSupervisor

/-! ## Requests -/

structure TimeSection where
  timezone : String
  sntpServers : List String
deriving DecidableEq, Repr

structure AuthSection where
  adminToken : String
deriving DecidableEq, Repr

/-- The codecs of what is stored and of what the bodies of the requests hold. -/
structure Codecs where
  alarmHistory : Serde (List AlarmEvent)
  config : Serde Config
  wifi : Serde WifiConfig
  mqtt : Serde MqttConfig
  switches : Serde SwitchesConfig
  sensors : Serde SensorsConfig
  schedule : Serde Schedule
  https : Serde HttpsConfig
  wireguard : Serde WireguardConfig
  time : Serde TimeSection
  auth : Serde AuthSection
  flowAlarm : Serde FlowAlarmConfig
  webhooks : Serde (List WebhookConfig)

/-- Codecs that read and write nothing. -/
def Codecs.fails : Codecs where
  alarmHistory := .fails _
  config := .fails _
  wifi := .fails _
  mqtt := .fails _
  switches := .fails _
  sensors := .fails _
  schedule := .fails _
  https := .fails _
  wireguard := .fails _
  time := .fails _
  auth := .fails _
  flowAlarm := .fails _
  webhooks := .fails _

structure Request where
  authorization : Option String := none
  body : Bytes

/-- A status, and the message of the error object in the body. -/
structure Response where
  status : Nat
  message : Option String := none
deriving DecidableEq, Repr

def maxBody : Nat := 32 * 1024

/-- A device with a token wants it in the header. -/
def requireAuth (app : App) (req : Request) : Bool :=
  app.config.adminToken.isEmpty ||
    decide (req.authorization.getD "" = "Bearer " ++ app.config.adminToken)

def unauthorized : Response :=
  ⟨401, some "missing or invalid Authorization: Bearer <admin_token>"⟩

/-! ## The device -/

/-- A running device: its application, which has a store, and the supervisor. -/
structure Firmware where
  app : App
  wifi : WifiSupervisor
  hasStore : app.nvs.isSome = true

namespace Firmware

/-- The store of the device. -/
def nvs (fw : Firmware) : NvsStore := fw.app.nvs.get fw.hasStore

def withNvs (fw : Firmware) (nvs : NvsStore) : Firmware :=
  { fw with app := { fw.app with nvs := some nvs }, hasStore := rfl }

def replaceConfig (fw : Firmware) (env : Env) (cfg : Config) : Firmware :=
  { fw with app := fw.app.replaceConfig env cfg, hasStore := fw.hasStore }

section Handlers

variable (codecs : Codecs)

/-- Answer the `PUT` of a value: check the request, compute the configuration,
tell the supervisor what it should know of it, save it, and install it. -/
def handlePut {α : Type} (serde : Serde α) (apply : Config → α → Config)
    (notify : WifiSupervisor → Config → WifiSupervisor) (env : Env) (fw : Firmware)
    (req : Request) : Firmware × Response :=
  if !requireAuth fw.app req then (fw, unauthorized)
  else if maxBody < req.body.length then (fw, ⟨413, some "body too large"⟩)
  else
    match serde.fromSlice req.body with
    | .error e => (fw, ⟨400, some ("invalid json: " ++ e)⟩)
    | .ok new =>
        let cfg := apply fw.app.config new
        let saved := cfg.save codecs.config env fw.nvs
        let fw := { fw.withNvs saved.1 with wifi := notify fw.wifi cfg }
        match saved.2 with
        | .error e => (fw, ⟨500, some ("nvs save: " ++ e.display)⟩)
        | .ok () => (fw.replaceConfig env cfg, ⟨204, none⟩)

/-- `PUT /api/config`.  The supervisor is not told. -/
def putConfig : Env → Firmware → Request → Firmware × Response :=
  handlePut codecs codecs.config Config.mergePreservingSecrets fun w _ => w

/-! ## Sections -/

def applyWifi (cfg : Config) (new : WifiConfig) : Config :=
  { cfg with wifi :=
    { new with networks := new.networks.map (Config.restorePassword cfg.wifi.networks) } }

def applyMqtt (cfg : Config) (new : MqttConfig) : Config :=
  { cfg with mqtt :=
    { new with
      password := Config.keepBlank new.password cfg.mqtt.password
      clientKeyPem := Config.keepBlank new.clientKeyPem cfg.mqtt.clientKeyPem } }

def applySensors (cfg : Config) (new : SensorsConfig) : Config := { cfg with sensors := new }

def applyHttps (cfg : Config) (new : HttpsConfig) : Config :=
  { cfg with https := { new with keyPem := Config.keepBlank new.keyPem cfg.https.keyPem } }

def applyWireguard (cfg : Config) (new : WireguardConfig) : Config :=
  { cfg with wireguard :=
    { new with
      privateKey := Config.keepBlank new.privateKey cfg.wireguard.privateKey
      peerPresharedKey := Config.keepBlank new.peerPresharedKey cfg.wireguard.peerPresharedKey } }

def applyTime (cfg : Config) (new : TimeSection) : Config :=
  { cfg with timezone := new.timezone, sntpServers := new.sntpServers }

def applyAuth (cfg : Config) (new : AuthSection) : Config :=
  { cfg with adminToken := Config.keepBlank new.adminToken cfg.adminToken }

/-- The sections of the configuration that have a route of their own. -/
inductive ConfigSection where
  | wifi
  | mqtt
  | switches
  | sensors
  | schedule
  | https
  | wireguard
  | time
  | auth
  | flowAlarm
  | webhooks
deriving DecidableEq, Repr

/-- `PUT /api/config/<section>`. -/
def putSection : ConfigSection → Env → Firmware → Request → Firmware × Response
  | .wifi => handlePut codecs codecs.wifi applyWifi fun w cfg => w.connect cfg.wifi.networks
  | .mqtt => handlePut codecs codecs.mqtt applyMqtt fun w _ => w
  | .switches =>
      handlePut codecs codecs.switches (fun cfg new => { cfg with switches := new }) fun w _ => w
  | .sensors => handlePut codecs codecs.sensors applySensors fun w _ => w
  | .schedule =>
      handlePut codecs codecs.schedule (fun cfg new => { cfg with schedule := new }) fun w _ => w
  | .https => handlePut codecs codecs.https applyHttps fun w _ => w
  | .wireguard => handlePut codecs codecs.wireguard applyWireguard fun w _ => w
  | .time => handlePut codecs codecs.time applyTime fun w _ => w
  | .auth => handlePut codecs codecs.auth applyAuth fun w _ => w
  | .flowAlarm =>
      handlePut codecs codecs.flowAlarm (fun cfg new => { cfg with flowAlarm := new }) fun w _ => w
  | .webhooks =>
      handlePut codecs codecs.webhooks
        (fun cfg new => { cfg with webhooks := new.take webhooksMax }) fun w _ => w

/-! ## The serial console -/

/-- A console command that edits the configuration: save it, and install it if that
worked. -/
def editConfig (edit : Config → Config) (notify : WifiSupervisor → Config → WifiSupervisor)
    (env : Env) (fw : Firmware) : Firmware :=
  let cfg := edit fw.app.config
  let saved := cfg.save codecs.config env fw.nvs
  let fw := fw.withNvs saved.1
  match saved.2 with
  | .error _ => fw
  | .ok () =>
      let fw := fw.replaceConfig env cfg
      { fw with wifi := notify fw.wifi cfg }

/-- `wifi add`, `wifi del` and `wifi clear`. -/
def modifyNetworks (f : List WifiCreds → List WifiCreds) : Env → Firmware → Firmware :=
  editConfig codecs (fun cfg => { cfg with wifi.networks := f cfg.wifi.networks })
    fun w cfg => w.connect cfg.wifi.networks

/-- `https on` and `https off`. -/
def setHttps (on : Bool) : Env → Firmware → Firmware :=
  editConfig codecs (fun cfg => { cfg with https.enabled := on }) fun w _ => w

/-! ## Boot and reset -/

/-- Makes a self-signed certificate and its key for a name. -/
abbrev CertGen := String → Except String (String × String)

/-- A generator that makes no certificates. -/
def noCerts : CertGen := fun _ => .error "no generator"

/-- The common name of a generated certificate. -/
def certName (cfg : Config) : String :=
  if cfg.wifi.hostname.isEmpty then "doremorwater" else cfg.wifi.hostname ++ ".local"

/-- The configuration a boot starts from.  Where the store has none that can be
read, the defaults take its place, in the store as well. -/
def loadOrDefault (build : BuildEnv) (env : Env) (nvs : NvsStore) : Config × NvsStore :=
  match Config.load build codecs.config nvs with
  | .ok cfg => (cfg, nvs)
  | .error _ => (.default build, ((Config.default build).save codecs.config env nvs).1)

/-- A boot without certificate and key makes both, and stores them. -/
def ensureCert (certgen : CertGen) (env : Env) (cfg : Config) (nvs : NvsStore) :
    Config × NvsStore :=
  if cfg.https.certPem.isEmpty && cfg.https.keyPem.isEmpty then
    match certgen (certName cfg) with
    | .ok (cert, key) =>
        let cfg := { cfg with https.certPem := cert, https.keyPem := key }
        (cfg, (cfg.save codecs.config env nvs).1)
    | .error _ => (cfg, nvs)
  else (cfg, nvs)

/-- A boot from a store.  Failures to store are ignored. -/
def boot (build : BuildEnv) (certgen : CertGen) (env : Env) (nvs : NvsStore) : Firmware :=
  let loaded := loadOrDefault codecs build env nvs
  let ready := ensureCert codecs certgen env loaded.1 loaded.2
  { app := .withNvs codecs.alarmHistory ready.1 (some ready.2)
    wifi := .spawn ready.1.wifi.networks
    hasStore := rfl }

/-- A device that runs with a configuration, on a store that was never written. -/
def ofConfig (cfg : Config) : Firmware where
  app := .withNvs codecs.alarmHistory cfg (some .blank)
  wifi := .spawn cfg.wifi.networks
  hasStore := rfl

/-- `POST /api/factory_reset`, and the reboot behind its answer. -/
def factoryReset (build : BuildEnv) (certgen : CertGen) (env : Env) (fw : Firmware)
    (req : Request) : Firmware × Response :=
  if !requireAuth fw.app req then (fw, unauthorized)
  else
    let erased := Config.factoryReset env fw.nvs
    match erased.2 with
    | .error e => (fw.withNvs erased.1, ⟨500, some ("erase failed: " ++ e.display)⟩)
    | .ok () => (boot codecs build certgen env erased.1, ⟨202, none⟩)

end Handlers

end Firmware

/-! ## The machine -/

/-- What happens to a device.  The configuration of its application is installed by
the handlers only. -/
inductive FirmwareEvent where
  | call (c : Call) (h : c.op.installs = false)
  | putConfig (env : Env) (req : Request)
  | putSection (s : Firmware.ConfigSection) (env : Env) (req : Request)
  | modifyNetworks (f : List WifiCreds → List WifiCreds) (env : Env)
  | setHttps (on : Bool) (env : Env)
  | factoryReset (env : Env) (req : Request)
  | reboot (env : Env)

/-- The device. -/
def firmwareMachine (codecs : Codecs) (build : BuildEnv) (certgen : Firmware.CertGen) :
    Machine Firmware FirmwareEvent (Option Response) where
  step fw
    | .call c _ =>
        ({ fw with
            app := (appMachine codecs.alarmHistory).next fw.app c
            hasStore := (App.hasStore_next _ fw.app c).trans fw.hasStore }, none)
    | .putConfig env req =>
        let r := fw.putConfig codecs env req
        (r.1, some r.2)
    | .putSection s env req =>
        let r := Firmware.putSection codecs s env fw req
        (r.1, some r.2)
    | .modifyNetworks f env => (fw.modifyNetworks codecs f env, none)
    | .setHttps on env => (fw.setHttps codecs on env, none)
    | .factoryReset env req =>
        let r := fw.factoryReset codecs build certgen env req
        (r.1, some r.2)
    | .reboot env => (Firmware.boot codecs build certgen env fw.nvs, none)

end WaterController
