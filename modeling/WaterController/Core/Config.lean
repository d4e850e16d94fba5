import WaterController.Core.Calibration
import WaterController.Core.Schedule
import WaterController.Core.WaterValve
import WaterController.Core.Webhook

/-!
# The runtime configuration

One record holds everything the user can set.  It is kept in the persistent
store as JSON under `Config.nvsKey`.  The defaults are those of a fresh device.

The API never sends secrets out.  So a configuration that comes in with a blank
secret means the stored one, and `Config.restoreSecretsFrom` puts it back.
-/

namespace WaterController

/-! ## Sections -/

/-- What the build can bake into the defaults. -/
structure BuildEnv where
  wifiSsid : Option String := none
  wifiPassword : Option String := none
deriving DecidableEq, Repr

structure WifiConfig where
  networks : List WifiCreds
  hostname : String
  apSsid : String
  apPassword : String
deriving DecidableEq, Repr

def WifiConfig.default (build : BuildEnv) : WifiConfig where
  networks :=
    match build.wifiSsid, build.wifiPassword with
    | some ssid, some password => if ssid.isEmpty then [] else [⟨ssid, password⟩]
    | _, _ => []
  hostname := "doremorwater"
  apSsid := "Doremorwater Fallback Hotspot"
  apPassword := ""

structure MqttConfig where
  brokerUrl : String := ""
  username : String := ""
  password : String := ""
  baseTopic : String := "doremorwater"
  haDiscoveryPrefix : String := "homeassistant"
  enabled : Bool := false
  caCertPem : String := ""
  clientCertPem : String := ""
  clientKeyPem : String := ""
deriving DecidableEq, Repr

/-- The calibrations of the analogue sensors and the two flow factors. -/
structure SensorsConfig where
  battery : Calibration Float32
  pressureStage1 : Calibration Float32
  pressureStage2 : Calibration Float32
  flowLPerPulse : Float32
  flowLphPerPps : Float32
deriving DecidableEq

/-- The default calibrations unwrap a constructor that can fail, so each comes
with the proof that it does not. -/
def SensorsConfig.default : SensorsConfig where
  battery := (Calibration.new [(1130.0, 5.00), (2931.0, 12.2)]).get (by decide)
  pressureStage1 := (Calibration.new [(0.37, 0.54), (2.62, 3.98)]).get (by decide)
  pressureStage2 := (Calibration.new [(0.54, 0.0), (4.50, 10.34214)]).get (by decide)
  flowLPerPulse := 1.0 / 516.5
  flowLphPerPps := 0.00225012 * 60.0

/-- The calibrations of the section. -/
def SensorsConfig.calibrations (s : SensorsConfig) : List (Calibration Float32) :=
  [s.battery, s.pressureStage1, s.pressureStage2]

structure WireguardConfig where
  enabled : Bool := false
  address : String := "10.6.0.5"
  privateKey : String := ""
  peerEndpoint : String := ""
  peerPublicKey : String := ""
  peerPresharedKey : String := ""
  peerAllowedIps : List String := ["192.168.1.0/24", "10.6.0.1/32"]
  keepaliveSecs : UInt16 := 25
deriving DecidableEq, Repr

structure HttpsConfig where
  enabled : Bool := true
  certPem : String := ""
  keyPem : String := ""
deriving DecidableEq, Repr

/-- The auto-off times of the sprinklers, zero for none, and the valve timing. -/
structure SwitchesConfig where
  sprinkler1AutoOffSecs : UInt32 := 7 * 60
  sprinkler2AutoOffSecs : UInt32 := 5 * 60
  valveTiming : ValveTiming := {}
deriving DecidableEq, Repr

/-- The flow alarm rule. -/
structure FlowAlarmConfig where
  enabled : Bool := false
  thresholdLph : Float32 := 100.0
  durationSecs : UInt32 := 60
deriving DecidableEq

/-! ## The configuration -/

structure Config where
  wifi : WifiConfig
  mqtt : MqttConfig := {}
  https : HttpsConfig := {}
  switches : SwitchesConfig := {}
  sensors : SensorsConfig := .default
  flowAlarm : FlowAlarmConfig := {}
  timezone : String := "Europe/Madrid"
  sntpServers : List String := ["0.es.pool.ntp.org", "1.es.pool.ntp.org", "2.es.pool.ntp.org"]
  schedule : Schedule := defaultSchedule
  wireguard : WireguardConfig := {}
  adminToken : String := ""
  webhooks : List WebhookConfig := []
deriving DecidableEq

inductive ConfigError where
  | nvs (e : NvsError)
  | json (e : String)
deriving DecidableEq, Repr

def ConfigError.display : ConfigError → String
  | .nvs e => "nvs error: " ++ e.display
  | .json e => "json error: " ++ e

namespace Config

def default (build : BuildEnv) : Config where
  wifi := .default build

/-- The key of the configuration in the persistent store. -/
def nvsKey : String := "wc.cfg"

/-- Load the stored configuration, or the defaults if there is none. -/
def load (build : BuildEnv) (serde : Serde Config) (nvs : NvsStore) : Except ConfigError Config :=
  match nvs.get nvsKey with
  | none => .ok (default build)
  | some bytes => (serde.fromSlice bytes).mapError .json

/-- Store a configuration.  The result says what the store answered. -/
def save (cfg : Config) (serde : Serde Config) (env : Env) (nvs : NvsStore) :
    NvsStore × Except ConfigError Unit :=
  match serde.toVec cfg with
  | .error e => (nvs, .error (.json e))
  | .ok bytes =>
      (nvs.set nvsKey bytes (env.nvsSet nvsKey), (env.nvsSet nvsKey).mapError .nvs)

/-- Erase the stored configuration, so that the next boot has the defaults. -/
def factoryReset (env : Env) (nvs : NvsStore) : NvsStore × Except ConfigError Unit :=
  (nvs.remove nvsKey (env.nvsSet nvsKey), (env.nvsSet nvsKey).mapError .nvs)

/-! ## Secrets -/

/-- A copy for the API, with its secrets blank. -/
def redactSecretsForApi (cfg : Config) : Config :=
  { cfg with
    wifi := { cfg.wifi with
      networks := cfg.wifi.networks.map fun net => { net with password := "" } }
    mqtt := { cfg.mqtt with password := "", clientKeyPem := "" }
    https := { cfg.https with keyPem := "" }
    wireguard := { cfg.wireguard with privateKey := "", peerPresharedKey := "" }
    adminToken := "" }

/-- A secret that came in, or the stored one if it came in blank. -/
def keepBlank (incoming stored : String) : String := if incoming.isEmpty then stored else incoming

/-- A network that comes in without a password keeps the stored password of the
first network of its name. -/
def restorePassword (stored : List WifiCreds) (net : WifiCreds) : WifiCreds :=
  if net.password.isEmpty then
    match stored.find? (·.ssid = net.ssid) with
    | some existing => { net with password := existing.password }
    | none => net
  else net

/-- Fill the blank secrets of an incoming configuration from the stored one. -/
def restoreSecretsFrom (incoming stored : Config) : Config :=
  { incoming with
    wifi := { incoming.wifi with
      networks := incoming.wifi.networks.map (restorePassword stored.wifi.networks) }
    mqtt := { incoming.mqtt with
      password := keepBlank incoming.mqtt.password stored.mqtt.password
      clientKeyPem := keepBlank incoming.mqtt.clientKeyPem stored.mqtt.clientKeyPem }
    https := { incoming.https with
      keyPem := keepBlank incoming.https.keyPem stored.https.keyPem }
    wireguard := { incoming.wireguard with
      privateKey := keepBlank incoming.wireguard.privateKey stored.wireguard.privateKey
      peerPresharedKey :=
        keepBlank incoming.wireguard.peerPresharedKey stored.wireguard.peerPresharedKey }
    adminToken := keepBlank incoming.adminToken stored.adminToken }

/-- The stored configuration after an update from the API. -/
def mergePreservingSecrets (stored incoming : Config) : Config :=
  incoming.restoreSecretsFrom stored

end Config

end WaterController
