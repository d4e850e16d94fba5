import WaterController.Core.Config
import WaterController.Library.Json

/-!
# The configuration as JSON

What the derived serialisers make of each record and enumeration of the
configuration: the names of the fields, which of them have a default, and the
names of the variants.

The defaults of a field are those of the source.  They differ from the defaults of
the record where the record is built without JSON.
-/

namespace WaterController

open Json (Numbers)
open JsonCodec (list option pair string bool u8 u16 u32 f32 unitEnum)

namespace ConfigJson

variable {ν : Type} (N : Numbers ν)

/-! ## WiFi and MQTT -/

def wifiCreds : JsonCodec ν WifiCreds where
  toJson c := .obj [("ssid", string.toJson c.ssid), ("password", string.toJson c.password)]
  fromJson j := do
    let f ← j.fields ["ssid", "password"]
    let ssid ← string.required "ssid" (f "ssid")
    let password ← string.required "password" (f "password")
    return { ssid, password }

def wifi : JsonCodec ν WifiConfig where
  toJson w := .obj [
    ("networks", (list wifiCreds).toJson w.networks),
    ("hostname", string.toJson w.hostname),
    ("ap_ssid", string.toJson w.apSsid),
    ("ap_password", string.toJson w.apPassword)]
  fromJson j := do
    let f ← j.fields ["networks", "hostname", "ap_ssid", "ap_password"]
    let networks ← (list wifiCreds).required "networks" (f "networks")
    let hostname ← string.orDefault "doremorwater" (f "hostname")
    let apSsid ← string.orDefault "Doremorwater Fallback Hotspot" (f "ap_ssid")
    let apPassword ← string.orDefault "" (f "ap_password")
    return { networks, hostname, apSsid, apPassword }

def mqtt : JsonCodec ν MqttConfig where
  toJson m := .obj [
    ("broker_url", string.toJson m.brokerUrl),
    ("username", string.toJson m.username),
    ("password", string.toJson m.password),
    ("base_topic", string.toJson m.baseTopic),
    ("ha_discovery_prefix", string.toJson m.haDiscoveryPrefix),
    ("enabled", bool.toJson m.enabled),
    ("ca_cert_pem", string.toJson m.caCertPem),
    ("client_cert_pem", string.toJson m.clientCertPem),
    ("client_key_pem", string.toJson m.clientKeyPem)]
  fromJson j := do
    let f ← j.fields ["broker_url", "username", "password", "base_topic", "ha_discovery_prefix",
      "enabled", "ca_cert_pem", "client_cert_pem", "client_key_pem"]
    let brokerUrl ← string.required "broker_url" (f "broker_url")
    let username ← string.required "username" (f "username")
    let password ← string.required "password" (f "password")
    let baseTopic ← string.required "base_topic" (f "base_topic")
    let haDiscoveryPrefix ← string.required "ha_discovery_prefix" (f "ha_discovery_prefix")
    let enabled ← bool.required "enabled" (f "enabled")
    let caCertPem ← string.orDefault "" (f "ca_cert_pem")
    let clientCertPem ← string.orDefault "" (f "client_cert_pem")
    let clientKeyPem ← string.orDefault "" (f "client_key_pem")
    return { brokerUrl, username, password, baseTopic, haDiscoveryPrefix, enabled, caCertPem,
             clientCertPem, clientKeyPem }

/-! ## HTTPS and WireGuard -/

def https : JsonCodec ν HttpsConfig where
  toJson h := .obj [
    ("enabled", bool.toJson h.enabled),
    ("cert_pem", string.toJson h.certPem),
    ("key_pem", string.toJson h.keyPem)]
  fromJson j := do
    let f ← j.fields ["enabled", "cert_pem", "key_pem"]
    let enabled ← bool.orDefault true (f "enabled")
    let certPem ← string.required "cert_pem" (f "cert_pem")
    let keyPem ← string.required "key_pem" (f "key_pem")
    return { enabled, certPem, keyPem }

def wireguard : JsonCodec ν WireguardConfig where
  toJson w := .obj [
    ("enabled", bool.toJson w.enabled),
    ("address", string.toJson w.address),
    ("private_key", string.toJson w.privateKey),
    ("peer_endpoint", string.toJson w.peerEndpoint),
    ("peer_public_key", string.toJson w.peerPublicKey),
    ("peer_preshared_key", string.toJson w.peerPresharedKey),
    ("peer_allowed_ips", (list string).toJson w.peerAllowedIps),
    ("keepalive_secs", (u16 N).toJson w.keepaliveSecs)]
  fromJson j := do
    let f ← j.fields ["enabled", "address", "private_key", "peer_endpoint", "peer_public_key",
      "peer_preshared_key", "peer_allowed_ips", "keepalive_secs"]
    let enabled ← bool.required "enabled" (f "enabled")
    let address ← string.required "address" (f "address")
    let privateKey ← string.required "private_key" (f "private_key")
    let peerEndpoint ← string.required "peer_endpoint" (f "peer_endpoint")
    let peerPublicKey ← string.required "peer_public_key" (f "peer_public_key")
    let peerPresharedKey ← string.required "peer_preshared_key" (f "peer_preshared_key")
    let peerAllowedIps ← (list string).required "peer_allowed_ips" (f "peer_allowed_ips")
    let keepaliveSecs ← (u16 N).required "keepalive_secs" (f "keepalive_secs")
    return { enabled, address, privateKey, peerEndpoint, peerPublicKey, peerPresharedKey,
             peerAllowedIps, keepaliveSecs }

/-! ## Switches, sensors and the alarm -/

def valveTiming : JsonCodec ν ValveTiming where
  toJson t := .obj [
    ("motor_run_secs", (u32 N).toJson t.motorRunSecs),
    ("drain_secs", (u32 N).toJson t.drainSecs)]
  fromJson j := do
    let f ← j.fields ["motor_run_secs", "drain_secs"]
    let motorRunSecs ← (u32 N).required "motor_run_secs" (f "motor_run_secs")
    let drainSecs ← (u32 N).required "drain_secs" (f "drain_secs")
    return { motorRunSecs, drainSecs }

def switches : JsonCodec ν SwitchesConfig where
  toJson s := .obj [
    ("sprinkler_1_auto_off_secs", (u32 N).toJson s.sprinkler1AutoOffSecs),
    ("sprinkler_2_auto_off_secs", (u32 N).toJson s.sprinkler2AutoOffSecs),
    ("valve_timing", (valveTiming N).toJson s.valveTiming)]
  fromJson j := do
    let f ← j.fields ["sprinkler_1_auto_off_secs", "sprinkler_2_auto_off_secs", "valve_timing"]
    let sprinkler1AutoOffSecs ← (u32 N).orDefault (7 * 60) (f "sprinkler_1_auto_off_secs")
    let sprinkler2AutoOffSecs ← (u32 N).orDefault (5 * 60) (f "sprinkler_2_auto_off_secs")
    let valveTiming ← (valveTiming N).orDefault {} (f "valve_timing")
    return { sprinkler1AutoOffSecs, sprinkler2AutoOffSecs, valveTiming }

def calibration : JsonCodec ν (Calibration Float32) where
  toJson c := .obj [("points", (list (pair (f32 N))).toJson c.points)]
  fromJson j := do
    let f ← j.fields ["points"]
    let points ← (list (pair (f32 N))).required "points" (f "points")
    return .deserialize points

def sensors : JsonCodec ν SensorsConfig where
  toJson s := .obj [
    ("battery", (calibration N).toJson s.battery),
    ("pressure_stage1", (calibration N).toJson s.pressureStage1),
    ("pressure_stage2", (calibration N).toJson s.pressureStage2),
    ("flow_l_per_pulse", (f32 N).toJson s.flowLPerPulse),
    ("flow_lph_per_pps", (f32 N).toJson s.flowLphPerPps)]
  fromJson j := do
    let f ← j.fields ["battery", "pressure_stage1", "pressure_stage2", "flow_l_per_pulse",
      "flow_lph_per_pps"]
    let battery ← (calibration N).required "battery" (f "battery")
    let pressureStage1 ← (calibration N).required "pressure_stage1" (f "pressure_stage1")
    let pressureStage2 ← (calibration N).required "pressure_stage2" (f "pressure_stage2")
    let flowLPerPulse ← (f32 N).required "flow_l_per_pulse" (f "flow_l_per_pulse")
    let flowLphPerPps ← (f32 N).required "flow_lph_per_pps" (f "flow_lph_per_pps")
    return { battery, pressureStage1, pressureStage2, flowLPerPulse, flowLphPerPps }

def flowAlarm : JsonCodec ν FlowAlarmConfig where
  toJson a := .obj [
    ("enabled", bool.toJson a.enabled),
    ("threshold_lph", (f32 N).toJson a.thresholdLph),
    ("duration_secs", (u32 N).toJson a.durationSecs)]
  fromJson j := do
    let f ← j.fields ["enabled", "threshold_lph", "duration_secs"]
    let enabled ← bool.required "enabled" (f "enabled")
    let thresholdLph ← (f32 N).required "threshold_lph" (f "threshold_lph")
    let durationSecs ← (u32 N).required "duration_secs" (f "duration_secs")
    return { enabled, thresholdLph, durationSecs }

/-! ## The schedule -/

/-- The tag of an action stands beside its fields, as `kind`.  In an array it comes
first. -/
def action : JsonCodec ν Action where
  toJson
    | .switch id => .obj [("kind", .str "switch"), ("id", string.toJson id)]
    | .waterControl on => .obj [("kind", .str "water_control"), ("on", bool.toJson on)]
  fromJson j := do
    let (kind, content) ← match j with
      | .obj members => do
          let f ← (Json.obj members).fields ["kind"]
          let kind ← string.required "kind" (f "kind")
          pure (kind, Json.obj (members.filter fun m => m.1 ≠ "kind"))
      | .arr (.str kind :: items) => pure (kind, Json.arr items)
      | .arr [] => .error (.missingField "kind")
      | .arr _ => .error (.invalidType "a variant")
      | _ => .error (.invalidType "an action")
    match kind with
    | "switch" =>
        let f ← content.fields ["id"]
        let id ← string.required "id" (f "id")
        return .switch id
    | "water_control" =>
        let f ← content.fields ["on"]
        let on ← bool.required "on" (f "on")
        return .waterControl on
    | _ => .error (.unknownVariant kind)

def rule : JsonCodec ν Rule where
  toJson r := .obj [
    ("id", string.toJson r.id),
    ("action", action.toJson r.action),
    ("hours", (list (u8 N)).toJson r.hours),
    ("minutes", (list (u8 N)).toJson r.minutes),
    ("days_of_week", (list (u8 N)).toJson r.daysOfWeek),
    ("enabled", bool.toJson r.enabled),
    ("duration_secs", (option (u32 N)).toJson r.durationSecs)]
  fromJson j := do
    let f ← j.fields ["id", "action", "hours", "minutes", "days_of_week", "enabled",
      "duration_secs"]
    let id ← string.required "id" (f "id")
    let action ← action.required "action" (f "action")
    let hours ← (list (u8 N)).required "hours" (f "hours")
    let minutes ← (list (u8 N)).orDefault [0] (f "minutes")
    let daysOfWeek ← (list (u8 N)).orDefault [] (f "days_of_week")
    let enabled ← bool.orDefault true (f "enabled")
    let durationSecs ← (option (u32 N)).orDefault none (f "duration_secs")
    return { id, action, hours, minutes, daysOfWeek, enabled, durationSecs }

def schedule : JsonCodec ν Schedule where
  toJson s := .obj [("rules", (list (rule N)).toJson s.rules)]
  fromJson j := do
    let f ← j.fields ["rules"]
    let rules ← (list (rule N)).required "rules" (f "rules")
    return { rules }

/-! ## Webhooks -/

def eventKinds : List EventKind :=
  [.flowAlarmFire, .flowAlarmClear, .boot, .panicBoot, .scheduleFire, .wifiFlap, .mqttDown,
    .otaCompleted, .otaRollback, .waterBudgetExceeded, .configChanged, .manualValveOff]

def eventKind : JsonCodec ν EventKind := unitEnum EventKind.asStr eventKinds

def webhookKindName : WebhookKind → String
  | .generic => "generic"
  | .slack => "slack"
  | .discord => "discord"
  | .homeAssistant => "home_assistant"

def webhookKind : JsonCodec ν WebhookKind :=
  unitEnum webhookKindName [.generic, .slack, .discord, .homeAssistant]

def headerEntry : JsonCodec ν HeaderEntry where
  toJson h := .obj [("name", string.toJson h.name), ("value", string.toJson h.value)]
  fromJson j := do
    let f ← j.fields ["name", "value"]
    let name ← string.required "name" (f "name")
    let value ← string.required "value" (f "value")
    return { name, value }

def defaultBodyTemplate : String :=
  "\x7b\"event\":\"\x7b\x7bevent\x7d\x7d\",\"label\":\"\x7b\x7bevent_label\x7d\x7d\"," ++
  "\"device\":\"\x7b\x7bdevice\x7d\x7d\",\"ts\":\"\x7b\x7biso_ts\x7d\x7d\"," ++
  "\"uptime_s\":\x7b\x7buptime_s\x7d\x7d\x7d"

def webhook : JsonCodec ν WebhookConfig where
  toJson w := .obj [
    ("enabled", bool.toJson w.enabled),
    ("url", string.toJson w.url),
    ("kind", webhookKind.toJson w.kind),
    ("events", (list eventKind).toJson w.events),
    ("method", string.toJson w.method),
    ("headers", (list headerEntry).toJson w.headers),
    ("body_template", string.toJson w.bodyTemplate)]
  fromJson j := do
    let f ← j.fields ["enabled", "url", "kind", "events", "method", "headers", "body_template"]
    let enabled ← bool.orDefault true (f "enabled")
    let url ← string.required "url" (f "url")
    let kind ← webhookKind.orDefault .generic (f "kind")
    let events ← (list eventKind).orDefault [] (f "events")
    let method ← string.orDefault "POST" (f "method")
    let headers ← (list headerEntry).orDefault [] (f "headers")
    let bodyTemplate ← string.orDefault defaultBodyTemplate (f "body_template")
    return { enabled, url, kind, events, method, headers, bodyTemplate }

/-! ## The configuration -/

def config (build : BuildEnv) : JsonCodec ν Config where
  toJson c := .obj [
    ("wifi", wifi.toJson c.wifi),
    ("mqtt", mqtt.toJson c.mqtt),
    ("https", https.toJson c.https),
    ("switches", (switches N).toJson c.switches),
    ("sensors", (sensors N).toJson c.sensors),
    ("flow_alarm", (flowAlarm N).toJson c.flowAlarm),
    ("timezone", string.toJson c.timezone),
    ("sntp_servers", (list string).toJson c.sntpServers),
    ("schedule", (schedule N).toJson c.schedule),
    ("wireguard", (wireguard N).toJson c.wireguard),
    ("admin_token", string.toJson c.adminToken),
    ("webhooks", (list webhook).toJson c.webhooks)]
  fromJson j := do
    let f ← j.fields ["wifi", "mqtt", "https", "switches", "sensors", "flow_alarm", "timezone",
      "sntp_servers", "schedule", "wireguard", "admin_token", "webhooks"]
    let wifi ← wifi.orDefault (.default build) (f "wifi")
    let mqtt ← mqtt.orDefault {} (f "mqtt")
    let https ← https.orDefault {} (f "https")
    let switches ← (switches N).orDefault {} (f "switches")
    let sensors ← (sensors N).orDefault .default (f "sensors")
    let flowAlarm ← (flowAlarm N).orDefault {} (f "flow_alarm")
    let timezone ← string.orDefault "Europe/Madrid" (f "timezone")
    let sntpServers ← (list string).orDefault
      ["0.es.pool.ntp.org", "1.es.pool.ntp.org", "2.es.pool.ntp.org"] (f "sntp_servers")
    let schedule ← (schedule N).orDefault defaultSchedule (f "schedule")
    let wireguard ← (wireguard N).orDefault {} (f "wireguard")
    let adminToken ← string.orDefault "" (f "admin_token")
    let webhooks ← (list webhook).orDefault [] (f "webhooks")
    return { wifi, mqtt, https, switches, sensors, flowAlarm, timezone, sntpServers, schedule,
             wireguard, adminToken, webhooks }

end ConfigJson

end WaterController
