import WaterController.Firmware.RoundTrip
import WaterController.Nostd.Device
import WaterController.Nostd.Merge

/-!
# Writing a section, and reading it back

On the no_std firmware a section that is written is read back as it was written, with
its secrets blanked, but for one thing.  The merge takes every string that comes in
blank for a secret that was left out, and fills it from the stored section
(`Section.fill`).  So a string that is no secret can be set to anything but the empty
one.

A section is read back as it was written if and only if each of these strings that is
blank in it is blank in the stored one as well, or it is written as an array of its
fields (`section_put_get_iff`).
-/

namespace WaterController

open Json (Numbers bind_eq_ok)
open JsonCodec (list string)

namespace WebApi

variable {ν : Type}

/-! ## Sections -/

namespace Section

/-- The name of a section in the path, and of the field of the configuration. -/
def name : Section → String
  | wifi => "wifi"
  | mqtt => "mqtt"
  | https => "https"
  | switches => "switches"
  | sensors => "sensors"
  | flowAlarm => "flow_alarm"
  | timezone => "timezone"
  | sntpServers => "sntp_servers"
  | schedule => "schedule"
  | wireguard => "wireguard"
  | adminToken => "admin_token"
  | webhooks => "webhooks"

/-- The sections, in the order of the fields. -/
def all : List Section :=
  [wifi, mqtt, https, switches, sensors, flowAlarm, timezone, sntpServers, schedule, wireguard,
    adminToken, webhooks]

theorem parse_name (sec : Section) : parse sec.name = some sec := by
  cases sec <;> rfl

theorem name_of_parse {n : String} {sec : Section} (h : parse n = some sec) : n = sec.name := by
  unfold parse at h
  split at h <;> cases h <;> rfl

/-- What a section holds. -/
abbrev Value : Section → Type
  | wifi => WifiConfig
  | mqtt => MqttConfig
  | https => HttpsConfig
  | switches => SwitchesConfig
  | sensors => SensorsConfig
  | flowAlarm => FlowAlarmConfig
  | timezone => String
  | sntpServers => List String
  | schedule => Schedule
  | wireguard => WireguardConfig
  | adminToken => String
  | webhooks => List WebhookConfig

/-- The section of a configuration. -/
def read : (sec : Section) → Config → sec.Value
  | wifi, cfg => cfg.wifi
  | mqtt, cfg => cfg.mqtt
  | https, cfg => cfg.https
  | switches, cfg => cfg.switches
  | sensors, cfg => cfg.sensors
  | flowAlarm, cfg => cfg.flowAlarm
  | timezone, cfg => cfg.timezone
  | sntpServers, cfg => cfg.sntpServers
  | schedule, cfg => cfg.schedule
  | wireguard, cfg => cfg.wireguard
  | adminToken, cfg => cfg.adminToken
  | webhooks, cfg => cfg.webhooks

/-- The JSON of a section. -/
def codec (N : Numbers ν) : (sec : Section) → JsonCodec ν sec.Value
  | wifi => ConfigJson.wifi
  | mqtt => ConfigJson.mqtt
  | https => ConfigJson.https
  | switches => ConfigJson.switches N
  | sensors => ConfigJson.sensors N
  | flowAlarm => ConfigJson.flowAlarm N
  | timezone => string
  | sntpServers => list string
  | schedule => ConfigJson.schedule N
  | wireguard => ConfigJson.wireguard N
  | adminToken => string
  | webhooks => list ConfigJson.webhook

/-- The fields of a section that is a record. -/
def fieldNames : Section → List String
  | wifi => ["networks", "hostname", "ap_ssid", "ap_password"]
  | mqtt => ["broker_url", "username", "password", "base_topic", "ha_discovery_prefix", "enabled",
      "ca_cert_pem", "client_cert_pem", "client_key_pem"]
  | https => ["enabled", "cert_pem", "key_pem"]
  | switches => ["sprinkler_1_auto_off_secs", "sprinkler_2_auto_off_secs", "valve_timing"]
  | sensors => ["battery", "pressure_stage1", "pressure_stage2", "flow_l_per_pulse",
      "flow_lph_per_pps"]
  | flowAlarm => ["enabled", "threshold_lph", "duration_secs"]
  | schedule => ["rules"]
  | wireguard => ["enabled", "address", "private_key", "peer_endpoint", "peer_public_key",
      "peer_preshared_key", "peer_allowed_ips", "keepalive_secs"]
  | timezone | sntpServers | adminToken | webhooks => []

/-- A body leaves out no field. -/
def Complete (sec : Section) (j : Json ν) : Prop :=
  ∀ o, j = .obj o → ∀ name ∈ sec.fieldNames, (o.lookup name).isSome = true

/-- The section with its secrets blank. -/
def redact : (sec : Section) → sec.Value → sec.Value
  | wifi, s => { s with networks := s.networks.map fun net => { net with password := "" } }
  | mqtt, s => { s with password := "", clientKeyPem := "" }
  | https, s => { s with keyPem := "" }
  | wireguard, s => { s with privateKey := "", peerPresharedKey := "" }
  | adminToken, _ => ""
  | switches, s => s
  | sensors, s => s
  | flowAlarm, s => s
  | timezone, s => s
  | sntpServers, s => s
  | schedule, s => s
  | webhooks, s => s

/-- The strings among the fields of a section that are no secrets. -/
def plainStrings : (sec : Section) → List (sec.Value → String)
  | wifi => [WifiConfig.hostname, WifiConfig.apSsid, WifiConfig.apPassword]
  | mqtt => [MqttConfig.brokerUrl, MqttConfig.username, MqttConfig.baseTopic,
      MqttConfig.haDiscoveryPrefix, MqttConfig.caCertPem, MqttConfig.clientCertPem]
  | https => [HttpsConfig.certPem]
  | wireguard =>
      [WireguardConfig.address, WireguardConfig.peerEndpoint, WireguardConfig.peerPublicKey]
  | switches | sensors | flowAlarm | timezone | sntpServers | schedule | adminToken
  | webhooks => []

/-- A section with its blank strings filled from the stored one. -/
def fill : (sec : Section) → sec.Value → sec.Value → sec.Value
  | wifi, new, stored =>
      { new with
        hostname := Config.keepBlank new.hostname stored.hostname
        apSsid := Config.keepBlank new.apSsid stored.apSsid
        apPassword := Config.keepBlank new.apPassword stored.apPassword }
  | mqtt, new, stored =>
      { new with
        brokerUrl := Config.keepBlank new.brokerUrl stored.brokerUrl
        username := Config.keepBlank new.username stored.username
        password := Config.keepBlank new.password stored.password
        baseTopic := Config.keepBlank new.baseTopic stored.baseTopic
        haDiscoveryPrefix := Config.keepBlank new.haDiscoveryPrefix stored.haDiscoveryPrefix
        caCertPem := Config.keepBlank new.caCertPem stored.caCertPem
        clientCertPem := Config.keepBlank new.clientCertPem stored.clientCertPem
        clientKeyPem := Config.keepBlank new.clientKeyPem stored.clientKeyPem }
  | https, new, stored =>
      { new with
        certPem := Config.keepBlank new.certPem stored.certPem
        keyPem := Config.keepBlank new.keyPem stored.keyPem }
  | wireguard, new, stored =>
      { new with
        address := Config.keepBlank new.address stored.address
        privateKey := Config.keepBlank new.privateKey stored.privateKey
        peerEndpoint := Config.keepBlank new.peerEndpoint stored.peerEndpoint
        peerPublicKey := Config.keepBlank new.peerPublicKey stored.peerPublicKey
        peerPresharedKey := Config.keepBlank new.peerPresharedKey stored.peerPresharedKey }
  | switches, new, _ => new
  | sensors, new, _ => new
  | flowAlarm, new, _ => new
  | timezone, new, _ => new
  | sntpServers, new, _ => new
  | schedule, new, _ => new
  | adminToken, new, _ => new
  | webhooks, new, _ => new

/-! ## The configuration by sections -/

theorem toJson_config (N : Numbers ν) (build : BuildEnv) (cfg : Config) :
    (ConfigJson.config N build).toJson cfg =
      .obj (all.map fun sec => (sec.name, (sec.codec N).toJson (sec.read cfg))) := rfl

/-- A field that is there is read. -/
theorem fromJson_of_orDefault {α : Type} {c : JsonCodec ν α} {value a : α} {j : Json ν}
    {field : Option (Json ν)} (hfield : field = some j) (h : c.orDefault value field = .ok a) :
    c.fromJson j = .ok a := by
  rw [hfield] at h
  exact h

/-- Every section of a configuration is read from its member. -/
theorem fromJson_section {N : Numbers ν} {build : BuildEnv} {members : List (String × Json ν)}
    {cfg : Config} (h : (ConfigJson.config N build).fromJson (.obj members) = .ok cfg)
    (hnodup : (members.map Prod.fst).Nodup) {sec : Section} {j : Json ν}
    (hj : members.lookup sec.name = some j) : (sec.codec N).fromJson j = .ok (sec.read cfg) := by
  simp only [ConfigJson.config, bind_eq_ok, Json.fields_obj hnodup] at h
  obtain ⟨f, hf, _, hwifi, _, hmqtt, _, hhttps, _, hswitches, _, hsensors, _, halarm, _, hzone, _,
    hsntp, _, hschedule, _, hwireguard, _, htoken, _, hwebhooks, hcfg⟩ := h
  cases hf
  cases hcfg
  cases sec with
  | wifi => exact fromJson_of_orDefault hj hwifi
  | mqtt => exact fromJson_of_orDefault hj hmqtt
  | https => exact fromJson_of_orDefault hj hhttps
  | switches => exact fromJson_of_orDefault hj hswitches
  | sensors => exact fromJson_of_orDefault hj hsensors
  | flowAlarm => exact fromJson_of_orDefault hj halarm
  | timezone => exact fromJson_of_orDefault hj hzone
  | sntpServers => exact fromJson_of_orDefault hj hsntp
  | schedule => exact fromJson_of_orDefault hj hschedule
  | wireguard => exact fromJson_of_orDefault hj hwireguard
  | adminToken => exact fromJson_of_orDefault hj htoken
  | webhooks => exact fromJson_of_orDefault hj hwebhooks

/-! ## The merge of a section -/

/-- A body that is an object is read behind the merge with its blank strings filled. -/
def FillsObject (N : Numbers ν) (sec : Section) : Prop :=
  ∀ (stored new : sec.Value) (o : List (String × Json ν)),
    (sec.codec N).fromJson (.obj o) = .ok new → sec.Complete (.obj o) →
      (sec.codec N).fromJson (merge ((sec.codec N).toJson stored) (.obj o)) =
        .ok (sec.fill new stored)

theorem Complete.isSome {sec : Section} {o : List (String × Json ν)} (h : sec.Complete (.obj o))
    {name : String} (hname : name ∈ sec.fieldNames) : (o.lookup name).isSome = true :=
  h o rfl name hname

variable (N : Numbers ν)

theorem fillsObject_wifi : FillsObject N wifi := by
  intro stored new o h hcomplete
  simp only [codec, ConfigJson.wifi, bind_eq_ok] at h ⊢
  obtain ⟨f, hf, networks, hnetworks, hostname, hhostname, apSsid, hssid, apPassword, hpassword,
    hnew⟩ := h
  obtain ⟨rfl, f', hf', hm⟩ := fields_merge hf (ConfigJson.wifi.toJson stored) rfl (by simp)
  cases hnew
  exact ⟨f', hf',
    _, hm.required (fills_list _) (by simp) rfl hnetworks,
    _, hm.orDefault fills_string (by simp) rfl (hcomplete.isSome (by simp [fieldNames])) hhostname,
    _, hm.orDefault fills_string (by simp) rfl (hcomplete.isSome (by simp [fieldNames])) hssid,
    _, hm.orDefault fills_string (by simp) rfl (hcomplete.isSome (by simp [fieldNames])) hpassword,
    rfl⟩

theorem fillsObject_mqtt : FillsObject N mqtt := by
  intro stored new o h hcomplete
  simp only [codec, ConfigJson.mqtt, bind_eq_ok] at h ⊢
  obtain ⟨f, hf, brokerUrl, hbroker, username, husername, password, hpassword, baseTopic, htopic,
    prefix_, hprefix, enabled, henabled, caCert, hca, clientCert, hcert, clientKey, hkey,
    hnew⟩ := h
  obtain ⟨rfl, f', hf', hm⟩ := fields_merge hf (ConfigJson.mqtt.toJson stored) rfl (by simp)
  cases hnew
  exact ⟨f', hf',
    _, hm.required fills_string (by simp) rfl hbroker,
    _, hm.required fills_string (by simp) rfl husername,
    _, hm.required fills_string (by simp) rfl hpassword,
    _, hm.required fills_string (by simp) rfl htopic,
    _, hm.required fills_string (by simp) rfl hprefix,
    _, hm.required fills_bool (by simp) rfl henabled,
    _, hm.orDefault fills_string (by simp) rfl (hcomplete.isSome (by simp [fieldNames])) hca,
    _, hm.orDefault fills_string (by simp) rfl (hcomplete.isSome (by simp [fieldNames])) hcert,
    _, hm.orDefault fills_string (by simp) rfl (hcomplete.isSome (by simp [fieldNames])) hkey,
    rfl⟩

theorem fillsObject_https : FillsObject N https := by
  intro stored new o h hcomplete
  simp only [codec, ConfigJson.https, bind_eq_ok] at h ⊢
  obtain ⟨f, hf, enabled, henabled, certPem, hcert, keyPem, hkey, hnew⟩ := h
  obtain ⟨rfl, f', hf', hm⟩ := fields_merge hf (ConfigJson.https.toJson stored) rfl (by simp)
  cases hnew
  exact ⟨f', hf',
    _, hm.orDefault fills_bool (by simp) rfl (hcomplete.isSome (by simp [fieldNames])) henabled,
    _, hm.required fills_string (by simp) rfl hcert,
    _, hm.required fills_string (by simp) rfl hkey, rfl⟩

theorem fillsObject_switches : FillsObject N switches := by
  intro stored new o h hcomplete
  simp only [codec, ConfigJson.switches, bind_eq_ok] at h ⊢
  obtain ⟨f, hf, auto1, hauto1, auto2, hauto2, timing, htiming, hnew⟩ := h
  obtain ⟨rfl, f', hf', hm⟩ :=
    fields_merge hf ((ConfigJson.switches N).toJson stored) rfl (by simp)
  cases hnew
  exact ⟨f', hf',
    _, hm.orDefault (fills_u32 N) (by simp) rfl (hcomplete.isSome (by simp [fieldNames])) hauto1,
    _, hm.orDefault (fills_u32 N) (by simp) rfl (hcomplete.isSome (by simp [fieldNames])) hauto2,
    _, hm.orDefault (fills_valveTiming N) (by simp) rfl (hcomplete.isSome (by simp [fieldNames]))
      htiming, rfl⟩

theorem fillsObject_sensors : FillsObject N sensors := by
  intro stored new o h hcomplete
  simp only [codec, ConfigJson.sensors, bind_eq_ok] at h ⊢
  obtain ⟨f, hf, battery, hbattery, stage1, hstage1, stage2, hstage2, perPulse, hpulse, perPps,
    hpps, hnew⟩ := h
  obtain ⟨rfl, f', hf', hm⟩ :=
    fields_merge hf ((ConfigJson.sensors N).toJson stored) rfl (by simp)
  cases hnew
  exact ⟨f', hf',
    _, hm.required (fills_calibration N) (by simp) rfl hbattery,
    _, hm.required (fills_calibration N) (by simp) rfl hstage1,
    _, hm.required (fills_calibration N) (by simp) rfl hstage2,
    _, hm.required (fills_f32 N) (by simp) rfl hpulse,
    _, hm.required (fills_f32 N) (by simp) rfl hpps, rfl⟩

theorem fillsObject_flowAlarm : FillsObject N flowAlarm := by
  intro stored new o h hcomplete
  simp only [codec, ConfigJson.flowAlarm, bind_eq_ok] at h ⊢
  obtain ⟨f, hf, enabled, henabled, threshold, hthreshold, duration, hduration, hnew⟩ := h
  obtain ⟨rfl, f', hf', hm⟩ :=
    fields_merge hf ((ConfigJson.flowAlarm N).toJson stored) rfl (by simp)
  cases hnew
  exact ⟨f', hf',
    _, hm.required fills_bool (by simp) rfl henabled,
    _, hm.required (fills_f32 N) (by simp) rfl hthreshold,
    _, hm.required (fills_u32 N) (by simp) rfl hduration, rfl⟩

theorem fillsObject_schedule : FillsObject N schedule := by
  intro stored new o h hcomplete
  simp only [codec, ConfigJson.schedule, bind_eq_ok] at h ⊢
  obtain ⟨f, hf, rules, hrules, hnew⟩ := h
  obtain ⟨rfl, f', hf', hm⟩ :=
    fields_merge hf ((ConfigJson.schedule N).toJson stored) rfl (by simp)
  cases hnew
  exact ⟨f', hf', _, hm.required (fills_list _) (by simp) rfl hrules, rfl⟩

theorem fillsObject_wireguard : FillsObject N wireguard := by
  intro stored new o h hcomplete
  simp only [codec, ConfigJson.wireguard, bind_eq_ok] at h ⊢
  obtain ⟨f, hf, enabled, henabled, address, haddress, privateKey, hprivate, endpoint, hendpoint,
    publicKey, hpublic, preshared, hpreshared, allowedIps, hips, keepalive, hkeepalive, hnew⟩ := h
  obtain ⟨rfl, f', hf', hm⟩ :=
    fields_merge hf ((ConfigJson.wireguard N).toJson stored) rfl (by simp)
  cases hnew
  exact ⟨f', hf',
    _, hm.required fills_bool (by simp) rfl henabled,
    _, hm.required fills_string (by simp) rfl haddress,
    _, hm.required fills_string (by simp) rfl hprivate,
    _, hm.required fills_string (by simp) rfl hendpoint,
    _, hm.required fills_string (by simp) rfl hpublic,
    _, hm.required fills_string (by simp) rfl hpreshared,
    _, hm.required (fills_list _) (by simp) rfl hips,
    _, hm.required (fills_u16 N) (by simp) rfl hkeepalive, rfl⟩

theorem fillsObject (sec : Section) : FillsObject N sec := by
  cases sec with
  | wifi => exact fillsObject_wifi N
  | mqtt => exact fillsObject_mqtt N
  | https => exact fillsObject_https N
  | switches => exact fillsObject_switches N
  | sensors => exact fillsObject_sensors N
  | flowAlarm => exact fillsObject_flowAlarm N
  | schedule => exact fillsObject_schedule N
  | wireguard => exact fillsObject_wireguard N
  | timezone | sntpServers | adminToken | webhooks =>
      intro stored new o h
      cases h

/-- A body that is no object replaces the section. -/
theorem fromJson_merge_of_not_obj {sec : Section} (stored : sec.Value) {new : sec.Value}
    {j : Json ν} (hj : ∀ o, j ≠ .obj o) (h : (sec.codec N).fromJson j = .ok new) :
    (sec.codec N).fromJson (merge ((sec.codec N).toJson stored) j) = .ok new := by
  rw [merge_of_not_obj hj]
  exact h

/-! ## What a request shows of what it wrote -/

/-- Every plain string that is blank in a section is blank in the stored one. -/
def BlanksKept (sec : Section) (stored new : sec.Value) : Prop :=
  ∀ f ∈ sec.plainStrings, f new = "" → f stored = ""

theorem keepBlank_eq_iff {new stored : String} :
    Config.keepBlank new stored = new ↔ (new = "" → stored = "") := by
  by_cases hnew : new = ""
  · simp [Config.keepBlank, hnew]
  · simp [Config.keepBlank, hnew]

/-- Filling a section is seen behind redaction where a plain string is filled. -/
theorem redact_fill_iff {sec : Section} {new stored : sec.Value} :
    sec.redact (sec.fill new stored) = sec.redact new ↔ sec.BlanksKept stored new := by
  cases sec with
  | wifi | mqtt | https | wireguard =>
      simp [redact, fill, BlanksKept, plainStrings, keepBlank_eq_iff]
  | switches | sensors | flowAlarm | timezone | sntpServers | schedule | adminToken
  | webhooks => exact iff_of_true rfl (by simp [BlanksKept, plainStrings])

/-- Redaction blanks the secrets of every section. -/
theorem read_redactSecretsForApi (sec : Section) (cfg : Config) :
    sec.read cfg.redactSecretsForApi = sec.redact (sec.read cfg) := by
  cases sec <;> rfl

/-- The secrets that are restored are those that redaction blanks. -/
theorem redact_restoreSecretsFrom (sec : Section) (cfg stored : Config) :
    sec.redact (sec.read (cfg.restoreSecretsFrom stored)) = sec.redact (sec.read cfg) := by
  cases sec with
  | wifi =>
      have hname : ∀ net, { Config.restorePassword stored.wifi.networks net with password := "" } =
          { net with password := "" } := by
        intro net
        rw [Config.restorePassword]
        split
        · split <;> rfl
        · rfl
      simp only [read, redact, Config.restoreSecretsFrom, List.map_map, Function.comp_def, hname]
  | mqtt | https | switches | sensors | flowAlarm | timezone | sntpServers | schedule | wireguard
  | adminToken | webhooks => rfl

end Section

end WebApi

/-! ## The `PUT` of a section -/

/-- The values of the API are those of the derived serialisers. -/
structure WebCodecs.Derived {ν : Type} (codecs : WebCodecs ν) : Prop where
  toValue : ∀ cfg,
    codecs.toValue cfg = .ok ((ConfigJson.config codecs.numbers codecs.build).toJson cfg)
  fromValue : ∀ j cfg, codecs.fromValue j = .ok cfg ↔
    (ConfigJson.config codecs.numbers codecs.build).fromJson j = .ok cfg

/-- The derived serialisers, over a reader of bodies.  They read no command and no test,
and write no answer. -/
def WebCodecs.ofJson {ν : Type} (N : Numbers ν) (build : BuildEnv) (config : Serde Config)
    (value : Bytes → Except String (Json ν)) : WebCodecs ν where
  numbers := N
  build := build
  config := config
  value := value
  toValue cfg := .ok ((ConfigJson.config N build).toJson cfg)
  fromValue j := ((ConfigJson.config N build).fromJson j).mapError Json.DeError.display
  switchCommand _ := .error "other bytes"
  testReq _ := .error "other bytes"
  outcome _ := .error "another value"
  snapshot _ := .error "another value"

theorem WebCodecs.derived_ofJson {ν : Type} (N : Numbers ν) (build : BuildEnv)
    (config : Serde Config) (value : Bytes → Except String (Json ν)) :
    (WebCodecs.ofJson N build config value).Derived where
  toValue _ := rfl
  fromValue j cfg := by
    simp only [ofJson]
    cases (ConfigJson.config N build).fromJson j with
    | error e => simp [Except.mapError]
    | ok cfg' => simp [Except.mapError]

namespace WebApi

variable {ν : Type} {codecs : WebCodecs ν}

theorem Section.lookup_all {β : Type} (f : Section → β) (sec : Section) :
    (Section.all.map fun s => (s.name, f s)).lookup sec.name = some (f sec) := by
  cases sec <;> simp [Section.all, Section.name, List.lookup_cons]

/-- A section `PUT` that asks for a configuration names a section, and has a body. -/
theorem section_of_mergedConfig (hderived : codecs.Derived) {n : String} {live cfg : Config}
    {body : Bytes} (h : mergedConfig codecs n live body = .ok cfg) :
    ∃ sec : Section, n = sec.name ∧ ∃ j, codecs.value body = .ok j := by
  simp only [mergedConfig, hderived.toValue, Section.toJson_config] at h
  split at h
  · cases h
  · rename_i j hbody
    split at h
    · cases h
    · rename_i target htarget
      obtain ⟨before, after, hsplit, -⟩ := List.lookup_eq_some_iff.mp htarget
      have hmem : (n, target) ∈ Section.all.map fun sec =>
          (sec.name, (sec.codec codecs.numbers).toJson (sec.read live)) := by
        rw [hsplit]
        simp
      obtain ⟨sec, -, hsec⟩ := List.mem_map.mp hmem
      exact ⟨sec, (congrArg Prod.fst hsec).symm, j, hbody⟩

/-- What a section `PUT` asks for has the section read behind the merge, and the others
read back. -/
theorem of_mergedConfig (hderived : codecs.Derived) {sec : Section} {live cfg : Config}
    {body : Bytes} {j : Json ν} (hbody : codecs.value body = .ok j)
    (h : mergedConfig codecs sec.name live body = .ok cfg) :
    (sec.codec codecs.numbers).fromJson
        (merge ((sec.codec codecs.numbers).toJson (sec.read live)) j) = .ok (sec.read cfg) ∧
      ∀ sec' : Section, sec' ≠ sec →
        (sec'.codec codecs.numbers).fromJson
          ((sec'.codec codecs.numbers).toJson (sec'.read live)) = .ok (sec'.read cfg) := by
  have hlookup := Section.lookup_all
    (fun s => (s.codec codecs.numbers).toJson (s.read live))
  simp only [mergedConfig, hbody, hderived.toValue, Section.toJson_config, hlookup] at h
  split at h
  · rename_i merged hmerged
    cases h
    have hread := (hderived.fromValue _ _).mp hmerged
    have hnodup : ((setMember (Section.all.map fun s =>
        (s.name, (s.codec codecs.numbers).toJson (s.read live))) sec.name
        (merge ((sec.codec codecs.numbers).toJson (sec.read live)) j)).map Prod.fst).Nodup := by
      rw [map_fst_setMember]
      simp [Section.all, Section.name]
    constructor
    · refine Section.fromJson_section hread hnodup ?_
      rw [lookup_setMember, if_pos rfl, hlookup]
      rfl
    · intro sec' hne
      refine Section.fromJson_section hread hnodup ?_
      have hname : sec'.name ≠ sec.name := by
        intro hsame
        have hparse := Section.parse_name sec'
        rw [hsame, Section.parse_name] at hparse
        exact hne (Option.some.inj hparse).symm
      rw [lookup_setMember, if_neg hname, hlookup]
  · cases h

theorem errorJson_ne_resultOk (text : String) : errorJson text ≠ resultOk := by
  intro h
  have hchars := congrArg String.toList h
  simp [errorJson, resultOk, String.toList_append] at hchars

/-- A `PUT` that answers `ok` has saved and installed what it asked for. -/
theorem of_saveAndReplace_ok {env : WebEnv} {st : AppState} {incoming : Config}
    (h : (saveAndReplace codecs env st incoming).2 = resultOk) :
    (saveAndReplace codecs env st incoming).1.app.config =
      incoming.restoreSecretsFrom st.app.config := by
  unfold saveAndReplace at h ⊢
  dsimp only at h ⊢
  split at h
  · exact absurd h (errorJson_ne_resultOk _)
  · rfl

theorem of_configSectionPut_ok {env : WebEnv} {st : AppState} {n : String} {body : Bytes}
    (h : (configSectionPut codecs env n st body).2 = resultOk) :
    ∃ cfg, mergedConfig codecs n st.app.config body = .ok cfg ∧
      (configSectionPut codecs env n st body).1.app.config =
        cfg.restoreSecretsFrom st.app.config := by
  unfold configSectionPut at h ⊢
  cases hmerged : mergedConfig codecs n st.app.config body with
  | error text =>
      rw [hmerged] at h
      exact absurd h (errorJson_ne_resultOk text)
  | ok cfg =>
      rw [hmerged] at h
      exact ⟨cfg, rfl, of_saveAndReplace_ok h⟩

/-- The response streams a section with a value. -/
def ApiResp.Shows (resp : ApiResp) (sec : Section) (value : sec.Value) : Prop :=
  ∃ cfg, resp = .stream (.section cfg sec) ∧ sec.read cfg = value

/-- A section that can be named is read from the configuration in use, redacted. -/
theorem shows_configSectionGet_iff {n : String} {sec : Section} (hname : Section.parse n = some sec)
    {st : AppState} {value : sec.Value} :
    (configSectionGet n st).Shows sec value ↔ sec.redact (sec.read st.app.config) = value := by
  simp only [configSectionGet, hname, ApiResp.Shows]
  constructor
  · rintro ⟨cfg, hcfg, rfl⟩
    cases hcfg
    exact (sec.read_redactSecretsForApi st.app.config).symm
  · rintro rfl
    exact ⟨_, rfl, sec.read_redactSecretsForApi st.app.config⟩

/-- **A section, written and read back.**  Behind a `PUT` of a complete section that
answers `ok`, a `GET` of it shows what was put, with its secrets blank, if and only if
every plain string that is blank in the body is blank in the stored section, or the body
is no object. -/
theorem section_put_get_iff {ν : Type} (codecs : WebCodecs ν) (hderived : codecs.Derived)
    (env : WebEnv) (st : AppState) (n : String) (sec : Section)
    (hname : Section.parse n = some sec) (body : Bytes) (j : Json ν)
    (hbody : codecs.value body = .ok j) (new : sec.Value)
    (hread : (sec.codec codecs.numbers).fromJson j = .ok new) (hcomplete : sec.Complete j)
    (hok : (configSectionPut codecs env n st body).2 = resultOk) :
    (configSectionGet n (configSectionPut codecs env n st body).1).Shows sec (sec.redact new) ↔
      ((∃ o, j = .obj o) → sec.BlanksKept (sec.read st.app.config) new) := by
  obtain ⟨cfg, hmerged, hconfig⟩ := of_configSectionPut_ok hok
  rw [shows_configSectionGet_iff hname, hconfig, Section.redact_restoreSecretsFrom]
  rw [Section.name_of_parse hname] at hmerged
  have hsection := (of_mergedConfig hderived hbody hmerged).1
  by_cases hobj : ∃ o, j = .obj o
  · obtain ⟨o, rfl⟩ := hobj
    have hfill := Section.fillsObject codecs.numbers sec (sec.read st.app.config) new o hread
      hcomplete
    have hcfg : sec.read cfg = sec.fill new (sec.read st.app.config) :=
      Except.ok.inj (hsection.symm.trans hfill)
    rw [hcfg, Section.redact_fill_iff]
    simp
  · have hreplaced := Section.fromJson_merge_of_not_obj codecs.numbers (sec.read st.app.config)
      (fun o ho => hobj ⟨o, ho⟩) hread
    have hcfg : sec.read cfg = new := Except.ok.inj (hsection.symm.trans hreplaced)
    exact iff_of_true (by rw [hcfg]) fun h => absurd h hobj

/-! ## A broker with a user name -/

/-- The defaults with a broker and a user name. -/
def userConfig (username : String) : Config :=
  { Config.default {} with mqtt := { brokerUrl := "mqtt://broker", username } }

/-- The body of the MQTT section with a user name. -/
def userJson (username : String) : Json JsonNumber :=
  ConfigJson.mqtt.toJson (userConfig username).mqtt

def userBody : Bytes := asciiBytes "the MQTT section with its user name"

/-- Codecs that read the body of the section, and can store one configuration. -/
def userCodecs (username : String) (saved : Config) : WebCodecs JsonNumber :=
  .ofJson jsonNumbers {} (.single saved (asciiBytes "the configuration that is saved"))
    fun bytes => if bytes = userBody then .ok (userJson username) else .error "other bytes"

/-- A device with a user name, at its first boot. -/
def userState : AppState where
  app := .withNvs (.fails _) (userConfig "user") (some ⟨fun _ => none⟩)
  flashKv := ⟨.erased, ∅⟩
  ota := ⟨.error "no slot", []⟩
  rebootRequested := false

/-- Another user name is shown as it was put. -/
theorem section_put_get_username :
    (configSectionGet "mqtt" (configSectionPut (userCodecs "admin" (userConfig "admin")) .plain
      "mqtt" userState userBody).1).Shows .mqtt
        (Section.redact .mqtt (userConfig "admin").mqtt) := by
  refine (section_put_get_iff (userCodecs "admin" (userConfig "admin"))
    (WebCodecs.derived_ofJson _ _ _ _) .plain userState "mqtt" .mqtt rfl userBody
    (userJson "admin") rfl (userConfig "admin").mqtt (ConfigJson.reads_mqtt _) ?_
    (by decide +kernel)).mpr ?_
  · intro o ho
    cases ho
    decide
  · rintro - f hf
    revert f
    decide +kernel

/-- A user name that is put to the empty string is answered with `ok`, and stays. -/
theorem section_put_keeps_username :
    let codecs := userCodecs "" (userConfig "user")
    let put := configSectionPut codecs .plain "mqtt" userState userBody
    codecs.Derived ∧
      (Section.codec codecs.numbers .mqtt).fromJson (userJson "") = .ok (userConfig "").mqtt ∧
      Section.Complete .mqtt (userJson "") ∧ put.2 = resultOk ∧
      ¬ (configSectionGet "mqtt" put.1).Shows .mqtt
        (Section.redact .mqtt (userConfig "").mqtt) ∧
      (configSectionGet "mqtt" put.1).Shows .mqtt
        (Section.redact .mqtt (userConfig "user").mqtt) := by
  intro codecs put
  refine ⟨WebCodecs.derived_ofJson _ _ _ _, ConfigJson.reads_mqtt _, ?_, by decide +kernel, ?_, ?_⟩
  · intro o ho
    cases ho
    decide
  · rw [shows_configSectionGet_iff rfl]
    decide +kernel
  · rw [shows_configSectionGet_iff rfl]
    decide +kernel

end WebApi

end WaterController
