import WaterController.Core.ConfigJson

/-!
# Which configurations are read back as themselves

Record by record and variant by variant, every part of a configuration is read back
as it was written, with one exception.  A float that is not finite is written as
`null`, which no float is read from.  So a configuration is read back as itself if
and only if its floats are finite (`reads_config_iff`).
-/

namespace WaterController

open Json (Numbers bind_eq_ok fields_obj)
open JsonCodec (Reads list option pair string bool u8 u16 u32 f32 unitEnum reads_list
  reads_list_iff reads_pair_iff reads_string reads_unitEnum reads_option reads_u8 reads_u16
  reads_u32 reads_f32_iff)

/-! ## Finite floats -/

/-- All floats of a calibration are finite. -/
def Calibration.Finite (c : Calibration Float32) : Prop :=
  ∀ p ∈ c.points, p.1.isFinite = true ∧ p.2.isFinite = true

instance (c : Calibration Float32) : Decidable c.Finite := inferInstanceAs (Decidable (∀ p ∈ _, _))

/-- All floats of the sensors section are finite. -/
def SensorsConfig.Finite (s : SensorsConfig) : Prop :=
  s.battery.Finite ∧ s.pressureStage1.Finite ∧ s.pressureStage2.Finite ∧
    s.flowLPerPulse.isFinite = true ∧ s.flowLphPerPps.isFinite = true

instance (s : SensorsConfig) : Decidable s.Finite := inferInstanceAs (Decidable (_ ∧ _))

/-- All floats of a configuration are finite. -/
def Config.Finite (c : Config) : Prop :=
  c.sensors.Finite ∧ c.flowAlarm.thresholdLph.isFinite = true

instance (c : Config) : Decidable c.Finite := inferInstanceAs (Decidable (_ ∧ _))

namespace ConfigJson

variable {ν : Type} {N : Numbers ν}

/-! ## Parts without numbers -/

theorem reads_wifiCreds (c : WifiCreds) : (wifiCreds : JsonCodec ν _).Reads c := by
  simp [Reads, wifiCreds, fields_obj, bind_eq_ok, List.lookup_cons, pure, Except.pure]

theorem reads_wifi (w : WifiConfig) : (wifi : JsonCodec ν _).Reads w := by
  have hnetworks := (reads_list (reads_wifiCreds (ν := ν)) w.networks).eq
  simp [Reads, wifi, fields_obj, bind_eq_ok, List.lookup_cons, pure, Except.pure, hnetworks]

theorem reads_mqtt (m : MqttConfig) : (mqtt : JsonCodec ν _).Reads m := by
  simp [Reads, mqtt, fields_obj, List.lookup_cons, bind, Except.bind, pure, Except.pure]

theorem reads_https (h : HttpsConfig) : (https : JsonCodec ν _).Reads h := by
  simp [Reads, https, fields_obj, List.lookup_cons, bind, Except.bind, pure, Except.pure]

theorem reads_action (a : Action) : (action : JsonCodec ν _).Reads a := by
  cases a <;>
    simp [Reads, action, fields_obj, List.lookup_cons, bind, Except.bind, pure, Except.pure]

theorem reads_eventKind (e : EventKind) : (eventKind : JsonCodec ν _).Reads e := by
  cases e <;> rfl

theorem reads_webhookKind (k : WebhookKind) : (webhookKind : JsonCodec ν _).Reads k := by
  cases k <;> rfl

theorem reads_headerEntry (h : HeaderEntry) : (headerEntry : JsonCodec ν _).Reads h := by
  simp [Reads, headerEntry, fields_obj, List.lookup_cons, bind, Except.bind, pure, Except.pure]

theorem reads_webhook (w : WebhookConfig) : (webhook : JsonCodec ν _).Reads w := by
  have hkind := (reads_webhookKind (ν := ν) w.kind).eq
  have hevents := (reads_list (reads_eventKind (ν := ν)) w.events).eq
  have hheaders := (reads_list (reads_headerEntry (ν := ν)) w.headers).eq
  simp [Reads, webhook, fields_obj, List.lookup_cons, bind, Except.bind, pure, Except.pure, hkind,
    hevents, hheaders]

/-! ## Parts with integers -/

section Integers

variable (hN : N.Faithful)

include hN

theorem reads_wireguard (w : WireguardConfig) : (wireguard N).Reads w := by
  have hips := (reads_list (reads_string (ν := ν)) w.peerAllowedIps).eq
  have hkeepalive := (reads_u16 hN w.keepaliveSecs).eq
  simp [Reads, wireguard, fields_obj, List.lookup_cons, bind, Except.bind, pure, Except.pure, hips,
    hkeepalive]

theorem reads_valveTiming (t : ValveTiming) : (valveTiming N).Reads t := by
  simp [Reads, valveTiming, fields_obj, List.lookup_cons, bind, Except.bind, pure, Except.pure,
    (reads_u32 hN _).eq]

theorem reads_switches (s : SwitchesConfig) : (switches N).Reads s := by
  simp [Reads, switches, fields_obj, List.lookup_cons, bind, Except.bind, pure, Except.pure,
    (reads_u32 hN _).eq, (reads_valveTiming hN _).eq]

theorem reads_rule (r : Rule) : (rule N).Reads r := by
  have haction := (reads_action (ν := ν) r.action).eq
  have hbytes : ∀ xs, (list (u8 N)).fromJson ((list (u8 N)).toJson xs) = .ok xs :=
    fun xs => reads_list (reads_u8 hN) xs
  have hduration := (reads_option (reads_u32 hN) (fun _ h => by cases h) r.durationSecs).eq
  simp [Reads, rule, fields_obj, List.lookup_cons, bind, Except.bind, pure, Except.pure, haction,
    hbytes, hduration]

theorem reads_schedule (s : Schedule) : (schedule N).Reads s := by
  have hrules := (reads_list (reads_rule hN) s.rules).eq
  simp [Reads, schedule, fields_obj, List.lookup_cons, bind, Except.bind, pure, Except.pure, hrules]

/-! ## Parts with floats -/

theorem reads_calibration_iff {c : Calibration Float32} : (calibration N).Reads c ↔ c.Finite := by
  have hpoints : (list (pair (f32 N))).Reads c.points ↔ c.Finite := by
    simp only [reads_list_iff, reads_pair_iff, reads_f32_iff hN]
    rfl
  rw [← hpoints]
  obtain ⟨points⟩ := c
  simp [Reads, calibration, Calibration.deserialize, fields_obj, bind_eq_ok, List.lookup_cons, pure,
    Except.pure]

theorem reads_sensors_iff {s : SensorsConfig} : (sensors N).Reads s ↔ s.Finite := by
  simp only [SensorsConfig.Finite, ← reads_calibration_iff hN, ← reads_f32_iff hN]
  obtain ⟨battery, stage1, stage2, perPulse, perPps⟩ := s
  simp [Reads, sensors, fields_obj, bind_eq_ok, List.lookup_cons, pure, Except.pure]

theorem reads_flowAlarm_iff {a : FlowAlarmConfig} :
    (flowAlarm N).Reads a ↔ a.thresholdLph.isFinite = true := by
  rw [← reads_f32_iff hN]
  have hduration := (reads_u32 hN a.durationSecs).eq
  obtain ⟨enabled, threshold, duration⟩ := a
  cases enabled <;>
    simp [Reads, flowAlarm, fields_obj, bind_eq_ok, List.lookup_cons, pure, Except.pure, hduration]

/-- A configuration is read back as itself if and only if its floats are finite. -/
theorem reads_config_iff (build : BuildEnv) {c : Config} : (config N build).Reads c ↔ c.Finite := by
  rw [Config.Finite, ← reads_sensors_iff hN, ← reads_flowAlarm_iff hN]
  have hwifi := (reads_wifi (ν := ν) c.wifi).eq
  have hmqtt := (reads_mqtt (ν := ν) c.mqtt).eq
  have hhttps := (reads_https (ν := ν) c.https).eq
  have hswitches := (reads_switches hN c.switches).eq
  have hsntp := (reads_list (reads_string (ν := ν)) c.sntpServers).eq
  have hschedule := (reads_schedule hN c.schedule).eq
  have hwireguard := (reads_wireguard hN c.wireguard).eq
  have hwebhooks := (reads_list (reads_webhook (ν := ν)) c.webhooks).eq
  obtain ⟨wifi, mqtt, https, switches, sensors, alarm, timezone, sntp, schedule, wireguard, token,
    webhooks⟩ := c
  simp [Reads, config, fields_obj, bind_eq_ok, List.lookup_cons, pure, Except.pure, hwifi, hmqtt,
    hhttps, hswitches, hsntp, hschedule, hwireguard, hwebhooks]

end Integers

end ConfigJson

end WaterController
