import WaterController.Firmware.ConfigWrites

/-!
# Sections of the configuration

Every section has a value, which is read from the configuration and put back into it,
and the edit that a `PUT` of the section makes (`ConfigSection.apply`).  An edit goes
no further than its section (`read_apply_of_ne`).

The secrets that come in blank are kept by each edit on its own and by the merge of a
whole configuration once more.  For all sections but the webhooks the two agree
(`read_apply`).
-/

namespace WaterController

namespace Firmware.ConfigSection

/-- What the body of a section holds. -/
abbrev Value : ConfigSection → Type
  | wifi => WifiConfig
  | mqtt => MqttConfig
  | switches => SwitchesConfig
  | sensors => SensorsConfig
  | schedule => Schedule
  | https => HttpsConfig
  | wireguard => WireguardConfig
  | time => TimeSection
  | auth => AuthSection
  | flowAlarm => FlowAlarmConfig
  | webhooks => List WebhookConfig

/-- The section of a configuration. -/
def read : (s : ConfigSection) → Config → s.Value
  | wifi, cfg => cfg.wifi
  | mqtt, cfg => cfg.mqtt
  | switches, cfg => cfg.switches
  | sensors, cfg => cfg.sensors
  | schedule, cfg => cfg.schedule
  | https, cfg => cfg.https
  | wireguard, cfg => cfg.wireguard
  | time, cfg => ⟨cfg.timezone, cfg.sntpServers⟩
  | auth, cfg => ⟨cfg.adminToken⟩
  | flowAlarm, cfg => cfg.flowAlarm
  | webhooks, cfg => cfg.webhooks

/-- A configuration with a section replaced. -/
def put : (s : ConfigSection) → s.Value → Config → Config
  | wifi, new, cfg => { cfg with wifi := new }
  | mqtt, new, cfg => { cfg with mqtt := new }
  | switches, new, cfg => { cfg with switches := new }
  | sensors, new, cfg => { cfg with sensors := new }
  | schedule, new, cfg => { cfg with schedule := new }
  | https, new, cfg => { cfg with https := new }
  | wireguard, new, cfg => { cfg with wireguard := new }
  | time, new, cfg => { cfg with timezone := new.timezone, sntpServers := new.sntpServers }
  | auth, new, cfg => { cfg with adminToken := new.adminToken }
  | flowAlarm, new, cfg => { cfg with flowAlarm := new }
  | webhooks, new, cfg => { cfg with webhooks := new }

/-- The edit of a `PUT` of the section. -/
def apply : (s : ConfigSection) → Config → s.Value → Config
  | wifi => applyWifi
  | mqtt => applyMqtt
  | switches => fun cfg new => { cfg with switches := new }
  | sensors => applySensors
  | schedule => fun cfg new => { cfg with schedule := new }
  | https => applyHttps
  | wireguard => applyWireguard
  | time => applyTime
  | auth => applyAuth
  | flowAlarm => fun cfg new => { cfg with flowAlarm := new }
  | webhooks => fun cfg new => { cfg with webhooks := new.take webhooksMax }

/-- The codec of the body of a section. -/
def serde (codecs : Codecs) : (s : ConfigSection) → Serde s.Value
  | wifi => codecs.wifi
  | mqtt => codecs.mqtt
  | switches => codecs.switches
  | sensors => codecs.sensors
  | schedule => codecs.schedule
  | https => codecs.https
  | wireguard => codecs.wireguard
  | time => codecs.time
  | auth => codecs.auth
  | flowAlarm => codecs.flowAlarm
  | webhooks => codecs.webhooks

/-- The edit of a section is no other section's concern. -/
theorem read_apply_of_ne {s s' : ConfigSection} (h : s' ≠ s) (cfg : Config) (new : s.Value) :
    s'.read (s.apply cfg new) = s'.read cfg := by
  cases s <;> cases s' <;> first | rfl | exact absurd rfl h

/-- The edit of a section agrees with the merge of the whole configuration. -/
theorem read_apply {s : ConfigSection} (h : s ≠ webhooks) (cfg : Config) (new : s.Value) :
    s.read (s.apply cfg new) =
      s.read (cfg.mergePreservingSecrets (s.put new cfg.redactSecretsForApi)) := by
  cases s with
  | wifi | mqtt | switches | sensors | schedule | https | wireguard | time | auth | flowAlarm => rfl
  | webhooks => exact absurd rfl h

end Firmware.ConfigSection

namespace ConfigWrite

open Firmware (ConfigSection)

variable {codecs : Codecs}

/-- A `PUT` of a section makes the edit of the section. -/
theorem sectionEdit_eq (s : ConfigSection) (req : Request) :
    sectionEdit codecs s req = bodyEdit (s.serde codecs) s.apply req := by
  cases s <;> rfl

/-- The configuration behind a successful `PUT` of a section. -/
theorem config_putSection {env : Env} {fw : Firmware} {s : ConfigSection} {req : Request}
    {new : s.Value} (hparse : (s.serde codecs).fromSlice req.body = .ok new)
    (h : (putSection s req).succeeds codecs env fw = true) :
    ((putSection s req).perform codecs env fw).app.config = s.apply fw.app.config new := by
  rw [(perform_of_succeeds h).1]
  simp only [apply, edit?, sectionEdit_eq, bodyEdit_ok hparse]

/-- The configuration behind a successful `PUT` of all of it. -/
theorem config_putConfig {env : Env} {fw : Firmware} {req : Request} {new : Config}
    (hparse : codecs.config.fromSlice req.body = .ok new)
    (h : (putConfig req).succeeds codecs env fw = true) :
    ((putConfig req).perform codecs env fw).app.config =
      fw.app.config.mergePreservingSecrets new := by
  rw [(perform_of_succeeds h).1]
  simp only [apply, edit?, bodyEdit_ok hparse]

end ConfigWrite

end WaterController
