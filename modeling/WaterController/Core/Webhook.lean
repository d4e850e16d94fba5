import WaterController.Core.Traits
import WaterController.Library.Replace

/-!
# Webhook events and targets

The events the core emits, with the variables a body template may use, the
configured targets, and the rendering of a template.
-/

namespace WaterController

inductive EventKind where
  | flowAlarmFire
  | flowAlarmClear
  | boot
  | panicBoot
  | scheduleFire
  | wifiFlap
  | mqttDown
  | otaCompleted
  | otaRollback
  | waterBudgetExceeded
  | configChanged
  | manualValveOff
deriving DecidableEq, Repr

namespace EventKind

/-- The name used on the wire. -/
def asStr : EventKind → String
  | flowAlarmFire => "flow_alarm.fire"
  | flowAlarmClear => "flow_alarm.clear"
  | boot => "boot"
  | panicBoot => "panic_boot"
  | scheduleFire => "schedule.fire"
  | wifiFlap => "wifi.flap"
  | mqttDown => "mqtt.down"
  | otaCompleted => "ota.completed"
  | otaRollback => "ota.rollback"
  | waterBudgetExceeded => "water_budget.exceeded"
  | configChanged => "config.changed"
  | manualValveOff => "manual.valve_off"

def label : EventKind → String
  | flowAlarmFire => "Flow alarm fired"
  | flowAlarmClear => "Flow alarm cleared"
  | boot => "Device booted"
  | panicBoot => "Device rebooted after a crash"
  | scheduleFire => "Schedule rule fired"
  | wifiFlap => "WiFi reconnect storm"
  | mqttDown => "MQTT broker unreachable"
  | otaCompleted => "OTA update completed"
  | otaRollback => "OTA rolled back"
  | waterBudgetExceeded => "Water budget exceeded"
  | configChanged => "Configuration changed"
  | manualValveOff => "Water valve manually closed"

end EventKind

/-! ## Targets -/

inductive WebhookKind where
  | generic
  | slack
  | discord
  | homeAssistant
deriving DecidableEq, Repr

structure HeaderEntry where
  name : String
  value : String
deriving DecidableEq, Repr

structure WebhookConfig where
  enabled : Bool
  url : String
  kind : WebhookKind
  events : List EventKind
  method : String
  headers : List HeaderEntry
  bodyTemplate : String
deriving DecidableEq, Repr

/-- The cap on the number of configured webhooks. -/
def webhooksMax : Nat := 4

/-! ## Events -/

/-- One event on its way to the dispatcher.  Its variables are a map that is
ordered by key. -/
structure WebhookEvent where
  kind : EventKind
  vars : Std.TreeMap String String

namespace WebhookEvent

def new (kind : EventKind) : WebhookEvent := ⟨kind, ∅⟩

def withVar (ev : WebhookEvent) (key value : String) : WebhookEvent :=
  { ev with vars := ev.vars.insert key value }

/-- Fill in a variable the caller has not set. -/
def fill (ev : WebhookEvent) (key value : String) : WebhookEvent :=
  { ev with vars := ev.vars.insertIfNew key value }

end WebhookEvent

/-! ## Body templates -/

/-- `str::replace`. -/
def strReplace (s pattern text : String) : String :=
  String.ofList (Replace.replace id pattern.toList text.toList s.toList)

/-- The key between two pairs of braces. -/
def placeholder (key : String) : String := "\x7b\x7b" ++ key ++ "\x7d\x7d"

/-- Replace the placeholders of the variables, one variable after the other. -/
def renderTemplate (template : String) (vars : Std.TreeMap String String) : String :=
  vars.toList.foldl (fun out kv => strReplace out (placeholder kv.1) kv.2) template

end WaterController
