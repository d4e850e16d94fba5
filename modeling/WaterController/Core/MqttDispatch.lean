import WaterController.Core.App
import WaterController.Core.HaDiscovery
import WaterController.Library.Text

/-!
# The MQTT integration

On a connect the integration announces the entities, subscribes to the command
topics of the switches and installs the handler of the messages that come in.
The handler keeps the base topic it was installed with.  A publish of the state
reads the configuration again.

The client is what the integration made of it so far: the messages it
published, its subscriptions and its handler.
-/

namespace WaterController

/-! ## Messages -/

structure PublishOpts where
  retained : Bool
  qos : UInt8
deriving DecidableEq, Repr

def retained : PublishOpts := { retained := true, qos := 1 }

/-- What a message carries: the record of an announcement, or a text. -/
inductive MqttPayload where
  | discovery (p : DiscoveryPayload)
  | text (s : String)
deriving DecidableEq, Repr

structure Publication where
  topic : String
  payload : MqttPayload
  opts : PublishOpts
deriving DecidableEq, Repr

/-- `{x:.places}`: the exact value to a number of decimals, at least one. -/
def fixed (places : Nat) (x : Float32) : String :=
  let bits := x.toBits.toNat
  let sign := if bits / 2 ^ 31 = 1 then "-" else ""
  let exponent := bits / 2 ^ 23 % 256
  let fraction := bits % 2 ^ 23
  if exponent = 255 then
    if fraction = 0 then sign ++ "inf" else "NaN"
  else
    -- subnormals have no leading one and the exponent of the first normals
    let mantissa := if exponent = 0 then fraction else 2 ^ 23 + fraction
    let scaled := roundHalfEven (10 ^ places * mantissa * 2 ^ (exponent - 1)) 149
    let decimals := (toString (scaled % 10 ^ places)).toList.leftpad places '0'
    sign ++ toString (scaled / 10 ^ places) ++ "." ++ String.ofList decimals

/-- A text that fills its width is not padded. -/
theorem ofList_leftpad_of_le {n : Nat} {s : String} (h : n ≤ s.toList.length) :
    String.ofList (s.toList.leftpad n '0') = s := by
  rw [List.leftpad, Nat.sub_eq_zero_of_le h, List.replicate_zero, List.nil_append,
    String.ofList_toList]

/-- One decimal is what the alarm event writes. -/
theorem fixed_one (x : Float32) : fixed 1 x = fixed1 x := by
  have hpad : ∀ n : Nat, String.ofList ((toString n).toList.leftpad 1 '0') = toString n := by
    intro n
    refine ofList_leftpad_of_le (List.length_pos_iff.mpr ?_)
    simp [toString, Nat.toDigits_ne_nil]
  simp only [fixed, fixed1, hpad, pow_one]

/-! ## Commands -/

/-- The payloads that switch on: `ON`, `on`, `1` and `true`. -/
def onPayloads : List Bytes := ["ON", "on", "1", "true"].map asciiBytes

/-- The payloads that switch off: `OFF`, `off`, `0` and `false`. -/
def offPayloads : List Bytes := ["OFF", "off", "0", "false"].map asciiBytes

def parsePayload (payload : Bytes) : Option Bool :=
  if payload ∈ onPayloads then some true
  else if payload ∈ offPayloads then some false
  else none

/-- The command a message carries, if its topic is a command topic of the device. -/
def parseCommand (baseTopic topic : String) (payload : Bytes) : Option SwitchCommand := do
  let rest ← Text.stripPrefix topic (baseTopic ++ "/")
  let (key, suffix) ← Text.splitOnce rest '/'
  if suffix ≠ "set" then none
  else
    let on ← parsePayload payload
    if key = "sprinkler_1" then some (.sprinkler1 on)
    else if key = "sprinkler_2" then some (.sprinkler2 on)
    else if key = "water_control" then some (.waterControl on)
    else none

/-! ## The integration -/

/-- The client.  The handler says what command a message is, if any. -/
structure MqttClient where
  published : List Publication
  subscriptions : List String
  handler : Option (String → Bytes → Option SwitchCommand)

structure MqttIntegration where
  app : App
  mqtt : MqttClient
  firmwareVersion : String

/-- The switches that take commands. -/
def commandKeys : List String := ["sprinkler_1", "sprinkler_2", "water_control"]

namespace MqttIntegration

def context (m : MqttIntegration) : DeviceContext where
  baseTopic := m.app.config.mqtt.baseTopic
  discoveryPrefix := m.app.config.mqtt.haDiscoveryPrefix
  deviceId := m.app.config.wifi.hostname
  friendlyName := "Doremorwater"
  swVersion := m.firmwareVersion
  manufacturer := "homebrew"
  model := "watercontroller"

def publish (m : MqttIntegration) (messages : List Publication) : MqttIntegration :=
  { m with mqtt := { m.mqtt with published := m.mqtt.published ++ messages } }

/-- Announce the entities and the device, subscribe to the command topics, and
install the handler. -/
def onConnect (m : MqttIntegration) : MqttIntegration :=
  let cfg := m.app.config
  let ctx := m.context
  let m := m.publish ((allMessages ctx).map fun msg => ⟨msg.topic, .discovery msg.payload, retained⟩)
  let m := m.publish [⟨cfg.mqtt.baseTopic ++ "/status", .text "online", retained⟩]
  { m with mqtt :=
    { m.mqtt with
      subscriptions := m.mqtt.subscriptions ++ commandKeys.map ctx.switchCommandTopic
      handler := some (parseCommand cfg.mqtt.baseTopic) } }

/-- The command a message that comes in is routed as. -/
def routes (m : MqttIntegration) (topic : String) (payload : Bytes) : Option SwitchCommand :=
  match m.mqtt.handler with
  | some handler => handler topic payload
  | none => none

/-- A message comes in.  One that is no command is ignored, and the outcome of a
command is only logged. -/
def deliver (m : MqttIntegration) (env : Env) (topic : String) (payload : Bytes) :
    MqttIntegration :=
  match m.routes topic payload with
  | some cmd => { m with app := (m.app.switchCommand env cmd).1 }
  | none => m

/-- The reading of a sensor, if there is one. -/
def sensorMessage (ctx : DeviceContext) (key : String) (text : Option String) :
    List Publication :=
  match text with
  | some s => [⟨ctx.sensorStateTopic key, .text s, retained⟩]
  | none => []

/-- `ON` or `OFF`. -/
def onOff (on : Bool) : String := if on then "ON" else "OFF"

/-- The state of a switch. -/
def switchMessage (ctx : DeviceContext) (key : String) (on : Bool) : Publication :=
  ⟨ctx.switchStateTopic key, .text (onOff on), retained⟩

/-- The messages of one publish of the state.  A water control under way counts
as on. -/
def stateMessages (ctx : DeviceContext) (snap : DeviceSnapshot) : List Publication :=
  sensorMessage ctx "battery" (snap.sensors.batteryV.map (fixed 2)) ++
  sensorMessage ctx "pressure" (snap.sensors.pressureBar.map (fixed 2)) ++
  sensorMessage ctx "water_flow" (snap.sensors.flowLph.map (fixed 1)) ++
  sensorMessage ctx "water_total" (snap.sensors.totalL.map (fixed 3)) ++
  sensorMessage ctx "wifi_rssi" (snap.network.wifiRssiDbm.map toString) ++
  sensorMessage ctx "free_heap" (snap.diagnostics.freeHeapBytes.map toString) ++
  sensorMessage ctx "uptime" (some (toString (snap.uptimeMs / 1000))) ++
  sensorMessage ctx "reset_reason" snap.diagnostics.resetReason ++
  [switchMessage ctx "sprinkler_1" snap.switches.sprinkler1,
    switchMessage ctx "sprinkler_2" snap.switches.sprinkler2,
    switchMessage ctx "water_control"
      (snap.switches.waterControl = .on || snap.switches.waterControl = .transitioning),
    ⟨ctx.sensorStateTopic "flow_alarm", .text (onOff snap.alarm.active), retained⟩]

/-- Publish the state, under the base topic that is configured now. -/
def publishState (m : MqttIntegration) (snap : DeviceSnapshot) : MqttIntegration :=
  m.publish (stateMessages m.context snap)

def publishOffline (m : MqttIntegration) : MqttIntegration :=
  m.publish [⟨m.app.config.mqtt.baseTopic ++ "/status", .text "offline", retained⟩]

end MqttIntegration

end WaterController
