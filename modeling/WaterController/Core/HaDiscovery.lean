import Mathlib.Data.List.Basic

/-!
# Home Assistant discovery

Each entity has one retained message that announces it.  The message goes to
`<discovery_prefix>/<component>/<unique_id>/config`, and its payload tells the
receiver which topics the entity uses.  A payload is kept as the record that
the code serialises.
-/

namespace WaterController

/-! ## Entities -/

/-- What all the messages of a device have in common. -/
structure DeviceContext where
  baseTopic : String
  discoveryPrefix : String
  deviceId : String
  friendlyName : String
  swVersion : String
  manufacturer : String
  model : String
deriving DecidableEq, Repr

structure Sensor where
  key : String
  name : String
  unit : Option String
  deviceClass : Option String
  stateClass : Option String
  icon : Option String
  precision : Option UInt8
deriving DecidableEq, Repr

structure Switch where
  key : String
  name : String
deriving DecidableEq, Repr

structure BinarySensor where
  key : String
  name : String
  deviceClass : Option String
  icon : Option String
deriving DecidableEq, Repr

/-! ## Payloads -/

structure DeviceBlock where
  identifiers : List String
  name : String
  manufacturer : String
  model : String
  swVersion : String
deriving DecidableEq, Repr

structure SensorPayload where
  name : String
  uniqueId : String
  objectId : String
  stateTopic : String
  unitOfMeasurement : Option String
  deviceClass : Option String
  stateClass : Option String
  icon : Option String
  suggestedDisplayPrecision : Option UInt8
  availabilityTopic : String
  payloadAvailable : String
  payloadNotAvailable : String
  device : DeviceBlock
deriving DecidableEq, Repr

structure SwitchPayload where
  name : String
  uniqueId : String
  objectId : String
  stateTopic : String
  commandTopic : String
  payloadOn : String
  payloadOff : String
  stateOn : String
  stateOff : String
  optimistic : Bool
  availabilityTopic : String
  payloadAvailable : String
  payloadNotAvailable : String
  device : DeviceBlock
deriving DecidableEq, Repr

structure BinarySensorPayload where
  name : String
  uniqueId : String
  objectId : String
  stateTopic : String
  payloadOn : String
  payloadOff : String
  deviceClass : Option String
  icon : Option String
  availabilityTopic : String
  payloadAvailable : String
  payloadNotAvailable : String
  device : DeviceBlock
deriving DecidableEq, Repr

inductive DiscoveryPayload where
  | sensor (p : SensorPayload)
  | switch (p : SwitchPayload)
  | binarySensor (p : BinarySensorPayload)
deriving DecidableEq, Repr

structure DiscoveryMsg where
  topic : String
  payload : DiscoveryPayload
deriving DecidableEq, Repr

/-! ## Messages -/

namespace DeviceContext

def deviceBlock (ctx : DeviceContext) : DeviceBlock where
  identifiers := [ctx.deviceId]
  name := ctx.friendlyName
  manufacturer := ctx.manufacturer
  model := ctx.model
  swVersion := ctx.swVersion

def availabilityTopic (ctx : DeviceContext) : String := ctx.baseTopic ++ "/status"

def sensorStateTopic (ctx : DeviceContext) (key : String) : String :=
  ctx.baseTopic ++ "/" ++ key ++ "/state"

def switchStateTopic (ctx : DeviceContext) (key : String) : String :=
  ctx.baseTopic ++ "/" ++ key ++ "/state"

def switchCommandTopic (ctx : DeviceContext) (key : String) : String :=
  ctx.baseTopic ++ "/" ++ key ++ "/set"

def uniqueId (ctx : DeviceContext) (key : String) : String := ctx.deviceId ++ "_" ++ key

def sensor (ctx : DeviceContext) (s : Sensor) : DiscoveryMsg where
  topic := ctx.discoveryPrefix ++ "/sensor/" ++ ctx.uniqueId s.key ++ "/config"
  payload := .sensor {
    name := s.name
    uniqueId := ctx.uniqueId s.key
    objectId := ctx.uniqueId s.key
    stateTopic := ctx.sensorStateTopic s.key
    unitOfMeasurement := s.unit
    deviceClass := s.deviceClass
    stateClass := s.stateClass
    icon := s.icon
    suggestedDisplayPrecision := s.precision
    availabilityTopic := ctx.availabilityTopic
    payloadAvailable := "online"
    payloadNotAvailable := "offline"
    device := ctx.deviceBlock }

def binarySensor (ctx : DeviceContext) (s : BinarySensor) : DiscoveryMsg where
  topic := ctx.discoveryPrefix ++ "/binary_sensor/" ++ ctx.uniqueId s.key ++ "/config"
  payload := .binarySensor {
    name := s.name
    uniqueId := ctx.uniqueId s.key
    objectId := ctx.uniqueId s.key
    stateTopic := ctx.sensorStateTopic s.key
    payloadOn := "ON"
    payloadOff := "OFF"
    deviceClass := s.deviceClass
    icon := s.icon
    availabilityTopic := ctx.availabilityTopic
    payloadAvailable := "online"
    payloadNotAvailable := "offline"
    device := ctx.deviceBlock }

def switch (ctx : DeviceContext) (s : Switch) : DiscoveryMsg where
  topic := ctx.discoveryPrefix ++ "/switch/" ++ ctx.uniqueId s.key ++ "/config"
  payload := .switch {
    name := s.name
    uniqueId := ctx.uniqueId s.key
    objectId := ctx.uniqueId s.key
    stateTopic := ctx.switchStateTopic s.key
    commandTopic := ctx.switchCommandTopic s.key
    payloadOn := "ON"
    payloadOff := "OFF"
    stateOn := "ON"
    stateOff := "OFF"
    optimistic := false
    availabilityTopic := ctx.availabilityTopic
    payloadAvailable := "online"
    payloadNotAvailable := "offline"
    device := ctx.deviceBlock }

end DeviceContext

/-- The messages of all the entities of the device. -/
def allMessages (ctx : DeviceContext) : List DiscoveryMsg :=
  [ctx.sensor {
      key := "battery", name := "Battery", unit := some "V", deviceClass := some "voltage"
      stateClass := some "measurement", icon := none, precision := some 2 },
    ctx.sensor {
      key := "pressure", name := "Pressure", unit := some "bar", deviceClass := some "pressure"
      stateClass := some "measurement", icon := none, precision := some 2 },
    ctx.sensor {
      key := "water_flow", name := "Water flow", unit := some "L/h", deviceClass := some "water"
      stateClass := some "measurement", icon := some "mdi:water", precision := some 1 },
    ctx.sensor {
      key := "water_total", name := "Total water", unit := some "L", deviceClass := some "water"
      stateClass := some "total_increasing", icon := some "mdi:water", precision := some 3 },
    ctx.sensor {
      key := "loop_time", name := "Loop time", unit := some "ms", deviceClass := none
      stateClass := some "measurement", icon := some "mdi:timer-outline", precision := some 0 },
    ctx.sensor {
      key := "wifi_rssi", name := "WiFi signal", unit := some "dBm"
      deviceClass := some "signal_strength", stateClass := some "measurement", icon := none
      precision := some 0 },
    ctx.sensor {
      key := "free_heap", name := "Free heap", unit := some "B", deviceClass := some "data_size"
      stateClass := some "measurement", icon := some "mdi:memory", precision := some 0 },
    ctx.sensor {
      key := "uptime", name := "Uptime", unit := some "s", deviceClass := some "duration"
      stateClass := some "total_increasing", icon := some "mdi:timer-outline"
      precision := some 0 },
    ctx.sensor {
      key := "reset_reason", name := "Reset reason", unit := none, deviceClass := none
      stateClass := none, icon := some "mdi:restart-alert", precision := none },
    ctx.switch { key := "sprinkler_1", name := "Riego exterior" },
    ctx.switch { key := "sprinkler_2", name := "Riego mobil" },
    ctx.switch { key := "water_control", name := "Water control" },
    ctx.binarySensor {
      key := "flow_alarm", name := "Flow alarm", deviceClass := some "problem"
      icon := some "mdi:water-alert" }]

end WaterController
