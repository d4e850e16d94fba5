import WaterController.Core.Traits
import WaterController.Core.WaterValve

/-!
# The shared device state

The snapshot that the tick refreshes and that the API, the MQTT publisher and
the alarm rule read.
-/

namespace WaterController

structure Sensors where
  batteryV : Option Float32 := none
  pressureBar : Option Float32 := none
  flowLph : Option Float32 := none
  totalL : Option Float32 := none
  loopTimeMs : Option UInt32 := none
deriving DecidableEq

/-- The reported state of the water control. -/
inductive WaterControlState where
  | off
  | on
  | transitioning
deriving DecidableEq, Repr

def WaterControlState.ofWaterState : WaterState → WaterControlState
  | .off => .off
  | .on => .on
  | .turningOn | .turningOff => .transitioning

theorem WaterControlState.ofWaterState_eq_on {s : WaterState} :
    ofWaterState s = .on ↔ s = .on := by
  cases s <;> simp [ofWaterState]

structure Switches where
  sprinkler1 : Bool := false
  sprinkler2 : Bool := false
  waterControl : WaterControlState := .off
deriving DecidableEq, Repr

structure Network where
  wifi : Option WifiState := none
  mqttConnected : Bool := false
  wifiRssiDbm : Option Int8 := none
deriving DecidableEq

structure Diagnostics where
  freeHeapBytes : Option UInt32 := none
  minFreeHeapBytes : Option UInt32 := none
  resetReason : Option String := none
deriving DecidableEq, Repr

/-- The latched flow alarm and the counter of the current window. -/
structure FlowAlarm where
  active : Bool := false
  elapsedSecs : UInt32 := 0
deriving DecidableEq, Repr

/-- One recorded alarm. -/
structure AlarmEvent where
  epochSecs : Nat
  uptimeMs : Nat
  flowLph : Float32
  durationSecs : UInt32
deriving DecidableEq

structure DeviceSnapshot where
  sensors : Sensors := {}
  switches : Switches := {}
  network : Network := {}
  diagnostics : Diagnostics := {}
  alarm : FlowAlarm := {}
  uptimeMs : Nat := 0
  firmwareVersion : String := ""
deriving DecidableEq

/-- The flow the alarm rule sees: no reading counts as zero. -/
def DeviceSnapshot.flow (s : DeviceSnapshot) : Float32 := s.sensors.flowLph.getD 0.0

end WaterController
