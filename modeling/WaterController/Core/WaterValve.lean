import WaterController.Library.Machine

/-!
# The composite water control

The state machine of the motorised valve.  A turn-on sequence runs the open
motor between two settle windows and then reports the valve open.  A turn-off
sequence does the same with the close motor and then holds the drain output.

Times are milliseconds of the monotonic clock.  The code only subtracts them,
saturating at zero, so natural numbers with their truncated subtraction stand
for its 64-bit integers.  The two configured durations keep their 32 bits.
-/

namespace WaterController

/-! ## Timing -/

/-- The fixed settle window before and after the motor pulse. -/
def settleMs : Nat := 1000

/-- The configurable timing of the valve. -/
structure ValveTiming where
  /-- How long the open or close motor is energised, in seconds. -/
  motorRunSecs : UInt32 := 14
  /-- How long the drain is held after a close, in seconds.  Zero disables it. -/
  drainSecs : UInt32 := 300
deriving DecidableEq, Repr

namespace ValveTiming

/-- The length of the motor pulse. -/
def motorRunMs (t : ValveTiming) : Nat := t.motorRunSecs.toNat * 1000

/-- How long the drain is held. -/
def drainHoldMs (t : ValveTiming) : Nat := t.drainSecs.toNat * 1000

/-- The length of a turn-on or turn-off sequence. -/
def sequenceMs (t : ValveTiming) : Nat := settleMs + t.motorRunMs + settleMs

theorem settleMs_add_motorRunMs_lt (t : ValveTiming) :
    settleMs + t.motorRunMs < t.sequenceMs := by
  simp [sequenceMs, settleMs]

end ValveTiming

/-! ## States and outputs -/

/-- What the valve reports to its users. -/
inductive WaterState where
  | off
  | turningOn
  | on
  | turningOff
deriving DecidableEq, Repr

/-- The levels a tick asks for on the three valve outputs. -/
structure ValveOutputs where
  openMotor : Bool := false
  closeMotor : Bool := false
  drain : Bool := false
deriving DecidableEq, Repr

/-- Where the sequencer is, and since when. -/
inductive Phase where
  | idle
  | turningOn (startMs : Nat)
  | turningOff (startMs : Nat)
  | draining (startMs : Nat)
deriving DecidableEq, Repr

/-- The valve sequencer. -/
structure WaterValve where
  phase : Phase
  /-- The state shown to users.  It changes when a sequence completes. -/
  userState : Bool
  timing : ValveTiming
deriving DecidableEq, Repr

namespace WaterValve

/-! ## Operations -/

/-- A fresh valve: idle and reported closed. -/
def withTiming (timing : ValveTiming) : WaterValve := ⟨.idle, false, timing⟩

/-- Change the timing.  A running sequence is measured against the new one. -/
def setTiming (v : WaterValve) (timing : ValveTiming) : WaterValve := { v with timing }

/-- Set the user state, as a boot does with the persisted one. -/
def restore (v : WaterValve) (on : Bool) : WaterValve := { v with userState := on }

/-- A motor sequence is in progress. -/
def isBusy (v : WaterValve) : Bool :=
  match v.phase with
  | .idle | .draining _ => false
  | .turningOn _ | .turningOff _ => true

/-- The reported state. -/
def state (v : WaterValve) : WaterState :=
  match v.phase with
  | .turningOn _ => .turningOn
  | .turningOff _ => .turningOff
  | .draining _ => .off
  | .idle => if v.userState then .on else .off

/-- Ask for an open valve.  This starts a sequence from a closed idle valve and
from the drain, which it cuts short, and is ignored elsewhere. -/
def turnOn (v : WaterValve) (nowMs : Nat) : WaterValve :=
  match v.phase with
  | .idle => if v.userState then v else { v with phase := .turningOn nowMs }
  | .draining _ => { v with phase := .turningOn nowMs }
  | .turningOn _ | .turningOff _ => v

/-- Ask for a closed valve.  This starts a sequence from an open idle valve and
is ignored elsewhere. -/
def turnOff (v : WaterValve) (nowMs : Nat) : WaterValve :=
  match v.phase with
  | .idle => if v.userState then { v with phase := .turningOff nowMs } else v
  | .turningOn _ | .turningOff _ | .draining _ => v

/-- Advance the sequencer and give the outputs for this tick. -/
def tick (v : WaterValve) (nowMs : Nat) : WaterValve × ValveOutputs :=
  let motorRun := v.timing.motorRunMs
  let sequence := v.timing.sequenceMs
  let drainHold := v.timing.drainHoldMs
  match v.phase with
  | .idle => (v, {})
  | .turningOn startMs =>
      let elapsed := nowMs - startMs
      if elapsed ≥ sequence then
        ({ v with userState := true, phase := .idle }, {})
      else if elapsed < settleMs then (v, {})
      else if elapsed < settleMs + motorRun then (v, { openMotor := true })
      else (v, {})
  | .turningOff startMs =>
      let elapsed := nowMs - startMs
      if elapsed ≥ sequence then
        if drainHold = 0 then
          ({ v with userState := false, phase := .idle }, {})
        else
          ({ v with userState := false, phase := .draining nowMs }, { drain := true })
      else if elapsed < settleMs then (v, {})
      else if elapsed < settleMs + motorRun then (v, { closeMotor := true })
      else (v, {})
  | .draining startMs =>
      let elapsed := nowMs - startMs
      if elapsed ≥ drainHold then ({ v with phase := .idle }, {})
      else (v, { drain := true })

end WaterValve

end WaterController
