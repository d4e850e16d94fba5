import Mathlib.Data.List.Basic

/-!
# Timed switches

An output with an optional auto-off timer.  Durations are milliseconds.
-/

namespace WaterController

/-- A switch with an auto-off timer. -/
structure TimedSwitch where
  on : Bool
  onSince : Option Nat
  autoOff : Option Nat
  /-- Replaces `autoOff` for the current activation only. -/
  overrideAutoOff : Option Nat
deriving DecidableEq, Repr

namespace TimedSwitch

def new (autoOff : Option Nat) : TimedSwitch := ⟨false, none, autoOff, none⟩

def isOn (s : TimedSwitch) : Bool := s.on

def setAutoOff (s : TimedSwitch) (autoOff : Option Nat) : TimedSwitch := { s with autoOff }

/-- Turn on with the configured auto-off.  Already on: nothing happens. -/
def turnOn (s : TimedSwitch) (nowMs : Nat) : TimedSwitch :=
  if s.on then s else { s with on := true, onSince := some nowMs, overrideAutoOff := none }

/-- Turn on with an auto-off of its own for this activation.  Already on: nothing
happens. -/
def turnOnFor (s : TimedSwitch) (nowMs duration : Nat) : TimedSwitch :=
  if s.on then s
  else { s with on := true, onSince := some nowMs, overrideAutoOff := some duration }

def turnOff (s : TimedSwitch) : TimedSwitch :=
  { s with on := false, onSince := none, overrideAutoOff := none }

/-- Advance time.  The flag says that this tick fired the auto-off. -/
def tick (s : TimedSwitch) (nowMs : Nat) : TimedSwitch × Bool :=
  if !s.on then (s, false)
  else
    match s.overrideAutoOff.or s.autoOff with
    | none => (s, false)
    | some d =>
        match s.onSince with
        | none => (s, false)
        | some t₀ => if nowMs - t₀ ≥ d then (s.turnOff, true) else (s, false)

end TimedSwitch

end WaterController
