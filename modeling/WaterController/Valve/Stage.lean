import WaterController.Core.WaterValve

/-!
# What the valve is for

The specification of the water control, in its own terms.  A valve is at one
of five *stages*.  A request moves it when the stage accepts it, time moves it
on, and the outputs are read off the stage.  Unlike the record the code keeps,
a stage cannot disagree with itself: the reported state is a function of it.

The notion the command results rest on is the *target* of a stage, the state it
ends in if nobody asks for anything else.  A valve that is not busy takes every
request (`target_request`), time never changes a target (`target_elapse`), and
a valve that is not busy shows its target (`shown_eq_target`).
-/

namespace WaterController

/-- The stages of the valve. -/
inductive Stage where
  | closed
  | opening (since : Nat)
  | opened
  | closing (since : Nat)
  | draining (since : Nat)
deriving DecidableEq, Repr

namespace Stage

/-- The state shown to users: it changes when a sequence completes. -/
def shown : Stage → Bool
  | opened | closing _ => true
  | closed | opening _ | draining _ => false

/-- The state the stage ends in if nobody asks for anything else. -/
def target : Stage → Bool
  | opening _ | opened => true
  | closed | closing _ | draining _ => false

/-- A motor sequence is in progress. -/
def busy : Stage → Bool
  | opening _ | closing _ => true
  | closed | opened | draining _ => false

/-- A request for `on` at `now`.  A busy stage ignores it. -/
def request (st : Stage) (on : Bool) (now : Nat) : Stage :=
  match st, on with
  | closed, true | draining _, true => opening now
  | opened, false => closing now
  | st, _ => st

/-- The stage after time has moved on to `now`. -/
def elapse (t : ValveTiming) (now : Nat) : Stage → Stage
  | opening s => if t.sequenceMs ≤ now - s then opened else opening s
  | closing s =>
      if t.sequenceMs ≤ now - s then
        if t.drainHoldMs = 0 then closed else draining now
      else closing s
  | draining s => if t.drainHoldMs ≤ now - s then closed else draining s
  | st => st

/-- A time since the start of a sequence that lies in the motor pulse. -/
def InPulse (t : ValveTiming) (elapsed : Nat) : Prop :=
  settleMs ≤ elapsed ∧ elapsed < settleMs + t.motorRunMs

instance (t : ValveTiming) (elapsed : Nat) : Decidable (InPulse t elapsed) :=
  inferInstanceAs (Decidable (_ ∧ _))

/-- The pulse ends before the sequence does. -/
theorem not_inPulse_of_le {t : ValveTiming} {elapsed : Nat} (h : t.sequenceMs ≤ elapsed) :
    ¬ InPulse t elapsed :=
  fun hp => absurd (Nat.lt_trans hp.2 t.settleMs_add_motorRunMs_lt) (Nat.not_lt.mpr h)

/-- The outputs while time moves a stage on to `now`.  The open motor runs only
while opening, the close motor only while closing, and the drain only once the
closing is over. -/
def drive (t : ValveTiming) (now : Nat) : Stage → ValveOutputs
  | opening s => { openMotor := decide (InPulse t (now - s)) }
  | closing s =>
      if t.sequenceMs ≤ now - s then { drain := decide (t.drainHoldMs ≠ 0) }
      else { closeMotor := decide (InPulse t (now - s)) }
  | draining s => { drain := decide (¬ t.drainHoldMs ≤ now - s) }
  | closed | opened => {}

/-! ## Targets -/

/-- A stage that is not busy takes every request. -/
theorem target_request {st : Stage} (h : st.busy = false) (on : Bool) (now : Nat) :
    (st.request on now).target = on := by
  cases st <;> cases on <;> simp_all [busy, request, target]

/-- A busy stage ignores every request. -/
theorem request_of_busy {st : Stage} (h : st.busy = true) (on : Bool) (now : Nat) :
    st.request on now = st := by
  cases st <;> cases on <;> simp_all [busy, request]

/-- A request for the target changes nothing. -/
theorem request_target (st : Stage) (now : Nat) : st.request st.target now = st := by
  cases st <;> rfl

/-- Time never changes a target. -/
@[simp] theorem target_elapse (t : ValveTiming) (now : Nat) (st : Stage) :
    (st.elapse t now).target = st.target := by
  cases st <;> simp only [elapse] <;> (repeat' split) <;> rfl

/-- A stage that is not busy shows its target. -/
theorem shown_eq_target {st : Stage} (h : st.busy = false) : st.shown = st.target := by
  cases st <;> simp_all [busy, shown, target]

/-- Time does not make a stage busy. -/
theorem busy_elapse {st : Stage} (h : st.busy = false) (t : ValveTiming) (now : Nat) :
    (st.elapse t now).busy = false := by
  cases st <;> simp only [elapse] <;> (repeat' split) <;> simp_all [busy]

/-- The start of the sequence in progress. -/
def since? : Stage → Option Nat
  | opening s | closing s => some s
  | closed | opened | draining _ => none

/-- A sequence is over once it has lasted as long as the timing says. -/
theorem not_busy_elapse {st : Stage} {t : ValveTiming} {now : Nat}
    (h : ∀ s ∈ st.since?, s + t.sequenceMs ≤ now) : (st.elapse t now).busy = false := by
  cases st with
  | closed | opened => rfl
  | opening s =>
      have hs : s + t.sequenceMs ≤ now := h s rfl
      have hd : t.sequenceMs ≤ now - s := by omega
      simp [elapse, hd, busy]
  | closing s =>
      have hs : s + t.sequenceMs ≤ now := h s rfl
      have hd : t.sequenceMs ≤ now - s := by omega
      simp only [elapse, if_pos hd]
      split <;> rfl
  | draining s =>
      simp only [elapse]
      split <;> rfl

/-- Time does not move the start of the sequence in progress. -/
theorem since?_elapse {st : Stage} {t : ValveTiming} {now s : Nat}
    (h : s ∈ (st.elapse t now).since?) : s ∈ st.since? := by
  cases st with
  | closed | opened => exact h
  | opening _ | closing _ | draining _ =>
      simp only [elapse] at h
      repeat' split at h
      all_goals first | exact h | simp [since?] at h

/-- A request starts a sequence at its own time, or leaves the one in progress. -/
theorem since?_request {st : Stage} {on : Bool} {now s : Nat}
    (h : s ∈ (st.request on now).since?) : s = now ∨ s ∈ st.since? := by
  cases st <;> cases on <;> simp_all [request, since?]

/-- No motor runs at a stage that is not busy. -/
theorem drive_of_not_busy {st : Stage} (h : st.busy = false) (t : ValveTiming) (now : Nat) :
    (st.drive t now).openMotor = false ∧ (st.drive t now).closeMotor = false := by
  cases st <;> simp_all [busy, drive]

end Stage

end WaterController
