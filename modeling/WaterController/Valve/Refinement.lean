import WaterController.Valve.Stage

/-!
# The sequencer refines the stages

The record the code keeps has a phase and a user state, and two places decide
on them: the application looks at `isBusy`, the valve matches on phase and user
state again.  `WaterValve.Coupled` is what every reachable record satisfies,
that the phase of a running sequence or of the drain determines the user state.
On coupled records the code does what `Stage` says: `refines` is the simulation
of one step, and `stage_run` follows it along every run.
-/

namespace WaterController

open Machines (Machine)

/-! ## The two machines -/

/-- What can happen to a valve. -/
inductive ValveOp where
  | turnOn (nowMs : Nat)
  | turnOff (nowMs : Nat)
  | setTiming (timing : ValveTiming)
  | tick (nowMs : Nat)
deriving DecidableEq, Repr

/-- The time an operation carries, if it reads the clock. -/
def ValveOp.nowMs? : ValveOp → Option Nat
  | .turnOn t | .turnOff t | .tick t => some t
  | .setTiming _ => none

/-- The valve of the code.  Only a tick drives outputs. -/
def valveMachine : Machine WaterValve ValveOp (Option ValveOutputs) where
  step v
    | .turnOn t => (v.turnOn t, none)
    | .turnOff t => (v.turnOff t, none)
    | .setTiming timing => (v.setTiming timing, none)
    | .tick t => ((v.tick t).1, some (v.tick t).2)

/-- The specification: a stage and the timing in force. -/
def stageMachine : Machine (Stage × ValveTiming) ValveOp (Option ValveOutputs) where
  step s
    | .turnOn t => ((s.1.request true t, s.2), none)
    | .turnOff t => ((s.1.request false t, s.2), none)
    | .setTiming timing => ((s.1, timing), none)
    | .tick t => ((s.1.elapse s.2 t, s.2), some (s.1.drive s.2 t))

@[simp] theorem valveMachine_turnOn (v : WaterValve) (t : Nat) :
    valveMachine.next v (.turnOn t) = v.turnOn t := rfl

@[simp] theorem valveMachine_turnOff (v : WaterValve) (t : Nat) :
    valveMachine.next v (.turnOff t) = v.turnOff t := rfl

@[simp] theorem valveMachine_setTiming (v : WaterValve) (timing : ValveTiming) :
    valveMachine.next v (.setTiming timing) = v.setTiming timing := rfl

@[simp] theorem valveMachine_tick (v : WaterValve) (t : Nat) :
    valveMachine.next v (.tick t) = (v.tick t).1 := rfl

namespace WaterValve

/-- A busy valve ignores both commands. -/
theorem turn_of_isBusy {v : WaterValve} (h : v.isBusy = true) (t : Nat) :
    v.turnOn t = v ∧ v.turnOff t = v := by
  obtain ⟨phase, userState, timing⟩ := v
  cases phase with
  | idle | draining s => cases h
  | turningOn s | turningOff s => exact ⟨rfl, rfl⟩

/-! ## What a tick can do -/

/-- Everything a tick can do, one constructor for each way through its code. -/
inductive TickStep (v : WaterValve) (now : Nat) : WaterValve → ValveOutputs → Prop where
  | idle : v.phase = .idle → TickStep v now v {}
  | opening (s : Nat) : v.phase = .turningOn s → now - s < v.timing.sequenceMs →
      TickStep v now v { openMotor := decide (Stage.InPulse v.timing (now - s)) }
  | opened (s : Nat) : v.phase = .turningOn s → v.timing.sequenceMs ≤ now - s →
      TickStep v now { v with userState := true, phase := .idle } {}
  | closing (s : Nat) : v.phase = .turningOff s → now - s < v.timing.sequenceMs →
      TickStep v now v { closeMotor := decide (Stage.InPulse v.timing (now - s)) }
  | closedDry (s : Nat) : v.phase = .turningOff s → v.timing.sequenceMs ≤ now - s →
      v.timing.drainHoldMs = 0 → TickStep v now { v with userState := false, phase := .idle } {}
  | closedWet (s : Nat) : v.phase = .turningOff s → v.timing.sequenceMs ≤ now - s →
      v.timing.drainHoldMs ≠ 0 →
      TickStep v now { v with userState := false, phase := .draining now } { drain := true }
  | draining (s : Nat) : v.phase = .draining s → now - s < v.timing.drainHoldMs →
      TickStep v now v { drain := true }
  | drained (s : Nat) : v.phase = .draining s → v.timing.drainHoldMs ≤ now - s →
      TickStep v now { v with phase := .idle } {}

/-- The outputs of the code inside a sequence: low, motor, low. -/
private theorem settle_pulse (t : ValveTiming) (elapsed : Nat) {α : Type*} (low high : α) :
    (if elapsed < settleMs then low
      else if elapsed < settleMs + t.motorRunMs then high else low) =
      if Stage.InPulse t elapsed then high else low := by
  by_cases hs : elapsed < settleMs
  · have hout : ¬ Stage.InPulse t elapsed := fun h => absurd h.1 (Nat.not_le.mpr hs)
    rw [if_pos hs, if_neg hout]
  · have hin : Stage.InPulse t elapsed ↔ elapsed < settleMs + t.motorRunMs :=
      ⟨fun h => h.2, fun h => ⟨Nat.le_of_not_lt hs, h⟩⟩
    simp only [if_neg hs, hin]

theorem tick_step (v : WaterValve) (now : Nat) : TickStep v now (v.tick now).1 (v.tick now).2 := by
  cases hp : v.phase with
  | idle =>
      simp only [tick, hp]
      exact .idle hp
  | turningOn s =>
      simp only [tick, hp, ge_iff_le, settle_pulse]
      by_cases hd : v.timing.sequenceMs ≤ now - s
      · rw [if_pos hd]
        exact .opened s hp hd
      · have hstep := TickStep.opening s hp (Nat.lt_of_not_le hd)
        rw [if_neg hd]
        by_cases hm : Stage.InPulse v.timing (now - s) <;> simpa [hm] using hstep
  | turningOff s =>
      simp only [tick, hp, ge_iff_le, settle_pulse]
      by_cases hd : v.timing.sequenceMs ≤ now - s
      · rw [if_pos hd]
        by_cases hdry : v.timing.drainHoldMs = 0
        · rw [if_pos hdry]
          exact .closedDry s hp hd hdry
        · rw [if_neg hdry]
          exact .closedWet s hp hd hdry
      · have hstep := TickStep.closing s hp (Nat.lt_of_not_le hd)
        rw [if_neg hd]
        by_cases hm : Stage.InPulse v.timing (now - s) <;> simpa [hm] using hstep
  | draining s =>
      simp only [tick, hp, ge_iff_le]
      by_cases hd : v.timing.drainHoldMs ≤ now - s
      · rw [if_pos hd]
        exact .drained s hp hd
      · rw [if_neg hd]
        exact .draining s hp (Nat.lt_of_not_le hd)

theorem TickStep.timing {v v' : WaterValve} {now : Nat} {o : ValveOutputs}
    (h : TickStep v now v' o) : v'.timing = v.timing := by
  cases h <;> rfl

/-- A tick leaves the timing alone. -/
@[simp] theorem tick_timing (v : WaterValve) (now : Nat) : (v.tick now).1.timing = v.timing :=
  (v.tick_step now).timing

/-! ## Records that cannot disagree with themselves -/

/-- The phase of a running sequence or of the drain determines the user
state. -/
def Coupled (v : WaterValve) : Prop :=
  match v.phase with
  | .idle => True
  | .turningOn _ => v.userState = false
  | .turningOff _ => v.userState = true
  | .draining _ => v.userState = false

/-- A valve at boot is coupled, whatever was restored. -/
theorem coupled_boot (timing : ValveTiming) (on : Bool) :
    ((withTiming timing).restore on).Coupled := trivial

theorem coupled_withTiming (timing : ValveTiming) : (withTiming timing).Coupled := trivial

theorem Coupled.tickStep {v v' : WaterValve} {now : Nat} {o : ValveOutputs} (h : v.Coupled)
    (hs : TickStep v now v' o) : v'.Coupled := by
  cases hs with
  | idle | opening | closing | draining => exact h
  | opened | closedDry | drained => trivial
  | closedWet => rfl

/-- Every operation keeps a record coupled. -/
theorem Coupled.next {v : WaterValve} (h : v.Coupled) (op : ValveOp) :
    (valveMachine.next v op).Coupled := by
  obtain ⟨phase, userState, timing⟩ := v
  cases op with
  | turnOn t => cases phase <;> cases userState <;> simp_all [Coupled, turnOn]
  | turnOff t => cases phase <;> cases userState <;> simp_all [Coupled, turnOff]
  | setTiming t => exact h
  | tick t => exact h.tickStep (tick_step _ t)

/-- Every record of a run from a coupled one is coupled. -/
theorem Coupled.run {v : WaterValve} (h : v.Coupled) (ops : List ValveOp) :
    (valveMachine.run v ops).Coupled :=
  valveMachine.run_invariant (G := fun _ _ => True) (fun _ op _ hc => hc.next op) h
    fun _ _ => trivial

/-! ## The stage of a record -/

/-- The stage a record stands for. -/
def stage (v : WaterValve) : Stage :=
  match v.phase with
  | .idle => if v.userState then .opened else .closed
  | .turningOn s => .opening s
  | .turningOff s => .closing s
  | .draining s => .draining s

/-- The code answers busy exactly at the busy stages. -/
theorem isBusy_eq (v : WaterValve) : v.isBusy = v.stage.busy := by
  unfold isBusy stage
  cases v.phase with
  | idle => cases v.userState <;> rfl
  | turningOn s | turningOff s | draining s => rfl

/-- A coupled record shows the state of its stage. -/
theorem Coupled.userState_eq {v : WaterValve} (h : v.Coupled) : v.userState = v.stage.shown := by
  obtain ⟨phase, userState, timing⟩ := v
  cases phase <;> cases userState <;> simp_all [Coupled, stage, Stage.shown]

/-! ## Refinement -/

/-- A tick of the code lets the time pass in the specification, outputs included. -/
theorem TickStep.refines {v v' : WaterValve} {now : Nat} {o : ValveOutputs} (hv : v.Coupled)
    (h : TickStep v now v' o) :
    v'.stage = v.stage.elapse v.timing now ∧ o = v.stage.drive v.timing now := by
  obtain ⟨phase, userState, timing⟩ := v
  cases h with
  | idle hp =>
      cases hp
      cases userState <;> exact ⟨rfl, rfl⟩
  | opening s hp hlt =>
      cases hp
      simp [stage, Stage.elapse, Stage.drive, Nat.not_le.mpr hlt]
  | opened s hp hle =>
      cases hp
      have hpast : ¬ Stage.InPulse timing (now - s) := Stage.not_inPulse_of_le hle
      simp [stage, Stage.elapse, Stage.drive, hle, hpast]
  | closing s hp hlt =>
      cases hp
      simp [stage, Stage.elapse, Stage.drive, Nat.not_le.mpr hlt]
  | closedDry s hp hle hdry =>
      cases hp
      simp [stage, Stage.elapse, Stage.drive, hle, hdry]
  | closedWet s hp hle hwet =>
      cases hp
      simp [stage, Stage.elapse, Stage.drive, hle, hwet]
  | draining s hp hlt =>
      cases hp
      simp [stage, Stage.elapse, Stage.drive, Nat.not_le.mpr hlt]
  | drained s hp hle =>
      cases hp
      have hoff : userState = false := hv
      simp [stage, Stage.elapse, Stage.drive, hle, hoff]

/-- One step of the code is one step of the specification, outputs included. -/
theorem Coupled.refines {v : WaterValve} (h : v.Coupled) (op : ValveOp) :
    stageMachine.step (v.stage, v.timing) op =
      (((valveMachine.next v op).stage, (valveMachine.next v op).timing),
        valveMachine.out v op) := by
  cases op with
  | turnOn t =>
      obtain ⟨phase, userState, timing⟩ := v
      cases phase <;> cases userState <;>
        simp_all [Coupled, stageMachine, valveMachine, Machine.next, Machine.out, stage, turnOn,
          Stage.request]
  | turnOff t =>
      obtain ⟨phase, userState, timing⟩ := v
      cases phase <;> cases userState <;>
        simp_all [Coupled, stageMachine, valveMachine, Machine.next, Machine.out, stage, turnOff,
          Stage.request]
  | setTiming t => rfl
  | tick t =>
      obtain ⟨hstage, hdrive⟩ := (tick_step v t).refines h
      simp only [stageMachine, valveMachine, Machine.next, Machine.out, hstage, hdrive, tick_timing]

/-- The stage after one operation of the code. -/
theorem Coupled.stage_next {v : WaterValve} (h : v.Coupled) (op : ValveOp) :
    (valveMachine.next v op).stage = (stageMachine.next (v.stage, v.timing) op).1 := by
  simp [Machine.next, h.refines op]

theorem Coupled.stage_tick {v : WaterValve} (h : v.Coupled) (t : Nat) :
    (v.tick t).1.stage = v.stage.elapse v.timing t := h.stage_next (.tick t)

theorem Coupled.drive_tick {v : WaterValve} (h : v.Coupled) (t : Nat) :
    (v.tick t).2 = v.stage.drive v.timing t :=
  (Option.some.inj (congrArg Prod.snd (h.refines (.tick t)))).symm

/-- A run of the code is a run of the specification. -/
theorem Coupled.stage_run {v : WaterValve} (h : v.Coupled) (ops : List ValveOp) :
    stageMachine.run (v.stage, v.timing) ops =
      ((valveMachine.run v ops).stage, (valveMachine.run v ops).timing) := by
  induction ops generalizing v with
  | nil => rfl
  | cons op ops ih =>
      have hnext : stageMachine.next (v.stage, v.timing) op =
          ((valveMachine.next v op).stage, (valveMachine.next v op).timing) := by
        simp [Machine.next, h.refines op]
      rw [Machine.run_cons, hnext, ih (h.next op), Machine.run_cons]

end WaterValve

end WaterController
