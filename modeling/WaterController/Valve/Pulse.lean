import WaterController.Library.Sampling
import WaterController.Valve.Interlock

/-!
# One pulse per sequence

An accepted command starts a sequence that nothing but time moves on.  While it
lasts, a tick changes nothing and drives the motor of the sequence inside the pulse
(`TickStep.inSequence`), and the first tick past its end completes it (`TickStep.completes`).
So the ticks of a sequence sample one window, and what the samples say of the window
is general (`Sampling`).

After a close the drain is held the same way (`drainHeld_of_draining`).
-/

namespace WaterController

open Machines (Machine Transition)

/-- A transition of the valve. -/
abbrev ValveTransition := Transition WaterValve ValveOp (Option ValveOutputs)

/-! ## Sequences -/

namespace Motor

/-- The command that asks for the motor. -/
def command : Motor → Nat → ValveOp
  | opening, t => .turnOn t
  | closing, t => .turnOff t

/-- The phase that runs the motor. -/
def phase : Motor → Nat → Phase
  | opening, s => .turningOn s
  | closing, s => .turningOff s

/-- The user state behind a sequence of the motor. -/
def opens : Motor → Bool
  | opening => true
  | closing => false

/-- The outputs with the motor at a level and everything else low. -/
def outputs : Motor → Bool → ValveOutputs
  | opening, level => { openMotor := level }
  | closing, level => { closeMotor := level }

@[simp] theorem motor_outputs (m : Motor) (level : Bool) : (m.outputs level).motor m = level := by
  cases m <;> rfl

@[simp] theorem motor_opposite_outputs (m : Motor) (level : Bool) :
    (m.outputs level).motor m.opposite = false := by
  cases m <;> rfl

@[simp] theorem drain_outputs (m : Motor) (level : Bool) : (m.outputs level).drain = false := by
  cases m <;> rfl

end Motor

namespace ValveOp

/-- The operation leaves the timing alone. -/
def keepsTiming : ValveOp → Bool
  | setTiming _ => false
  | turnOn _ | turnOff _ | tick _ => true

/-- The time of a tick. -/
def tickMs? : ValveOp → Option Nat
  | tick t => some t
  | turnOn _ | turnOff _ | setTiming _ => none

/-- The operation does not ask for an open valve. -/
def leavesDrain : ValveOp → Bool
  | turnOn _ => false
  | turnOff _ | setTiming _ | tick _ => true

end ValveOp

/-- The times of the ticks in a list of operations. -/
def ValveOp.tickTimes (ops : List ValveOp) : List Nat := ops.filterMap ValveOp.tickMs?

/-- The time of a tick with the level it drives a motor at. -/
def level? (m : Motor) (t : ValveTransition) : Option Sampling.Sample :=
  match t.input, t.output with
  | .tick now, some o => some (now, o.motor m)
  | _, _ => none

/-- The ticks of a run with the levels they drive a motor at. -/
def levels (m : Motor) (run : List ValveTransition) : List Sampling.Sample :=
  run.filterMap (level? m)

namespace WaterValve

/-- A command that has an effect starts the sequence of its motor, from the other user
state. -/
theorem Coupled.command_of_ne {v : WaterValve} (hv : v.Coupled) {m : Motor} {s : Nat}
    (h : valveMachine.next v (m.command s) ≠ v) :
    valveMachine.next v (m.command s) = { v with phase := m.phase s } ∧ v.userState = !m.opens := by
  obtain ⟨phase, userState, timing⟩ := v
  cases m with
  | opening =>
      cases phase <;> cases userState <;>
        simp_all [Coupled, Motor.command, Motor.phase, Motor.opens, turnOn]
  | closing =>
      cases phase <;> cases userState <;>
        simp_all [Coupled, Motor.command, Motor.phase, Motor.opens, turnOff]

/-- A valve in a sequence is busy. -/
theorem isBusy_of_phase {v : WaterValve} {m : Motor} {s : Nat} (h : v.phase = m.phase s) :
    v.isBusy = true := by
  rw [isBusy, h]
  cases m <;> rfl

/-! ## One tick -/

/-- A tick inside a sequence changes nothing and drives its motor inside the pulse. -/
theorem TickStep.inSequence {v v' : WaterValve} {now : Nat} {o : ValveOutputs} {m : Motor}
    {s : Nat} (h : TickStep v now v' o) (hp : v.phase = m.phase s)
    (hlt : now - s < v.timing.sequenceMs) :
    v' = v ∧ o = m.outputs (decide (Stage.InPulse v.timing (now - s))) := by
  cases h with
  | opening s' hp' | closing s' hp' =>
      rw [hp] at hp'
      cases m <;> cases hp'
      exact ⟨rfl, rfl⟩
  | opened s' hp' hle | closedDry s' hp' hle | closedWet s' hp' hle =>
      rw [hp] at hp'
      cases m <;> cases hp'
      exact absurd hlt (Nat.not_lt.mpr hle)
  | idle hp' | draining s' hp' | drained s' hp' =>
      rw [hp] at hp'
      cases m <;> cases hp'

/-- The first tick past the end of a sequence completes it: the motors are off, the user
state is that of the sequence, and after a close the drain is held. -/
structure Completes (m : Motor) (now : Nat) (v v' : WaterValve) (o : ValveOutputs) : Prop where
  motors : ∀ m', o.motor m' = false
  userState : v'.userState = m.opens
  notBusy : v'.isBusy = false
  drain : m = .closing → v.timing.drainHoldMs ≠ 0 → v'.phase = .draining now ∧ o.drain = true

theorem TickStep.completes {v v' : WaterValve} {now : Nat} {o : ValveOutputs} {m : Motor}
    {s : Nat} (h : TickStep v now v' o) (hp : v.phase = m.phase s)
    (hle : v.timing.sequenceMs ≤ now - s) : Completes m now v v' o := by
  cases h with
  | opened s' hp' =>
      rw [hp] at hp'
      cases m <;> cases hp'
      exact ⟨fun m' => by cases m' <;> rfl, rfl, rfl, fun hm => by cases hm⟩
  | closedDry s' hp' _ hdry =>
      rw [hp] at hp'
      cases m <;> cases hp'
      exact ⟨fun m' => by cases m' <;> rfl, rfl, rfl, fun _ hwet => absurd hdry hwet⟩
  | closedWet s' hp' =>
      rw [hp] at hp'
      cases m <;> cases hp'
      exact ⟨fun m' => by cases m' <;> rfl, rfl, rfl, fun _ _ => ⟨rfl, rfl⟩⟩
  | opening s' hp' hlt | closing s' hp' hlt =>
      rw [hp] at hp'
      cases m <;> cases hp'
      exact absurd hlt (Nat.not_lt.mpr hle)
  | idle hp' | draining s' hp' | drained s' hp' =>
      rw [hp] at hp'
      cases m <;> cases hp'

/-- A tick of the drain changes nothing and holds the drain before its end, and ends it
from there on. -/
theorem TickStep.ofDraining {v v' : WaterValve} {now : Nat} {o : ValveOutputs} {s : Nat}
    (h : TickStep v now v' o) (hp : v.phase = .draining s) :
    (now - s < v.timing.drainHoldMs → v' = v ∧ o.drain = true) ∧
      (v.timing.drainHoldMs ≤ now - s → v'.phase = .idle ∧ o.drain = false) := by
  cases h with
  | draining s' hp' hlt =>
      cases hp.symm.trans hp'
      exact ⟨fun _ => ⟨rfl, rfl⟩, fun hle => absurd hlt (Nat.not_lt.mpr hle)⟩
  | drained s' hp' hle =>
      cases hp.symm.trans hp'
      exact ⟨fun hlt => absurd hle (Nat.not_le.mpr hlt), fun _ => ⟨rfl, rfl⟩⟩
  | idle hp' | opening s' hp' | opened s' hp' | closing s' hp' | closedDry s' hp'
  | closedWet s' hp' => cases hp.symm.trans hp'

/-! ## Inside a sequence -/

/-- The operation comes before a time, and leaves the timing alone. -/
structure Before (bound : Nat) (op : ValveOp) : Prop where
  keepsTiming : op.keepsTiming = true
  tick : ∀ t ∈ op.tickMs?, t < bound

theorem sub_lt_sequenceMs {timing : ValveTiming} {s t : Nat} (h : t < s + timing.sequenceMs) :
    t - s < timing.sequenceMs := by
  have hpos := timing.settleMs_add_motorRunMs_lt
  omega

/-- An operation before the end of the sequence changes nothing, and puts out the motor
inside the pulse if it is a tick. -/
theorem step_inSequence {v : WaterValve} {m : Motor} {s : Nat} (hp : v.phase = m.phase s)
    {op : ValveOp} (h : Before (s + v.timing.sequenceMs) op) :
    valveMachine.next v op = v ∧ valveMachine.out v op =
      op.tickMs?.map fun t => m.outputs (decide (Stage.InPulse v.timing (t - s))) := by
  cases op with
  | turnOn t => exact ⟨(turn_of_isBusy (isBusy_of_phase hp) t).1, rfl⟩
  | turnOff t => exact ⟨(turn_of_isBusy (isBusy_of_phase hp) t).2, rfl⟩
  | setTiming timing => cases h.keepsTiming
  | tick t =>
      have hin := (v.tick_step t).inSequence hp (sub_lt_sequenceMs (h.tick t rfl))
      exact ⟨hin.1, congrArg some hin.2⟩

/-- Operations before the end of the sequence change nothing. -/
theorem run_inSequence {v : WaterValve} {m : Motor} {s : Nat} (hp : v.phase = m.phase s)
    {ops : List ValveOp} (h : ∀ op ∈ ops, Before (s + v.timing.sequenceMs) op) :
    valveMachine.run v ops = v := by
  induction ops with
  | nil => rfl
  | cons op ops ih =>
      obtain ⟨hop, hrest⟩ := List.forall_mem_cons.mp h
      rw [Machine.run_cons, (step_inSequence hp hop).1]
      exact ih hrest

/-- What a transition before the end of the sequence starts from, ends in and puts out. -/
theorem trace_inSequence {v : WaterValve} {m : Motor} {s : Nat} (hp : v.phase = m.phase s)
    {ops : List ValveOp} (h : ∀ op ∈ ops, Before (s + v.timing.sequenceMs) op)
    {t : ValveTransition} (ht : t ∈ valveMachine.trace v ops) :
    t.after = v ∧ ∀ o ∈ t.output, ∃ level, o = m.outputs level := by
  obtain ⟨ops₁, op, ops₂, rfl, rfl⟩ := valveMachine.mem_trace ht
  rw [run_inSequence hp fun op' hop' => h op' (List.mem_append_left _ hop')]
  obtain ⟨hnext, hout⟩ := step_inSequence hp (h op (by simp))
  refine ⟨hnext, fun o ho => ?_⟩
  obtain ⟨t, -, rfl⟩ := Option.map_eq_some_iff.mp (hout.symm.trans ho)
  exact ⟨_, rfl⟩

/-- The levels of a motor before the end of its sequence. -/
theorem levels_inSequence {v : WaterValve} {m : Motor} {s : Nat} (hp : v.phase = m.phase s)
    {ops : List ValveOp} (h : ∀ op ∈ ops, Before (s + v.timing.sequenceMs) op) :
    levels m (valveMachine.trace v ops) =
      (ValveOp.tickTimes ops).map fun t => (t, decide (Stage.InPulse v.timing (t - s))) := by
  induction ops with
  | nil => rfl
  | cons op ops ih =>
      obtain ⟨hop, hrest⟩ := List.forall_mem_cons.mp h
      obtain ⟨hnext, hout⟩ := step_inSequence hp hop
      have htail := ih hrest
      rw [Machine.trace_cons, hnext]
      cases op with
      | tick t =>
          have hlevel : level? m (valveMachine.transition v (.tick t)) =
              some (t, decide (Stage.InPulse v.timing (t - s))) := by
            rw [Machine.transition, hout]
            exact congrArg (fun level => some (t, level)) (m.motor_outputs _)
          rw [levels, List.filterMap_cons, hlevel]
          exact congrArg _ htail
      | turnOn t | turnOff t | setTiming timing => exact htail

/-! ## The whole sequence -/

/-- What a sequence of a motor does from a valve `v`: the run in front of the tick that
completes it, and that tick. -/
structure OnePulse (m : Motor) (g : Nat) (v : WaterValve) (run : List ValveTransition)
    (done : ValveTransition) : Prop where
  /-- The ticks that drive the motor form one block. -/
  block : Sampling.OneBlock (levels m (run ++ [done]))
  /-- The motor is energised for the configured time, up to a spacing of the ticks. -/
  energised : v.timing.motorRunMs - g ≤ Sampling.held (levels m (run ++ [done])) ∧
    Sampling.held (levels m (run ++ [done])) ≤ v.timing.motorRunMs + g
  /-- The other motor is never driven, and the drain not before the end. -/
  opposite : ∀ t ∈ run ++ [done], ∀ o ∈ t.output, o.motor m.opposite = false
  drain : ∀ t ∈ run, ∀ o ∈ t.output, o.drain = false
  /-- The user state changes at the end and not before. -/
  kept : v.userState = (!m.opens) ∧ ∀ t ∈ run, t.after.userState = !m.opens
  changed : done.after.userState = m.opens

/-- The drain of a close that ended at `closedMs`, from the valve behind it. -/
structure DrainHeld (closedMs : Nat) (v : WaterValve) : Prop where
  /-- Ticks before the end of the hold drive the drain, if nothing asks for an open valve. -/
  held : ∀ ops, (∀ op ∈ ops, Before (closedMs + v.timing.drainHoldMs) op) →
    (∀ op ∈ ops, op.leavesDrain = true) →
    ∀ t ∈ valveMachine.trace v ops, ∀ o ∈ t.output, o.drain = true
  /-- The first tick from there on ends it. -/
  ended : ∀ ops, (∀ op ∈ ops, Before (closedMs + v.timing.drainHoldMs) op) →
    (∀ op ∈ ops, op.leavesDrain = true) → ∀ t, closedMs + v.timing.drainHoldMs ≤ t →
    ((valveMachine.run v ops).tick t).2.drain = false ∧
      ((valveMachine.run v ops).tick t).1.phase = .idle
  /-- A command to open ends it at once, and no tick of its sequence drives the drain. -/
  cut : ∀ ops, (∀ op ∈ ops, Before (closedMs + v.timing.drainHoldMs) op) →
    (∀ op ∈ ops, op.leavesDrain = true) → ∀ t more,
    (∀ op ∈ more, Before (t + v.timing.sequenceMs) op) →
    ((valveMachine.run v ops).turnOn t).phase = .turningOn t ∧
      ∀ u ∈ valveMachine.trace ((valveMachine.run v ops).turnOn t) more, ∀ o ∈ u.output,
        o.drain = false

theorem step_draining {v : WaterValve} {s : Nat} (hp : v.phase = .draining s)
    {op : ValveOp} (h : Before (s + v.timing.drainHoldMs) op) (hop : op.leavesDrain = true)
    (hwet : v.timing.drainHoldMs ≠ 0) :
    valveMachine.next v op = v ∧ ∀ o ∈ valveMachine.out v op, o.drain = true := by
  cases op with
  | turnOn t => cases hop
  | turnOff t =>
      refine ⟨?_, fun o ho => by cases ho⟩
      rw [valveMachine_turnOff, turnOff, hp]
  | setTiming timing => cases h.keepsTiming
  | tick t =>
      have hbefore := h.tick t rfl
      obtain ⟨hsame, hdrain⟩ := ((v.tick_step t).ofDraining hp).1 (by omega)
      refine ⟨hsame, ?_⟩
      rintro o ⟨⟩
      exact hdrain

theorem run_draining {v : WaterValve} {s : Nat} (hp : v.phase = .draining s)
    (hwet : v.timing.drainHoldMs ≠ 0) {ops : List ValveOp}
    (h : ∀ op ∈ ops, Before (s + v.timing.drainHoldMs) op)
    (hops : ∀ op ∈ ops, op.leavesDrain = true) : valveMachine.run v ops = v := by
  induction ops with
  | nil => rfl
  | cons op ops ih =>
      obtain ⟨hop, hrest⟩ := List.forall_mem_cons.mp h
      obtain ⟨hleaves, hleavesRest⟩ := List.forall_mem_cons.mp hops
      rw [Machine.run_cons, (step_draining hp hop hleaves hwet).1]
      exact ih hrest hleavesRest

theorem drainHeld_of_draining {v : WaterValve} {s : Nat} (hp : v.phase = .draining s)
    (hwet : v.timing.drainHoldMs ≠ 0) : DrainHeld s v where
  held ops h hops t ht := by
    obtain ⟨ops₁, op, ops₂, rfl, rfl⟩ := valveMachine.mem_trace ht
    rw [run_draining hp hwet (fun op' hop' => h op' (List.mem_append_left _ hop'))
      fun op' hop' => hops op' (List.mem_append_left _ hop')]
    exact (step_draining hp (h op (by simp)) (hops op (by simp)) hwet).2
  ended ops h hops t hle := by
    rw [run_draining hp hwet h hops]
    obtain ⟨hidle, hdrain⟩ := ((v.tick_step t).ofDraining hp).2 (by omega)
    exact ⟨hdrain, hidle⟩
  cut ops h hops t more hmore := by
    rw [run_draining hp hwet h hops]
    have hopen : v.turnOn t = { v with phase := .turningOn t } := by rw [turnOn, hp]
    rw [hopen]
    refine ⟨rfl, fun u hu o ho => ?_⟩
    have hphase : { v with phase := .turningOn t }.phase = Motor.phase .opening t := rfl
    obtain ⟨level, rfl⟩ := (trace_inSequence hphase hmore hu).2 o ho
    exact Motor.drain_outputs _ _

/-- The levels of a motor in its sequence, with the tick that completes it. -/
theorem levels_sequence {v : WaterValve} {m : Motor} {s e : Nat} (hp : v.phase = m.phase s)
    {ops : List ValveOp} (hops : ∀ op ∈ ops, Before (s + v.timing.sequenceMs) op)
    (hdone : s + v.timing.sequenceMs ≤ e) :
    levels m (valveMachine.trace v ops ++ [valveMachine.transition v (.tick e)]) =
      (ValveOp.tickTimes ops).map (fun t => (t, decide (Stage.InPulse v.timing (t - s)))) ++
        [(e, false)] := by
  have hcomplete := (v.tick_step e).completes hp (by omega)
  have hlevel : level? m (valveMachine.transition v (.tick e)) = some (e, false) :=
    congrArg (fun level => some (e, level)) (hcomplete.motors m)
  rw [levels, List.filterMap_append, List.filterMap_cons, hlevel]
  exact congrArg (· ++ _) (levels_inSequence hp hops)

/-- Levels that follow the pulse of a sequence, low at its start and at its end, sample the
window of the pulse. -/
theorem sees_pulse {timing : ValveTiming} {s e : Nat} (hdone : s + timing.sequenceMs ≤ e)
    (times : List Nat) :
    Sampling.Sees (s + settleMs) (s + settleMs + timing.motorRunMs)
      ((s, false) :: (times.map (fun t => (t, decide (Stage.InPulse timing (t - s)))) ++
        [(e, false)])) := by
  have hset : 0 < settleMs := by decide
  have hend := timing.settleMs_add_motorRunMs_lt
  intro x hx
  simp only [List.mem_cons, List.mem_append, List.mem_map, List.not_mem_nil, or_false] at hx
  rcases hx with rfl | ⟨t, -, rfl⟩ | rfl
  · simp only [Bool.false_eq_true, false_iff]
    omega
  · refine decide_eq_true_iff.trans ?_
    simp only [Stage.InPulse]
    omega
  · simp only [Bool.false_eq_true, false_iff]
    omega

/-- A sequence whose ticks are less than the pulse apart is one pulse. -/
theorem onePulse_of_phase {v : WaterValve} {m : Motor} {s e g : Nat} (hp : v.phase = m.phase s)
    (hstate : v.userState = !m.opens) {ops : List ValveOp}
    (hops : ∀ op ∈ ops, Before (s + v.timing.sequenceMs) op) (hdone : s + v.timing.sequenceMs ≤ e)
    (hdense : Sampling.Dense g (s :: (ValveOp.tickTimes ops ++ [e])))
    (hg : g < v.timing.motorRunMs) :
    OnePulse m g v (valveMachine.trace v ops) (valveMachine.transition v (.tick e)) := by
  have hset : 0 < settleMs := by decide
  have hend := v.timing.settleMs_add_motorRunMs_lt
  have hcomplete := (v.tick_step e).completes hp (by omega)
  have hlevels := levels_sequence hp hops hdone
  have hsees := sees_pulse hdone (ValveOp.tickTimes ops)
  have htimes : ((s, false) :: levels m (valveMachine.trace v ops ++
      [valveMachine.transition v (.tick e)])).map Prod.fst =
        s :: (ValveOp.tickTimes ops ++ [e]) := by
    rw [hlevels]
    simp [Function.comp_def]
  rw [← hlevels] at hsees
  have hheld := Sampling.held_of_sees (htimes.symm ▸ hdense) hsees
    (by rw [htimes, ← List.cons_append, List.getLast?_concat]) (by omega) (by simpa using hset)
    (by omega)
  rw [Sampling.held_cons_low] at hheld
  constructor
  · refine Sampling.oneBlock_of_sees hsees.tail ?_
    have hsorted := hdense.sorted
    rw [← htimes, List.pairwise_map] at hsorted
    exact (List.pairwise_cons.mp hsorted).2
  · omega
  · intro t ht o ho
    rcases List.mem_append.mp ht with hrun | hlast
    · obtain ⟨level, rfl⟩ := (trace_inSequence hp hops hrun).2 o ho
      exact m.motor_opposite_outputs level
    · cases List.mem_singleton.mp hlast
      cases ho
      exact hcomplete.motors _
  · intro t ht o ho
    obtain ⟨level, rfl⟩ := (trace_inSequence hp hops ht).2 o ho
    exact m.drain_outputs level
  · refine ⟨hstate, fun t ht => ?_⟩
    rw [(trace_inSequence hp hops ht).1, hstate]
  · exact hcomplete.userState

theorem coupled_boot_run (timing : ValveTiming) (restored : Option Bool) (ops : List ValveOp) :
    (valveMachine.run (Plant.boot timing restored).valve ops).Coupled := by
  refine Coupled.run ?_ ops
  cases restored with
  | none => exact coupled_withTiming timing
  | some on => exact coupled_boot timing on

/-- **One pulse.**  In every run from boot, an accepted command that is followed by ticks
less than the pulse apart, with the timing left alone, gives one pulse of its motor.  The
tick that completes a close drives the drain, which is held from there on. -/
theorem one_pulse (timing : ValveTiming) (restored : Option Bool) (earlier : List ValveOp)
    (m : Motor) (s : Nat) (ops : List ValveOp) (e g : Nat) :
    let v := valveMachine.run (Plant.boot timing restored).valve earlier
    let w := valveMachine.next v (m.command s)
    let done := valveMachine.transition w (.tick e)
    w ≠ v → (∀ op ∈ ops, Before (s + w.timing.sequenceMs) op) → s + w.timing.sequenceMs ≤ e →
      Sampling.Dense g (s :: (ValveOp.tickTimes ops ++ [e])) → g < w.timing.motorRunMs →
    OnePulse m g w (valveMachine.trace w ops) done ∧
      (m = .closing → 0 < w.timing.drainSecs →
        (∀ o ∈ done.output, o.drain = true) ∧ DrainHeld e done.after) := by
  intro v w done hne hops hdone hdense hg
  have hv : v.Coupled := coupled_boot_run timing restored earlier
  obtain ⟨hw, hstate⟩ := hv.command_of_ne hne
  have hp : w.phase = m.phase s := congrArg (·.phase) hw
  have huser : w.userState = !m.opens := (congrArg (·.userState) hw).trans hstate
  refine ⟨onePulse_of_phase hp huser hops hdone hdense hg, fun hm hdrain => ?_⟩
  have hwet : w.timing.drainHoldMs ≠ 0 := by
    have hpos : 0 < w.timing.drainSecs.toNat := hdrain
    rw [ValveTiming.drainHoldMs]
    omega
  have hpos := w.timing.settleMs_add_motorRunMs_lt
  obtain ⟨hphase, hout⟩ := ((w.tick_step e).completes hp (by omega)).drain hm hwet
  constructor
  · rintro o ⟨⟩
    exact hout
  · refine drainHeld_of_draining hphase ?_
    rw [Machine.transition_after, valveMachine_tick, tick_timing]
    exact hwet

/-- A close with a pulse of two seconds and a tick every second. -/
theorem one_pulse_two_seconds :
    let v := (Plant.boot ⟨2, 5⟩ (some true)).valve
    let w := v.turnOff 0
    let done := valveMachine.transition w (.tick 4000)
    OnePulse .closing 1000 w (valveMachine.trace w [.tick 1000, .tick 2000, .tick 3000]) done ∧
      done.output = some { drain := true } ∧ DrainHeld 4000 done.after := by
  intro v w done
  have hpulse := one_pulse ⟨2, 5⟩ (some true) [] .closing 0 [.tick 1000, .tick 2000, .tick 3000]
    4000 1000 (by decide) (by
      intro op hop
      simp only [List.mem_cons, List.not_mem_nil, or_false] at hop
      rcases hop with rfl | rfl | rfl <;> exact ⟨rfl, by rintro t ⟨⟩; decide⟩)
    (by decide) (by simp [Sampling.Dense, ValveOp.tickTimes, ValveOp.tickMs?]) (by decide)
  exact ⟨hpulse.1, by decide, (hpulse.2 rfl (by decide)).2⟩

end WaterValve

end WaterController
