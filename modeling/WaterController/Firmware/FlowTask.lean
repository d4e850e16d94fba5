import Mathlib.Algebra.Order.Field.Rat
import Mathlib.Tactic.FieldSimp
import Mathlib.Tactic.Linarith
import Mathlib.Tactic.NormNum.OfScientific
import WaterController.App.Run

/-!
# The flow samples

Both firmwares have a task that reads a pulse counter every second and publishes a
flow every minute.  The std firmware divides by the time since the last sample.  The
no_std firmware divides by sixty seconds.  Both take pulses per *second*, and multiply
by a factor that the reference configuration gives for pulses per *minute*
(`referenceLph`).

So what they publish is the flow of the reference only where there is none
(`std_agrees_iff`), or, in the no_std firmware, where its sixty rounds took the sixty
minutes that make up for it (`nostd_agrees_iff`).

The definitions are stated over any type of numbers.  The devices compute in 32-bit
floats, and the results are about exact rationals.
-/

namespace WaterController

open Machines (Machine Transition)

/-! ## Numbers and readings -/

/-- A count as a number. -/
class CountNum (F : Type) where
  ofCount : Nat → F

instance : CountNum Float32 := ⟨Float32.ofNat⟩

instance : CountNum ℚ := ⟨Nat.cast⟩

/-- The flow constants of the sensors' configuration. -/
structure FlowConstants (F : Type) where
  flowLPerPulse : F
  flowLphPerPps : F

/-- What a sample publishes, with its instant and the pulses counted so far. -/
structure FlowSample (F : Type) where
  nowMs : Nat
  pulses : Nat
  flowLph : F
  totalL : F

/-- The constants of a configuration. -/
def SensorsConfig.flow (s : SensorsConfig) : FlowConstants Float32 where
  flowLPerPulse := s.flowLPerPulse
  flowLphPerPps := s.flowLphPerPps

namespace FlowSample

/-- Publish a sample in the shared state. -/
def publish (r : FlowSample Float32) (s : DeviceSnapshot) : DeviceSnapshot :=
  { s with sensors.flowLph := some r.flowLph, sensors.totalL := some r.totalL }

/-- The call that publishes a sample. -/
def publishOp (r : FlowSample Float32) : AppOp := .updateState r.publish fun _ => rfl

/-- The flow that the alarm rule sees is the one published. -/
theorem flow_publishOp (serde : Serde (List AlarmEvent)) (r : FlowSample Float32) (app : App)
    (env : Env) : ((appMachine serde).next app ⟨env, r.publishOp⟩).state.flow = r.flowLph := rfl

end FlowSample

section Tasks

variable {F : Type} [Mul F] [Div F] [OfScientific F] [CountNum F]

open CountNum (ofCount)

/-- The default constants. -/
def FlowConstants.default : FlowConstants F where
  flowLPerPulse := 1.0 / 516.5
  flowLphPerPps := 0.00225012 * 60.0

/-! ## The std firmware -/

/-- What the sensor task remembers of the flow. -/
structure FlowTask where
  lastFlowMs : Nat
  lastPulseCount : Nat
deriving DecidableEq, Repr

/-- One round of the loop: its instant and the count of the pulse counter. -/
structure CounterRound where
  nowMs : Nat
  count : Nat
deriving DecidableEq, Repr

namespace FlowTask

def start (count : Nat) : FlowTask := ⟨0, count⟩

/-- A sample is due. -/
def due (task : FlowTask) (nowMs : Nat) : Bool :=
  nowMs - task.lastFlowMs ≥ 60 * 1000 || task.lastFlowMs == 0

def sample (cfg : FlowConstants F) (task : FlowTask) (r : CounterRound) : FlowSample F :=
  let delta := ofCount (r.count - task.lastPulseCount)
  let elapsedS := ofCount (max (r.nowMs - task.lastFlowMs) 1) / 1000.0
  let pps := delta / elapsedS
  { nowMs := r.nowMs
    pulses := r.count
    flowLph := pps * cfg.flowLphPerPps
    totalL := ofCount r.count * cfg.flowLPerPulse }

end FlowTask

/-- The flow part of the sensor task of the std firmware. -/
def flowTaskMachine (cfg : FlowConstants F) :
    Machine FlowTask CounterRound (Option (FlowSample F)) where
  step task r :=
    if task.due r.nowMs then (⟨r.nowMs, r.count⟩, some (task.sample cfg r)) else (task, none)

/-! ## The no_std firmware -/

namespace Nostd

/-- What the sensor task remembers of the flow. -/
structure FlowTask where
  lastRaw : Int16
  pulseTotal : Nat
  secs : Nat
  pulsesAtLastFlow : Nat
deriving DecidableEq, Repr

/-- One round of the loop: the register of the pulse counter, and the instant, which the
task does not read. -/
structure RegisterRound where
  nowMs : Nat
  raw : Int16
deriving DecidableEq, Repr

/-- The pulses a round counts, by the wrapping difference of the registers. -/
def counted (lastRaw raw : Int16) : Nat := (raw - lastRaw).toInt.toNat

namespace FlowTask

def start (raw : Int16) : FlowTask := ⟨raw, 0, 0, 0⟩

/-- Count the second and its pulses. -/
def count (task : FlowTask) (r : RegisterRound) : FlowTask :=
  { task with
    lastRaw := r.raw
    pulseTotal := task.pulseTotal + counted task.lastRaw r.raw
    secs := task.secs + 1 }

def sample (cfg : FlowConstants F) (task : FlowTask) (nowMs : Nat) : FlowSample F :=
  let deltaPulses := ofCount (task.pulseTotal - task.pulsesAtLastFlow)
  let pps := deltaPulses / 60.0
  { nowMs
    pulses := task.pulseTotal
    flowLph := pps * cfg.flowLphPerPps
    totalL := ofCount task.pulseTotal * cfg.flowLPerPulse }

end FlowTask

/-- The flow part of the sensor task of the no_std firmware. -/
def flowTaskMachine (cfg : FlowConstants F) :
    Machine FlowTask RegisterRound (Option (FlowSample F)) where
  step task r :=
    let task := task.count r
    if task.secs % 60 = 0 then
      ({ task with pulsesAtLastFlow := task.pulseTotal }, some (task.sample cfg r.nowMs))
    else (task, none)

/-- A register that fewer than 2¹⁵ pulses moved on since the last round counts them all. -/
theorem counted_of_lt (lastRaw : Int16) {pulses : Nat} (h : pulses < 2 ^ 15) :
    counted lastRaw (lastRaw + Int16.ofNat pulses) = pulses := by
  rw [counted, Int16.add_comm, Int16.add_sub_cancel, Int16.toInt_ofNat_of_lt h, Int.toNat_natCast]

end Nostd

end Tasks

/-- The default configuration has the default constants. -/
theorem SensorsConfig.flow_default : SensorsConfig.default.flow = .default := rfl

/-! ## The reference -/

/-- The flow that the reference configuration publishes, whose sensor gives pulses per
minute. -/
def referenceLph (pulses elapsedMs : Nat) : ℚ :=
  let x : ℚ := pulses / (elapsedMs / 60000)
  x * 0.00225012 * 60.0

/-- The second of two samples publishes the flow of the reference. -/
def FlowSample.Agrees (a b : FlowSample ℚ) : Prop :=
  b.flowLph = referenceLph (b.pulses - a.pulses) (b.nowMs - a.nowMs)

/-- No pulses were counted between two samples. -/
def FlowSample.NoPulses (a b : FlowSample ℚ) : Prop := b.pulses ≤ a.pulses

/-- The flow of the reference, with the time on the other side. -/
theorem referenceLph_mul (pulses : Nat) {elapsedMs : Nat} (h : elapsedMs ≠ 0) :
    referenceLph pulses elapsedMs * elapsedMs = pulses * 60000 * (0.00225012 * 60.0) := by
  have hpos : (elapsedMs : ℚ) ≠ 0 := Nat.cast_ne_zero.mpr h
  rw [referenceLph]
  field_simp

@[simp] theorem referenceLph_zero_left (elapsedMs : Nat) : referenceLph 0 elapsedMs = 0 := by
  simp [referenceLph]

/-- In no time there is no flow. -/
@[simp] theorem referenceLph_zero_right (pulses : Nat) : referenceLph pulses 0 = 0 := by
  simp [referenceLph]

/-- Pulses per second at the factor for pulses per minute. -/
theorem perSecond_eq_referenceLph_iff (pulses elapsedMs : Nat) :
    (pulses : ℚ) / ((max elapsedMs 1 : Nat) / 1000.0) * (0.00225012 * 60.0) =
      referenceLph pulses elapsedMs ↔ pulses = 0 := by
  constructor
  · intro heq
    cases elapsedMs with
    | zero =>
        rw [referenceLph_zero_right] at heq
        norm_num at heq
        exact heq
    | succ n =>
        rw [Nat.max_eq_left (Nat.succ_le_succ (Nat.zero_le n))] at heq
        have hmul := referenceLph_mul pulses (Nat.succ_ne_zero n)
        have hpos : ((n + 1 : Nat) : ℚ) ≠ 0 := Nat.cast_ne_zero.mpr (Nat.succ_ne_zero n)
        rw [← heq] at hmul
        field_simp at hmul
        norm_num at hmul
        exact hmul
  · rintro rfl
    simp

/-- Pulses per sixty seconds at the factor for pulses per minute. -/
theorem perRounds_eq_referenceLph_iff (pulses elapsedMs : Nat) :
    (pulses : ℚ) / 60.0 * (0.00225012 * 60.0) = referenceLph pulses elapsedMs ↔
      pulses = 0 ∨ elapsedMs = 60 * 60 * 1000 := by
  constructor
  · intro heq
    cases elapsedMs with
    | zero =>
        rw [referenceLph_zero_right] at heq
        norm_num at heq
        exact .inl heq
    | succ n =>
        have hmul := referenceLph_mul pulses (Nat.succ_ne_zero n)
        rw [← heq] at hmul
        have hfactor : (pulses : ℚ) * ((n + 1 : Nat) - 3600000) = 0 := by linarith
        rcases mul_eq_zero.mp hfactor with hzero | hhour
        · exact .inl (Nat.cast_eq_zero.mp hzero)
        · exact .inr (Nat.cast_injective (R := ℚ) (by push_cast at hhour ⊢; linarith))
  · rintro (rfl | rfl)
    · simp
    · have hmul := referenceLph_mul pulses (show 60 * 60 * 1000 ≠ 0 by decide)
      push_cast at hmul
      linarith

/-! ## Consecutive samples -/

/-- Consecutive samples of the std firmware agree with the reference where no pulses were
counted between them, and only there. -/
theorem std_agrees_iff (count : Nat) (rounds : List CounterRound) :
    ((flowTaskMachine (F := ℚ) .default).emitted (.start count) rounds).IsChain fun a b =>
      a.Agrees b ↔ a.NoPulses b := by
  refine (flowTaskMachine .default).isChain_emitted
    (K := fun last task => ∀ a ∈ last, task = ⟨a.nowMs, a.pulses⟩) ?_ ?_ (fun _ h => by cases h) _
  · intro last task r hlast b hb a ha
    obtain rfl := hlast a ha
    simp only [flowTaskMachine, Machine.out] at hb
    split at hb
    · cases hb
      exact (perSecond_eq_referenceLph_iff _ _).trans Nat.sub_eq_zero_iff_le
    · cases hb
  · intro last task r hlast a ha
    simp only [flowTaskMachine, Machine.out, Machine.next] at ha ⊢
    split at ha
    · rename_i hdue
      cases ha
      rw [if_pos hdue]
      rfl
    · rename_i hdue
      rw [if_neg hdue]
      exact hlast a ha

namespace Nostd

/-- Consecutive samples of the no_std firmware agree with the reference where no pulses
were counted between them or an hour has passed, and only there. -/
theorem nostd_agrees_iff (raw : Int16) (rounds : List RegisterRound) :
    ((flowTaskMachine (F := ℚ) .default).emitted (.start raw) rounds).IsChain fun a b =>
      a.Agrees b ↔ a.NoPulses b ∨ b.nowMs - a.nowMs = 60 * 60 * 1000 := by
  refine (flowTaskMachine .default).isChain_emitted
    (K := fun last task => ∀ a ∈ last, task.pulsesAtLastFlow = a.pulses) ?_ ?_
    (fun _ h => by cases h) _
  · intro last task r hlast b hb a ha
    have hsame := hlast a ha
    simp only [flowTaskMachine, Machine.out] at hb
    split at hb
    · cases hb
      simp only [FlowSample.Agrees, FlowSample.NoPulses, ← hsame, ← Nat.sub_eq_zero_iff_le]
      exact perRounds_eq_referenceLph_iff _ _
    · cases hb
  · intro last task r hlast a ha
    simp only [flowTaskMachine, Machine.out, Machine.next] at ha ⊢
    split at ha
    · rename_i hdue
      cases ha
      rw [if_pos hdue]
      rfl
    · rename_i hdue
      rw [if_neg hdue]
      exact hlast a ha

end Nostd

/-- **Flow.**  Of any two consecutive samples with the default constants, the second
publishes the flow of the reference if and only if no pulses were counted between them,
or, in the no_std firmware, an hour has passed. -/
theorem flow_agrees_iff (count : Nat) (rounds : List CounterRound) (raw : Int16)
    (rounds' : List Nostd.RegisterRound) :
    (((flowTaskMachine .default).emitted (.start count) rounds).IsChain fun a b =>
      a.Agrees b ↔ a.NoPulses b) ∧
    (((Nostd.flowTaskMachine .default).emitted (.start raw) rounds').IsChain fun a b =>
      a.Agrees b ↔ a.NoPulses b ∨ b.nowMs - a.nowMs = 60 * 60 * 1000) :=
  ⟨std_agrees_iff count rounds, Nostd.nostd_agrees_iff raw rounds'⟩

/-- Six hundred pulses in a minute: 81 L/h by the reference, 1.35 L/h published. -/
theorem published_sixtieth :
    let samples := (flowTaskMachine (F := ℚ) .default).emitted (.start 0)
      [⟨1000, 0⟩, ⟨61000, 600⟩]
    samples.map (·.flowLph) = [0, 1.350072] ∧ referenceLph 600 60000 = 81.00432 ∧
      ¬ samples.IsChain FlowSample.Agrees := by
  intro samples
  have hreference : referenceLph 600 60000 = 81.00432 := by norm_num [referenceLph]
  have hflow : samples.map (·.flowLph) = [0, 1.350072] := by
    show [((0 - 0 : Nat) : ℚ) / ((max (1000 - 0) 1 : Nat) / 1000.0) * (0.00225012 * 60.0),
      ((600 - 0 : Nat) : ℚ) / ((max (61000 - 1000) 1 : Nat) / 1000.0) * (0.00225012 * 60.0)] = _
    norm_num
  refine ⟨hflow, hreference, fun hchain => ?_⟩
  have hagrees : ((600 - 0 : Nat) : ℚ) / ((max (61000 - 1000) 1 : Nat) / 1000.0) *
      (0.00225012 * 60.0) = referenceLph 600 60000 := (List.isChain_cons_cons.mp hchain).1
  rw [hreference] at hagrees
  norm_num at hagrees

end WaterController
