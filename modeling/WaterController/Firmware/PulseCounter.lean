import Mathlib.Logic.Function.Iterate
import Mathlib.Tactic.Common
import WaterController.Library.Machine

/-!
# The pulse counter

The hardware counts pulses in a register of 16 bits.  It counts up from 0 and starts
from 0 again when it reaches its limit, which is set to `i16::MAX`.  `count` reads the
register and extends it to a total: a value below the last one means that the register
has started over.

It takes a round for one pulse longer than it is, and a read that fails for the value 0,
which is a round as well.  So the counter is exact only in the first round of the
register, and only as long as no read fails between two that matter (`count_exact_iff`).
-/

namespace WaterController

open Machines (Machine)

/-! ## The register -/

/-- `i16::MAX`, the upper limit of the register. -/
def i16Max : Nat := 32767

/-- One pulse. -/
def Pcnt.pulse (counterHLim reg : Nat) : Nat := if reg + 1 = counterHLim then 0 else reg + 1

/-- Some pulses, one after the other. -/
def Pcnt.pulses (counterHLim n reg : Nat) : Nat := (Pcnt.pulse counterHLim)^[n] reg

theorem Pcnt.pulses_eq {counterHLim : Nat} (n : Nat) {reg : Nat} (h : reg < counterHLim) :
    Pcnt.pulses counterHLim n reg = (reg + n) % counterHLim := by
  induction n generalizing reg with
  | zero => exact (Nat.mod_eq_of_lt h).symm
  | succ n ih =>
      show Pcnt.pulses counterHLim n (Pcnt.pulse counterHLim reg) = _
      rw [Pcnt.pulse]
      split_ifs with hlast
      · rw [ih (by omega), show reg + (n + 1) = 0 + n + counterHLim by omega, Nat.add_mod_right]
      · rw [ih (by omega), Nat.add_assoc, Nat.add_comm 1]

/-! ## The counter -/

/-- `i64::MAX`. -/
def i64Max : Int := 9223372036854775807

/-- `i64::saturating_add` of a number that is not negative. -/
def i64SaturatingAdd (a b : Int) : Int := if a + b ≤ i64Max then a + b else i64Max

/-- The state behind the mutex, apart from the driver. -/
structure EspPulseCounter where
  lastRaw : Int
  total : Int
deriving DecidableEq, Repr

namespace EspPulseCounter

def new : EspPulseCounter := ⟨0, 0⟩

/-- What is added to the total for a value of the register. -/
def delta (c : EspPulseCounter) (raw : Int) : Int :=
  if c.lastRaw ≤ raw then raw - c.lastRaw
  -- the register has started over
  else i16Max - c.lastRaw + raw + 1

/-- `count`, with the value that the driver reads, if it reads one. -/
def count (c : EspPulseCounter) (value : Option Int) : EspPulseCounter × Nat :=
  let raw := value.getD 0
  let total := if 0 < c.delta raw then i64SaturatingAdd c.total (c.delta raw) else c.total
  (⟨raw, total⟩, total.toNat)

/-- Far below `i64::MAX`, the total goes up by the delta. -/
theorem count_eq {c : EspPulseCounter} {value : Option Int} {d : Int}
    (hd : c.delta (value.getD 0) = d) (hnonneg : 0 ≤ d) (hmax : c.total + d ≤ i64Max) :
    c.count value = (⟨value.getD 0, c.total + d⟩, (c.total + d).toNat) := by
  rw [count, hd, i64SaturatingAdd, if_pos hmax]
  rcases Int.lt_or_eq_of_le hnonneg with hpos | rfl
  · rw [if_pos hpos]
  · rw [if_neg (Int.lt_irrefl 0), Int.add_zero]

/-- The total never goes down, and it stays within 64 bits. -/
theorem total_count {c : EspPulseCounter} (hmax : c.total ≤ i64Max) (value : Option Int) :
    c.total ≤ (c.count value).1.total ∧ (c.count value).1.total ≤ i64Max := by
  rw [count, i64SaturatingAdd]
  dsimp only
  split_ifs <;> omega

end EspPulseCounter

/-! ## The counter at work -/

/-- A call of `count`: the pulses since the call before, and whether the register is read. -/
structure CountCall where
  pulses : Nat
  readOk : Bool
deriving DecidableEq, Repr

/-- The register and the counter, and how many pulses there were since `new`. -/
structure PulseMeter where
  reg : Nat
  counter : EspPulseCounter
  pulses : Nat
deriving DecidableEq, Repr

namespace PulseMeter

def new : PulseMeter := ⟨0, .new, 0⟩

def machine : Machine PulseMeter CountCall Nat where
  step m call :=
    let reg := Pcnt.pulses i16Max call.pulses m.reg
    let (counter, value) := m.counter.count (if call.readOk then some reg else none)
    (⟨reg, counter, m.pulses + call.pulses⟩, value)

/-- The calls of the first round of the register.  So far there were `pulses` pulses, and
the last value that was read is `last`.  Behind a value that is not 0, no read fails in front
of one that does not. -/
def FirstRound : Nat → Nat → List CountCall → Prop
  | _, _, [] => True
  | pulses, last, call :: calls =>
      if call.readOk then
        pulses + call.pulses < i16Max ∧
          FirstRound (pulses + call.pulses) (pulses + call.pulses) calls
      else if last = 0 then FirstRound (pulses + call.pulses) 0 calls
      else ∀ later ∈ calls, later.readOk = false

/-- Each call that reads the register returns the pulses since `new`. -/
def Exact (m : PulseMeter) (calls : List CountCall) : Prop :=
  ∀ t ∈ machine.trace m calls, t.input.readOk = true → t.output = t.after.pulses

/-! ## What one call does -/

/-- The register goes on from the pulses since `new`, and the counter is exact up to a
value that was read. -/
structure UpTo (last : Nat) (m : PulseMeter) : Prop where
  reg : m.reg = m.pulses % i16Max
  counter : m.counter = ⟨last, last⟩
  le : last ≤ m.pulses
  lt : last < i16Max

/-- The counter took a failed read for a round. -/
structure Misled (m : PulseMeter) : Prop where
  reg : m.reg = m.pulses % i16Max
  counter : m.counter = ⟨0, i16Max + 1⟩

theorem upTo_new : UpTo 0 new := ⟨rfl, rfl, Nat.le_refl 0, by decide⟩

theorem next_reg {m : PulseMeter} (h : m.reg = m.pulses % i16Max) (call : CountCall) :
    (machine.next m call).reg = (m.pulses + call.pulses) % i16Max := by
  have hlt : m.pulses % i16Max < i16Max := Nat.mod_lt _ (by decide)
  show Pcnt.pulses i16Max call.pulses m.reg = _
  rw [h, Pcnt.pulses_eq _ hlt, Nat.mod_add_mod]

/-- What the driver gives to the counter. -/
def reading (m : PulseMeter) (call : CountCall) : Option Int :=
  if call.readOk then some ((machine.next m call).reg : Int) else none

theorem count_reading (m : PulseMeter) (call : CountCall) :
    m.counter.count (reading m call) = ((machine.next m call).counter, machine.out m call) := rfl

theorem next_pulses (m : PulseMeter) (call : CountCall) :
    (machine.next m call).pulses = m.pulses + call.pulses := rfl

section Step

variable {m : PulseMeter} {last : Nat} {call : CountCall}

/-- What a call leaves in the counter and returns. -/
theorem of_delta {a t raw d : Int} (hcounter : m.counter = ⟨a, t⟩)
    (hraw : (reading m call).getD 0 = raw)
    (hd : (if a ≤ raw then raw - a else i16Max - a + raw + 1) = d) (hnonneg : 0 ≤ d)
    (hmax : t + d ≤ i64Max) :
    (machine.next m call).counter = ⟨raw, t + d⟩ ∧ machine.out m call = (t + d).toNat := by
  have hcount := @EspPulseCounter.count_eq m.counter (reading m call) d
    (by rw [hcounter, hraw]; exact hd) hnonneg (by rw [hcounter]; exact hmax)
  rw [count_reading, hcounter, hraw] at hcount
  exact Prod.mk.inj hcount

theorem reading_of_ok (hreg : m.reg = m.pulses % i16Max) (hok : call.readOk = true) :
    (reading m call).getD 0 = ((m.pulses + call.pulses) % i16Max : Nat) := by
  rw [reading, if_pos hok, next_reg hreg]
  rfl

theorem reading_of_fail (hfail : call.readOk = false) : (reading m call).getD 0 = 0 := by
  rw [reading, if_neg (by rw [hfail]; decide)]
  rfl

/-- A read in the first round is exact. -/
theorem UpTo.read (h : UpTo last m) (hok : call.readOk = true)
    (hround : m.pulses + call.pulses < i16Max) :
    machine.out m call = m.pulses + call.pulses ∧
      UpTo (m.pulses + call.pulses) (machine.next m call) := by
  have hmax : i16Max = 32767 := rfl
  have hbig : i64Max = 9223372036854775807 := rfl
  have hle := h.le
  have hraw := reading_of_ok h.reg hok
  rw [Nat.mod_eq_of_lt hround] at hraw
  obtain ⟨hcounter, hout⟩ := of_delta h.counter hraw (if_pos (by omega)) (by omega) (by omega)
  have htotal : (last : Int) + ((m.pulses + call.pulses : Nat) - last) =
      (m.pulses + call.pulses : Nat) := by omega
  rw [htotal] at hcounter hout
  exact ⟨hout, next_reg h.reg call, hcounter, Nat.le_refl _, hround⟩

/-- A read behind the first round is not: the total is in the first round, or one too
high. -/
theorem UpTo.read_late (h : UpTo last m) (hok : call.readOk = true)
    (hround : i16Max ≤ m.pulses + call.pulses) :
    machine.out m call ≠ m.pulses + call.pulses := by
  have hmax : i16Max = 32767 := rfl
  have hbig : i64Max = 9223372036854775807 := rfl
  have hlt := h.lt
  have hraw := reading_of_ok h.reg hok
  rw [hmax] at hlt hround hraw
  rcases Nat.lt_or_ge ((m.pulses + call.pulses) % 32767) last with hbelow | habove
  · obtain ⟨-, hout⟩ := of_delta h.counter hraw (if_neg (by omega)) (by omega) (by omega)
    omega
  · obtain ⟨-, hout⟩ := of_delta h.counter hraw (if_pos (by omega)) (by omega) (by omega)
    omega

/-- Before the first pulse that is read, a failed read does no harm. -/
theorem UpTo.fail (h : UpTo 0 m) (hfail : call.readOk = false) : UpTo 0 (machine.next m call) := by
  obtain ⟨hcounter, -⟩ := of_delta h.counter (reading_of_fail hfail) (if_pos (by omega)) (by omega)
    (by decide)
  exact ⟨next_reg h.reg call, hcounter, Nat.zero_le _, h.lt⟩

/-- Behind it, a failed read is taken for a round. -/
theorem UpTo.fail_late (h : UpTo last m) (hlast : last ≠ 0) (hfail : call.readOk = false) :
    Misled (machine.next m call) := by
  have hmax : i16Max = 32767 := rfl
  have hbig : i64Max = 9223372036854775807 := rfl
  have hlt := h.lt
  obtain ⟨hcounter, -⟩ := of_delta h.counter (reading_of_fail hfail) (if_neg (by omega)) (by omega)
    (by omega)
  refine ⟨next_reg h.reg call, hcounter.trans ?_⟩
  congr 1
  omega

theorem Misled.fail (h : Misled m) (hfail : call.readOk = false) :
    Misled (machine.next m call) := by
  obtain ⟨hcounter, -⟩ := of_delta h.counter (reading_of_fail hfail) (if_pos (by omega)) (by omega)
    (by decide)
  exact ⟨next_reg h.reg call, hcounter⟩

/-- From then on no read is exact. -/
theorem Misled.read (h : Misled m) (hok : call.readOk = true) :
    machine.out m call ≠ m.pulses + call.pulses := by
  have hmax : i16Max = 32767 := rfl
  have hbig : i64Max = 9223372036854775807 := rfl
  have hraw := reading_of_ok h.reg hok
  rw [hmax] at hraw
  obtain ⟨-, hout⟩ := of_delta h.counter hraw (if_pos (by omega)) (by omega) (by omega)
  omega

end Step

/-! ## What a run does -/

/-- What holds of the calls of a run holds of the first one and of the rest. -/
theorem exact_cons {m : PulseMeter} {call : CountCall} {calls : List CountCall} :
    Exact m (call :: calls) ↔
      (call.readOk = true → machine.out m call = m.pulses + call.pulses) ∧
        Exact (machine.next m call) calls := by
  rw [Exact, Machine.trace_cons, List.forall_mem_cons]
  rfl

/-- A misled counter is exact only if it is not read any more. -/
theorem Misled.exact_iff {m : PulseMeter} (h : Misled m) (calls : List CountCall) :
    Exact m calls ↔ ∀ call ∈ calls, call.readOk = false := by
  induction calls generalizing m with
  | nil => exact ⟨fun _ call hmem => absurd hmem List.not_mem_nil, fun _ t hmem =>
      absurd hmem List.not_mem_nil⟩
  | cons call calls ih =>
      rw [exact_cons, List.forall_mem_cons]
      cases hread : call.readOk with
      | true =>
          exact iff_of_false (fun hexact => h.read hread (hexact.1 rfl))
            fun hfail => Bool.false_ne_true hfail.1.symm
      | false =>
          rw [ih (h.fail hread)]
          exact and_congr_left fun _ =>
            iff_of_true (fun hok => absurd hok Bool.false_ne_true) rfl

/-- An exact counter stays exact as long as the calls are those of the first round. -/
theorem UpTo.exact_iff {m : PulseMeter} {last : Nat} (h : UpTo last m) (calls : List CountCall) :
    Exact m calls ↔ FirstRound m.pulses last calls := by
  induction calls generalizing m last with
  | nil => exact ⟨fun _ => trivial, fun _ t hmem => absurd hmem List.not_mem_nil⟩
  | cons call calls ih =>
      rw [exact_cons, FirstRound]
      cases hread : call.readOk with
      | true =>
          rw [if_pos rfl]
          rcases Nat.lt_or_ge (m.pulses + call.pulses) i16Max with hround | hround
          · obtain ⟨hout, hnext⟩ := h.read hread hround
            rw [ih hnext]
            exact and_congr_left fun _ => iff_of_true (fun _ => hout) hround
          · exact iff_of_false (fun hexact => h.read_late hread hround (hexact.1 rfl))
              fun hlt => Nat.not_le_of_lt hlt.1 hround
      | false =>
          rw [if_neg Bool.false_ne_true]
          rcases eq_or_ne last 0 with rfl | hlast
          · rw [if_pos rfl, ih (h.fail hread)]
            exact and_iff_right fun hok => absurd hok Bool.false_ne_true
          · rw [if_neg hlast, (h.fail_late hlast hread).exact_iff]
            exact and_iff_right fun hok => absurd hok Bool.false_ne_true

/-- The total only goes up, and it returns to no value below it. -/
theorem outputs_sorted {m : PulseMeter} (hmax : m.counter.total ≤ i64Max)
    (calls : List CountCall) :
    (∀ n ∈ (machine.trace m calls).map Machines.Transition.output, m.counter.total.toNat ≤ n) ∧
      ((machine.trace m calls).map Machines.Transition.output).Pairwise (· ≤ ·) := by
  induction calls generalizing m with
  | nil => exact ⟨fun n hmem => absurd hmem List.not_mem_nil, List.Pairwise.nil⟩
  | cons call calls ih =>
      obtain ⟨hup, hmax'⟩ := EspPulseCounter.total_count hmax (reading m call)
      obtain ⟨hle, hpairwise⟩ := @ih (machine.next m call) hmax'
      have hout : m.counter.total.toNat ≤ machine.out m call := Int.toNat_le_toNat hup
      rw [Machine.trace_cons, List.map_cons, List.forall_mem_cons, List.pairwise_cons]
      exact ⟨⟨hout, fun n hmem => hout.trans (hle n hmem)⟩, hle, hpairwise⟩

/-- The values that are returned never go down.  Those of the calls that read the register are
the pulses since `new` just if the calls are those of the first round. -/
theorem count_exact_iff (calls : List CountCall) :
    (Exact .new calls ∧
        ((machine.trace .new calls).map Machines.Transition.output).Pairwise (· ≤ ·)) ↔
      FirstRound 0 0 calls := by
  have hsorted := (@outputs_sorted .new (by decide) calls).2
  have hexact := upTo_new.exact_iff calls
  exact ⟨fun h => hexact.mp h.1, fun h => ⟨hexact.mpr h, hsorted⟩⟩

/-- Pulses come in two portions, both below the limit, and 40000 of them are counted as
40001. -/
theorem round_counted_long :
    ¬ Exact .new [⟨30000, true⟩, ⟨10000, true⟩] := by
  intro hexact
  obtain ⟨-, hsecond⟩ := exact_cons.mp hexact
  obtain ⟨hsecond, -⟩ := exact_cons.mp hsecond
  have hfirst : machine.next new ⟨30000, true⟩ = ⟨30000, ⟨30000, 30000⟩, 30000⟩ := by
    rw [Machine.next, machine]
    simp only [new, Pcnt.pulses_eq 30000 (show 0 < i16Max by decide)]
    rfl
  rw [hfirst, Machine.out, machine] at hsecond
  simp only [Pcnt.pulses_eq 10000 (show 30000 < i16Max by decide)] at hsecond
  exact absurd (hsecond trivial) (by decide)

end PulseMeter

end WaterController
