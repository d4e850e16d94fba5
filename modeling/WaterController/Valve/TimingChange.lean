import WaterController.Valve.Pulse

/-!
# A new timing in the middle of a sequence

A tick computes the phase boundaries of the sequence in progress from the timing that
is in force, so a new timing can move a boundary across the time that has passed.
Here the run of a sequence is compared with the run that leaves the timing changes out.
The two show the same until a tick falls between the old and the new place of a
boundary (`Crosses`), and differ at that tick (`shown_iff`).
-/

namespace WaterController

open Machines (Machine Transition)

/-! ## What a sequence shows -/

/-- What a tick shows of a sequence: the motors, whether the sequence goes on behind it,
and the user state. -/
structure Shown where
  nowMs : Nat
  outputs : Motor → Bool
  busy : Bool
  userState : Bool

/-- The level a tick shows of a motor. -/
def Shown.sample (m : Motor) (x : Shown) : Sampling.Sample := (x.nowMs, x.outputs m)

/-- The part of a run that belongs to the sequence in progress at its start. -/
def sequenceOf (run : List ValveTransition) : List ValveTransition :=
  run.takeWhile (·.before.isBusy)

/-- What a transition shows, if it is a tick. -/
def shown? (t : ValveTransition) : Option Shown :=
  match t.input, t.output with
  | .tick now, some o => some ⟨now, o.motor, t.after.isBusy, t.after.userState⟩
  | _, _ => none

/-- What the sequence in progress shows, up to the tick that completes it. -/
def shown (run : List ValveTransition) : List Shown := (sequenceOf run).filterMap shown?

/-- A time lies between the old and the new place of a boundary. -/
def Between (a b elapsed : Nat) : Prop := min a b ≤ elapsed ∧ elapsed < max a b

/-- A time since the start of a sequence lies between the ends of the pulse of two
timings, or between the ends of their sequences. -/
def Crosses (a b : ValveTiming) (elapsed : Nat) : Prop :=
  Between (settleMs + a.motorRunMs) (settleMs + b.motorRunMs) elapsed ∨
    Between a.sequenceMs b.sequenceMs elapsed

instance (a b : ValveTiming) (elapsed : Nat) : Decidable (Crosses a b elapsed) :=
  inferInstanceAs (Decidable ((_ ∧ _) ∨ _ ∧ _))

/-- Where no boundary is crossed, the timings agree on the pulse and on the end. -/
theorem not_crosses_iff {a b : ValveTiming} {elapsed : Nat} :
    ¬ Crosses a b elapsed ↔
      (Stage.InPulse a elapsed ↔ Stage.InPulse b elapsed) ∧
        (a.sequenceMs ≤ elapsed ↔ b.sequenceMs ≤ elapsed) := by
  simp only [Crosses, Between, Stage.InPulse, ValveTiming.sequenceMs]
  omega

namespace WaterValve

/-- What a tick at a time shows of a sequence of a motor under a timing. -/
def shownAt (m : Motor) (s : Nat) (timing : ValveTiming) (now : Nat) : Shown where
  nowMs := now
  outputs m' := decide (m' = m) && decide (Stage.InPulse timing (now - s))
  busy := !decide (timing.sequenceMs ≤ now - s)
  userState := if timing.sequenceMs ≤ now - s then m.opens else !m.opens

/-- Two timings show the same at a time exactly where no boundary is crossed. -/
theorem shownAt_eq_iff (m : Motor) (s : Nat) (a b : ValveTiming) (now : Nat) :
    shownAt m s a now = shownAt m s b now ↔ ¬ Crosses a b (now - s) := by
  rw [not_crosses_iff]
  constructor
  · intro h
    have hpulse := congrFun (congrArg Shown.outputs h) m
    have hbusy := congrArg Shown.busy h
    simpa [shownAt] using And.intro hpulse hbusy
  · rintro ⟨hpulse, hend⟩
    simp only [shownAt, hpulse, hend]

/-- What a tick of a sequence shows. -/
theorem shown?_tick {v : WaterValve} {m : Motor} {s : Nat} (hp : v.phase = m.phase s)
    (hstate : v.userState = !m.opens) (now : Nat) :
    shown? (valveMachine.transition v (.tick now)) = some (shownAt m s v.timing now) := by
  show some (Shown.mk now (v.tick now).2.motor (v.tick now).1.isBusy (v.tick now).1.userState) = _
  by_cases hle : v.timing.sequenceMs ≤ now - s
  · have hdone := (v.tick_step now).completes hp hle
    have hlow : (v.tick now).2.motor = fun m' => decide (m' = m) &&
        decide (Stage.InPulse v.timing (now - s)) := by
      funext m'
      simp [hdone.motors m', Stage.not_inPulse_of_le hle]
    rw [hlow, hdone.notBusy, hdone.userState, shownAt, if_pos hle]
    simp [hle]
  · obtain ⟨hsame, hout⟩ := (v.tick_step now).inSequence hp (Nat.lt_of_not_le hle)
    have hdriven : (v.tick now).2.motor = fun m' => decide (m' = m) &&
        decide (Stage.InPulse v.timing (now - s)) := by
      funext m'
      rw [hout]
      cases m <;> cases m' <;> simp [Motor.outputs, ValveOutputs.motor]
    rw [hsame, hdriven, isBusy_of_phase hp, hstate, shownAt, if_neg hle]
    simp [hle]

/-! ## Two runs -/

/-- A valve that is not busy shows nothing of a sequence. -/
theorem sequenceOf_of_not_busy {v : WaterValve} (h : v.isBusy = false) (ops : List ValveOp) :
    sequenceOf (valveMachine.trace v ops) = [] := by
  cases ops with
  | nil => rfl
  | cons op ops =>
      rw [Machine.trace_cons, sequenceOf, List.takeWhile_cons_of_neg]
      simp [h]

theorem sequenceOf_cons {v : WaterValve} (h : v.isBusy = true) (op : ValveOp)
    (ops : List ValveOp) :
    sequenceOf (valveMachine.trace v (op :: ops)) =
      valveMachine.transition v op ::
        sequenceOf (valveMachine.trace (valveMachine.next v op) ops) := by
  rw [Machine.trace_cons, sequenceOf, List.takeWhile_cons_of_pos]
  · rfl
  · exact h

theorem shown_cons {v : WaterValve} (h : v.isBusy = true) (op : ValveOp) (ops : List ValveOp) :
    shown (valveMachine.trace v (op :: ops)) =
      (shown? (valveMachine.transition v op)).toList ++
        shown (valveMachine.trace (valveMachine.next v op) ops) := by
  rw [shown, sequenceOf_cons h, List.filterMap_cons]
  cases shown? (valveMachine.transition v op) <;> rfl

/-- A valve in the middle of a sequence of a motor. -/
structure InSequence (m : Motor) (s : Nat) (v : WaterValve) : Prop where
  phase : v.phase = m.phase s
  userState : v.userState = !m.opens

/-- A valve in the middle of a sequence stays there, whatever is not a tick. -/
theorem InSequence.next {m : Motor} {s : Nat} {v : WaterValve} (h : InSequence m s v)
    {op : ValveOp} (hop : op.tickMs? = none) :
    InSequence m s (valveMachine.next v op) ∧
      (op.keepsTiming = true → valveMachine.next v op = v) := by
  have hturn := fun t => turn_of_isBusy (isBusy_of_phase h.phase) t
  cases op with
  | turnOn t =>
      rw [valveMachine_turnOn, (hturn t).1]
      exact ⟨h, fun _ => rfl⟩
  | turnOff t =>
      rw [valveMachine_turnOff, (hturn t).2]
      exact ⟨h, fun _ => rfl⟩
  | setTiming timing => exact ⟨⟨h.phase, h.userState⟩, fun hkeeps => by cases hkeeps⟩
  | tick t => cases hop

/-- A tick in front of the end leaves a sequence as it is. -/
theorem InSequence.tick {m : Motor} {s : Nat} {v : WaterValve} (h : InSequence m s v) {now : Nat}
    (hlt : now - s < v.timing.sequenceMs) : valveMachine.next v (.tick now) = v :=
  ((v.tick_step now).inSequence h.phase hlt).1

/-- Only ticks show something. -/
theorem shown?_of_not_tick {v : WaterValve} {op : ValveOp} (h : op.tickMs? = none) :
    shown? (valveMachine.transition v op) = none := by
  cases op with
  | tick t => cases h
  | turnOn | turnOff | setTiming => rfl

/-- The operations without the changes of the timing. -/
def withoutTiming (ops : List ValveOp) : List ValveOp := ops.filter (·.keepsTiming)

/-- What is not a tick adds nothing to what a sequence shows without timing changes. -/
theorem shown_withoutTiming_cons {m : Motor} {s : Nat} {w : WaterValve} (hw : InSequence m s w)
    {op : ValveOp} (hop : op.tickMs? = none) (ops : List ValveOp) :
    shown (valveMachine.trace w (withoutTiming (op :: ops))) =
      shown (valveMachine.trace w (withoutTiming ops)) := by
  cases hkeeps : op.keepsTiming with
  | false => rw [withoutTiming, List.filter_cons_of_neg (by simp [hkeeps]), withoutTiming]
  | true =>
      rw [withoutTiming, List.filter_cons_of_pos hkeeps, shown_cons (isBusy_of_phase hw.phase),
        shown?_of_not_tick hop, (hw.next hop).2 hkeeps]
      rfl

/-- A sequence shows what it shows without the changes of the timing exactly where no tick
crosses a boundary. -/
theorem shown_iff {m : Motor} {s : Nat} {v w : WaterValve} (hv : InSequence m s v)
    (hw : InSequence m s w) (ops : List ValveOp) :
    shown (valveMachine.trace v ops) = shown (valveMachine.trace w (withoutTiming ops)) ↔
      ∀ t ∈ sequenceOf (valveMachine.trace v ops), ∀ now ∈ t.input.tickMs?,
        ¬ Crosses t.before.timing w.timing (now - s) := by
  induction ops generalizing v with
  | nil => exact iff_of_true rfl fun t ht => by cases ht
  | cons op ops ih =>
      have hbusy := isBusy_of_phase hv.phase
      rw [shown_cons hbusy, sequenceOf_cons hbusy, List.forall_mem_cons]
      cases hop : op.tickMs? with
      | none =>
          rw [shown?_of_not_tick hop, shown_withoutTiming_cons hw hop]
          simpa [hop] using ih (hv.next hop).1
      | some now =>
          obtain rfl : op = .tick now := by
            cases op with
            | tick t => exact congrArg _ (Option.some.inj hop)
            | turnOn | turnOff | setTiming => cases hop
          have hcons : withoutTiming (.tick now :: ops) = .tick now :: withoutTiming ops := rfl
          rw [hcons, shown_cons (isBusy_of_phase hw.phase), shown?_tick hv.phase hv.userState,
            shown?_tick hw.phase hw.userState, Option.toList_some, Option.toList_some,
            List.singleton_append, List.singleton_append, List.cons.injEq, shownAt_eq_iff]
          have hnow : (∀ now' ∈ (valveMachine.transition v (.tick now)).input.tickMs?,
              ¬ Crosses v.timing w.timing (now' - s)) ↔ ¬ Crosses v.timing w.timing (now - s) :=
            ⟨fun h => h now rfl, fun h now' hnow' => by cases hnow'; exact h⟩
          refine (and_congr_right fun hcross => ?_).trans (and_congr_left' hnow.symm)
          have hend := (not_crosses_iff.mp hcross).2
          by_cases hle : v.timing.sequenceMs ≤ now - s
          · -- both sequences end here
            have hdone := ((v.tick_step now).completes hv.phase hle).notBusy
            have hdone' := ((w.tick_step now).completes hw.phase (hend.mp hle)).notBusy
            refine iff_of_true ?_ fun t ht => ?_
            · rw [shown, shown, valveMachine_tick, valveMachine_tick, sequenceOf_of_not_busy hdone,
                sequenceOf_of_not_busy hdone']
            · rw [valveMachine_tick, sequenceOf_of_not_busy hdone] at ht
              cases ht
          · rw [hv.tick (Nat.lt_of_not_le hle), hw.tick (Nat.lt_of_not_le (hle ∘ hend.mpr))]
            exact ih hv

/-! ## The timing at acceptance -/

/-- Under a timing that stays, everything a sequence shows goes by it. -/
theorem shown_of_keepsTiming {m : Motor} {s : Nat} {w : WaterValve} (hw : InSequence m s w)
    {ops : List ValveOp} (hops : ∀ op ∈ ops, op.keepsTiming = true) :
    ∀ x ∈ shown (valveMachine.trace w ops), x = shownAt m s w.timing x.nowMs := by
  induction ops with
  | nil => exact fun x hx => by cases hx
  | cons op ops ih =>
      obtain ⟨hop, hrest⟩ := List.forall_mem_cons.mp hops
      rw [shown_cons (isBusy_of_phase hw.phase)]
      cases htick : op.tickMs? with
      | none =>
          rw [shown?_of_not_tick htick, (hw.next htick).2 hop]
          exact ih hrest
      | some now =>
          obtain rfl : op = .tick now := by
            cases op with
            | tick t => exact congrArg _ (Option.some.inj htick)
            | turnOn | turnOff | setTiming => cases htick
          rw [shown?_tick hw.phase hw.userState, Option.toList_some, List.singleton_append]
          refine List.forall_mem_cons.mpr ⟨rfl, ?_⟩
          by_cases hle : w.timing.sequenceMs ≤ now - s
          · have hdone := ((w.tick_step now).completes hw.phase hle).notBusy
            intro x hx
            rw [shown, valveMachine_tick, sequenceOf_of_not_busy hdone] at hx
            cases hx
          · rw [hw.tick (Nat.lt_of_not_le hle)]
            exact ih hrest

/-- What a run shows is shown at its ticks, in their order. -/
theorem nowMs_shown_sublist (v : WaterValve) (ops : List ValveOp) :
    ((shown (valveMachine.trace v ops)).map Shown.nowMs).Sublist (ValveOp.tickTimes ops) := by
  induction ops generalizing v with
  | nil => exact .slnil
  | cons op ops ih =>
      cases hbusy : v.isBusy with
      | false =>
          rw [shown, sequenceOf_of_not_busy hbusy]
          exact List.nil_sublist _
      | true =>
          rw [shown_cons hbusy]
          cases op with
          | tick t => exact (ih _).cons_cons t
          | turnOn t | turnOff t | setTiming timing => exact ih _

/-- What goes by one timing at times that never go back shows one block of its motor. -/
theorem oneBlock_of_shownAt {m : Motor} {s : Nat} {timing : ValveTiming} {xs : List Shown}
    (hshown : ∀ x ∈ xs, x = shownAt m s timing x.nowMs)
    (hsorted : (xs.map Shown.nowMs).Pairwise (· ≤ ·)) :
    Sampling.OneBlock (xs.map (Shown.sample m)) := by
  have hset : 0 < settleMs := by decide
  have hsees : Sampling.Sees (s + settleMs) (s + settleMs + timing.motorRunMs)
      (xs.map (Shown.sample m)) := by
    intro y hy
    obtain ⟨x, hx, rfl⟩ := List.mem_map.mp hy
    have hlevel : (Shown.sample m x).2 = decide (Stage.InPulse timing (x.nowMs - s)) := by
      rw [Shown.sample, congrFun (congrArg Shown.outputs (hshown x hx)) m, shownAt]
      simp
    rw [hlevel, decide_eq_true_iff, Stage.InPulse]
    simp only [Shown.sample]
    omega
  refine Sampling.oneBlock_of_sees hsees ?_
  rw [List.pairwise_map] at hsorted ⊢
  exact hsorted

/-- **Timing changes.**  In every run from boot, the sequence of an accepted command shows
what it shows without the changes of the timing if and only if no tick of it finds the
time between the old and the new place of a boundary.  It then goes by the timing at its
acceptance, and drives its motor in one block. -/
theorem timing_change_iff (timing : ValveTiming) (restored : Option Bool)
    (earlier : List ValveOp) (m : Motor) (s : Nat) (ops : List ValveOp) :
    let v := valveMachine.run (Plant.boot timing restored).valve earlier
    let w := valveMachine.next v (m.command s)
    let run := valveMachine.trace w ops
    w ≠ v →
    (shown run = shown (valveMachine.trace w (withoutTiming ops)) ↔
      ∀ t ∈ sequenceOf run, ∀ now ∈ t.input.tickMs?,
        ¬ Crosses t.before.timing w.timing (now - s)) ∧
    (shown run = shown (valveMachine.trace w (withoutTiming ops)) →
      (∀ x ∈ shown run, x = shownAt m s w.timing x.nowMs) ∧
        ((ValveOp.tickTimes ops).Pairwise (· ≤ ·) →
          Sampling.OneBlock ((shown run).map (Shown.sample m)))) := by
  intro v w run hne
  obtain ⟨hw, hstate⟩ := (coupled_boot_run timing restored earlier).command_of_ne hne
  have hin : InSequence m s w :=
    ⟨congrArg (·.phase) hw, (congrArg (·.userState) hw).trans hstate⟩
  refine ⟨shown_iff hin hin ops, fun hsame => ?_⟩
  have hshown : ∀ x ∈ shown run, x = shownAt m s w.timing x.nowMs := by
    rw [hsame]
    exact shown_of_keepsTiming hin fun op hop => (List.mem_filter.mp hop).2
  exact ⟨hshown, fun hsorted =>
    oneBlock_of_shownAt hshown (hsorted.sublist (nowMs_shown_sublist w ops))⟩

/-- A pulse of two seconds is over when a pulse of ten seconds is configured: the motor is
energised again. -/
theorem energised_twice :
    let w := (Plant.boot ⟨2, 3⟩ none).valve.turnOn 0
    let ops : List ValveOp := [.tick 1500, .tick 3500, .setTiming ⟨10, 3⟩, .tick 3600]
    (shown (valveMachine.trace w ops)).map (Shown.sample .opening) =
        [(1500, true), (3500, false), (3600, true)] ∧
      shown (valveMachine.trace w ops) ≠ shown (valveMachine.trace w (withoutTiming ops)) := by
  intro w ops
  have hlevels : (shown (valveMachine.trace w ops)).map (Shown.sample .opening) =
      [(1500, true), (3500, false), (3600, true)] := by decide
  refine ⟨hlevels, fun hsame => ?_⟩
  have hwithout : (shown (valveMachine.trace w (withoutTiming ops))).map (Shown.sample .opening) =
      [(1500, true), (3500, false), (3600, false)] := by decide
  rw [← hsame, hlevels] at hwithout
  exact absurd hwithout (by decide)

/-- A pulse of two seconds becomes one of three while it runs.  No tick finds the time at which
only one of them is over. -/
theorem timing_change_in_pulse :
    let v := (Plant.boot ⟨2, 3⟩ none).valve
    let ops : List ValveOp := [.tick 1500, .setTiming ⟨3, 3⟩, .tick 2500, .tick 5500]
    shown (valveMachine.trace (v.turnOn 0) ops) =
        shown (valveMachine.trace (v.turnOn 0) (withoutTiming ops)) ∧
      Sampling.OneBlock ((shown (valveMachine.trace (v.turnOn 0) ops)).map
        (Shown.sample .opening)) := by
  intro v ops
  have hexact := timing_change_iff ⟨2, 3⟩ none [] .opening 0 ops (by decide)
  have hcrosses : ∀ t ∈ sequenceOf (valveMachine.trace (v.turnOn 0) ops),
      ∀ now ∈ t.input.tickMs?, ¬ Crosses t.before.timing ⟨2, 3⟩ (now - 0) := by decide
  have hsame := hexact.1.mpr hcrosses
  exact ⟨hsame, (hexact.2 hsame).2 (by decide)⟩

end WaterValve

end WaterController
