import WaterController.Valve.Refinement

/-!
# The motor interlock, down to the pins

The tick loop writes the outputs of every tick to three pins, one write after
another, and a pin keeps its level until its next write.  `plantMachine` is the
valve with those pins, and the output of a tick is every level the pins pass
through.

Both results rest on one fact about the sequencer.  A motor is driven only
inside the sequence that runs it (`tick_motor`), and a sequence starts only from
a valve that runs none (`running?_next`).  So a pin that is high names the
sequence in progress (`Plant.Named`), and the opposite motor has to wait for
that sequence to end, for a command to start its own, and for the settle window
of that one.
-/

namespace WaterController

open Machines (Machine Transition)

/-! ## Motors -/

/-- The two motors of the valve. -/
inductive Motor where
  | opening
  | closing
deriving DecidableEq, Repr

/-- The other motor. -/
def Motor.opposite : Motor → Motor
  | opening => closing
  | closing => opening

/-- The level an output record asks for on a motor. -/
def ValveOutputs.motor (o : ValveOutputs) : Motor → Bool
  | .opening => o.openMotor
  | .closing => o.closeMotor

/-- The start of the sequence that runs a motor, if it is in progress. -/
def Phase.running? : Phase → Motor → Option Nat
  | .turningOn s, .opening | .turningOff s, .closing => some s
  | _, _ => none

theorem Phase.running?_opposite {ph : Phase} {m : Motor} {s : Nat} (h : ph.running? m = some s) :
    ph.running? m.opposite = none := by
  cases ph <;> cases m <;> simp_all [Phase.running?, Motor.opposite]

namespace WaterValve

theorem TickStep.motor {v v' : WaterValve} {now : Nat} {o : ValveOutputs} {m : Motor}
    (hstep : TickStep v now v' o) (h : o.motor m = true) :
    ∃ s, v.phase.running? m = some s ∧ s + settleMs ≤ now ∧ v' = v := by
  have hset : 0 < settleMs := by decide
  cases hstep with
  | opening s hp hlt =>
      cases m with
      | opening =>
          have hpulse : Stage.InPulse v.timing (now - s) := of_decide_eq_true h
          have hle := hpulse.1
          exact ⟨s, by rw [hp]; rfl, by omega, rfl⟩
      | closing => cases h
  | closing s hp hlt =>
      cases m with
      | opening => cases h
      | closing =>
          have hpulse : Stage.InPulse v.timing (now - s) := of_decide_eq_true h
          have hle := hpulse.1
          exact ⟨s, by rw [hp]; rfl, by omega, rfl⟩
  | idle | opened | closedDry | closedWet | draining | drained => cases m <;> cases h

theorem TickStep.running? {v v' : WaterValve} {now : Nat} {o : ValveOutputs} {m : Motor} {s : Nat}
    (hstep : TickStep v now v' o) (h : v'.phase.running? m = some s) :
    v.phase.running? m = some s := by
  cases hstep with
  | idle | opening | closing | draining => exact h
  | opened | closedDry | closedWet | drained => cases m <;> cases h

/-- A tick drives a motor only inside its sequence and past the settle window,
and stays in that sequence. -/
theorem tick_motor {v : WaterValve} {now : Nat} {m : Motor}
    (h : (v.tick now).2.motor m = true) :
    ∃ s, v.phase.running? m = some s ∧ s + settleMs ≤ now ∧ (v.tick now).1 = v :=
  (v.tick_step now).motor h

/-- No tick drives both motors. -/
theorem tick_motor_opposite {v : WaterValve} {now : Nat} {m : Motor}
    (h : (v.tick now).2.motor m = true) : (v.tick now).2.motor m.opposite = false := by
  obtain ⟨s, hs, -, -⟩ := tick_motor h
  rw [Bool.eq_false_iff]
  intro hopp
  obtain ⟨s', hs', -, -⟩ := tick_motor hopp
  rw [Phase.running?_opposite hs] at hs'
  cases hs'

/-- No tick drives a motor together with the drain. -/
theorem TickStep.drain {v v' : WaterValve} {now : Nat} {o : ValveOutputs}
    (hstep : TickStep v now v' o) (h : o.drain = true) (m : Motor) : o.motor m = false := by
  cases hstep with
  | closedWet | draining => cases m <;> rfl
  | idle | opening | opened | closing | closedDry | drained => cases h

/-- A sequence goes on from before the operation, or an operation that carries
its time started it on a valve that ran none. -/
theorem running?_next {v : WaterValve} {op : ValveOp} {m : Motor} {s : Nat}
    (h : (valveMachine.next v op).phase.running? m = some s) :
    v.phase.running? m = some s ∨ (op.nowMs? = some s ∧ ∀ m', v.phase.running? m' = none) := by
  obtain ⟨phase, userState, timing⟩ := v
  cases op with
  | turnOn t => cases phase <;> cases userState <;> cases m <;> simp_all [turnOn, Phase.running?,
      ValveOp.nowMs?]
  | turnOff t => cases phase <;> cases userState <;> cases m <;> simp_all [turnOff, Phase.running?,
      ValveOp.nowMs?]
  | setTiming t => exact .inl h
  | tick t =>
      exact .inl ((tick_step _ t).running? h)

end WaterValve

/-! ## Pins -/

/-- The levels of the three valve pins. -/
structure Pins where
  openPin : Bool := false
  closePin : Bool := false
  drainPin : Bool := false
deriving DecidableEq, Repr

namespace Pins

/-- The level of a motor's pin. -/
def motor (p : Pins) : Motor → Bool
  | .opening => p.openPin
  | .closing => p.closePin

/-- The levels after each of the three writes of a tick, in their order. -/
def writes (p : Pins) (o : ValveOutputs) : List Pins :=
  let p₁ := { p with openPin := o.openMotor }
  let p₂ := { p₁ with closePin := o.closeMotor }
  let p₃ := { p₂ with drainPin := o.drain }
  [p₁, p₂, p₃]

/-- The levels once the writes of a tick are done. -/
def settled (o : ValveOutputs) : Pins := ⟨o.openMotor, o.closeMotor, o.drain⟩

theorem getLast_writes (p : Pins) (o : ValveOutputs) : (p.writes o).getLast? = some (settled o) :=
  rfl

@[simp] theorem motor_settled (o : ValveOutputs) (m : Motor) : (settled o).motor m = o.motor m := by
  cases m <;> rfl

/-- Both motor pins are low or only one is high. -/
def Exclusive (p : Pins) : Prop := ¬ (p.openPin = true ∧ p.closePin = true)

instance (p : Pins) : Decidable p.Exclusive := inferInstanceAs (Decidable (¬ _))

theorem exclusive_of_motor {p : Pins}
    (h : ∀ m, p.motor m = true → p.motor m.opposite = false) : p.Exclusive := by
  rintro ⟨ho, hc⟩
  have := h .opening ho
  rw [show p.motor Motor.opening.opposite = p.closePin from rfl, hc] at this
  cases this

end Pins

/-- A valve and the pins its ticks are written to. -/
structure Plant where
  valve : WaterValve
  pins : Pins
deriving DecidableEq, Repr

/-- The plant at boot: the pins are initialised low, and the valve may have been
restored from a persisted state. -/
def Plant.boot (timing : ValveTiming) (restored : Option Bool) : Plant where
  valve := restored.elim (WaterValve.withTiming timing) (WaterValve.withTiming timing).restore
  pins := {}

/-- The valve and its pins.  Only a tick writes, and its output is every level
the pins pass through. -/
def plantMachine : Machine Plant ValveOp (List Pins) where
  step p op :=
    match valveMachine.step p.valve op with
    | (valve, some o) => (⟨valve, Pins.settled o⟩, p.pins.writes o)
    | (valve, none) => ({ p with valve }, [])

namespace Plant

theorem next_valve (p : Plant) (op : ValveOp) :
    (plantMachine.next p op).valve = valveMachine.next p.valve op := by
  cases op <;> rfl

/-! ## The invariant -/

/-- A motor pin that is high names the sequence in progress, and no motor pin is
high together with the drain. -/
structure Named (p : Plant) : Prop where
  running : ∀ m, p.pins.motor m = true → ∃ s, p.valve.phase.running? m = some s
  drain : p.pins.drainPin = true → ∀ m, p.pins.motor m = false

theorem named_boot (timing : ValveTiming) (restored : Option Bool) :
    (boot timing restored).Named where
  running m h := by cases m <;> cases h
  drain h := by cases h

theorem Named.opposite {p : Plant} (h : p.Named) {m : Motor} (hm : p.pins.motor m = true) :
    p.pins.motor m.opposite = false := by
  rw [Bool.eq_false_iff]
  intro hopp
  obtain ⟨s, hs⟩ := h.running m hm
  obtain ⟨s', hs'⟩ := h.running _ hopp
  rw [Phase.running?_opposite hs] at hs'
  cases hs'

/-- A sequence in progress is still there after a command or a timing change. -/
private theorem running?_keep {v : WaterValve} {m : Motor} {s : Nat}
    (h : v.phase.running? m = some s) :
    (∀ t, (v.turnOn t).phase.running? m = some s) ∧
      ∀ t, (v.turnOff t).phase.running? m = some s := by
  obtain ⟨phase, userState, timing⟩ := v
  cases phase <;> cases m <;> simp_all [WaterValve.turnOn, WaterValve.turnOff, Phase.running?]

theorem Named.next {p : Plant} (h : p.Named) (op : ValveOp) : (plantMachine.next p op).Named := by
  cases op with
  | turnOn t =>
      refine ⟨?_, h.drain⟩
      intro m hm
      obtain ⟨s, hs⟩ := h.running m hm
      exact ⟨s, (running?_keep hs).1 t⟩
  | turnOff t =>
      refine ⟨?_, h.drain⟩
      intro m hm
      obtain ⟨s, hs⟩ := h.running m hm
      exact ⟨s, (running?_keep hs).2 t⟩
  | setTiming timing => exact ⟨h.running, h.drain⟩
  | tick t =>
      constructor
      · intro m hm
        have hout : (p.valve.tick t).2.motor m = true := (Pins.motor_settled _ m).symm.trans hm
        obtain ⟨s, hs, -, hv⟩ := WaterValve.tick_motor hout
        exact ⟨s, by rw [next_valve, valveMachine_tick, hv, hs]⟩
      · intro hd m
        exact (Pins.motor_settled _ m).trans ((p.valve.tick_step t).drain hd m)

/-- No level the pins pass through during a step has both motor pins high. -/
theorem Named.exclusive_writes {p : Plant} (h : p.Named) (op : ValveOp) :
    ∀ q ∈ plantMachine.out p op, q.Exclusive := by
  cases op with
  | turnOn t | turnOff t | setTiming timing => intro q hq; cases hq
  | tick t =>
      -- The open pin is written while the close pin still has its old level.
      have hfirst : ¬ ((p.valve.tick t).2.openMotor = true ∧ p.pins.closePin = true) := by
        rintro ⟨ho, hc⟩
        obtain ⟨s, hs, -, -⟩ := WaterValve.tick_motor (m := .opening) ho
        obtain ⟨s', hs'⟩ := h.running .closing hc
        have hnone : p.valve.phase.running? .closing = none := Phase.running?_opposite hs
        rw [hnone] at hs'
        cases hs'
      have hboth : ¬ ((p.valve.tick t).2.openMotor = true ∧
          (p.valve.tick t).2.closeMotor = true) := by
        rintro ⟨ho, hc⟩
        have hopp := WaterValve.tick_motor_opposite (m := .opening) ho
        rw [show (p.valve.tick t).2.motor Motor.opening.opposite =
          (p.valve.tick t).2.closeMotor from rfl, hc] at hopp
        cases hopp
      intro q hq
      have hmem : q ∈ p.pins.writes (p.valve.tick t).2 := hq
      simp only [Pins.writes, List.mem_cons, List.not_mem_nil, or_false] at hmem
      rcases hmem with rfl | rfl | rfl
      · exact hfirst
      · exact hboth
      · exact hboth

/-! ## Dead time -/

/-- A transition that takes a motor's pin from high to low. -/
def Drops (t : Transition Plant ValveOp (List Pins)) (m : Motor) : Prop :=
  t.before.pins.motor m = true ∧ t.after.pins.motor m = false

/-- A transition that takes a motor's pin from low to high. -/
def Raises (t : Transition Plant ValveOp (List Pins)) (m : Motor) : Prop :=
  t.before.pins.motor m = false ∧ t.after.pins.motor m = true

/-- A sequence in progress started no earlier than any drop of the opposite
motor's pin. -/
def StartsAfterDrops (h : List (Transition Plant ValveOp (List Pins))) (p : Plant) : Prop :=
  ∀ t ∈ h, ∀ m, Drops t m → ∀ s, p.valve.phase.running? m.opposite = some s →
    ∀ a ∈ t.input.nowMs?, a ≤ s

/-- The pin of a motor is dropped only out of the sequence that runs it. -/
theorem Named.drops {p : Plant} (h : p.Named) {op : ValveOp} {m : Motor}
    (hd : Drops (plantMachine.transition p op) m) :
    (plantMachine.next p op).valve.phase.running? m.opposite = none := by
  obtain ⟨s, hs⟩ := h.running m hd.1
  have hnone := Phase.running?_opposite hs
  rw [next_valve]
  cases hrun : (valveMachine.next p.valve op).phase.running? m.opposite with
  | none => rfl
  | some s' =>
      rcases WaterValve.running?_next hrun with hold | ⟨-, hall⟩
      · rw [hnone] at hold
        cases hold
      · rw [hall m] at hs
        cases hs

theorem StartsAfterDrops.next {h : List (Transition Plant ValveOp (List Pins))} {p : Plant}
    {op : ValveOp} (hp : p.Named) (hJ : StartsAfterDrops h p)
    (htime : ∀ u ∈ h, ∀ a ∈ u.input.nowMs?, ∀ b ∈ op.nowMs?, a ≤ b) :
    StartsAfterDrops (h ++ [plantMachine.transition p op]) (plantMachine.next p op) := by
  intro t ht m hd s hs a ha
  rcases List.mem_append.mp ht with hold | hnew
  · rw [next_valve] at hs
    rcases WaterValve.running?_next hs with hrun | ⟨hop, -⟩
    · exact hJ t hold m hd s hrun a ha
    · exact htime t hold a ha s hop
  · rw [List.mem_singleton.mp hnew] at hd
    rw [hp.drops hd] at hs
    cases hs

/-- A pin is raised only past the settle window of the sequence that runs its
motor. -/
theorem raises_settle {p : Plant} {op : ValveOp} {m : Motor}
    (h : Raises (plantMachine.transition p op) m) :
    ∃ s now, p.valve.phase.running? m = some s ∧ op.nowMs? = some now ∧ s + settleMs ≤ now := by
  cases op with
  | turnOn t | turnOff t | setTiming timing =>
      have hsame : p.pins.motor m = true := h.2
      rw [show p.pins.motor m = false from h.1] at hsame
      cases hsame
  | tick t =>
      have hout : (p.valve.tick t).2.motor m = true := (Pins.motor_settled _ m).symm.trans h.2
      obtain ⟨s, hs, hle, -⟩ := WaterValve.tick_motor hout
      exact ⟨s, t, hs, rfl, hle⟩

/-- **Motor interlock.**  In every run of a valve from boot, no level the pins
pass through has both motor pins high, and the drain pin is never high together
with a motor pin once a tick has been written.  If moreover the clock never goes
back, a settle window lies between the tick that drops a motor's pin and any
later tick that raises the opposite one. -/
theorem motor_interlock (timing : ValveTiming) (restored : Option Bool) (ops : List ValveOp) :
    (∀ t ∈ plantMachine.trace (boot timing restored) ops,
      (∀ q ∈ t.output, q.Exclusive) ∧ t.after.pins.Exclusive ∧
        (t.after.pins.drainPin = true → ∀ m, t.after.pins.motor m = false)) ∧
    (Machine.Timed ValveOp.nowMs? ops →
      ∀ pre t mid u post m,
        plantMachine.trace (boot timing restored) ops = pre ++ t :: (mid ++ u :: post) →
        Drops t m → Raises u m.opposite →
        ∀ a ∈ t.input.nowMs?, ∀ b ∈ u.input.nowMs?, a + settleMs ≤ b) := by
  constructor
  · intro t ht
    obtain ⟨ops₁, op, ops₂, rfl, rfl⟩ := plantMachine.mem_trace ht
    have hp : (plantMachine.run (boot timing restored) ops₁).Named :=
      plantMachine.run_invariant (G := fun _ _ => True) (fun _ op _ h => h.next op)
        (named_boot timing restored) fun _ _ => trivial
    exact ⟨hp.exclusive_writes op,
      Pins.exclusive_of_motor fun m hm => (hp.next op).opposite hm, (hp.next op).drain⟩
  · intro htimed pre t mid u post m hsplit hdrop hraise a ha b hb
    have hsplit' : plantMachine.trace (boot timing restored) ops = (pre ++ t :: mid) ++ u :: post :=
      by rw [hsplit]; simp
    obtain ⟨⟨-, hafter⟩, -⟩ := plantMachine.trace_history_before
      (J := fun h p => p.Named ∧ StartsAfterDrops h p)
      (G := fun h _ op => ∀ u ∈ h, ∀ a ∈ u.input.nowMs?, ∀ b ∈ op.nowMs?, a ≤ b)
      (fun h p op htime hJ => ⟨hJ.1.next op, hJ.2.next hJ.1 htime⟩)
      ⟨named_boot timing restored, fun t ht => by cases ht⟩
      (fun pre t post h => htimed.trace_le plantMachine h) hsplit'
    obtain ⟨ops₁, op, ops₂, rfl, hpre, rfl, -⟩ := plantMachine.trace_split hsplit'
    obtain ⟨s, now, hs, hnow, hle⟩ := raises_settle hraise
    have hstart : a ≤ s := hafter t (by simp) m hdrop s hs a ha
    have hb' : b = now := Option.some.inj (hb.symm.trans hnow)
    omega

/-- An opening and a closing with a pulse of one second: the open pin drops at
2000 and the close pin rises at 4000. -/
theorem motor_interlock_open_close :
    let run := plantMachine.run (boot ⟨1, 0⟩ none)
    Drops (plantMachine.transition (run [.turnOn 0, .tick 1000]) (.tick 2000)) .opening ∧
      Raises (plantMachine.transition (run [.turnOn 0, .tick 1000, .tick 2000, .tick 3000,
        .turnOff 3000]) (.tick 4000)) .closing ∧ 2000 + settleMs ≤ 4000 := by
  refine ⟨⟨rfl, rfl⟩, ⟨rfl, rfl⟩, ?_⟩
  let ops : List ValveOp :=
    [.turnOn 0, .tick 1000, .tick 2000, .tick 3000, .turnOff 3000, .tick 4000]
  have htimed : Machine.Timed ValveOp.nowMs? ops := by simp [Machine.Timed, ops, ValveOp.nowMs?]
  exact (motor_interlock ⟨1, 0⟩ none ops).2 htimed _ _ _ _ [] .opening
    (show plantMachine.trace _ ops = [_, _] ++ _ :: ([_, _] ++ _ :: []) from rfl)
    ⟨rfl, rfl⟩ ⟨rfl, rfl⟩ 2000 rfl 4000 rfl

end Plant

end WaterController
