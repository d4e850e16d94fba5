import WaterController.App.Run

/-!
# What the answer to a water command promises

A command that is refused changes nothing.  A command that is accepted sets the
target of the valve, and a run in which nobody else interferes keeps the target
(`Committed`).  The sequence is over at the first tick that is late enough, and
a valve that is not busy shows its target.
-/

namespace WaterController

open Machines (Machine Transition)

namespace Stage

theorem since?_of_not_busy {st : Stage} (h : st.busy = false) : st.since? = none := by
  cases st with
  | closed | opened | draining s => rfl
  | opening s | closing s => cases h

end Stage

namespace WaterValve

/-- The valve after a request. -/
def turn (v : WaterValve) (on : Bool) (now : Nat) : WaterValve :=
  if on then v.turnOn now else v.turnOff now

theorem Coupled.turn {v : WaterValve} (h : v.Coupled) (on : Bool) (now : Nat) :
    (v.turn on now).Coupled := by
  cases on with
  | false => exact h.next (.turnOff now)
  | true => exact h.next (.turnOn now)

theorem Coupled.stage_turn {v : WaterValve} (h : v.Coupled) (on : Bool) (now : Nat) :
    (v.turn on now).stage = v.stage.request on now := by
  cases on with
  | false => exact h.stage_next (.turnOff now)
  | true => exact h.stage_next (.turnOn now)

theorem turn_timing (v : WaterValve) (on : Bool) (now : Nat) :
    (v.turn on now).timing = v.timing := by
  obtain ⟨phase, userState, timing⟩ := v
  cases on <;> cases phase <;> cases userState <;> rfl

/-- A request for the state a valve rests in, and a request to close during the
drain, change nothing. -/
theorem turn_target {v : WaterValve} {on : Bool}
    (h : (v.phase = .idle ∧ v.userState = on) ∨ ((∃ s, v.phase = .draining s) ∧ on = false))
    (now : Nat) : v.turn on now = v := by
  obtain ⟨phase, userState, timing⟩ := v
  rcases h with ⟨hp, hu⟩ | ⟨⟨s, hp⟩, rfl⟩
  · cases hp
    cases hu
    cases userState <;> rfl
  · cases hp
    rfl

end WaterValve

namespace App

variable (serde : Serde (List AlarmEvent))

/-! ## Calls that leave the water alone -/

/-- A call that neither commands the water nor changes its timing.  A tick is one
when its alarm rule gives no command, as a disabled rule never does
(`not_closesAt_of_disabled`). -/
def Undisturbed (app : App) (c : Call) : Prop :=
  match c.op with
  | .switchCommand (.waterControl _) => False
  | .replaceConfigSection cfg _ => cfg.switches.valveTiming = app.valve.timing
  | .tick => ¬ (app.ticked c.time).ClosesAt c.time
  | _ => True

/-- Such a call ticks the valve or leaves it as it is. -/
theorem Undisturbed.valve {app : App} {c : Call} (h : Undisturbed app c) :
    (c.op = .tick ∧ ((appMachine serde).next app c).valve = (app.valve.tick c.time).1) ∨
      (c.op ≠ .tick ∧ ((appMachine serde).next app c).valve = app.valve) := by
  obtain ⟨env, op⟩ := c
  cases op with
  | tick =>
      refine .inl ⟨rfl, ?_⟩
      rw [(next_tick serde app rfl).valve]
      exact if_neg h
  | switchCommand cmd =>
      refine .inr ⟨AppOp.noConfusion, ?_⟩
      rw [next_valve]
      cases cmd with
      | sprinkler1 on | sprinkler2 on => rfl
      | waterControl on => exact h.elim
  | replaceConfigSection cfg section_ =>
      refine .inr ⟨AppOp.noConfusion, ?_⟩
      have ht : cfg.switches.valveTiming = app.valve.timing := h
      rw [next_valve]
      simp [valveOps, ht, WaterValve.setTiming]
  | fireScheduleSprinkler id d | clearFlowAlarm | updateState f hf | emitEvent ev =>
      refine .inr ⟨AppOp.noConfusion, ?_⟩
      rw [next_valve]
      rfl

/-! ## Commitments -/

/-- The valve is on its way to a state, or there, by a sequence that started no
later than `start`. -/
structure Committed (on : Bool) (timing : ValveTiming) (start : Nat) (app : App) : Prop where
  coupled : app.valve.Coupled
  timing : app.valve.timing = timing
  target : app.valve.stage.target = on
  since : ∀ s ∈ app.valve.stage.since?, s ≤ start

variable {on : Bool} {timing : ValveTiming} {start : Nat} {app : App} {c : Call}

theorem Committed.next (h : Committed on timing start app) (hc : Undisturbed app c) :
    Committed on timing start ((appMachine serde).next app c) := by
  have hcoupled := coupled_next serde h.coupled c
  rcases hc.valve serde with ⟨-, hv⟩ | ⟨-, hv⟩
  · exact {
      coupled := hcoupled
      timing := by rw [hv, WaterValve.tick_timing, h.timing]
      target := by rw [hv, h.coupled.stage_tick, Stage.target_elapse, h.target]
      since := by
        rw [hv, h.coupled.stage_tick]
        intro s hs
        exact h.since s (Stage.since?_elapse hs) }
  · exact {
      coupled := hcoupled
      timing := hv ▸ h.timing
      target := hv ▸ h.target
      since := hv ▸ h.since }

/-- A valve that is not busy stays so. -/
theorem Committed.not_busy (h : Committed on timing start app) (hc : Undisturbed app c)
    (hb : app.valve.stage.busy = false) :
    ((appMachine serde).next app c).valve.stage.busy = false := by
  rcases hc.valve serde with ⟨-, hv⟩ | ⟨-, hv⟩
  · rw [hv, h.coupled.stage_tick]
    exact Stage.busy_elapse hb _ _
  · rw [hv]
    exact hb

/-- A tick that is late enough ends the sequence. -/
theorem Committed.settles (h : Committed on timing start app) (hc : Undisturbed app c)
    (htick : c.op = .tick) (hlate : start + timing.sequenceMs ≤ c.time) :
    ((appMachine serde).next app c).valve.stage.busy = false := by
  rcases hc.valve serde with ⟨-, hv⟩ | ⟨hne, -⟩
  · rw [hv, h.coupled.stage_tick, h.timing]
    refine Stage.not_busy_elapse ?_
    intro s hs
    have hle : s ≤ start := h.since s hs
    omega
  · exact absurd htick hne

/-- A committed valve that is not busy shows the state it is committed to. -/
theorem Committed.userState (h : Committed on timing start app)
    (hb : app.valve.stage.busy = false) : app.valve.userState = on := by
  rw [h.coupled.userState_eq, Stage.shown_eq_target hb, h.target]

/-- A valve that is not busy and left alone drives no motor. -/
theorem Committed.no_motor (h : Committed on timing start app)
    (hb : app.valve.stage.busy = false) (htick : c.op = .tick) :
    ∃ o, (appMachine serde).out app c = .outputs o ∧ o.valve.openMotor = false ∧
      o.valve.closeMotor = false := by
  obtain ⟨o, ho, hv⟩ := out_tick serde app htick
  have hdrive := Stage.drive_of_not_busy hb app.valve.timing c.time
  rw [h.coupled.drive_tick] at hv
  exact ⟨o, ho, hv ▸ hdrive.1, hv ▸ hdrive.2⟩

/-! ## The answer -/

theorem switchCommand_busy (env : Env) (on : Bool) (hb : app.valve.isBusy = true) :
    app.switchCommand env (.waterControl on) = (app, .busy "valve sequence in progress") := by
  simp [switchCommand, hb]

theorem switchCommand_ok (env : Env) (on : Bool) (hb : app.valve.isBusy = false) :
    app.switchCommand env (.waterControl on) =
      ({ app with valve := app.valve.turn on env.monotonicMs }, .ok) := by
  simp only [switchCommand, hb, Bool.false_eq_true, if_false]
  rfl

/-- An accepted command commits the valve. -/
theorem committed_turn (h : app.valve.Coupled) (hb : app.valve.isBusy = false) (on : Bool)
    (now : Nat) :
    Committed on app.valve.timing now { app with valve := app.valve.turn on now } := by
  have hnb : app.valve.stage.busy = false := by rw [← hb, WaterValve.isBusy_eq]
  exact {
    coupled := h.turn on now
    timing := WaterValve.turn_timing _ _ _
    target := (congrArg Stage.target (h.stage_turn on now)).trans (Stage.target_request hnb on now)
    since := by
      intro s hs
      have hs' : s ∈ (app.valve.stage.request on now).since? := by
        rw [← h.stage_turn on now]
        exact hs
      rcases Stage.since?_request hs' with rfl | hold
      · exact Nat.le_refl _
      · rw [Stage.since?_of_not_busy hnb] at hold
        cases hold }

/-- A committed valve that is not busy behind a late tick. -/
structure Settled (on : Bool) (timing : ValveTiming) (start : Nat) (past : List AppTransition)
    (app : App) : Prop where
  committed : Committed on timing start app
  idle : (∃ u ∈ past, IsTick u ∧ start + timing.sequenceMs ≤ u.input.time) →
    app.valve.stage.busy = false

theorem Settled.next {past : List AppTransition} (h : Settled on timing start past app)
    (hc : Undisturbed app c) :
    Settled on timing start (past ++ [(appMachine serde).transition app c])
      ((appMachine serde).next app c) where
  committed := h.committed.next serde hc
  idle := by
    rintro ⟨u, hu, htick, hle⟩
    rcases List.mem_append.mp hu with hold | hnew
    · exact h.committed.not_busy serde hc (h.idle ⟨u, hold, htick, hle⟩)
    · cases List.mem_singleton.mp hnew
      exact h.committed.settles serde hc htick hle

/-- A committed valve shows the state it is committed to behind every call that
has a late tick at or before it. -/
theorem Committed.honoured (h : Committed on timing start app) {calls : List Call}
    (hcalls : ∀ t ∈ (appMachine serde).trace app calls, Undisturbed t.before t.input)
    {pre post : List AppTransition} {t : AppTransition}
    (hsplit : (appMachine serde).trace app calls = pre ++ t :: post)
    (hlate : ∃ u ∈ pre ++ [t], IsTick u ∧ start + timing.sequenceMs ≤ u.input.time) :
    t.after.valve.userState = on := by
  have hstart : Settled on timing start [] app := by
    refine ⟨h, ?_⟩
    rintro ⟨u, hu, -⟩
    cases hu
  have hafter := (appMachine serde).trace_history_after (J := Settled on timing start)
    (G := fun _ a c => Undisturbed a c) (fun _ _ _ hc hset => hset.next serde hc) hstart
    (fun pre t post hs => hcalls t (by rw [hs]; simp)) hsplit
  exact hafter.committed.userState (hafter.idle hlate)

/-- A committed valve that is not busy drives no motor along a run that leaves
the water alone. -/
theorem Committed.run_no_motor (h : Committed on timing start app)
    (hb : app.valve.stage.busy = false) {calls : List Call}
    (hcalls : ∀ t ∈ (appMachine serde).trace app calls, Undisturbed t.before t.input)
    {t : AppTransition} (ht : t ∈ (appMachine serde).trace app calls) (htick : IsTick t) :
    ∃ o, t.output = .outputs o ∧ o.valve.openMotor = false ∧ o.valve.closeMotor = false := by
  obtain ⟨⟨hcom, hnb⟩, -⟩ := (appMachine serde).trace_invariant
    (P := fun a => Committed on timing start a ∧ a.valve.stage.busy = false)
    (G := Undisturbed)
    (fun a c hc ha => ⟨ha.1.next serde hc, ha.1.not_busy serde hc ha.2⟩) ⟨h, hb⟩ hcalls ht
  rw [(appMachine serde).eq_transition ht]
  exact hcom.no_motor serde hnb htick

/-- **Ok means honoured, Busy means untouched.**  At every reachable application,
a water command that is refused leaves no trace in any later transition.  One
that is accepted is honoured: along any run that leaves the water alone, the user
state is what was asked for from the first tick on that is a sequence length
later.  A command for the state the valve rests in, and one to close during the
drain, are accepted and start no motor.  One to open during the drain is accepted
and starts an opening. -/
theorem command_outcome (config : Config) (nvs : Option NvsStore) (calls₀ : List Call) (env : Env)
    (on : Bool) :
    let app := (appMachine serde).run (withNvs serde config nvs) calls₀
    let r := app.switchCommand env (.waterControl on)
    let trace := (appMachine serde).trace
    ((∃ reason, r.2 = .busy reason) →
      r.1 = app ∧ ∀ calls, trace r.1 calls = trace app calls) ∧
    (r.2 = .ok → ∀ calls, (∀ t ∈ trace r.1 calls, Undisturbed t.before t.input) →
      ∀ pre t post, trace r.1 calls = pre ++ t :: post →
        (∃ u ∈ pre ++ [t], IsTick u ∧
          env.monotonicMs + app.valve.timing.sequenceMs ≤ u.input.time) →
        t.after.valve.userState = on) ∧
    ((app.valve.phase = .idle ∧ app.valve.userState = on) ∨
        ((∃ s, app.valve.phase = .draining s) ∧ on = false) →
      r = (app, .ok) ∧
        ∀ calls, (∀ t ∈ trace r.1 calls, Undisturbed t.before t.input) →
          ∀ t ∈ trace r.1 calls, IsTick t →
            ∃ o, t.output = .outputs o ∧ o.valve.openMotor = false ∧
              o.valve.closeMotor = false) ∧
    ((∃ s, app.valve.phase = .draining s) → on = true →
      r.2 = .ok ∧ r.1.valve.phase = .turningOn env.monotonicMs) := by
  intro app r trace
  have hcoupled : app.valve.Coupled := coupled_run serde (coupled_withNvs serde config nvs) calls₀
  refine ⟨?_, ?_, ?_, ?_⟩
  · rintro ⟨reason, hreason⟩
    cases hb : app.valve.isBusy with
    | false => simp [r, switchCommand_ok env on hb] at hreason
    | true =>
        have hr : r = (app, _) := switchCommand_busy env on hb
        exact ⟨by rw [hr], fun calls => by rw [hr]⟩
  · intro hok calls hcalls pre t post hsplit hlate
    cases hb : app.valve.isBusy with
    | true => simp [r, switchCommand_busy env on hb] at hok
    | false =>
        have hr : r = _ := switchCommand_ok env on hb
        have hcom := committed_turn hcoupled hb on env.monotonicMs
        rw [hr] at hcalls hsplit
        exact hcom.honoured serde hcalls hsplit hlate
  · intro htarget
    have hb : app.valve.isBusy = false := by
      rcases htarget with ⟨hp, -⟩ | ⟨⟨s, hp⟩, -⟩ <;> simp [WaterValve.isBusy, hp]
    have hr : r = (app, .ok) := by
      refine (switchCommand_ok env on hb).trans ?_
      rw [WaterValve.turn_target htarget]
    refine ⟨hr, ?_⟩
    intro calls hcalls t ht htick
    have hcom := committed_turn hcoupled hb on env.monotonicMs
    rw [WaterValve.turn_target htarget] at hcom
    rw [hr] at hcalls ht
    exact hcom.run_no_motor serde (by rw [← hb, WaterValve.isBusy_eq]) hcalls ht htick
  · rintro ⟨s, hp⟩ rfl
    have hb : app.valve.isBusy = false := by simp [WaterValve.isBusy, hp]
    have hr : r = _ := switchCommand_ok env true hb
    rw [hr]
    exact ⟨rfl, by simp [WaterValve.turn, WaterValve.turnOn, hp]⟩

/-- On a fresh device, a command to open is honoured by a tick 16 seconds later. -/
theorem command_outcome_open :
    let app := withNvs (.fails _) (Config.default {}) none
    ((appMachine (.fails _)).run (app.switchCommand (.plain 0) (.waterControl true)).1
      [.plain 0 .tick, .plain 16000 .tick]).valve.userState = true := by
  have h := (command_outcome (.fails _) (Config.default {}) none [] (.plain 0) true).2.1 rfl
    [.plain 0 .tick, .plain 16000 .tick]
  refine h ?_ [_] _ [] rfl ⟨_, List.mem_append_right _ List.mem_cons_self, rfl, by decide⟩
  intro t ht
  rcases List.mem_cons.mp ht with rfl | ht
  · exact not_closesAt_of_disabled rfl _
  · rw [List.mem_singleton.mp ht]
    exact not_closesAt_of_disabled rfl _

end App

end WaterController
