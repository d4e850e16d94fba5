import WaterController.App.Commands
import WaterController.Firmware.ScheduleTask

/-!
# What a catch-up window leaves the valve at

The hits of a window are fired back to back, and a water command is refused
while a sequence is in progress.  So of the water commands of a window at most
one does something: the first that asks for the state the valve is not in.  It
starts a sequence, and everything after it is refused (`catch_up_outcome`).
-/

namespace WaterController

open Machines (Machine Transition)

/-- The state a rule asks the water control for. -/
def Rule.water? (r : Rule) : Option Bool :=
  match r.action with
  | .waterControl on => some on
  | .switch _ => none

/-- The water commands among the hits of a window, in their order. -/
def waterCommands (hits : List Rule) : List Bool := hits.filterMap Rule.water?

/-! ## Commands at one instant -/

namespace Stage

/-- Requests that all come at one instant. -/
def requests (st : Stage) (asks : List Bool) (now : Nat) : Stage :=
  asks.foldl (fun st on => st.request on now) st

@[simp] theorem requests_nil (st : Stage) (now : Nat) : st.requests [] now = st := rfl

@[simp] theorem requests_cons (st : Stage) (on : Bool) (asks : List Bool) (now : Nat) :
    st.requests (on :: asks) now = (st.request on now).requests asks now := rfl

/-- A busy stage ignores them all. -/
theorem requests_of_busy {st : Stage} (h : st.busy = true) (asks : List Bool) (now : Nat) :
    st.requests asks now = st := by
  induction asks with
  | nil => rfl
  | cons on asks ih => rw [requests_cons, request_of_busy h, ih]

/-- A request for the other state starts a sequence. -/
theorem busy_request {st : Stage} (h : st.busy = false) {on : Bool} (hne : on ≠ st.target)
    (now : Nat) : (st.request on now).busy = true := by
  cases st <;> cases on <;> simp_all [busy, target, request]

/-- A stage that is not busy changes its target when some request asks for it. -/
theorem target_requests {st : Stage} (h : st.busy = false) (asks : List Bool) (now : Nat) :
    (st.requests asks now).target = if (!st.target) ∈ asks then !st.target else st.target := by
  induction asks with
  | nil => simp
  | cons on asks ih =>
      rw [requests_cons]
      by_cases hon : on = st.target
      · rw [hon, request_target, ih]
        simp
      · have hnot : on = !st.target := Bool.eq_not_of_ne hon
        rw [requests_of_busy (busy_request h hon now), target_request h, hnot]
        simp

/-- The answer to a water command. -/
def reply (st : Stage) : CommandOutcome :=
  if st.busy then .busy "valve sequence in progress" else .ok

/-- The answers to requests that all come at one instant. -/
def replies (st : Stage) (now : Nat) : List Bool → List CommandOutcome
  | [] => []
  | on :: asks => st.reply :: (st.request on now).replies now asks

/-- A busy stage refuses them all. -/
theorem replies_of_busy {st : Stage} (h : st.busy = true) (now : Nat) (asks : List Bool) :
    st.replies now asks = asks.map fun _ => .busy "valve sequence in progress" := by
  induction asks with
  | nil => rfl
  | cons on asks ih => rw [replies, request_of_busy h, ih, reply, if_pos h, List.map_cons]

/-- A stage that is not busy refuses what comes behind a request for the other state. -/
theorem replies_of_not_busy {st : Stage} (h : st.busy = false) (now : Nat) (asks : List Bool) :
    st.replies now asks = (List.range asks.length).map fun i =>
      if (!st.target) ∈ asks.take i then .busy "valve sequence in progress" else .ok := by
  induction asks with
  | nil => rfl
  | cons on asks ih =>
      have hok : st.reply = .ok := by rw [reply, h]; rfl
      rw [replies, hok, List.length_cons, List.range_succ_eq_map, List.map_cons, List.map_map]
      congr 1
      rcases eq_or_ne on st.target with rfl | hne
      · rw [request_target, ih]
        refine List.map_congr_left fun i _ => ?_
        simp
      · have hnot : on = !st.target := Bool.eq_not_of_ne hne
        rw [replies_of_busy (busy_request h hne now), hnot, List.map_const']
        refine (List.eq_replicate_iff.mpr ⟨by simp, fun reply hreply => ?_⟩).symm
        obtain ⟨i, -, rfl⟩ := List.mem_map.mp hreply
        simp

end Stage

namespace App

variable (serde : Serde (List AlarmEvent))

/-! ## Firing the hits -/

/-- A hit acts on the valve as its water command, if it has one. -/
theorem fireRule_valve (app : App) (env : Env) (rule : Rule) :
    (app.fireRule env rule).valve =
      match rule.water? with
      | some on => app.valve.turn on env.monotonicMs
      | none => app.valve := by
  unfold fireRule Rule.water?
  cases rule.action with
  | switch id =>
      obtain ⟨s₁, s₂, hs⟩ := fireScheduleSprinkler_frame app env id rule.durationSecs
      exact congrArg (·.valve) hs
  | waterControl on => exact congrArg (·.valve) (switchCommand_waterControl app env on)

/-- A hit leaves the configuration alone. -/
theorem fireRule_config (app : App) (env : Env) (rule : Rule) :
    (app.fireRule env rule).config = app.config := by
  rw [fireRule]
  cases rule.action with
  | switch id =>
      obtain ⟨s₁, s₂, hs⟩ := fireScheduleSprinkler_frame app env id rule.durationSecs
      exact congrArg (·.config) hs
  | waterControl on => exact congrArg (·.config) (switchCommand_waterControl app env on)

/-- The hits of a window are its water commands at one instant. -/
theorem fireHits_stage {app : App} (h : app.valve.Coupled) (env : Env) (hits : List Rule) :
    (app.fireHits env hits).valve.Coupled ∧ (app.fireHits env hits).config = app.config ∧
      (app.fireHits env hits).valve.stage =
        app.valve.stage.requests (waterCommands hits) env.monotonicMs := by
  induction hits generalizing app with
  | nil => exact ⟨h, rfl, rfl⟩
  | cons rule hits ih =>
      have hv := fireRule_valve app env rule
      cases hw : rule.water? with
      | none =>
          rw [hw] at hv
          have hcoupled : (app.fireRule env rule).valve.Coupled := hv ▸ h
          obtain ⟨hc, hcfg, hst⟩ := ih hcoupled
          refine ⟨hc, hcfg.trans (fireRule_config app env rule), hst.trans ?_⟩
          rw [hv, waterCommands, waterCommands, List.filterMap_cons_none hw]
      | some on =>
          rw [hw] at hv
          have hcoupled : (app.fireRule env rule).valve.Coupled := hv ▸ h.turn on _
          obtain ⟨hc, hcfg, hst⟩ := ih hcoupled
          refine ⟨hc, hcfg.trans (fireRule_config app env rule), hst.trans ?_⟩
          rw [hv, h.stage_turn, waterCommands, waterCommands, List.filterMap_cons_some hw]
          rfl

/-- What the water commands among the hits of a window are answered, in their order. -/
def waterReplies (app : App) (env : Env) : List Rule → List CommandOutcome
  | [] => []
  | rule :: hits =>
      let later := (app.fireRule env rule).waterReplies env hits
      match rule.water? with
      | some on => (app.switchCommand env (.waterControl on)).2 :: later
      | none => later

theorem waterReplies_eq {app : App} (h : app.valve.Coupled) (env : Env) (hits : List Rule) :
    app.waterReplies env hits =
      app.valve.stage.replies env.monotonicMs (waterCommands hits) := by
  induction hits generalizing app with
  | nil => rfl
  | cons rule hits ih =>
      have hv := fireRule_valve app env rule
      rw [waterReplies]
      cases hw : rule.water? with
      | none =>
          rw [hw] at hv
          rw [ih (hv ▸ h), hv, waterCommands, waterCommands, List.filterMap_cons_none hw]
      | some on =>
          rw [hw] at hv
          have hreply : (app.switchCommand env (.waterControl on)).2 = app.valve.stage.reply := by
            rw [switchCommand, Stage.reply, WaterValve.isBusy_eq]
            split <;> rfl
          rw [ih (hv ▸ h.turn on _), hv, h.stage_turn, waterCommands, waterCommands,
            List.filterMap_cons_some hw]
          exact congrArg (· :: _) hreply

/-- In a sequence all of them are refused, and else those behind one that starts one. -/
theorem waterReplies_of_coupled {app : App} (h : app.valve.Coupled) (env : Env)
    (hits : List Rule) :
    app.waterReplies env hits = (List.range (waterCommands hits).length).map fun i =>
      if app.valve.isBusy = true ∨ (!app.valve.userState) ∈ (waterCommands hits).take i then
        .busy "valve sequence in progress" else .ok := by
  rw [waterReplies_eq h, WaterValve.isBusy_eq]
  cases hbusy : app.valve.stage.busy with
  | true =>
      rw [Stage.replies_of_busy hbusy]
      simp
  | false =>
      rw [Stage.replies_of_not_busy hbusy, h.userState_eq, Stage.shown_eq_target hbusy]
      simp

/-! ## Ticking on -/

/-- The calls that only tick. -/
def ticks (envs : List Env) : List Call := envs.map fun env => ⟨env, .tick⟩

/-- Under a disabled alarm rule, ticks keep the target of the valve. -/
theorem target_ticks {app : App} (h : app.valve.Coupled)
    (hoff : app.config.flowAlarm.enabled = false) (envs : List Env) :
    ((appMachine serde).run app (ticks envs)).valve.stage.target = app.valve.stage.target := by
  induction envs generalizing app with
  | nil => rfl
  | cons env envs ih =>
      have hspec := next_tick serde app (c := ⟨env, .tick⟩) rfl
      have hquiet : ¬ (app.ticked env.monotonicMs).ClosesAt env.monotonicMs :=
        not_closesAt_of_disabled (show (app.ticked _).config.flowAlarm.enabled = false from hoff) _
      have hv : ((appMachine serde).next app ⟨env, .tick⟩).valve =
          (app.valve.tick env.monotonicMs).1 := hspec.valve.trans (if_neg hquiet)
      have hnext := ih (coupled_next serde h ⟨env, .tick⟩) (by rw [hspec.config, hoff])
      refine hnext.trans ?_
      rw [hv, h.stage_tick, Stage.target_elapse]

/-- The claim that the last water command of a window decides where the valve
ends. -/
def LastCommandWins (app : App) (env : Env) (hits : List Rule) (envs : List Env) : Prop :=
  let final := (appMachine serde).run (app.fireHits env hits) (ticks envs)
  ∀ on, (waterCommands hits).getLast? = some on → final.valve.isBusy = false →
    final.valve.userState = on

/-- **Catch-up.**  At every reachable application, fire the hits of a window.  If a
sequence was in progress, every water command is refused.  Otherwise those are
refused that come behind one that asks for a change.

If the alarm rule is disabled, and the application ticks until the valve is not busy,
the valve is where the sequence in progress ends.  If there was none, the user state
has changed if some water command of the window asks for a change, and is as before
if none does. -/
theorem catch_up_outcome (config : Config) (nvs : Option NvsStore) (calls₀ : List Call)
    (schedule : Schedule) (last now : NaiveDateTime) (env : Env) (envs : List Env) :
    let app := (appMachine serde).run (withNvs serde config nvs) calls₀
    let hits := schedule.evaluateRange last now
    let final := (appMachine serde).run (app.fireHits env hits) (ticks envs)
    (app.waterReplies env hits = (List.range (waterCommands hits).length).map fun i =>
      if app.valve.isBusy = true ∨ (!app.valve.userState) ∈ (waterCommands hits).take i then
        .busy "valve sequence in progress" else .ok) ∧
    (app.config.flowAlarm.enabled = false → final.valve.isBusy = false →
      final.valve.userState =
        if app.valve.isBusy then decide (app.valve.state = .turningOn)
        else if (!app.valve.userState) ∈ waterCommands hits then !app.valve.userState
        else app.valve.userState) := by
  intro app hits final
  have hcoupled : app.valve.Coupled := coupled_run serde (coupled_withNvs serde config nvs) calls₀
  refine ⟨waterReplies_of_coupled hcoupled env hits, fun hoff hidle => ?_⟩
  obtain ⟨hc, hcfg, hst⟩ := fireHits_stage hcoupled env hits
  have hfinal : final.valve.Coupled := coupled_run serde hc _
  have hnb : final.valve.stage.busy = false := by rw [← hidle, WaterValve.isBusy_eq]
  have htarget : final.valve.stage.target =
      (app.valve.stage.requests (waterCommands hits) env.monotonicMs).target := by
    rw [target_ticks serde hc (by rw [hcfg, hoff]) envs, hst]
  rw [hfinal.userState_eq, Stage.shown_eq_target hnb, htarget]
  cases hb : app.valve.isBusy with
  | true =>
      have hbusy : app.valve.stage.busy = true := by rw [← hb, WaterValve.isBusy_eq]
      rw [Stage.requests_of_busy hbusy, if_pos rfl]
      cases hp : app.valve.phase with
      | idle | draining s => simp [WaterValve.isBusy, hp] at hb
      | turningOn s | turningOff s => simp [WaterValve.stage, WaterValve.state, hp, Stage.target]
  | false =>
      have hfree : app.valve.stage.busy = false := by rw [← hb, WaterValve.isBusy_eq]
      rw [Stage.target_requests hfree, if_neg Bool.false_ne_true, hcoupled.userState_eq,
        Stage.shown_eq_target hfree]

/-- Water on at ten o'clock and off a minute later. -/
def shortWatering : Schedule where
  rules := [
    { id := "on", action := .waterControl true, hours := [10], minutes := [0], daysOfWeek := [],
      enabled := true, durationSecs := none },
    { id := "off", action := .waterControl false, hours := [10], minutes := [1], daysOfWeek := [],
      enabled := true, durationSecs := none }]

/-- A window that holds both minutes leaves the water on: the command to close is
refused. -/
theorem catch_up_short_watering :
    let app := withNvs (.fails _) (Config.default {}) none
    let hits := shortWatering.evaluateRange ⟨1778407180, 0⟩ ⟨1778407270, 0⟩
    let final := (appMachine (.fails _)).run (app.fireHits (.plain 0) hits) (ticks [.plain 16000])
    waterCommands hits = [true, false] ∧
      app.waterReplies (.plain 0) hits = [.ok, .busy "valve sequence in progress"] ∧
      final.valve.userState = true := by
  have h := catch_up_outcome (.fails _) (Config.default {}) none [] shortWatering
    ⟨1778407180, 0⟩ ⟨1778407270, 0⟩ (.plain 0) [.plain 16000]
  exact ⟨by decide, h.1.trans (by decide), (h.2 (by decide) (by decide)).trans (by decide)⟩

theorem last_command_loses :
    ¬ LastCommandWins (.fails _) (withNvs (.fails _) (Config.default {}) none) (.plain 0)
      (shortWatering.evaluateRange ⟨1778407180, 0⟩ ⟨1778407270, 0⟩) [.plain 16000] := by
  intro h
  have hoff := h false (by decide) (by decide)
  revert hoff
  decide

end App

end WaterController
