import Mathlib.Data.List.DropRight
import WaterController.App.ValvePersistence

/-!
# The alarm history

A tick that latches the alarm appends to the history and evicts its oldest entry at
the cap.  A boot takes the last entries of what the store has.  Both keep the last
sixteen of all fires (`List.rtake`), so the history of a device is that of its whole
life, and so is the one in the store (`Recalls`).

What fired is told from the alarm: a step fires when it sets it (`LifeStep.fire`).
-/

namespace WaterController

open Machines (Machine Transition)

/-! ## The last entries of a list -/

section Recent

variable {α : Type*}

/-- An entry that comes in evicts the oldest of a full list. -/
theorem evict_rtake (n : Nat) (l : List α) :
    (if (l.rtake (n + 1)).length = n + 1 then (l.rtake (n + 1)).tail else l.rtake (n + 1)) =
      l.rtake n := by
  have hlength : (l.rtake (n + 1)).length = l.length - (l.length - (n + 1)) := List.length_drop
  rcases Nat.lt_or_ge n l.length with hlt | hge
  · rw [if_pos (by omega), List.rtake, List.tail_drop, List.rtake]
    congr 1
    omega
  · rw [if_neg (by omega), List.rtake, List.rtake, Nat.sub_eq_zero_of_le hge,
      Nat.sub_eq_zero_of_le (Nat.le_succ_of_le hge)]

theorem rtake_rtake (n : Nat) (l : List α) : (l.rtake n).rtake n = l.rtake n := by
  have hlength : (l.rtake n).length = l.length - (l.length - n) := List.length_drop
  rw [List.rtake, Nat.sub_eq_zero_of_le (by omega), List.drop_zero]

end Recent

/-- A value is written and read back. -/
def Serde.RoundTrips {α : Type} (serde : Serde α) (a : α) : Prop :=
  ∃ b, serde.toVec a = .ok b ∧ serde.fromSlice b = .ok a

/-! ## Records -/

namespace App

variable (serde : Serde (List AlarmEvent))

/-- The record a call makes. -/
def recorded (app : App) (c : Call) : Option AlarmEvent :=
  match c.op with
  | .tick =>
      if (app.ticked c.time).FiresAt c.time then some ((app.ticked c.time).fireRecord c.env)
      else none
  | _ => none

/-- An application with the record of a call. -/
def withRecord (app : App) (c : Call) : App :=
  match app.recorded c with
  | some ev => app.recordAlarmEvent serde c.env ev
  | none => app

/-- A call does to the history, and to its key in the store, what its record does. -/
theorem history_next (app : App) (c : Call) :
    ((appMachine serde).next app c).alarmHistory = (app.withRecord serde c).alarmHistory ∧
      ((appMachine serde).next app c).nvs.bind (·.get nvsAlarmHistory) =
        (app.withRecord serde c).nvs.bind (·.get nvsAlarmHistory) := by
  obtain ⟨env, op⟩ := c
  cases op with
  | switchCommand cmd =>
      obtain ⟨s₁, s₂, v, hs⟩ := switchCommand_frame app env cmd
      rw [show (appMachine serde).next app ⟨env, .switchCommand cmd⟩ = _ from hs]
      exact ⟨rfl, rfl⟩
  | fireScheduleSprinkler id d =>
      obtain ⟨s₁, s₂, hs⟩ := fireScheduleSprinkler_frame app env id d
      rw [show (appMachine serde).next app ⟨env, .fireScheduleSprinkler id d⟩ = _ from hs]
      exact ⟨rfl, rfl⟩
  | clearFlowAlarm =>
      have hs := clearFlowAlarm_frame app env
      rw [show (appMachine serde).next app ⟨env, .clearFlowAlarm⟩ = _ from hs]
      exact ⟨rfl, rfl⟩
  | replaceConfigSection cfg section_ => exact ⟨rfl, rfl⟩
  | updateState f hf => exact ⟨rfl, rfl⟩
  | emitEvent ev => exact ⟨rfl, rfl⟩
  | tick =>
      have hpersist := persistValve_spec
        ((app.ticked env.monotonicMs).evaluateFlowAlarm serde env env.monotonicMs) env
      have hothers := hpersist.others nvsAlarmHistory (by decide)
      have hnext : (appMachine serde).next app ⟨env, .tick⟩ =
          ((app.ticked env.monotonicMs).evaluateFlowAlarm serde env env.monotonicMs).persistValve
            env := rfl
      rw [hnext, hothers, hpersist.frame, evaluateFlowAlarm_eq]
      by_cases hf : (app.ticked env.monotonicMs).FiresAt env.monotonicMs
      · have hrecord : app.recorded ⟨env, .tick⟩ =
            some ((app.ticked env.monotonicMs).fireRecord env) := if_pos hf
        rw [if_pos hf, withRecord, hrecord]
        exact ⟨rfl, rfl⟩
      · have hrecord : app.recorded ⟨env, .tick⟩ = none := if_neg hf
        rw [if_neg hf, withRecord, hrecord]
        exact ⟨rfl, rfl⟩

/-- A call records when it sets the alarm, with the flow and the duration the rule
sees. -/
theorem recorded_eq (app : App) (c : Call) :
    app.recorded c =
      if app.state.alarm.active = false ∧ ((appMachine serde).next app c).state.alarm.active = true
      then some
        { epochSecs := c.env.now.timestamp.toNat
          uptimeMs := c.time
          flowLph := app.state.flow
          durationSecs := app.config.flowAlarm.durationSecs }
      else none := by
  by_cases htick : c.op = .tick
  · obtain ⟨env, op⟩ := c
    cases htick
    have hiff : (app.ticked env.monotonicMs).FiresAt env.monotonicMs ↔
        app.state.alarm.active = false ∧
          ((appMachine serde).next app ⟨env, .tick⟩).state.alarm.active = true := by
      rw [next_alarm]
      show _ ↔ _ ∧ ((app.ticked env.monotonicMs).alarmAt env.monotonicMs).active = true
      rw [alarmAt, ticked_alarm]
      constructor
      · intro hf
        rw [if_pos hf.1]
        exact ⟨hf.2.1, by simp [hf]⟩
      · rintro ⟨hoff, hon⟩
        split_ifs at hon with he
        simpa [hoff] using hon
    exact if_congr hiff rfl rfl
  · have hnone : app.recorded c = none := by
      rw [recorded]
      split
      · exact absurd ‹_› htick
      · rfl
    rw [hnone, if_neg]
    rintro ⟨hoff, hon⟩
    rcases next_alarm_of_not_tick serde app htick with ⟨-, halarm⟩ | ⟨-, halarm⟩
    · rw [halarm, hoff] at hon
      cases hon
    · rw [halarm] at hon
      cases hon

/-- A record appends to the history and evicts at the cap. -/
theorem recordAlarmEvent_history {app : App} {fires : List AlarmEvent}
    (h : app.alarmHistory = fires.rtake alarmHistoryCap) (env : Env) (ev : AlarmEvent) :
    (app.recordAlarmEvent serde env ev).alarmHistory =
      (fires ++ [ev]).rtake alarmHistoryCap := by
  have hevict := evict_rtake 15 fires
  rw [show 15 + 1 = alarmHistoryCap from rfl, ← h] at hevict
  show (if app.alarmHistory.length = alarmHistoryCap then app.alarmHistory.tail
    else app.alarmHistory) ++ [ev] = _
  rw [hevict, show alarmHistoryCap = 15 + 1 from rfl, List.rtake_concat_succ]

/-- A record that can be written stores the history. -/
theorem recordAlarmEvent_stored {app : App} (hstore : app.nvs.isSome = true) {env : Env}
    (hok : env.nvsSet nvsAlarmHistory = .ok ()) {ev : AlarmEvent}
    (hjson : serde.RoundTrips (app.recordAlarmEvent serde env ev).alarmHistory) :
    ((app.recordAlarmEvent serde env ev).nvs.bind (·.get nvsAlarmHistory)).map serde.fromSlice =
      some (.ok (app.recordAlarmEvent serde env ev).alarmHistory) := by
  obtain ⟨nvs, hnvs⟩ := Option.isSome_iff_exists.mp hstore
  obtain ⟨b, hto, hfrom⟩ := hjson
  rw [← hfrom]
  simp only [recordAlarmEvent] at hto
  simp only [recordAlarmEvent, hnvs, Option.map_some, Option.bind_some, hto, hok,
    NvsStore.get_set_ok]

end App

/-! ## Lives -/

/-- The fire of a step: it sets the alarm. -/
def LifeStep.fire (t : LifeStep) : Option AlarmEvent :=
  match t.input with
  | .call c =>
      if t.before.app.state.alarm.active = false ∧ t.after.app.state.alarm.active = true then
        some
          { epochSecs := c.env.now.timestamp.toNat
            uptimeMs := c.time
            flowLph := t.before.app.state.flow
            durationSecs := t.before.app.config.flowAlarm.durationSecs }
      else none
  | .powerLoss _ => none

/-- The fires of a life, oldest first. -/
def fires (steps : List LifeStep) : List AlarmEvent := steps.filterMap LifeStep.fire

theorem fires_append (steps : List LifeStep) (t : LifeStep) :
    fires (steps ++ [t]) = fires steps ++ t.fire.toList := by
  rw [fires, List.filterMap_append, List.filterMap_cons, List.filterMap_nil, fires]
  cases t.fire <;> rfl

/-- The application and its store have the last sixteen fires. -/
structure Recalls (serde : Serde (List AlarmEvent)) (fires : List AlarmEvent) (app : App) :
    Prop where
  hasStore : app.nvs.isSome = true
  history : app.alarmHistory = fires.rtake App.alarmHistoryCap
  stored : (app.nvs.bind (·.get App.nvsAlarmHistory)).map serde.fromSlice =
    if fires = [] then none else some (.ok (fires.rtake App.alarmHistoryCap))

namespace Recalls

variable {serde : Serde (List AlarmEvent)} {fired : List AlarmEvent}

/-- A boot restores what the store has. -/
theorem withNvs {nvs : Option NvsStore} (hstore : nvs.isSome = true)
    (h : (nvs.bind (·.get App.nvsAlarmHistory)).map serde.fromSlice =
      if fired = [] then none else some (.ok (fired.rtake App.alarmHistoryCap)))
    (config : Config) : Recalls serde fired (App.withNvs serde config nvs) := by
  refine ⟨hstore, ?_, h⟩
  simp only [App.withNvs]
  rcases eq_or_ne fired [] with rfl | hne
  · rw [if_pos rfl, Option.map_eq_none_iff] at h
    rw [h, List.rtake_nil]
  · rw [if_neg hne, Option.map_eq_some_iff] at h
    obtain ⟨b, hget, hread⟩ := h
    simp only [hget, hread]
    rw [← List.rtake_eq_reverse_take_reverse, rtake_rtake]

theorem next {app : App} (h : Recalls serde fired app) (c : Call)
    (hok : c.env.nvsSet App.nvsAlarmHistory = .ok ())
    (hjson : ∀ ev, app.recorded c = some ev →
      serde.RoundTrips ((fired ++ [ev]).rtake App.alarmHistoryCap)) :
    Recalls serde (fired ++ (app.recorded c).toList) ((appMachine serde).next app c) := by
  obtain ⟨hhistory, hstored⟩ := App.history_next serde app c
  refine ⟨(App.hasStore_next serde app c).trans h.hasStore, hhistory.trans ?_, ?_⟩
  · cases hrecord : app.recorded c with
    | none =>
        rw [App.withRecord, hrecord, Option.toList_none, List.append_nil]
        exact h.history
    | some ev =>
        rw [App.withRecord, hrecord]
        exact App.recordAlarmEvent_history serde h.history c.env ev
  · rw [hstored]
    cases hrecord : app.recorded c with
    | none =>
        rw [App.withRecord, hrecord, Option.toList_none, List.append_nil]
        exact h.stored
    | some ev =>
        have hkept := App.recordAlarmEvent_history serde h.history c.env ev
        rw [App.withRecord, hrecord, Option.toList_some, if_neg (by simp), ← hkept]
        exact App.recordAlarmEvent_stored serde h.hasStore hok (hkept ▸ hjson ev hrecord)

end Recalls

/-- In every life of a device whose store starts without a history and takes every
write of it, and whose codec reads back the histories it writes, the history is that
of the last sixteen fires, oldest first, and so is the one in the store. -/
theorem alarm_history_recalls (serde : Serde (List AlarmEvent)) (config : Config) (nvs : NvsStore)
    (events : List LifeEvent) (hblank : nvs.get App.nvsAlarmHistory = none)
    (hwrites : ∀ c, .call c ∈ events → c.env.nvsSet App.nvsAlarmHistory = .ok ())
    (hjson : ∀ n, 0 < n → serde.RoundTrips
      (((fires ((lifeMachine serde).trace (.boot serde config nvs) events)).take n).rtake
        App.alarmHistoryCap)) :
    let d := (lifeMachine serde).run (.boot serde config nvs) events
    let fired := fires ((lifeMachine serde).trace (.boot serde config nvs) events)
    d.app.alarmHistory = fired.rtake 16 ∧
      (d.app.nvs.bind (·.get App.nvsAlarmHistory)).map serde.fromSlice =
        if fired = [] then none else some (.ok d.app.alarmHistory) := by
  intro d fired
  have hrecalls : Recalls serde fired d.app := by
    refine (lifeMachine serde).trace_history
      (J := fun steps d => Recalls serde (fires steps) d.app)
      (G := fun steps d e => ∀ c, e = .call c →
        c.env.nvsSet App.nvsAlarmHistory = .ok () ∧ ∀ ev, d.app.recorded c = some ev →
          serde.RoundTrips ((fires steps ++ [ev]).rtake App.alarmHistoryCap)) ?_ ?_ ?_
    · intro steps d e hguard hd
      rw [fires_append]
      cases e with
      | powerLoss config =>
          rw [show LifeStep.fire ((lifeMachine serde).transition d (.powerLoss config)) = none
            from rfl, Option.toList_none, List.append_nil]
          exact .withNvs hd.hasStore hd.stored config
      | call c =>
          have hfire : LifeStep.fire ((lifeMachine serde).transition d (.call c)) =
              d.app.recorded c := (App.recorded_eq serde d.app c).symm
          rw [hfire]
          exact hd.next c (hguard c rfl).1 (hguard c rfl).2
    · exact .withNvs rfl (by simp [fires, hblank]) config
    · intro pre t post hsplit c hinput
      have ht : t = (lifeMachine serde).transition t.before t.input :=
        (lifeMachine serde).eq_transition (by rw [hsplit]; simp)
      refine ⟨hwrites c ?_, fun ev hrecord => ?_⟩
      · rw [← hinput]
        exact (lifeMachine serde).input_mem_of_mem_trace (by rw [hsplit]; simp)
      · have hfire : LifeStep.fire t = some ev := by
          rw [ht, hinput, ← hrecord]
          exact (App.recorded_eq serde t.before.app c).symm
        have hall : fires ((lifeMachine serde).trace (.boot serde config nvs) events) =
            fires pre ++ [ev] ++ fires post := by
          rw [hsplit, fires, List.filterMap_append, List.filterMap_cons, hfire]
          simp [fires]
        have htake := hjson (fires pre ++ [ev]).length (by simp)
        rwa [hall, List.take_left] at htake
  refine ⟨hrecalls.history, ?_⟩
  rw [hrecalls.stored, hrecalls.history]

/-- The record of an alarm after ten seconds of high flow. -/
def tenSeconds : AlarmEvent :=
  { epochSecs := 10, uptimeMs := 10000, flowLph := 150.0, durationSecs := 10 }

/-- A device with one alarm and a power loss. -/
theorem alarm_history_recalls_one :
    let serde := Serde.table [([tenSeconds], [1])]
    let config := { Config.default {} with flowAlarm := ⟨true, 100.0, 10⟩ }
    let flows : AppOp := .updateState
      (fun s => { s with sensors := { s.sensors with flowLph := some 150.0 } }) fun _ => rfl
    let events : List LifeEvent := [.call (.plain 0 flows), .call (.plain 0 .tick),
      .call (.plain 10000 .tick), .powerLoss config]
    ((lifeMachine serde).run (.boot serde config .blank) events).app.alarmHistory =
      [tenSeconds] := by
  intro serde config flows events
  have hfires : fires ((lifeMachine serde).trace (.boot serde config .blank) events) =
      [tenSeconds] := by
    decide +kernel
  have hwrites : ∀ c, .call c ∈ events → c.env.nvsSet App.nvsAlarmHistory = .ok () := by
    intro c hc
    simp only [events, List.mem_cons, List.not_mem_nil, or_false, LifeEvent.call.injEq,
      reduceCtorEq] at hc
    rcases hc with rfl | rfl | rfl <;> rfl
  have h := alarm_history_recalls serde config .blank events rfl hwrites fun n hn => by
    rw [hfires, List.take_of_length_le (show [tenSeconds].length ≤ n from hn)]
    exact ⟨[1], by decide +kernel, by decide +kernel⟩
  exact h.1.trans (by rw [hfires]; rfl)

end WaterController
