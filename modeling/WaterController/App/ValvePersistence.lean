import WaterController.App.PowerLoss

/-!
# What the store knows of the valve

A tick asks the store to write the user state of the valve when it is not the one
last written or restored.  `PersistStep` says all that a call does to the store and
to what the application knows of it.

The application never loses track of the store, whatever writes fail and however
often the power goes (`Mirrors`).  So a tick leaves the store up to date or its
write fails, it writes only what is new, and a boot restores what was last written.

The writes of a session are counted with the one that is still owed (`owed`).  Each
change of the user state owes at most one write, and a blank store owes one more.
-/

namespace WaterController

open Machines (Machine Transition)

namespace App

variable (serde : Serde (List AlarmEvent))

/-! ## Attempts -/

/-- The write a persist asks the store for. -/
def attempt (app : App) : Option Bool :=
  if app.nvs.isSome = true ∧ app.lastPersistedValve ≠ some app.valve.userState then
    some app.valve.userState
  else none

/-- An application whose write of a user state has an outcome. -/
def afterAttempt (app : App) (on : Bool) (outcome : Except NvsError Unit) : App :=
  { app with
    nvs := app.nvs.map fun nvs => nvs.set nvsValveState [if on then 1 else 0] outcome
    lastPersistedValve :=
      match outcome with
      | .ok () => some on
      | .error _ => app.lastPersistedValve }

/-- An application that tried to write a user state, or tried nothing. -/
def afterTry (app : App) (tried : Option Bool) (env : Env) : App :=
  (tried.map fun on => app.afterAttempt on (env.nvsSet nvsValveState)).getD app

/-- A persist is its attempt. -/
theorem persistValve_eq (app : App) (env : Env) :
    app.persistValve env = app.afterTry app.attempt env := by
  rw [afterTry]
  cases hn : app.nvs with
  | none => simp [persistValve, attempt, hn]
  | some nvs =>
      by_cases hlast : app.lastPersistedValve = some app.valve.userState
      · simp [persistValve, attempt, hn, hlast]
      · have hsome : app.attempt = some app.valve.userState := by simp [attempt, hlast, hn]
        rw [hsome, persistValve, hn]
        cases env.nvsSet nvsValveState with
        | ok u | error e =>
            simp only [if_neg hlast, Option.map_some, Option.getD_some, afterAttempt, hn]

/-- A tick as far as the flow alarm.  What is left of it is the persist. -/
def tickUpToPersist (app : App) (env : Env) : App :=
  (app.ticked env.monotonicMs).evaluateFlowAlarm serde env env.monotonicMs

/-- A tick makes the write it tries, and no other under the key of the valve. -/
theorem next_tick_eq (app : App) (env : Env) :
    (appMachine serde).next app ⟨env, .tick⟩ =
      (app.tickUpToPersist serde env).afterTry (app.tickUpToPersist serde env).attempt env :=
  persistValve_eq _ env

/-- The write a call asks the store for under the key of the valve. -/
def tries (app : App) (c : Call) : Option Bool :=
  match c.op with
  | .tick => ((app.ticked c.time).evaluateFlowAlarm serde c.env c.time).attempt
  | _ => none

/-- The value a call writes there. -/
def writes (app : App) (c : Call) : Option Bool :=
  match c.env.nvsSet nvsValveState with
  | .ok () => app.tries serde c
  | .error _ => none

/-- What a call does to the store and to what is known of it. -/
inductive PersistStep (app : App) (c : Call) (app' : App) : Prop where
  | other (htick : c.op ≠ .tick) (htries : app.tries serde c = none)
      (huser : app'.valve.userState = app.valve.userState)
      (hknown : app'.lastPersistedValve = app.lastPersistedValve)
      (hstored : storedValveState app'.nvs = storedValveState app.nvs)
  | kept (htick : c.op = .tick) (htries : app.tries serde c = none)
      (hnew : app.lastPersistedValve = some app'.valve.userState)
      (hknown : app'.lastPersistedValve = app.lastPersistedValve)
      (hstored : storedValveState app'.nvs = storedValveState app.nvs)
  | wrote (htick : c.op = .tick) (htries : app.tries serde c = some app'.valve.userState)
      (hnew : app.lastPersistedValve ≠ some app'.valve.userState)
      (hok : c.env.nvsSet nvsValveState = .ok ())
      (hknown : app'.lastPersistedValve = some app'.valve.userState)
      (hstored : storedValveState app'.nvs = some app'.valve.userState)
  | failed (e : NvsError) (htick : c.op = .tick)
      (htries : app.tries serde c = some app'.valve.userState)
      (hnew : app.lastPersistedValve ≠ some app'.valve.userState)
      (herror : c.env.nvsSet nvsValveState = .error e)
      (hknown : app'.lastPersistedValve = app.lastPersistedValve)
      (hstored : storedValveState app'.nvs = storedValveState app.nvs)

theorem persist_step {app : App} (hstore : app.nvs.isSome = true) (c : Call) :
    PersistStep serde app c ((appMachine serde).next app c) := by
  by_cases htick : c.op = .tick
  · obtain ⟨env, op⟩ := c
    cases htick
    have hspec := evaluateFlowAlarm_spec serde (app.ticked env.monotonicMs) env
    generalize hev : (app.ticked env.monotonicMs).evaluateFlowAlarm serde env env.monotonicMs = ev
      at hspec
    have hnext : (appMachine serde).next app ⟨env, .tick⟩ = ev.afterTry ev.attempt env := by
      rw [← hev]
      exact next_tick_eq serde app env
    have htries : app.tries serde ⟨env, .tick⟩ = ev.attempt := by
      rw [← hev]
      rfl
    have hknown : ev.lastPersistedValve = app.lastPersistedValve := hspec.persisted
    have hstored : storedValveState ev.nvs = storedValveState app.nvs := hspec.stored
    obtain ⟨nvs, hnvs⟩ := Option.isSome_iff_exists.mp (hspec.hasStore.trans hstore)
    rw [hnext, afterTry]
    by_cases hlast : ev.lastPersistedValve = some ev.valve.userState
    · have hnone : ev.attempt = none := by simp [attempt, hlast]
      rw [hnone]
      exact .kept rfl (htries.trans hnone) (hknown.symm.trans hlast) hknown hstored
    · have hsome : ev.attempt = some ev.valve.userState := by simp [attempt, hlast, hnvs]
      rw [hsome]
      have hnew : app.lastPersistedValve ≠ some ev.valve.userState := hknown ▸ hlast
      cases ho : env.nvsSet nvsValveState with
      | ok u =>
          refine .wrote rfl (htries.trans hsome) hnew ho rfl ?_
          simp only [Option.map_some, Option.getD_some, afterAttempt, hnvs]
          exact storedValveState_set nvs _
      | error e =>
          refine .failed e rfl (htries.trans hsome) hnew ho hknown (Eq.trans ?_ hstored)
          simp only [Option.map_some, Option.getD_some, afterAttempt, hnvs, NvsStore.set]
  · obtain ⟨-, hnvs, hknown⟩ := next_of_not_tick serde app htick
    refine .other htick ?_ (mayBeOpen_of_not_tick serde app htick).1 hknown
      (congrArg storedValveState hnvs)
    obtain ⟨env, op⟩ := c
    cases op with
    | tick => exact absurd rfl htick
    | switchCommand | fireScheduleSprinkler | replaceConfigSection | clearFlowAlarm | updateState
    | emitEvent => rfl

/-- A call that asks for no write makes none. -/
theorem writes_of_tries_eq_none {app : App} {c : Call} (h : app.tries serde c = none) :
    app.writes serde c = none := by
  rw [writes, h]
  cases c.env.nvsSet nvsValveState <;> rfl

/-- The store has what a call writes, and the application knows it. -/
theorem stored_next {app : App} (hstore : app.nvs.isSome = true) (c : Call) :
    storedValveState ((appMachine serde).next app c).nvs =
        (app.writes serde c).or (storedValveState app.nvs) ∧
      ((appMachine serde).next app c).lastPersistedValve =
        (app.writes serde c).or app.lastPersistedValve := by
  have hstep := persist_step serde hstore c
  generalize (appMachine serde).next app c = app' at hstep ⊢
  cases hstep with
  | other htick htries huser hknown hstored | kept htick htries hnew hknown hstored =>
      rw [writes_of_tries_eq_none serde htries]
      exact ⟨hstored, hknown⟩
  | wrote htick htries hnew hok hknown hstored =>
      rw [writes, hok, htries]
      exact ⟨hstored, hknown⟩
  | failed e htick htries hnew herror hknown hstored =>
      rw [writes, herror]
      exact ⟨hstored, hknown⟩

/-! ## Writes against changes -/

/-- The successful writes of a session under the key of the valve. -/
def written (app : App) (calls : List Call) : List Bool :=
  ((appMachine serde).trace app calls).flatMap fun t => (t.before.writes serde t.input).toList

/-- The changes of the user state in a session. -/
def userChanges (app : App) (calls : List Call) : Nat :=
  ((appMachine serde).trace app calls).countP fun t =>
    decide (t.before.valve.userState ≠ t.after.valve.userState)

/-- The changes of one call: none or one. -/
def changesOf (app app' : App) : Nat :=
  if app.valve.userState = app'.valve.userState then 0 else 1

/-- The write that is owed: the user state is not the one last written. -/
def owed (app : App) : Nat := if app.lastPersistedValve = some app.valve.userState then 0 else 1

theorem owed_withNvs (config : Config) (nvs : Option NvsStore) :
    (withNvs serde config nvs).owed = if storedValveState nvs = none then 1 else 0 := by
  rw [owed, Kept.withNvs_valve]
  show (if storedValveState nvs = some ((storedValveState nvs).getD false) then 0 else 1) = _
  cases storedValveState nvs <;> simp

theorem written_cons (app : App) (c : Call) (calls : List Call) :
    (written serde app (c :: calls)).length =
      (app.writes serde c).toList.length +
        (written serde ((appMachine serde).next app c) calls).length := by
  rw [written, Machine.trace_cons, List.flatMap_cons, List.length_append]
  rfl

theorem userChanges_cons (app : App) (c : Call) (calls : List Call) :
    userChanges serde app (c :: calls) =
      changesOf app ((appMachine serde).next app c) +
        userChanges serde ((appMachine serde).next app c) calls := by
  rw [userChanges, Machine.trace_cons, List.countP_cons, Nat.add_comm]
  rcases eq_or_ne app.valve.userState ((appMachine serde).next app c).valve.userState with h | h
  · simp [userChanges, changesOf, h]
  · simp [userChanges, changesOf, h]

/-- What is new in the user state was owed, or it has just changed. -/
theorem changesOf_add_owed {app app' : App}
    (hnew : app.lastPersistedValve ≠ some app'.valve.userState) :
    1 ≤ changesOf app app' + app.owed ∧
      (app.owed = 0 ∨ changesOf app app' = 0 → changesOf app app' + app.owed = 1) := by
  rcases eq_or_ne app.valve.userState app'.valve.userState with hu | hu
  · rw [changesOf, if_pos hu, owed, hu, if_neg hnew]
    exact ⟨Nat.le_refl _, fun _ => rfl⟩
  · rw [changesOf, if_neg hu]
    exact ⟨Nat.le_add_right _ _, fun h => by omega⟩

/-- One call writes at most what was owed and what it changes.  If its writes succeed
and nothing was owed or nothing changes, it writes all of that. -/
theorem writes_add_owed {app : App} (hstore : app.nvs.isSome = true) (c : Call) :
    (app.writes serde c).toList.length + ((appMachine serde).next app c).owed ≤
        changesOf app ((appMachine serde).next app c) + app.owed ∧
      (c.env.nvsSet nvsValveState = .ok () →
        app.owed = 0 ∨ changesOf app ((appMachine serde).next app c) = 0 →
        (app.writes serde c).toList.length + ((appMachine serde).next app c).owed =
          changesOf app ((appMachine serde).next app c) + app.owed) := by
  have hstep := persist_step serde hstore c
  generalize (appMachine serde).next app c = app' at hstep ⊢
  cases hstep with
  | other htick htries huser hknown hstored =>
      have howed : app'.owed = app.owed := by rw [owed, hknown, huser, owed]
      have hsame : changesOf app app' = 0 := if_pos huser.symm
      rw [writes_of_tries_eq_none serde htries, howed, hsame]
      exact ⟨Nat.le_refl _, fun _ _ => rfl⟩
  | kept htick htries hnew hknown hstored =>
      have howed : app'.owed = 0 := by rw [owed, hknown, if_pos hnew]
      rw [writes_of_tries_eq_none serde htries, howed]
      refine ⟨Nat.zero_le _, fun _ hsettled => ?_⟩
      -- what is known is the new state, so nothing is owed exactly when nothing changes
      have hsame : changesOf app app' = app.owed := by
        rw [changesOf, owed, hnew]
        simp [eq_comm]
      show 0 = _
      omega
  | wrote htick htries hnew hok hknown hstored =>
      have howed : app'.owed = 0 := by rw [owed, if_pos hknown]
      have hwrote : app.writes serde c = some app'.valve.userState := by rw [writes, hok, htries]
      obtain ⟨hle, heq⟩ := changesOf_add_owed hnew
      rw [hwrote, howed]
      exact ⟨hle, fun _ hsettled => (heq hsettled).symm⟩
  | failed e htick htries hnew herror hknown hstored =>
      have howed : app'.owed = 1 := by rw [owed, hknown, if_neg hnew]
      have hnone : app.writes serde c = none := by rw [writes, herror]
      rw [hnone, howed]
      exact ⟨(changesOf_add_owed hnew).1, fun hok => by rw [herror] at hok; cases hok⟩

/-- A tick whose write succeeds owes nothing, and another call changes nothing. -/
theorem owed_next {app : App} (hstore : app.nvs.isSome = true) {c : Call}
    (hok : c.env.nvsSet nvsValveState = .ok ()) :
    (c.op = .tick → ((appMachine serde).next app c).owed = 0) ∧
      (c.op ≠ .tick → ((appMachine serde).next app c).owed = app.owed ∧
        changesOf app ((appMachine serde).next app c) = 0) := by
  have hstep := persist_step serde hstore c
  generalize (appMachine serde).next app c = app' at hstep ⊢
  cases hstep with
  | other htick htries huser hknown hstored =>
      refine ⟨fun h => absurd h htick, fun _ => ⟨?_, if_pos huser.symm⟩⟩
      rw [owed, hknown, huser, owed]
  | kept htick htries hnew hknown hstored =>
      exact ⟨fun _ => by rw [owed, hknown, if_pos hnew], fun h => absurd htick h⟩
  | wrote htick htries hnew hok' hknown hstored =>
      exact ⟨fun _ => by rw [owed, if_pos hknown], fun h => absurd htick h⟩
  | failed e htick htries hnew herror hknown hstored =>
      rw [herror] at hok
      cases hok

/-- A session writes at most what was owed and what it changes. -/
theorem written_add_owed_le {app : App} (hstore : app.nvs.isSome = true) (calls : List Call) :
    (written serde app calls).length + ((appMachine serde).run app calls).owed ≤
      userChanges serde app calls + app.owed := by
  induction calls generalizing app with
  | nil => exact Nat.le_refl _
  | cons c calls ih =>
      have hstep := (writes_add_owed serde hstore c).1
      have hrest := ih ((hasStore_next serde app c).trans hstore)
      rw [written_cons, userChanges_cons, Machine.run_cons]
      omega

/-- A session that owes nothing and whose writes succeed writes each change. -/
theorem written_of_settled {app : App} (hstore : app.nvs.isSome = true) (howed : app.owed = 0)
    {calls : List Call} (hok : ∀ c ∈ calls, c.env.nvsSet nvsValveState = .ok ()) :
    (written serde app calls).length = userChanges serde app calls := by
  induction calls generalizing app with
  | nil => rfl
  | cons c calls ih =>
      have hokc := hok c List.mem_cons_self
      have hstep := (writes_add_owed serde hstore c).2 hokc (.inl howed)
      have hpaid : ((appMachine serde).next app c).owed = 0 := by
        by_cases htick : c.op = .tick
        · exact (owed_next serde hstore hokc).1 htick
        · exact ((owed_next serde hstore hokc).2 htick).1.trans howed
      have hrest := ih ((hasStore_next serde app c).trans hstore) hpaid
        fun c' hc' => hok c' (List.mem_cons_of_mem _ hc')
      rw [written_cons, userChanges_cons, hrest]
      omega

/-- A session whose first tick changes nothing, and whose writes succeed, also writes
what was owed. -/
theorem written_of_first_tick {app : App} (hstore : app.nvs.isSome = true)
    {calls₁ calls₂ : List Call} {c : Call}
    (hok : ∀ c' ∈ calls₁ ++ c :: calls₂, c'.env.nvsSet nvsValveState = .ok ())
    (hbefore : ∀ c' ∈ calls₁, c'.op ≠ .tick) (htick : c.op = .tick)
    (hsame : changesOf ((appMachine serde).run app calls₁)
      ((appMachine serde).run app (calls₁ ++ [c])) = 0) :
    (written serde app (calls₁ ++ c :: calls₂)).length =
      userChanges serde app (calls₁ ++ c :: calls₂) + app.owed := by
  induction calls₁ generalizing app with
  | nil =>
      have hokc := hok c (by simp)
      have hstep := (writes_add_owed serde hstore c).2 hokc (.inr hsame)
      have hpaid := (owed_next serde hstore hokc).1 htick
      have hrest := written_of_settled serde ((hasStore_next serde app c).trans hstore) hpaid
        fun c' hc' => hok c' (List.mem_cons_of_mem _ hc')
      rw [List.nil_append, written_cons, userChanges_cons, hrest]
      omega
  | cons c₁ calls₁ ih =>
      have hnot := hbefore c₁ List.mem_cons_self
      have hokc := hok c₁ (by simp)
      obtain ⟨howed, hkeep⟩ := (owed_next serde hstore hokc).2 hnot
      have hstep := (writes_add_owed serde hstore c₁).2 hokc (.inr hkeep)
      have hrest := ih ((hasStore_next serde app c₁).trans hstore)
        (fun c' hc' => hok c' (List.mem_cons_of_mem _ hc'))
        (fun c' hc' => hbefore c' (List.mem_cons_of_mem _ hc')) hsame
      rw [List.cons_append, written_cons, userChanges_cons, hrest]
      omega

end App

/-! ## Lives -/

/-- A step of a life. -/
abbrev LifeStep := Transition Device LifeEvent (Option Reply)

namespace LifeStep

variable (serde : Serde (List AlarmEvent))

/-- The write a step asks the store for under the key of the valve. -/
def tries (t : LifeStep) : Option Bool :=
  match t.input with
  | .call c => t.before.app.tries serde c
  | .powerLoss _ => none

/-- The value a step writes there. -/
def writes (t : LifeStep) : Option Bool :=
  match t.input with
  | .call c => t.before.app.writes serde c
  | .powerLoss _ => none

end LifeStep

section Lives

variable (serde : Serde (List AlarmEvent))

/-- The value last written in a life, or what its store began with. -/
def lastStored (nvs : NvsStore) (pre : List LifeStep) : Option Bool :=
  ((pre.filterMap (LifeStep.writes serde)).getLast?).or (App.storedValveState (some nvs))

theorem lastStored_append (nvs : NvsStore) (pre : List LifeStep) (t : LifeStep) :
    lastStored serde nvs (pre ++ [t]) = (t.writes serde).or (lastStored serde nvs pre) := by
  rw [lastStored, List.filterMap_append, List.filterMap_cons, List.filterMap_nil]
  cases t.writes serde with
  | none => simp [lastStored]
  | some on => simp

/-- The store has what was last written, and the application knows it. -/
structure Mirrors (nvs : NvsStore) (pre : List LifeStep) (d : Device) : Prop where
  hasStore : d.app.nvs.isSome = true
  stored : App.storedValveState d.app.nvs = lastStored serde nvs pre
  known : d.app.lastPersistedValve = lastStored serde nvs pre

theorem Mirrors.boot (config : Config) (nvs : NvsStore) :
    Mirrors serde nvs [] (.boot serde config nvs) :=
  ⟨rfl, rfl, rfl⟩

theorem Mirrors.next {nvs : NvsStore} {pre : List LifeStep} {d : Device}
    (h : Mirrors serde nvs pre d) (e : LifeEvent) :
    Mirrors serde nvs (pre ++ [(lifeMachine serde).transition d e])
      ((lifeMachine serde).next d e) := by
  have hlast := lastStored_append serde nvs pre ((lifeMachine serde).transition d e)
  cases e with
  | powerLoss config =>
      exact ⟨h.hasStore, h.stored.trans hlast.symm, h.stored.trans hlast.symm⟩
  | call c =>
      obtain ⟨hstored, hknown⟩ := App.stored_next serde h.hasStore c
      rw [h.stored] at hstored
      rw [h.known] at hknown
      exact ⟨(App.hasStore_next serde d.app c).trans h.hasStore, hstored.trans hlast.symm,
        hknown.trans hlast.symm⟩

/-- A tick leaves the store up to date or its write fails, and it asks for a write
only of what the store does not have. -/
theorem Mirrors.tick {nvs : NvsStore} {pre : List LifeStep} {d : Device}
    (h : Mirrors serde nvs pre d) {c : Call} (htick : c.op = .tick) :
    let app' := (appMachine serde).next d.app c
    (App.storedValveState app'.nvs = some app'.valve.userState ∨
        (d.app.tries serde c).isSome = true ∧ ∃ e, c.env.nvsSet App.nvsValveState = .error e) ∧
      ((d.app.tries serde c).isSome = true →
        lastStored serde nvs pre ≠ some app'.valve.userState) := by
  have hstep := App.persist_step serde h.hasStore c
  generalize (appMachine serde).next d.app c = app' at hstep ⊢
  rw [← h.known]
  cases hstep with
  | other hnot htries huser hknown hstored => exact absurd htick hnot
  | kept _ htries hnew hknown hstored =>
      refine ⟨.inl ?_, fun hsome => by rw [htries] at hsome; cases hsome⟩
      rw [hstored, h.stored, ← h.known, hnew]
  | wrote _ htries hnew hok hknown hstored => exact ⟨.inl hstored, fun _ => hnew⟩
  | failed e _ htries hnew herror hknown hstored =>
      exact ⟨.inr ⟨by rw [htries]; rfl, e, herror⟩, fun _ => hnew⟩

/-- A boot restores what was last written. -/
theorem Mirrors.powerLoss {nvs : NvsStore} {pre : List LifeStep} {d : Device}
    (h : Mirrors serde nvs pre d) (config : Config) :
    ((lifeMachine serde).next d (.powerLoss config)).app.valve.userState =
      (lastStored serde nvs pre).getD false := by
  rw [← h.stored]
  show (App.withNvs serde config d.app.nvs).valve.userState = _
  rw [Kept.withNvs_valve]

end Lives

/-- The first tick of a session leaves the user state as it is. -/
def FirstTickKeeps (serde : Serde (List AlarmEvent)) (app : App) (calls : List Call) : Prop :=
  ∃ calls₁ c calls₂, calls = calls₁ ++ c :: calls₂ ∧ (∀ c' ∈ calls₁, c'.op ≠ .tick) ∧
    c.op = .tick ∧
    ((appMachine serde).run app calls₁).valve.userState =
      ((appMachine serde).run app (calls₁ ++ [c])).valve.userState

/-- In every life of a device, whatever writes fail: a tick asks the store for just the
write it tries.  It leaves the store up to date with the user state or its write fails,
it tries a write only if the user state is not the one last written or restored, and a
boot restores the one last written.  The session after a boot writes at most its
changes, and one more on a blank store.  It writes all of them if its writes succeed and,
on a blank store, there is a first tick that changes nothing. -/
theorem valve_persistence (serde : Serde (List AlarmEvent)) :
    (∀ (config : Config) (nvs : NvsStore) (events : List LifeEvent) (pre : List LifeStep)
        (t : LifeStep) (post : List LifeStep),
      (lifeMachine serde).trace (.boot serde config nvs) events = pre ++ t :: post →
      (∀ env, t.input = .call ⟨env, .tick⟩ →
        t.after.app = (t.before.app.tickUpToPersist serde env).afterTry (t.tries serde) env ∧
        (App.storedValveState t.after.app.nvs = some t.after.app.valve.userState ∨
          (t.tries serde).isSome = true ∧ ∃ e, env.nvsSet App.nvsValveState = .error e) ∧
        ((t.tries serde).isSome = true →
          lastStored serde nvs pre ≠ some t.after.app.valve.userState)) ∧
      ∀ next, t.input = .powerLoss next →
        t.after.app.valve.userState = (lastStored serde nvs pre).getD false) ∧
    ∀ (config : Config) (nvs : NvsStore) (calls : List Call),
      let app := App.withNvs serde config (some nvs)
      let blank := if App.storedValveState (some nvs) = none then 1 else 0
      (App.written serde app calls).length ≤ App.userChanges serde app calls + blank ∧
        ((∀ c ∈ calls, c.env.nvsSet App.nvsValveState = .ok ()) →
          (App.storedValveState (some nvs) = none → FirstTickKeeps serde app calls) →
          (App.written serde app calls).length = App.userChanges serde app calls + blank) := by
  constructor
  · intro config nvs events pre t post hsplit
    have hmirrors : Mirrors serde nvs pre t.before :=
      ((lifeMachine serde).trace_history_before (G := fun _ _ _ => True)
        (fun _ _ e _ h => h.next serde e) (Mirrors.boot serde config nvs)
        (fun _ _ _ _ => trivial) hsplit).1
    have hmem : t ∈ (lifeMachine serde).trace (.boot serde config nvs) events := by
      rw [hsplit]
      exact List.mem_append_right _ List.mem_cons_self
    have ht := (lifeMachine serde).eq_transition hmem
    generalize t.before = d at hmirrors ht
    constructor
    · intro env hinput
      rw [hinput] at ht
      rw [ht]
      exact ⟨App.next_tick_eq serde d.app env, hmirrors.tick serde rfl⟩
    · intro next hinput
      rw [hinput] at ht
      rw [ht]
      exact hmirrors.powerLoss serde next
  · intro config nvs calls app blank
    have hstore : app.nvs.isSome = true := rfl
    have howed : app.owed = blank := App.owed_withNvs serde config (some nvs)
    refine ⟨?_, fun hok hfirst => ?_⟩
    · have hle := App.written_add_owed_le serde hstore calls
      omega
    · cases hs : App.storedValveState (some nvs) with
      | some on =>
          have hzero : blank = 0 := by simp [blank, hs]
          rw [hzero]
          exact App.written_of_settled serde hstore (howed.trans hzero) hok
      | none =>
          obtain ⟨calls₁, c, calls₂, rfl, hbefore, htick, hsame⟩ := hfirst hs
          rw [← howed]
          exact App.written_of_first_tick serde hstore hok hbefore htick (if_pos hsame)

/-- An instant of a platform whose writes fail. -/
def Env.full (t : Nat) : Env := { Env.plain t with nvsSet := fun _ => .error .full }

/-- The water is opened and closed again while the store is full.  The user state
changes twice, and nothing but the first tick is written. -/
theorem fewer_writes_than_changes :
    let app := App.withNvs (.fails _) (Config.default {}) (some .blank)
    let calls : List Call := [.plain 0 .tick, .plain 0 (.switchCommand (.waterControl true)),
      ⟨.full 16000, .tick⟩, .plain 16000 (.switchCommand (.waterControl false)),
      ⟨.full 32000, .tick⟩]
    ¬ (App.written (.fails _) app calls).length = App.userChanges (.fails _) app calls + 1 := by
  decide

/-- The water is opened and closed again on a blank store: the first tick writes, and so does
each of the two changes. -/
theorem valve_persistence_open_close :
    let app := App.withNvs (.fails _) (Config.default {}) (some .blank)
    let calls : List Call := [.plain 0 .tick, .plain 0 (.switchCommand (.waterControl true)),
      .plain 16000 .tick, .plain 16000 (.switchCommand (.waterControl false)), .plain 32000 .tick]
    App.userChanges (.fails _) app calls = 2 ∧
      (App.written (.fails _) app calls).length = App.userChanges (.fails _) app calls + 1 := by
  refine ⟨by decide, ((valve_persistence (.fails _)).2 (Config.default {}) .blank _).2 ?_ ?_⟩
  · simp only [List.forall_mem_cons]
    exact ⟨rfl, rfl, rfl, rfl, rfl, List.forall_mem_nil _⟩
  · intro _
    refine ⟨[], .plain 0 .tick, _, rfl, ?_, rfl, by decide⟩
    intro c hc
    cases hc

end WaterController
