import WaterController.App.Run
import WaterController.Library.SingleFloat
import WaterController.Library.Spacing

/-!
# What a firing alarm says about the flow

The alarm keeps a counter of seconds, and the counter is all it knows of the
past.  The invariant `Counted` says what the counter stands for: every earlier
tick that lies less than the counted seconds before the last check saw high flow
by the rule of its own time.  A tick that fires has counted its duration, so this
holds of every tick of the interval (`sawHigh_of_counted`).

It fails the documented meaning in two ways.  A rule of duration zero fires with
an empty counter, so it fires on any flow.  And the counter outlives a change of
the threshold, so what was counted under a lower threshold is held against the
new one.  `true_alarm_iff` says that there is no third.
-/

namespace WaterController

open Machines (Machine Transition)

theorem saturatingAdd_toNat (a b : UInt32) :
    (saturatingAdd a b).toNat = min (a.toNat + b.toNat) (2 ^ 32 - 1) := by
  rw [saturatingAdd]
  rw [UInt32.toNat_ofNat']
  omega

namespace App

variable (serde : Serde (List AlarmEvent))

/-! ## The counter -/

theorem flowAlarmDelta_toNat (app : App) (now : Nat) :
    (app.flowAlarmDelta now).toNat =
      Spacing.whole 1000 (2 ^ 32) (Spacing.gap app.flowAlarmLastCheckMs now) := by
  rw [flowAlarmDelta]
  cases app.flowAlarmLastCheckMs with
  | none => simp [Spacing.gap, Spacing.whole]
  | some last => exact UInt32.toNat_ofNat'

/-- A nonzero counter was filled by an evaluation that saw high flow. -/
theorem flowsHigh_of_elapsedAt (app : App) (now : Nat) (h : app.elapsedAt now ≠ 0) :
    app.FlowsHigh app.config.flowAlarm.thresholdLph := by
  unfold elapsedAt at h
  split at h
  · assumption
  · exact absurd rfl h

/-- An evaluation counts no more than the time since the last one. -/
theorem elapsedAt_le (app : App) {now last : Nat} (h : app.flowAlarmLastCheckMs = some last)
    (hle : last ≤ now) :
    last + 1000 * (app.elapsedAt now).toNat ≤ now + 1000 * app.state.alarm.elapsedSecs.toNat := by
  rw [elapsedAt]
  split
  · have hwhole := Spacing.mul_whole_le 1000 (2 ^ 32) (now - last)
    rw [saturatingAdd_toNat, flowAlarmDelta_toNat, h, Spacing.gap]
    omega
  · rw [UInt32.toNat_zero]
    omega

/-! ## Ticks and what they see -/

/-- A tick sees high flow: what it publishes of the flow and the sprinklers. -/
def SawHigh (t : AppTransition) (threshold : Float32) : Prop :=
  (t.before.ticked t.input.time).FlowsHigh threshold

instance (t : AppTransition) (threshold : Float32) : Decidable (SawHigh t threshold) :=
  inferInstanceAs (Decidable (FlowsHigh _ _))

/-- A tick sees high flow by the rule of its time. -/
def SawOwnHigh (t : AppTransition) : Prop := SawHigh t t.before.config.flowAlarm.thresholdLph

/-- What a tick sees is what it publishes. -/
theorem published_iff {t : AppTransition} {app : App} {calls : List Call}
    (ht : t ∈ (appMachine serde).trace app calls) (htick : IsTick t) (threshold : Float32) :
    t.after.FlowsHigh threshold ↔ SawHigh t threshold := by
  rw [(appMachine serde).eq_transition ht]
  have hstate := (next_tick serde t.before htick).state
  simp only [FlowsHigh, SawHigh, Machine.transition_after, Machine.transition_before,
    Machine.transition_input, hstate, DeviceSnapshot.flow]
  rfl

/-! ## What the counter stands for -/

/-- What the counter and the last check say about the ticks so far. -/
structure Counted (past : List AppTransition) (app : App) : Prop where
  /-- Before the first tick nothing is counted. -/
  fresh : app.flowAlarmLastCheckMs = none →
    app.state.alarm.elapsedSecs = 0 ∧ ∀ u ∈ past, ¬ IsTick u
  /-- The last check is the time of a tick. -/
  checked : ∀ last ∈ app.flowAlarmLastCheckMs, ∃ u ∈ past, u.input.time = last
  /-- The ticks in the counted seconds saw high flow. -/
  high : ∀ last ∈ app.flowAlarmLastCheckMs, ∀ u ∈ past, IsTick u →
    last < u.input.time + 1000 * app.state.alarm.elapsedSecs.toNat → SawOwnHigh u

theorem Counted.boot (config : Config) (nvs : Option NvsStore) :
    Counted [] (withNvs serde config nvs) where
  fresh _ := ⟨rfl, fun _ hu => absurd hu List.not_mem_nil⟩
  checked _ hlast := by cases hlast
  high _ hlast := by cases hlast

/-- A tick that counts on saw high flow, and so did the ticks in what it has
counted. -/
theorem Counted.high_of_elapsedAt {past : List AppTransition} {app : App} (h : Counted past app)
    {c : Call} (htime : ∀ u ∈ past, u.input.time ≤ c.time) {u : AppTransition}
    (hu : u ∈ past ++ [(appMachine serde).transition app c]) (htick : IsTick u)
    (hlate : c.time < u.input.time + 1000 * ((app.ticked c.time).elapsedAt c.time).toNat) :
    SawOwnHigh u := by
  rcases List.mem_append.mp hu with hold | hnew
  · cases hlast : app.flowAlarmLastCheckMs with
    | none => exact absurd htick ((h.fresh hlast).2 u hold)
    | some last =>
        obtain ⟨v, hv, hvlast⟩ := h.checked last hlast
        have hle : last ≤ c.time := hvlast ▸ htime v hv
        have hcount := elapsedAt_le (app.ticked c.time) hlast hle
        rw [ticked_alarm] at hcount
        exact h.high last hlast u hold htick (by omega)
  · cases List.mem_singleton.mp hnew
    refine flowsHigh_of_elapsedAt (app.ticked c.time) c.time fun hzero => ?_
    rw [hzero, UInt32.toNat_zero] at hlate
    exact absurd hlate (Nat.lt_irrefl _)

/-- A tick keeps what the counter stands for. -/
theorem Counted.tick {past : List AppTransition} {app : App} (h : Counted past app) {c : Call}
    (hc : c.op = .tick) (htime : ∀ u ∈ past, u.input.time ≤ c.time) :
    Counted (past ++ [(appMachine serde).transition app c]) ((appMachine serde).next app c) := by
  have hspec := next_tick serde app hc
  have halarm : ((appMachine serde).next app c).state.alarm =
      (app.ticked c.time).alarmAt c.time := congrArg (·.alarm) hspec.state
  refine ⟨?_, ?_, ?_⟩
  · intro hnone
    rw [hspec.lastCheck] at hnone
    cases hnone
  · intro last hlast
    rw [hspec.lastCheck] at hlast
    cases hlast
    exact ⟨_, List.mem_append_right _ List.mem_cons_self, rfl⟩
  · intro last hlast u hu htick hlate
    rw [hspec.lastCheck] at hlast
    cases hlast
    rw [halarm, alarmAt] at hlate
    split at hlate
    · exact h.high_of_elapsedAt serde htime hu htick hlate
    · -- a disabled rule has counted nothing, and no tick is later than this one
      have hle : u.input.time ≤ c.time := by
        rcases List.mem_append.mp hu with hold | hnew
        · exact htime u hold
        · cases List.mem_singleton.mp hnew
          exact Nat.le_refl _
      rw [UInt32.toNat_zero] at hlate
      exact absurd hlate (Nat.not_lt.mpr hle)

/-- Any other call leaves the counter alone or empties it. -/
theorem Counted.of_not_tick {past : List AppTransition} {app : App} (h : Counted past app)
    {c : Call} (hc : c.op ≠ .tick) :
    Counted (past ++ [(appMachine serde).transition app c]) ((appMachine serde).next app c) := by
  have hlast := (next_of_not_tick serde app hc).1
  have hpast : ∀ u ∈ past ++ [(appMachine serde).transition app c], IsTick u → u ∈ past := by
    intro u hu htick
    rcases List.mem_append.mp hu with hold | hnew
    · exact hold
    · cases List.mem_singleton.mp hnew
      exact absurd htick hc
  have hcount : ((appMachine serde).next app c).state.alarm.elapsedSecs.toNat ≤
      app.state.alarm.elapsedSecs.toNat := by
    rcases next_alarm_of_not_tick serde app hc with ⟨-, hsame⟩ | ⟨-, hempty⟩
    · rw [hsame]
    · rw [hempty]
      exact Nat.zero_le _
  refine ⟨?_, ?_, ?_⟩
  · intro hnone
    obtain ⟨hzero, hticks⟩ := h.fresh (hlast ▸ hnone)
    refine ⟨UInt32.toNat_inj.mp ?_, ?_⟩
    · rw [hzero] at hcount
      exact Nat.le_zero.mp hcount
    · intro u hu htick
      exact hticks u (hpast u hu htick) htick
  · intro last hl
    obtain ⟨u, hu, htime⟩ := h.checked last (hlast ▸ hl)
    exact ⟨u, List.mem_append_left _ hu, htime⟩
  · intro last hl u hu htick hlate
    exact h.high last (hlast ▸ hl) u (hpast u hu htick) htick (by omega)

/-- One call keeps what the counter stands for. -/
theorem Counted.next {past : List AppTransition} {app : App} (h : Counted past app) (c : Call)
    (htime : ∀ u ∈ past, u.input.time ≤ c.time) :
    Counted (past ++ [(appMachine serde).transition app c]) ((appMachine serde).next app c) := by
  by_cases hc : c.op = .tick
  · exact h.tick serde hc htime
  · exact h.of_not_tick serde hc

/-- Along a run, the ticks in what a tick has counted saw high flow. -/
theorem sawHigh_of_counted (config : Config) (nvs : Option NvsStore) {calls : List Call}
    (htimed : TimedCalls calls) {pre post : List AppTransition} {t u : AppTransition}
    (hsplit : (appMachine serde).trace (withNvs serde config nvs) calls = pre ++ t :: post)
    (hu : u ∈ pre ++ [t]) (htick : IsTick u)
    (hlate : t.input.time <
      u.input.time + 1000 * ((t.before.ticked t.input.time).elapsedAt t.input.time).toNat) :
    SawOwnHigh u := by
  have htime : ∀ pre t post,
      (appMachine serde).trace (withNvs serde config nvs) calls = pre ++ t :: post →
        ∀ u ∈ pre, u.input.time ≤ t.input.time := by
    intro pre t post hsplit u hu
    exact Machine.Timed.trace_le _ htimed hsplit u hu _ rfl _ rfl
  obtain ⟨hcounted, hpast⟩ := (appMachine serde).trace_history_before
    (J := Counted) (G := fun past _ c => ∀ u ∈ past, u.input.time ≤ c.time)
    (fun past app c hg h => h.next serde c hg) (.boot serde config nvs) htime hsplit
  have heq := (appMachine serde).eq_transition (t := t) (by rw [hsplit]; simp)
  exact hcounted.high_of_elapsedAt serde hpast (heq ▸ hu) htick hlate

/-! ## Firing -/

/-- The ticks of the last `secs` seconds, up to the time of `t`. -/
def Within (secs : UInt32) (t u : AppTransition) : Prop :=
  t.input.time < u.input.time + 1000 * secs.toNat

/-- The alarm that fires at `t` is a true one.  By the rule it fires by, the flow
it publishes is high, and so was the flow every tick of the duration published. -/
def TrueAlarm (past : List AppTransition) (t : AppTransition) : Prop :=
  t.after.FlowsHigh t.before.config.flowAlarm.thresholdLph ∧
    ∀ u ∈ past, IsTick u → Within t.before.config.flowAlarm.durationSecs t u →
      u.after.FlowsHigh t.before.config.flowAlarm.thresholdLph

/-- The counter can be trusted at `t`.  A rule of duration zero sees high flow, and
where a tick of the duration had a threshold that is not as high as the one at `t`,
the flow it saw is as high. -/
def Trusted (past : List AppTransition) (t : AppTransition) : Prop :=
  (t.before.config.flowAlarm.durationSecs = 0 →
    SawHigh t t.before.config.flowAlarm.thresholdLph) ∧
  ∀ u ∈ past, IsTick u → Within t.before.config.flowAlarm.durationSecs t u →
    ¬ t.before.config.flowAlarm.thresholdLph ≤ u.before.config.flowAlarm.thresholdLph →
    (u.before.ticked u.input.time).state.flow ≥ t.before.config.flowAlarm.thresholdLph

/-- A tick that latches the alarm has counted the duration. -/
theorem duration_le_of_fires {t : AppTransition} {app : App} {calls : List Call}
    (ht : t ∈ (appMachine serde).trace app calls) (htick : IsTick t)
    (hoff : t.before.state.alarm.active = false) (hon : t.after.state.alarm.active = true) :
    t.before.config.flowAlarm.durationSecs ≤
      (t.before.ticked t.input.time).elapsedAt t.input.time := by
  rw [(appMachine serde).eq_transition ht] at hon
  have hstate := (next_tick serde t.before htick).state
  rw [Machine.transition_after, hstate] at hon
  change ((t.before.ticked t.input.time).alarmAt t.input.time).active = true at hon
  unfold alarmAt at hon
  split at hon
  · rcases Bool.or_eq_true_iff.mp hon with hf | ha
    · exact (of_decide_eq_true hf).2.2
    · exact absurd (hoff.symm.trans ha) Bool.false_ne_true
  · cases hon

/-- **No false alarm.**  In every run from boot with a clock that never goes back,
an alarm that fires is a true one if and only if the counter can be trusted. -/
theorem true_alarm_iff (config : Config) (nvs : Option NvsStore) (calls : List Call)
    (htimed : TimedCalls calls) (pre : List AppTransition) (t : AppTransition)
    (post : List AppTransition)
    (hsplit : (appMachine serde).trace (withNvs serde config nvs) calls = pre ++ t :: post)
    (htick : IsTick t) (hoff : t.before.state.alarm.active = false)
    (hon : t.after.state.alarm.active = true) : TrueAlarm pre t ↔ Trusted pre t := by
  have hmem : ∀ u ∈ pre ++ [t],
      u ∈ (appMachine serde).trace (withNvs serde config nvs) calls := by
    intro u hu
    rw [hsplit, List.append_cons]
    exact List.mem_append_left post hu
  have hpublished := fun u hu hu' => published_iff serde (t := u) (hmem u hu) hu'
  have ht : t ∈ pre ++ [t] := List.mem_append_right _ List.mem_cons_self
  have hpre : ∀ u ∈ pre, u ∈ pre ++ [t] := fun u hu => List.mem_append_left _ hu
  have hduration := duration_le_of_fires serde (hmem t ht) htick hoff hon
  -- the counted seconds cover the duration
  have hcovered : ∀ u ∈ pre ++ [t], IsTick u →
      Within t.before.config.flowAlarm.durationSecs t u → SawOwnHigh u := by
    intro u hu hutick hwithin
    refine sawHigh_of_counted serde config nvs htimed hsplit hu hutick ?_
    have hle := UInt32.le_iff_toNat_le.mp hduration
    unfold Within at hwithin
    omega
  constructor
  · rintro ⟨hnow, hpast⟩
    constructor
    · intro _
      exact (hpublished t ht htick _).mp hnow
    · intro u hu hutick hwithin _
      exact ((hpublished u (hpre u hu) hutick _).mp (hpast u hu hutick hwithin)).1
  · rintro ⟨hzero, hraised⟩
    constructor
    · refine (hpublished t ht htick _).mpr ?_
      by_cases hd : t.before.config.flowAlarm.durationSecs = 0
      · exact hzero hd
      · refine hcovered t ht htick ?_
        have hpos : t.before.config.flowAlarm.durationSecs.toNat ≠ 0 :=
          fun h => hd (UInt32.toNat_inj.mp h)
        rw [Within]
        omega
    · intro u hu hutick hwithin
      have hown : SawOwnHigh u := hcovered u (hpre u hu) hutick hwithin
      refine (hpublished u (hpre u hu) hutick _).mpr ⟨?_, hown.2⟩
      by_cases hle : t.before.config.flowAlarm.thresholdLph ≤
          u.before.config.flowAlarm.thresholdLph
      · exact SingleFloat.le_trans hle hown.1
      · exact hraised u hu hutick hwithin hle

/-- Two seconds of flow at twice the threshold. -/
theorem true_alarm_two_seconds :
    let config := { Config.default {} with flowAlarm := ⟨true, 100.0, 2⟩ }
    let app := withNvs (.fails _) config none
    let calls : List Call := [
      .plain 0 (.updateState (fun s => { s with sensors.flowLph := some 200.0 }) fun _ => rfl),
      .plain 0 .tick, .plain 1000 .tick]
    TrueAlarm ((appMachine (.fails _)).trace app calls)
      ((appMachine (.fails _)).transition ((appMachine (.fails _)).run app calls)
        (.plain 2000 .tick)) := by
  intro config app calls
  have htimed : TimedCalls (calls ++ [.plain 2000 .tick]) := by
    simp [TimedCalls, Machine.Timed, calls, Call.plain, Call.time, Env.plain]
  refine (true_alarm_iff (.fails _) config none _ htimed _ _ []
    ((appMachine (.fails _)).trace_append app calls [.plain 2000 .tick]) rfl (by decide)
    (by decide)).mpr ⟨fun _ => by decide, fun u hu _ _ hne => absurd ?_ hne⟩
  simp only [calls, Machine.trace_cons, Machine.trace_nil, List.mem_cons, List.not_mem_nil,
    or_false] at hu
  rcases hu with rfl | rfl | rfl <;> decide

/-- A rule of duration zero fires on a device with no flow at all. -/
theorem fires_without_flow :
    let config := { Config.default {} with flowAlarm := ⟨true, 100.0, 0⟩ }
    let app := withNvs (.fails _) config none
    let t := (appMachine (.fails _)).transition app (.plain 0 .tick)
    (appMachine (.fails _)).trace app [.plain 0 .tick] = [t] ∧
      t.before.state.alarm.active = false ∧ t.after.state.alarm.active = true ∧
      ¬ TrueAlarm [] t := by
  refine ⟨rfl, by decide, by decide, ?_⟩
  rintro ⟨hnow, -⟩
  revert hnow
  decide

end App

end WaterController
