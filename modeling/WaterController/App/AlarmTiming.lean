import WaterController.App.FlowAlarm

/-!
# When the alarm fires

A window is a part of a run in which every tick sees high flow by one enabled
rule.  The counter gains the whole seconds of the spacings of its ticks
(`Filled`).  What the spacings have beyond whole seconds is dropped at every tick
and lost, since the last check moves on.  So the alarm is on time if and only if
little has been dropped (`on_time_iff`), and ticks less than a second apart never
fire it (`never_fires_of_fast_ticks`).
-/

namespace WaterController

open Machines (Machine Transition)

/-- The time of a call, if it is a tick. -/
def Call.tickTime? (c : Call) : Option Nat :=
  match c.op with
  | .tick => some c.time
  | _ => none

theorem Call.tickTime?_of_tick {c : Call} (h : c.op = .tick) : c.tickTime? = some c.time := by
  simp [tickTime?, h]

theorem Call.tickTime?_of_ne {c : Call} (h : c.op ≠ .tick) : c.tickTime? = none := by
  obtain ⟨env, op⟩ := c
  cases op with
  | tick => exact absurd rfl h
  | switchCommand | fireScheduleSprinkler | replaceConfigSection | clearFlowAlarm | updateState
  | emitEvent => rfl

/-- The times of the ticks of a history. -/
def tickTimes (history : List AppTransition) : List Nat :=
  history.filterMap fun u => u.input.tickTime?

namespace App

variable (serde : Serde (List AlarmEvent))

/-! ## Windows of high flow -/

/-- All ticks of a history see high flow by an enabled rule, and nobody clears the
alarm. -/
structure HighWindow (rule : FlowAlarmConfig) (history : List AppTransition) : Prop where
  enabled : rule.enabled = true
  inForce : ∀ u ∈ history, IsTick u → u.before.config.flowAlarm = rule
  high : ∀ u ∈ history, IsTick u → u.after.FlowsHigh rule.thresholdLph
  uncleared : ∀ u ∈ history, u.input.op ≠ .clearFlowAlarm

/-- What a call of a window is promised. -/
structure InWindow (rule : FlowAlarmConfig) (app : App) (c : Call) : Prop where
  inForce : c.op = .tick → app.config.flowAlarm = rule
  high : c.op = .tick → (app.ticked c.time).FlowsHigh rule.thresholdLph
  uncleared : c.op ≠ .clearFlowAlarm

theorem HighWindow.inWindow {rule : FlowAlarmConfig} {app : App} {calls : List Call}
    (h : HighWindow rule ((appMachine serde).trace app calls)) {u : AppTransition}
    (hu : u ∈ (appMachine serde).trace app calls) : InWindow rule u.before u.input where
  inForce := h.inForce u hu
  high := fun htick => (published_iff serde hu htick _).mp (h.high u hu htick)
  uncleared := h.uncleared u hu

/-! ## The counter in a window -/

/-- The whole seconds of the spacings of the ticks, in 32 bits each. -/
def countedSecs (start : App) (times : List Nat) : Nat :=
  Spacing.counted 1000 (2 ^ 32) start.flowAlarmLastCheckMs times

/-- The milliseconds the counter does not see. -/
def droppedMs (start : App) (times : List Nat) : Nat :=
  Spacing.dropped 1000 (2 ^ 32) start.flowAlarmLastCheckMs times

/-- The alarm after the ticks of a window, from its start. -/
structure Filled (rule : FlowAlarmConfig) (start : App) (times : List Nat) (app : App) : Prop where
  lastCheck : app.flowAlarmLastCheckMs = Spacing.latest start.flowAlarmLastCheckMs times
  elapsed : app.state.alarm.elapsedSecs.toNat =
    min (start.state.alarm.elapsedSecs.toNat + countedSecs start times) (2 ^ 32 - 1)
  active : app.state.alarm.active = true ↔
    start.state.alarm.active = true ∨
      (times ≠ [] ∧ rule.durationSecs.toNat ≤ app.state.alarm.elapsedSecs.toNat)

theorem Filled.start (rule : FlowAlarmConfig) (start : App) : Filled rule start [] start where
  lastCheck := rfl
  elapsed := by
    have hlt := start.state.alarm.elapsedSecs.toNat_lt
    simp only [countedSecs, Spacing.counted, Spacing.gaps, List.map_nil, List.sum_nil]
    omega
  active := by simp

/-- A tick adds its delta to the counter, and latches the alarm on a full one. -/
theorem InWindow.alarm_next {rule : FlowAlarmConfig} {app : App} {c : Call}
    (hc : InWindow rule app c) (hrule : rule.enabled = true) (htick : c.op = .tick) :
    ((appMachine serde).next app c).state.alarm.elapsedSecs =
        saturatingAdd app.state.alarm.elapsedSecs (app.flowAlarmDelta c.time) ∧
      (((appMachine serde).next app c).state.alarm.active = true ↔
        app.state.alarm.active = true ∨
          rule.durationSecs ≤ ((appMachine serde).next app c).state.alarm.elapsedSecs) := by
  have hconfig : (app.ticked c.time).config.flowAlarm = rule := hc.inForce htick
  have henabled : (app.ticked c.time).config.flowAlarm.enabled = true := by rw [hconfig, hrule]
  have halarm : ((appMachine serde).next app c).state.alarm =
      (app.ticked c.time).alarmAt c.time := congrArg (·.alarm) (next_tick serde app htick).state
  have hcount : (app.ticked c.time).elapsedAt c.time =
      saturatingAdd app.state.alarm.elapsedSecs (app.flowAlarmDelta c.time) := by
    rw [elapsedAt]
    rw [hconfig, if_pos (hc.high htick)]
    rfl
  rw [halarm, alarmAt, if_pos henabled]
  refine ⟨hcount, ?_⟩
  have hfires : (app.ticked c.time).FiresAt c.time ↔ app.state.alarm.active = false ∧
      rule.durationSecs ≤ (app.ticked c.time).elapsedAt c.time := by
    simp only [FiresAt, hconfig, hrule, true_and]
    rfl
  simp only [Bool.or_eq_true, decide_eq_true_eq, hfires]
  cases hactive : app.state.alarm.active with
  | true => simp [hactive]
  | false => simp [hactive]

/-- A tick adds the whole seconds of its spacing and fires on a full counter. -/
theorem Filled.tick {rule : FlowAlarmConfig} {start app : App} {times : List Nat}
    (h : Filled rule start times app) (hrule : rule.enabled = true) {c : Call}
    (hc : InWindow rule app c) (htick : c.op = .tick) :
    Filled rule start (times ++ [c.time]) ((appMachine serde).next app c) := by
  obtain ⟨hcount, hactive⟩ := hc.alarm_next serde hrule htick
  have helapsed : ((appMachine serde).next app c).state.alarm.elapsedSecs.toNat =
      min (start.state.alarm.elapsedSecs.toNat + countedSecs start (times ++ [c.time]))
        (2 ^ 32 - 1) := by
    rw [hcount, saturatingAdd_toNat, flowAlarmDelta_toNat, h.elapsed, h.lastCheck, countedSecs,
      countedSecs, Spacing.counted_append]
    omega
  refine ⟨by rw [(next_tick serde app htick).lastCheck, Spacing.latest_append]; rfl, helapsed, ?_⟩
  -- the counter never falls, so a counter that was full is full
  have hgrows : app.state.alarm.elapsedSecs.toNat ≤
      ((appMachine serde).next app c).state.alarm.elapsedSecs.toNat := by
    rw [helapsed, h.elapsed, countedSecs, countedSecs, Spacing.counted_append]
    omega
  rw [hactive, UInt32.le_iff_toNat_le]
  constructor
  · rintro (hlatched | hfull)
    · rcases h.active.mp hlatched with hstart | ⟨-, hfull⟩
      · exact .inl hstart
      · exact .inr ⟨by simp, hfull.trans hgrows⟩
    · exact .inr ⟨by simp, hfull⟩
  · rintro (hstart | ⟨-, hfull⟩)
    · exact .inl (h.active.mpr (.inl hstart))
    · exact .inr hfull

/-- A call of a window keeps the alarm as the ticks so far filled it. -/
theorem Filled.next {rule : FlowAlarmConfig} {start app : App} {past : List AppTransition}
    (h : Filled rule start (tickTimes past) app) (hrule : rule.enabled = true) {c : Call}
    (hc : InWindow rule app c) :
    Filled rule start (tickTimes (past ++ [(appMachine serde).transition app c]))
      ((appMachine serde).next app c) := by
  by_cases htick : c.op = .tick
  · have htimes : tickTimes (past ++ [(appMachine serde).transition app c]) =
        tickTimes past ++ [c.time] := by
      simp [tickTimes, Call.tickTime?_of_tick htick]
    rw [htimes]
    exact h.tick serde hrule hc htick
  · have htimes : tickTimes (past ++ [(appMachine serde).transition app c]) = tickTimes past := by
      simp [tickTimes, Call.tickTime?_of_ne htick]
    have halarm : ((appMachine serde).next app c).state.alarm = app.state.alarm := by
      rcases next_alarm_of_not_tick serde app htick with ⟨-, hsame⟩ | ⟨hclear, -⟩
      · exact hsame
      · exact absurd hclear hc.uncleared
    rw [htimes]
    exact {
      lastCheck := (next_of_not_tick serde app htick).1.trans h.lastCheck
      elapsed := by rw [halarm, h.elapsed]
      active := by rw [halarm, h.active] }

/-- The alarm behind every call of a window. -/
theorem filled_of_window {rule : FlowAlarmConfig} {start : App} {calls : List Call}
    (hwindow : HighWindow rule ((appMachine serde).trace start calls))
    {pre post : List AppTransition} {t : AppTransition}
    (hsplit : (appMachine serde).trace start calls = pre ++ t :: post) :
    Filled rule start (tickTimes (pre ++ [t])) t.after :=
  (appMachine serde).trace_history_after
    (J := fun past app => Filled rule start (tickTimes past) app)
    (G := fun _ app c => InWindow rule app c)
    (fun _ _ _ hc h => h.next serde hwindow.enabled hc) (.start rule start)
    (fun pre t post h => hwindow.inWindow serde (by rw [h]; simp)) hsplit

/-! ## Being on time -/

/-- The alarm at a tick of a window that starts at `first`, with `spacing` in front
of that.  A second after the duration it has fired, and the counter is less than a
second and that spacing away from the time that has passed. -/
structure OnTime (rule : FlowAlarmConfig) (first spacing : Nat) (t : AppTransition) : Prop where
  fired : first + rule.durationSecs.toNat * 1000 + 1000 ≤ t.input.time →
    t.after.state.alarm.active = true
  behind : t.input.time - first <
    t.after.state.alarm.elapsedSecs.toNat * 1000 + (1000 + spacing)
  ahead : t.after.state.alarm.elapsedSecs.toNat * 1000 <
    t.input.time - first + (1000 + spacing)

/-- Little has been dropped at a tick of a window: the overtime of a late tick
makes up for it, and it is below a second and twice the spacing in front.  What the
counter held at the start counts for it, and less than a second of that is left
over.  The counter is not at the end of its 32 bits. -/
structure LittleDropped (rule : FlowAlarmConfig) (start : App) (times : List Nat)
    (first now : Nat) : Prop where
  fired : first + rule.durationSecs.toNat * 1000 + 1000 ≤ now →
    start.state.alarm.active = true ∨
      first + rule.durationSecs.toNat * 1000 + droppedMs start times ≤
        now + Spacing.gap start.flowAlarmLastCheckMs first +
          start.state.alarm.elapsedSecs.toNat * 1000
  behind : droppedMs start times <
      start.state.alarm.elapsedSecs.toNat * 1000 + 1000 +
        2 * Spacing.gap start.flowAlarmLastCheckMs first ∧
    now - first < (2 ^ 32 - 1) * 1000 + (1000 + Spacing.gap start.flowAlarmLastCheckMs first)
  ahead : start.state.alarm.elapsedSecs.toNat * 1000 < droppedMs start times + 1000 ∨
    (2 ^ 32 - 1) * 1000 < now - first + (1000 + Spacing.gap start.flowAlarmLastCheckMs first)

/-- The ticks of a timed history are at times that never go back. -/
theorem tickTimes_sorted {app : App} {calls : List Call} (h : TimedCalls calls)
    {pre post : List AppTransition} {t : AppTransition}
    (hsplit : (appMachine serde).trace app calls = pre ++ t :: post) :
    (tickTimes (pre ++ [t])).Pairwise (· ≤ ·) := by
  have hinputs : ((pre ++ [t]) ++ post).map Transition.input = calls := by
    rw [← (appMachine serde).map_input_trace app calls, hsplit]
    simp
  have htimes : tickTimes (pre ++ [t]) =
      ((pre ++ [t]).map Transition.input).filterMap Call.tickTime? := by
    rw [List.filterMap_map]
    rfl
  rw [htimes, List.pairwise_filterMap]
  rw [← hinputs, List.map_append] at h
  refine (Machine.Timed.append h).1.imp fun {c d} hcd a ha b hb => ?_
  have htick : ∀ {c : Call} {a : Nat}, c.tickTime? = some a → c.time = a := by
    intro c a ha
    by_cases hc : c.op = .tick
    · rw [Call.tickTime?_of_tick hc] at ha
      exact Option.some.inj ha
    · rw [Call.tickTime?_of_ne hc] at ha
      cases ha
  rw [← htick ha, ← htick hb]
  exact hcd _ rfl _ rfl

/-- **Timing.**  In every window of every run from boot, the alarm is on time at a
tick if and only if little has been dropped. -/
theorem on_time_iff (config : Config) (nvs : Option NvsStore) (calls₀ calls : List Call)
    (rule : FlowAlarmConfig) (htimed : TimedCalls (calls₀ ++ calls)) :
    let start := (appMachine serde).run (withNvs serde config nvs) calls₀
    HighWindow rule ((appMachine serde).trace start calls) →
      ∀ pre t post, (appMachine serde).trace start calls = pre ++ t :: post → IsTick t →
        ∀ first ∈ (tickTimes (pre ++ [t])).head?,
          OnTime rule first (Spacing.gap start.flowAlarmLastCheckMs first) t ↔
            LittleDropped rule start (tickTimes (pre ++ [t])) first t.input.time := by
  intro start hwindow pre t post hsplit htick first hfirst
  have hfilled := filled_of_window serde hwindow hsplit
  have htimes : tickTimes (pre ++ [t]) = tickTimes pre ++ [t.input.time] := by
    simp [tickTimes, Call.tickTime?_of_tick htick]
  have hsorted := tickTimes_sorted serde (Machine.Timed.append htimed).2 hsplit
  have hspan := Spacing.first_add_span start.flowAlarmLastCheckMs hsorted hfirst
    (by rw [htimes, Spacing.latest_append])
  have hdropped := Spacing.counted_add_dropped 1000 (2 ^ 32) start.flowAlarmLastCheckMs
    (tickTimes (pre ++ [t]))
  have hle : first ≤ t.input.time := by
    rw [htimes] at hsorted hfirst
    rcases List.mem_append.mp (List.mem_of_mem_head? hfirst) with hold | hnew
    · exact (List.pairwise_append.mp hsorted).2.2 first hold _ List.mem_cons_self
    · exact (List.mem_singleton.mp hnew).le
  have helapsed := hfilled.elapsed
  have hactive := hfilled.active
  have hne : tickTimes (pre ++ [t]) ≠ [] := by simp [htimes]
  have hbound := rule.durationSecs.toNat_lt
  simp only [countedSecs] at helapsed
  simp only [hne, ne_eq, not_false_eq_true, true_and] at hactive
  constructor
  · rintro ⟨hfired, hbehind, hahead⟩
    refine ⟨?_, ?_, ?_⟩
    · intro hlate
      refine (hactive.mp (hfired hlate)).imp_right ?_
      intro hfull
      simp only [droppedMs]
      omega
    · simp only [droppedMs]
      omega
    · simp only [droppedMs]
      omega
  · rintro ⟨hfired, hbehind, hahead⟩
    simp only [droppedMs] at hfired hbehind hahead
    refine ⟨?_, ?_, ?_⟩
    · intro hlate
      refine hactive.mpr ((hfired hlate).imp_right ?_)
      intro hfull
      omega
    · omega
    · omega

/-! ## Ticks and nothing else -/

/-- The flow is high and the sprinklers are off, until somebody changes that. -/
structure Flowing (rule : FlowAlarmConfig) (app : App) : Prop where
  inForce : app.config.flowAlarm = rule
  flow : app.state.flow ≥ rule.thresholdLph
  off : app.sprinkler1.on = false ∧ app.sprinkler2.on = false

/-- A switch that is off stays off. -/
theorem tick_of_off {s : TimedSwitch} (h : s.on = false) (now : Nat) : (s.tick now).1 = s := by
  simp [TimedSwitch.tick, h]

theorem Flowing.next {rule : FlowAlarmConfig} {app : App} (h : Flowing rule app) {c : Call}
    (htick : c.op = .tick) : Flowing rule ((appMachine serde).next app c) := by
  have hspec := next_tick serde app htick
  refine ⟨?_, ?_, ?_⟩
  · rw [hspec.config, h.inForce]
  · rw [hspec.state]
    exact h.flow
  · rw [hspec.sprinklers.1, hspec.sprinklers.2, tick_of_off h.off.1, tick_of_off h.off.2]
    exact h.off

theorem Flowing.sees {rule : FlowAlarmConfig} {app : App} (h : Flowing rule app) (now : Nat) :
    (app.ticked now).FlowsHigh rule.thresholdLph := by
  refine ⟨h.flow, ?_, ?_⟩
  · show (app.sprinkler1.tick now).1.on = false
    rw [tick_of_off h.off.1, h.off.1]
  · show (app.sprinkler2.tick now).1.on = false
    rw [tick_of_off h.off.2, h.off.2]

/-- Ticks and nothing else make a window. -/
theorem Flowing.highWindow {rule : FlowAlarmConfig} {start : App} (h : Flowing rule start)
    (henabled : rule.enabled = true) {ticks : List Call} (hticks : ∀ c ∈ ticks, c.op = .tick) :
    HighWindow rule ((appMachine serde).trace start ticks) := by
  have htick : ∀ u ∈ (appMachine serde).trace start ticks, u.input.op = .tick := by
    intro u hu
    exact hticks u.input ((appMachine serde).input_mem_of_mem_trace hu)
  have hflowing : ∀ u ∈ (appMachine serde).trace start ticks, Flowing rule u.before := fun u hu =>
    ((appMachine serde).trace_invariant (P := Flowing rule) (G := fun _ c => c.op = .tick)
      (fun _ _ hc ha => ha.next serde hc) h htick hu).1
  refine ⟨henabled, ?_, ?_, ?_⟩
  · intro u hu _
    exact (hflowing u hu).inForce
  · intro u hu hut
    exact (published_iff serde hu hut _).mpr ((hflowing u hu).sees _)
  · intro u hu hclear
    exact AppOp.noConfusion ((htick u hu).symm.trans hclear)

/-- **Fast ticks.**  Where an empty counter meets ticks that are all less than a
second apart, as those of the tick thread are, the alarm never fires. -/
theorem never_fires_of_fast_ticks {rule : FlowAlarmConfig} {start : App} {calls : List Call}
    (hwindow : HighWindow rule ((appMachine serde).trace start calls))
    (hempty : start.state.alarm = { active := false, elapsedSecs := 0 })
    (hduration : rule.durationSecs ≠ 0) {pre post : List AppTransition} {t : AppTransition}
    (hsplit : (appMachine serde).trace start calls = pre ++ t :: post)
    (hfast : ∀ d ∈ Spacing.gaps start.flowAlarmLastCheckMs (tickTimes (pre ++ [t])), d < 1000) :
    t.after.state.alarm.active = false := by
  have hfilled := filled_of_window serde hwindow hsplit
  have helapsed := hfilled.elapsed
  rw [hempty, countedSecs, Spacing.counted_eq_zero 1000 _ hfast] at helapsed
  rw [Bool.eq_false_iff]
  intro hactive
  rcases hfilled.active.mp hactive with hstart | ⟨-, hfull⟩
  · rw [hempty] at hstart
    cases hstart
  · rw [helapsed] at hfull
    exact hduration (UInt32.toNat_inj.mp (Nat.le_zero.mp hfull))

/-- A device that sees 100 litres an hour. -/
def flowingDevice (rule : FlowAlarmConfig) : App :=
  (appMachine (.fails _)).run (withNvs (.fails _) { Config.default {} with flowAlarm := rule } none)
    [.plain 0 (.updateState (fun s => { s with sensors.flowLph := some 100.0 }) fun _ => rfl)]

theorem flowing_flowingDevice {rule : FlowAlarmConfig} (h : 100.0 ≥ rule.thresholdLph) :
    Flowing rule (flowingDevice rule) :=
  ⟨rfl, h, rfl, rfl⟩

/-- Ticks a second apart are on time. -/
theorem on_time_second_ticks :
    OnTime ⟨true, 50.0, 1⟩ 0 0 ((appMachine (.fails _)).transition
      ((appMachine (.fails _)).run (flowingDevice ⟨true, 50.0, 1⟩)
        [.plain 0 .tick, .plain 1000 .tick]) (.plain 2000 .tick)) := by
  refine (on_time_iff (.fails _) _ none
    [.plain 0 (.updateState (fun s => { s with sensors.flowLph := some 100.0 }) fun _ => rfl)]
    [.plain 0 .tick, .plain 1000 .tick, .plain 2000 .tick] ⟨true, 50.0, 1⟩ ?_ ?_
    [_, _] _ [] rfl rfl 0 rfl).mpr ?_
  · simp [TimedCalls, Machine.Timed, Call.plain, Call.time, Env.plain]
  · refine (flowing_flowingDevice (by decide)).highWindow (.fails _) rfl fun c hc => ?_
    simp only [List.mem_cons, List.not_mem_nil, or_false] at hc
    rcases hc with rfl | rfl | rfl <;> rfl
  · refine ⟨fun _ => .inr ?_, ⟨?_, ?_⟩, .inl ?_⟩ <;> decide

/-- Ticks that come a millisecond early have not fired a rule of one second after
three. -/
theorem late_with_early_ticks :
    let rule : FlowAlarmConfig := ⟨true, 50.0, 1⟩
    let ticks : List Call := [.plain 0 .tick, .plain 999 .tick, .plain 1998 .tick]
    let t := (appMachine (.fails _)).transition
      ((appMachine (.fails _)).run (flowingDevice rule) ticks) (.plain 2997 .tick)
    HighWindow rule ((appMachine (.fails _)).trace (flowingDevice rule)
        (ticks ++ [.plain 2997 .tick])) ∧
      ¬ OnTime rule 0 0 t := by
  intro rule ticks t
  constructor
  · refine (flowing_flowingDevice (by decide)).highWindow (.fails _) rfl fun c hc => ?_
    simp only [ticks, List.cons_append, List.nil_append, List.mem_cons, List.not_mem_nil,
      or_false] at hc
    rcases hc with rfl | rfl | rfl | rfl <;> rfl
  · intro h
    have hactive : t.after.state.alarm.active = true := h.fired (by decide)
    revert hactive
    decide

end App

end WaterController
