import WaterController.App.Run

/-!
# How long a sprinkler stays on

A sprinkler has two limits: the duration that a schedule gave to this activation,
and the auto-off of the configuration, which can change while it is on.  A call
acts on a sprinkler as at most one operation of its switch (`next_sprinkler`), and
only the operation that switches it on says when it began and with which duration
(`Active`).  So the limit of a tick can be told from the call that switched the
sprinkler on and from the configuration in force (`sprinkler_limit`).
-/

namespace WaterController

open Machines (Machine Transition)

/-! ## Switches -/

/-- What can happen to a switch. -/
inductive SwitchOp where
  /-- A duration replaces the auto-off. -/
  | turnOn (nowMs : Nat) (duration : Option Nat)
  | turnOff
  | setAutoOff (autoOff : Option Nat)
  | tick (nowMs : Nat)
deriving DecidableEq, Repr

namespace TimedSwitch

def apply (s : TimedSwitch) : SwitchOp → TimedSwitch
  | .turnOn t none => s.turnOn t
  | .turnOn t (some d) => s.turnOnFor t d
  | .turnOff => s.turnOff
  | .setAutoOff autoOff => s.setAutoOff autoOff
  | .tick t => (s.tick t).1

/-- The switch is on since a time, with a duration of its own or without. -/
structure Active (s : TimedSwitch) (since : Nat) (duration : Option Nat) : Prop where
  on : s.on = true
  onSince : s.onSince = some since
  overrideAutoOff : s.overrideAutoOff = duration

/-- Turning on what is off starts an activation. -/
theorem active_turnOn {s : TimedSwitch} (h : s.on = false) (t : Nat) (duration : Option Nat) :
    (s.apply (.turnOn t duration)).Active t duration := by
  cases duration <;> simp only [apply, turnOn, turnOnFor, h] <;> exact ⟨rfl, rfl, rfl⟩

/-- Turning on what is on changes nothing. -/
theorem Active.turnOn {s : TimedSwitch} {since : Nat} {duration : Option Nat}
    (h : s.Active since duration) (t : Nat) (duration' : Option Nat) :
    s.apply (.turnOn t duration') = s := by
  cases duration' <;> simp only [apply, TimedSwitch.turnOn, turnOnFor, h.on, if_true]

/-- A tick of a switch that is on leaves it alone before its limit, and turns it off
from there on. -/
theorem Active.tick {s : TimedSwitch} {since : Nat} {duration : Option Nat}
    (h : s.Active since duration) (t : Nat) :
    ((s.tick t).1 = s ∧ ∀ d ∈ duration.or s.autoOff, t - since < d) ∨
      ((s.tick t).1 = s.turnOff ∧ ∃ d ∈ duration.or s.autoOff, d ≤ t - since) := by
  simp only [TimedSwitch.tick, h.on, h.onSince, h.overrideAutoOff]
  cases duration.or s.autoOff with
  | none => exact .inl ⟨rfl, fun d hd => by cases hd⟩
  | some d =>
      by_cases hd : d ≤ t - since
      · exact .inr ⟨by simp [hd], d, rfl, hd⟩
      · refine .inl ⟨by simp [hd], ?_⟩
        rintro d' ⟨⟩
        exact Nat.lt_of_not_le hd

/-- A switch that was off is on only behind an operation that turned it on. -/
theorem apply_on_of_off {s : TimedSwitch} (h : s.on = false) {op : SwitchOp}
    (hon : (s.apply op).on = true) : ∃ t duration, op = .turnOn t duration := by
  cases op with
  | turnOn t duration => exact ⟨t, duration, rfl⟩
  | turnOff => cases hon
  | setAutoOff autoOff =>
      rw [show (s.apply (.setAutoOff autoOff)).on = s.on from rfl, h] at hon
      cases hon
  | tick t =>
      simp [apply, TimedSwitch.tick, h] at hon

/-- An activation that is not over is the one it was. -/
theorem Active.apply {s : TimedSwitch} {since : Nat} {duration : Option Nat}
    (h : s.Active since duration) {op : SwitchOp} (hon : (s.apply op).on = true) :
    (s.apply op).Active since duration := by
  cases op with
  | turnOn t duration' =>
      rw [h.turnOn]
      exact h
  | turnOff => cases hon
  | setAutoOff autoOff => exact ⟨h.on, h.onSince, h.overrideAutoOff⟩
  | tick t =>
      rcases h.tick t with ⟨hkeep, -⟩ | ⟨hoff, -⟩
      · rw [TimedSwitch.apply, hkeep]
        exact h
      · rw [TimedSwitch.apply, hoff] at hon
        cases hon

/-- The auto-off is touched by no other operation. -/
theorem autoOff_apply (s : TimedSwitch) {op : SwitchOp} (h : ∀ autoOff, op ≠ .setAutoOff autoOff) :
    (s.apply op).autoOff = s.autoOff := by
  cases op with
  | turnOn t duration =>
      cases duration <;> simp only [apply, turnOn, turnOnFor] <;> split <;> rfl
  | turnOff => rfl
  | setAutoOff autoOff => exact absurd rfl (h autoOff)
  | tick t =>
      simp only [apply, TimedSwitch.tick]
      repeat' split
      all_goals rfl

end TimedSwitch

/-! ## The sprinklers of an application -/

inductive Sprinkler where
  | one
  | two
deriving DecidableEq, Repr

/-- The name a schedule has for the sprinkler. -/
def Sprinkler.id : Sprinkler → String
  | .one => "sprinkler_1"
  | .two => "sprinkler_2"

def TickOutputs.sprinkler (o : TickOutputs) : Sprinkler → Bool
  | .one => o.sprinkler1
  | .two => o.sprinkler2

/-- The auto-off that is configured. -/
def Config.autoOff (cfg : Config) : Sprinkler → Option Nat
  | .one => App.autoOffOrNone cfg.switches.sprinkler1AutoOffSecs
  | .two => App.autoOffOrNone cfg.switches.sprinkler2AutoOffSecs

/-- What a manual command asks of a sprinkler. -/
def SwitchCommand.sprinkler? : SwitchCommand → Sprinkler → Option Bool
  | .sprinkler1 on, .one | .sprinkler2 on, .two => some on
  | _, _ => none

/-- The manual command of a sprinkler. -/
def Sprinkler.command : Sprinkler → Bool → SwitchCommand
  | .one, on => .sprinkler1 on
  | .two, on => .sprinkler2 on

/-- The duration a schedule gives, in milliseconds. -/
def durationMs (durationSecs : Option UInt32) : Option Nat := durationSecs.map (·.toNat * 1000)

namespace App

def sprinkler (app : App) : Sprinkler → TimedSwitch
  | .one => app.sprinkler1
  | .two => app.sprinkler2

/-- The operation of a call on a sprinkler, if there is one. -/
def switchOp? (k : Sprinkler) (c : Call) : Option SwitchOp :=
  match c.op with
  | .switchCommand cmd =>
      (cmd.sprinkler? k).map fun on => if on then .turnOn c.time none else .turnOff
  | .fireScheduleSprinkler id durationSecs =>
      if id = k.id then some (.turnOn c.time (durationMs durationSecs)) else none
  | .replaceConfigSection cfg _ => some (.setAutoOff (cfg.autoOff k))
  | .tick => some (.tick c.time)
  | .clearFlowAlarm | .updateState _ _ | .emitEvent _ => none

variable (serde : Serde (List AlarmEvent))

theorem startSprinkler_eq (s : TimedSwitch) (t : Nat) (durationSecs : Option UInt32) :
    startSprinkler s t durationSecs = s.apply (.turnOn t (durationMs durationSecs)) := by
  cases durationSecs <;> rfl

/-- A call acts on a sprinkler as its operation. -/
theorem next_sprinkler (app : App) (c : Call) (k : Sprinkler) :
    ((appMachine serde).next app c).sprinkler k =
      (switchOp? k c).elim (app.sprinkler k) (app.sprinkler k).apply := by
  obtain ⟨env, op⟩ := c
  cases op with
  | switchCommand cmd =>
      cases cmd with
      | sprinkler1 on | sprinkler2 on => cases k <;> cases on <;> rfl
      | waterControl on =>
          have hcmd := switchCommand_waterControl app env on
          exact (congrArg (fun a : App => a.sprinkler k) hcmd).trans (by cases k <;> rfl)
  | fireScheduleSprinkler id d =>
      have hfire : ((appMachine serde).next app ⟨env, .fireScheduleSprinkler id d⟩) =
          (app.fireScheduleSprinkler env id d).1 := rfl
      rw [hfire]
      simp only [fireScheduleSprinkler, switchOp?, startSprinkler_eq]
      cases k <;> split_ifs <;> simp_all [Sprinkler.id, sprinkler, Call.time]
  | replaceConfigSection cfg section_ => cases k <;> rfl
  | clearFlowAlarm =>
      have hclear := clearFlowAlarm_frame app env
      exact (congrArg (fun a : App => a.sprinkler k) hclear).trans (by cases k <;> rfl)
  | updateState f hf => cases k <;> rfl
  | emitEvent ev => cases k <;> rfl
  | tick =>
      have hspec := (tick_spec serde app env).sprinklers
      cases k with
      | one => exact hspec.1
      | two => exact hspec.2

/-- The level a tick puts out for a sprinkler. -/
theorem out_tick_sprinkler (app : App) {c : Call} (h : c.op = .tick) (k : Sprinkler) :
    ∃ o, (appMachine serde).out app c = .outputs o ∧
      o.sprinkler k = (((appMachine serde).next app c).sprinkler k).on := by
  obtain ⟨env, op⟩ := c
  cases h
  refine ⟨_, rfl, ?_⟩
  rw [next_sprinkler]
  cases k <;> rfl

/-! ## Activations -/

/-- A transition switched a sprinkler on, and it has been on since. -/
def SwitchedOn (k : Sprinkler) (h : List AppTransition) (u : AppTransition) : Prop :=
  ∃ pre mid, h = pre ++ u :: mid ∧ (u.before.sprinkler k).on = false ∧
    (u.after.sprinkler k).on = true ∧ ∀ w ∈ mid, (w.after.sprinkler k).on = true

/-- The duration that the call asks a sprinkler to be on for. -/
def durationOf (k : Sprinkler) (c : Call) : Option Nat :=
  match c.op with
  | .fireScheduleSprinkler id durationSecs => if id = k.id then durationMs durationSecs else none
  | _ => none

/-- The limit at a tick: the duration of the activation, else the configured
auto-off. -/
def limit (k : Sprinkler) (u t : AppTransition) : Option Nat :=
  (durationOf k u.input).or (t.before.config.autoOff k)

/-- The last transition of a history switched the sprinkler on, or it was on before
and still is. -/
theorem switchedOn_append_singleton {k : Sprinkler} {h : List AppTransition}
    {t u : AppTransition} (hon : SwitchedOn k (h ++ [t]) u) :
    (u = t ∧ (t.before.sprinkler k).on = false ∧ (t.after.sprinkler k).on = true) ∨
      (SwitchedOn k h u ∧ (t.after.sprinkler k).on = true) := by
  obtain ⟨pre, mid, hsplit, hoff, hafter, hmid⟩ := hon
  cases mid using List.reverseRecOn with
  | nil =>
      obtain ⟨-, rfl⟩ := List.append_singleton_inj.mp hsplit
      exact .inl ⟨rfl, hoff, hafter⟩
  | append_singleton mid w =>
      rw [← List.cons_append, ← List.append_assoc] at hsplit
      obtain ⟨rfl, rfl⟩ := List.append_singleton_inj.mp hsplit
      refine .inr ⟨⟨pre, mid, rfl, hoff, hafter, fun v hv => hmid v ?_⟩, hmid t ?_⟩
      · exact List.mem_append_left _ hv
      · exact List.mem_append_right _ List.mem_cons_self

/-- What the history of a run says of a sprinkler. -/
structure Tracked (k : Sprinkler) (h : List AppTransition) (app : App) : Prop where
  autoOff : (app.sprinkler k).autoOff = app.config.autoOff k
  known : (app.sprinkler k).on = true → ∃ u, SwitchedOn k h u
  active : ∀ u, SwitchedOn k h u →
    (app.sprinkler k).Active u.input.time (durationOf k u.input)

theorem tracked_withNvs (config : Config) (nvs : Option NvsStore) (k : Sprinkler) :
    Tracked k [] (withNvs serde config nvs) where
  autoOff := by cases k <;> rfl
  known h := by cases k <;> cases h
  active := by
    rintro u ⟨pre, mid, hsplit, -⟩
    simp at hsplit

variable {serde}

/-- Only a call that installs a configuration sets an auto-off. -/
theorem switchOp?_ne_setAutoOff {k : Sprinkler} {c : Call} (h : c.op.installs = false)
    {op : SwitchOp} (hop : op ∈ switchOp? k c) (autoOff : Option Nat) :
    op ≠ .setAutoOff autoOff := by
  rintro rfl
  obtain ⟨env, op⟩ := c
  cases op with
  | replaceConfigSection cfg section_ => cases h
  | switchCommand cmd =>
      simp only [switchOp?, Option.mem_def, Option.map_eq_some_iff] at hop
      obtain ⟨on, -, hon⟩ := hop
      cases on <;> cases hon
  | fireScheduleSprinkler id d =>
      simp only [switchOp?] at hop
      split at hop <;> cases hop
  | clearFlowAlarm | updateState f hf | emitEvent ev | tick => cases hop

/-- The auto-off of a sprinkler is that of the configuration. -/
theorem autoOff_next {app : App} {k : Sprinkler}
    (h : (app.sprinkler k).autoOff = app.config.autoOff k) (c : Call) :
    (((appMachine serde).next app c).sprinkler k).autoOff =
      ((appMachine serde).next app c).config.autoOff k := by
  cases hi : c.op.installs with
  | true =>
      obtain ⟨env, op⟩ := c
      cases op with
      | replaceConfigSection cfg section_ => cases k <;> rfl
      | switchCommand | fireScheduleSprinkler | clearFlowAlarm | updateState | emitEvent | tick =>
          cases hi
  | false =>
      rw [next_sprinkler, next_config serde app hi, ← h]
      cases hop : switchOp? k c with
      | none => rfl
      | some op => exact TimedSwitch.autoOff_apply _ (switchOp?_ne_setAutoOff hi hop)

/-- A call that turns a sprinkler on gives it its duration. -/
theorem durationOf_of_turnOn {k : Sprinkler} {c : Call} {t : Nat} {duration : Option Nat}
    (h : switchOp? k c = some (.turnOn t duration)) : t = c.time ∧ duration = durationOf k c := by
  obtain ⟨env, op⟩ := c
  cases op with
  | switchCommand cmd =>
      simp only [switchOp?, Option.map_eq_some_iff] at h
      obtain ⟨on, -, hon⟩ := h
      cases on with
      | true =>
          cases hon
          exact ⟨rfl, rfl⟩
      | false => cases hon
  | fireScheduleSprinkler id d =>
      simp only [switchOp?] at h
      split at h
      · rename_i hid
        cases h
        exact ⟨rfl, (if_pos hid).symm⟩
      · cases h
  | replaceConfigSection cfg section_ | clearFlowAlarm | updateState f hf | emitEvent ev | tick =>
      cases h

/-- The call that switches a sprinkler on starts an activation. -/
theorem active_of_switchedOn {app : App} {k : Sprinkler} {c : Call}
    (hoff : (app.sprinkler k).on = false)
    (hon : (((appMachine serde).next app c).sprinkler k).on = true) :
    (((appMachine serde).next app c).sprinkler k).Active c.time (durationOf k c) := by
  rw [next_sprinkler] at hon ⊢
  cases hop : switchOp? k c with
  | none =>
      rw [hop] at hon
      exact absurd (hoff.symm.trans hon) Bool.false_ne_true
  | some op =>
      rw [hop] at hon
      obtain ⟨t, duration, rfl⟩ := TimedSwitch.apply_on_of_off hoff hon
      obtain ⟨rfl, rfl⟩ := durationOf_of_turnOn hop
      exact TimedSwitch.active_turnOn hoff _ _

/-- No call changes an activation that it does not end. -/
theorem active_next {app : App} {k : Sprinkler} {since : Nat} {duration : Option Nat}
    (h : (app.sprinkler k).Active since duration) {c : Call}
    (hon : (((appMachine serde).next app c).sprinkler k).on = true) :
    (((appMachine serde).next app c).sprinkler k).Active since duration := by
  rw [next_sprinkler] at hon ⊢
  cases hop : switchOp? k c with
  | none => exact h
  | some op =>
      rw [hop] at hon
      exact h.apply hon

/-- One call keeps what the history says of a sprinkler. -/
theorem Tracked.next {k : Sprinkler} {h : List AppTransition} {app : App} (hk : Tracked k h app)
    (c : Call) :
    Tracked k (h ++ [(appMachine serde).transition app c]) ((appMachine serde).next app c) where
  autoOff := autoOff_next hk.autoOff c
  known hon := by
    cases hoff : (app.sprinkler k).on with
    | false => exact ⟨_, h, [], rfl, hoff, hon, fun w hw => by cases hw⟩
    | true =>
        obtain ⟨u, pre, mid, rfl, hu, hu', hmid⟩ := hk.known hoff
        refine ⟨u, pre, mid ++ [(appMachine serde).transition app c], by simp, hu, hu', ?_⟩
        intro w hw
        rcases List.mem_append.mp hw with hold | hnew
        · exact hmid w hold
        · cases List.mem_singleton.mp hnew
          exact hon
  active u hu := by
    rcases switchedOn_append_singleton hu with ⟨rfl, hoff, hon⟩ | ⟨hold, hon⟩
    · exact active_of_switchedOn hoff hon
    · exact active_next (hk.active u hold) hon

/-- A call that is no tick ends an activation only as the command to end it. -/
theorem on_next_of_not_tick {app : App} {k : Sprinkler} {since : Nat} {duration : Option Nat}
    (h : (app.sprinkler k).Active since duration) {c : Call} (htick : c.op ≠ .tick)
    (hoff : c.op ≠ .switchCommand (k.command false)) :
    (((appMachine serde).next app c).sprinkler k).on = true := by
  rw [next_sprinkler]
  cases hop : switchOp? k c with
  | none => exact h.on
  | some op =>
      cases op with
      | turnOn t duration' => exact (congrArg (·.on) (h.turnOn t duration')).trans h.on
      | setAutoOff autoOff => exact h.on
      | turnOff | tick =>
          obtain ⟨env, op⟩ := c
          cases op with
          | switchCommand cmd =>
              cases k <;> cases cmd <;> rename_i on <;> cases on <;> simp_all [switchOp?,
                SwitchCommand.sprinkler?, Sprinkler.command]
          | fireScheduleSprinkler id d => simp [switchOp?] at hop
          | tick => exact absurd rfl htick
          | replaceConfigSection | clearFlowAlarm | updateState | emitEvent => cases hop

/-- What the limit of an activation says of a call. -/
structure KeepsLimit (k : Sprinkler) (u t : AppTransition) : Prop where
  /-- A tick that reports the sprinkler on is before the limit. -/
  reported : IsTick t → ∀ o, t.output = .outputs o → o.sprinkler k = true →
    ∀ d ∈ limit k u t, t.input.time - u.input.time < d
  /-- A tick that switches it off is not. -/
  ended : IsTick t → (t.after.sprinkler k).on = false →
    ∃ d ∈ limit k u t, d ≤ t.input.time - u.input.time
  /-- Any other call but the off command keeps the start and the duration. -/
  kept : ¬ IsTick t → t.input.op ≠ .switchCommand (k.command false) →
    (t.after.sprinkler k).Active u.input.time (durationOf k u.input)

/-- The limit of a tick is the one its switch goes by. -/
theorem Tracked.keepsLimit {k : Sprinkler} {h : List AppTransition} {app : App}
    (hk : Tracked k h app) {u : AppTransition} (hu : SwitchedOn k h u) (c : Call) :
    KeepsLimit k u ((appMachine serde).transition app c) := by
  have hactive := hk.active u hu
  have hlimit : limit k u ((appMachine serde).transition app c) =
      (durationOf k u.input).or (app.sprinkler k).autoOff := by
    rw [hk.autoOff]
    rfl
  have hticked : c.op = .tick →
      ((appMachine serde).next app c).sprinkler k = ((app.sprinkler k).tick c.time).1 := by
    intro htick
    rw [next_sprinkler, switchOp?, htick]
    rfl
  constructor
  · intro htick o ho hon
    obtain ⟨o', ho', hlevel⟩ := out_tick_sprinkler serde app (c := c) htick k
    obtain rfl : o' = o := by
      have hsame : Reply.outputs o' = .outputs o := ho'.symm.trans ho
      cases hsame
      rfl
    rw [hlevel, hticked htick] at hon
    rcases hactive.tick c.time with ⟨-, hbefore⟩ | ⟨hoff, -⟩
    · rw [hlimit]
      exact hbefore
    · rw [hoff] at hon
      cases hon
  · intro htick hoff
    rw [Machine.transition_after, hticked htick] at hoff
    rcases hactive.tick c.time with ⟨hsame, -⟩ | ⟨-, hover⟩
    · rw [hsame, hactive.on] at hoff
      cases hoff
    · rw [hlimit]
      exact hover
  · intro htick hoff
    exact active_next hactive (on_next_of_not_tick hactive htick hoff)

variable (serde)

/-- **Limit.**  Along every run from boot, a sprinkler that is on was switched on by a
call of the run, and every call keeps the limit of that activation. -/
theorem sprinkler_limit (config : Config) (nvs : Option NvsStore) (calls : List Call) (c : Call)
    (k : Sprinkler) :
    let boot := withNvs serde config nvs
    let pre := (appMachine serde).trace boot calls
    let t := (appMachine serde).transition ((appMachine serde).run boot calls) c
    ((t.before.sprinkler k).on = true → ∃ u, SwitchedOn k pre u) ∧
      ∀ u, SwitchedOn k pre u → KeepsLimit k u t := by
  intro boot pre t
  have hk : Tracked k pre ((appMachine serde).run boot calls) :=
    (appMachine serde).trace_history (J := Tracked k) (G := fun _ _ _ => True)
      (fun _ _ c _ h => h.next c) (tracked_withNvs serde config nvs k) fun _ _ _ _ => trivial
  exact ⟨hk.known, fun u hu => hk.keepsLimit hu c⟩

/-- A sprinkler with an auto-off of a minute, switched on by a schedule for two
seconds, is reported on by a tick a second later and off by the next. -/
example :
    let config := { Config.default {} with switches.sprinkler1AutoOffSecs := 60 }
    let app := (appMachine (.fails _)).run (withNvs (.fails _) config none)
      [.plain 5000 (.fireScheduleSprinkler "sprinkler_1" (some 2))]
    let t := (appMachine (.fails _)).transition app (.plain 6000 .tick)
    ∃ o o', t.output = .outputs o ∧ o.sprinkler1 = true ∧
      (appMachine (.fails _)).out t.after (.plain 7000 .tick) = .outputs o' ∧
        o'.sprinkler1 = false :=
  ⟨_, _, rfl, rfl, rfl, rfl⟩

end App

end WaterController
