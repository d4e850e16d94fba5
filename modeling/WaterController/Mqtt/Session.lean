import WaterController.App.Run
import WaterController.Mqtt.Routing

/-!
# One session with the broker

A session starts with a connect.  From then on the configuration may be
replaced, the state may be published and messages may come in, in any order.

The connect fixes the base topic of the subscriptions and of the handler, and
nothing that follows changes them (`Holds`).  A publish reads the base topic that
is configured now.  So a publish is in step with the commands exactly when the
two are the same (`consistent_iff`).
-/

namespace WaterController

open Machines (Machine Transition)

namespace MqttIntegration

/-! ## The session -/

inductive SessionEvent where
  | replaceConfig (env : Env) (cfg : Config)
  | publishState (snap : DeviceSnapshot)
  | incoming (env : Env) (topic : String) (payload : Bytes)

/-- The integration behind a connect.  A step puts out the messages it publishes. -/
def sessionMachine : Machine MqttIntegration SessionEvent (List Publication) where
  step m ev :=
    match ev with
    | .replaceConfig env cfg => ({ m with app := m.app.replaceConfig env cfg }, [])
    | .publishState snap => (m.publishState snap, stateMessages m.context snap)
    | .incoming env topic payload => (m.deliver env topic payload, [])

/-- The topic of the state of a switch. -/
def stateTopic (baseTopic key : String) : String := baseTopic ++ "/" ++ key ++ "/state"

/-- The command topic of a switch under a base topic is subscribed, and the
commands that come in on it reach the switch. -/
structure Commanded (m : MqttIntegration) (baseTopic : String) (sw : SwitchId) : Prop where
  subscribed : commandTopic baseTopic sw.key ∈ m.mqtt.subscriptions
  routed : ∀ on, ∀ payload ∈ acceptedPayloads on,
    m.routes (commandTopic baseTopic sw.key) payload = some (sw.command on)

/-- Each switch whose state is published under a base topic takes commands under
that base topic. -/
def Consistent (t : Transition MqttIntegration SessionEvent (List Publication)) : Prop :=
  ∀ (baseTopic : String) (sw : SwitchId),
    (∃ msg ∈ t.output, msg.topic = stateTopic baseTopic sw.key) → t.before.Commanded baseTopic sw

/-! ## The topics of a publish -/

/-- The keys of the state topics. -/
def stateKeys : List String :=
  ["battery", "pressure", "water_flow", "water_total", "wifi_rssi", "free_heap", "uptime",
    "reset_reason", "sprinkler_1", "sprinkler_2", "water_control", "flow_alarm"]

theorem topic_of_mem_sensorMessage {ctx : DeviceContext} {key : String} {text : Option String}
    {msg : Publication} (h : msg ∈ sensorMessage ctx key text) :
    msg.topic = stateTopic ctx.baseTopic key := by
  cases text with
  | none => cases h
  | some s =>
      rw [List.mem_singleton.mp h]
      rfl

/-- A publish of the state uses the topics under one base topic. -/
theorem topic_of_mem_stateMessages {ctx : DeviceContext} {snap : DeviceSnapshot}
    {msg : Publication} (h : msg ∈ stateMessages ctx snap) :
    ∃ key ∈ stateKeys, msg.topic = stateTopic ctx.baseTopic key := by
  simp only [stateMessages, List.mem_append, List.mem_cons, List.not_mem_nil, or_false] at h
  rcases h with (((((((h | h) | h) | h) | h) | h) | h) | h) | rfl | rfl | rfl | rfl
  any_goals exact ⟨_, by simp [stateKeys], topic_of_mem_sensorMessage h⟩
  all_goals exact ⟨_, by simp [stateKeys], rfl⟩

/-- The state of every switch is published. -/
theorem switch_mem_stateMessages (ctx : DeviceContext) (snap : DeviceSnapshot) (sw : SwitchId) :
    ∃ msg ∈ stateMessages ctx snap, msg.topic = stateTopic ctx.baseTopic sw.key := by
  have hmem : ∃ on, switchMessage ctx sw.key on ∈ stateMessages ctx snap := by
    cases sw with
    | sprinkler1 => exact ⟨snap.switches.sprinkler1, by simp [stateMessages, SwitchId.key]⟩
    | sprinkler2 => exact ⟨snap.switches.sprinkler2, by simp [stateMessages, SwitchId.key]⟩
    | waterControl =>
        exact ⟨snap.switches.waterControl = .on || snap.switches.waterControl = .transitioning,
          by simp [stateMessages, SwitchId.key]⟩
  obtain ⟨on, hon⟩ := hmem
  exact ⟨_, hon, rfl⟩

/-- The base topic of a published switch is the one the publish read. -/
theorem baseTopic_of_mem_stateMessages {ctx : DeviceContext} {snap : DeviceSnapshot}
    {baseTopic : String} {sw : SwitchId}
    (h : ∃ msg ∈ stateMessages ctx snap, msg.topic = stateTopic baseTopic sw.key) :
    baseTopic = ctx.baseTopic := by
  obtain ⟨msg, hmem, htopic⟩ := h
  obtain ⟨key, hkey, htopic'⟩ := topic_of_mem_stateMessages hmem
  have hslash : ∀ k ∈ stateKeys, '/' ∉ k.toList := by decide
  exact (topic_inj sw.slash_notMem_key (hslash key hkey) (htopic.symm.trans htopic')).1

/-! ## What a session keeps -/

/-- The handler and the subscriptions are those of a base topic. -/
structure Holds (baseTopic : String) (m : MqttIntegration) : Prop where
  handler : m.mqtt.handler = some (parseCommand baseTopic)
  subscribed : ∀ sw : SwitchId, commandTopic baseTopic sw.key ∈ m.mqtt.subscriptions

theorem holds_onConnect (m : MqttIntegration) :
    m.onConnect.Holds m.app.config.mqtt.baseTopic :=
  ⟨rfl, m.commandTopic_mem_onConnect⟩

/-- A session changes neither the handler nor the subscriptions. -/
theorem Holds.next {baseTopic : String} {m : MqttIntegration} (h : m.Holds baseTopic)
    (ev : SessionEvent) : (sessionMachine.next m ev).Holds baseTopic := by
  have hkeep : (sessionMachine.next m ev).mqtt.handler = m.mqtt.handler ∧
      (sessionMachine.next m ev).mqtt.subscriptions = m.mqtt.subscriptions := by
    cases ev with
    | replaceConfig env cfg => exact ⟨rfl, rfl⟩
    | publishState snap => exact ⟨rfl, rfl⟩
    | incoming env topic payload =>
        show (m.deliver env topic payload).mqtt.handler = _ ∧ _
        rw [show sessionMachine.next m (.incoming env topic payload) =
          m.deliver env topic payload from rfl, deliver]
        cases m.routes topic payload <;> exact ⟨rfl, rfl⟩
  exact ⟨hkeep.1.trans h.handler, fun sw => hkeep.2 ▸ h.subscribed sw⟩

/-- The switches are commanded under the base topic of the handler, and under no
other. -/
theorem Holds.commanded_iff {baseTopic : String} {m : MqttIntegration} (h : m.Holds baseTopic)
    (b : String) (sw : SwitchId) : m.Commanded b sw ↔ b = baseTopic := by
  constructor
  · intro hc
    have hroute := hc.routed true _ (onOff_mem_acceptedPayloads true)
    rw [routes, h.handler] at hroute
    obtain ⟨sw', on, htopic, -⟩ := parseCommand_eq_some.mp hroute
    exact (topic_inj sw.slash_notMem_key sw'.slash_notMem_key htopic).1
  · rintro rfl
    refine ⟨h.subscribed sw, fun on payload hp => ?_⟩
    rw [routes, h.handler]
    exact parseCommand_commandTopic b sw hp

/-- In every session, a publish of the state is consistent with the commands
exactly when the base topic it reads is the one the connect read. -/
theorem consistent_iff (m : MqttIntegration) (events : List SessionEvent)
    {t : Transition MqttIntegration SessionEvent (List Publication)}
    (ht : t ∈ sessionMachine.trace m.onConnect events) {snap : DeviceSnapshot}
    (hpublish : t.input = .publishState snap) :
    Consistent t ↔ t.before.app.config.mqtt.baseTopic = m.app.config.mqtt.baseTopic := by
  have hholds : t.before.Holds m.app.config.mqtt.baseTopic :=
    (sessionMachine.trace_invariant (G := fun _ _ => True) (fun _ ev _ h => h.next ev)
      m.holds_onConnect (fun _ _ => trivial) ht).1
  have hout : t.output = stateMessages t.before.context snap := by
    rw [sessionMachine.eq_transition ht, hpublish]
    rfl
  constructor
  · intro hc
    have hmem := switch_mem_stateMessages t.before.context snap .sprinkler1
    rw [← hout] at hmem
    exact (hholds.commanded_iff _ _).mp (hc _ _ hmem)
  · intro hbase b sw hmem
    rw [hout] at hmem
    rw [hholds.commanded_iff, baseTopic_of_mem_stateMessages hmem]
    exact hbase

/-! ## A base topic that changes in a session -/

/-- A fresh device with an integration. -/
def fresh : MqttIntegration where
  app := .new (.fails _) (.default {})
  mqtt := { published := [], subscriptions := [], handler := none }
  firmwareVersion := "0.1.0"

/-- A configuration with another base topic. -/
def renamed : Config := { Config.default {} with mqtt := { baseTopic := "garden" } }

/-- With the base topic untouched a publish is consistent, also behind another change. -/
theorem consistent_iff_fresh :
    Consistent (sessionMachine.transition
      (sessionMachine.run fresh.onConnect [.replaceConfig (.plain 0) { Config.default {} with
        adminToken := "token" }]) (.publishState {})) :=
  (consistent_iff fresh [.replaceConfig (.plain 0) { Config.default {} with
      adminToken := "token" }, .publishState {}]
    (List.mem_cons_of_mem _ List.mem_cons_self) rfl).mpr rfl

/-- After a change of the base topic the state is published under the new one, where
nothing is commanded. -/
theorem not_consistent_renamed :
    ¬ ∀ (m : MqttIntegration) (events : List SessionEvent),
      ∀ t ∈ sessionMachine.trace m.onConnect events, ∀ snap, t.input = .publishState snap →
        Consistent t := by
  intro h
  have hmem := sessionMachine.transition_mem_trace fresh.onConnect
    [.replaceConfig (.plain 0) renamed] (.publishState {}) []
  obtain ⟨msg, hmsg, htopic⟩ :=
    switch_mem_stateMessages (sessionMachine.run fresh.onConnect
      [.replaceConfig (.plain 0) renamed]).context {} .waterControl
  have hc := h fresh _ _ hmem {} rfl "garden" .waterControl ⟨msg, hmsg, htopic⟩
  have hroute := hc.routed true _ (onOff_mem_acceptedPayloads true)
  revert hroute
  decide

end MqttIntegration

end WaterController
