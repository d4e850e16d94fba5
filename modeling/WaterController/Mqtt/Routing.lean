import WaterController.Core.MqttDispatch

/-!
# Command topics

Three places of the integration build or take apart the command topics: the
announcements, the subscriptions and the parser of the messages that come in.
`parseCommand_eq_some` is the grammar of the parser, for any base topic, and
`mem_allMessages_switch` says which switches are announced.  With them the
parser reads back what is announced.

A switch is a `SwitchId`: it has the key in its topics and the commands it takes.
-/

namespace WaterController

/-- The switches of the device. -/
inductive SwitchId where
  | sprinkler1
  | sprinkler2
  | waterControl
deriving DecidableEq, Repr

namespace SwitchId

def key : SwitchId → String
  | sprinkler1 => "sprinkler_1"
  | sprinkler2 => "sprinkler_2"
  | waterControl => "water_control"

/-- The name shown to the user. -/
def title : SwitchId → String
  | sprinkler1 => "Riego exterior"
  | sprinkler2 => "Riego mobil"
  | waterControl => "Water control"

def command : SwitchId → Bool → SwitchCommand
  | sprinkler1, on => .sprinkler1 on
  | sprinkler2, on => .sprinkler2 on
  | waterControl, on => .waterControl on

/-- A key is one level of a topic. -/
theorem slash_notMem_key (sw : SwitchId) : '/' ∉ sw.key.toList := by
  cases sw <;> decide

theorem mem_commandKeys {key : String} : key ∈ commandKeys ↔ ∃ sw : SwitchId, key = sw.key := by
  constructor
  · intro h
    simp only [commandKeys, List.mem_cons, List.not_mem_nil, or_false] at h
    rcases h with rfl | rfl | rfl
    · exact ⟨sprinkler1, rfl⟩
    · exact ⟨sprinkler2, rfl⟩
    · exact ⟨waterControl, rfl⟩
  · rintro ⟨sw, rfl⟩
    cases sw <;> simp [commandKeys, key]

end SwitchId

/-- The payloads that mean a value. -/
def acceptedPayloads (on : Bool) : List Bytes := if on then onPayloads else offPayloads

/-- The texts of the state topics are accepted as commands. -/
theorem onOff_mem_acceptedPayloads (on : Bool) :
    asciiBytes (MqttIntegration.onOff on) ∈ acceptedPayloads on := by
  cases on <;> decide

/-- The topic of the commands to a switch. -/
def commandTopic (baseTopic key : String) : String := baseTopic ++ "/" ++ key ++ "/set"

/-! ## The parser -/

theorem parsePayload_eq_some {payload : Bytes} {on : Bool} :
    parsePayload payload = some on ↔ payload ∈ acceptedPayloads on := by
  have hdisjoint : ∀ p ∈ offPayloads, p ∉ onPayloads := by decide
  rw [parsePayload]
  cases on with
  | true =>
      show _ ↔ payload ∈ onPayloads
      split_ifs with h1 h2 <;> simp [h1]
  | false =>
      show _ ↔ payload ∈ offPayloads
      split_ifs with h1 h2
      · simpa using fun h => hdisjoint payload h h1
      · simp [h2]
      · simp [h2]

/-- The two cuts of a topic find a key that has no slash. -/
theorem cut_eq_some {baseTopic topic key : String} :
    (∃ rest, Text.stripPrefix topic (baseTopic ++ "/") = some rest ∧
      Text.splitOnce rest '/' = some (key, "set")) ↔
    topic = commandTopic baseTopic key ∧ '/' ∉ key.toList := by
  constructor
  · rintro ⟨rest, hstrip, hsplit⟩
    rw [Text.stripPrefix_eq_some] at hstrip
    obtain ⟨hrest, hkey⟩ := Text.splitOnce_eq_some.mp hsplit
    refine ⟨?_, hkey⟩
    rw [hstrip, commandTopic, ← String.toList_inj]
    simp [hrest]
  · rintro ⟨rfl, hkey⟩
    refine ⟨key ++ "/set", ?_, ?_⟩
    · rw [Text.stripPrefix_eq_some, commandTopic, String.append_assoc]
    · rw [Text.splitOnce_eq_some]
      exact ⟨by simp, hkey⟩

/-- The parser accepts the command topics with a payload it knows, and nothing
else. -/
theorem parseCommand_eq_some {baseTopic topic : String} {payload : Bytes} {cmd : SwitchCommand} :
    parseCommand baseTopic topic payload = some cmd ↔
      ∃ (sw : SwitchId) (on : Bool), topic = commandTopic baseTopic sw.key ∧
        payload ∈ acceptedPayloads on ∧ cmd = sw.command on := by
  constructor
  · intro h
    simp only [parseCommand, Option.bind_eq_bind, Option.bind_eq_some_iff] at h
    obtain ⟨rest, hstrip, ⟨key, suffix⟩, hsplit, h⟩ := h
    rcases ne_or_eq suffix "set" with hset | rfl
    · rw [if_pos hset] at h
      cases h
    rw [if_neg (not_not_intro rfl), Option.bind_eq_some_iff] at h
    obtain ⟨on, hpayload, h⟩ := h
    have htopic := (cut_eq_some.mp ⟨rest, hstrip, hsplit⟩).1
    have hpayload := parsePayload_eq_some.mp hpayload
    split_ifs at h with h1 h2 h3
    · obtain rfl : key = "sprinkler_1" := h1
      exact ⟨.sprinkler1, on, htopic, hpayload, (Option.some.inj h).symm⟩
    · obtain rfl : key = "sprinkler_2" := h2
      exact ⟨.sprinkler2, on, htopic, hpayload, (Option.some.inj h).symm⟩
    · obtain rfl : key = "water_control" := h3
      exact ⟨.waterControl, on, htopic, hpayload, (Option.some.inj h).symm⟩
  · rintro ⟨sw, on, htopic, hpayload, rfl⟩
    obtain ⟨rest, hstrip, hsplit⟩ := cut_eq_some.mpr ⟨htopic, sw.slash_notMem_key⟩
    have hpayload := parsePayload_eq_some.mpr hpayload
    simp only [parseCommand, Option.bind_eq_bind, hstrip, hsplit, Option.bind_some, hpayload,
      ne_eq, not_true_eq_false, if_false]
    cases sw <;> simp [SwitchId.key, SwitchId.command]

/-- A switch takes its commands on its own topic. -/
theorem parseCommand_commandTopic (baseTopic : String) (sw : SwitchId) {payload : Bytes}
    {on : Bool} (h : payload ∈ acceptedPayloads on) :
    parseCommand baseTopic (commandTopic baseTopic sw.key) payload = some (sw.command on) :=
  parseCommand_eq_some.mpr ⟨sw, on, rfl, h, rfl⟩

/-- A topic of three parts names its base and its key. -/
theorem topic_inj {b₁ b₂ key₁ key₂ suffix : String} (h₁ : '/' ∉ key₁.toList)
    (h₂ : '/' ∉ key₂.toList) (h : b₁ ++ "/" ++ key₁ ++ suffix = b₂ ++ "/" ++ key₂ ++ suffix) :
    b₁ = b₂ ∧ key₁ = key₂ := by
  -- read from its end, a topic is the suffix, the key, a slash and the base
  have hrev := congrArg (fun s => s.toList.reverse) h
  simp only [String.toList_append, List.reverse_append, List.append_cancel_left_eq,
    show "/".toList.reverse = ['/'] from rfl, List.singleton_append] at hrev
  obtain ⟨hkey, hbase⟩ := Text.append_cons_inj (by simpa using h₁) (by simpa using h₂) hrev
  exact ⟨String.toList_inj.mp (List.reverse_injective hbase),
    String.toList_inj.mp (List.reverse_injective hkey)⟩

/-! ## The announcements -/

namespace SwitchId

/-- The announcement of a switch. -/
def announcement (sw : SwitchId) (ctx : DeviceContext) : SwitchPayload where
  name := sw.title
  uniqueId := ctx.uniqueId sw.key
  objectId := ctx.uniqueId sw.key
  stateTopic := ctx.switchStateTopic sw.key
  commandTopic := ctx.switchCommandTopic sw.key
  payloadOn := "ON"
  payloadOff := "OFF"
  stateOn := "ON"
  stateOff := "OFF"
  optimistic := false
  availabilityTopic := ctx.availabilityTopic
  payloadAvailable := "online"
  payloadNotAvailable := "offline"
  device := ctx.deviceBlock

end SwitchId

/-- The announced switches are the switches of the device. -/
theorem mem_allMessages_switch {ctx : DeviceContext} {p : SwitchPayload} :
    (∃ msg ∈ allMessages ctx, msg.payload = .switch p) ↔
      ∃ sw : SwitchId, p = sw.announcement ctx := by
  constructor
  · rintro ⟨msg, hmem, hp⟩
    simp only [allMessages, List.mem_cons, List.not_mem_nil, or_false] at hmem
    rcases hmem with rfl | rfl | rfl | rfl | rfl | rfl | rfl | rfl | rfl | rfl | rfl | rfl | rfl
    all_goals try cases hp
    · exact ⟨.sprinkler1, rfl⟩
    · exact ⟨.sprinkler2, rfl⟩
    · exact ⟨.waterControl, rfl⟩
  · rintro ⟨sw, rfl⟩
    refine ⟨ctx.switch { key := sw.key, name := sw.title }, ?_, rfl⟩
    cases sw <;> simp [allMessages, SwitchId.key, SwitchId.title]

/-! ## The subscriptions -/

namespace MqttIntegration

theorem subscriptions_onConnect (m : MqttIntegration) :
    m.onConnect.mqtt.subscriptions =
      m.mqtt.subscriptions ++ commandKeys.map (commandTopic m.app.config.mqtt.baseTopic) := rfl

/-- A connect subscribes to the topic of every switch. -/
theorem commandTopic_mem_onConnect (m : MqttIntegration) (sw : SwitchId) :
    commandTopic m.app.config.mqtt.baseTopic sw.key ∈ m.onConnect.mqtt.subscriptions := by
  rw [subscriptions_onConnect]
  exact List.mem_append_right _
    (List.mem_map_of_mem (SwitchId.mem_commandKeys.mpr ⟨sw, rfl⟩))

end MqttIntegration

/-- The parser accepts exactly its grammar.  The switches that are announced are those of the
device.  The parser reads the topic and the two payloads that a switch is announced with as
the two commands to that switch, and a connect under the same base topic subscribes to that
topic. -/
theorem command_routing :
    (∀ (baseTopic topic : String) (payload : Bytes) (cmd : SwitchCommand),
      parseCommand baseTopic topic payload = some cmd ↔
        ∃ (sw : SwitchId) (on : Bool), topic = commandTopic baseTopic sw.key ∧
          payload ∈ acceptedPayloads on ∧ cmd = sw.command on) ∧
    (∀ (ctx : DeviceContext) (p : SwitchPayload),
      (∃ msg ∈ allMessages ctx, msg.payload = .switch p) ↔
        ∃ sw : SwitchId, p = sw.announcement ctx) ∧
    ∀ (ctx : DeviceContext), ∀ msg ∈ allMessages ctx, ∀ p, msg.payload = .switch p →
      ∃ sw : SwitchId, p.uniqueId = ctx.uniqueId sw.key ∧
        parseCommand ctx.baseTopic p.commandTopic (asciiBytes p.payloadOn) =
          some (sw.command true) ∧
        parseCommand ctx.baseTopic p.commandTopic (asciiBytes p.payloadOff) =
          some (sw.command false) ∧
        ∀ m : MqttIntegration, m.context.baseTopic = ctx.baseTopic →
          p.commandTopic ∈ m.onConnect.mqtt.subscriptions := by
  refine ⟨fun _ _ _ _ => parseCommand_eq_some, fun _ _ => mem_allMessages_switch,
    fun ctx msg hmem p hp => ?_⟩
  obtain ⟨sw, rfl⟩ := mem_allMessages_switch.mp ⟨msg, hmem, hp⟩
  refine ⟨sw, rfl, parseCommand_commandTopic _ sw (onOff_mem_acceptedPayloads true),
    parseCommand_commandTopic _ sw (onOff_mem_acceptedPayloads false), fun m hm => ?_⟩
  show commandTopic ctx.baseTopic sw.key ∈ _
  rw [← hm]
  exact m.commandTopic_mem_onConnect sw

/-- A base topic may contain slashes. -/
theorem command_routing_slash :
    parseCommand "garden//" "garden///water_control/set" (asciiBytes "off") =
      some (.waterControl false) :=
  (command_routing.1 "garden//" _ _ _).mpr ⟨.waterControl, false, rfl, by decide, rfl⟩

end WaterController
