import WaterController.Library.Script
import WaterController.Mqtt.Session

/-!
# The sessions of the no_std firmware

The no_std firmware has a task of its own for the broker.  It reads the configuration when
it has connected, and goes by that until the session ends.  It sends the announcements, the
status and the subscriptions first.  Only then it waits, for a message or for five seconds
without one, and publishes the state after these.

So a session sends its announcements and then one whole state after another, however far it
comes and whatever becomes of the configuration.  Every switch whose state is published takes
commands under the same base topic, and was announced (`in_step`).

The announcements give a text for a device that is not there.  Neither firmware publishes it
(`never_offline`).
-/

namespace WaterController

open Machines (Machine)
open MqttIntegration (stateTopic onOff switchMessage)

namespace Nostd

/-! ## What a session sends -/

inductive MqttAction where
  | publish (p : Publication)
  | subscribe (topic : String)
deriving DecidableEq

/-- A session: the configuration it was started with, and what it sends. -/
structure MqttSession where
  cfg : Config
  script : Script MqttAction

namespace MqttSession

def context (cfg : Config) : DeviceContext where
  baseTopic := cfg.mqtt.baseTopic
  discoveryPrefix := cfg.mqtt.haDiscoveryPrefix
  deviceId := cfg.wifi.hostname
  friendlyName := "Doremorwater"
  swVersion := "wc-nostd"
  manufacturer := "homebrew"
  model := "watercontroller"

def announce (msg : DiscoveryMsg) : Publication := ⟨msg.topic, .discovery msg.payload, retained⟩

/-- What is sent before anything else. -/
def onConnect (cfg : Config) : List MqttAction :=
  (allMessages (context cfg)).map (fun msg => .publish (announce msg)) ++
  [.publish ⟨cfg.mqtt.baseTopic ++ "/status", .text "online", retained⟩] ++
  commandKeys.map fun key => .subscribe ((context cfg).switchCommandTopic key)

/-- A number in a buffer of 16 bytes, which stays empty where it does not fit. -/
def uptimeText (secs : Nat) : String :=
  if (toString secs).utf8ByteSize ≤ 16 then toString secs else ""

/-- The messages of one publish of the state. -/
def stateMessages (ctx : DeviceContext) (snap : DeviceSnapshot) : List Publication :=
  [⟨ctx.sensorStateTopic "uptime", .text (uptimeText (snap.uptimeMs / 1000)), retained⟩,
    switchMessage ctx "sprinkler_1" snap.switches.sprinkler1,
    switchMessage ctx "sprinkler_2" snap.switches.sprinkler2,
    switchMessage ctx "water_control"
      (snap.switches.waterControl = .on || snap.switches.waterControl = .transitioning),
    ⟨ctx.sensorStateTopic "flow_alarm", .text (onOff snap.alarm.active), retained⟩]

def publishState (cfg : Config) (snap : DeviceSnapshot) : List MqttAction :=
  (stateMessages (context cfg) snap).map .publish

def start (cfg : Config) : MqttSession := ⟨cfg, .start (onConnect cfg)⟩

end MqttSession

/-! ## The task -/

/-- The device with its task for the broker. -/
structure MqttTask where
  app : App
  /-- `MQTT_UP`. -/
  mqttUp : Bool
  session : Option MqttSession

inductive MqttStep where
  /-- The broker is called, and answers or not. -/
  | connect (ok : Bool)
  /-- What is next is sent, or that fails. -/
  | send (ok : Bool)
  /-- Five seconds without a message. -/
  | quiet
  /-- A message comes in, or reading fails. -/
  | receive (env : Env) (msg : Option (String × Bytes))
  /-- A call of another task. -/
  | call (c : Call)

namespace MqttTask

def boot (app : App) : MqttTask := ⟨app, false, none⟩

/-- An error ends the session. -/
def drop (m : MqttTask) : MqttTask := { m with mqttUp := false, session := none }

def connect (m : MqttTask) (ok : Bool) : MqttTask :=
  match m.session with
  | none => if ok then { m with mqttUp := true, session := some (.start m.app.config) } else m
  | some _ => m

/-- Send what is next.  It gives what was sent. -/
def send (m : MqttTask) (ok : Bool) : MqttTask × Option MqttAction :=
  match m.session with
  | none => (m, none)
  | some s =>
      match s.script.pending with
      | [] => (m, none)
      | action :: _ =>
          if ok then ({ m with session := some { s with script := s.script.advance } }, some action)
          else (m.drop, none)

/-- Publish the state, if nothing else is to be sent. -/
def quiet (m : MqttTask) : MqttTask :=
  match m.session with
  | none => m
  | some s =>
      let batch := MqttSession.publishState s.cfg m.app.state
      { m with session := some { s with script := s.script.load batch } }

/-- Take a message, if nothing is to be sent. -/
def receive (m : MqttTask) (env : Env) (msg : Option (String × Bytes)) : MqttTask :=
  match m.session with
  | none => m
  | some s =>
      match s.script.pending, msg with
      | _ :: _, _ => m
      | [], none => m.drop
      | [], some (topic, payload) =>
          match parseCommand s.cfg.mqtt.baseTopic topic payload with
          | some cmd => { m with app := (m.app.switchCommand env cmd).1 }
          | none => m

end MqttTask

/-- The task for the broker and the calls of the other tasks.  A step puts out what it
sent. -/
def mqttMachine (serde : Serde (List AlarmEvent)) : Machine MqttTask MqttStep (Option MqttAction)
    where
  step m
    | .connect ok => (m.connect ok, none)
    | .send ok => m.send ok
    | .quiet => (m.quiet, none)
    | .receive env msg => (m.receive env msg, none)
    | .call c => ({ m with app := (appMachine serde).next m.app c }, none)

/-! ## The script of a session -/

namespace MqttSession

/-- What a session sends are the actions of a connect, with publishes of a state behind
them. -/
def Follows (s : MqttSession) : Prop :=
  s.script.Follows (onConnect s.cfg) fun batch => ∃ snap, batch = publishState s.cfg snap

theorem follows_start (cfg : Config) : (start cfg).Follows := Script.follows_start _ _

end MqttSession

namespace MqttTask

/-- The session that is open, if any, follows its script. -/
def Follows (m : MqttTask) : Prop := ∀ s ∈ m.session, s.Follows

theorem follows_of_none {m : MqttTask} (h : m.session = none) : m.Follows := by
  intro s hs
  rw [h] at hs
  cases hs

theorem Follows.connect {m : MqttTask} (h : m.Follows) (ok : Bool) : (m.connect ok).Follows := by
  rw [MqttTask.connect]
  split
  · split
    · rintro _ ⟨⟩
      exact MqttSession.follows_start m.app.config
    · exact h
  · exact h

theorem Follows.send {m : MqttTask} (h : m.Follows) (ok : Bool) : (m.send ok).1.Follows := by
  rw [MqttTask.send]
  split
  · exact h
  · rename_i s hs
    split
    · exact h
    · split
      · rintro _ ⟨⟩
        exact (h s hs).advance
      · exact follows_of_none rfl

theorem Follows.quiet {m : MqttTask} (h : m.Follows) : m.quiet.Follows := by
  rw [MqttTask.quiet]
  split
  · exact h
  · rename_i s hs
    rintro _ ⟨⟩
    exact (h s hs).load ⟨m.app.state, rfl⟩

theorem Follows.receive {m : MqttTask} (h : m.Follows) (env : Env)
    (msg : Option (String × Bytes)) : (m.receive env msg).Follows := by
  rw [MqttTask.receive]
  split
  · exact h
  · split
    · exact h
    · exact follows_of_none rfl
    · split
      · exact h
      · exact h

theorem Follows.next {m : MqttTask} (h : m.Follows) (serde : Serde (List AlarmEvent))
    (step : MqttStep) : ((mqttMachine serde).next m step).Follows := by
  cases step with
  | connect ok => exact h.connect ok
  | send ok => exact h.send ok
  | quiet => exact h.quiet
  | receive env msg => exact h.receive env msg
  | call c => exact h

/-- In every state of a run the session follows its script. -/
theorem follows_run (serde : Serde (List AlarmEvent)) (app : App) (steps : List MqttStep) :
    ((mqttMachine serde).run (boot app) steps).Follows :=
  (mqttMachine serde).run_invariant (G := fun _ _ => True) (fun _ step _ h => h.next serde step)
    (follows_of_none rfl) fun _ _ => trivial

end MqttTask

/-! ## Topics by their ends -/

/-- A text ends as what it ends with does. -/
theorem getLast?_toList_append (s : String) {t : String} (h : t.toList ≠ []) :
    (s ++ t).toList.getLast? = t.toList.getLast? := by
  rw [String.toList_append, List.getLast?_append_of_ne_nil _ h]

theorem getLast?_stateTopic (baseTopic key : String) :
    (stateTopic baseTopic key).toList.getLast? = some 'e' :=
  getLast?_toList_append _ (by decide)

theorem getLast?_status (baseTopic : String) :
    (baseTopic ++ "/status").toList.getLast? = some 's' :=
  getLast?_toList_append _ (by decide)

theorem getLast?_announcement {ctx : DeviceContext} {msg : DiscoveryMsg}
    (h : msg ∈ allMessages ctx) : msg.topic.toList.getLast? = some 'g' := by
  simp only [allMessages, List.mem_cons, List.not_mem_nil, or_false] at h
  rcases h with rfl | rfl | rfl | rfl | rfl | rfl | rfl | rfl | rfl | rfl | rfl | rfl | rfl
  all_goals exact getLast?_toList_append _ (by decide)

/-! ## In step -/

namespace MqttSession

/-- The keys of the entities whose state is published. -/
def publishedKeys : List String :=
  ["uptime", "sprinkler_1", "sprinkler_2", "water_control", "flow_alarm"]

theorem topic_of_mem_publishState {cfg : Config} {snap : DeviceSnapshot} {p : Publication}
    (h : .publish p ∈ publishState cfg snap) :
    ∃ key ∈ publishedKeys, p.topic = stateTopic cfg.mqtt.baseTopic key := by
  obtain ⟨p', hp', hp⟩ := List.mem_map.mp h
  obtain rfl := MqttAction.publish.inj hp
  simp only [stateMessages, List.mem_cons, List.not_mem_nil, or_false] at hp'
  rcases hp' with rfl | rfl | rfl | rfl | rfl
  all_goals exact ⟨_, by simp [publishedKeys], rfl⟩

/-- A connect publishes announcements and the status. -/
theorem publish_mem_onConnect {cfg : Config} {p : Publication} (h : .publish p ∈ onConnect cfg) :
    (∃ msg ∈ allMessages (context cfg), p = announce msg) ∨
      p = ⟨cfg.mqtt.baseTopic ++ "/status", .text "online", retained⟩ := by
  rw [onConnect, List.append_assoc, List.mem_append, List.mem_append, List.mem_map, List.mem_map]
    at h
  rcases h with ⟨msg, hmsg, hp⟩ | honline | ⟨key, -, hkey⟩
  · exact .inl ⟨msg, hmsg, (MqttAction.publish.inj hp).symm⟩
  · exact .inr (MqttAction.publish.inj (List.mem_singleton.mp honline))
  · cases hkey

/-- A connect publishes no state. -/
theorem stateTopic_notMem_onConnect {cfg : Config} {p : Publication} {baseTopic key : String}
    (htopic : p.topic = stateTopic baseTopic key) : .publish p ∉ onConnect cfg := by
  intro hmem
  have hlast := getLast?_stateTopic baseTopic key
  rw [← htopic] at hlast
  rcases publish_mem_onConnect hmem with ⟨msg, hmsg, rfl⟩ | rfl
  · rw [announce, getLast?_announcement hmsg] at hlast
    cases hlast
  · rw [getLast?_status] at hlast
    cases hlast

/-- The keys of the entities that are announced. -/
def announcedKeys : List String :=
  ["battery", "pressure", "water_flow", "water_total", "loop_time", "wifi_rssi", "free_heap",
    "uptime", "reset_reason", "sprinkler_1", "sprinkler_2", "water_control", "flow_alarm"]

/-- The topic that an announcement gives for the state. -/
def announcedTopic (msg : DiscoveryMsg) : String :=
  match msg.payload with
  | .sensor p => p.stateTopic
  | .switch p => p.stateTopic
  | .binarySensor p => p.stateTopic

theorem map_announcedTopic (ctx : DeviceContext) :
    (allMessages ctx).map announcedTopic = announcedKeys.map (stateTopic ctx.baseTopic) := rfl

/-- The entities whose state is published are announced. -/
theorem publishedKeys_subset : publishedKeys ⊆ announcedKeys := by decide

theorem slash_notMem_publishedKeys : ∀ key ∈ publishedKeys, '/' ∉ key.toList := by decide

def Publishes (s : MqttSession) (topic : String) : Prop :=
  ∃ p, .publish p ∈ s.script.sent ∧ p.topic = topic

/-- The command topic of a switch under a base topic is subscribed, and the commands that
come in on it reach the switch. -/
structure Commanded (s : MqttSession) (baseTopic : String) (sw : SwitchId) : Prop where
  subscribed : .subscribe (commandTopic baseTopic sw.key) ∈ s.script.sent
  routed : ∀ on, ∀ payload ∈ acceptedPayloads on,
    parseCommand s.cfg.mqtt.baseTopic (commandTopic baseTopic sw.key) payload =
      some (sw.command on)

/-- The announcement of a state topic was sent. -/
def Announced (s : MqttSession) (topic : String) : Prop :=
  ∃ msg ∈ allMessages (context s.cfg), announcedTopic msg = topic ∧
    .publish (announce msg) ∈ s.script.sent

/-- Each state that a session publishes is one of the five, under the base topic it
was started with, and it was announced.  The state of a switch takes commands. -/
structure InStep (s : MqttSession) : Prop where
  announced : ∀ baseTopic key, '/' ∉ key.toList → s.Publishes (stateTopic baseTopic key) →
    baseTopic = s.cfg.mqtt.baseTopic ∧ key ∈ publishedKeys ∧
      s.Announced (stateTopic baseTopic key)
  commanded : ∀ baseTopic (sw : SwitchId), s.Publishes (stateTopic baseTopic sw.key) →
    s.Commanded baseTopic sw

/-- A state that is published is of a batch, and so behind the actions of the connect. -/
theorem Follows.of_publishes {s : MqttSession} (h : s.Follows) {baseTopic key : String}
    (hkey : '/' ∉ key.toList) (hpub : s.Publishes (stateTopic baseTopic key)) :
    baseTopic = s.cfg.mqtt.baseTopic ∧ key ∈ publishedKeys ∧ onConnect s.cfg <+: s.script.sent := by
  obtain ⟨p, hsent, htopic⟩ := hpub
  have hnew : .publish p ∉ onConnect s.cfg := stateTopic_notMem_onConnect htopic
  rcases h.mem (List.mem_append_left _ hsent) with hpro | ⟨_, ⟨snap, rfl⟩, hbatch⟩
  · exact absurd hpro hnew
  · obtain ⟨key', hkey', htopic'⟩ := topic_of_mem_publishState hbatch
    obtain ⟨rfl, rfl⟩ :=
      topic_inj hkey (slash_notMem_publishedKeys key' hkey') (htopic.symm.trans htopic')
    exact ⟨rfl, hkey', h.prologue_sent hsent hnew⟩

/-- What was sent is a part of the script, from its start on. -/
theorem Follows.sent_upto {s : MqttSession} (h : s.Follows) :
    ∃ snaps : List DeviceSnapshot,
      s.script.sent <+: onConnect s.cfg ++ snaps.flatMap (publishState s.cfg) := by
  obtain ⟨batches, hbatches, hsplit⟩ := h
  have hsnaps : ∃ snaps : List DeviceSnapshot, batches = snaps.map (publishState s.cfg) := by
    clear hsplit
    induction batches with
    | nil => exact ⟨[], rfl⟩
    | cons batch batches ih =>
        obtain ⟨⟨snap, rfl⟩, hrest⟩ := List.forall_mem_cons.mp hbatches
        obtain ⟨snaps, rfl⟩ := ih hrest
        exact ⟨snap :: snaps, rfl⟩
  obtain ⟨snaps, rfl⟩ := hsnaps
  exact ⟨snaps, s.script.pending, hsplit⟩

/-- What follows its script is in step. -/
theorem Follows.inStep {s : MqttSession} (h : s.Follows) : s.InStep := by
  constructor
  · intro baseTopic key hkey hpub
    obtain ⟨rfl, hmem, hsent⟩ := h.of_publishes hkey hpub
    refine ⟨rfl, hmem, ?_⟩
    have htopic : stateTopic s.cfg.mqtt.baseTopic key ∈
        (allMessages (context s.cfg)).map announcedTopic := by
      rw [map_announcedTopic]
      exact List.mem_map_of_mem (publishedKeys_subset hmem)
    obtain ⟨msg, hmsg, hannounced⟩ := List.mem_map.mp htopic
    refine ⟨msg, hmsg, hannounced, hsent.subset ?_⟩
    rw [onConnect, List.append_assoc]
    exact List.mem_append_left _ (List.mem_map_of_mem hmsg)
  · intro baseTopic sw hpub
    obtain ⟨rfl, -, hsent⟩ := h.of_publishes sw.slash_notMem_key hpub
    refine ⟨hsent.subset ?_, fun on payload hp => parseCommand_commandTopic _ sw hp⟩
    rw [onConnect]
    exact List.mem_append_right _
      (List.mem_map_of_mem (SwitchId.mem_commandKeys.mpr ⟨sw, rfl⟩))

end MqttSession

namespace MqttTask

/-- **Sessions.**  In every run of the no_std firmware, whatever becomes of the configuration, what
the open session has sent are the actions of its connect and one state after another behind them,
up to some point, and it is in step. -/
theorem in_step (serde : Serde (List AlarmEvent)) (app : App) (steps : List MqttStep) :
    ∀ s ∈ ((mqttMachine serde).run (boot app) steps).session,
      (∃ snaps : List DeviceSnapshot, s.script.sent <+: MqttSession.onConnect s.cfg ++
        snaps.flatMap (MqttSession.publishState s.cfg)) ∧ s.InStep :=
  fun s hs => ⟨(follows_run serde app steps s hs).sent_upto,
    (follows_run serde app steps s hs).inStep⟩

/-- A session that has sent its seventeen actions, and the first message of a state. -/
theorem in_step_first_message :
    let m := (mqttMachine (.fails _)).run (boot (.new (.fails _) (.default {})))
      (.connect true :: List.replicate 17 (.send true) ++ [.quiet, .send true])
    ∃ s ∈ m.session, s.script.sent.length = 18 ∧
      (∃ snaps : List DeviceSnapshot, s.script.sent <+: MqttSession.onConnect s.cfg ++
        snaps.flatMap (MqttSession.publishState s.cfg)) ∧ s.InStep := by
  intro m
  have hlength : m.session.map (fun s => s.script.sent.length) = some 18 := by decide +kernel
  obtain ⟨s, hs, hsent⟩ := Option.map_eq_some_iff.mp hlength
  exact ⟨s, hs, hsent, in_step (.fails _) (.new (.fails _) (.default {})) _ s hs⟩

end MqttTask

end Nostd

/-! ## The status of the device -/

/-- A message on the topic of a status has a device that is there. -/
def SaysOnline (p : Publication) : Prop :=
  ∀ baseTopic, p.topic = baseTopic ++ "/status" → p.payload = .text "online"

/-- A message on another topic. -/
theorem saysOnline_of_getLast? {p : Publication} {c : Char} (hc : c ≠ 's')
    (h : p.topic.toList.getLast? = some c) : SaysOnline p := by
  intro baseTopic htopic
  rw [htopic, Nostd.getLast?_status] at h
  exact absurd (Option.some.inj h).symm hc

theorem saysOnline_announcement {ctx : DeviceContext} {msg : DiscoveryMsg}
    (h : msg ∈ allMessages ctx) : SaysOnline ⟨msg.topic, .discovery msg.payload, retained⟩ :=
  saysOnline_of_getLast? (by decide) (Nostd.getLast?_announcement h)

theorem saysOnline_of_stateTopic {p : Publication} {baseTopic key : String}
    (h : p.topic = stateTopic baseTopic key) : SaysOnline p := by
  refine saysOnline_of_getLast? (c := 'e') (by decide) ?_
  rw [h]
  exact Nostd.getLast?_stateTopic baseTopic key

namespace Nostd

/-- What a session of the no_std firmware publishes says so. -/
theorem MqttSession.Follows.saysOnline {s : MqttSession} (h : s.Follows) {p : Publication}
    (hp : .publish p ∈ s.script.sent ++ s.script.pending) : SaysOnline p := by
  rcases h.mem hp with hpro | ⟨_, ⟨snap, rfl⟩, hbatch⟩
  · rcases MqttSession.publish_mem_onConnect hpro with ⟨msg, hmsg, rfl⟩ | rfl
    · exact saysOnline_announcement hmsg
    · exact fun _ _ => rfl
  · obtain ⟨key, -, htopic⟩ := MqttSession.topic_of_mem_publishState hbatch
    exact saysOnline_of_stateTopic htopic

/-- What is put out is what the open session had to send next. -/
theorem mem_pending_of_out {serde : Serde (List AlarmEvent)} {m : MqttTask} {step : MqttStep}
    {action : MqttAction} (h : (mqttMachine serde).out m step = some action) :
    ∃ s ∈ m.session, action ∈ s.script.pending := by
  cases step with
  | connect | quiet | receive | call => cases h
  | send ok =>
      rw [show (mqttMachine serde).out m (.send ok) = (m.send ok).2 from rfl, MqttTask.send] at h
      split at h
      · cases h
      · rename_i s hs
        split at h
        · cases h
        · rename_i next rest hpending
          split at h
          · cases h
            refine ⟨s, hs, ?_⟩
            rw [hpending]
            exact List.mem_cons_self
          · cases h

/-- The no_std firmware says nothing else on the topic of its status. -/
theorem emitted_saysOnline (serde : Serde (List AlarmEvent)) (app : App) (steps : List MqttStep)
    {p : Publication} (hp : .publish p ∈ (mqttMachine serde).emitted (.boot app) steps) :
    SaysOnline p := by
  refine ((mqttMachine serde).emitted_history
    (J := fun out m => m.Follows ∧ ∀ p, .publish p ∈ out → SaysOnline p) ?_
    ⟨MqttTask.follows_of_none rfl, fun _ h => by cases h⟩ steps).2 p hp
  rintro out m step ⟨hfollows, hout⟩
  refine ⟨hfollows.next serde step, fun p hp => ?_⟩
  rcases List.mem_append.mp hp with hold | hnew
  · exact hout p hold
  · obtain ⟨s, hs, hpending⟩ := mem_pending_of_out (Option.mem_toList.mp hnew)
    exact (hfollows s hs).saysOnline (List.mem_append_right _ hpending)

end Nostd

namespace MqttIntegration

/-- An integration that has not connected yet. -/
def idle (app : App) (firmwareVersion : String) : MqttIntegration :=
  ⟨app, ⟨[], [], none⟩, firmwareVersion⟩

/-- All that was published says so. -/
def OnlineOnly (m : MqttIntegration) : Prop := ∀ p ∈ m.mqtt.published, SaysOnline p

theorem OnlineOnly.publish {m : MqttIntegration} (h : m.OnlineOnly) {messages : List Publication}
    (hmessages : ∀ p ∈ messages, SaysOnline p) : (m.publish messages).OnlineOnly := by
  intro p hp
  rcases List.mem_append.mp hp with hold | hnew
  · exact h p hold
  · exact hmessages p hnew

theorem OnlineOnly.onConnect {m : MqttIntegration} (h : m.OnlineOnly) : m.onConnect.OnlineOnly := by
  refine OnlineOnly.publish (OnlineOnly.publish h ?_) ?_
  · intro p hp
    obtain ⟨msg, hmsg, rfl⟩ := List.mem_map.mp hp
    exact saysOnline_announcement hmsg
  · intro p hp
    rw [List.mem_singleton.mp hp]
    exact fun _ _ => rfl

theorem OnlineOnly.next {m : MqttIntegration} (h : m.OnlineOnly) (ev : SessionEvent) :
    (sessionMachine.next m ev).OnlineOnly := by
  cases ev with
  | replaceConfig env cfg => exact h
  | publishState snap =>
      refine h.publish fun p hp => ?_
      obtain ⟨key, -, htopic⟩ := topic_of_mem_stateMessages hp
      exact saysOnline_of_stateTopic htopic
  | incoming env topic payload =>
      show (m.deliver env topic payload).OnlineOnly
      rw [deliver]
      cases m.routes topic payload with
      | none => exact h
      | some cmd => exact h

/-- One session after another. -/
def sessions (m : MqttIntegration) (events : List (List SessionEvent)) : MqttIntegration :=
  events.foldl (fun m session => sessionMachine.run m.onConnect session) m

theorem OnlineOnly.sessions {m : MqttIntegration} (h : m.OnlineOnly)
    (events : List (List SessionEvent)) : (m.sessions events).OnlineOnly := by
  induction events generalizing m with
  | nil => exact h
  | cons session events ih =>
      exact ih (sessionMachine.run_invariant (G := fun _ _ => True) (fun _ ev _ h => h.next ev)
        h.onConnect fun _ _ => trivial)

end MqttIntegration

/-- **Status.**  Neither firmware ever publishes that it is not there: over any sessions,
whatever they publish on a topic of a status is that the device is online. -/
theorem never_offline (serde : Serde (List AlarmEvent)) (app : App)
    (events : List (List MqttIntegration.SessionEvent)) (firmwareVersion : String)
    (steps : List Nostd.MqttStep) :
    (∀ p ∈ ((MqttIntegration.idle app firmwareVersion).sessions events).mqtt.published,
        SaysOnline p) ∧
    ∀ p, .publish p ∈ (Nostd.mqttMachine serde).emitted (.boot app) steps → SaysOnline p :=
  ⟨MqttIntegration.OnlineOnly.sessions (fun _ h => by cases h) events,
    fun _ => Nostd.emitted_saysOnline serde app steps⟩

end WaterController
