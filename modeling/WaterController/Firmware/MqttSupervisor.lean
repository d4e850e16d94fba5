import WaterController.Core.Config
import WaterController.Core.State
import WaterController.Library.Backoff
import WaterController.Library.Machine
import WaterController.Library.Ring

/-!
# The supervisor of the broker connection

The task polls every five seconds.  While the device wants a broker and has none it attempts to
connect, with a back-off that is extended when an attempt comes to nothing and when there is no
memory for one, and that starts over with a session.

Two results say what a broker and a user see of it.  A poll makes an attempt exactly when one is
wanted, there is memory for it, and the wait behind the last attempt is over, so no attempt is
held back for more than the cap (`attempts_iff`).  And a broker that is never reached is asked
about once for each cap (`unreached_load`).
-/

namespace WaterController

open Machines (Machine Transition)

/-- `BACKOFF_INITIAL_MS` and `BACKOFF_MAX_MS`. -/
def mqttBackoff : Backoff := ⟨5000, 300000, by decide⟩

/-- What `EspMqtt::connect` is called with. -/
structure ConnectRequest where
  url : String
  username : Option String
  password : Option String
  clientId : String
  caCertPem : String
  clientCertPem : String
  clientKeyPem : String
deriving DecidableEq, Repr

/-- The calls a poll makes on the client and on the integration. -/
inductive MqttCall where
  | connect (request : ConnectRequest)
  | onConnect
  | publishState (snap : DeviceSnapshot)

/-- What one round of the loop reads, in the order in which it does. -/
structure MqttPoll where
  cfg : Config
  wifi : WifiState
  /-- The client is connected already. -/
  connected : Bool
  /-- The uptime in milliseconds. -/
  now : Nat
  largestInternal : Nat
  connectOk : Bool
  /-- The client is connected three seconds behind the attempt. -/
  settled : Bool
  /-- The client is connected in front of the session. -/
  stays : Bool
  /-- The snapshots of the session, one for each time its loop finds the client connected. -/
  snapshots : List DeviceSnapshot

/-- What came of a round. -/
inductive MqttEvent where
  /-- Nothing is wanted or due, or the connection that was there is gone. -/
  | idle
  /-- There is no memory for an attempt. -/
  | tight
  | refused (request : ConnectRequest)
  /-- The client was connected behind the attempt, and is not any more. -/
  | dropped (request : ConnectRequest)
  | session (request : Option ConnectRequest) (snapshots : List DeviceSnapshot)

structure MqttSupervisor where
  lastAttempt : Nat
  backoffMs : Nat
deriving DecidableEq, Repr

namespace MqttEvent

/-- The attempt of a round, if it made one. -/
def request : MqttEvent → Option ConnectRequest
  | idle | tight => none
  | refused request | dropped request => some request
  | session request _ => request

/-- The calls of a round, in order. -/
def calls : MqttEvent → List MqttCall
  | idle | tight => []
  | refused request | dropped request => [.connect request]
  | session request snapshots =>
      request.toList.map .connect ++ .onConnect :: snapshots.map .publishState

/-- The failures in a row behind a round. -/
def countFailure (failures : Nat) : MqttEvent → Nat
  | tight | refused _ => failures + 1
  | session _ _ => 0
  | idle | dropped _ => failures

end MqttEvent

namespace MqttPoll

/-- The device wants a broker, and has the station for it. -/
def Wanted (p : MqttPoll) : Prop :=
  p.cfg.mqtt.enabled = true ∧ p.cfg.mqtt.brokerUrl ≠ "" ∧ ∃ ssid ip, p.wifi = .connected ssid ip

instance (w : WifiState) : Decidable (∃ ssid ip, w = .connected ssid ip) :=
  match w with
  | .connected ssid ip => .isTrue ⟨ssid, ip, rfl⟩
  | .disconnected | .connecting _ | .apMode _ _ => .isFalse (by rintro ⟨_, _, h⟩; cases h)

instance (p : MqttPoll) : Decidable p.Wanted :=
  inferInstanceAs (Decidable (_ ∧ _ ∧ ∃ ssid ip, p.wifi = .connected ssid ip))

/-- A credential that is not empty. -/
def credential (s : String) : Option String := if s = "" then none else some s

def request (p : MqttPoll) : ConnectRequest where
  url := p.cfg.mqtt.brokerUrl
  username := credential p.cfg.mqtt.username
  password := credential p.cfg.mqtt.password
  clientId := p.cfg.wifi.hostname
  caCertPem := p.cfg.mqtt.caCertPem
  clientCertPem := p.cfg.mqtt.clientCertPem
  clientKeyPem := p.cfg.mqtt.clientKeyPem

/-- The client is not seen connected in this round. -/
def Unreached (p : MqttPoll) : Prop := p.connected = false ∧ p.settled = false

instance (p : MqttPoll) : Decidable p.Unreached := inferInstanceAs (Decidable (_ ∧ _))

end MqttPoll

namespace MqttSupervisor

def start : MqttSupervisor := ⟨0, mqttBackoff.initial⟩

/-- `backoff_ms = (backoff_ms * 2).min(BACKOFF_MAX_MS)`. -/
def extend (s : MqttSupervisor) : MqttSupervisor :=
  { s with backoffMs := mqttBackoff.double s.backoffMs }

/-- An attempt, with what comes of it. -/
def attempt (s : MqttSupervisor) (p : MqttPoll) : MqttSupervisor × MqttEvent :=
  let s := { s with lastAttempt := p.now }
  if p.connectOk = false ∨ p.settled = false then (s.extend, .refused p.request)
  else if p.stays then
    ({ s with backoffMs := mqttBackoff.initial }, .session (some p.request) p.snapshots)
  else (s, .dropped p.request)

/-- One round of the loop. -/
def round (s : MqttSupervisor) (p : MqttPoll) : MqttSupervisor × MqttEvent :=
  if ¬ p.Wanted then (s, .idle)
  else if p.connected then
    if p.stays then
      ({ s with backoffMs := mqttBackoff.initial }, .session none p.snapshots)
    else (s, .idle)
  else if p.now - s.lastAttempt < s.backoffMs then (s, .idle)
  else if p.largestInternal < 12 * 1024 then (s.extend, .tight)
  else s.attempt p

def machine : Machine MqttSupervisor MqttPoll MqttEvent where
  step s p := s.round p

/-! ## One round -/

section Round

variable (s : MqttSupervisor) (p : MqttPoll)

/-- An attempt is due. -/
def Due : Prop :=
  p.Wanted ∧ p.connected = false ∧ s.lastAttempt + s.backoffMs ≤ p.now ∧
    12 * 1024 ≤ p.largestInternal

instance : Decidable (s.Due p) := inferInstanceAs (Decidable (_ ∧ _ ∧ _ ∧ _))

theorem request_attempt : (s.attempt p).2.request = some p.request := by
  rw [attempt]
  split
  · rfl
  · split <;> rfl

theorem round_of_due (h : s.Due p) (hpos : 0 < s.backoffMs) : s.round p = s.attempt p := by
  obtain ⟨hwanted, hconnected, hwait, hmemory⟩ := h
  rw [round, if_neg (not_not_intro hwanted), if_neg (by rw [hconnected]; decide),
    if_neg (by omega), if_neg (by omega)]

/-- What a round does when no attempt is due. -/
theorem round_of_not_due (h : ¬ s.Due p) (hpos : 0 < s.backoffMs) :
    s.round p = (s, .idle) ∨ s.round p = (s.extend, .tight) ∨
      s.round p = ({ s with backoffMs := mqttBackoff.initial }, .session none p.snapshots) ∧
        p.connected = true := by
  rw [round]
  split
  · exact .inl rfl
  · rename_i hwanted
    split
    · rename_i hconnected
      split
      · exact .inr (.inr ⟨rfl, hconnected⟩)
      · exact .inl rfl
    · rename_i hconnected
      split
      · exact .inl rfl
      · rename_i hwait
        split
        · exact .inr (.inl rfl)
        · rename_i hmemory
          refine absurd ⟨not_not.mp hwanted, Bool.eq_false_iff.mpr hconnected, ?_, ?_⟩ h
          · omega
          · omega

/-- A round attempts to connect when an attempt is due, with what is configured now. -/
theorem request_round (hpos : 0 < s.backoffMs) :
    (s.round p).2.request = if s.Due p then some p.request else none := by
  split
  · rename_i hdue
    rw [s.round_of_due p hdue hpos, request_attempt]
  · rename_i hdue
    rcases s.round_of_not_due p hdue hpos with h | h | ⟨h, -⟩ <;> rw [h] <;> rfl

/-- The last attempt behind a round. -/
theorem lastAttempt_round (hpos : 0 < s.backoffMs) :
    (s.round p).1.lastAttempt = ((s.round p).2.request.map fun _ => p.now).getD s.lastAttempt := by
  by_cases hdue : s.Due p
  · rw [s.round_of_due p hdue hpos, request_attempt, attempt]
    split
    · rfl
    · split <;> rfl
  · rcases s.round_of_not_due p hdue hpos with h | h | ⟨h, -⟩ <;> rw [h] <;> rfl

/-- The wait behind a round is the one of the failures behind it. -/
theorem backoffMs_round {failures : Nat} (h : s.backoffMs = mqttBackoff.wait failures)
    (hpos : 0 < s.backoffMs) :
    (s.round p).1.backoffMs = mqttBackoff.wait ((s.round p).2.countFailure failures) := by
  have hextend : s.extend.backoffMs = mqttBackoff.wait (failures + 1) := by
    rw [extend, h, Backoff.wait_succ]
  by_cases hdue : s.Due p
  · rw [s.round_of_due p hdue hpos, attempt]
    split
    · exact hextend
    · split
      · rfl
      · exact h
  · rcases s.round_of_not_due p hdue hpos with hround | hround | ⟨hround, -⟩ <;> rw [hround]
    · exact h
    · exact hextend
    · rfl

end Round

/-! ## Runs -/

theorem wait_pos (failures : Nat) : 0 < mqttBackoff.wait failures :=
  Nat.lt_of_lt_of_le (by decide : 0 < mqttBackoff.initial) (mqttBackoff.initial_le_wait failures)

/-- The failures in a row behind a list of rounds. -/
def failures (events : List MqttEvent) : Nat := events.foldl MqttEvent.countFailure 0

/-- The time of an attempt, if the round made one. -/
def attemptTime (t : Transition MqttSupervisor MqttPoll MqttEvent) : Option Nat :=
  t.output.request.map fun _ => t.input.now

/-- The time of the last attempt, or the boot. -/
def lastAttemptTime (ts : List (Transition MqttSupervisor MqttPoll MqttEvent)) : Nat :=
  (ts.filterMap attemptTime).getLast?.getD 0

theorem lastAttemptTime_concat (ts : List (Transition MqttSupervisor MqttPoll MqttEvent))
    (t : Transition MqttSupervisor MqttPoll MqttEvent) :
    lastAttemptTime (ts ++ [t]) = (attemptTime t).getD (lastAttemptTime ts) := by
  rw [lastAttemptTime, Ring.getLast?_filterMap_concat]
  cases attemptTime t <;> rfl

/-- The state is the last attempt and the wait behind the failures. -/
def Follows (ts : List (Transition MqttSupervisor MqttPoll MqttEvent)) (s : MqttSupervisor) :
    Prop :=
  s.lastAttempt = lastAttemptTime ts ∧
    s.backoffMs = mqttBackoff.wait (failures (ts.map Transition.output))

theorem Follows.next {ts : List (Transition MqttSupervisor MqttPoll MqttEvent)}
    {s : MqttSupervisor} (h : Follows ts s) (p : MqttPoll) :
    Follows (ts ++ [machine.transition s p]) (machine.next s p) := by
  obtain ⟨hlast, hwait⟩ := h
  have hpos : 0 < s.backoffMs := hwait ▸ wait_pos _
  refine ⟨?_, ?_⟩
  · rw [lastAttemptTime_concat, ← hlast]
    exact s.lastAttempt_round p hpos
  · rw [List.map_append, failures, List.foldl_append]
    exact s.backoffMs_round p hwait hpos

theorem follows_run (polls : List MqttPoll) :
    Follows (machine.trace start polls) (machine.run start polls) :=
  machine.trace_history (J := Follows) (G := fun _ _ _ => True) (fun _ _ p _ h => h.next p)
    ⟨rfl, rfl⟩ fun _ _ _ _ => trivial

/-- **Attempts.**  In every run a round attempts to connect exactly when the device wants a
broker and has none, the wait behind the last attempt is over, and there is memory for it.  The
wait doubles with the failures in a row, and is never more than five minutes. -/
theorem attempts_iff (polls : List MqttPoll) (p : MqttPoll) :
    let past := machine.trace start polls
    let wait := min (5000 * 2 ^ failures (past.map Transition.output)) 300000
    (machine.out (machine.run start polls) p).request =
      if p.Wanted ∧ p.connected = false ∧ lastAttemptTime past + wait ≤ p.now ∧
        12 * 1024 ≤ p.largestInternal then some p.request else none := by
  intro past wait
  obtain ⟨hlast, hwait⟩ := follows_run polls
  have hpos : 0 < (machine.run start polls).backoffMs := hwait ▸ wait_pos _
  have hbackoff : (machine.run start polls).backoffMs = wait := by
    rw [hwait, Backoff.wait_eq]
    rfl
  show ((machine.run start polls).round p).2.request = _
  rw [request_round _ p hpos]
  simp only [Due, hlast, hbackoff]
  rfl

/-! ## A broker that is not reached -/

theorem round_unreached (s : MqttSupervisor) {p : MqttPoll} (h : p.Unreached)
    (hpos : 0 < s.backoffMs) :
    s.round p = (s, .idle) ∨ s.round p = (s.extend, .tight) ∨
      s.lastAttempt + s.backoffMs ≤ p.now ∧
        s.round p = ({ s with lastAttempt := p.now }.extend, .refused p.request) := by
  by_cases hdue : s.Due p
  · refine .inr (.inr ⟨hdue.2.2.1, ?_⟩)
    rw [s.round_of_due p hdue hpos, attempt, if_pos (.inr h.2)]
  · rcases s.round_of_not_due p hdue hpos with hround | hround | ⟨-, hconnected⟩
    · exact .inl hround
    · exact .inr (.inl hround)
    · exact absurd (hconnected.symm.trans h.1) nofun

/-- The attempts of a stretch keep to the back-off, and so will the next one. -/
def Spread (ts : List (Transition MqttSupervisor MqttPoll MqttEvent)) (s : MqttSupervisor) :
    Prop :=
  ∃ attempts : List (Nat × Nat), attempts.map Prod.fst = ts.filterMap attemptTime ∧
    mqttBackoff.Paced attempts ∧
    ∃ k, s.backoffMs = mqttBackoff.wait k ∧
      ∀ x ∈ attempts.getLast?, s.lastAttempt = x.1 ∧ x.2 < k

theorem Spread.next {ts : List (Transition MqttSupervisor MqttPoll MqttEvent)}
    {s : MqttSupervisor} (h : Spread ts s) {p : MqttPoll} (hp : p.Unreached) :
    Spread (ts ++ [machine.transition s p]) (machine.next s p) := by
  obtain ⟨attempts, htimes, hpaced, k, hwait, hlast⟩ := h
  have hextend : s.extend.backoffMs = mqttBackoff.wait (k + 1) := by
    rw [extend, hwait, Backoff.wait_succ]
  have hround := s.round_unreached hp (hwait ▸ wait_pos k)
  rw [Machine.transition, Machine.next, Machine.out]
  show Spread (ts ++ [⟨s, p, (s.round p).1, (s.round p).2⟩]) (s.round p).1
  rcases hround with hround | hround | ⟨hdue, hround⟩ <;> rw [hround]
  · exact ⟨attempts, by rw [List.filterMap_append, htimes]; exact (List.append_nil _).symm,
      hpaced, k, hwait, hlast⟩
  · refine ⟨attempts, by rw [List.filterMap_append, htimes]; exact (List.append_nil _).symm,
      hpaced, k + 1, hextend, fun x hx => ?_⟩
    obtain ⟨hsame, hless⟩ := hlast x hx
    exact ⟨hsame, Nat.lt_succ_of_lt hless⟩
  · -- an attempt joins, behind more failures than the last one
    refine ⟨attempts ++ [(p.now, k)], ?_, ?_, k + 1, hextend, ?_⟩
    · rw [List.filterMap_append, List.map_append, htimes]
      rfl
    · refine List.isChain_append.mpr ⟨hpaced, .singleton _, ?_⟩
      rintro x hx _ ⟨⟩
      obtain ⟨hsame, hless⟩ := hlast x hx
      exact ⟨hless, by rw [← hsame, ← hwait]; exact hdue⟩
    · rintro _ hx
      rw [List.getLast?_concat] at hx
      cases hx
      exact ⟨rfl, Nat.lt_succ_self k⟩

/-- **A broker that is not reached.**  Behind any run, in rounds that never see the client
connected, each further attempt takes five minutes, but for 1190 seconds that the short waits of
the first few leave out. -/
theorem unreached_load (polls : List MqttPoll) {stretch : List MqttPoll}
    (hunreached : ∀ p ∈ stretch, p.Unreached) {first last : Nat} {rest : List Nat}
    (htimes : (machine.trace (machine.run start polls) stretch).filterMap attemptTime =
      first :: rest) (hlast : (first :: rest).getLast? = some last) :
    rest.length * 300000 ≤ (last - first) + 1190000 := by
  obtain ⟨-, hwait⟩ := follows_run polls
  have hspread : Spread (machine.trace (machine.run start polls) stretch)
      (machine.run (machine.run start polls) stretch) := by
    refine machine.trace_history (G := fun _ _ p => p.Unreached) (fun _ _ p hp h => h.next hp)
      ⟨[], rfl, .nil, _, hwait, nofun⟩ fun pre t post hsplit => ?_
    exact hunreached _ (machine.input_mem_of_mem_trace (by rw [hsplit]; simp))
  obtain ⟨attempts, hfst, hpaced, -⟩ := hspread
  rw [htimes] at hfst
  cases attempts with
  | nil => cases hfst
  | cons x xs =>
      obtain ⟨rfl, rfl⟩ := List.cons.inj hfst
      obtain ⟨y, hy⟩ : ∃ y, (x :: xs).getLast? = some y :=
        ⟨_, List.getLast?_eq_some_getLast (List.cons_ne_nil x xs)⟩
      have hsame : y.1 = last := by
        have hmap : ((x :: xs).map Prod.fst).getLast? = some y.1 := by
          rw [List.getLast?_map, hy]
          rfl
        exact Option.some.inj (hmap.symm.trans hlast)
      have hspan := hpaced.add_total_le hy
      have hmono := mqttBackoff.total_mono (Nat.le_add_left 1 x.2) xs.length
      have hcap := @Backoff.mul_cap_le mqttBackoff 1 5 rfl xs.length
      have hslack : mqttBackoff.slack 1 5 = 1190000 := rfl
      have hcapEq : mqttBackoff.cap = 300000 := rfl
      rw [List.length_map]
      rw [hslack, hcapEq] at hcap
      omega

/-- A round that wants a broker and cannot connect. -/
def refusedAt (now : Nat) : MqttPoll where
  cfg := { Config.default {} with mqtt := { enabled := true, brokerUrl := "mqtt://broker" } }
  wifi := .connected "home" "10.0.0.2"
  connected := false
  now
  largestInternal := 65536
  connectOk := false
  settled := false
  stays := false
  snapshots := []

/-- Two attempts, ten seconds apart. -/
theorem unreached_load_two :
    [15000].length * 300000 ≤ (15000 - 5000) + 1190000 :=
  @unreached_load [] [refusedAt 5000, refusedAt 15000]
    (List.forall_mem_cons.mpr ⟨⟨rfl, rfl⟩, List.forall_mem_singleton.mpr ⟨rfl, rfl⟩⟩)
    5000 15000 [15000] rfl rfl

end MqttSupervisor

end WaterController
