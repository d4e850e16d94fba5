import Mathlib.Tactic.Linarith
import WaterController.Core.Traits
import WaterController.Library.Machine
import WaterController.Library.Ring

/-!
# The wall clock of the no_std build

The clock is the uptime on top of the epoch at boot.  That is a constant of the build until
`sntp_task` gets a reply that it accepts, and from then on what the last such reply says.

The clock is as good as the reply: with a server that is right, it is at most a second ahead of
the wall, and behind it by the delay of the reply and two seconds (`clock_error`).  A reply has
the seconds in 32 bits, which run over in February 2036.  A server is believed exactly until then
(`reply_accepted_iff`).
-/

namespace WaterController

open Machines (Machine Transition)

namespace Sntp

/-! ## A reply -/

/-- `NTP_UNIX_OFFSET`. -/
def ntpUnixOffset : Nat := 2208988800

/-- `SANITY_MIN`, the start of 2025. -/
def sanityMin : Nat := 1735689600

/-- `BASE_EPOCH_S`. -/
def baseEpoch : Int := 1778803200

/-- `u32::from_be_bytes`, for any number of bytes. -/
def fromBeBytes (bytes : Bytes) : Nat := bytes.foldl (fun n b => n * 256 + b.toNat) 0

/-- What comes of the wait for a datagram, which takes five seconds at most. -/
inductive UdpRecv where
  | datagram (bytes : Bytes)
  | failed
  | timeout
deriving DecidableEq, Repr

/-- What the network does with a request. -/
structure SyncNet where
  /-- The addresses of the server, if it resolves. -/
  addrs : Option (List Bytes)
  bind : Bool
  send : Bool
  recv : UdpRecv
deriving DecidableEq, Repr

/-- The seconds of the transmit timestamp, since 1900. -/
def ntpSecs (resp : Bytes) : Nat := fromBeBytes ((resp.drop 40).take 4)

/-- The time in a datagram.  The buffer has room for 48 bytes, and a datagram that does not fit
is an error. -/
def replyTime (resp : Bytes) : Except String Nat :=
  if 48 < resp.length then .error "recv"
  else if resp.length < 48 then .error "short"
  else if ntpSecs resp < ntpUnixOffset then .error "pre-1970"
  else if ntpSecs resp - ntpUnixOffset < sanityMin then .error "insane"
  else .ok (ntpSecs resp - ntpUnixOffset)

/-- The datagrams that are accepted, and the time in them. -/
theorem replyTime_eq_ok {resp : Bytes} {unixNow : Nat} :
    replyTime resp = .ok unixNow ↔
      resp.length = 48 ∧ ntpSecs resp = ntpUnixOffset + unixNow ∧ sanityMin ≤ unixNow := by
  rw [replyTime]
  constructor
  · intro h
    split at h
    · cases h
    · split at h
      · cases h
      · split at h
        · cases h
        · split at h
          · cases h
          · rename_i hlong hshort hepoch hsane
            have htime : ntpSecs resp - ntpUnixOffset = unixNow := Except.ok.inj h
            exact ⟨by omega, by omega, by omega⟩
  · rintro ⟨hlength, hsecs, hsane⟩
    rw [if_neg (by omega), if_neg (by omega), if_neg (by omega), if_neg (by omega), hsecs,
      Nat.add_sub_cancel_left]

/-- `sync_once`. -/
def syncOnce (net : SyncNet) : Except String Nat :=
  match net.addrs with
  | none => .error "dns"
  | some addrs =>
      if addrs = [] then .error "dns empty"
      else if net.bind = false then .error "bind"
      else if net.send = false then .error "send"
      else
        match net.recv with
        | .failed => .error "recv"
        | .timeout => .error "timeout"
        | .datagram resp => replyTime resp

/-! ## The task and the clock -/

/-- `uptime_secs`. -/
def uptimeSecs (uptimeMs : Nat) : Nat := uptimeMs / 1000

/-- A round of the task, with the uptime behind the reply. -/
structure SyncRound where
  net : SyncNet
  uptimeMs : Nat
deriving DecidableEq, Repr

/-- The time a round accepts. -/
def SyncRound.accepts (r : SyncRound) : Option Nat :=
  match syncOnce r.net with
  | .ok unixNow => some unixNow
  | .error _ => none

/-- The epoch at boot, with zero for none, and the pause behind a round in seconds. -/
def machine : Machine Int SyncRound Nat where
  step epochAtBoot r :=
    match r.accepts with
    | some unixNow => ((unixNow : Int) - uptimeSecs r.uptimeMs, 6 * 60 * 60)
    | none => (epochAtBoot, 30)

/-- `EmbassyClock::now` in seconds. -/
def now (epochAtBoot : Int) (uptimeMs : Nat) : Int :=
  (if epochAtBoot ≠ 0 then epochAtBoot else baseEpoch) + uptimeSecs uptimeMs

/-- The last round that was accepted, with its time. -/
def lastAccepted (rounds : List SyncRound) : Option (Nat × Nat) :=
  (rounds.filterMap fun r => r.accepts.map fun unixNow => (unixNow, r.uptimeMs)).getLast?

theorem epochAtBoot_run (rounds : List SyncRound) :
    machine.run 0 rounds =
      match lastAccepted rounds with
      | some (unixNow, uptimeMs) => (unixNow : Int) - uptimeSecs uptimeMs
      | none => 0 := by
  induction rounds using List.reverseRecOn with
  | nil => rfl
  | append_singleton rounds r ih =>
      rw [Machine.run_append, lastAccepted, Ring.getLast?_filterMap_concat]
      show (machine.step (machine.run 0 rounds) r).1 = _
      simp only [machine]
      cases r.accepts with
      | some unixNow => rfl
      | none => exact ih

/-- The time of a request is the one in the reply. -/
theorem syncOnce_eq_ok {net : SyncNet} {unixNow : Nat} (h : syncOnce net = .ok unixNow) :
    ∃ resp, net.recv = .datagram resp ∧ replyTime resp = .ok unixNow := by
  rw [syncOnce] at h
  split at h
  · cases h
  · split_ifs at h
    split at h
    · cases h
    · cases h
    · rename_i resp hrecv
      exact ⟨resp, hrecv, h⟩

theorem sanityMin_le {r : SyncRound} {unixNow : Nat} (h : r.accepts = some unixNow) :
    sanityMin ≤ unixNow := by
  rw [SyncRound.accepts] at h
  split at h
  · rename_i unix hok
    cases h
    obtain ⟨resp, -, hreply⟩ := syncOnce_eq_ok hok
    exact (replyTime_eq_ok.mp hreply).2.2
  · cases h

/-! ## The clock of a run -/

/-- The clock goes on from the last reply that was accepted, and before the first one from the
constant of the build.  A device that was not up for 55 years when it got the reply does not take
it for none. -/
theorem now_run (rounds : List SyncRound) (uptimeMs : Nat)
    (hup : ∀ unixNow syncedMs, lastAccepted rounds = some (unixNow, syncedMs) →
      syncedMs < 1000 * sanityMin) :
    now (machine.run 0 rounds) uptimeMs =
      match lastAccepted rounds with
      | some (unixNow, syncedMs) => unixNow - uptimeSecs syncedMs + uptimeSecs uptimeMs
      | none => baseEpoch + uptimeSecs uptimeMs := by
  rw [epochAtBoot_run]
  cases hlast : lastAccepted rounds with
  | none => rfl
  | some last =>
      obtain ⟨unixNow, syncedMs⟩ := last
      obtain ⟨r, -, hr⟩ := List.mem_filterMap.mp (List.mem_of_getLast? hlast)
      obtain ⟨unix, hunix, hpair⟩ := Option.map_eq_some_iff.mp hr
      cases hpair
      have hle : sanityMin ≤ unixNow := sanityMin_le hunix
      have hms : r.uptimeMs < 1000 * sanityMin := hup _ _ hlast
      have hne : (unixNow : Int) - uptimeSecs r.uptimeMs ≠ 0 := by
        rw [uptimeSecs]
        omega
      show now ((unixNow : Int) - uptimeSecs r.uptimeMs) uptimeMs = _
      rw [now, if_pos hne]

/-- **The error of the clock.**  Let `wall` be the true time in milliseconds at each uptime.  The
last reply that was accepted came at the uptime `syncedMs`, from a server that was right `delay`
milliseconds before that.  Then the clock is ahead of the wall by less than a second, less the
delay and what the uptime has lost on the wall since, and behind it by less than two seconds more
than these. -/
theorem clock_error (wall : Nat → Int) (rounds : List SyncRound) {unixNow syncedMs : Nat}
    (hlast : lastAccepted rounds = some (unixNow, syncedMs)) (hup : syncedMs < 1000 * sanityMin)
    {delay : Int} (hserver : (unixNow : Int) = (wall syncedMs - delay) / 1000) (uptimeMs : Nat) :
    let lost := (wall uptimeMs - wall syncedMs) - ((uptimeMs : Int) - syncedMs)
    let error := 1000 * now (machine.run 0 rounds) uptimeMs - wall uptimeMs
    error < 1000 - delay - lost ∧ -2000 - delay - lost < error := by
  have hnow := now_run rounds uptimeMs fun unix synced h => by
    rw [hlast] at h
    cases h
    exact hup
  rw [hlast] at hnow
  simp only [uptimeSecs] at hnow
  have hm : (uptimeMs : Int) =
      1000 * ((uptimeMs / 1000 : Nat) : Int) + (uptimeMs % 1000 : Nat) := by
    omega
  intro lost error
  show _ - _ < 1000 - delay - (_ - _) ∧ -2000 - delay - (_ - _) < _ - _
  rw [hnow]
  omega

/-- A reply from 2026, two and a half seconds behind the boot. -/
def firstSync : SyncRound where
  net := {
    addrs := some [[162, 159, 200, 1]]
    bind := true
    send := true
    recv := .datagram (List.replicate 40 0 ++ [238, 83, 192, 128] ++ List.replicate 4 0) }
  uptimeMs := 2500

/-- With a reply that took 100 ms the clock is at most 900 ms ahead and 2.1 s behind. -/
theorem clock_error_first :
    let wall : Nat → Int := fun uptimeMs => 1789477373750 + uptimeMs
    let error := 1000 * now (machine.run 0 [firstSync]) 5000 - wall 5000
    error < 1000 - 100 - ((wall 5000 - wall 2500) - ((5000 : Nat) - (2500 : Nat))) ∧
      -2000 - 100 - ((wall 5000 - wall 2500) - ((5000 : Nat) - (2500 : Nat))) < error :=
  @clock_error (fun uptimeMs => 1789477373750 + uptimeMs) [firstSync] 1789477376 2500
    (by decide +kernel) (by decide) 100 (by decide +kernel) 5000

/-! ## Until when a server is believed -/

/-- The four bytes of a number, the highest first. -/
def toBe32 (n : Nat) : Bytes :=
  [UInt8.ofNat (n / 2 ^ 24), UInt8.ofNat (n / 2 ^ 16), UInt8.ofNat (n / 2 ^ 8), UInt8.ofNat n]

theorem fromBeBytes_toBe32 (n : Nat) : fromBeBytes (toBe32 n) = n % 2 ^ 32 := by
  simp only [fromBeBytes, toBe32, List.foldl_cons, List.foldl_nil, UInt8.toNat_ofNat']
  omega

/-- The reply of a server at a time, with whatever else it has. -/
def replyAt (unixTime : Nat) (header : Vector UInt8 40) (fraction : Vector UInt8 4) : Bytes :=
  header.toList ++ toBe32 (ntpUnixOffset + unixTime) ++ fraction.toList

theorem ntpSecs_replyAt (unixTime : Nat) (header : Vector UInt8 40) (fraction : Vector UInt8 4) :
    ntpSecs (replyAt unixTime header fraction) = (ntpUnixOffset + unixTime) % 2 ^ 32 := by
  rw [ntpSecs, replyAt, List.append_assoc,
    List.drop_left' (by rw [Vector.length_toList]),
    List.take_left' (show (toBe32 _).length = 4 from rfl), fromBeBytes_toBe32]

/-- **The end of the timestamps.**  The reply of a server that is right sets its time exactly from
the start of 2025 until the timestamps run over in February 2036.  From then on every reply is
refused, until in 2161 one sets a time that is 2 ^ 32 seconds behind. -/
theorem reply_accepted_iff (unixTime : Nat) (header : Vector UInt8 40)
    (fraction : Vector UInt8 4) :
    (replyTime (replyAt unixTime header fraction) = .ok unixTime ↔
      1735689600 ≤ unixTime ∧ unixTime < 2085978496) ∧
    (2085978496 ≤ unixTime → unixTime < 6030656896 →
      ∀ unixNow, replyTime (replyAt unixTime header fraction) ≠ .ok unixNow) := by
  have hlength : (replyAt unixTime header fraction).length = 48 := by
    simp [replyAt, toBe32]
  have hsecs := ntpSecs_replyAt unixTime header fraction
  constructor
  · rw [replyTime_eq_ok, hsecs]
    have hoffset : ntpUnixOffset = 2208988800 := rfl
    have hsanity : sanityMin = 1735689600 := rfl
    omega
  · intro hover hera unixNow h
    obtain ⟨-, htime, hsane⟩ := replyTime_eq_ok.mp h
    rw [hsecs] at htime
    have hoffset : ntpUnixOffset = 2208988800 := rfl
    have hsanity : sanityMin = 1735689600 := rfl
    omega

end Sntp

end WaterController
