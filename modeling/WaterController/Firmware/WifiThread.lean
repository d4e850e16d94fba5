import WaterController.Firmware.WifiRace
import WaterController.Library.Streak

/-!
# The thread of the WiFi supervisor

`loopMachine` has the supervisor's loop as far as its locks go.  Here the thread has the
radio too: it tries the networks one after another, waits for an address, watches the link
while it is associated, and is an access point where it has no network.  It publishes what
it does, and other tasks act on that: the slot of an update is marked valid, the broker is
called, and names are redirected.

* Seen through its locks, the thread is `loopMachine` (`proj_run`).  So an access point
  stays one only while no network is configured (`waits_without_networks`).
* The watch of the link lets go at the third probe in a row that fails (`watched_iff`).
* What is published is what the thread does, but for an access point that does not start:
  then the last thing published stays (`accurate_iff`).

The thread also stops the driver where it was started before it configures it.  It goes on
whatever comes of that, so the model leaves it out.
-/

namespace WaterController

open Machines (Machine)

/-! ## What the radio answers -/

structure Ipv4 where
  a : UInt8
  b : UInt8
  c : UInt8
  d : UInt8
deriving DecidableEq, Repr

def Ipv4.unspecified : Ipv4 := ⟨0, 0, 0, 0⟩

def Ipv4.toText (ip : Ipv4) : String :=
  toString ip.a.toNat ++ "." ++ toString ip.b.toNat ++ "." ++ toString ip.c.toNat ++ "." ++
    toString ip.d.toNat

/-- Whether the driver takes a configuration, and starts. -/
structure StartReplies where
  setConfiguration : Bool
  start : Bool

/-- How an attempt to associate goes.  The link is looked at every second, and the address
twice a second from when it is up. -/
structure StaReplies extends StartReplies where
  connect : Bool
  isConnected : Nat → Bool
  ipInfo : Nat → Option Ipv4
  /-- The address when the association is announced. -/
  announced : Option Ipv4

inductive ErrorKind where
  | connectionRefused
  | timedOut
  | networkUnreachable
  | hostUnreachable
  | other
deriving DecidableEq, Repr

/-- How a probe of the link goes. -/
structure ProbeReplies where
  apInfo : Bool
  gateway : Option Ipv4
  tcp : Except ErrorKind Unit

/-- Everything the radio may be asked in one step. -/
structure RadioReplies where
  sta : StaReplies
  ap : StartReplies
  isConnected : Bool
  probe : ProbeReplies

/-! ## Attempts -/

/-- The text fits into the driver's buffers. -/
def fitsBuffer (capacity : Nat) (s : String) : Bool := s.utf8ByteSize ≤ capacity

/-- Wait for the link, and then for an address. -/
def waitForIp (secs : Nat) (r : StaReplies) : Bool :=
  (List.range secs).any r.isConnected &&
    (List.range 10).any fun i => (r.ipInfo i).any fun ip => ip != .unspecified

def tryConnectSta (r : StaReplies) (creds : WifiCreds) : Bool :=
  fitsBuffer 32 creds.ssid && fitsBuffer 64 creds.password && r.setConfiguration && r.start &&
    r.connect && waitForIp 12 r

def ipString (info : Option Ipv4) : String := (info.map Ipv4.toText).getD "0.0.0.0"

/-- The access point as the supervisor was given it. -/
structure ApCreds where
  apSsid : String
  apPassword : String

def startAp (ap : ApCreds) (r : StartReplies) : Bool :=
  fitsBuffer 32 ap.apSsid && fitsBuffer 64 ap.apPassword && r.setConfiguration && r.start

/-! ## The watch of the link -/

/-- Any answer of the gateway counts. -/
def gatewayReachable (r : ProbeReplies) : Bool :=
  match r.gateway with
  | none => true
  | some gateway =>
      if gateway = .unspecified then true
      else
        match r.tcp with
        | .ok () => true
        | .error .connectionRefused => true
        | .error _ => false

/-- The association is there, and so is the gateway. -/
def ProbeReplies.alive (r : ProbeReplies) : Bool := r.apInfo && gatewayReachable r

/-- What the loop of an association counts. -/
structure LinkWatch where
  probeFails : Nat
  ticks : Nat
deriving DecidableEq, Repr

/-- One round of the loop of an association: what it finds. -/
structure LinkRound where
  isConnected : Bool
  beaconTimeout : Bool
  rescanSignal : Bool
  probe : ProbeReplies

namespace LinkWatch

def start : LinkWatch := ⟨0, 0⟩

/-- `probe_link`: the failures so far, and nothing when the loop is to be left. -/
def probeLink (probeFails : Nat) (r : ProbeReplies) : Option Nat :=
  if r.alive then some 0
  else
    let n := probeFails + 1
    if n ≥ 3 then none else some n

/-- A round that finds the link up, and nothing that asks for another. -/
def undisturbed (r : LinkRound) : Bool := r.isConnected && !r.beaconTimeout && !r.rescanSignal

/-- A round, and nothing when the loop is left. -/
def round (watch : LinkWatch) (r : LinkRound) : Option LinkWatch :=
  if undisturbed r then
    let ticks := watch.ticks + 1
    if ticks % 12 = 0 then (probeLink watch.probeFails r.probe).map fun n => ⟨n, ticks⟩
    else some { watch with ticks }
  else none

/-- The probes that are made: one every twelve rounds. -/
def probes (ticks : Nat) : List LinkRound → List Bool
  | [] => []
  | r :: rounds =>
      if (ticks + 1) % 12 = 0 then r.probe.alive :: probes (ticks + 1) rounds
      else probes (ticks + 1) rounds

theorem round_disturbed {r : LinkRound} (h : undisturbed r = false) (watch : LinkWatch) :
    watch.round r = none := by
  simp only [round, h, Bool.false_eq_true, if_false]

theorem round_between {r : LinkRound} (h : undisturbed r = true) {watch : LinkWatch}
    (hticks : ¬ (watch.ticks + 1) % 12 = 0) :
    watch.round r = some ⟨watch.probeFails, watch.ticks + 1⟩ := by
  simp only [round, h, if_true, hticks, if_false]

theorem round_probe {r : LinkRound} (h : undisturbed r = true) {watch : LinkWatch}
    (hticks : (watch.ticks + 1) % 12 = 0) :
    watch.round r = (probeLink watch.probeFails r.probe).map fun n => ⟨n, watch.ticks + 1⟩ := by
  simp only [round, h, if_true, hticks]

/-- The rounds go on as the watch of their probes does. -/
theorem foldlM_round (watch : LinkWatch) (rounds : List LinkRound) :
    (rounds.foldlM round watch).isSome ↔
      (∀ r ∈ rounds, undisturbed r) ∧
        (Streak.watch 3 watch.probeFails (probes watch.ticks rounds)).isSome := by
  induction rounds generalizing watch with
  | nil => exact iff_of_true rfl ⟨List.forall_mem_nil _, rfl⟩
  | cons r rounds ih =>
      rw [List.foldlM_cons, List.forall_mem_cons, probes]
      cases hquiet : undisturbed r with
      | false =>
          rw [round_disturbed hquiet]
          exact iff_of_false Bool.false_ne_true fun h => Bool.false_ne_true h.1.1
      | true =>
          split
          · rename_i hticks
            rw [round_probe hquiet hticks, probeLink]
            cases halive : r.probe.alive with
            | true =>
                refine (ih ⟨0, watch.ticks + 1⟩).trans (and_congr_left fun _ => ?_)
                exact (and_iff_right rfl).symm
            | false =>
                rw [Streak.watch]
                rcases Nat.lt_or_ge (watch.probeFails + 1) 3 with hmore | hlast
                · rw [if_neg Bool.false_ne_true, if_neg (Nat.not_le.mpr hmore), if_pos hmore]
                  refine (ih ⟨watch.probeFails + 1, watch.ticks + 1⟩).trans
                    (and_congr_left fun _ => ?_)
                  exact (and_iff_right rfl).symm
                · rw [if_neg Bool.false_ne_true, if_pos hlast, if_neg (Nat.not_lt.mpr hlast)]
                  exact iff_of_false Bool.false_ne_true fun h => Bool.false_ne_true h.2
          · rename_i hticks
            rw [round_between hquiet hticks]
            refine (ih ⟨watch.probeFails, watch.ticks + 1⟩).trans (and_congr_left fun _ => ?_)
            exact (and_iff_right rfl).symm

/-- **The link.**  The loop of an association goes on through exactly the rounds that find
the link up, no beacon timeout and no rescan signal, and of whose probes, one a minute, no
three in a row fail. -/
theorem watched_iff (rounds : List LinkRound) :
    (rounds.foldlM round start).isSome ↔
      (∀ r ∈ rounds, r.isConnected = true ∧ r.beaconTimeout = false ∧ r.rescanSignal = false) ∧
        ¬ [false, false, false] <:+: probes 0 rounds := by
  rw [foldlM_round, start, Streak.watch_isSome_iff (by decide)]
  refine and_congr (forall₂_congr fun r _ => ?_) Iff.rfl
  rw [undisturbed, Bool.and_eq_true, Bool.and_eq_true, Bool.not_eq_true', Bool.not_eq_true',
    and_assoc]

end LinkWatch

/-! ## The thread -/

/-- Where the thread is. -/
inductive ThreadPhase where
  | copy
  | lower (networks : List WifiCreds)
  /-- It is about to try a network, behind those it tried in vain. -/
  | announce (tried : List WifiCreds) (creds : WifiCreds) (rest : List WifiCreds)
  | attempt (tried : List WifiCreds) (creds : WifiCreds) (rest : List WifiCreds)
  | connected (networks : List WifiCreds) (ssid : String) (watch : LinkWatch)
  /-- It tried every network, this one last. -/
  | backOff (creds : WifiCreds)
  | enterAp
  /-- It waits as an access point, which started or did not. -/
  | apPermanent (started : Bool)

/-- The thread, with what it shares with the other tasks. -/
structure WifiThread where
  shared : WifiSupervisor
  state : WifiState
  beaconTimeout : Bool
  phase : ThreadPhase
  raising : Nat

/-- What can happen under one lock, with what the radio answers the thread. -/
inductive ThreadStep where
  | loop (r : RadioReplies)
  | beaconTimeout
  | replace (networks : List WifiCreds)
  | raise
  | reconnect

namespace WifiThread

def spawn (initialNetworks : List WifiCreds) : WifiThread :=
  ⟨.spawn initialNetworks, .disconnected, false, .copy, 0⟩

/-- What a round of the loop of an association finds. -/
def linkRound (s : WifiThread) (r : RadioReplies) : LinkRound :=
  ⟨r.isConnected, s.beaconTimeout, s.shared.rescanSignal, r.probe⟩

/-- The next network of a list, if there is one. -/
def nextNetwork (s : WifiThread) (tried : List WifiCreds) (last : WifiCreds) :
    List WifiCreds → WifiThread
  | [] => { s with phase := .backOff last }
  | creds :: rest => { s with phase := .announce (tried ++ [last]) creds rest }

/-- One step of the thread. -/
def loop (ap : ApCreds) (s : WifiThread) (r : RadioReplies) : WifiThread :=
  match s.phase with
  | .copy => { s with phase := .lower s.shared.networks }
  | .lower [] => { s with shared := s.shared.startOver, phase := .enterAp }
  | .lower (creds :: rest) =>
      { s with shared := s.shared.startOver, phase := .announce [] creds rest }
  | .announce tried creds rest =>
      { s with state := .connecting creds.ssid, phase := .attempt tried creds rest }
  | .attempt tried creds rest =>
      if tryConnectSta r.sta creds then
        { s with
          beaconTimeout := false
          state := .connected creds.ssid (ipString r.sta.announced)
          phase := .connected (tried ++ creds :: rest) creds.ssid .start }
      else s.nextNetwork tried creds rest
  | .connected networks ssid watch =>
      -- the flag of the beacons is taken down when it is looked at
      let beaconTimeout := s.beaconTimeout && !r.isConnected
      match watch.round (s.linkRound r) with
      | some watch => { s with beaconTimeout, phase := .connected networks ssid watch }
      | none => { s with beaconTimeout, phase := .copy }
  | .backOff _ => { s with phase := .copy }
  | .enterAp =>
      if startAp ap r.ap then
        { s with state := .apMode ap.apSsid "192.168.4.1", phase := .apPermanent true }
      else { s with phase := .apPermanent false }
  | .apPermanent _ => if s.shared.rescanSignal then { s with phase := .copy } else s

/-- The first half of a `connect`. -/
def replace (s : WifiThread) (networks : List WifiCreds) : WifiThread :=
  if s.shared.networks = networks then s
  else { s with shared := { s.shared with networks }, raising := s.raising + 1 }

/-- The second half of a `connect`. -/
def raise (s : WifiThread) : WifiThread :=
  if s.raising = 0 then s else { s with shared := s.shared.reconnect, raising := s.raising - 1 }

end WifiThread

/-- The thread and the tasks that it shares its state with. -/
def threadMachine (ap : ApCreds) : Machine WifiThread ThreadStep Unit where
  step s
    | .loop r => (s.loop ap r, ())
    | .beaconTimeout => ({ s with beaconTimeout := true }, ())
    | .replace networks => (s.replace networks, ())
    | .raise => (s.raise, ())
    | .reconnect => ({ s with shared := s.shared.reconnect }, ())

namespace WifiThread

variable {ap : ApCreds}

/-! ## The thread through its locks -/

/-- The phase of `loopMachine` that a phase is. -/
def loopPhase : ThreadPhase → LoopPhase
  | .copy => .copy
  | .lower networks => .lower networks
  | .announce tried creds rest => .tryConnect (tried ++ creds :: rest)
  | .attempt tried creds rest => .tryConnect (tried ++ creds :: rest)
  | .connected networks _ _ => .connected networks
  | .backOff _ => .backOff
  | .enterAp => .tryConnect []
  | .apPermanent _ => .apPermanent []

/-- The thread through its locks. -/
def proj (s : WifiThread) : SupervisorLoop := ⟨s.shared, loopPhase s.phase, s.raising⟩

/-- What a step of the thread is to `loopMachine`.  An attempt that is not the last is
nothing yet. -/
def loopSteps (s : WifiThread) (r : RadioReplies) : List LoopStep :=
  match s.phase with
  | .announce _ _ _ => []
  | .attempt _ creds rest =>
      if tryConnectSta r.sta creds then [.loop true]
      else if rest.isEmpty then [.loop false] else []
  | .connected _ _ watch =>
      let poll := r.isConnected && !s.beaconTimeout
      [.loop (poll && (s.shared.rescanSignal || (watch.round (s.linkRound r)).isSome))]
  | .copy | .lower _ | .backOff _ | .enterAp | .apPermanent _ => [.loop false]

def stepsOf (s : WifiThread) : ThreadStep → List LoopStep
  | .loop r => s.loopSteps r
  | .beaconTimeout => []
  | .replace networks => [.replace networks]
  | .raise => [.raise]
  | .reconnect => [.reconnect]

/-- A round of the loop of an association is a step of `loopMachine`. -/
theorem proj_loop_connected (s : WifiThread) (r : RadioReplies) {networks : List WifiCreds}
    {ssid : String} {watch : LinkWatch} (hphase : s.phase = .connected networks ssid watch) :
    proj (s.loop ap r) = loopMachine.run (proj s) (s.loopSteps r) := by
  obtain ⟨⟨stored, rescanSignal⟩, state, beaconTimeout, phase, raising⟩ := s
  obtain ⟨sta, apReplies, isConnected, probe⟩ := r
  cases hphase
  simp only [loop, loopSteps]
  cases hquiet : LinkWatch.undisturbed ⟨isConnected, beaconTimeout, rescanSignal, probe⟩ with
  | false =>
      rw [linkRound, LinkWatch.round_disturbed hquiet]
      -- only a link that is up, with a signal, is looked at further
      cases isConnected <;> cases beaconTimeout <;> cases rescanSignal <;> rfl
  | true =>
      obtain ⟨rfl, rfl, rfl⟩ : isConnected = true ∧ beaconTimeout = false ∧
          rescanSignal = false := by
        simpa [LinkWatch.undisturbed, and_assoc] using hquiet
      rw [linkRound]
      cases LinkWatch.round watch ⟨true, false, false, probe⟩ <;> rfl

/-- Each step of the thread is what it does to `loopMachine`. -/
theorem proj_next (s : WifiThread) (step : ThreadStep) :
    proj ((threadMachine ap).next s step) = loopMachine.run (proj s) (s.stepsOf step) := by
  cases step with
  | loop r =>
      show proj (s.loop ap r) = loopMachine.run (proj s) (s.loopSteps r)
      obtain ⟨shared, state, beaconTimeout, phase, raising⟩ := s
      cases phase with
      | copy | announce | backOff => rfl
      | lower networks => cases networks <;> rfl
      | attempt tried creds rest =>
          have htry : (tried ++ creds :: rest).isEmpty = false := by
            rw [List.isEmpty_eq_false_iff]
            exact List.append_ne_nil_of_right_ne_nil _ (List.cons_ne_nil _ _)
          have hloop (associated : Bool) :
              SupervisorLoop.loop ⟨shared, .tryConnect (tried ++ creds :: rest), raising⟩
                  associated =
                if associated then ⟨shared, .connected (tried ++ creds :: rest), raising⟩
                else ⟨shared, .backOff, raising⟩ := by
            simp only [SupervisorLoop.loop, htry]
            rfl
          simp only [loop, loopSteps]
          cases tryConnectSta r.sta creds with
          | true => exact (hloop true).symm
          | false =>
              cases rest with
              | nil => exact (hloop false).symm
              | cons next rest =>
                  show SupervisorLoop.mk shared (.tryConnect (tried ++ [creds] ++ next :: rest))
                    raising = ⟨shared, .tryConnect (tried ++ creds :: next :: rest), raising⟩
                  rw [List.append_assoc, List.singleton_append]
      | connected networks ssid watch => exact proj_loop_connected _ r rfl
      | enterAp =>
          simp only [loop]
          split <;> rfl
      | apPermanent started =>
          obtain ⟨stored, rescanSignal⟩ := shared
          cases rescanSignal <;> rfl
  | beaconTimeout => rfl
  | replace networks =>
      show proj (s.replace networks) = (proj s).replace networks
      rw [replace, SupervisorLoop.replace, apply_ite proj]
      rfl
  | raise =>
      show proj s.raise = (proj s).raise
      rw [raise, SupervisorLoop.raise, apply_ite proj]
      rfl
  | reconnect => rfl

/-- **Refinement.**  Seen through its locks, a run of the thread is a run of `loopMachine`. -/
theorem proj_run (ap : ApCreds) (s : WifiThread) (steps : List ThreadStep) :
    proj ((threadMachine ap).run s steps) =
      loopMachine.run (proj s)
        (((threadMachine ap).trace s steps).flatMap fun t => t.before.stepsOf t.input) :=
  (threadMachine ap).run_project loopMachine (fun s step => proj_next s step) s steps

/-! ## The access point -/

/-- One step of the thread is one step of its loop at most. -/
theorem loopSteps_eq (s : WifiThread) (r : RadioReplies) :
    s.loopSteps r = [] ∨ ∃ associated, s.loopSteps r = [.loop associated] := by
  obtain ⟨shared, state, beaconTimeout, phase, raising⟩ := s
  cases phase with
  | announce => exact .inl rfl
  | attempt tried creds rest =>
      simp only [loopSteps]
      split
      · exact .inr ⟨true, rfl⟩
      · split
        · exact .inr ⟨false, rfl⟩
        · exact .inl rfl
  | copy | lower | backOff | enterAp | apPermanent => exact .inr ⟨false, rfl⟩
  | connected networks ssid watch => exact .inr ⟨_, rfl⟩

/-- Where the thread lowers the signal, it has copied the stored list, or the call that
replaced it has yet to raise the signal. -/
def CopyCurrent (s : WifiThread) (step : ThreadStep) : Prop :=
  ∀ r, step = .loop r → (proj s).CopyCurrent

theorem nothingLost_next {s : WifiThread} (h : (proj s).NothingLost) {step : ThreadStep}
    (hcopy : s.CopyCurrent step) : (proj ((threadMachine ap).next s step)).NothingLost := by
  rw [proj_next]
  cases step with
  | loop r =>
      show (loopMachine.run (proj s) (s.loopSteps r)).NothingLost
      rcases loopSteps_eq s r with hnone | ⟨associated, hone⟩
      · rw [hnone]
        exact h
      · rw [hone]
        exact h.loop (hcopy r rfl) associated
  | beaconTimeout => exact h
  | replace networks => exact h.replace networks
  | raise => exact h.raise
  | reconnect => exact h.next .reconnect fun _ hloop => by cases hloop

/-- **The access point.**  In every run whose copies are current where the signal is
lowered, an access point that waits, with no signal and no call in progress, has no network
to try. -/
theorem waits_without_networks (ap : ApCreds) (initialNetworks : List WifiCreds)
    (steps : List ThreadStep)
    (hcurrent : ∀ t ∈ (threadMachine ap).trace (spawn initialNetworks) steps,
      t.before.CopyCurrent t.input)
    {reached : List ThreadStep} (hreached : reached <+: steps) :
    let s := (threadMachine ap).run (spawn initialNetworks) reached
    ∀ started, s.phase = .apPermanent started → s.raising = 0 → s.shared.rescanSignal = false →
      s.shared.networks = [] := by
  intro s started hphase hidle hsignal
  have hkept : (proj s).NothingLost :=
    (threadMachine ap).prefix_invariant (P := fun s => (proj s).NothingLost)
      (fun _ _ hcopy hs => nothingLost_next hs hcopy) (SupervisorLoop.nothingLost_of_actsOn? rfl)
      hcurrent hreached
  have hacts : [] ∈ (proj s).actsOn? := by
    rw [proj, hphase]
    rfl
  by_contra hne
  have hraised := hkept hidle [] hacts fun h => hne h.symm
  rw [proj, hsignal] at hraised
  exact Bool.false_ne_true hraised

/-- A radio that does what it is asked. -/
def goodRadio : RadioReplies where
  sta := ⟨⟨true, true⟩, true, fun _ => true, fun _ => some ⟨192, 168, 1, 20⟩,
    some ⟨192, 168, 1, 20⟩⟩
  ap := ⟨true, true⟩
  isConnected := true
  probe := ⟨true, some ⟨192, 168, 1, 1⟩, .error .connectionRefused⟩

/-- A device that comes up without networks is an access point that has none. -/
theorem first_boot_without_networks :
    let run := (threadMachine ⟨"water", ""⟩).run (spawn [])
      [.loop goodRadio, .loop goodRadio, .loop goodRadio]
    run.phase = .apPermanent true ∧ run.shared.networks = [] := by
  intro run
  refine ⟨rfl, waits_without_networks ⟨"water", ""⟩ []
    [.loop goodRadio, .loop goodRadio, .loop goodRadio] ?_ (List.prefix_refl _) true rfl rfl rfl⟩
  intro t ht r _ networks hlower
  simp only [Machine.trace_cons, Machine.trace_nil, List.mem_cons, List.not_mem_nil,
    or_false] at ht
  rcases ht with rfl | rfl | rfl
  · cases hlower
  · cases hlower
    exact .inl rfl
  · cases hlower

/-! ## What is published -/

/-- What a device does with its radio. -/
inductive Doing where
  | offline
  | connecting (ssid : String)
  | online (ssid : String)
  | portal (ssid : String)
deriving DecidableEq, Repr

def reported : WifiState → Doing
  | .disconnected => .offline
  | .connecting ssid => .connecting ssid
  | .connected ssid _ => .online ssid
  | .apMode ssid _ => .portal ssid

/-- What the thread does in a phase it stays in for a while. -/
def doing (ap : ApCreds) : ThreadPhase → Option Doing
  | .copy | .lower _ | .announce _ _ _ | .enterAp => none
  | .attempt _ creds _ => some (.connecting creds.ssid)
  | .backOff creds => some (.connecting creds.ssid)
  | .connected _ ssid _ => some (.online ssid)
  | .apPermanent started => some (if started then .portal ap.apSsid else .offline)

/-- What is published is what the thread does. -/
def Accurate (ap : ApCreds) (s : WifiThread) : Prop :=
  ∀ d ∈ doing ap s.phase, reported s.state = d

/-- A step is an access point that does not start. -/
def ApFails (ap : ApCreds) (s : WifiThread) (step : ThreadStep) : Prop :=
  s.phase = .enterAp ∧ ∃ r, step = .loop r ∧ startAp ap r.ap = false

/-- A phase that says nothing. -/
theorem accurate_of_doing {s : WifiThread} (h : doing ap s.phase = none) : Accurate ap s := by
  intro d hd
  rw [h] at hd
  cases hd

theorem Accurate.loop {s : WifiThread} (h : Accurate ap s) (r : RadioReplies)
    (hap : ApFails ap s (.loop r) → s.state = .disconnected) : Accurate ap (s.loop ap r) := by
  obtain ⟨shared, state, beaconTimeout, phase, raising⟩ := s
  cases phase with
  | copy | backOff => exact accurate_of_doing rfl
  | lower networks => cases networks <;> exact accurate_of_doing rfl
  | announce tried creds rest =>
      rintro d ⟨⟩
      rfl
  | attempt tried creds rest =>
      simp only [WifiThread.loop]
      split
      · rintro d ⟨⟩
        rfl
      · cases rest with
        | nil => exact h
        | cons next rest => exact accurate_of_doing rfl
  | connected networks ssid watch =>
      simp only [WifiThread.loop]
      split
      · exact h
      · exact accurate_of_doing rfl
  | enterAp =>
      simp only [WifiThread.loop]
      split
      · rintro d ⟨⟩
        rfl
      · rename_i hfails
        obtain rfl := hap ⟨rfl, r, rfl, Bool.eq_false_iff.mpr hfails⟩
        rintro d ⟨⟩
        rfl
  | apPermanent started =>
      simp only [WifiThread.loop]
      split
      · exact accurate_of_doing rfl
      · exact h

/-- The other tasks leave what the thread does and what it published alone. -/
theorem Accurate.of_same {s s' : WifiThread} (h : Accurate ap s) (hphase : s'.phase = s.phase)
    (hstate : s'.state = s.state) : Accurate ap s' := by
  rw [Accurate, hphase, hstate]
  exact h

theorem Accurate.next {s : WifiThread} (h : Accurate ap s) (step : ThreadStep)
    (hap : ApFails ap s step → s.state = .disconnected) :
    Accurate ap ((threadMachine ap).next s step) := by
  cases step with
  | loop r => exact h.loop r hap
  | beaconTimeout | reconnect => exact h.of_same rfl rfl
  | replace networks =>
      show Accurate ap (s.replace networks)
      rw [WifiThread.replace]
      split
      · exact h
      · exact h.of_same rfl rfl
  | raise =>
      show Accurate ap s.raise
      rw [WifiThread.raise]
      split
      · exact h
      · exact h.of_same rfl rfl

/-- An access point that does not start leaves what was published before. -/
theorem state_of_apFails {s : WifiThread} {step : ThreadStep} (h : ApFails ap s step)
    (hnext : Accurate ap ((threadMachine ap).next s step)) : s.state = .disconnected := by
  obtain ⟨hphase, r, rfl, hfails⟩ := h
  obtain ⟨shared, state, beaconTimeout, phase, raising⟩ := s
  cases hphase
  have hloop : loop ap ⟨shared, state, beaconTimeout, .enterAp, raising⟩ r =
      ⟨shared, state, beaconTimeout, .apPermanent false, raising⟩ := by
    simp only [loop, hfails, Bool.false_eq_true, if_false]
  have hafter : Accurate ap (loop ap ⟨shared, state, beaconTimeout, .enterAp, raising⟩ r) := hnext
  rw [hloop] at hafter
  have hoffline := hafter .offline rfl
  cases state with
  | disconnected => rfl
  | connecting | connected | apMode => cases hoffline

/-- **What is published.**  What the thread publishes is what it does in every state of a
run if and only if an access point fails to start in the run only where nothing was
published before. -/
theorem accurate_iff (ap : ApCreds) (initialNetworks : List WifiCreds)
    (steps : List ThreadStep) :
    (∀ reached, reached <+: steps →
        Accurate ap ((threadMachine ap).run (spawn initialNetworks) reached)) ↔
      ∀ t ∈ (threadMachine ap).trace (spawn initialNetworks) steps,
        ApFails ap t.before t.input → t.before.state = .disconnected := by
  constructor
  · intro hall t ht hfails
    exact state_of_apFails hfails ((threadMachine ap).next_of_prefixes hall ht)
  · intro hap reached hreached
    exact (threadMachine ap).prefix_invariant (P := Accurate ap)
      (fun _ step hap hs => hs.next step hap) (accurate_of_doing rfl) hap hreached

end WifiThread

end WaterController
