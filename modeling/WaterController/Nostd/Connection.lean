import WaterController.Library.Machine
import WaterController.Library.RoundRobin
import WaterController.Nostd.FlashKv

/-!
# The connection task

The task tries the configured networks in turn.  It counts the failures in a row, and at
three for each network of the list it stores the hint to boot as an access point and asks
for a reboot.

On a list that stays the same these are three for each of its networks.  The list can be
edited between two attempts, and then the count goes on.  A network of the new list has
had its chances just if what has failed, with the turns that are left, has it three times
(`fall_back_justified`).
-/

namespace WaterController

open FlashKv (FlashOutcome)
open Machines (Machine Transition)
open RoundRobin (turns)

/-! ## The hint for the next boot -/

inductive BootMode where
  /-- Join a configured network. -/
  | sta
  /-- Run the setup portal. -/
  | ap
deriving DecidableEq, Repr

def bootModeKey : String := "wc.bootmode"

/-- `read_boot_mode`. -/
def readBootMode (kv : FlashKv) : BootMode :=
  match kv.get bootModeKey with
  | some (1 :: _) => .ap
  | _ => .sta

/-- `write_boot_mode`, with what `set` returns if it is called. -/
def writeBootMode (kv : FlashKv) (mode : BootMode) (outcome : FlashOutcome) :
    Option (Except NvsError Unit) × FlashKv :=
  if readBootMode kv = mode then (none, kv)
  else
    let byte : UInt8 := match mode with
      | .sta => 0
      | .ap => 1
    let (result, kv) := kv.set bootModeKey [byte] outcome
    (some result, kv)

/-- The hint reads as it was written, also when the write of the flash failed. -/
theorem readBootMode_writeBootMode (kv : FlashKv) (mode : BootMode) (outcome : FlashOutcome) :
    readBootMode (writeBootMode kv mode outcome).2 = mode := by
  simp only [writeBootMode]
  split
  · assumption
  · simp only [readBootMode, FlashKv.get, FlashKv.set, Std.TreeMap.getElem?_insert_self]
    cases mode <;> rfl

/-! ## The task -/

/-- What comes of an attempt. -/
inductive ConnectOutcome where
  | setConfigFailed
  | connectFailed
  /-- The station is associated, and is so until it is disconnected. -/
  | connected
deriving DecidableEq, Repr

/-- What one round of the loop meets: the list, what comes of an attempt, and how a write of
the flash goes. -/
structure ConnectRound where
  networks : List WifiCreds
  attempt : ConnectOutcome
  flash : FlashOutcome

/-- What a round did. -/
inductive ConnectEvent where
  | noNetworks
  /-- The hint was written and a reboot requested. -/
  | fallBack
  | failed (net : WifiCreds)
  | connected (net : WifiCreds)
deriving DecidableEq, Repr

structure ConnectionTask where
  idx : Nat
  fails : Nat
  kv : FlashKv
  rebootRequested : Bool

namespace ConnectionTask

/-- The task at its start. -/
def start (kv : FlashKv) : ConnectionTask := ⟨0, 0, kv, false⟩

/-- One attempt, with the network whose turn it is. -/
def attempt (s : ConnectionTask) (idx : Nat) (net : WifiCreds) (round : ConnectRound) :
    ConnectionTask × ConnectEvent :=
  match round.attempt with
  | .setConfigFailed | .connectFailed =>
      ({ s with idx := idx + 1, fails := s.fails + 1 }, .failed net)
  | .connected =>
      ({ s with idx, fails := 0, kv := (writeBootMode s.kv .sta round.flash).2 }, .connected net)

/-- One round of the loop. -/
def round (s : ConnectionTask) (round : ConnectRound) : ConnectionTask × ConnectEvent :=
  if hempty : round.networks = [] then (s, .noNetworks)
  else if round.networks.length * 3 ≤ s.fails then
    ({ s with kv := (writeBootMode s.kv .ap round.flash).2, rebootRequested := true }, .fallBack)
  else
    have hlt : s.idx % round.networks.length < round.networks.length :=
      Nat.mod_lt _ (List.length_pos_iff.mpr hempty)
    s.attempt (s.idx % round.networks.length) round.networks[s.idx % round.networks.length] round

def machine : Machine ConnectionTask ConnectRound ConnectEvent where
  step s r := s.round r

/-! ## What has failed -/

/-- The failures behind the last connection, with one more event. -/
def addEvent (failed : List WifiCreds) : ConnectEvent → List WifiCreds
  | .failed net => failed ++ [net]
  | .connected _ => []
  | .noNetworks | .fallBack => failed

/-- The failures behind the last connection, oldest first. -/
def failedSince (events : List ConnectEvent) : List WifiCreds := events.foldl addEvent []

/-- The list that was seen last, if it was not empty. -/
def lastSeen (rounds : List ConnectRound) : Option (List WifiCreds) :=
  (rounds.map ConnectRound.networks).reverse.find? fun networks => !networks.isEmpty

/-- With the turns that are left each network of a list has failed three times. -/
def ChancesLeft (networks : List WifiCreds) (s : ConnectionTask) (failed : List WifiCreds) : Prop :=
  ∀ net ∈ networks,
    3 ≤ (failed ++ turns networks s.idx (networks.length * 3 - s.fails)).count net

/-- Whenever the task falls back, each network of the list has failed three times. -/
def FallBackJustified (ts : List (Transition ConnectionTask ConnectRound ConnectEvent)) : Prop :=
  ∀ pre t post, ts = pre ++ t :: post → t.output = .fallBack →
    ∀ net ∈ t.input.networks, 3 ≤ (failedSince (pre.map Transition.output)).count net

/-- A list that replaces another one has chances left for all of its networks. -/
def EditsLeaveChances (ts : List (Transition ConnectionTask ConnectRound ConnectEvent)) : Prop :=
  ∀ pre t post, ts = pre ++ t :: post → t.input.networks ≠ [] →
    lastSeen (pre.map Transition.input) ≠ some t.input.networks →
    ChancesLeft t.input.networks t.before (failedSince (pre.map Transition.output))

/-! ## One round -/

section Round

variable {s : ConnectionTask} {r : ConnectRound} {networks failed : List WifiCreds}

theorem round_nil (h : r.networks = []) : s.round r = (s, .noNetworks) := by
  rw [round, dif_pos h]

theorem round_fallBack (hne : r.networks ≠ []) (hfails : r.networks.length * 3 ≤ s.fails) :
    s.round r = ({ s with kv := (writeBootMode s.kv .ap r.flash).2, rebootRequested := true },
      .fallBack) := by
  rw [round, dif_neg hne, if_pos hfails]

theorem idx_lt (s : ConnectionTask) (hne : r.networks ≠ []) :
    s.idx % r.networks.length < r.networks.length :=
  Nat.mod_lt _ (List.length_pos_iff.mpr hne)

theorem round_attempt (hne : r.networks ≠ []) (hfails : s.fails < r.networks.length * 3)
    (hlt : s.idx % r.networks.length < r.networks.length) :
    s.round r = s.attempt (s.idx % r.networks.length) r.networks[s.idx % r.networks.length] r := by
  rw [round, dif_neg hne, if_neg (Nat.not_le_of_lt hfails)]

/-- Without failures there are three turns left for each network. -/
theorem chancesLeft_of_fails (networks failed : List WifiCreds) (hfails : s.fails = 0) :
    ChancesLeft networks s failed := by
  intro net hmem
  rw [hfails, Nat.sub_zero, Nat.mul_comm, List.count_append, RoundRobin.count_turns_mul]
  have hcount : 0 < networks.count net := List.count_pos_iff.mpr hmem
  omega

/-- A round on the same list leaves the chances as they are, or renews them. -/
theorem ChancesLeft.round (h : ChancesLeft r.networks s failed) :
    ChancesLeft r.networks (s.round r).1 (addEvent failed (s.round r).2) := by
  rcases eq_or_ne r.networks [] with hempty | hne
  · rw [round_nil hempty]
    exact h
  · rcases Nat.lt_or_ge s.fails (r.networks.length * 3) with hlt | hge
    · rw [round_attempt hne hlt (s.idx_lt hne), attempt]
      have hleft : r.networks.length * 3 - s.fails = r.networks.length * 3 - (s.fails + 1) + 1 := by
        omega
      cases r.attempt with
      | setConfigFailed | connectFailed =>
          -- the turn moves from the turns that are left to the failures
          intro net hmem
          have hcount := h net hmem
          rw [hleft, RoundRobin.turns_succ (s.idx_lt hne)] at hcount
          rw [addEvent, List.append_assoc]
          exact hcount
      | connected => exact chancesLeft_of_fails _ _ rfl
    · rw [round_fallBack hne hge]
      exact h

/-- A fallback on a list with chances left for its networks is justified. -/
theorem ChancesLeft.fallBack (h : ChancesLeft r.networks s failed)
    (hevent : (s.round r).2 = .fallBack) : ∀ net ∈ r.networks, 3 ≤ failed.count net := by
  intro net hmem
  have hne : r.networks ≠ [] := List.ne_nil_of_mem hmem
  rcases Nat.lt_or_ge s.fails (r.networks.length * 3) with hlt | hge
  · rw [round_attempt hne hlt (s.idx_lt hne), attempt] at hevent
    cases hattempt : r.attempt <;> rw [hattempt] at hevent <;> exact nomatch hevent
  · have hcount := h net hmem
    rw [Nat.sub_eq_zero_of_le hge] at hcount
    exact hcount.trans_eq (congrArg (List.count net) (List.append_nil failed))

/-- What a round can do. -/
theorem round_cases (s : ConnectionTask) (r : ConnectRound) :
    (r.networks = [] ∧ s.round r = (s, .noNetworks)) ∨
    (∃ idx net, s.round r = ({ s with idx, fails := s.fails + 1 }, .failed net)) ∨
    (∃ idx net, s.round r =
      ({ s with idx, fails := 0, kv := (writeBootMode s.kv .sta r.flash).2 }, .connected net)) ∨
    (r.networks ≠ [] ∧ r.networks.length * 3 ≤ s.fails ∧ s.round r =
      ({ s with kv := (writeBootMode s.kv .ap r.flash).2, rebootRequested := true },
        .fallBack)) := by
  rcases eq_or_ne r.networks [] with hempty | hne
  · exact .inl ⟨hempty, round_nil hempty⟩
  · rcases Nat.lt_or_ge s.fails (r.networks.length * 3) with hlt | hge
    · rw [round_attempt hne hlt (s.idx_lt hne), attempt]
      cases r.attempt with
      | setConfigFailed | connectFailed => exact .inr (.inl ⟨_, _, rfl⟩)
      | connected => exact .inr (.inr (.inl ⟨_, _, rfl⟩))
    · exact .inr (.inr (.inr ⟨hne, hge, round_fallBack hne hge⟩))

end Round

/-! ## Runs -/

/-- Rounds on one list whose attempts fail take the turns of the list. -/
theorem trace_failing {networks : List WifiCreds} (hne : networks ≠ []) (m : Nat)
    (s : ConnectionTask) (hm : m ≤ networks.length * 3 - s.fails) :
    (machine.trace s (List.replicate m ⟨networks, .connectFailed, .stored⟩)).map Transition.output =
        (turns networks s.idx m).map .failed ∧
      (machine.run s (List.replicate m ⟨networks, .connectFailed, .stored⟩)).fails =
        s.fails + m := by
  induction m generalizing s with
  | zero => exact ⟨rfl, rfl⟩
  | succ m ih =>
      have hlt : s.idx % networks.length < networks.length :=
        Nat.mod_lt _ (List.length_pos_iff.mpr hne)
      have hround : s.round ⟨networks, .connectFailed, .stored⟩ =
          ({ s with idx := s.idx % networks.length + 1, fails := s.fails + 1 },
            .failed networks[s.idx % networks.length]) := by
        have hfails : s.fails < networks.length * 3 := by omega
        rw [@round_attempt s ⟨networks, .connectFailed, .stored⟩ hne hfails hlt, attempt]
      obtain ⟨hevents, hfails⟩ := ih
        { s with idx := s.idx % networks.length + 1, fails := s.fails + 1 }
        (by show m ≤ networks.length * 3 - (s.fails + 1); omega)
      rw [List.replicate_succ, Machine.trace_cons, Machine.run_cons, RoundRobin.turns_succ hlt,
        List.map_cons, List.map_cons, Machine.transition, Machine.next, Machine.out]
      show _ :: (machine.trace (s.round _).1 _).map _ = _ ∧
        (machine.run (s.round _).1 _).fails = _
      rw [hround]
      refine ⟨congrArg₂ List.cons ?_ hevents, hfails.trans (by show s.fails + 1 + m = _; omega)⟩
      show (s.round _).2 = _
      rw [hround]

theorem failedSince_append (events later : List ConnectEvent) :
    failedSince (events ++ later) = later.foldl addEvent (failedSince events) :=
  List.foldl_append

theorem foldl_addEvent_failed (failed nets : List WifiCreds) :
    (nets.map ConnectEvent.failed).foldl addEvent failed = failed ++ nets := by
  induction nets generalizing failed with
  | nil => exact (List.append_nil failed).symm
  | cons net nets ih =>
      rw [List.map_cons, List.foldl_cons, addEvent, ih, List.append_assoc]
      rfl

theorem lastSeen_concat (rounds : List ConnectRound) (r : ConnectRound) :
    lastSeen (rounds ++ [r]) = if r.networks = [] then lastSeen rounds else some r.networks := by
  rw [lastSeen, lastSeen, List.map_append, List.reverse_append, List.map_singleton,
    List.reverse_singleton, List.singleton_append, List.find?_cons]
  rcases eq_or_ne r.networks [] with hempty | hne
  · rw [hempty, if_pos rfl]
    rfl
  · rw [if_neg hne, List.isEmpty_eq_false_iff.mpr hne]
    rfl

/-- The list that was seen last has chances left for its networks. -/
def LastSeenHasChances (h : List (Transition ConnectionTask ConnectRound ConnectEvent))
    (s : ConnectionTask) : Prop :=
  ∀ networks, lastSeen (h.map Transition.input) = some networks →
    ChancesLeft networks s (failedSince (h.map Transition.output))

theorem LastSeenHasChances.next {h : List (Transition ConnectionTask ConnectRound ConnectEvent)}
    {s : ConnectionTask} {r : ConnectRound} (hseen : LastSeenHasChances h s)
    (hedit : r.networks ≠ [] → lastSeen (h.map Transition.input) ≠ some r.networks →
      ChancesLeft r.networks s (failedSince (h.map Transition.output))) :
    LastSeenHasChances (h ++ [machine.transition s r]) (machine.next s r) ∧
      ((s.round r).2 = .fallBack →
        ∀ net ∈ r.networks, 3 ≤ (failedSince (h.map Transition.output)).count net) := by
  rcases eq_or_ne r.networks [] with hempty | hne
  · refine ⟨fun networks hlast => ?_, fun _ net hmem => by rw [hempty] at hmem; cases hmem⟩
    have hstep : machine.step s r = (s, .noNetworks) := round_nil hempty
    rw [List.map_append, List.map_singleton, Machine.transition_input, lastSeen_concat,
      if_pos hempty] at hlast
    rw [List.map_append, List.map_singleton, failedSince_append, Machine.transition, Machine.next,
      Machine.out, hstep]
    exact hseen networks hlast
  · have hchances : ChancesLeft r.networks s (failedSince (h.map Transition.output)) := by
      rcases eq_or_ne (lastSeen (h.map Transition.input)) (some r.networks) with hlast | hlast
      · exact hseen _ hlast
      · exact hedit hne hlast
    refine ⟨fun networks hlast => ?_, hchances.fallBack⟩
    rw [List.map_append, List.map_singleton, Machine.transition_input, lastSeen_concat,
      if_neg hne] at hlast
    cases hlast
    rw [List.map_append, List.map_singleton, failedSince_append]
    exact hchances.round

/-- **Fallback.**  In every run in which each list that replaces another one has chances left
for its networks, every fallback is justified.  And behind a run that is given a list without
them, the attempts can fail so that one is not. -/
theorem fall_back_justified (kv : FlashKv) (rounds : List ConnectRound) :
    (EditsLeaveChances (machine.trace (start kv) rounds) →
      FallBackJustified (machine.trace (start kv) rounds)) ∧
    ∀ networks, networks ≠ [] →
      ¬ ChancesLeft networks (machine.run (start kv) rounds)
        (failedSince ((machine.trace (start kv) rounds).map Transition.output)) →
      ∃ later : List ConnectRound, (∀ r ∈ later, r.networks = networks) ∧
        ¬ FallBackJustified (machine.trace (start kv) (rounds ++ later)) := by
  constructor
  · intro hedits pre t post hsplit hevent
    obtain ⟨hseen, hedit⟩ := machine.trace_history_before (J := LastSeenHasChances)
      (G := fun h s r => r.networks ≠ [] → lastSeen (h.map Transition.input) ≠ some r.networks →
        ChancesLeft r.networks s (failedSince (h.map Transition.output)))
      (fun h s r hG hJ => (hJ.next hG).1) (fun _ hlast => nomatch hlast) hedits hsplit
    have hmem : t ∈ machine.trace (start kv) rounds := by rw [hsplit]; simp
    rw [machine.eq_transition hmem] at hevent
    exact (hseen.next hedit).2 hevent
  · intro networks hne hchances
    generalize hs : machine.run (start kv) rounds = s at hchances
    let failing : List ConnectRound :=
      List.replicate (networks.length * 3 - s.fails) ⟨networks, .connectFailed, .stored⟩
    refine ⟨failing ++ [⟨networks, .connectFailed, .stored⟩], fun r hr => ?_, fun hjustified => ?_⟩
    · rcases List.mem_append.mp hr with hmem | hmem
      · rw [List.eq_of_mem_replicate hmem]
      · rw [List.mem_singleton.mp hmem]
    · let last : ConnectRound := ⟨networks, .connectFailed, .stored⟩
      obtain ⟨hevents, hfails⟩ := trace_failing hne _ s (Nat.le_refl _)
      have hfallBack : (machine.transition (machine.run s failing) last).output = .fallBack := by
        show ((machine.run s failing).round last).2 = _
        rw [round_fallBack hne (by show networks.length * 3 ≤ _; rw [hfails]; omega)]
      have hsplit : machine.trace (start kv) (rounds ++ (failing ++ [last])) =
          (machine.trace (start kv) rounds ++ machine.trace s failing) ++
            [machine.transition (machine.run s failing) last] := by
        rw [machine.trace_append, machine.trace_append, hs, List.append_assoc]
        rfl
      refine hchances fun net hmem => ?_
      have hcount := hjustified _ _ [] hsplit hfallBack net hmem
      rw [List.map_append, hevents, failedSince_append, foldl_addEvent_failed] at hcount
      exact hcount

/-- A network is given behind two failures of another one.  It fails once, and the task
falls back. -/
theorem fall_back_early :
    let old : WifiCreds := ⟨"old", "secret"⟩
    let new : WifiCreds := ⟨"new", "secret"⟩
    ¬ FallBackJustified (machine.trace (start ⟨.erased, ∅⟩) [⟨[old], .connectFailed, .stored⟩,
      ⟨[old], .connectFailed, .stored⟩, ⟨[new], .connectFailed, .stored⟩,
      ⟨[new], .connectFailed, .stored⟩]) := by
  intro old new hjustified
  have hcount := hjustified (machine.trace (start ⟨.erased, ∅⟩) [⟨[old], .connectFailed, .stored⟩,
    ⟨[old], .connectFailed, .stored⟩, ⟨[new], .connectFailed, .stored⟩]) _ [] rfl rfl new
    List.mem_cons_self
  exact absurd hcount (by decide)

end ConnectionTask

end WaterController
