import WaterController.Firmware.WifiFollows

/-!
# The supervisor's loop and the calls that interrupt it

The list of networks and the rescan signal have a lock each.  The loop copies the
list and then lowers the signal, a `connect` replaces the list and then raises the
signal, and a step here is what is done under one lock, so the two interleave.

The signal carries over what the loop has not seen (`NothingLost`), and every step
keeps that but one.  Lowering the signal forgets a list that was replaced behind the
copy, unless its call has yet to raise the signal (`CopyCurrent`).  Where it is
forgotten, the loop comes to wait on the old list with nothing to wake it
(`lost_of_stale`).
-/

namespace WaterController

open Machines (Machine)

/-! ## Steps -/

/-- Where the loop of the supervisor is, with the list it has copied. -/
inductive LoopPhase where
  | copy
  | lower (networks : List WifiCreds)
  | tryConnect (networks : List WifiCreds)
  | connected (networks : List WifiCreds)
  | backOff
  | apPermanent (networks : List WifiCreds)
deriving DecidableEq, Repr

/-- The supervisor with its loop, and the number of `connect` calls that have replaced
the list and have yet to raise the signal. -/
structure SupervisorLoop where
  shared : WifiSupervisor
  phase : LoopPhase
  raising : Nat
deriving DecidableEq, Repr

/-- What can happen under one lock.  The radio says whether the station is associated. -/
inductive LoopStep where
  | loop (associated : Bool)
  /-- A `connect` compares the lists and replaces the stored one. -/
  | replace (networks : List WifiCreds)
  /-- A `connect` that replaced the list raises the signal. -/
  | raise
  | reconnect
deriving DecidableEq, Repr

namespace SupervisorLoop

/-- The loop at its start, behind `spawn`. -/
def spawn (initialNetworks : List WifiCreds) : SupervisorLoop :=
  ⟨.spawn initialNetworks, .copy, 0⟩

/-- The loop goes on when the signal is raised. -/
def poll (s : SupervisorLoop) : SupervisorLoop :=
  if s.shared.rescanSignal then { s with phase := .copy } else s

/-- One step of the loop. -/
def loop (s : SupervisorLoop) (associated : Bool) : SupervisorLoop :=
  match s.phase with
  | .copy => { s with phase := .lower s.shared.networks }
  | .lower networks => { s with shared := s.shared.startOver, phase := .tryConnect networks }
  | .tryConnect networks =>
      -- there is nothing to associate with on an empty list
      if networks.isEmpty then { s with phase := .apPermanent networks }
      else if associated then { s with phase := .connected networks }
      else { s with phase := .backOff }
  | .connected _ => if associated then s.poll else { s with phase := .copy }
  | .backOff => { s with phase := .copy }
  | .apPermanent _ => s.poll

/-- The first half of a `connect`. -/
def replace (s : SupervisorLoop) (networks : List WifiCreds) : SupervisorLoop :=
  if s.shared.networks = networks then s
  else { s with shared := { s.shared with networks }, raising := s.raising + 1 }

/-- The second half of a `connect`. -/
def raise (s : SupervisorLoop) : SupervisorLoop :=
  if s.raising = 0 then s else { s with shared := s.shared.reconnect, raising := s.raising - 1 }

end SupervisorLoop

/-- The supervisor's loop and its callers, one lock at a time. -/
def loopMachine : Machine SupervisorLoop LoopStep Unit where
  step s
    | .loop associated => (s.loop associated, ())
    | .replace networks => (s.replace networks, ())
    | .raise => (s.raise, ())
    | .reconnect => ({ s with shared := s.shared.reconnect }, ())

namespace SupervisorLoop

/-- A `connect` that nothing interrupts is the one of the supervisor. -/
theorem connect_uninterrupted (s : SupervisorLoop) (networks : List WifiCreds)
    (h : s.raising = 0) :
    loopMachine.run s [.replace networks, .raise] =
      { s with shared := s.shared.connect networks } := by
  obtain ⟨shared, phase, raising⟩ := s
  cases h
  show ((SupervisorLoop.replace _ networks).raise) = _
  simp only [replace, WifiSupervisor.connect]
  split <;> rfl

/-! ## What the signal carries over -/

/-- The list the loop goes by once it has lowered the signal. -/
def actsOn? (s : SupervisorLoop) : Option (List WifiCreds) :=
  match s.phase with
  | .tryConnect networks | .connected networks | .apPermanent networks => some networks
  | .copy | .lower _ | .backOff => none

/-- The list the loop waits on, associated or as an access point. -/
def waitsOn? (s : SupervisorLoop) : Option (List WifiCreds) :=
  match s.phase with
  | .connected networks | .apPermanent networks => some networks
  | .copy | .lower _ | .tryConnect _ | .backOff => none

/-- No update is lost.  With no `connect` in progress, a loop that waits on a list that
is not the stored one has the signal raised. -/
def NoUpdateLost (s : SupervisorLoop) : Prop :=
  s.raising = 0 → ∀ networks ∈ s.waitsOn?, networks ≠ s.shared.networks →
    s.shared.rescanSignal = true

/-- The same from where the loop lowers the signal. -/
def NothingLost (s : SupervisorLoop) : Prop :=
  s.raising = 0 → ∀ networks ∈ s.actsOn?, networks ≠ s.shared.networks →
    s.shared.rescanSignal = true

/-- What the loop waits on it goes by. -/
theorem actsOn?_of_waitsOn? {s : SupervisorLoop} {networks : List WifiCreds}
    (h : networks ∈ s.waitsOn?) : networks ∈ s.actsOn? := by
  obtain ⟨shared, phase, raising⟩ := s
  cases phase with
  | connected | apPermanent => exact h
  | copy | lower | tryConnect | backOff => cases h

theorem NothingLost.noUpdateLost {s : SupervisorLoop} (h : s.NothingLost) : s.NoUpdateLost :=
  fun hidle networks hwaits => h hidle networks (actsOn?_of_waitsOn? hwaits)

/-- A loop that goes by no list has lost nothing. -/
theorem nothingLost_of_actsOn? {s : SupervisorLoop} (h : s.actsOn? = none) : s.NothingLost := by
  intro _ networks hacts
  rw [h] at hacts
  cases hacts

/-- A loop that lowers the signal has copied the stored list, or the call that replaced
it has yet to raise the signal. -/
def CopyCurrent (s : SupervisorLoop) : Prop :=
  ∀ networks, s.phase = .lower networks → networks = s.shared.networks ∨ 0 < s.raising

/-! ## One step -/

theorem NothingLost.poll {s : SupervisorLoop} (h : s.NothingLost) : s.poll.NothingLost := by
  simp only [SupervisorLoop.poll]
  split
  · exact nothingLost_of_actsOn? rfl
  · exact h

theorem NothingLost.loop {s : SupervisorLoop} (h : s.NothingLost) (hcopy : s.CopyCurrent)
    (associated : Bool) : (s.loop associated).NothingLost := by
  obtain ⟨shared, phase, raising⟩ := s
  cases phase with
  | copy | backOff => exact nothingLost_of_actsOn? rfl
  | lower networks =>
      -- the only step that lowers the signal
      rintro hidle _ ⟨⟩ hne
      rcases hcopy networks rfl with hsame | hraising
      · exact absurd hsame hne
      · exact absurd hidle (Nat.pos_iff_ne_zero.mp hraising)
  | tryConnect networks =>
      simp only [SupervisorLoop.loop]
      split
      · exact h
      · split
        · exact h
        · exact nothingLost_of_actsOn? rfl
  | connected networks =>
      simp only [SupervisorLoop.loop]
      split
      · exact h.poll
      · exact nothingLost_of_actsOn? rfl
  | apPermanent networks => exact h.poll

theorem NothingLost.replace {s : SupervisorLoop} (h : s.NothingLost) (networks : List WifiCreds) :
    (s.replace networks).NothingLost := by
  simp only [SupervisorLoop.replace]
  split
  · exact h
  · exact fun hidle => absurd hidle (Nat.succ_ne_zero _)

theorem NothingLost.raise {s : SupervisorLoop} (h : s.NothingLost) : s.raise.NothingLost := by
  simp only [SupervisorLoop.raise]
  split
  · exact h
  · exact fun _ _ _ _ => rfl

/-- Every step keeps what the signal carries over, if the copy is current where the loop
lowers it. -/
theorem NothingLost.next {s : SupervisorLoop} (h : s.NothingLost) (step : LoopStep)
    (hcopy : ∀ associated, step = .loop associated → s.CopyCurrent) :
    (loopMachine.next s step).NothingLost := by
  cases step with
  | loop associated => exact h.loop (hcopy associated rfl) associated
  | replace networks => exact h.replace networks
  | raise => exact h.raise
  | reconnect => exact fun _ _ _ _ => rfl

/-- From a copy that is not current the loop comes to wait on the old list with the
signal low. -/
theorem lost_of_stale {s : SupervisorLoop} (h : ¬ s.CopyCurrent) :
    ¬ (loopMachine.run s [.loop true, .loop true]).NoUpdateLost := by
  obtain ⟨shared, phase, raising⟩ := s
  simp only [CopyCurrent, not_forall, not_or, Nat.not_lt, Nat.le_zero] at h
  obtain ⟨networks, hphase, hstale, hidle⟩ := h
  cases hphase
  cases hidle
  intro hsafe
  cases networks with
  | nil => exact Bool.false_ne_true (hsafe rfl [] rfl hstale)
  | cons creds rest => exact Bool.false_ne_true (hsafe rfl (creds :: rest) rfl hstale)

/-! ## Runs -/

/-- **WiFi updates.**  In every run of the loop and its callers whose copies are current
where the loop lowers the signal, no state has lost an update.  And a run that comes to
lower the signal on a copy that is not current loses one when the loop goes on. -/
theorem no_update_lost (initialNetworks : List WifiCreds) (steps : List LoopStep) :
    ((∀ t ∈ loopMachine.trace (spawn initialNetworks) steps,
        ∀ associated, t.input = .loop associated → t.before.CopyCurrent) →
      ∀ t ∈ loopMachine.trace (spawn initialNetworks) steps,
        t.before.NoUpdateLost ∧ t.after.NoUpdateLost) ∧
    (¬ (loopMachine.run (spawn initialNetworks) steps).CopyCurrent →
      ¬ (loopMachine.run (spawn initialNetworks)
        (steps ++ [.loop true, .loop true])).NoUpdateLost) := by
  constructor
  · intro hcurrent t ht
    obtain ⟨hbefore, hcopy⟩ := loopMachine.trace_invariant (P := NothingLost)
      (G := fun s step => ∀ associated, step = .loop associated → s.CopyCurrent)
      (fun s step hcopy hs => hs.next step hcopy) (nothingLost_of_actsOn? rfl) hcurrent ht
    rw [loopMachine.eq_transition ht] at hcopy ⊢
    exact ⟨hbefore.noUpdateLost, (hbefore.next _ hcopy).noUpdateLost⟩
  · intro hstale
    rw [loopMachine.run_append]
    exact lost_of_stale hstale

/-- A device without networks copies its empty list, is given one, and lowers the signal
that was raised for it: it stays an access point. -/
theorem stays_access_point :
    let home : WifiCreds := ⟨"home", "secret"⟩
    let run := loopMachine.trace (spawn []) [.loop false, .replace [home], .raise, .loop false,
      .loop false, .loop false]
    ∃ t ∈ run, t.after.shared = ⟨[home], false⟩ ∧ t.after.phase = .apPermanent [] ∧
      ¬ t.after.NoUpdateLost := by
  intro home run
  refine ⟨_, List.mem_of_getLast? rfl, rfl, rfl, fun hsafe => ?_⟩
  exact Bool.false_ne_true (hsafe rfl [] rfl (List.cons_ne_nil _ _).symm)

end SupervisorLoop

end WaterController
