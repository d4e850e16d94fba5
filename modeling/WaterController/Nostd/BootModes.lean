import WaterController.Library.Ring
import WaterController.Nostd.Connection
import WaterController.Nostd.FlashRuns

/-!
# The radio over the boots of a device

A boot brings up the station or the setup portal and keeps to it.  The task that runs with it
decides what the next boot does: `connection_task` stores the hint for the portal when it gives
up, and `ap::scan_task` the one for the station when a configured network is in range.  The
serial console can ask for the portal too.

A device can be switched off at any point, so a boot can come at any point here.  A write that
fails, or is cut by a loss of power, leaves any contents of the region, while the hint in memory
reads as it was told.  So what a boot does follows from what the hint was told last as long as
the flash works (`boots_as_told`).  The portal is only asked for on the console or behind three
times as many failures as there are networks.

The hint is written at most twice for each time the portal is asked for, and once more for each
boot that reads the portal back from the flash against what the hint was told
(`hint_writes_le`).
-/

namespace WaterController

open FlashKv (FlashOutcome)
open Machines (Machine Transition)

/-! ## The device -/

/-- The task that has the radio. -/
inductive Radio where
  | off
  /-- `connection_task`, with its turn and its failures. -/
  | station (idx fails : Nat)
  /-- `ap::scan_task`, which returns when it is done or the radio does not take its
  configuration. -/
  | portal (watching : Bool)
deriving DecidableEq, Repr

/-- The task that a boot starts. -/
def BootMode.radio (setConfigOk : Bool) : BootMode → Radio
  | .sta => .station 0 0
  | .ap => .portal setConfigOk

structure RadioDevice where
  radio : Radio
  kv : FlashKv
  rebootRequested : Bool

/-- What a round of `ap::scan_task` meets: the list of networks, the names in range unless the
scan fails, and how a write of the flash goes. -/
structure ScanRound where
  known : List WifiCreds
  found : Option (List String)
  flash : FlashOutcome

inductive RadioStep where
  /-- A boot, with the stored networks, whether the flash can be read, and whether the radio
  takes the portal's configuration. -/
  | boot (networks : List WifiCreds) (readable setConfigOk : Bool)
  | connect (r : ConnectRound)
  | scan (r : ScanRound)
  /-- The command `ap` of the serial console. -/
  | forcePortal (flash : FlashOutcome)
  /-- A call of another part of the firmware on the store. -/
  | store (call : FlashKv.Call) (h : call.key ≠ bootModeKey) (flash : FlashOutcome)

inductive RadioEvent where
  | booted (mode : BootMode)
  /-- The decoder of the store panicked. -/
  | bootFailed
  | connection (event : ConnectEvent)
  | inRange
  | forced
  /-- The step is none of the running task, or came to nothing. -/
  | nothing
deriving DecidableEq, Repr

/-- An event, and what the store returned if it was called. -/
structure RadioOutput where
  event : RadioEvent
  stored : Option (Except NvsError Unit)
deriving DecidableEq

/-- What an event tells the hint. -/
def RadioEvent.verdict : RadioEvent → Option BootMode
  | .connection .fallBack | .forced => some .ap
  | .connection (.connected _) | .inRange => some .sta
  | .connection .noNetworks | .connection (.failed _) | .booted _ | .bootFailed | .nothing => none

/-- The flash can be read, if the step does. -/
def RadioStep.readable : RadioStep → Bool
  | .boot _ readable _ => readable
  | .connect _ | .scan _ | .forcePortal _ | .store _ _ _ => true

namespace RadioDevice

/-- A device with an erased flash. -/
def erased : RadioDevice := ⟨.off, ⟨.erased, ∅⟩, false⟩

/-- Tell the hint what an event says. -/
def tell (s : RadioDevice) (event : RadioEvent) (flash : FlashOutcome) :
    Option (Except NvsError Unit) × FlashKv :=
  match event.verdict with
  | none => (none, s.kv)
  | some mode => writeBootMode s.kv mode flash

/-- `boot_ap`. -/
def bootMode (kv : FlashKv) (networks : List WifiCreds) : BootMode :=
  if networks = [] ∨ readBootMode kv = .ap then .ap else .sta

/-- A boot.  One that panics is followed by another one, and the device gets no further. -/
def boot (s : RadioDevice) (networks : List WifiCreds) (readable setConfigOk : Bool) :
    RadioDevice × RadioOutput :=
  match FlashKv.new s.kv.flash readable with
  | .error _ => (⟨.off, s.kv, false⟩, ⟨.bootFailed, none⟩)
  | .ok kv =>
      (⟨(bootMode kv networks).radio setConfigOk, kv, false⟩,
        ⟨.booted (bootMode kv networks), none⟩)

/-- One of the configured networks is in range. -/
def InRange (r : ScanRound) : Prop :=
  ∃ name ∈ r.found.getD [], name ∈ r.known.map WifiCreds.ssid

instance (r : ScanRound) : Decidable (InRange r) :=
  inferInstanceAs (Decidable (∃ name ∈ r.found.getD [], name ∈ r.known.map WifiCreds.ssid))

/-- A round of `connection_task`. -/
def connect (s : RadioDevice) (idx fails : Nat) (r : ConnectRound) : RadioDevice × RadioOutput :=
  let (task, event) := ConnectionTask.round ⟨idx, fails, s.kv, s.rebootRequested⟩ r
  (⟨.station task.idx task.fails, task.kv, task.rebootRequested⟩,
    ⟨.connection event, (s.tell (.connection event) r.flash).1⟩)

/-- A round of `ap::scan_task`. -/
def scan (s : RadioDevice) (r : ScanRound) : RadioDevice × RadioOutput :=
  if r.known ≠ [] ∧ InRange r then
    let (stored, kv) := writeBootMode s.kv .sta r.flash
    (⟨.portal false, kv, true⟩, ⟨.inRange, stored⟩)
  else (s, ⟨.nothing, none⟩)

def step (s : RadioDevice) : RadioStep → RadioDevice × RadioOutput
  | .boot networks readable setConfigOk => s.boot networks readable setConfigOk
  | .connect r =>
      match s.radio with
      | .station idx fails => s.connect idx fails r
      | .off | .portal _ => (s, ⟨.nothing, none⟩)
  | .scan r =>
      match s.radio with
      | .portal true => s.scan r
      | .off | .station _ _ | .portal false => (s, ⟨.nothing, none⟩)
  | .forcePortal flash =>
      match s.radio with
      | .off => (s, ⟨.nothing, none⟩)
      | .station _ _ | .portal _ =>
          let (stored, kv) := writeBootMode s.kv .ap flash
          ({ s with kv, rebootRequested := true }, ⟨.forced, stored⟩)
  | .store call _ flash =>
      match s.radio with
      | .off => (s, ⟨.nothing, none⟩)
      | .station _ _ | .portal _ =>
          let (result, kv) := s.kv.perform call flash
          ({ s with kv }, ⟨.nothing, some result⟩)

def machine : Machine RadioDevice RadioStep RadioOutput where
  step s i := s.step i

/-- A step of a device. -/
abbrev RadioTransition := Transition RadioDevice RadioStep RadioOutput

/-- The flash is read and written without an error in a step. -/
def FlashWorks (s : RadioDevice) (i : RadioStep) : Prop :=
  i.readable = true ∧ ∀ result ∈ (s.step i).2.stored, result = .ok ()

instance (s : RadioDevice) (i : RadioStep) : Decidable (FlashWorks s i) :=
  inferInstanceAs (Decidable (_ ∧ ∀ result ∈ (s.step i).2.stored, result = .ok ()))

/-! ## One step -/

/-- What a step does to the store: it boots, tells the hint what its event says, or calls the
store for another key. -/
theorem step_cases (s : RadioDevice) (i : RadioStep) :
    (∃ networks readable ok, i = .boot networks readable ok) ∨
    (∃ flash, ((s.step i).2.stored, (s.step i).1.kv) = s.tell (s.step i).2.event flash) ∨
    (∃ call flash, call.key ≠ bootModeKey ∧ (s.step i).2.event = .nothing ∧
      (s.step i).2.stored = some (s.kv.perform call flash).1 ∧
      (s.step i).1.kv = (s.kv.perform call flash).2) := by
  cases i with
  | boot networks readable ok => exact .inl ⟨networks, readable, ok, rfl⟩
  | connect r =>
      refine .inr (.inl ⟨r.flash, ?_⟩)
      simp only [step]
      cases s.radio with
      | off | portal => rfl
      | station idx fails =>
          simp only [connect]
          obtain ⟨-, h⟩ | ⟨_, _, h⟩ | ⟨_, _, h⟩ | ⟨-, -, h⟩ :=
            ConnectionTask.round_cases ⟨idx, fails, s.kv, s.rebootRequested⟩ r <;> rw [h] <;> rfl
  | scan r =>
      refine .inr (.inl ⟨r.flash, ?_⟩)
      simp only [step]
      split
      · rw [scan]
        split <;> rfl
      all_goals rfl
  | forcePortal flash =>
      refine .inr (.inl ⟨flash, ?_⟩)
      simp only [step]
      cases s.radio <;> rfl
  | store call h flash =>
      simp only [step]
      cases s.radio with
      | off => exact .inr (.inl ⟨flash, rfl⟩)
      | station | portal => exact .inr (.inr ⟨call, flash, h, rfl, rfl, rfl⟩)

/-- A boot panics, or runs with what it loaded. -/
theorem boot_cases (s : RadioDevice) (networks : List WifiCreds) (readable ok : Bool) :
    s.boot networks readable ok = (⟨.off, s.kv, false⟩, ⟨.bootFailed, none⟩) ∨
    ∃ kv, s.boot networks readable ok =
      (⟨(bootMode kv networks).radio ok, kv, false⟩, ⟨.booted (bootMode kv networks), none⟩) := by
  rw [boot]
  cases FlashKv.new s.kv.flash readable with
  | error panic => exact .inl rfl
  | ok kv => exact .inr ⟨kv, rfl⟩

/-- The hint reads as an event tells it, whatever comes of the write. -/
theorem readBootMode_tell (s : RadioDevice) (event : RadioEvent) (flash : FlashOutcome) :
    readBootMode (s.tell event flash).2 = event.verdict.getD (readBootMode s.kv) := by
  rw [tell]
  cases event.verdict with
  | none => rfl
  | some mode => exact readBootMode_writeBootMode _ _ _

/-- The store is called when the hint is told something new. -/
theorem isSome_tell (s : RadioDevice) (event : RadioEvent) (flash : FlashOutcome) :
    (s.tell event flash).1.isSome = event.verdict.any (· ≠ readBootMode s.kv) := by
  rw [tell]
  cases event.verdict with
  | none => rfl
  | some mode =>
      simp only [writeBootMode, Option.any_some]
      split <;> rename_i hsame
      · simp [hsame]
      · simpa using Ne.symm hsame

theorem readBootMode_congr {kv kv' : FlashKv} (h : kv.get bootModeKey = kv'.get bootModeKey) :
    readBootMode kv = readBootMode kv' := by
  rw [readBootMode, readBootMode, h]

theorem readBootMode_perform {kv : FlashKv} {call : FlashKv.Call} (h : call.key ≠ bootModeKey)
    (flash : FlashOutcome) : readBootMode (kv.perform call flash).2 = readBootMode kv :=
  readBootMode_congr (by rw [FlashKv.perform_get, if_neg h])

/-- Between the boots the hint is what it is told. -/
theorem readBootMode_step {s : RadioDevice} {i : RadioStep}
    (hboot : ∀ networks readable ok, i ≠ .boot networks readable ok) :
    readBootMode (s.step i).1.kv = (s.step i).2.event.verdict.getD (readBootMode s.kv) := by
  obtain ⟨networks, readable, ok, rfl⟩ | ⟨flash, htell⟩ | ⟨call, flash, hkey, hevent, -, hkv⟩ :=
    s.step_cases i
  · exact absurd rfl (hboot networks readable ok)
  · rw [show (s.step i).1.kv = _ from congrArg Prod.snd htell]
    exact readBootMode_tell _ _ _
  · rw [hkv, hevent]
    exact readBootMode_perform hkey flash

/-! ## A flash that works -/

/-- A write that succeeds leaves the region as the map. -/
theorem mirrors_writeBootMode {kv : FlashKv} {mode : BootMode} {flash : FlashOutcome}
    (h : kv.Mirrors) (hok : ∀ result ∈ (writeBootMode kv mode flash).1, result = .ok ()) :
    (writeBootMode kv mode flash).2.Mirrors := by
  simp only [writeBootMode] at hok ⊢
  split at hok <;> rename_i hsame
  · rw [if_pos hsame]
    exact h
  · rw [if_neg hsame]
    exact @FlashKv.perform_mirrors kv (.set _ _) flash (hok _ rfl)

/-- A boot from a region that mirrors the map reads the hint back. -/
theorem boot_mirrors {s : RadioDevice} (h : s.kv.Mirrors) (networks : List WifiCreds) (ok : Bool) :
    (s.boot networks true ok).1.kv.Mirrors ∧
      readBootMode (s.boot networks true ok).1.kv = readBootMode s.kv ∧
      (s.boot networks true ok).2 = ⟨.booted (bootMode s.kv networks), none⟩ := by
  obtain ⟨kv, hkv, hget⟩ := h
  have hread : readBootMode kv = readBootMode s.kv := readBootMode_congr (hget bootModeKey)
  rw [boot, show FlashKv.new s.kv.flash true = .ok kv from hkv]
  exact ⟨FlashKv.mirrors_of_boot hkv, hread, by simp only [bootMode, hread]⟩

theorem mirrors_step {s : RadioDevice} {i : RadioStep} (h : s.kv.Mirrors)
    (hworks : FlashWorks s i) : (s.step i).1.kv.Mirrors := by
  obtain ⟨hreadable, hok⟩ := hworks
  obtain ⟨networks, readable, ok, rfl⟩ | ⟨flash, htell⟩ | ⟨call, flash, -, -, hstored, hkv⟩ :=
    s.step_cases i
  · rw [show readable = true from hreadable]
    exact (boot_mirrors h networks ok).1
  · rw [show (s.step i).2.stored = _ from congrArg Prod.fst htell] at hok
    rw [show (s.step i).1.kv = _ from congrArg Prod.snd htell]
    rw [tell] at hok ⊢
    split
    · exact h
    · rename_i hverdict
      rw [hverdict] at hok
      exact mirrors_writeBootMode h hok
  · rw [hkv]
    exact FlashKv.perform_mirrors (hok _ hstored)

/-- What the hint was told last. -/
def lastTold (ts : List RadioTransition) : Option BootMode :=
  (ts.filterMap fun t => t.output.event.verdict).getLast?

/-- The hint is what it was told last, and the station when it never was, in memory and in the
flash. -/
def HintAsTold (ts : List RadioTransition) (s : RadioDevice) : Prop :=
  s.kv.Mirrors ∧ readBootMode s.kv = (lastTold ts).getD .sta

theorem HintAsTold.next {ts : List RadioTransition} {s : RadioDevice} {i : RadioStep}
    (h : HintAsTold ts s) (hworks : FlashWorks s i) :
    HintAsTold (ts ++ [machine.transition s i]) (machine.next s i) := by
  obtain ⟨hmirrors, hhint⟩ := h
  refine ⟨mirrors_step hmirrors hworks, ?_⟩
  rw [lastTold, Ring.getLast?_filterMap_concat]
  show readBootMode (s.step i).1.kv = ((s.step i).2.event.verdict.or (lastTold ts)).getD .sta
  have hstep : readBootMode (s.step i).1.kv =
      (s.step i).2.event.verdict.getD (readBootMode s.kv) := by
    by_cases hboot : ∃ networks readable ok, i = .boot networks readable ok
    · obtain ⟨networks, readable, ok, rfl⟩ := hboot
      rw [show readable = true from hworks.1]
      obtain ⟨-, hread, hout⟩ := boot_mirrors hmirrors networks ok
      rw [step, hread, hout]
      rfl
    · exact readBootMode_step fun networks readable ok hi => hboot ⟨networks, readable, ok, hi⟩
  rw [hstep, hhint]
  cases (s.step i).2.event.verdict <;> rfl

theorem hintAsTold_erased : HintAsTold [] erased :=
  ⟨FlashKv.mirrors_of_boot FlashKv.boot_erased, rfl⟩

theorem hintAsTold_run {steps : List RadioStep}
    (hworks : ∀ t ∈ machine.trace erased steps, FlashWorks t.before t.input) :
    HintAsTold (machine.trace erased steps) (machine.run erased steps) :=
  machine.trace_history (J := HintAsTold) (G := fun _ s i => FlashWorks s i)
    (fun _ _ _ hG h => h.next hG) hintAsTold_erased
    fun _ t _ hsplit => hworks t (by rw [hsplit]; simp)

/-! ## Why the portal is asked for -/

/-- The failures of the running task, behind the last boot and the last connection. -/
def countChance (failed : Nat) : RadioEvent → Nat
  | .booted _ | .bootFailed | .connection (.connected _) => 0
  | .connection (.failed _) => failed + 1
  | .connection .noNetworks | .connection .fallBack | .inRange | .forced | .nothing => failed

def failedInBoot (ts : List RadioTransition) : Nat :=
  (ts.map fun t => t.output.event).foldl countChance 0

/-- The task counts the failures of its boot. -/
def Counts (ts : List RadioTransition) (s : RadioDevice) : Prop :=
  ∀ idx fails, s.radio = .station idx fails → fails = failedInBoot ts

theorem failedInBoot_concat (ts : List RadioTransition) (t : RadioTransition) :
    failedInBoot (ts ++ [t]) = countChance (failedInBoot ts) t.output.event := by
  rw [failedInBoot, List.map_append, List.foldl_append]
  rfl

theorem fails_round (s : ConnectionTask) (r : ConnectRound) :
    (s.round r).1.fails = countChance s.fails (.connection (s.round r).2) := by
  obtain ⟨-, h⟩ | ⟨_, _, h⟩ | ⟨_, _, h⟩ | ⟨-, -, h⟩ := s.round_cases r <;> rw [h] <;> rfl

theorem Counts.next {ts : List RadioTransition} {s : RadioDevice} (h : Counts ts s)
    (i : RadioStep) : Counts (ts ++ [machine.transition s i]) (machine.next s i) := by
  intro idx fails hradio
  rw [failedInBoot_concat]
  show fails = countChance (failedInBoot ts) (s.step i).2.event
  replace hradio : (s.step i).1.radio = .station idx fails := hradio
  cases i with
  | boot networks readable ok =>
      simp only [step] at hradio ⊢
      obtain hboot | ⟨kv, hboot⟩ := s.boot_cases networks readable ok <;> rw [hboot] at hradio ⊢
      · cases hradio
      · cases hmode : bootMode kv networks <;> rw [hmode] at hradio <;> cases hradio
        rfl
  | connect r =>
      simp only [step] at hradio ⊢
      cases hr : s.radio with
      | station idx' fails' =>
          rw [hr] at hradio
          cases hradio
          rw [← h idx' fails' hr]
          exact fails_round _ r
      | off | portal => rw [hr] at hradio; cases hr.symm.trans hradio
  | scan r =>
      simp only [step] at hradio ⊢
      split at hradio
      · rename_i hr
        rw [scan] at hradio
        split at hradio
        · cases hradio
        · cases hr.symm.trans hradio
      all_goals exact h idx fails hradio
  | forcePortal flash | store call hkey flash =>
      simp only [step] at hradio ⊢
      cases hr : s.radio with
      | off => rw [hr] at hradio; cases hr.symm.trans hradio
      | portal => rw [hr] at hradio; cases hradio
      | station idx' fails' =>
          rw [hr] at hradio
          cases hradio
          exact h idx fails hr

/-- The step gives up on a list of networks, behind three times as many failures as it has
networks. -/
def GivesUp (failed : Nat) (i : RadioStep) (event : RadioEvent) : Prop :=
  ∃ r, i = .connect r ∧ event = .connection .fallBack ∧ r.networks ≠ [] ∧
    r.networks.length * 3 ≤ failed

/-- Only a task that has given up and the console tell the hint of the portal. -/
theorem told_portal {s : RadioDevice} {i : RadioStep} {failed : Nat}
    (hcounts : ∀ idx fails, s.radio = .station idx fails → fails = failed)
    (htold : (s.step i).2.event.verdict = some .ap) :
    (s.step i).2.event = .forced ∨ GivesUp failed i (s.step i).2.event := by
  cases i with
  | boot networks readable ok =>
      simp only [step] at htold
      obtain hboot | ⟨kv, hboot⟩ := s.boot_cases networks readable ok <;> rw [hboot] at htold <;>
        cases htold
  | connect r =>
      cases hr : s.radio with
      | station idx fails =>
          simp only [step, hr, connect] at htold ⊢
          obtain ⟨-, h⟩ | ⟨_, _, h⟩ | ⟨_, _, h⟩ | ⟨hne, hfails, h⟩ :=
            ConnectionTask.round_cases ⟨idx, fails, s.kv, s.rebootRequested⟩ r <;>
            rw [h] at htold ⊢
          · cases htold
          · cases htold
          · cases htold
          · rw [hcounts idx fails hr] at hfails
            exact .inr ⟨r, rfl, rfl, hne, hfails⟩
      | off | portal => simp only [step, hr] at htold; cases htold
  | scan r =>
      simp only [step] at htold
      split at htold
      · rw [scan] at htold
        split at htold <;> cases htold
      all_goals cases htold
  | forcePortal flash =>
      cases hr : s.radio with
      | off => simp only [step, hr] at htold; cases htold
      | station | portal => exact .inl (by simp only [step, hr])
  | store call hkey flash => cases hr : s.radio <;> simp only [step, hr] at htold <;> cases htold

/-- **Boots.**  As long as the flash works, a device that is switched off and on boots, and into
the portal exactly when it has no network or was told of the portal last.  Whatever the flash
does, it is only told of the portal on the console, or when its task has failed three times as
often as its list has networks since the boot and the last connection. -/
theorem boots_as_told (steps : List RadioStep) (networks : List WifiCreds) (ok : Bool) :
    ((∀ t ∈ machine.trace erased steps, FlashWorks t.before t.input) →
      (machine.out (machine.run erased steps) (.boot networks true ok)).event =
        .booted (if networks = [] ∨ lastTold (machine.trace erased steps) = some .ap then .ap
          else .sta)) ∧
    ∀ pre t post, machine.trace erased steps = pre ++ t :: post →
      t.output.event.verdict = some .ap →
      t.output.event = .forced ∨ GivesUp (failedInBoot pre) t.input t.output.event := by
  constructor
  · intro hworks
    obtain ⟨hmirrors, hhint⟩ := hintAsTold_run hworks
    have hout := (boot_mirrors hmirrors networks ok).2.2
    show ((machine.run erased steps).boot networks true ok).2.event = _
    rw [hout, bootMode, hhint]
    cases lastTold (machine.trace erased steps) with
    | none => simp
    | some mode => simp
  · intro pre t post hsplit htold
    obtain ⟨hcounts, -⟩ := machine.trace_history_before (J := Counts) (G := fun _ _ _ => True)
      (fun _ _ i _ h => h.next i) (fun _ _ h => by cases h) (fun _ _ _ _ => trivial) hsplit
    have hmem : t ∈ machine.trace erased steps := by rw [hsplit]; simp
    rw [machine.eq_transition hmem] at htold ⊢
    exact told_portal hcounts htold

/-- A device that does not reach its only network boots into the portal. -/
theorem boots_as_told_unreachable :
    let home : WifiCreds := ⟨"home", "secret"⟩
    let fails : RadioStep := .connect ⟨[home], .connectFailed, .stored⟩
    (machine.out (machine.run erased [.boot [home] true true, fails, fails, fails, fails])
      (.boot [home] true true)).event = .booted .ap :=
  ((boots_as_told _ _ _).1 (by decide +kernel)).trans (by decide +kernel)

/-! ## Writes of the flash -/

/-- The step wrote the hint, whatever came of it. -/
def wroteHint (t : RadioTransition) : Bool :=
  t.output.event.verdict.isSome && t.output.stored.isSome

/-- The step asked for the portal. -/
def askedPortal (t : RadioTransition) : Bool := t.output.event.verdict = some .ap

/-- A boot read the portal back, against what the hint was told. -/
def portalReturned (t : RadioTransition) : Bool :=
  match t.input with
  | .boot _ _ _ => readBootMode t.before.kv = .sta && readBootMode t.after.kv = .ap
  | .connect _ | .scan _ | .forcePortal _ | .store _ _ _ => false

/-- The hint asks for the portal, as a number. -/
def portalHint (s : RadioDevice) : Nat := if readBootMode s.kv = .ap then 1 else 0

/-- A boot tells the hint nothing. -/
theorem verdict_boot (s : RadioDevice) (networks : List WifiCreds) (readable ok : Bool) :
    (s.boot networks readable ok).2.event.verdict = none := by
  obtain h | ⟨kv, h⟩ := s.boot_cases networks readable ok <;> rw [h] <;> rfl

/-- A step that writes the hint asks for the portal, or turns the hint back to the station. -/
theorem wroteHint_step (s : RadioDevice) (i : RadioStep) :
    (wroteHint (machine.transition s i)).toNat + portalHint (machine.next s i) ≤
      2 * (askedPortal (machine.transition s i)).toNat +
        (portalReturned (machine.transition s i)).toNat + portalHint s := by
  obtain ⟨networks, readable, ok, rfl⟩ | ⟨flash, htell⟩ | ⟨call, flash, hkey, hevent, -, hkv⟩ :=
    s.step_cases i
  · generalize hboot : s.boot networks readable ok = result
    have hverdict : result.2.event.verdict = none := by rw [← hboot]; exact s.verdict_boot ..
    show ((s.boot networks readable ok).2.event.verdict.isSome && _).toNat +
        portalHint (s.boot networks readable ok).1 ≤ _ +
          (decide (readBootMode s.kv = .sta) &&
            decide (readBootMode (s.boot networks readable ok).1.kv = .ap)).toNat + _
    rw [hboot, hverdict, portalHint, portalHint]
    cases readBootMode s.kv <;> cases readBootMode result.1.kv <;> simp
  · show ((s.step i).2.event.verdict.isSome && (s.step i).2.stored.isSome).toNat +
        (if readBootMode (s.step i).1.kv = .ap then 1 else 0) ≤
          2 * (decide ((s.step i).2.event.verdict = some .ap)).toNat + _ +
            if readBootMode s.kv = .ap then 1 else 0
    rw [show (s.step i).2.stored = _ from congrArg Prod.fst htell,
      show (s.step i).1.kv = _ from congrArg Prod.snd htell, isSome_tell, readBootMode_tell]
    cases (s.step i).2.event.verdict with
    | none => simp
    | some mode => cases mode <;> cases readBootMode s.kv <;> simp
  · show ((s.step i).2.event.verdict.isSome && _).toNat +
        (if readBootMode (s.step i).1.kv = .ap then 1 else 0) ≤ _ + _ +
          if readBootMode s.kv = .ap then 1 else 0
    rw [hkv, readBootMode_perform hkey, hevent, RadioEvent.verdict, Option.isSome_none,
      Bool.false_and, Bool.toNat_false, Nat.zero_add]
    exact Nat.le_add_left _ _

/-- **Wear.**  In every run of a device the hint is written at most twice for each time that the
portal is asked for, once for it and once for the way back, and once for each boot that reads the
portal back from the flash against what the hint was told.  As long as the flash works, there is
no such boot. -/
theorem hint_writes_le (s : RadioDevice) (steps : List RadioStep) :
    (machine.trace s steps).countP wroteHint ≤
      2 * (machine.trace s steps).countP askedPortal +
        (machine.trace s steps).countP portalReturned + portalHint s ∧
    (s.kv.Mirrors → (∀ t ∈ machine.trace s steps, FlashWorks t.before t.input) →
      (machine.trace s steps).countP portalReturned = 0) := by
  constructor
  · induction steps generalizing s with
    | nil => exact Nat.zero_le _
    | cons i steps ih =>
        have hstep := s.wroteHint_step i
        have hrest := ih (machine.next s i)
        simp only [Machine.trace_cons, List.countP_cons]
        simp only [Bool.toNat] at hstep
        grind
  · intro hmirrors hworks
    rw [List.countP_eq_zero]
    intro t ht hreturned
    obtain ⟨hbefore, hreadable, -⟩ := machine.trace_invariant (P := fun s => s.kv.Mirrors)
      (G := FlashWorks) (fun _ _ hG h => mirrors_step h hG) hmirrors hworks ht
    rw [machine.eq_transition ht] at hreturned
    cases hi : t.input with
    | boot networks readable ok =>
        rw [hi] at hreturned hreadable
        rw [show readable = true from hreadable] at hreturned
        obtain ⟨-, hread, -⟩ := boot_mirrors hbefore networks ok
        replace hreturned : (decide (readBootMode t.before.kv = .sta) &&
            decide (readBootMode (t.before.boot networks true ok).1.kv = .ap)) = true := hreturned
        rw [hread] at hreturned
        cases hmode : readBootMode t.before.kv <;> rw [hmode] at hreturned <;> cases hreturned
    | connect | scan | forcePortal | store => rw [hi] at hreturned; cases hreturned

/-- The network is back while the portal runs, and the hint is turned back. -/
theorem hint_writes_le_back :
    let home : WifiCreds := ⟨"home", "secret"⟩
    let fails : RadioStep := .connect ⟨[home], .connectFailed, .stored⟩
    let ts := machine.trace erased [.boot [home] true true, fails, fails, fails, fails,
      .boot [home] true true, .scan ⟨[home], some ["home"], .stored⟩, .boot [home] true true]
    ts.countP wroteHint = 2 ∧ ts.countP askedPortal = 1 ∧ ts.countP portalReturned = 0 :=
  ⟨by decide +kernel, by decide +kernel,
    (hint_writes_le erased _).2 (FlashKv.mirrors_of_boot FlashKv.boot_erased)
      (by decide +kernel)⟩

end RadioDevice

end WaterController
