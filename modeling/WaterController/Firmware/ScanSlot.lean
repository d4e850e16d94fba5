import Mathlib.Logic.Function.Basic
import Mathlib.Tactic.Common
import WaterController.Library.Machine

/-!
# The slot for a scan

A caller of `scan` leaves the sender of a fresh channel in the slot of the supervisor
and waits for 20 s.  The supervisor takes the sender, scans, and sends the result.  A
caller whose wait fails empties the slot, whatever lies there.

As long as the supervisor has not taken its request, that is the caller's own sender.
Behind that it may be the one of a later caller, whose wait then fails at once, for
nothing is left that could send to it (`never_cancelled_iff`).
-/

namespace WaterController

open Machines (Machine Transition)

/-! ## What a scan finds -/

inductive AuthMethod where
  | none
  | wep
  | wpa
  | wpa2Personal
  | wpaWpa2Personal
  | wpa2Enterprise
  | wpa3Personal
  | wpa2Wpa3Personal
  | wapiPersonal
deriving DecidableEq, Repr

/-- What the driver says about an access point. -/
structure AccessPointInfo where
  ssid : String
  signalStrength : Int8
  authMethod : Option AuthMethod
  channel : UInt8
deriving DecidableEq

structure WifiScanResult where
  ssid : String
  rssiDbm : Int8
  auth : String
  channel : UInt8
deriving DecidableEq

/-- The result of a scan, or what went wrong. -/
abbrev ScanReply := Except String (List WifiScanResult)

def authLabel : Option AuthMethod → String
  | none => "unknown"
  | some .none => "open"
  | some .wep => "wep"
  | some .wpa => "wpa"
  | some .wpa2Personal => "wpa2"
  | some .wpaWpa2Personal => "wpa2"
  | some .wpa2Enterprise => "wpa2-ent"
  | some .wpa3Personal => "wpa3"
  | some .wpa2Wpa3Personal => "wpa3"
  | some _ => "unknown"

/-- What `serve_scan_request` makes of what the driver returns. -/
def scanReply : Except String (List AccessPointInfo) → ScanReply
  | .ok aps => .ok (aps.map fun ap =>
      ⟨ap.ssid, ap.signalStrength, authLabel ap.authMethod, ap.channel⟩)
  | .error e => .error ("scan failed: " ++ e)

/-! ## The slot, its callers and the supervisor -/

/-- Where a call of `scan` is. -/
inductive ScanCall where
  | start
  /-- Its sender was left in the slot, and this came in since. -/
  | waiting (since : Nat) (received : Option ScanReply)
  /-- `recv_timeout` failed. -/
  | gaveUp
  | returned (reply : ScanReply)

/-- The time in milliseconds, whose sender lies in the slot, whose the supervisor has
taken, and where the calls are. -/
structure ScanSlot (Caller : Type*) where
  now : Nat
  scanRequest : Option Caller
  scanning : Option Caller
  calls : Caller → ScanCall

/-- What happens under one lock, on the channel, or in the driver. -/
inductive ScanStep (Caller : Type*) where
  | elapse (ms : Nat)
  | request (caller : Caller)
  | take
  | finish (result : Except String (List AccessPointInfo))
  | receive (caller : Caller)
  | giveUp (caller : Caller)
  | clear (caller : Caller)

/-- The timeout of `recv_timeout`, in milliseconds. -/
def scanTimeoutMs : Nat := 20000

namespace ScanSlot

variable {Caller : Type*}

/-- Before the first call. -/
def init : ScanSlot Caller := ⟨0, none, none, fun _ => .start⟩

/-- A call waits for its result. -/
def Waiting (s : ScanSlot Caller) (caller : Caller) : Prop :=
  ∃ since received, s.calls caller = .waiting since received

section Steps

variable [DecidableEq Caller]

def setCall (s : ScanSlot Caller) (caller : Caller) (call : ScanCall) : ScanSlot Caller :=
  { s with calls := Function.update s.calls caller call }

@[simp] theorem setCall_now (s : ScanSlot Caller) (caller : Caller) (call : ScanCall) :
    (s.setCall caller call).now = s.now := rfl

@[simp] theorem setCall_scanRequest (s : ScanSlot Caller) (caller : Caller) (call : ScanCall) :
    (s.setCall caller call).scanRequest = s.scanRequest := rfl

@[simp] theorem setCall_scanning (s : ScanSlot Caller) (caller : Caller) (call : ScanCall) :
    (s.setCall caller call).scanning = s.scanning := rfl

@[simp] theorem setCall_calls (s : ScanSlot Caller) (caller other : Caller) (call : ScanCall) :
    (s.setCall caller call).calls other = if other = caller then call else s.calls other :=
  Function.update_apply s.calls caller call other

/-- The first half of `scan`. -/
def request (s : ScanSlot Caller) (caller : Caller) : ScanSlot Caller :=
  match s.calls caller with
  | .start =>
      if s.scanRequest.isSome then s.setCall caller (.returned (.error "scan already in flight"))
      else { s.setCall caller (.waiting s.now none) with scanRequest := some caller }
  | _ => s

/-- The supervisor takes what lies in the slot. -/
def take (s : ScanSlot Caller) : ScanSlot Caller :=
  match s.scanning, s.scanRequest with
  | none, some caller => { s with scanRequest := none, scanning := some caller }
  | _, _ => s

/-- The driver returns, and the result is sent.  A caller that has given up does not see
it. -/
def finish (s : ScanSlot Caller) (result : Except String (List AccessPointInfo)) :
    ScanSlot Caller :=
  match s.scanning with
  | none => s
  | some caller =>
      let s := { s with scanning := none }
      match s.calls caller with
      | .waiting since none => s.setCall caller (.waiting since (some (scanReply result)))
      | _ => s

/-- The wait of a caller ends with a result. -/
def receive (s : ScanSlot Caller) (caller : Caller) : ScanSlot Caller :=
  match s.calls caller with
  | .waiting _ (some reply) => s.setCall caller (.returned reply)
  | _ => s

/-- The wait of a caller ends without one: it is too long, or the sender was dropped. -/
def giveUp (s : ScanSlot Caller) (caller : Caller) : ScanSlot Caller :=
  match s.calls caller with
  | .waiting since none =>
      if since + scanTimeoutMs ≤ s.now ∨
          s.scanRequest ≠ some caller ∧ s.scanning ≠ some caller then
        s.setCall caller .gaveUp
      else s
  | _ => s

/-- The last half of `scan` behind a wait that failed. -/
def clear (s : ScanSlot Caller) (caller : Caller) : ScanSlot Caller :=
  match s.calls caller with
  | .gaveUp => { s.setCall caller (.returned (.error "scan timed out")) with scanRequest := none }
  | _ => s

/-- The callers and the supervisor, in any order.  A step that cannot be taken changes
nothing. -/
def machine : Machine (ScanSlot Caller) (ScanStep Caller) Unit where
  step s
    | .elapse ms => ({ s with now := s.now + ms }, ())
    | .request caller => (s.request caller, ())
    | .take => (s.take, ())
    | .finish result => (s.finish result, ())
    | .receive caller => (s.receive caller, ())
    | .giveUp caller => (s.giveUp caller, ())
    | .clear caller => (s.clear caller, ())

/-- What a step can do. -/
inductive Does (s : ScanSlot Caller) : ScanStep Caller → ScanSlot Caller → Prop where
  | idle (step : ScanStep Caller) : Does s step s
  | elapsed (ms : Nat) : Does s (.elapse ms) { s with now := s.now + ms }
  | rejected {caller other : Caller} (hcall : s.calls caller = .start)
      (hslot : s.scanRequest = some other) :
      Does s (.request caller) (s.setCall caller (.returned (.error "scan already in flight")))
  | accepted {caller : Caller} (hcall : s.calls caller = .start) (hslot : s.scanRequest = none) :
      Does s (.request caller)
        { s.setCall caller (.waiting s.now none) with scanRequest := some caller }
  | taken {caller : Caller} (hslot : s.scanRequest = some caller) (hscanning : s.scanning = none) :
      Does s .take { s with scanRequest := none, scanning := some caller }
  | sent {caller : Caller} {since : Nat} (result : Except String (List AccessPointInfo))
      (hscanning : s.scanning = some caller) (hcall : s.calls caller = .waiting since none) :
      Does s (.finish result)
        ({ s with scanning := none }.setCall caller (.waiting since (some (scanReply result))))
  | dropped {caller : Caller} (result : Except String (List AccessPointInfo))
      (hscanning : s.scanning = some caller)
      (hcall : ∀ since, s.calls caller ≠ .waiting since none) :
      Does s (.finish result) { s with scanning := none }
  | received {caller : Caller} {since : Nat} {reply : ScanReply}
      (hcall : s.calls caller = .waiting since (some reply)) :
      Does s (.receive caller) (s.setCall caller (.returned reply))
  | gaveUp {caller : Caller} {since : Nat} (hcall : s.calls caller = .waiting since none)
      (hlost : since + scanTimeoutMs ≤ s.now ∨
        s.scanRequest ≠ some caller ∧ s.scanning ≠ some caller) :
      Does s (.giveUp caller) (s.setCall caller .gaveUp)
  | cleared {caller : Caller} (hcall : s.calls caller = .gaveUp) :
      Does s (.clear caller)
        { s.setCall caller (.returned (.error "scan timed out")) with scanRequest := none }

theorem does_next (s : ScanSlot Caller) (step : ScanStep Caller) :
    Does s step (machine.next s step) := by
  cases step with
  | elapse ms => exact .elapsed ms
  | request caller =>
      show Does s _ (s.request caller)
      cases hcall : s.calls caller with
      | start =>
          cases hslot : s.scanRequest with
          | none => simpa [request, hcall, hslot] using Does.accepted hcall hslot
          | some other => simpa [request, hcall, hslot] using Does.rejected hcall hslot
      | waiting | gaveUp | returned => simpa [request, hcall] using Does.idle _
  | take =>
      show Does s _ s.take
      cases hscanning : s.scanning with
      | some other => simpa [take, hscanning] using Does.idle _
      | none =>
          cases hslot : s.scanRequest with
          | none => simpa [take, hscanning, hslot] using Does.idle _
          | some caller => simpa [take, hscanning, hslot] using Does.taken hslot hscanning
  | finish result =>
      show Does s _ (s.finish result)
      cases hscanning : s.scanning with
      | none => simpa [finish, hscanning] using Does.idle _
      | some caller =>
          cases hcall : s.calls caller with
          | start | gaveUp | returned =>
              simpa [finish, hscanning, hcall] using
                Does.dropped result hscanning (by simp [hcall])
          | waiting since received =>
              cases received with
              | none => simpa [finish, hscanning, hcall] using Does.sent result hscanning hcall
              | some reply =>
                  simpa [finish, hscanning, hcall] using
                    Does.dropped result hscanning (by simp [hcall])
  | receive caller =>
      show Does s _ (s.receive caller)
      cases hcall : s.calls caller with
      | start | gaveUp | returned => simpa [receive, hcall] using Does.idle _
      | waiting since received =>
          cases received with
          | none => simpa [receive, hcall] using Does.idle _
          | some reply => simpa [receive, hcall] using Does.received hcall
  | giveUp caller =>
      show Does s _ (s.giveUp caller)
      cases hcall : s.calls caller with
      | start | gaveUp | returned => simpa [giveUp, hcall] using Does.idle _
      | waiting since received =>
          cases received with
          | some reply => simpa [giveUp, hcall] using Does.idle _
          | none =>
              simp only [giveUp, hcall]
              split_ifs with hlost
              · exact .gaveUp hcall hlost
              · exact .idle _
  | clear caller =>
      show Does s _ (s.clear caller)
      cases hcall : s.calls caller with
      | start | waiting | returned => simpa [clear, hcall] using Does.idle _
      | gaveUp => simpa [clear, hcall] using Does.cleared hcall

end Steps

/-! ## What the slot goes by -/

section History

variable (h : List (Transition (ScanSlot Caller) (ScanStep Caller) Unit))

/-- The supervisor took the request of a caller. -/
def Taken (caller : Caller) : Prop :=
  ∃ t ∈ h, t.input = .take ∧ t.before.scanRequest = some caller ∧ t.after.scanning = some caller

/-- A scan for a caller had this result. -/
def Scanned (caller : Caller) (reply : ScanReply) : Prop :=
  ∃ t ∈ h, t.before.scanning = some caller ∧
    ∃ result, t.input = .finish result ∧ reply = scanReply result

/-- What holds in every run. -/
structure Owned (s : ScanSlot Caller) : Prop where
  slot : ∀ caller, s.scanRequest = some caller → ¬ Taken h caller ∧ s.calls caller ≠ .start
  scanning : ∀ caller, s.scanning = some caller → Taken h caller
  taken : ∀ caller, Taken h caller → s.calls caller ≠ .start
  scanned : ∀ caller since reply, s.calls caller = .waiting since (some reply) →
    Scanned h caller reply

/-- What holds as well where no caller clears the slot too late. -/
structure Served (s : ScanSlot Caller) : Prop extends Owned h s where
  waiting : ∀ caller since, s.calls caller = .waiting since none →
    s.scanRequest = some caller ∨ s.scanning = some caller
  gaveUp : ∀ caller, s.calls caller = .gaveUp → s.scanRequest = some caller ∨ Taken h caller

variable {h} {s s' : ScanSlot Caller} {step : ScanStep Caller} {caller : Caller}

theorem taken_concat :
    Taken (h ++ [⟨s, step, s', ()⟩]) caller ↔
      Taken h caller ∨
        step = .take ∧ s.scanRequest = some caller ∧ s'.scanning = some caller := by
  simp only [Taken, List.mem_append, List.mem_singleton, or_and_right, exists_or, exists_eq_left]

theorem taken_concat_of_ne (hstep : step ≠ .take) :
    Taken (h ++ [⟨s, step, s', ()⟩]) caller ↔ Taken h caller := by
  rw [taken_concat, or_iff_left fun hnew => hstep hnew.1]

theorem Scanned.concat {reply : ScanReply} (hscanned : Scanned h caller reply)
    (t : Transition (ScanSlot Caller) (ScanStep Caller) Unit) :
    Scanned (h ++ [t]) caller reply := by
  obtain ⟨t', hmem, hrest⟩ := hscanned
  exact ⟨t', List.mem_append_left _ hmem, hrest⟩

theorem not_taken_nil : ¬ Taken [] caller := fun ⟨_, hmem, _⟩ => List.not_mem_nil hmem

theorem served_init : Served [] (init : ScanSlot Caller) where
  slot _ hslot := nomatch hslot
  scanning _ hscanning := nomatch hscanning
  taken _ htaken := absurd htaken not_taken_nil
  scanned _ _ _ hcall := nomatch hcall
  waiting _ _ hcall := nomatch hcall
  gaveUp _ hcall := nomatch hcall

/-- A step by which nothing is taken from the slot. -/
theorem Owned.frame (ho : Owned h s)
    (htaken : ∀ c, Taken (h ++ [⟨s, step, s', ()⟩]) c ↔ Taken h c)
    (hslot : ∀ c, s'.scanRequest = some c →
      s.scanRequest = some c ∨ s.calls c = .start ∧ s'.calls c ≠ .start)
    (hscanning : ∀ c, s'.scanning = some c → s.scanning = some c)
    (hcalls : ∀ c, s'.calls c = .start → s.calls c = .start)
    (hreply : ∀ c since reply, s'.calls c = .waiting since (some reply) →
      s.calls c = .waiting since (some reply) ∨
        Scanned (h ++ [⟨s, step, s', ()⟩]) c reply) :
    Owned (h ++ [⟨s, step, s', ()⟩]) s' where
  slot c hc := by
    rw [htaken]
    rcases hslot c hc with hbefore | ⟨hstart, hstarted⟩
    · obtain ⟨hnot, hstarted⟩ := ho.slot c hbefore
      exact ⟨hnot, fun hstart => hstarted (hcalls c hstart)⟩
    · exact ⟨fun htaken => ho.taken c htaken hstart, hstarted⟩
  scanning c hc := (htaken c).mpr (ho.scanning c (hscanning c hc))
  taken c hc hstart := ho.taken c ((htaken c).mp hc) (hcalls c hstart)
  scanned c since reply hcall := by
    rcases hreply c since reply hcall with hbefore | hnew
    · exact (ho.scanned c since reply hbefore).concat _
    · exact hnew

/-- A caller that clears the slot in time finds no request there but its own. -/
theorem Served.slot_of_clear (hs : Served h s)
    (hclear : s.calls caller = .gaveUp → Taken h caller → s.scanRequest = none)
    (hcall : s.calls caller = .gaveUp) {c : Caller} (hslot : s.scanRequest = some c) :
    c = caller := by
  rcases hs.gaveUp caller hcall with hown | htaken
  · exact Option.some_inj.mp (hslot.symm.trans hown)
  · exact nomatch hslot.symm.trans (hclear hcall htaken)

variable [DecidableEq Caller]

/-- A step by which one call goes on. -/
theorem Owned.frame_call (ho : Owned h s) (hstep : step ≠ .take) {call : ScanCall}
    (hcalls : s'.calls = Function.update s.calls caller call) (hcall : call ≠ .start)
    (hslot : ∀ c, s'.scanRequest = some c →
      s.scanRequest = some c ∨ c = caller ∧ s.calls caller = .start)
    (hscanning : ∀ c, s'.scanning = some c → s.scanning = some c)
    (hreply : ∀ since reply, call = .waiting since (some reply) →
      Scanned (h ++ [⟨s, step, s', ()⟩]) caller reply) :
    Owned (h ++ [⟨s, step, s', ()⟩]) s' := by
  have hself : s'.calls caller = call := by rw [hcalls, Function.update_self]
  have hother {c : Caller} (hne : c ≠ caller) : s'.calls c = s.calls c := by
    rw [hcalls, Function.update_of_ne hne]
  refine ho.frame (fun c => taken_concat_of_ne hstep) (fun c hc => ?_) hscanning
    (fun c hstart => ?_) (fun c since reply hwaiting => ?_)
  · rcases hslot c hc with hbefore | ⟨rfl, hstart⟩
    · exact .inl hbefore
    · exact .inr ⟨hstart, hself.trans_ne hcall⟩
  · rcases eq_or_ne c caller with rfl | hne
    · exact absurd (hself.symm.trans hstart) hcall
    · exact (hother hne).symm.trans hstart
  · rcases eq_or_ne c caller with rfl | hne
    · exact .inr (hreply since reply (hself.symm.trans hwaiting))
    · exact .inl ((hother hne).symm.trans hwaiting)

theorem Owned.does (ho : Owned h s) (hdoes : Does s step s') :
    Owned (h ++ [⟨s, step, s', ()⟩]) s' := by
  cases hdoes with
  | idle step =>
      refine ho.frame (fun c => ?_) (fun c hc => .inl hc) (fun c hc => hc) (fun c hc => hc)
        (fun c since reply hc => .inl hc)
      rw [taken_concat, or_iff_left]
      rintro ⟨-, hslot, hscanning⟩
      exact (ho.slot c hslot).1 (ho.scanning c hscanning)
  | elapsed ms =>
      exact ho.frame (fun c => taken_concat_of_ne (by simp)) (fun c hc => .inl hc)
        (fun c hc => hc) (fun c hc => hc) (fun c since reply hc => .inl hc)
  | rejected hcall hslot =>
      exact ho.frame_call (by simp) rfl (by simp) (fun c hc => .inl hc) (fun c hc => hc)
        (fun _ _ hwaiting => nomatch hwaiting)
  | accepted hcall hslot =>
      refine ho.frame_call (by simp) rfl (by simp) (fun c hc => ?_) (fun c hc => hc)
        (fun _ _ hwaiting => nomatch hwaiting)
      cases hc
      exact .inr ⟨rfl, hcall⟩
  | @taken caller hslot hscanning =>
      have htaken {c : Caller} (hc : Taken (h ++ [⟨s, .take, { s with
          scanRequest := none, scanning := some caller }, ()⟩]) c) : Taken h c ∨ c = caller := by
        rcases taken_concat.mp hc with hold | ⟨-, hnew, -⟩
        · exact .inl hold
        · exact .inr (Option.some_inj.mp (hnew.symm.trans hslot))
      refine ⟨fun c hc => (nomatch hc), fun c hc => ?_, fun c hc => ?_,
        fun c since reply hwaiting => (ho.scanned c since reply hwaiting).concat _⟩
      · cases hc
        exact taken_concat.mpr (.inr ⟨rfl, hslot, rfl⟩)
      · rcases htaken hc with hold | rfl
        · exact ho.taken c hold
        · exact (ho.slot c hslot).2
  | sent result hscanning hcall =>
      refine ho.frame_call (by simp) rfl (by simp) (fun c hc => .inl hc)
        (fun c hc => nomatch hc) (fun since reply hwaiting => ?_)
      cases hwaiting
      exact ⟨_, List.mem_append_right _ List.mem_cons_self, hscanning, result, rfl, rfl⟩
  | dropped result hscanning hcall =>
      exact ho.frame (fun c => taken_concat_of_ne (by simp)) (fun c hc => .inl hc)
        (fun c hc => nomatch hc) (fun c hc => hc) (fun c since reply hc => .inl hc)
  | received hcall =>
      exact ho.frame_call (by simp) rfl (by simp) (fun c hc => .inl hc) (fun c hc => hc)
        (fun _ _ hwaiting => nomatch hwaiting)
  | gaveUp hcall hlost =>
      exact ho.frame_call (by simp) rfl (by simp) (fun c hc => .inl hc) (fun c hc => hc)
        (fun _ _ hwaiting => nomatch hwaiting)
  | cleared hcall =>
      exact ho.frame_call (by simp) rfl (by simp) (fun c hc => nomatch hc) (fun c hc => hc)
        (fun _ _ hwaiting => nomatch hwaiting)

/-- A step by which one call goes on, and the requests of the others stay where they are. -/
theorem Served.frame_call (hs : Served h s) (howned : Owned (h ++ [⟨s, step, s', ()⟩]) s')
    {call : ScanCall} (hcalls : s'.calls = Function.update s.calls caller call)
    (hslot : ∀ c, c ≠ caller → s.scanRequest = some c → s'.scanRequest = some c)
    (hscanning : ∀ c, c ≠ caller → s.scanning = some c → s'.scanning = some c)
    (hwaiting : ∀ since, call = .waiting since none →
      s'.scanRequest = some caller ∨ s'.scanning = some caller)
    (hgave : call = .gaveUp → s'.scanRequest = some caller ∨ Taken h caller) :
    Served (h ++ [⟨s, step, s', ()⟩]) s' := by
  have hself : s'.calls caller = call := by rw [hcalls, Function.update_self]
  have hother {c : Caller} (hne : c ≠ caller) : s'.calls c = s.calls c := by
    rw [hcalls, Function.update_of_ne hne]
  refine ⟨howned, fun c since hc => ?_, fun c hc => ?_⟩
  · rcases eq_or_ne c caller with rfl | hne
    · exact hwaiting since (hself.symm.trans hc)
    · exact (hs.waiting c since ((hother hne).symm.trans hc)).imp (hslot c hne) (hscanning c hne)
  · have htaken (hold : Taken h c) : Taken (h ++ [⟨s, step, s', ()⟩]) c :=
      taken_concat.mpr (.inl hold)
    rcases eq_or_ne c caller with rfl | hne
    · exact (hgave (hself.symm.trans hc)).imp id htaken
    · exact (hs.gaveUp c ((hother hne).symm.trans hc)).imp (hslot c hne) htaken

/-- The step that a caller takes too late is the only one by which a request is lost. -/
theorem Served.does (hs : Served h s) (hdoes : Does s step s')
    (hclear : ∀ c, step = .clear c → s.calls c = .gaveUp → Taken h c → s.scanRequest = none) :
    Served (h ++ [⟨s, step, s', ()⟩]) s' := by
  have howned := hs.toOwned.does hdoes
  have htaken {c : Caller} (hold : Taken h c) : Taken (h ++ [⟨s, step, s', ()⟩]) c :=
    taken_concat.mpr (.inl hold)
  cases hdoes with
  | idle | elapsed =>
      exact ⟨howned, hs.waiting, fun c hgave => (hs.gaveUp c hgave).imp id htaken⟩
  | rejected hcall hslot | received hcall =>
      exact hs.frame_call howned rfl (fun c _ hc => hc) (fun c _ hc => hc) (by simp) (by simp)
  | accepted hcall hslot =>
      refine hs.frame_call howned rfl (fun c _ hc => ?_) (fun c _ hc => hc)
        (fun _ _ => .inl rfl) (by simp)
      exact nomatch hslot.symm.trans hc
  | taken hslot hscanning =>
      refine ⟨howned, fun c since hwaiting => ?_, fun c hgave => ?_⟩
      · rcases hs.waiting c since hwaiting with hold | hold
        · exact .inr (hslot.symm.trans hold)
        · exact nomatch hscanning.symm.trans hold
      · rcases hs.gaveUp c hgave with hold | hold
        · exact .inr (taken_concat.mpr (.inr ⟨rfl, hold, hslot.symm.trans hold⟩))
        · exact .inr (htaken hold)
  | sent result hscanning hcall =>
      refine hs.frame_call howned rfl (fun c _ hc => hc) (fun c hne hc => ?_) (by simp) (by simp)
      exact absurd (Option.some_inj.mp (hc.symm.trans hscanning)) hne
  | dropped result hscanning hcall =>
      refine ⟨howned, fun c since hwaiting => ?_, fun c hgave => (hs.gaveUp c hgave).imp id htaken⟩
      rcases hs.waiting c since hwaiting with hold | hold
      · exact .inl hold
      · -- the receiver is gone, so the call does not wait any more
        cases hscanning.symm.trans hold
        exact absurd hwaiting (hcall since)
  | @gaveUp caller since hcall hlost =>
      refine hs.frame_call howned rfl (fun c _ hc => hc) (fun c _ hc => hc) (by simp) fun _ => ?_
      exact (hs.waiting caller since hcall).imp id (hs.scanning caller)
  | cleared hcall =>
      refine hs.frame_call howned rfl (fun c hne hc => ?_) (fun c _ hc => hc) (by simp) (by simp)
      exact absurd (hs.slot_of_clear (hclear _ rfl) hcall hc) hne

/-- Where no caller is too late, a request leaves the slot to the supervisor or with its own
caller. -/
theorem Served.removed (hs : Served h s) (hdoes : Does s step s')
    (hclear : ∀ c, step = .clear c → s.calls c = .gaveUp → Taken h c → s.scanRequest = none)
    (hslot : s.scanRequest = some caller) :
    s'.scanRequest = some caller ∨ step = .take ∨ step = .clear caller := by
  cases hdoes with
  | idle | elapsed | rejected | sent | dropped | received | gaveUp => exact .inl hslot
  | accepted hcall hempty => exact nomatch hempty.symm.trans hslot
  | taken => exact .inr (.inl rfl)
  | cleared hcall =>
      rw [hs.slot_of_clear (hclear _ rfl) hcall hslot]
      exact .inr (.inr rfl)

/-- There a wait ends with a result for this caller or at the timeout: until then its sender
lies in the slot or is with the supervisor. -/
theorem Served.ended (hs : Served h s) (hdoes : Does s step s') {since : Nat}
    {received : Option ScanReply} (hcall : s.calls caller = .waiting since received) :
    s'.Waiting caller ∨ (∃ reply, Scanned h caller reply ∧ s'.calls caller = .returned reply) ∨
      since + scanTimeoutMs ≤ s.now ∧ s'.calls caller = .gaveUp := by
  have hother {c : Caller} {call : ScanCall} (hne : caller ≠ c) :
      (s.setCall c call).Waiting caller := ⟨since, received, by simpa [hne] using hcall⟩
  cases hdoes with
  | idle | elapsed | taken | dropped => exact .inl ⟨since, received, hcall⟩
  | @rejected c _ hstart | @accepted c hstart =>
      refine .inl (hother ?_)
      rintro rfl
      exact nomatch hcall.symm.trans hstart
  | @sent c since' result =>
      rcases eq_or_ne caller c with rfl | hne
      · exact .inl ⟨since', some (scanReply result), by simp⟩
      · exact .inl (hother hne)
  | @received c _ reply hreply =>
      rcases eq_or_ne caller c with rfl | hne
      · exact .inr (.inl ⟨reply, hs.scanned caller _ reply hreply, by simp⟩)
      · exact .inl (hother hne)
  | @gaveUp c since' hwaits hlost =>
      rcases eq_or_ne caller c with rfl | hne
      · cases hcall.symm.trans hwaits
        rcases hlost with hlate | ⟨hslot, hscanning⟩
        · exact .inr (.inr ⟨hlate, by simp⟩)
        · rcases hs.waiting caller since hwaits with hin | hin
          · exact absurd hin hslot
          · exact absurd hin hscanning
      · exact .inl (hother hne)
  | @cleared c hgave =>
      refine .inl (hother ?_)
      rintro rfl
      exact nomatch hcall.symm.trans hgave

/-- At the timeout a wait can end. -/
theorem wait_ends {since : Nat} {received : Option ScanReply}
    (hcall : s.calls caller = .waiting since received) (hlate : since + scanTimeoutMs ≤ s.now) :
    ∃ step ∈ [ScanStep.receive caller, .giveUp caller],
      ¬ (machine.next s step).Waiting caller := by
  cases received with
  | none =>
      refine ⟨.giveUp caller, by simp, ?_⟩
      show ¬ (s.giveUp caller).Waiting caller
      simp [giveUp, hcall, hlate, Waiting]
  | some reply =>
      refine ⟨.receive caller, by simp, ?_⟩
      show ¬ (s.receive caller).Waiting caller
      simp [receive, hcall, Waiting]

end History

/-! ## Runs -/

section Runs

variable [DecidableEq Caller]

/-- No caller cancels another.  A request leaves the slot to the supervisor or with its own
caller.  A wait ends with the result of a scan for this caller or at the timeout, and at
the timeout it can end. -/
structure NeverCancelled (ts : List (Transition (ScanSlot Caller) (ScanStep Caller) Unit)) :
    Prop where
  removed : ∀ t ∈ ts, ∀ caller, t.before.scanRequest = some caller →
    t.after.scanRequest = some caller ∨ t.input = .take ∨ t.input = .clear caller
  ended : ∀ pre t post, ts = pre ++ t :: post → ∀ caller since received,
    t.before.calls caller = .waiting since received →
      t.after.Waiting caller ∨
      (∃ reply, Scanned pre caller reply ∧ t.after.calls caller = .returned reply) ∨
      since + scanTimeoutMs ≤ t.before.now ∧ t.after.calls caller = .gaveUp
  ends : ∀ t ∈ ts, ∀ caller since received, t.before.calls caller = .waiting since received →
    since + scanTimeoutMs ≤ t.before.now →
      ∃ step ∈ [ScanStep.receive caller, .giveUp caller],
        ¬ (machine.next t.before step).Waiting caller

/-- A caller whose request the supervisor has taken empties the slot only if nothing lies
there. -/
def NoLateClear (ts : List (Transition (ScanSlot Caller) (ScanStep Caller) Unit)) : Prop :=
  ∀ pre t post, ts = pre ++ t :: post → ∀ caller, t.input = .clear caller →
    t.before.calls caller = .gaveUp → Taken pre caller → t.before.scanRequest = none

/-- **Scans.**  No caller cancels another just if none whose request the supervisor has
taken empties the slot behind a later one. -/
theorem never_cancelled_iff (steps : List (ScanStep Caller)) :
    NeverCancelled (machine.trace (init : ScanSlot Caller) steps) ↔
      NoLateClear (machine.trace (init : ScanSlot Caller) steps) := by
  constructor
  · intro hnever pre t post hsplit caller hinput hgave htaken
    have hmem : t ∈ machine.trace (init : ScanSlot Caller) steps := by rw [hsplit]; simp
    obtain ⟨howned, -⟩ := machine.trace_history_before (J := Owned) (G := fun _ _ _ => True)
      (fun h s i _ ho => ho.does (does_next s i)) served_init.toOwned
      (fun _ _ _ _ => trivial) hsplit
    have hafter : t.after.scanRequest = none := by
      rw [machine.eq_transition hmem, hinput]
      show (t.before.clear caller).scanRequest = none
      rw [clear, hgave]
    rcases hslot : t.before.scanRequest with _ | other
    · rfl
    · rcases hnever.removed t hmem other hslot with hkept | htake | hown
      · exact nomatch hafter.symm.trans hkept
      · exact nomatch hinput.symm.trans htake
      · cases hinput.symm.trans hown
        exact absurd htaken (howned.slot _ hslot).1
  · intro hclear
    have hserved {pre post t} (hsplit : machine.trace init steps = pre ++ t :: post) :=
      machine.trace_history_before (J := Served) (G := fun h s i => ∀ c, i = .clear c →
          s.calls c = .gaveUp → Taken h c → s.scanRequest = none)
        (fun h s i hG hs => hs.does (does_next s i) hG) served_init hclear hsplit
    refine ⟨fun t ht caller hslot => ?_, fun pre t post hsplit caller since received hcall => ?_,
      fun t _ caller since received hcall hlate => wait_ends hcall hlate⟩
    · obtain ⟨pre, post, hsplit⟩ := List.append_of_mem ht
      obtain ⟨hs, hG⟩ := hserved hsplit
      rw [machine.eq_transition ht]
      exact hs.removed (does_next t.before t.input) hG hslot
    · have hmem : t ∈ machine.trace (init : ScanSlot Caller) steps := by rw [hsplit]; simp
      rw [machine.eq_transition hmem]
      exact (hserved hsplit).1.ended (does_next t.before t.input) hcall

/-- The supervisor takes the request of 0 and scans for long, 1 leaves a request, and 0 gives
up and empties the slot.  The wait of 1 fails at once. -/
theorem scan_cancelled :
    ¬ NeverCancelled (machine.trace (init : ScanSlot Nat)
      [.request 0, .take, .elapse 20000, .request 1, .giveUp 0, .clear 0, .giveUp 1]) := by
  intro hnever
  rcases hnever.removed _ (List.getElem_mem (n := 5) (by decide)) 1 rfl with hkept | htake | hown
  · exact nomatch hkept
  · exact nomatch htake
  · exact nomatch hown

end Runs

end ScanSlot

end WaterController
