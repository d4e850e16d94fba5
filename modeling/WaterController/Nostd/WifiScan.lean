import WaterController.Firmware.ScanSlot

/-!
# Scans of the no_std firmware

The requests for a scan and their result go over two signals, cells for the last value that was
put there.  A caller empties the one for the result, signals its request, and waits for 12 s.  The
connection task takes the request, scans, and signals the result, for whoever polls it first.

Requests that come while a scan goes on are one, so a caller may find no network where another
gets them.  But what a caller gets is the result of a scan that ended while it waited, and nobody
else gets it (`scan_answers`).
-/

namespace WaterController

open Machines (Machine Transition)

namespace Nostd

/-! ## The callers and the connection task -/

def authOf : Option AuthMethod → String
  | none | some .none => "open"
  | some .wep => "wep"
  | some .wpa => "wpa"
  | some .wpa2Personal | some .wpaWpa2Personal | some .wpa2Enterprise => "wpa2"
  | some _ => "wpa3"

def apToResult (ap : AccessPointInfo) : WifiScanResult :=
  ⟨ap.ssid, ap.signalStrength, authOf ap.authMethod, ap.channel⟩

/-- What is signalled of what the driver returns. -/
def scanResults : Except String (List AccessPointInfo) → List WifiScanResult
  | .ok aps => aps.map apToResult
  | .error _ => []

/-- Where a call of `request_scan` is. -/
inductive RequestScan where
  | start
  | waiting (since : Nat)
  | returned (networks : List WifiScanResult)

/-- The time in milliseconds, the two signals, whether the connection task scans, and where the
calls are. -/
structure WifiScan (Caller : Type*) where
  now : Nat
  scanReq : Bool
  scanResult : Option (List WifiScanResult)
  scanning : Bool
  calls : Caller → RequestScan

/-- What happens from one `await` to the next. -/
inductive WifiScanStep (Caller : Type*) where
  | elapse (ms : Nat)
  | request (caller : Caller)
  | poll (caller : Caller)
  | take
  | finish (result : Except String (List AccessPointInfo))

/-- How long a caller waits, in milliseconds. -/
def requestScanMs : Nat := 12000

namespace WifiScan

variable {Caller : Type*}

def init : WifiScan Caller := ⟨0, false, none, false, fun _ => .start⟩

section Steps

variable [DecidableEq Caller]

def setCall (s : WifiScan Caller) (caller : Caller) (call : RequestScan) : WifiScan Caller :=
  { s with calls := Function.update s.calls caller call }

/-- The first half of `request_scan`. -/
def request (s : WifiScan Caller) (caller : Caller) : WifiScan Caller :=
  match s.calls caller with
  | .start => { s.setCall caller (.waiting s.now) with scanResult := none, scanReq := true }
  | _ => s

/-- A poll of `select`, which looks for the result first.  A caller that takes it is put out. -/
def poll (s : WifiScan Caller) (caller : Caller) :
    WifiScan Caller × Option (Caller × List WifiScanResult) :=
  match s.calls caller, s.scanResult with
  | .waiting _, some networks =>
      ({ s.setCall caller (.returned networks) with scanResult := none }, some (caller, networks))
  | .waiting since, none =>
      if since + requestScanMs ≤ s.now then (s.setCall caller (.returned []), none) else (s, none)
  | _, _ => (s, none)

/-- The connection task takes a request, when it is connected and does not scan. -/
def take (s : WifiScan Caller) : WifiScan Caller :=
  if s.scanReq && !s.scanning then { s with scanReq := false, scanning := true } else s

def finish (s : WifiScan Caller) (result : Except String (List AccessPointInfo)) :
    WifiScan Caller :=
  if s.scanning then { s with scanning := false, scanResult := some (scanResults result) } else s

/-- The callers and the connection task, in any order.  A step that cannot be taken changes
nothing. -/
def machine :
    Machine (WifiScan Caller) (WifiScanStep Caller) (Option (Caller × List WifiScanResult)) where
  step s
    | .elapse ms => ({ s with now := s.now + ms }, none)
    | .request caller => (s.request caller, none)
    | .poll caller => s.poll caller
    | .take => (s.take, none)
    | .finish result => (s.finish result, none)

end Steps

/-! ## Who gets what -/

abbrev ScanTransition (Caller : Type*) : Type _ :=
  Transition (WifiScan Caller) (WifiScanStep Caller) (Option (Caller × List WifiScanResult))

/-- A scan ended, with these networks. -/
def Ends (t : ScanTransition Caller) (networks : List WifiScanResult) : Prop :=
  t.before.scanning = true ∧ ∃ result, t.input = .finish result ∧ networks = scanResults result

/-- A scan ended. -/
def ends (t : ScanTransition Caller) : Bool :=
  match t.input with
  | .finish _ => t.before.scanning
  | _ => false

/-- A step took a result, signalled one, or emptied the cell for it. -/
def Touches (t : ScanTransition Caller) : Prop :=
  t.output.isSome = true ∨ ends t = true ∨
    ∃ caller, t.input = .request caller ∧ t.before.calls caller = .start

def Waits (s : WifiScan Caller) (caller : Caller) : Prop := ∃ since, s.calls caller = .waiting since

/-- The last that was done about the result of a scan is that it was signalled, while the caller
waited. -/
def Signalled (ts : List (ScanTransition Caller)) (networks : List WifiScanResult)
    (caller : Caller) : Prop :=
  ∃ before f between, ts = before ++ f :: between ∧ Ends f networks ∧ Waits f.before caller ∧
    ∀ u ∈ between, ¬ Touches u

variable [DecidableEq Caller]

/-- What a result that is there was signalled by. -/
def Kept (ts : List (ScanTransition Caller)) (s : WifiScan Caller) : Prop :=
  ∀ networks, s.scanResult = some networks → ∀ caller, Waits s caller →
    Signalled ts networks caller

/-- A step that leaves the result alone. -/
theorem Kept.quiet {ts : List (ScanTransition Caller)} {s : WifiScan Caller} (h : Kept ts s)
    {step : WifiScanStep Caller} (hquiet : ¬ Touches (machine.transition s step))
    (hresult : (machine.next s step).scanResult = s.scanResult)
    (hwaits : ∀ caller, Waits (machine.next s step) caller → Waits s caller) :
    Kept (ts ++ [machine.transition s step]) (machine.next s step) := by
  intro networks hnetworks caller hcaller
  rw [hresult] at hnetworks
  obtain ⟨before, f, between, rfl, hends, hfirst, hbetween⟩ :=
    h networks hnetworks caller (hwaits caller hcaller)
  refine ⟨before, f, between ++ [machine.transition s step], by simp, hends, hfirst, ?_⟩
  intro u hu
  rcases List.mem_append.mp hu with hold | hnew
  · exact hbetween u hold
  · rw [List.mem_singleton.mp hnew]
    exact hquiet

omit [DecidableEq Caller] in
/-- Where there is no result. -/
theorem Kept.of_none {ts : List (ScanTransition Caller)} {s : WifiScan Caller}
    (h : s.scanResult = none) : Kept ts s := by
  intro networks hnetworks
  cases h.symm.trans hnetworks

theorem Kept.request {ts : List (ScanTransition Caller)} {s : WifiScan Caller} (h : Kept ts s)
    (caller : Caller) :
    Kept (ts ++ [machine.transition s (.request caller)]) (s.request caller) := by
  cases hcall : s.calls caller with
  | start =>
      refine .of_none ?_
      rw [WifiScan.request, hcall]
  | waiting since | returned networks =>
      have hsame : s.request caller = s := by rw [WifiScan.request, hcall]
      have hnext : machine.next s (.request caller) = s := hsame
      rw [← show machine.next s (.request caller) = s.request caller from rfl]
      refine h.quiet ?_ (by rw [hnext]) fun other => by rw [hnext]; exact id
      rintro (hout | hends | ⟨other, hother, hstart⟩)
      · cases hout
      · cases hends
      · cases hother
        cases hcall.symm.trans hstart

/-- What a poll does. -/
inductive Polls (s : WifiScan Caller) (caller : Caller) :
    WifiScan Caller × Option (Caller × List WifiScanResult) → Prop where
  | took {networks : List WifiScanResult} (hwaits : Waits s caller)
      (hresult : s.scanResult = some networks) :
      Polls s caller ({ s.setCall caller (.returned networks) with scanResult := none },
        some (caller, networks))
  | timedOut (hresult : s.scanResult = none) :
      Polls s caller (s.setCall caller (.returned []), none)
  | idle : Polls s caller (s, none)

theorem polls (s : WifiScan Caller) (caller : Caller) : Polls s caller (s.poll caller) := by
  rw [poll]
  split
  · rename_i since networks hcall hresult
    exact .took ⟨since, hcall⟩ hresult
  · rename_i since hcall hresult
    split
    · exact .timedOut hresult
    · exact .idle
  · exact .idle

theorem Kept.poll {ts : List (ScanTransition Caller)} {s : WifiScan Caller} (h : Kept ts s)
    (caller : Caller) :
    Kept (ts ++ [machine.transition s (.poll caller)]) (machine.next s (.poll caller)) := by
  have hpolls := polls s caller
  generalize hpoll : s.poll caller = polled at hpolls
  have hnext : machine.next s (.poll caller) = polled.1 := congrArg Prod.fst hpoll
  have hout : (machine.transition s (.poll caller)).output = polled.2 := congrArg Prod.snd hpoll
  cases hpolls with
  | took hwaits hresult =>
      rw [hnext]
      exact .of_none rfl
  | timedOut hresult =>
      rw [hnext]
      exact .of_none hresult
  | idle =>
      refine h.quiet ?_ (by rw [hnext]) fun other => by rw [hnext]; exact id
      rintro (hsome | hends | ⟨other, hother, -⟩)
      · rw [hout] at hsome
        cases hsome
      · cases hends
      · cases hother

theorem Kept.next {ts : List (ScanTransition Caller)} {s : WifiScan Caller} (h : Kept ts s)
    (step : WifiScanStep Caller) :
    Kept (ts ++ [machine.transition s step]) (machine.next s step) := by
  cases step with
  | elapse ms =>
      refine h.quiet ?_ rfl fun _ => id
      rintro (hout | hends | ⟨other, hother, -⟩)
      · cases hout
      · cases hends
      · cases hother
  | request caller => exact h.request caller
  | poll caller => exact h.poll caller
  | take =>
      have htake : s.take.scanResult = s.scanResult ∧ s.take.calls = s.calls := by
        rw [take]
        split <;> exact ⟨rfl, rfl⟩
      refine h.quiet ?_ htake.1 fun caller hcaller => ?_
      · rintro (hout | hends | ⟨other, hother, -⟩)
        · cases hout
        · cases hends
        · cases hother
      · obtain ⟨since, hsince⟩ := hcaller
        exact ⟨since, (congrFun htake.2 caller).symm.trans hsince⟩
  | finish result =>
      cases hscanning : s.scanning with
      | true =>
          intro networks hnetworks caller hcaller
          have hfinish : machine.next s (.finish result) =
              { s with scanning := false, scanResult := some (scanResults result) } :=
            if_pos hscanning
          rw [hfinish] at hnetworks hcaller
          cases hnetworks
          exact ⟨ts, _, [], rfl, ⟨hscanning, result, rfl, rfl⟩, hcaller, List.forall_mem_nil _⟩
      | false =>
          have hsame : machine.next s (.finish result) = s := by
            show s.finish result = s
            rw [finish, hscanning]
            rfl
          refine h.quiet ?_ (by rw [hsame]) fun other => by rw [hsame]; exact id
          rintro (hout | hends | ⟨other, hother, -⟩)
          · cases hout
          · exact absurd (hscanning.symm.trans hends) Bool.false_ne_true
          · cases hother

/-- Each scan answers one caller, or its result is still there. -/
def Counted (ts : List (ScanTransition Caller)) (s : WifiScan Caller) : Prop :=
  (ts.filterMap Transition.output).length + s.scanResult.toList.length ≤ ts.countP ends

theorem Counted.next {ts : List (ScanTransition Caller)} {s : WifiScan Caller} (h : Counted ts s)
    (step : WifiScanStep Caller) :
    Counted (ts ++ [machine.transition s step]) (machine.next s step) := by
  rw [Counted] at h
  have hmore : (machine.out s step).toList.length + (machine.next s step).scanResult.toList.length ≤
      s.scanResult.toList.length + [machine.transition s step].countP ends := by
    cases step with
    | elapse ms => exact Nat.le_of_eq (Nat.zero_add _)
    | request caller =>
        show 0 + (s.request caller).scanResult.toList.length ≤ _
        rw [request]
        split
        · exact Nat.zero_le _
        · exact Nat.le_of_eq (Nat.zero_add _)
    | poll caller =>
        show (s.poll caller).2.toList.length + (s.poll caller).1.scanResult.toList.length ≤ _
        have hpolls := polls s caller
        generalize s.poll caller = polled at hpolls
        cases hpolls with
        | took hwaits hresult =>
            rw [hresult]
            exact Nat.le_refl 1
        | timedOut hresult => exact Nat.le_of_eq (Nat.zero_add _)
        | idle => exact Nat.le_of_eq (Nat.zero_add _)
    | take =>
        show 0 + s.take.scanResult.toList.length ≤ _
        rw [take]
        split <;> exact Nat.le_of_eq (Nat.zero_add _)
    | finish result =>
        show 0 + (s.finish result).scanResult.toList.length ≤ _
        rw [finish]
        split
        · rename_i hscanning
          have hends : ends (machine.transition s (.finish result)) = true := hscanning
          rw [List.countP_cons_of_pos hends]
          exact Nat.le_add_left 1 _
        · exact Nat.zero_add _ ▸ Nat.le_add_right _ _
  have hlength : ((ts ++ [machine.transition s step]).filterMap Transition.output).length =
      (ts.filterMap Transition.output).length + (machine.out s step).toList.length := by
    rw [List.filterMap_append, List.length_append, List.filterMap_cons, Machine.transition]
    cases machine.out s step <;> rfl
  rw [Counted, hlength, List.countP_append]
  omega

/-- What every caller gets was signalled while it waited. -/
def Fresh (ts : List (ScanTransition Caller)) : Prop :=
  ∀ pre t post, ts = pre ++ t :: post → ∀ caller networks, t.output = some (caller, networks) →
    Signalled pre networks caller

/-- **Scans.**  A caller that gets networks gets those of a scan that ended while it waited, and
that neither another caller nor another request or scan came between.  There are no more such
callers than scans. -/
theorem scan_answers (steps : List (WifiScanStep Caller)) :
    Fresh (machine.trace (init : WifiScan Caller) steps) ∧
      (machine.emitted (init : WifiScan Caller) steps).length ≤
        (machine.trace (init : WifiScan Caller) steps).countP ends := by
  constructor
  · intro pre t post hsplit caller networks hout
    obtain ⟨hkept, -⟩ := machine.trace_history_before (J := Kept) (G := fun _ _ _ => True)
      (fun _ _ step _ h => h.next step) (.of_none rfl) (fun _ _ _ _ => trivial) hsplit
    have hmem : t ∈ machine.trace (init : WifiScan Caller) steps := by
      rw [hsplit]
      exact List.mem_append_right _ List.mem_cons_self
    rw [machine.eq_transition hmem] at hout
    have hout' : machine.out t.before t.input = some (caller, networks) := hout
    cases hinput : t.input with
    | elapse | request | take | finish =>
        rw [hinput] at hout'
        cases hout'
    | poll other =>
        rw [hinput] at hout'
        have hpolls := polls t.before other
        generalize hpoll : t.before.poll other = polled at hpolls
        have hpolled : polled.2 = some (caller, networks) :=
          (congrArg Prod.snd hpoll).symm.trans hout'
        cases hpolls with
        | took hwaits hresult =>
            cases hpolled
            exact hkept networks hresult caller hwaits
        | timedOut | idle => cases hpolled
  · have hcounted : Counted (machine.trace (init : WifiScan Caller) steps)
        (machine.run init steps) :=
      machine.trace_history (J := Counted) (G := fun _ _ _ => True)
        (fun _ _ step _ h => h.next step) (s := (init : WifiScan Caller)) (Nat.le_refl 0)
        fun _ _ _ _ => trivial
    exact Nat.le_trans (Nat.le_add_right _ _) hcounted

end WifiScan

end Nostd

end WaterController
