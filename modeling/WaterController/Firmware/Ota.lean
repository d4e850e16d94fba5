import WaterController.Firmware.HttpServer
import WaterController.Library.Machine

/-!
# Updates of the std firmware

An image is written to the slot that does not run as it arrives.  Whatever fails, an update that
was begun ends with one call of the driver: it is completed behind the whole image, or else it is
aborted, and the device restarts only behind the first (`upload_ends`).

The image that runs behind it has to prove itself.  The main loop marks it as valid in the first
round that finds it up for a minute, with WiFi and with memory left, and reports the boot in the
first round with WiFi (`reports_run`).
-/

namespace WaterController

open Machines (Machine Transition)

namespace HttpServer

/-! ## The upload -/

/-- A call of the driver, and whether it succeeded. -/
inductive UpdateCall where
  | new (ok : Bool)
  | initiateUpdate (ok : Bool)
  | write (chunk : Bytes) (ok : Bool)
  | abort
  | complete (ok : Bool)
deriving DecidableEq, Repr

/-- A driver that keeps a record of what it is called for. -/
def OtaDriver.recording {σ : Type} (driver : OtaDriver σ) : OtaDriver (σ × List UpdateCall) where
  new s := (((driver.new s.1).1, s.2 ++ [.new (driver.new s.1).2.isOk]), (driver.new s.1).2)
  initiateUpdate s :=
    (((driver.initiateUpdate s.1).1, s.2 ++ [.initiateUpdate (driver.initiateUpdate s.1).2.isOk]),
      (driver.initiateUpdate s.1).2)
  write chunk s :=
    (((driver.write chunk s.1).1, s.2 ++ [.write chunk (driver.write chunk s.1).2.isOk]),
      (driver.write chunk s.1).2)
  abort s := (driver.abort s.1, s.2 ++ [.abort])
  complete s :=
    (((driver.complete s.1).1, s.2 ++ [.complete (driver.complete s.1).2.isOk]),
      (driver.complete s.1).2)

/-- The body up to its end, unless a read fails. -/
def bodyOf : List (Except String Bytes) → Option Bytes
  | [] => some []
  | .error _ :: _ => none
  | .ok chunk :: reads => if chunk.isEmpty then some [] else (bodyOf reads).map (chunk ++ ·)

/-- What was received before a read failed, or up to the end. -/
def received : List (Except String Bytes) → Bytes
  | [] => []
  | .error _ :: _ => []
  | .ok chunk :: reads => if chunk.isEmpty then [] else chunk ++ received reads

def writesOf (chunks : List Bytes) : List UpdateCall := chunks.map fun chunk => .write chunk true

/-- How an upload can end. -/
inductive UploadEnds (reads : List (Except String Bytes)) :
    List UpdateCall → Except Response Nat → Prop where
  | noTable (response : Response) : UploadEnds reads [.new false] (.error response)
  | notBegun (response : Response) :
      UploadEnds reads [.new true, .initiateUpdate false] (.error response)
  | readFailed (chunks : List Bytes) (response : Response) (hbody : bodyOf reads = none)
      (hchunks : chunks.flatten = received reads) :
      UploadEnds reads ([.new true, .initiateUpdate true] ++ writesOf chunks ++ [.abort])
        (.error response)
  | writeFailed (chunks : List Bytes) (chunk : Bytes) (response : Response)
      (hchunks : chunks.flatten ++ chunk <+: received reads) :
      UploadEnds reads
        ([.new true, .initiateUpdate true] ++ writesOf chunks ++ [.write chunk false, .abort])
        (.error response)
  | empty (response : Response) (hbody : bodyOf reads = some []) :
      UploadEnds reads [.new true, .initiateUpdate true, .abort] (.error response)
  | refused (chunks : List Bytes) (response : Response)
      (hbody : bodyOf reads = some chunks.flatten) (hne : chunks.flatten ≠ []) :
      UploadEnds reads ([.new true, .initiateUpdate true] ++ writesOf chunks ++ [.complete false])
        (.error response)
  | completed (chunks : List Bytes) (hbody : bodyOf reads = some chunks.flatten)
      (hne : chunks.flatten ≠ []) :
      UploadEnds reads ([.new true, .initiateUpdate true] ++ writesOf chunks ++ [.complete true])
        (.ok chunks.flatten.length)

/-- How the loop of the writes can end. -/
inductive WriteEnds (reads : List (Except String Bytes)) (total : Nat) :
    List UpdateCall → Except String Nat → Prop where
  | readFailed (chunks : List Bytes) (err : String) (hbody : bodyOf reads = none)
      (hchunks : chunks.flatten = received reads) :
      WriteEnds reads total (writesOf chunks ++ [.abort]) (.error err)
  | writeFailed (chunks : List Bytes) (chunk : Bytes) (err : String)
      (hchunks : chunks.flatten ++ chunk <+: received reads) :
      WriteEnds reads total (writesOf chunks ++ [.write chunk false, .abort]) (.error err)
  | written (chunks : List Bytes) (hbody : bodyOf reads = some chunks.flatten)
      (hchunks : ∀ chunk ∈ chunks, chunk ≠ []) :
      WriteEnds reads total (writesOf chunks) (.ok (total + chunks.flatten.length))

section Upload

variable {σ : Type} (driver : OtaDriver σ)

theorem recording_write (chunk : Bytes) (s : σ × List UpdateCall) :
    driver.recording.write chunk s =
      (((driver.write chunk s.1).1, s.2 ++ [.write chunk (driver.write chunk s.1).2.isOk]),
        (driver.write chunk s.1).2) := rfl

/-- A chunk that was written in front of the rest. -/
theorem WriteEnds.cons {reads : List (Except String Bytes)} {total : Nat} {chunk : Bytes}
    {calls : List UpdateCall} {result : Except String Nat} (hchunk : chunk.isEmpty = false)
    (h : WriteEnds reads (total + chunk.length) calls result) :
    WriteEnds (.ok chunk :: reads) total (.write chunk true :: calls) result := by
  have hbody : bodyOf (.ok chunk :: reads) = (bodyOf reads).map (chunk ++ ·) := by
    rw [bodyOf, hchunk]
    rfl
  have hreceived : received (.ok chunk :: reads) = chunk ++ received reads := by
    rw [received, hchunk]
    rfl
  cases h with
  | readFailed chunks err hnone hchunks =>
      refine .readFailed (chunk :: chunks) err ?_ ?_
      · rw [hbody, hnone]
        rfl
      · rw [hreceived, List.flatten_cons, hchunks]
  | writeFailed chunks last err hchunks =>
      refine .writeFailed (chunk :: chunks) last err ?_
      rw [hreceived, List.flatten_cons, List.append_assoc]
      exact (List.prefix_append_right_inj chunk).mpr hchunks
  | written chunks hsome hchunks =>
      have hlength : total + chunk.length + chunks.flatten.length =
          total + (chunk :: chunks).flatten.length := by
        rw [List.flatten_cons, List.length_append, Nat.add_assoc]
      rw [hlength]
      refine .written (chunk :: chunks) ?_ (List.forall_mem_cons.mpr ⟨?_, hchunks⟩)
      · rw [hbody, hsome]
        rfl
      · exact fun hnil => by rw [hnil] at hchunk; cases hchunk

theorem writeImage_ends (reads : List (Except String Bytes)) (total : Nat)
    (s : σ × List UpdateCall) :
    ∃ calls, (writeImage driver.recording reads total s).1.2 = s.2 ++ calls ∧
      WriteEnds reads total calls (writeImage driver.recording reads total s).2 := by
  induction reads generalizing total s with
  | nil => exact ⟨[], (List.append_nil _).symm, .written [] rfl (List.forall_mem_nil _)⟩
  | cons read reads ih =>
      cases read with
      | error err => exact ⟨[.abort], rfl, .readFailed [] _ rfl rfl⟩
      | ok chunk =>
          cases hchunk : chunk.isEmpty with
          | true =>
              rw [writeImage, hchunk, if_pos rfl]
              refine ⟨[], (List.append_nil _).symm, .written [] ?_ (List.forall_mem_nil _)⟩
              rw [bodyOf, hchunk]
              rfl
          | false =>
              rw [writeImage, hchunk, if_neg Bool.false_ne_true]
              cases hwrite : (driver.write chunk s.1).2 with
              | error err =>
                  rw [recording_write, hwrite]
                  refine ⟨[.write chunk false, .abort], List.append_assoc _ _ _,
                    .writeFailed [] chunk _ ?_⟩
                  rw [received, hchunk]
                  exact List.prefix_append _ _
              | ok u =>
                  rw [recording_write, hwrite]
                  obtain ⟨calls, hcalls, hends⟩ := ih (total + chunk.length)
                    ((driver.write chunk s.1).1, s.2 ++ [.write chunk true])
                  exact ⟨.write chunk true :: calls, hcalls.trans (List.append_assoc _ _ _),
                    hends.cons hchunk⟩

theorem recording_new (s : σ × List UpdateCall) :
    driver.recording.new s =
      (((driver.new s.1).1, s.2 ++ [.new (driver.new s.1).2.isOk]), (driver.new s.1).2) := rfl

theorem recording_initiateUpdate (s : σ × List UpdateCall) :
    driver.recording.initiateUpdate s =
      (((driver.initiateUpdate s.1).1,
        s.2 ++ [.initiateUpdate (driver.initiateUpdate s.1).2.isOk]),
        (driver.initiateUpdate s.1).2) := rfl

theorem recording_complete (s : σ × List UpdateCall) :
    driver.recording.complete s =
      (((driver.complete s.1).1, s.2 ++ [.complete (driver.complete s.1).2.isOk]),
        (driver.complete s.1).2) := rfl

theorem applyImage_ends (reads : List (Except String Bytes)) (ota : σ) :
    UploadEnds reads (applyImage driver.recording reads (ota, [])).1.2
      (applyImage driver.recording reads (ota, [])).2 := by
  rw [applyImage, recording_new]
  cases hnew : (driver.new ota).2 with
  | error err => exact .noTable _
  | ok u =>
      dsimp only
      rw [recording_initiateUpdate]
      cases hinitiate : (driver.initiateUpdate (driver.new ota).1).2 with
      | error err => exact .notBegun _
      | ok u =>
          obtain ⟨calls, hcalls, hends⟩ := writeImage_ends driver reads 0
            ((driver.initiateUpdate (driver.new ota).1).1, [.new true, .initiateUpdate true])
          dsimp only [Except.isOk, Except.toBool, List.nil_append, List.cons_append]
          generalize writeImage driver.recording reads 0 ((driver.initiateUpdate
            (driver.new ota).1).1, [.new true, .initiateUpdate true]) = out at hcalls hends ⊢
          obtain ⟨⟨s, record⟩, result⟩ := out
          dsimp only at hcalls hends ⊢
          subst hcalls
          cases hends with
          | readFailed chunks err hnone hchunks =>
              rw [← List.append_assoc]
              exact .readFailed chunks _ hnone hchunks
          | writeFailed chunks chunk err hchunks =>
              rw [← List.append_assoc]
              exact .writeFailed chunks chunk _ hchunks
          | written chunks hsome hchunks =>
              rw [Nat.zero_add]
              cases chunks with
              | nil => exact .empty _ hsome
              | cons chunk chunks =>
                  have hne : (chunk :: chunks).flatten ≠ [] := by
                    have hchunk := hchunks chunk List.mem_cons_self
                    rw [List.flatten_cons]
                    exact List.append_ne_nil_of_left_ne_nil hchunk _
                  have hlength : (chunk :: chunks).flatten.length ≠ 0 := by
                    rwa [Ne, List.length_eq_zero_iff]
                  have hrefused := @UploadEnds.refused reads (chunk :: chunks)
                  have hcompleted := @UploadEnds.completed reads (chunk :: chunks)
                  generalize (chunk :: chunks).flatten.length = total at hlength hcompleted ⊢
                  obtain ⟨n, rfl⟩ := Nat.exists_eq_succ_of_ne_zero hlength
                  have hcall := recording_complete driver
                    (s, [.new true, .initiateUpdate true] ++ writesOf (chunk :: chunks))
                  cases hcomplete : (driver.complete s).2 with
                  | error err =>
                      rw [hcomplete] at hcall
                      simp only [hcall]
                      exact hrefused _ hsome hne
                  | ok u =>
                      rw [hcomplete] at hcall
                      simp only [hcall]
                      exact hcompleted hsome hne

/-- The record does not change what the driver does. -/
theorem recording_writeImage (reads : List (Except String Bytes)) (total : Nat)
    (s : σ × List UpdateCall) :
    ((writeImage driver.recording reads total s).1.1,
      (writeImage driver.recording reads total s).2) = writeImage driver reads total s.1 := by
  induction reads generalizing total s with
  | nil => rfl
  | cons read reads ih =>
      cases read with
      | error err => rfl
      | ok chunk =>
          rw [writeImage, writeImage]
          rcases hchunk : chunk.isEmpty with _ | _
          · rw [if_neg Bool.false_ne_true, if_neg Bool.false_ne_true, recording_write]
            rcases driver.write chunk s.1 with ⟨next, err | u⟩
            · rfl
            · exact ih (total + chunk.length) (next, s.2 ++ [.write chunk true])
          · rfl

theorem recording_applyImage (reads : List (Except String Bytes)) (s : σ × List UpdateCall) :
    ((applyImage driver.recording reads s).1.1, (applyImage driver.recording reads s).2) =
      applyImage driver reads s.1 := by
  rw [applyImage, applyImage, recording_new]
  rcases driver.new s.1 with ⟨opened, err | u⟩
  · rfl
  dsimp only
  rw [recording_initiateUpdate]
  rcases driver.initiateUpdate opened with ⟨begun, err | u⟩
  · rfl
  dsimp only
  generalize s.2 ++ _ ++ _ = record
  have hwritten := recording_writeImage driver reads 0 (begun, record)
  rw [← hwritten]
  rcases writeImage driver.recording reads 0 (begun, record) with ⟨⟨written, record⟩, err | total⟩
  · rfl
  cases total with
  | zero => rfl
  | succ total =>
      have hcall := recording_complete driver (written, record)
      rcases hcomplete : driver.complete written with ⟨completed, err | u⟩
      · rw [hcomplete] at hcall
        simp only [hcall, hcomplete]
      · rw [hcomplete] at hcall
        simp only [hcall, hcomplete]

/-- The server with no call on record. -/
def ServerState.recorded (st : ServerState σ) : ServerState (σ × List UpdateCall) :=
  ⟨st.fw, (st.ota, []), st.rebootScheduled, st.wsSenders⟩

/-- The calls of an upload, for every driver and every way the body arrives.  The driver completes
an image, and the device reboots into it, only when the whole of a body that is not empty was
written.  An update that was begun and is not completed is aborted. -/
theorem upload_ends (st : ServerState σ) (req : HttpRequest) :
    ∃ calls,
      (postOta driver.recording st.recorded req).1.ota = ((postOta driver st req).1.ota, calls) ∧
      if st.authorizes req then
        ∃ result, UploadEnds req.reads calls result ∧
          (postOta driver st req).1.rebootScheduled = (st.rebootScheduled || result.isOk)
      else calls = [] ∧ (postOta driver st req).1 = st := by
  have hauthorizes : st.recorded.authorizes req = st.authorizes req := rfl
  rw [postOta, postOta, hauthorizes]
  cases st.authorizes req with
  | false => exact ⟨[], rfl, rfl, rfl⟩
  | true =>
      have hrecord := recording_applyImage driver req.reads (st.ota, [])
      have hends := applyImage_ends driver req.reads st.ota
      have hota : st.recorded.ota = (st.ota, []) := rfl
      rw [hota]
      rw [← hrecord]
      generalize applyImage driver.recording req.reads (st.ota, []) = out at hends ⊢
      obtain ⟨⟨final, calls⟩, response | total⟩ := out
      · exact ⟨calls, rfl, .error response, hends, (Bool.or_false _).symm⟩
      · exact ⟨calls, rfl, .ok total, hends, (Bool.or_true _).symm⟩

end Upload

end HttpServer

/-! ## The image that runs -/

inductive ResetReason where
  | powerOn
  | ext
  | sw
  | panic
  | intWdt
  | taskWdt
  | wdt
  | deepSleep
  | brownout
  | sdio
  | other
deriving DecidableEq, Repr

def resetReasonLabel : ResetReason → String
  | .powerOn => "power-on"
  | .ext => "external reset"
  | .sw => "software restart"
  | .panic => "panic / exception"
  | .intWdt => "interrupt watchdog"
  | .taskWdt => "task watchdog"
  | .wdt => "other watchdog"
  | .deepSleep => "wake from deep sleep"
  | .brownout => "brownout"
  | .sdio => "sdio reset"
  | .other => "unknown"

def ResetReason.isPanic : ResetReason → Bool
  | .panic | .intWdt | .taskWdt | .wdt | .brownout => true
  | _ => false

/-- The main loop behind the start of the device. -/
structure MainLoop where
  app : App
  appMarkedValid : Bool := false
  bootEventEmitted : Bool := false

/-- What a round of the main loop finds. -/
structure MainRound where
  env : Env
  uptimeMs : Nat
  freeHeap : UInt32
  minFreeHeap : UInt32
  wifiOk : Bool

/-- What a round does to the world. -/
inductive MainReport where
  | emitted (ev : WebhookEvent)
  | markedValid

namespace MainLoop

def healthyUptimeMs : Nat := 60000

def heapFloorBytes : UInt32 := 20 * 1024

/-- A round that proves the image. -/
def healthy (r : MainRound) : Bool :=
  decide (r.uptimeMs ≥ healthyUptimeMs) && decide (r.minFreeHeap ≥ heapFloorBytes) && r.wifiOk

section

variable (reason : ResetReason) (version : String)

def bootEvent : WebhookEvent :=
  ((WebhookEvent.new (if reason.isPanic then .panicBoot else .boot)).withVar "reset_reason"
    (resetReasonLabel reason)).withVar "firmware_version" version

def otaCompletedEvent : WebhookEvent :=
  (WebhookEvent.new .otaCompleted).withVar "firmware_version" version

def reportBoot (s : MainLoop) (r : MainRound) : MainLoop × List MainReport :=
  if !s.bootEventEmitted && r.wifiOk then
    ({ s with
        app := s.app.emitEvent r.env (bootEvent reason version)
        bootEventEmitted := true },
      [.emitted (bootEvent reason version)])
  else (s, [])

def markValid (s : MainLoop) (r : MainRound) : MainLoop × List MainReport :=
  if !s.appMarkedValid && decide (r.uptimeMs ≥ healthyUptimeMs) &&
      decide (r.minFreeHeap ≥ heapFloorBytes) then
    if r.wifiOk then
      ({ s with
          app := s.app.emitEvent r.env (otaCompletedEvent version)
          appMarkedValid := true },
        [.markedValid, .emitted (otaCompletedEvent version)])
    else (s, [])
  else (s, [])

def updateSnapshot (s : MainLoop) (r : MainRound) : MainLoop :=
  { s with app := s.app.updateState fun d =>
      { d with
        uptimeMs := r.uptimeMs
        firmwareVersion := if d.firmwareVersion.isEmpty then version else d.firmwareVersion
        diagnostics :=
          { d.diagnostics with
            freeHeapBytes := some r.freeHeap
            minFreeHeapBytes := some r.minFreeHeap
            resetReason := d.diagnostics.resetReason.orElse fun _ =>
              some (resetReasonLabel reason) } } }

def machine : Machine MainLoop MainRound (List MainReport) where
  step s r :=
    let booted := reportBoot reason version s r
    let marked := markValid version booted.1 r
    (updateSnapshot reason version marked.1 r, booted.2 ++ marked.2)

theorem markValid_eq (s : MainLoop) (r : MainRound) :
    (markValid version s r).2 =
        (if !s.appMarkedValid && healthy r then
          [.markedValid, .emitted (otaCompletedEvent version)] else []) ∧
      (markValid version s r).1.appMarkedValid = (s.appMarkedValid || healthy r) ∧
      (markValid version s r).1.bootEventEmitted = s.bootEventEmitted := by
  rw [markValid, healthy]
  generalize decide (r.uptimeMs ≥ healthyUptimeMs) = up
  generalize decide (r.minFreeHeap ≥ heapFloorBytes) = roomy
  cases hmarked : s.appMarkedValid <;> cases up <;> cases roomy <;> cases r.wifiOk <;>
    simp [hmarked]

theorem reportBoot_eq (s : MainLoop) (r : MainRound) :
    (reportBoot reason version s r).2 =
        (if !s.bootEventEmitted && r.wifiOk then [.emitted (bootEvent reason version)] else []) ∧
      (reportBoot reason version s r).1.bootEventEmitted = (s.bootEventEmitted || r.wifiOk) ∧
      (reportBoot reason version s r).1.appMarkedValid = s.appMarkedValid := by
  rw [reportBoot]
  cases hemitted : s.bootEventEmitted <;> cases r.wifiOk <;> simp [hemitted]

theorem out_eq (s : MainLoop) (r : MainRound) :
    (machine reason version).out s r =
      (if !s.bootEventEmitted && r.wifiOk then [.emitted (bootEvent reason version)] else []) ++
        (if !s.appMarkedValid && healthy r then
          [.markedValid, .emitted (otaCompletedEvent version)] else []) := by
  obtain ⟨hboot, -, hkept⟩ := reportBoot_eq reason version s r
  obtain ⟨hmarked, -⟩ := markValid_eq version (reportBoot reason version s r).1 r
  rw [hkept] at hmarked
  rw [← hboot, ← hmarked]
  rfl

/-- The flags tell what the rounds behind have seen. -/
def Flagged (h : List (Transition MainLoop MainRound (List MainReport))) (s : MainLoop) : Prop :=
  s.bootEventEmitted = h.any (fun t => t.input.wifiOk) ∧
    s.appMarkedValid = h.any (fun t => healthy t.input)

theorem flagged_next {h : List (Transition MainLoop MainRound (List MainReport))} {s : MainLoop}
    (hs : Flagged h s) (r : MainRound) :
    Flagged (h ++ [(machine reason version).transition s r])
      ((machine reason version).next s r) := by
  obtain ⟨-, hboot, hkept⟩ := reportBoot_eq reason version s r
  obtain ⟨-, hmarked, hbooted⟩ := markValid_eq version (reportBoot reason version s r).1 r
  constructor
  · rw [List.any_append, ← hs.1, List.any_cons, List.any_nil, Bool.or_false]
    exact hbooted.trans hboot
  · rw [List.any_append, ← hs.2, List.any_cons, List.any_nil, Bool.or_false]
    rw [hkept] at hmarked
    exact hmarked

/-- The boot is reported in the first round that finds the WiFi, and the image is marked as valid
in the first that also finds the device up for a minute with memory left.  No other round does
either. -/
theorem reports_run (app : App) (rounds : List MainRound)
    {pre post : List (Transition MainLoop MainRound (List MainReport))}
    {t : Transition MainLoop MainRound (List MainReport)}
    (h : (machine reason version).trace { app } rounds = pre ++ t :: post) :
    t.output =
      (if !pre.any (fun u => u.input.wifiOk) && t.input.wifiOk then
        [.emitted (bootEvent reason version)] else []) ++
      (if !pre.any (fun u => healthy u.input) && healthy t.input then
        [.markedValid, .emitted (otaCompletedEvent version)] else []) := by
  obtain ⟨hflagged, -⟩ := (machine reason version).trace_history_before (J := Flagged)
    (G := fun _ _ _ => True) (fun _ _ r _ hs => flagged_next reason version hs r)
    ⟨rfl, rfl⟩ (fun _ _ _ _ => trivial) h
  obtain ⟨_, r, _, -, -, rfl, -⟩ := (machine reason version).trace_split h
  rw [← hflagged.1, ← hflagged.2]
  exact out_eq reason version _ r

end

end MainLoop

end WaterController
