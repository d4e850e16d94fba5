import WaterController.Core.Traits
import Mathlib.Tactic.Common

/-!
# Updates over the air

An update goes straight into the slot that is not running, a flash sector at a
time as its bytes arrive.  When all of it is written the slot is activated and a
reboot is requested.  It can end early at any sector: the sender stops, the
connection breaks, or the flash refuses.

The slot ends up as it was if and only if every sector that was written was
already there (`writeSectors_eq_iff`).
-/

namespace WaterController

/-- The slot that is not running: its length, and its bytes by offset. -/
structure OtaSlot where
  len : Nat
  contents : Nat → UInt8

/-- The slots: what the partition table gives as the one that is not running, and
the record of which one is active. -/
structure OtaFlash where
  inactive : Except String OtaSlot
  otadata : Bytes

/-- The body of a request: the length it announces, the bytes that arrive, whether
the connection fails behind them, and whether the extractor of a whole body takes
it. -/
structure Body where
  contentLength : Nat
  arrived : Bytes
  failed : Bool
  accepted : Bool

/-- The body as a handler gets it. -/
def Body.readAll (body : Body) : Option Bytes := if body.accepted then some body.arrived else none

structure OtaReport where
  ok : Bool
  detail : String
deriving DecidableEq, Repr

def OtaReport.err (detail : String) : OtaReport := ⟨false, detail⟩

/-- How the flash takes an update.  A write at an offset that fails leaves bytes of
the driver's. -/
structure OtaEnv where
  writeFails : Nat → Option (Nat → UInt8)
  /-- How the activation goes, and the record it leaves. -/
  activation : Except String Unit
  activated : Bytes

namespace Ota

def sector : Nat := 4096

def minImage : Nat := 64 * 1024

/-- The contents with the `n` bytes from an offset on replaced. -/
def overwrite (contents : Nat → UInt8) (offset n : Nat) (bytes : Nat → UInt8) : Nat → UInt8 :=
  fun i => if offset ≤ i ∧ i < offset + n then bytes i else contents i

/-- The bytes of a chunk by the offset they are written at. -/
def chunkAt (chunk : Bytes) (offset : Nat) : Nat → UInt8 := fun i => chunk.getD (i - offset) 0

/-- A sector or what is left of the image. -/
def want (total written : Nat) : Nat := min sector (total - written)

/-- What arrives of the next sector. -/
def nextChunk (total written : Nat) (arrived : Bytes) : Bytes := arrived.take (want total written)

section Write

variable (env : OtaEnv) (total : Nat) (failed : Bool)

/-- The loop over the sectors, with what was written and what is still to arrive.
It gives the slot, and the error it ended with, if any. -/
def writeSectors (written : Nat) (arrived : Bytes) (contents : Nat → UInt8) :
    (Nat → UInt8) × Option String :=
  if _h : written < total then
    -- the connection fails while the sector fills: what arrived of it is dropped
    if arrived.length < want total written ∧ failed = true then
      (contents, some "read error mid-stream")
    else if _hc : nextChunk total written arrived = [] then (contents, some "stream ended early")
    else
      match env.writeFails written with
      | some left =>
          (overwrite contents written (nextChunk total written arrived).length left,
            some "flash write failed")
      | none =>
          writeSectors (written + (nextChunk total written arrived).length)
            (arrived.drop (want total written))
            (overwrite contents written (nextChunk total written arrived).length
              (chunkAt (nextChunk total written arrived) written))
  else (contents, none)
termination_by total - written
decreasing_by
  have hpos := List.length_pos_iff.mpr _hc
  omega

/-- Every sector that is written is there already. -/
def SectorsHeld (contents : Nat → UInt8) (written : Nat) (arrived : Bytes) : Prop :=
  if _h : written < total then
    if arrived.length < want total written ∧ failed = true then True
    else if _hc : nextChunk total written arrived = [] then True
    else
      match env.writeFails written with
      | some left =>
          ∀ i, written ≤ i → i < written + (nextChunk total written arrived).length →
            contents i = left i
      | none =>
          (∀ i, written ≤ i → i < written + (nextChunk total written arrived).length →
            contents i = chunkAt (nextChunk total written arrived) written i) ∧
          SectorsHeld contents (written + (nextChunk total written arrived).length)
            (arrived.drop (want total written))
  else True
termination_by total - written
decreasing_by
  have hpos := List.length_pos_iff.mpr _hc
  omega

end Write

theorem overwrite_eq_iff {contents bytes : Nat → UInt8} {offset n : Nat} :
    overwrite contents offset n bytes = contents ↔
      ∀ i, offset ≤ i → i < offset + n → contents i = bytes i := by
  constructor
  · intro h i hle hlt
    have hi := congrFun h i
    rw [overwrite, if_pos ⟨hle, hlt⟩] at hi
    exact hi.symm
  · intro h
    funext i
    by_cases hin : offset ≤ i ∧ i < offset + n
    · rw [overwrite, if_pos hin, h i hin.1 hin.2]
    · rw [overwrite, if_neg hin]

variable {env : OtaEnv} {total : Nat} {failed : Bool}

section Sector

variable {written : Nat} {arrived : Bytes} (contents : Nat → UInt8) (h : written < total)
  (hgoes : ¬ (arrived.length < want total written ∧ failed = true))
  (hmore : nextChunk total written arrived ≠ [])

include h hgoes hmore

/-- A sector that the flash refuses ends the loop. -/
theorem writeSectors_fails {left : Nat → UInt8} (hleft : env.writeFails written = some left) :
    writeSectors env total failed written arrived contents =
      (overwrite contents written (nextChunk total written arrived).length left,
        some "flash write failed") := by
  rw [writeSectors, dif_pos h, if_neg hgoes, dif_neg hmore, hleft]

/-- Behind a sector that the flash takes comes the next one. -/
theorem writeSectors_goes (hnone : env.writeFails written = none) :
    writeSectors env total failed written arrived contents =
      writeSectors env total failed (written + (nextChunk total written arrived).length)
        (arrived.drop (want total written))
        (overwrite contents written (nextChunk total written arrived).length
          (chunkAt (nextChunk total written arrived) written)) := by
  rw [writeSectors, dif_pos h, if_neg hgoes, dif_neg hmore, hnone]

end Sector

/-- The loop leaves what was written before alone. -/
theorem writeSectors_below (written : Nat) (arrived : Bytes) (contents : Nat → UInt8) {i : Nat}
    (hi : i < written) :
    (writeSectors env total failed written arrived contents).1 i = contents i := by
  induction written, arrived, contents using writeSectors.induct env total failed with
  | case1 written arrived contents h hfail =>
      rw [writeSectors, dif_pos h, if_pos hfail]
  | case2 written arrived contents h hgoes hend =>
      rw [writeSectors, dif_pos h, if_neg hgoes, dif_pos hend]
  | case3 written arrived contents h hgoes hmore left hleft =>
      rw [writeSectors_fails contents h hgoes hmore hleft]
      exact if_neg (by omega)
  | case4 written arrived contents h hgoes hmore hnone ih =>
      rw [writeSectors_goes contents h hgoes hmore hnone]
      exact (ih (by omega)).trans (if_neg (by omega))
  | case5 written arrived contents h =>
      rw [writeSectors, dif_neg h]

/-- The slot ends up as it was if and only if every sector written was there
already. -/
theorem writeSectors_eq_iff (written : Nat) (arrived : Bytes) (contents : Nat → UInt8) :
    (writeSectors env total failed written arrived contents).1 = contents ↔
      SectorsHeld env total failed contents written arrived := by
  induction written, arrived, contents using writeSectors.induct env total failed with
  | case1 written arrived contents h hfail =>
      rw [writeSectors, dif_pos h, if_pos hfail, SectorsHeld, dif_pos h, if_pos hfail]
      simp
  | case2 written arrived contents h hgoes hend =>
      rw [writeSectors, dif_pos h, if_neg hgoes, dif_pos hend, SectorsHeld, dif_pos h,
        if_neg hgoes, dif_pos hend]
      simp
  | case3 written arrived contents h hgoes hmore left hleft =>
      rw [writeSectors_fails contents h hgoes hmore hleft, SectorsHeld, dif_pos h, if_neg hgoes,
        dif_neg hmore, hleft]
      exact overwrite_eq_iff
  | case4 written arrived contents h hgoes hmore hnone ih =>
      rw [writeSectors_goes contents h hgoes hmore hnone, SectorsHeld, dif_pos h, if_neg hgoes,
        dif_neg hmore, hnone]
      simp only
      constructor
      · intro hsame
        have hchunk : ∀ i, written ≤ i →
            i < written + (nextChunk total written arrived).length →
            contents i = chunkAt (nextChunk total written arrived) written i := by
          intro i hle hlt
          have hbelow : contents i = overwrite contents written
              (nextChunk total written arrived).length
              (chunkAt (nextChunk total written arrived) written) i :=
            (congrFun hsame i).symm.trans (writeSectors_below _ _ _ hlt)
          rw [overwrite, if_pos ⟨hle, hlt⟩] at hbelow
          exact hbelow
        have hover := overwrite_eq_iff.mpr hchunk
        rw [hover] at ih hsame
        exact ⟨hchunk, ih.mp hsame⟩
      · rintro ⟨hchunk, hrest⟩
        have hover := overwrite_eq_iff.mpr hchunk
        rw [hover] at ih ⊢
        exact ih.mpr hrest
  | case5 written arrived contents h =>
      rw [writeSectors, dif_neg h, SectorsHeld, dif_neg h]
      simp

/-- All of the image arrives and is written. -/
def Completes (env : OtaEnv) (total written : Nat) (arrived : Bytes) : Prop :=
  total - written ≤ arrived.length ∧
    ∀ o, written ≤ o → o < total → sector ∣ o - written → env.writeFails o = none

/-- The loop ends without an error if and only if all of the image arrives and is
written. -/
theorem writeSectors_none_iff (written : Nat) (arrived : Bytes) (contents : Nat → UInt8) :
    (writeSectors env total failed written arrived contents).2 = none ↔
      Completes env total written arrived := by
  have hsector : sector = 4096 := rfl
  induction written, arrived, contents using writeSectors.induct env total failed with
  | case1 written arrived contents h hfail =>
      have hwant : want total written ≤ total - written := Nat.min_le_right _ _
      have hshort := hfail.1
      rw [writeSectors, dif_pos h, if_pos hfail]
      refine iff_of_false (by simp) fun hall => ?_
      have hlen := hall.1
      omega
  | case2 written arrived contents h hgoes hend =>
      rw [writeSectors, dif_pos h, if_neg hgoes, dif_pos hend]
      refine iff_of_false (by simp) fun hall => ?_
      have hlen := hall.1
      have hwant : 0 < want total written := by
        rw [want]
        omega
      have hnil := congrArg List.length hend
      rw [nextChunk, List.length_take, List.length_nil] at hnil
      omega
  | case3 written arrived contents h hgoes hmore left hleft =>
      rw [writeSectors_fails contents h hgoes hmore hleft]
      refine iff_of_false (by simp) fun hall => ?_
      have hnone := hall.2 written (Nat.le_refl _) h (by simp)
      rw [hnone] at hleft
      cases hleft
  | case4 written arrived contents h hgoes hmore hnone ih =>
      rw [writeSectors_goes contents h hgoes hmore hnone]
      refine ih.trans ?_
      have hchunk : (nextChunk total written arrived).length =
          min (want total written) arrived.length := List.length_take
      have hwant : want total written = min 4096 (total - written) := rfl
      simp only [Completes, List.length_drop, hchunk, hsector]
      constructor
      · rintro ⟨hlen, hrest⟩
        have hfull : want total written ≤ arrived.length := by omega
        refine ⟨by omega, fun o hle hlt hdvd => ?_⟩
        by_cases ho : o = written
        · rw [ho, hnone]
        · exact hrest o (by omega) hlt (by omega)
      · rintro ⟨hlen, hrest⟩
        refine ⟨by omega, fun o hle hlt hdvd => ?_⟩
        exact hrest o (by omega) hlt (by omega)
  | case5 written arrived contents h =>
      rw [writeSectors, dif_neg h]
      refine iff_of_true rfl ⟨by omega, fun o hle hlt => ?_⟩
      omega

/-! ## The handler's work -/

/-- Write an update and activate it.  It gives the report, the slots, and whether a
reboot is requested. -/
def writeImage (env : OtaEnv) (ota : OtaFlash) (reboot : Bool) (body : Body) :
    OtaReport × OtaFlash × Bool :=
  let total := body.contentLength
  if total < minImage then (.err "image too small / no Content-Length", ota, reboot)
  else
    match ota.inactive with
    | .error e => (.err ("no inactive OTA slot: " ++ e), ota, reboot)
    | .ok slot =>
        if slot.len < total then (.err "image larger than OTA partition", ota, reboot)
        else
          let written := writeSectors env total body.failed 0 body.arrived slot.contents
          let ota := { ota with inactive := .ok { slot with contents := written.1 } }
          match written.2 with
          | some e => (.err e, ota, reboot)
          | none =>
              let ota := { ota with otadata := env.activated }
              match env.activation with
              | .error e => (.err ("activate failed: " ++ e), ota, reboot)
              | .ok () => (⟨true, toString total ++ " bytes, rebooting"⟩, ota, true)

section Fits

variable {ota : OtaFlash} {body : Body} {slot : OtaSlot} {contents : Nat → UInt8}
  (reboot : Bool) (hmin : ¬ body.contentLength < minImage) (hslot : ota.inactive = .ok slot)
  (hfits : ¬ slot.len < body.contentLength)

include hmin hslot hfits

/-- An update that breaks off leaves what was written of it. -/
theorem writeImage_fails {e : String}
    (h : writeSectors env body.contentLength body.failed 0 body.arrived slot.contents =
      (contents, some e)) :
    writeImage env ota reboot body =
      (.err e, { ota with inactive := .ok { slot with contents } }, reboot) := by
  simp only [writeImage, if_neg hmin, hslot, if_neg hfits, h]

variable (h : writeSectors env body.contentLength body.failed 0 body.arrived slot.contents =
  (contents, none))

include h

/-- An update that is stored and not activated. -/
theorem writeImage_stored {e : String} (hact : env.activation = .error e) :
    writeImage env ota reboot body =
      (.err ("activate failed: " ++ e),
        { inactive := .ok { slot with contents }, otadata := env.activated }, reboot) := by
  simp only [writeImage, if_neg hmin, hslot, if_neg hfits, h, hact]

theorem writeImage_activated (hact : env.activation = .ok ()) :
    writeImage env ota reboot body =
      (⟨true, toString body.contentLength ++ " bytes, rebooting"⟩,
        { inactive := .ok { slot with contents }, otadata := env.activated }, true) := by
  simp only [writeImage, if_neg hmin, hslot, if_neg hfits, h, hact]

end Fits

/-- An update that is refused, or that brings only what the slot holds already and
does not get as far as a new record and a reboot. -/
def Harmless (env : OtaEnv) (ota : OtaFlash) (reboot : Bool) (body : Body) : Prop :=
  body.contentLength < minImage ∨
    match ota.inactive with
    | .error _ => True
    | .ok slot =>
        slot.len < body.contentLength ∨
          SectorsHeld env body.contentLength body.failed slot.contents 0 body.arrived ∧
            (Completes env body.contentLength 0 body.arrived →
              env.activated = ota.otadata ∧ (env.activation = .ok () → reboot = true))

/-- An update leaves the slots and the signal alone if and only if it is harmless. -/
theorem writeImage_eq_iff (env : OtaEnv) (ota : OtaFlash) (reboot : Bool) (body : Body) :
    (writeImage env ota reboot body).2 = (ota, reboot) ↔ Harmless env ota reboot body := by
  unfold writeImage Harmless
  by_cases hsmall : body.contentLength < minImage
  · exact iff_of_true (by rw [if_pos hsmall]) (.inl hsmall)
  rw [if_neg hsmall, or_iff_right hsmall]
  obtain ⟨inactive, otadata⟩ := ota
  cases inactive with
  | error e => exact iff_of_true rfl trivial
  | ok slot =>
      simp only
      by_cases hlarge : slot.len < body.contentLength
      · exact iff_of_true (by rw [if_pos hlarge]) (.inl hlarge)
      rw [if_neg hlarge, or_iff_right hlarge, ← writeSectors_eq_iff]
      have hnone : (writeSectors env body.contentLength body.failed 0 body.arrived
            slot.contents).2 = none ↔ Completes env body.contentLength 0 body.arrived :=
        writeSectors_none_iff _ _ _
      obtain ⟨len, contents⟩ := slot
      cases herr : (writeSectors env body.contentLength body.failed 0 body.arrived
          contents).2 with
      | some e =>
          have hstops : ¬ Completes env body.contentLength 0 body.arrived := by
            rw [← hnone, herr]
            simp
          simp [hstops]
      | none =>
          have hcompletes := hnone.mp herr
          cases hact : env.activation with
          | error e => simp [hcompletes]
          | ok u => simp [hcompletes, and_assoc, eq_comm]

end Ota

end WaterController
