import Mathlib.Data.List.Pairwise
import WaterController.Library.ByteMemory
import WaterController.Nostd.Ota

/-!
# An update as it arrives

`Ota.writeImage` has the bytes of an update as a whole.  Here they come read by read: a read
gives as many bytes as it likes, none, or an error, a sector is filled from several of them,
and a sector that is filled in part is written in part.

A run writes to the inactive slot alone, and what comes behind the writing, the record of the
active slot and the reboot, is touched only when the slot holds all of the image
(`touched_only_when_stored`).
-/

namespace WaterController

namespace OtaStream

open ByteMemory (put Holds)

/-! ## The flash -/

inductive AppSubType where
  | factory
  | ota (n : Fin 16)
  | test
deriving DecidableEq, Repr

inductive PartitionType where
  | app (sub : AppSubType)
  | otaData
  | other
deriving DecidableEq, Repr

/-- A partition, which is in the flash. -/
structure Partition where
  type : PartitionType
  offset : Nat
  len : Nat
  inFlash : offset + len ≤ 4294967296

def Partition.Has (p : Partition) (i : Nat) : Prop := p.offset ≤ i ∧ i < p.offset + p.len

def Partition.Apart (p q : Partition) : Prop :=
  p.offset + p.len ≤ q.offset ∨ q.offset + q.len ≤ p.offset

instance : DecidableRel Partition.Apart := fun p q =>
  inferInstanceAs (Decidable (p.offset + p.len ≤ q.offset ∨ q.offset + q.len ≤ p.offset))

instance : Std.Symm Partition.Apart := ⟨fun _ _ h => h.symm⟩

/-- The partition table.  No partition overlaps another. -/
structure PartitionTable where
  parts : List Partition
  apart : parts.Pairwise Partition.Apart
  booted : Except String (Option Partition)

/-- A slot that is neither the one that runs nor the factory's. -/
def isInactive (booted : AppSubType) (p : Partition) : Bool :=
  match p.type with
  | .app sub => sub != booted && sub != .factory
  | _ => false

/-- The slot that is not running. -/
def inactiveSlot (table : Except String PartitionTable) : Except String Partition := do
  let pt ← table
  match ← pt.booted with
  | none => .error "Invalid"
  | some booted =>
      match booted.type with
      | .app sub =>
          match pt.parts.find? (isInactive sub) with
          | some part => .ok part
          | none => .error "Invalid"
      | _ => .error "Invalid"

/-- The bytes of the flash with the record of the active slot. -/
def Metadata (table : Except String PartitionTable) (i : Nat) : Prop :=
  ∃ pt, table = .ok pt ∧ ∃ p ∈ pt.parts, p.type = .otaData ∧ p.Has i

/-- What writes the record.  It writes nothing else. -/
structure OtaUpdater (metadata : Nat → Prop) where
  new : (Nat → UInt8) → Except String Unit
  activateNextPartition : (Nat → UInt8) → Except String Unit × (Nat → UInt8)
  setCurrentOtaState : (Nat → UInt8) → Except String Unit × (Nat → UInt8)
  activate_frame : ∀ flash i, ¬ metadata i → (activateNextPartition flash).2 i = flash i
  setState_frame : ∀ flash i, ¬ metadata i → (setCurrentOtaState flash).2 i = flash i

/-- Activate the next slot and mark it as new. -/
def activateInactiveSlot {metadata : Nat → Prop} (updater : OtaUpdater metadata)
    (flash : Nat → UInt8) : Except String Unit × (Nat → UInt8) :=
  match updater.new flash with
  | .error e => (.error e, flash)
  | .ok () =>
      match updater.activateNextPartition flash with
      | (.error e, flash) => (.error e, flash)
      | (.ok (), flash) => updater.setCurrentOtaState flash

/-! ## The body -/

/-- The body as it is read: how many bytes each read would give, or that it fails, how many
reads were made, and the bytes that are still to come. -/
structure Reader where
  sizes : Nat → Option Nat
  calls : Nat
  rest : Bytes

/-- Read into a buffer. -/
def Reader.read (r : Reader) (cap : Nat) : Option Bytes × Reader :=
  match r.sizes r.calls with
  | none => (none, { r with calls := r.calls + 1 })
  | some n =>
      (some (r.rest.take (min n cap)),
        { r with calls := r.calls + 1, rest := r.rest.drop (min n cap) })

/-- Read until a sector is filled, the body ends, or a read fails. -/
def fill (want : Nat) (filled : Bytes) (r : Reader) : Option Bytes × Reader :=
  if _h : filled.length < want then
    match r.read (want - filled.length) with
    | (none, r) => (none, r)
    | (some chunk, r) =>
        if _hc : chunk = [] then (some filled, r) else fill want (filled ++ chunk) r
  else (some filled, r)
termination_by want - filled.length
decreasing_by
  have hpos := List.length_pos_iff.mpr _hc
  rw [List.length_append]
  omega

/-! ## The handler -/

/-- The flash, the writes to slots that were made, and whether a reboot is requested. -/
structure Device where
  flash : Nat → UInt8
  writes : List (Nat × Bytes)
  reboot : Bool

/-- The partition table, the writes that fail, with the bytes that they leave, and the
updater. -/
structure Env where
  table : Except String PartitionTable
  writeFails : Nat → Option (Nat → UInt8)
  updater : OtaUpdater (Metadata table)

/-- `Storage::write`. -/
def write (env : Env) (offset : Nat) (bytes : Bytes) (d : Device) : Bool × Device :=
  let writes := d.writes ++ [(offset, bytes)]
  match env.writeFails d.writes.length with
  | none => (true, { d with flash := put d.flash offset bytes, writes })
  | some left =>
      (false, { d with flash := Ota.overwrite d.flash offset bytes.length left, writes })

/-- The loop over the sectors.  It gives how much was written, or the error it ended with. -/
def receive (env : Env) (offset total written : Nat) (r : Reader) (d : Device) :
    Except String Nat × Reader × Device :=
  if _h : written < total then
    match fill (Ota.want total written) [] r with
    | (none, r) => (.error "read error mid-stream", r, d)
    | (some chunk, r) =>
        if _hc : chunk = [] then (.error "stream ended early", r, d)
        else
          match write env ((offset + written) % 4294967296) chunk d with
          | (false, d) => (.error "flash write failed", r, d)
          | (true, d) => receive env offset total (written + chunk.length) r d
  else (.ok written, r, d)
termination_by total - written
decreasing_by
  have hpos := List.length_pos_iff.mpr _hc
  omega

structure Outcome where
  report : OtaReport
  reader : Reader
  device : Device

/-- `write_image`.  A `usize` of the device has 32 bits. -/
def writeImage (env : Env) (contentLength : UInt32) (r : Reader) (d : Device) : Outcome :=
  let total := contentLength.toNat
  if total < Ota.minImage then ⟨.err "image too small / no Content-Length", r, d⟩
  else
    match inactiveSlot env.table with
    | .error e => ⟨.err ("no inactive OTA slot: " ++ e), r, d⟩
    | .ok slot =>
        if slot.len < total then ⟨.err "image larger than OTA partition", r, d⟩
        else
          match receive env slot.offset total 0 r d with
          | (.error e, r, d) => ⟨.err e, r, d⟩
          | (.ok written, r, d) =>
              match activateInactiveSlot env.updater d.flash with
              | (.error e, flash) => ⟨.err ("activate failed: " ++ e), r, { d with flash }⟩
              | (.ok (), flash) =>
                  ⟨⟨true, toString written ++ " bytes, rebooting"⟩, r,
                    { d with flash, reboot := true }⟩

/-! ## What is read -/

/-- A read takes what it gives off the front of the body. -/
theorem Reader.read_eq_some {r r' : Reader} {cap : Nat} {chunk : Bytes}
    (h : r.read cap = (some chunk, r')) : r.rest = chunk ++ r'.rest ∧ chunk.length ≤ cap := by
  rw [Reader.read] at h
  split at h
  · cases h
  · cases h
    refine ⟨(List.take_append_drop _ _).symm, ?_⟩
    rw [List.length_take]
    omega

/-- What is filled in is what was read, in order. -/
theorem fill_eq_some {want : Nat} {filled chunk : Bytes} {r r' : Reader}
    (hfilled : filled.length ≤ want) (h : fill want filled r = (some chunk, r')) :
    ∃ more, chunk = filled ++ more ∧ r.rest = more ++ r'.rest ∧ chunk.length ≤ want := by
  fun_induction fill want filled r with
  | case1 => cases h
  | case2 filled r hlt r'' hread =>
      cases h
      obtain ⟨hrest, -⟩ := Reader.read_eq_some hread
      exact ⟨[], (List.append_nil _).symm, hrest, hfilled⟩
  | case3 filled r hlt more r'' hread hmore ih =>
      obtain ⟨hrest, hcap⟩ := Reader.read_eq_some hread
      have hlength : (filled ++ more).length ≤ want := by
        rw [List.length_append]
        omega
      obtain ⟨later, rfl, hlater, hchunk⟩ := ih hlength h
      refine ⟨more ++ later, List.append_assoc _ _ _, ?_, hchunk⟩
      rw [hrest, hlater, List.append_assoc]
  | case4 filled r hfull =>
      cases h
      exact ⟨[], (List.append_nil _).symm, rfl, hfilled⟩

/-! ## What is written -/

/-- What a run does to the device within a range of the flash. -/
structure Within (offset len : Nat) (d d' : Device) : Prop where
  outside : ∀ i, i < offset ∨ offset + len ≤ i → d'.flash i = d.flash i
  writes : ∀ w ∈ d'.writes, w ∈ d.writes ∨ offset ≤ w.1 ∧ w.1 + w.2.length ≤ offset + len
  reboot : d'.reboot = d.reboot

variable {env : Env} {offset len total : Nat}

theorem Within.refl (d : Device) : Within offset len d d :=
  ⟨fun _ _ => rfl, fun _ hw => .inl hw, rfl⟩

theorem Within.trans {d d' d'' : Device} (h : Within offset len d d')
    (h' : Within offset len d' d'') : Within offset len d d'' where
  outside := fun i hi => (h'.outside i hi).trans (h.outside i hi)
  writes := fun w hw => (h'.writes w hw).elim (h.writes w) .inr
  reboot := h'.reboot.trans h.reboot

/-- A write stays in the range of its bytes, whether it fails or not. -/
theorem write_within {at' : Nat} {bytes : Bytes} (d : Device) (hlow : offset ≤ at')
    (hhigh : at' + bytes.length ≤ offset + len) :
    Within offset len d (write env at' bytes d).2 := by
  have hwrites : ∀ w ∈ d.writes ++ [(at', bytes)],
      w ∈ d.writes ∨ offset ≤ w.1 ∧ w.1 + w.2.length ≤ offset + len := by
    intro w hw
    refine (List.mem_append.mp hw).imp_right fun hw => ?_
    rw [List.mem_singleton.mp hw]
    exact ⟨hlow, hhigh⟩
  rw [write]
  split
  · exact ⟨fun i hi => ByteMemory.put_outside (by omega), hwrites, rfl⟩
  · exact ⟨fun i hi => if_neg (by omega), hwrites, rfl⟩

theorem write_eq_true {at' : Nat} {bytes : Bytes} {d d' : Device}
    (h : write env at' bytes d = (true, d')) : d'.flash = put d.flash at' bytes := by
  rw [write] at h
  split at h
  · cases h
    rfl
  · cases h

/-- A sector goes no further than the image. -/
theorem fill_sector {written : Nat} {chunk : Bytes} {r r' : Reader} (hlt : written < total)
    (h : fill (Ota.want total written) [] r = (some chunk, r')) :
    r.rest = chunk ++ r'.rest ∧ written + chunk.length ≤ total := by
  obtain ⟨more, rfl, hrest, hwant⟩ := fill_eq_some (Nat.zero_le _) h
  have hsector : Ota.want total written ≤ total - written := Nat.min_le_right _ _
  exact ⟨hrest, by omega⟩

/-- The loop writes to the range of the image alone. -/
theorem receive_within (hfits : offset + len ≤ 4294967296) (htotal : total ≤ len) (written : Nat)
    (r : Reader) (d : Device) :
    Within offset len d (receive env offset total written r d).2.2 := by
  have hwrite {written : Nat} {chunk : Bytes} {r r' : Reader} (d : Device) (hlt : written < total)
      (hfill : fill (Ota.want total written) [] r = (some chunk, r')) :
      Within offset len d (write env ((offset + written) % 4294967296) chunk d).2 := by
    obtain ⟨-, hend⟩ := fill_sector hlt hfill
    rw [Nat.mod_eq_of_lt (by omega)]
    exact write_within d (by omega) (by omega)
  fun_induction receive env offset total written r d with
  | case1 => exact .refl _
  | case2 => exact .refl _
  | case3 written r d hlt chunk r' hfill hchunk d' hfails =>
      have hwithin := hwrite d hlt hfill
      rw [hfails] at hwithin
      exact hwithin
  | case4 written r d hlt chunk r' hfill hchunk d' hwrites ih =>
      have hwithin := hwrite d hlt hfill
      rw [hwrites] at hwithin
      exact hwithin.trans ih
  | case5 => exact .refl _

/-- A loop that ends without an error read all of the image and wrote it in order. -/
theorem receive_eq_ok (hfits : offset + total ≤ 4294967296) {written n : Nat} {r r' : Reader}
    {d d' : Device} (hwritten : written ≤ total)
    (h : receive env offset total written r d = (.ok n, r', d')) :
    n = total ∧ ∃ image, written + image.length = total ∧ r.rest = image ++ r'.rest ∧
      d'.flash = put d.flash (offset + written) image := by
  fun_induction receive env offset total written r d with
  | case1 => cases h
  | case2 => cases h
  | case3 => cases h
  | case4 written r d hlt chunk r'' hfill hchunk d'' hwrite ih =>
      obtain ⟨hrest, hend⟩ := fill_sector hlt hfill
      rw [Nat.mod_eq_of_lt (by omega)] at hwrite
      obtain ⟨hn, image, hlength, hrest', hflash⟩ := ih hend h
      refine ⟨hn, chunk ++ image, ?_, ?_, ?_⟩
      · rw [List.length_append, ← Nat.add_assoc, hlength]
      · rw [hrest, hrest', List.append_assoc]
      · rw [hflash, write_eq_true hwrite, ByteMemory.put_append, Nat.add_assoc]
  | case5 written r d hdone =>
      cases h
      have hend : n = total := by omega
      exact ⟨hend, [], hend, rfl, rfl⟩

/-! ## The partition table -/

/-- The inactive slot is a slot of the table. -/
theorem inactiveSlot_eq_ok {table : Except String PartitionTable} {slot : Partition}
    (h : inactiveSlot table = .ok slot) :
    ∃ pt, table = .ok pt ∧ slot ∈ pt.parts ∧ ∃ sub, slot.type = .app sub := by
  cases table with
  | error e => cases h
  | ok pt =>
      refine ⟨pt, rfl, ?_⟩
      rcases hbooted : pt.booted with e | _ | booted
      · simp [inactiveSlot, hbooted, bind, Except.bind] at h
      · simp [inactiveSlot, hbooted, bind, Except.bind] at h
      · simp only [inactiveSlot, hbooted, bind, Except.bind] at h
        split at h
        · split at h
          · rename_i hfind
            cases h
            refine ⟨List.mem_of_find?_eq_some hfind, ?_⟩
            have hinactive := List.find?_some hfind
            rw [isInactive] at hinactive
            split at hinactive
            · exact ⟨_, by assumption⟩
            · cases hinactive
          · cases h
        · cases h

/-- The record of the active slot is not in a slot. -/
theorem Metadata.outside {table : Except String PartitionTable} {slot : Partition}
    (h : inactiveSlot table = .ok slot) {i : Nat} (hi : Metadata table i) :
    i < slot.offset ∨ slot.offset + slot.len ≤ i := by
  obtain ⟨pt, rfl, hslot, sub, htype⟩ := inactiveSlot_eq_ok h
  obtain ⟨pt', hpt, p, hp, hdata, hhas⟩ := hi
  cases hpt
  have hne : p ≠ slot := by
    rintro rfl
    rw [hdata] at htype
    cases htype
  have hapart := pt.apart.forall hp hslot hne
  rw [Partition.Apart] at hapart
  rw [Partition.Has] at hhas
  omega

/-! ## Updates -/

/-- The slot holds all of the image, which is what was read of the body. -/
def Stored (env : Env) (contentLength : UInt32) (r : Reader) (out : Outcome) : Prop :=
  ∃ slot image, inactiveSlot env.table = .ok slot ∧ image.length = contentLength.toNat ∧
    r.rest = image ++ out.reader.rest ∧ Holds out.device.flash slot.offset image

/-- The flash is what the steps of the activation left of one whose record was as before, and
the report says whether all of them succeeded. -/
def Activated (env : Env) (d : Device) (out : Outcome) : Prop :=
  ∃ flash, (∀ i, Metadata env.table i → flash i = d.flash i) ∧
    out.device.flash = (activateInactiveSlot env.updater flash).2 ∧
    (out.report.ok = true ↔ (activateInactiveSlot env.updater flash).1 = .ok ())

/-- How an update ends: with the device as it was, with writes to the slot, or behind the
activation of a slot that holds the image. -/
inductive Ends (env : Env) (contentLength : UInt32) (r : Reader) (d : Device) : Outcome → Prop
  | refused {out : Outcome} : out.report.ok = false → out.device = d →
      Ends env contentLength r d out
  | stopped {out : Outcome} {slot : Partition} : out.report.ok = false →
      inactiveSlot env.table = .ok slot → Within slot.offset slot.len d out.device →
      Ends env contentLength r d out
  | activated {report : OtaReport} {r' : Reader} {d' : Device} {slot : Partition} {image : Bytes} :
      inactiveSlot env.table = .ok slot → Within slot.offset slot.len d d' →
      image.length = contentLength.toNat → image.length ≤ slot.len →
      r.rest = image ++ r'.rest → Holds d'.flash slot.offset image →
      (report.ok = true ↔ (activateInactiveSlot env.updater d'.flash).1 = .ok ()) →
      Ends env contentLength r d ⟨report, r', { d' with
        flash := (activateInactiveSlot env.updater d'.flash).2
        reboot := report.ok || d'.reboot }⟩

theorem writeImage_ends (env : Env) (contentLength : UInt32) (r : Reader) (d : Device) :
    Ends env contentLength r d (writeImage env contentLength r d) := by
  rw [writeImage]
  split
  · exact .refused rfl rfl
  split
  · exact .refused rfl rfl
  rename_i slot hslot
  split
  · exact .refused rfl rfl
  rename_i hfits
  have hlen : contentLength.toNat ≤ slot.len := Nat.le_of_not_lt hfits
  have hwithin := @receive_within env slot.offset slot.len contentLength.toNat slot.inFlash hlen
    0 r d
  split
  · rename_i hreceive
    rw [hreceive] at hwithin
    exact .stopped rfl hslot hwithin
  · rename_i written r' d' hreceive
    have hflash := slot.inFlash
    obtain ⟨-, image, hlength, hrest, hput⟩ :=
      receive_eq_ok (by omega) (Nat.zero_le _) hreceive
    rw [hreceive] at hwithin
    rw [Nat.zero_add] at hlength
    have hholds : Holds d'.flash slot.offset image := by
      rw [hput]
      exact ByteMemory.holds_put image
    split
    · rename_i e flash hactivate
      have hends := @Ends.activated env contentLength r d (.err ("activate failed: " ++ e)) r' d'
        slot image hslot hwithin hlength (hlength ▸ hlen) hrest hholds (by
          rw [hactivate]
          exact iff_of_false (nofun) (nofun))
      rw [hactivate] at hends
      exact hends
    · rename_i flash hactivate
      have hends := @Ends.activated env contentLength r d
        ⟨true, toString written ++ " bytes, rebooting"⟩ r' d' slot image hslot hwithin hlength
        (hlength ▸ hlen) hrest hholds (by
          rw [hactivate]
          exact iff_of_true rfl rfl)
      rw [hactivate] at hends
      exact hends

/-- The activation writes the record alone. -/
theorem activate_frame {metadata : Nat → Prop} (updater : OtaUpdater metadata)
    (flash : Nat → UInt8) {i : Nat} (hi : ¬ metadata i) :
    (activateInactiveSlot updater flash).2 i = flash i := by
  have hnext := updater.activate_frame flash i hi
  rw [activateInactiveSlot]
  split
  · rfl
  · split
    · rename_i hactivate
      rw [hactivate] at hnext
      exact hnext
    · rename_i hactivate
      rw [hactivate] at hnext
      exact (updater.setState_frame _ i hi).trans hnext

/-- The slot holds after the activation what it held before. -/
theorem holds_activate {slot : Partition} {image : Bytes} {flash : Nat → UInt8}
    (hslot : inactiveSlot env.table = .ok slot) (hlen : image.length ≤ slot.len)
    (h : Holds flash slot.offset image) :
    Holds (activateInactiveSlot env.updater flash).2 slot.offset image := by
  refine h.congr fun i hlow hhigh => activate_frame env.updater flash fun hmeta => ?_
  have hout := Metadata.outside hslot hmeta
  omega

/-- **Update.**  An update writes to the inactive slot alone.  The record of the active slot and
the reboot are touched only when the slot holds all of the image.  The record is then what the
steps of the activation left, and the reboot is requested just when all of them succeeded. -/
theorem touched_only_when_stored (env : Env) (contentLength : UInt32) (r : Reader) (d : Device) :
    let out := writeImage env contentLength r d
    (∀ w ∈ out.device.writes, w ∈ d.writes ∨ ∃ slot, inactiveSlot env.table = .ok slot ∧
      slot.offset ≤ w.1 ∧ w.1 + w.2.length ≤ slot.offset + slot.len) ∧
    (∀ i, out.device.flash i ≠ d.flash i → Metadata env.table i ∨
      ∃ slot, inactiveSlot env.table = .ok slot ∧ slot.Has i) ∧
    ((∃ i, Metadata env.table i ∧ out.device.flash i ≠ d.flash i) →
      Stored env contentLength r out ∧ Activated env d out) ∧
    (out.device.reboot ≠ d.reboot → out.report.ok = true) ∧
    (out.report.ok = true →
      out.device.reboot = true ∧ Stored env contentLength r out ∧ Activated env d out) := by
  have hends := writeImage_ends env contentLength r d
  dsimp only
  revert hends
  generalize writeImage env contentLength r d = out
  intro hends
  have hwrites {slot : Partition} {d' : Device} (hslot : inactiveSlot env.table = .ok slot)
      (hwithin : Within slot.offset slot.len d d') : ∀ w ∈ d'.writes, w ∈ d.writes ∨
        ∃ slot, inactiveSlot env.table = .ok slot ∧ slot.offset ≤ w.1 ∧
          w.1 + w.2.length ≤ slot.offset + slot.len := fun w hw =>
    (hwithin.writes w hw).imp_right fun hin => ⟨slot, hslot, hin⟩
  have hflash {slot : Partition} {d' : Device} (hwithin : Within slot.offset slot.len d d')
      {i : Nat} (hi : d'.flash i ≠ d.flash i) : slot.Has i := by
    rw [Partition.Has]
    by_contra hout
    exact hi (hwithin.outside i (by omega))
  cases hends with
  | refused hreport hdevice =>
      rw [hdevice, hreport]
      refine ⟨fun w hw => .inl hw, fun i hi => absurd rfl hi, ?_,
        fun hreboot => absurd rfl hreboot, fun hok => absurd hok Bool.false_ne_true⟩
      rintro ⟨i, -, hi⟩
      exact absurd rfl hi
  | @stopped _ slot hreport hslot hwithin =>
      rw [hreport]
      refine ⟨hwrites hslot hwithin, fun i hi => .inr ⟨slot, hslot, hflash hwithin hi⟩, ?_,
        fun hreboot => absurd hwithin.reboot hreboot, fun hok => absurd hok Bool.false_ne_true⟩
      rintro ⟨i, hmeta, hi⟩
      exact absurd (hwithin.outside i (Metadata.outside hslot hmeta)) hi
  | @activated report r' d' slot image hslot hwithin hlength hlen hrest hholds hreport =>
      have hstored : Stored env contentLength r ⟨report, r', { d' with
          flash := (activateInactiveSlot env.updater d'.flash).2
          reboot := report.ok || d'.reboot }⟩ :=
        ⟨slot, image, hslot, hlength, hrest, holds_activate hslot hlen hholds⟩
      have hactivated : Activated env d ⟨report, r', { d' with
          flash := (activateInactiveSlot env.updater d'.flash).2
          reboot := report.ok || d'.reboot }⟩ :=
        ⟨d'.flash, fun i hi => hwithin.outside i (Metadata.outside hslot hi), rfl, hreport⟩
      have hmade := hwrites hslot hwithin
      refine ⟨hmade, fun i hi => ?_, fun _ => ⟨hstored, hactivated⟩, fun hreboot => ?_,
        fun hok => ⟨?_, hstored, hactivated⟩⟩
      · refine or_iff_not_imp_left.mpr fun hmeta => ⟨slot, hslot, hflash hwithin ?_⟩
        rwa [← activate_frame env.updater d'.flash hmeta]
      · by_contra hfailed
        rw [Bool.not_eq_true] at hfailed
        dsimp only at hreboot
        rw [hfailed, Bool.false_or] at hreboot
        exact hreboot hwithin.reboot
      · dsimp only
        rw [show report.ok = true from hok]
        rfl

/-! ## Updates that arrive -/

/-- Reads that give something fill a sector, as long as there is enough to read. -/
theorem fill_completes {want : Nat} {filled : Bytes} {r : Reader}
    (hsizes : ∀ k, ∃ n, r.sizes k = some (n + 1)) (hfilled : filled.length ≤ want)
    (hrest : want - filled.length ≤ r.rest.length) :
    ∃ chunk r', fill want filled r = (some chunk, r') ∧ chunk.length = want ∧
      r'.sizes = r.sizes := by
  obtain ⟨n, hn⟩ : ∃ n, n = want - filled.length := ⟨_, rfl⟩
  induction n using Nat.strongRecOn generalizing filled r with
  | ind n ih =>
      rw [fill]
      by_cases hlt : filled.length < want
      · rw [dif_pos hlt]
        obtain ⟨m, hm⟩ := hsizes r.calls
        have hread : r.read (want - filled.length) =
            (some (r.rest.take (min (m + 1) (want - filled.length))),
              { r with calls := r.calls + 1
                       rest := r.rest.drop (min (m + 1) (want - filled.length)) }) := by
          rw [Reader.read, hm]
        have hlength : (r.rest.take (min (m + 1) (want - filled.length))).length =
            min (m + 1) (want - filled.length) := by
          rw [List.length_take]
          omega
        have hne : r.rest.take (min (m + 1) (want - filled.length)) ≠ [] := by
          rw [← List.length_pos_iff, hlength]
          omega
        rw [hread]
        dsimp only
        rw [dif_neg hne]
        refine ih _ ?_ hsizes ?_ ?_ rfl
        · rw [List.length_append, hlength]
          omega
        · rw [List.length_append, hlength]
          omega
        · rw [List.length_append, hlength, List.length_drop]
          omega
      · rw [dif_neg hlt]
        exact ⟨filled, r, rfl, by omega, rfl⟩

theorem sector_completes {written : Nat} {r : Reader} (hsizes : ∀ k, ∃ n, r.sizes k = some (n + 1))
    (hrest : total - written ≤ r.rest.length) :
    ∃ chunk r', fill (Ota.want total written) [] r = (some chunk, r') ∧
      chunk.length = Ota.want total written ∧ r'.sizes = r.sizes := by
  have hwant : Ota.want total written ≤ total - written := Nat.min_le_right _ _
  refine fill_completes hsizes (Nat.zero_le _) ?_
  rw [List.length_nil]
  omega

/-- An image that arrives, in reads of whatever sizes, is written where no write fails. -/
theorem receive_completes (hwrites : ∀ k, env.writeFails k = none) {written : Nat} {r : Reader}
    (hsizes : ∀ k, ∃ n, r.sizes k = some (n + 1)) (hwritten : written ≤ total)
    (hrest : total - written ≤ r.rest.length) (d : Device) :
    ∃ r' d', receive env offset total written r d = (.ok total, r', d') := by
  fun_induction receive env offset total written r d with
  | case1 written r d hlt r' hfill =>
      obtain ⟨_, _, hfull, -, -⟩ := sector_completes hsizes hrest
      rw [hfill] at hfull
      cases hfull
  | case2 written r d hlt r' hfill =>
      obtain ⟨_, _, hfull, hlength, -⟩ := sector_completes hsizes hrest
      rw [hfill] at hfull
      cases hfull
      have hpos : 0 < Ota.want total written := Nat.lt_min.mpr ⟨by decide, by omega⟩
      exact absurd hlength (Nat.ne_of_lt hpos)
  | case3 written r d hlt chunk r' hfill hchunk d' hfails =>
      rw [write, hwrites] at hfails
      cases hfails
  | case4 written r d hlt chunk r' hfill hchunk d' hwrite ih =>
      obtain ⟨_, _, hfull, hlength, hsame⟩ := sector_completes hsizes hrest
      rw [hfill] at hfull
      cases hfull
      obtain ⟨hread, hend⟩ := fill_sector hlt hfill
      have hbytes := congrArg List.length hread
      rw [List.length_append] at hbytes
      exact ih (hsame ▸ hsizes) hend (by omega)
  | case5 written r d hdone =>
      exact ⟨r, d, by rw [show written = total by omega]⟩

/-- An image that fits the slot is received. -/
theorem writeImage_fits {slot : Partition} {contentLength : UInt32}
    (hmin : ¬ contentLength.toNat < Ota.minImage) (hslot : inactiveSlot env.table = .ok slot)
    (hfits : ¬ slot.len < contentLength.toNat) (r : Reader) (d : Device) :
    writeImage env contentLength r d =
      match receive env slot.offset contentLength.toNat 0 r d with
      | (.error e, r, d) => ⟨.err e, r, d⟩
      | (.ok written, r, d) =>
          match activateInactiveSlot env.updater d.flash with
          | (.error e, flash) => ⟨.err ("activate failed: " ++ e), r, { d with flash }⟩
          | (.ok (), flash) =>
              ⟨⟨true, toString written ++ " bytes, rebooting"⟩, r,
                { d with flash, reboot := true }⟩ := by
  rw [writeImage, if_neg hmin, hslot]
  dsimp only
  rw [if_neg hfits]

/-- An update whose image arrives ends with its activation. -/
theorem writeImage_completes {slot : Partition} {contentLength : UInt32} {r : Reader} {d : Device}
    (hslot : inactiveSlot env.table = .ok slot) (hmin : Ota.minImage ≤ contentLength.toNat)
    (hlen : contentLength.toNat ≤ slot.len) (hwrites : ∀ k, env.writeFails k = none)
    (hsizes : ∀ k, ∃ n, r.sizes k = some (n + 1)) (hrest : contentLength.toNat ≤ r.rest.length) :
    ∃ r' d', Within slot.offset slot.len d d' ∧ writeImage env contentLength r d =
      match activateInactiveSlot env.updater d'.flash with
      | (.error e, flash) => ⟨.err ("activate failed: " ++ e), r', { d' with flash }⟩
      | (.ok (), flash) =>
          ⟨⟨true, toString contentLength.toNat ++ " bytes, rebooting"⟩, r',
            { d' with flash, reboot := true }⟩ := by
  obtain ⟨r', d', hreceive⟩ := @receive_completes env slot.offset contentLength.toNat hwrites 0 r
    hsizes (Nat.zero_le _) hrest d
  have hwithin := @receive_within env slot.offset slot.len contentLength.toNat slot.inFlash hlen
    0 r d
  rw [hreceive] at hwithin
  refine ⟨r', d', hwithin, ?_⟩
  rw [writeImage_fits (Nat.not_lt_of_le hmin) hslot (Nat.not_lt_of_le hlen), hreceive]

/-- The partitions of the device. -/
def partitions : PartitionTable where
  parts := [⟨.other, 0x9000, 0x6000, by decide⟩, ⟨.otaData, 0xf000, 0x2000, by decide⟩,
    ⟨.other, 0x11000, 0x1000, by decide⟩, ⟨.app (.ota 0), 0x20000, 0x1f0000, by decide⟩,
    ⟨.app (.ota 1), 0x210000, 0x1f0000, by decide⟩]
  apart := by decide
  booted := .ok (some ⟨.app (.ota 0), 0x20000, 0x1f0000, by decide⟩)

theorem metadata_partitions : Metadata (.ok partitions) 0xf000 :=
  ⟨partitions, rfl, ⟨.otaData, 0xf000, 0x2000, by decide⟩, .tail _ (.head _), rfl, by decide,
    by decide⟩

/-- A device on which the second step of the activation fails. -/
def halfway : Env where
  table := .ok partitions
  writeFails := fun _ => none
  updater := {
    new := fun _ => .ok ()
    activateNextPartition := fun flash => (.ok (), fun i => if i = 0xf000 then 1 else flash i)
    setCurrentOtaState := fun flash => (.error "FlashError", flash)
    activate_frame := fun _ i hi => if_neg fun h : i = 0xf000 => hi (h ▸ metadata_partitions)
    setState_frame := fun _ _ _ => rfl }

/-- An activation that fails in its second step leaves a record of its first, and no reboot. -/
theorem activated_halfway :
    let d : Device := ⟨fun _ => 0, [], false⟩
    let out := writeImage halfway 65536 ⟨fun _ => some 1460, 0, List.replicate 65536 0⟩ d
    out.device.reboot = false ∧ Metadata halfway.table 0xf000 ∧
      out.device.flash 0xf000 ≠ d.flash 0xf000 := by
  have hslot : inactiveSlot halfway.table =
      .ok ⟨.app (.ota 1), 0x210000, 0x1f0000, by decide⟩ := rfl
  obtain ⟨r', d', hwithin, hout⟩ := @writeImage_completes halfway _ 65536
    ⟨fun _ => some 1460, 0, List.replicate 65536 0⟩ ⟨fun _ => 0, [], false⟩ hslot (by decide)
    (by decide) (fun _ => rfl) (fun _ => ⟨1459, rfl⟩) (by rw [List.length_replicate]; decide)
  dsimp only
  rw [hout]
  exact ⟨hwithin.reboot, metadata_partitions, (show (1 : UInt8) ≠ 0 by decide)⟩

end OtaStream

end WaterController
