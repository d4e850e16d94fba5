import WaterController.Nostd.OtaStream

/-!
# An update as a whole

The web API has an update as `Ota.writeImage`, of a body that is there as a whole.
`OtaStream.writeImage` reads it piece by piece.  On the bytes that it read the two do the same
(`writeImage_refines`), provided that a read which gives nothing has found the end of the body.

`Ota.writeImage` has the offsets of the slot, and fails a write by its offset.  The stream has
those of the flash, and fails a write by how many were made before it.  All writes but the last
are of whole sectors, so the one follows from the other.
-/

namespace WaterController

namespace OtaStream

open ByteMemory (put)

/-- A body of which a read gives something as long as something is to come.  Behind its end no
read fails. -/
def Reader.Brings (total : Nat) (r : Reader) : Prop :=
  (∀ k, r.sizes k ≠ some 0) ∧ ((∀ k, r.sizes k ≠ none) ∨ total ≤ r.rest.length)

/-! ## The device, seen by its slots -/

/-- A partition's bytes by their offset in it. -/
def Partition.slot (p : Partition) (flash : Nat → UInt8) : OtaSlot where
  len := p.len
  contents := fun i => if i < p.len then flash (p.offset + i) else 0

/-- The record of the active slot. -/
def otadata (table : Except String PartitionTable) (flash : Nat → UInt8) : Bytes :=
  match table with
  | .error _ => []
  | .ok pt => (pt.parts.filter (·.type == .otaData)).flatMap fun p =>
      (List.range p.len).map fun i => flash (p.offset + i)

def slots (table : Except String PartitionTable) (flash : Nat → UInt8) : OtaFlash where
  inactive := (inactiveSlot table).map (·.slot flash)
  otadata := otadata table flash

/-- Where the inactive slot is. -/
def Env.offset (env : Env) : Nat :=
  match inactiveSlot env.table with
  | .error _ => 0
  | .ok slot => slot.offset

/-- How the flash takes the update that is read. -/
def Env.whole (env : Env) (total : Nat) (r : Reader) (d : Device) : OtaEnv :=
  let received := (receive env env.offset total 0 r d).2.2.flash
  { writeFails := fun written =>
      (env.writeFails (d.writes.length + written / Ota.sector)).map fun left i =>
        left (env.offset + i)
    activation := (activateInactiveSlot env.updater received).1
    activated := otadata env.table (activateInactiveSlot env.updater received).2 }

/-- The record is that of its own bytes. -/
theorem otadata_congr {table : Except String PartitionTable} {flash flash' : Nat → UInt8}
    (h : ∀ i, Metadata table i → flash' i = flash i) :
    otadata table flash' = otadata table flash := by
  cases table with
  | error e => rfl
  | ok pt =>
      rw [otadata, otadata]
      refine List.flatMap_congr fun p hp => List.map_congr_left fun i hi => ?_
      rw [List.mem_filter, beq_iff_eq] at hp
      rw [List.mem_range] at hi
      exact h _ ⟨pt, rfl, p, hp.1, hp.2, by rw [Partition.Has]; omega⟩

/-- A slot is that of its own bytes. -/
theorem Partition.slot_congr {p : Partition} {flash flash' : Nat → UInt8}
    (h : ∀ i, p.Has i → flash' i = flash i) : p.slot flash' = p.slot flash := by
  rw [Partition.slot, Partition.slot]
  refine congrArg _ (funext fun i => ?_)
  by_cases hi : i < p.len
  · rw [if_pos hi, if_pos hi]
    exact h _ ⟨by omega, by omega⟩
  · rw [if_neg hi, if_neg hi]

/-! ## Sectors -/

variable {slot : Partition} {total written : Nat}

/-- Bytes put into the slot overwrite its contents. -/
theorem slot_put {chunk : Bytes} (hin : written + chunk.length ≤ slot.len) (flash : Nat → UInt8) :
    (slot.slot (put flash (slot.offset + written) chunk)).contents =
      Ota.overwrite (slot.slot flash).contents written chunk.length
        (Ota.chunkAt chunk written) := by
  funext i
  simp only [Partition.slot, ByteMemory.put_apply, Ota.overwrite, Ota.chunkAt]
  grind

/-- So do the bytes that a failed write leaves. -/
theorem slot_overwrite {n : Nat} (hin : written + n ≤ slot.len) (flash left : Nat → UInt8) :
    (slot.slot (Ota.overwrite flash (slot.offset + written) n left)).contents =
      Ota.overwrite (slot.slot flash).contents written n fun i => left (slot.offset + i) := by
  funext i
  simp only [Partition.slot, Ota.overwrite]
  grind

/-! ## What is read -/

theorem Reader.read_sizes (r : Reader) (cap : Nat) : (r.read cap).2.sizes = r.sizes := by
  rw [Reader.read]
  split
  · rfl
  · rfl

theorem fill_sizes (want : Nat) (filled : Bytes) (r : Reader) :
    (fill want filled r).2.sizes = r.sizes := by
  fun_induction fill want filled r with
  | case1 filled r hlt r' hread => rw [← r.read_sizes (want - filled.length), hread]
  | case2 filled r hlt r' hread => rw [← r.read_sizes (want - filled.length), hread]
  | case3 filled r hlt chunk r' hread hchunk ih =>
      rw [ih, ← r.read_sizes (want - filled.length), hread]
  | case4 => rfl

/-- A sector that stays open because a read fails. -/
theorem fill_eq_none {want : Nat} {filled : Bytes} {r r' : Reader}
    (h : fill want filled r = (none, r')) :
    ∃ more, r.rest = more ++ r'.rest ∧ filled.length + more.length < want ∧
      ∃ k, r.sizes k = none := by
  fun_induction fill want filled r with
  | case1 filled r hlt r'' hread =>
      cases h
      rw [Reader.read] at hread
      split at hread
      · rename_i hfails
        cases hread
        exact ⟨[], rfl, hlt, r.calls, hfails⟩
      · cases hread
  | case2 => cases h
  | case3 filled r hlt chunk r'' hread hchunk ih =>
      obtain ⟨hrest, -⟩ := Reader.read_eq_some hread
      have hsizes := r.read_sizes (want - filled.length)
      rw [hread] at hsizes
      obtain ⟨more, hmore, hlength, k, hfails⟩ := ih h
      rw [List.length_append] at hlength
      refine ⟨chunk ++ more, ?_, ?_, k, hsizes ▸ hfails⟩
      · rw [hrest, hmore, List.append_assoc]
      · rw [List.length_append]
        omega
  | case4 => cases h

/-- A sector that is not full is the end of the body. -/
theorem fill_short {want : Nat} {filled chunk : Bytes} {r r' : Reader}
    (hsizes : ∀ k, r.sizes k ≠ some 0) (h : fill want filled r = (some chunk, r'))
    (hshort : chunk.length < want) : r'.rest = [] := by
  fun_induction fill want filled r with
  | case1 => cases h
  | case2 filled r hlt r'' hread =>
      cases h
      rw [Reader.read] at hread
      split at hread
      · cases hread
      · rename_i n hn
        rw [Prod.mk.injEq, Option.some.injEq] at hread
        obtain ⟨hnil, rfl⟩ := hread
        have hpos : n ≠ 0 := fun h0 => hsizes r.calls (h0 ▸ hn)
        have hcap : min n (want - chunk.length) ≠ 0 := by omega
        have hrest : r.rest = [] := (List.take_eq_nil_iff.mp hnil).resolve_left hcap
        dsimp only
        rw [hrest, List.drop_nil]
  | case3 filled r hlt more r'' hread hmore ih =>
      have hsame := r.read_sizes (want - filled.length)
      rw [hread] at hsame
      exact ih (fun k => hsame ▸ hsizes k) h
  | case4 filled r hfull =>
      cases h
      exact absurd hshort hfull

/-- A sector is full, or the body is at its end. -/
theorem fill_full {want : Nat} {chunk : Bytes} {r r' : Reader}
    (hsizes : ∀ k, r.sizes k ≠ some 0) (h : fill want [] r = (some chunk, r')) :
    chunk.length = want ∨ r'.rest = [] := by
  obtain ⟨_, rfl, -, hcap⟩ := fill_eq_some (Nat.zero_le _) h
  exact (Nat.eq_or_lt_of_le hcap).imp_right (fill_short hsizes h)

/-- What is behind a sector is still brought. -/
theorem Reader.Brings.fill {chunk : Bytes} {r r' : Reader} (hr : r.Brings (total - written))
    (hlt : written < total) (h : fill (Ota.want total written) [] r = (some chunk, r')) :
    r'.Brings (total - (written + chunk.length)) := by
  have hsizes := fill_sizes (Ota.want total written) [] r
  rw [h] at hsizes
  obtain ⟨hrest, -⟩ := fill_sector hlt h
  have hlength := congrArg List.length hrest
  rw [List.length_append] at hlength
  refine ⟨fun k => hsizes ▸ hr.1 k, hr.2.imp (fun hnone k => hsizes ▸ hnone k) fun hall => ?_⟩
  omega

/-! ## The loop -/

/-- Where the loop is between two sectors, unless the image or the body is at its end. -/
def AtSector (made total written : Nat) (r : Reader) (d : Device) : Prop :=
  written < total → r.rest ≠ [] →
    Ota.sector ∣ written ∧ d.writes.length = made + written / Ota.sector

/-- A write to the slot that fails overwrites its contents with what it leaves. -/
theorem write_fails {env : Env} {chunk : Bytes} {d d' : Device}
    (hin : written + chunk.length ≤ slot.len)
    (h : write env (slot.offset + written) chunk d = (false, d')) :
    ∃ left, env.writeFails d.writes.length = some left ∧
      (slot.slot d'.flash).contents = Ota.overwrite (slot.slot d.flash).contents written
        chunk.length fun i => left (slot.offset + i) := by
  rw [write] at h
  split at h
  · cases h
  · rename_i left hleft
    cases h
    exact ⟨left, hleft, slot_overwrite hin d.flash left⟩

/-- A write to the slot that is taken overwrites its contents with the bytes. -/
theorem write_goes {env : Env} {chunk : Bytes} {d d' : Device}
    (hin : written + chunk.length ≤ slot.len)
    (h : write env (slot.offset + written) chunk d = (true, d')) :
    env.writeFails d.writes.length = none ∧ d'.writes.length = d.writes.length + 1 ∧
      (slot.slot d'.flash).contents = Ota.overwrite (slot.slot d.flash).contents written
        chunk.length (Ota.chunkAt chunk written) := by
  rw [write] at h
  split at h
  · rename_i hnone
    cases h
    exact ⟨hnone, List.length_append, slot_put hin d.flash⟩
  · cases h

/-- Behind a sector the loop is at the next one. -/
theorem AtSector.next {made : Nat} {chunk : Bytes} {r' : Reader} {d d' : Device}
    (h : d.writes.length = made + written / Ota.sector) (hdvd : Ota.sector ∣ written)
    (hcount : d'.writes.length = d.writes.length + 1)
    (hwant : chunk.length = Ota.want total written ∨ r'.rest = []) :
    AtSector made total (written + chunk.length) r' d' := by
  intro hlt hmore
  have hfull := hwant.resolve_right hmore
  have hsector : Ota.sector = 4096 := rfl
  rw [Ota.want, hsector] at hfull
  rw [hsector] at h hdvd ⊢
  obtain ⟨k, rfl⟩ := hdvd
  have hchunk : chunk.length = 4096 := by omega
  rw [hchunk, hcount, h]
  exact ⟨by omega, by omega⟩

/-- The sector that was filled is the next one of the bytes that it starts, and the bytes behind
it are the rest of them. -/
theorem sector_split {chunk arrived : Bytes} {r r' : Reader} {failed : Bool}
    (hr : r.Brings (total - written))
    (h : fill (Ota.want total written) [] r = (some chunk, r')) (harrived : arrived <+: r'.rest)
    (hfailed : failed = true → ∃ k, r.sizes k = none) :
    Ota.nextChunk total written (chunk ++ arrived) = chunk ∧
      (chunk ++ arrived).drop (Ota.want total written) = arrived ∧
      ¬ ((chunk ++ arrived).length < Ota.want total written ∧ failed = true) := by
  obtain ⟨_, rfl, hrest, hcap⟩ := fill_eq_some (Nat.zero_le _) h
  rcases Nat.eq_or_lt_of_le hcap with hfull | hshort
  · refine ⟨List.take_left' hfull, List.drop_left' hfull, fun hless => ?_⟩
    rw [List.length_append] at hless
    omega
  · have hend := fill_short hr.1 h hshort
    obtain rfl : arrived = [] := List.prefix_nil.mp (hend ▸ harrived)
    rw [List.append_nil]
    refine ⟨List.take_of_length_le hcap, List.drop_of_length_le hcap, fun hless => ?_⟩
    obtain ⟨k, hk⟩ := hfailed hless.2
    have hlength := congrArg List.length hrest
    rw [hend, List.append_nil] at hlength
    have hwant : Ota.want total written ≤ total - written := Nat.min_le_right _ _
    rcases hr.2 with hnone | hall
    · exact hnone k hk
    · omega

/-- The error that the loop ended with. -/
def endedWith : Except String Nat → Option String
  | .error e => some e
  | .ok _ => none

/-- The loop does what `Ota.writeSectors` does on the bytes that it reads. -/
theorem receive_refines {env : Env} {whole : OtaEnv} {made : Nat} (htotal : total ≤ slot.len)
    (hwhole : ∀ o, whole.writeFails o =
      (env.writeFails (made + o / Ota.sector)).map fun left i => left (slot.offset + i))
    (r : Reader) (d : Device) (hr : r.Brings (total - written))
    (hat : AtSector made total written r d) :
    ∃ arrived failed, r.rest = arrived ++ (receive env slot.offset total written r d).2.1.rest ∧
      (failed = true → ∃ k, r.sizes k = none) ∧
      Ota.writeSectors whole total failed written arrived (slot.slot d.flash).contents =
        ((slot.slot (receive env slot.offset total written r d).2.2.flash).contents,
          endedWith (receive env slot.offset total written r d).1) := by
  have hflash := slot.inFlash
  -- nothing is asked of the reads where the connection did not fail
  have hgoing {r : Reader} : false = true → ∃ k, r.sizes k = none :=
    fun h => absurd h Bool.false_ne_true
  fun_induction receive env slot.offset total written r d with
  | case1 written r d hlt r' hfill =>
      obtain ⟨more, hrest, hshort, k, hfails⟩ := fill_eq_none hfill
      rw [List.length_nil, Nat.zero_add] at hshort
      refine ⟨more, true, hrest, fun _ => ⟨k, hfails⟩, ?_⟩
      rw [Ota.writeSectors, dif_pos hlt, if_pos ⟨hshort, rfl⟩]
      rfl
  | case2 written r d hlt r' hfill =>
      obtain ⟨hrest, -⟩ := fill_sector hlt hfill
      have hnil : Ota.nextChunk total written [] = [] := List.take_nil
      refine ⟨[], false, hrest, hgoing, ?_⟩
      rw [Ota.writeSectors, dif_pos hlt, if_neg (by simp), dif_pos hnil]
      rfl
  | case3 written r d hlt chunk r' hfill hchunk d' hwrite =>
      obtain ⟨hrest, hend⟩ := fill_sector hlt hfill
      rw [Nat.mod_eq_of_lt (by omega)] at hwrite
      obtain ⟨left, hleft, hslot⟩ := write_fails (by omega) hwrite
      obtain ⟨-, hcount⟩ := hat hlt (by simp [hrest, hchunk])
      have hsplit := @sector_split total written chunk [] r r' false hr hfill
        List.nil_prefix hgoing
      rw [List.append_nil] at hsplit
      obtain ⟨hnext, -, hgoes⟩ := hsplit
      refine ⟨chunk, false, hrest, hgoing, ?_⟩
      rw [Ota.writeSectors_fails _ hlt hgoes (hnext.symm ▸ hchunk)
        (by rw [hwhole, ← hcount, hleft]; rfl), hnext, hslot]
      rfl
  | case4 written r d hlt chunk r' hfill hchunk d' hwrite ih =>
      obtain ⟨hrest, hend⟩ := fill_sector hlt hfill
      rw [Nat.mod_eq_of_lt (by omega)] at hwrite
      obtain ⟨hnone, hmade, hslot⟩ := write_goes (by omega) hwrite
      obtain ⟨hdvd, hcount⟩ := hat hlt (by simp [hrest, hchunk])
      obtain ⟨arrived, failed, hmore, hfailed, hsectors⟩ := ih (hr.fill hlt hfill)
        (AtSector.next hcount hdvd hmade (fill_full hr.1 hfill))
      have hsizes := fill_sizes (Ota.want total written) [] r
      rw [hfill] at hsizes
      rw [hsizes] at hfailed
      obtain ⟨hnext, hdrop, hgoes⟩ :=
        sector_split hr hfill (hmore ▸ List.prefix_append _ _) hfailed
      refine ⟨chunk ++ arrived, failed, ?_, hfailed, ?_⟩
      · rw [hrest, List.append_assoc]
        exact congrArg _ hmore
      rw [Ota.writeSectors_goes _ hlt hgoes (hnext.symm ▸ hchunk)
        (by rw [hwhole, ← hcount, hnone]; rfl), hnext, hdrop, ← hslot]
      exact hsectors
  | case5 written r d hdone =>
      refine ⟨[], false, rfl, hgoing, ?_⟩
      rw [Ota.writeSectors, dif_neg hdone]
      rfl

/-! ## The update -/

/-- The writes to a slot leave the record alone, and the other way round. -/
theorem slots_within {env : Env} {flash flash' : Nat → UInt8}
    (hslot : inactiveSlot env.table = .ok slot)
    (hout : ∀ i, i < slot.offset ∨ slot.offset + slot.len ≤ i → flash' i = flash i) :
    slots env.table flash' =
      { slots env.table flash with inactive := .ok (slot.slot flash') } := by
  rw [slots, slots, hslot, otadata_congr fun i hi => hout i (Metadata.outside hslot hi)]
  rfl

theorem slots_activate {env : Env} (hslot : inactiveSlot env.table = .ok slot)
    (flash : Nat → UInt8) :
    slots env.table (activateInactiveSlot env.updater flash).2 =
      { slots env.table flash with
        otadata := otadata env.table (activateInactiveSlot env.updater flash).2 } := by
  have hsame : slot.slot (activateInactiveSlot env.updater flash).2 = slot.slot flash := by
    refine Partition.slot_congr fun i hi => activate_frame env.updater flash fun hmeta => ?_
    have hout := Metadata.outside hslot hmeta
    rw [Partition.Has] at hi
    omega
  rw [slots, slots, hslot]
  exact congrArg (OtaFlash.mk · _) (congrArg Except.ok hsame)

theorem whole_activation {env : Env} (hslot : inactiveSlot env.table = .ok slot) {r r' : Reader}
    {d d' : Device} {result : Except String Nat}
    (hreceive : receive env slot.offset total 0 r d = (result, r', d')) :
    (env.whole total r d).activation = (activateInactiveSlot env.updater d'.flash).1 ∧
      (env.whole total r d).activated =
        otadata env.table (activateInactiveSlot env.updater d'.flash).2 := by
  have hoffset : env.offset = slot.offset := by rw [Env.offset, hslot]
  dsimp only [Env.whole]
  rw [hoffset, hreceive]
  exact ⟨rfl, rfl⟩

/-- An update that the slot has room for does the same on the bytes that it reads. -/
theorem fits_refines {env : Env} {contentLength : UInt32} {r : Reader} {d : Device}
    (hr : r.Brings contentLength.toNat) (hmin : ¬ contentLength.toNat < Ota.minImage)
    (hslot : inactiveSlot env.table = .ok slot) (hlarge : ¬ slot.len < contentLength.toNat) :
    ∃ body : Body, body.contentLength = contentLength.toNat ∧
      r.rest = body.arrived ++ (writeImage env contentLength r d).reader.rest ∧
      Ota.writeImage (env.whole contentLength.toNat r d) (slots env.table d.flash) d.reboot body =
        ((writeImage env contentLength r d).report,
          slots env.table (writeImage env contentLength r d).device.flash,
          (writeImage env contentLength r d).device.reboot) := by
  have hflash := slot.inFlash
  have hlen := Nat.le_of_not_lt hlarge
  have hinactive : (slots env.table d.flash).inactive = .ok (slot.slot d.flash) := by
    rw [slots, hslot]
    rfl
  have hfits : ¬ (slot.slot d.flash).len < contentLength.toNat := hlarge
  have hoffset : env.offset = slot.offset := by rw [Env.offset, hslot]
  obtain ⟨arrived, failed, hrest, -, hsectors⟩ := receive_refines hlen
    (fun o => show (env.whole contentLength.toNat r d).writeFails o = _ by rw [← hoffset]; rfl)
    r d hr fun _ _ => ⟨Nat.dvd_zero _, rfl⟩
  have hwithin := @receive_within env slot.offset slot.len contentLength.toNat hflash hlen 0 r d
  refine ⟨⟨contentLength.toNat, arrived, failed, true⟩, rfl, ?_⟩
  rw [writeImage_fits hmin hslot hlarge]
  rcases hreceive : receive env slot.offset contentLength.toNat 0 r d with ⟨e | n, r', d'⟩
  · rw [hreceive] at hrest hsectors hwithin
    refine ⟨hrest, ?_⟩
    rw [Ota.writeImage_fails d.reboot hmin hinactive hfits hsectors,
      slots_within hslot hwithin.outside, hwithin.reboot]
    rfl
  · rw [hreceive] at hrest hsectors hwithin
    obtain ⟨rfl, -⟩ := receive_eq_ok (by omega) (Nat.zero_le _) hreceive
    obtain ⟨hactivation, hactivated⟩ := whole_activation hslot hreceive
    have hrecord := slots_activate hslot d'.flash
    rw [slots_within hslot hwithin.outside] at hrecord
    dsimp only
    rcases hactivate : activateInactiveSlot env.updater d'.flash with ⟨e | _, flash⟩
    · rw [hactivate] at hactivation hactivated hrecord
      refine ⟨hrest, ?_⟩
      rw [Ota.writeImage_stored d.reboot hmin hinactive hfits hsectors hactivation, hactivated]
      dsimp only at hrecord ⊢
      rw [hrecord, hwithin.reboot]
      rfl
    · rw [hactivate] at hactivation hactivated hrecord
      refine ⟨hrest, ?_⟩
      rw [Ota.writeImage_activated d.reboot hmin hinactive hfits hsectors hactivation,
        hactivated]
      dsimp only at hrecord ⊢
      rw [hrecord]
      rfl

/-- **Refinement.**  Seen by its slots, an update that is read piece by piece does what
`Ota.writeImage` does of the bytes that were read. -/
theorem writeImage_refines (env : Env) (contentLength : UInt32) (r : Reader) (d : Device)
    (hr : r.Brings contentLength.toNat) :
    ∃ body : Body, body.contentLength = contentLength.toNat ∧
      r.rest = body.arrived ++ (writeImage env contentLength r d).reader.rest ∧
      Ota.writeImage (env.whole contentLength.toNat r d) (slots env.table d.flash) d.reboot body =
        ((writeImage env contentLength r d).report,
          slots env.table (writeImage env contentLength r d).device.flash,
          (writeImage env contentLength r d).device.reboot) := by
  have hinactive : (slots env.table d.flash).inactive =
      (inactiveSlot env.table).map (·.slot d.flash) := rfl
  by_cases hmin : contentLength.toNat < Ota.minImage
  · rw [writeImage, if_pos hmin]
    refine ⟨⟨contentLength.toNat, [], false, true⟩, rfl, rfl, ?_⟩
    rw [Ota.writeImage, if_pos hmin]
  cases hslot : inactiveSlot env.table with
  | error e =>
      rw [hslot] at hinactive
      rw [writeImage, if_neg hmin, hslot]
      refine ⟨⟨contentLength.toNat, [], false, true⟩, rfl, rfl, ?_⟩
      rw [Ota.writeImage, if_neg hmin, hinactive]
      rfl
  | ok slot =>
      by_cases hlarge : slot.len < contentLength.toNat
      · rw [hslot] at hinactive
        rw [writeImage, if_neg hmin, hslot]
        dsimp only
        rw [if_pos hlarge]
        refine ⟨⟨contentLength.toNat, [], false, true⟩, rfl, rfl, ?_⟩
        rw [Ota.writeImage, if_neg hmin, hinactive]
        exact if_pos hlarge
      · exact fits_refines hr hmin hslot hlarge

end OtaStream

end WaterController
