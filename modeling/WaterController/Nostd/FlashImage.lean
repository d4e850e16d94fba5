import WaterController.Nostd.FlashKv
import Mathlib.Tactic.Ring

/-!
# Images and the decoder

The encoder pads keys and values to four bytes by the length of the buffer so
far, the decoder by absolute positions.  Every entry starts at a multiple of four,
so both amount to one thing: an image is a header and the `entryBytes` of its
entries one after another (`image_eq`).

The decoder's round is described twice.  Over any buffer, its outcome is read off
from the two lengths it finds (`loadEntry_*`).  At an entry of an image it finds
the entry again and stops in front of the next (`loadEntry_entryBytes`), and so
loading an image gives back the map (`load_write_image`).
-/

namespace WaterController

namespace FlashKv

/-! ## Padding -/

theorem le_pad4 (n : Nat) : n ≤ pad4 n := by unfold pad4; omega

theorem dvd_pad4 (n : Nat) : 4 ∣ pad4 n := Nat.dvd_mul_left 4 _

theorem pad4_add {m : Nat} (h : 4 ∣ m) (n : Nat) : pad4 (m + n) = m + pad4 n := by
  unfold pad4
  omega

theorem pad4_le {m n : Nat} (h : 4 ∣ n) (hle : m ≤ n) : pad4 m ≤ n := by
  rw [pad4]
  omega

theorem dvd_regionLen : 4 ∣ regionLen := ⟨2048, rfl⟩

@[simp] theorem length_resize4 (bs : Bytes) : (resize4 bs).length = pad4 bs.length := by
  have h := le_pad4 bs.length
  simp only [resize4, List.length_append, List.length_replicate]
  omega

theorem resize4_append {buf : Bytes} (h : 4 ∣ buf.length) (bs : Bytes) :
    resize4 (buf ++ bs) = buf ++ resize4 bs := by
  simp [resize4, pad4_add h, Nat.add_sub_add_left]

/-! ## The bytes of an image -/

/-- The bytes of an entry. -/
def entryBytes (entry : String × Bytes) : Bytes :=
  LittleEndian.bytes 4 (keyBytes entry.1).length ++ LittleEndian.bytes 4 entry.2.length ++
    resize4 (keyBytes entry.1) ++ resize4 entry.2

/-- The bytes in front of the entries. -/
def header (count : Nat) : Bytes :=
  magic ++ LittleEndian.bytes 4 version ++ LittleEndian.bytes 4 count

@[simp] theorem length_entryBytes (k : String) (v : Bytes) :
    (entryBytes (k, v)).length = 8 + pad4 (keyBytes k).length + pad4 v.length := by
  simp [entryBytes]
  omega

theorem dvd_length_entryBytes (entry : String × Bytes) : 4 ∣ (entryBytes entry).length := by
  obtain ⟨k, v⟩ := entry
  have hk := dvd_pad4 (keyBytes k).length
  have hv := dvd_pad4 v.length
  rw [length_entryBytes]
  omega

@[simp] theorem length_header (count : Nat) : (header count).length = 12 := by
  simp [header, magic]

theorem pushEntry_eq {buf : Bytes} (h : 4 ∣ buf.length) (entry : String × Bytes) :
    pushEntry buf entry = buf ++ entryBytes entry := by
  obtain ⟨k, v⟩ := entry
  have hlens : 4 ∣ (buf ++ LittleEndian.bytes 4 (keyBytes k).length ++
      LittleEndian.bytes 4 v.length).length := by
    simp only [List.length_append, LittleEndian.length_bytes]
    omega
  have hkey : 4 ∣ (buf ++ LittleEndian.bytes 4 (keyBytes k).length ++
      LittleEndian.bytes 4 v.length ++ resize4 (keyBytes k)).length := by
    rw [List.length_append, length_resize4]
    exact Nat.dvd_add hlens (dvd_pad4 _)
  simp only [pushEntry, resize4_append hlens, resize4_append hkey]
  simp only [entryBytes, List.append_assoc]

theorem foldl_pushEntry (entries : List (String × Bytes)) {buf : Bytes} (h : 4 ∣ buf.length) :
    entries.foldl pushEntry buf = buf ++ entries.flatMap entryBytes := by
  induction entries generalizing buf with
  | nil => simp
  | cons entry entries ih =>
      have hnext : 4 ∣ (buf ++ entryBytes entry).length := by
        rw [List.length_append]
        exact Nat.dvd_add h (dvd_length_entryBytes entry)
      rw [List.foldl_cons, pushEntry_eq h, ih hnext, List.flatMap_cons, List.append_assoc]

/-- An image is its header and its entries. -/
theorem image_eq (cache : Cache) :
    image cache = header cache.size ++ cache.toList.flatMap entryBytes :=
  foldl_pushEntry cache.toList ⟨3, by simp [magic]⟩

/-- Every entry takes room in the image. -/
theorem size_le_length_image (cache : Cache) : cache.size ≤ (image cache).length := by
  have hentries : ∀ entries : List (String × Bytes),
      entries.length ≤ (entries.flatMap entryBytes).length := by
    intro entries
    induction entries with
    | nil => simp
    | cons entry entries ih =>
        obtain ⟨k, v⟩ := entry
        simp only [List.flatMap_cons, List.length_append, List.length_cons, length_entryBytes]
        omega
  have h := hentries cache.toList
  rw [Std.TreeMap.length_toList] at h
  rw [image_eq, List.length_append]
  omega

/-! ## Reading at a position -/

theorem extract_append_right (front tail : Bytes) (i j : Nat) :
    (front ++ tail).extract (front.length + i) (front.length + j) = tail.extract i j := by
  rw [List.extract_eq_take_drop, List.extract_eq_take_drop, ← List.drop_drop,
    List.drop_left, Nat.add_sub_add_left]

theorem extract_part (front part rest : Bytes) :
    (front ++ part ++ rest).extract front.length (front.length + part.length) = part := by
  rw [List.append_assoc, List.extract_eq_take_drop, List.drop_left, Nat.add_sub_cancel_left,
    List.take_left]

theorem u32At_lt (buf : Bytes) (pos : Nat) : u32At buf pos < 4294967296 := by
  have hlen : (buf.extract pos (pos + 4)).length ≤ 4 := by
    rw [List.extract_eq_take_drop, List.length_take]
    omega
  calc u32At buf pos < 256 ^ (buf.extract pos (pos + 4)).length := LittleEndian.value_lt _
    _ ≤ 256 ^ 4 := Nat.pow_le_pow_right (by decide) hlen

theorem fromUtf8_keyBytes (key : String) : fromUtf8 (keyBytes key) = some key := by
  have hbytes : (keyBytes key).toByteArray = key.toByteArray := by
    apply ByteArray.ext
    simp [keyBytes]
  unfold fromUtf8 String.fromUTF8?
  rw [hbytes, dif_pos key.isValidUTF8]
  rfl

/-- Bytes that were erased and not written again are no text. -/
theorem fromUtf8_of_mem_erased {bs : Bytes} (h : LittleEndian.erased ∈ bs) :
    fromUtf8 bs = none := by
  unfold fromUtf8 String.fromUTF8?
  rw [dif_neg (LittleEndian.not_validUTF8_of_mem h)]

theorem slice_eq_ok {buf : Bytes} {start stop : Nat} (h : start ≤ stop)
    (hstop : stop ≤ buf.length) : slice buf start stop = .ok (buf.extract start stop) :=
  if_pos ⟨h, hstop⟩

theorem slice_eq_error {buf : Bytes} {start stop : Nat} (h : stop < start) :
    slice buf start stop = .error .indexOutOfBounds :=
  if_neg fun hle => Nat.not_lt.mpr hle.1 h

theorem usizeAdd_of_lt {m n : Nat} (h : m + n < 4294967296) : usizeAdd m n = m + n :=
  Nat.mod_eq_of_lt h

/-- A sum that wraps is below what was added to. -/
theorem usizeAdd_of_ge {m n : Nat} (hm : m ≤ regionLen) (hn : n < 4294967296)
    (h : 4294967296 ≤ m + n) : usizeAdd m n < m := by
  unfold usizeAdd regionLen at *
  omega

/-! ## One round of the decoder -/

section Round

variable {buf : Bytes} {pos klen vlen : Nat} {key : String}

/-- A key length that makes the sum wrap gives a slice that ends in front of its
start. -/
theorem loadEntry_klen_wraps (hbuf : buf.length = regionLen) (hpos : pos + 8 ≤ regionLen)
    (hk : u32At buf pos = klen) (hwrap : 4294967296 ≤ pos + 8 + klen) :
    loadEntry buf pos = .error .indexOutOfBounds := by
  have hlt : usizeAdd (pos + 8) klen < pos + 8 :=
    usizeAdd_of_ge hpos (hk ▸ u32At_lt buf pos) hwrap
  have hin : ¬ buf.length < usizeAdd (pos + 8) klen := by omega
  simp only [loadEntry, hk, if_neg (Nat.not_lt.mpr (hbuf ▸ hpos)), if_neg hin,
    slice_eq_error hlt]
  rfl

theorem loadEntry_klen_large (hbuf : buf.length = regionLen) (hpos : pos + 8 ≤ regionLen)
    (hk : u32At buf pos = klen) (hout : regionLen < pos + 8 + klen)
    (hsum : pos + 8 + klen < 4294967296) : loadEntry buf pos = .ok none := by
  have hlt : buf.length < usizeAdd (pos + 8) klen := by
    rw [usizeAdd_of_lt hsum]
    omega
  simp only [loadEntry, hk, if_neg (Nat.not_lt.mpr (hbuf ▸ hpos)), if_pos hlt]

/-- A key that lies in the region is read. -/
theorem loadEntry_klen_fits (hbuf : buf.length = regionLen) (hk : u32At buf pos = klen)
    (hv : u32At buf (pos + 4) = vlen) (hin : pos + 8 + klen ≤ regionLen) :
    loadEntry buf pos =
      (match fromUtf8 (buf.extract (pos + 8) (pos + 8 + klen)) with
      | none => .ok none
      | some key =>
          let vend := usizeAdd (pad4 (pos + 8 + klen)) vlen
          if buf.length < vend then .ok none
          else do
            let val ← slice buf (pad4 (pos + 8 + klen)) vend
            .ok (some ((key, val), pad4 vend))) := by
  have hreg : regionLen = 8192 := rfl
  have hsum : usizeAdd (pos + 8) klen = pos + 8 + klen := usizeAdd_of_lt (by omega)
  have hpos : ¬ buf.length < pos + 8 := by omega
  have hkend : ¬ buf.length < pos + 8 + klen := by omega
  have hslice : slice buf (pos + 8) (pos + 8 + klen) =
      .ok (buf.extract (pos + 8) (pos + 8 + klen)) := slice_eq_ok (by omega) (by omega)
  simp only [loadEntry, hk, hv, hsum, if_neg hpos, if_neg hkend, hslice]
  rfl

theorem loadEntry_not_text (hbuf : buf.length = regionLen) (hk : u32At buf pos = klen)
    (hin : pos + 8 + klen ≤ regionLen)
    (hkey : fromUtf8 (buf.extract (pos + 8) (pos + 8 + klen)) = none) :
    loadEntry buf pos = .ok none := by
  rw [loadEntry_klen_fits hbuf hk rfl hin, hkey]

theorem loadEntry_vlen_wraps (hbuf : buf.length = regionLen) (hk : u32At buf pos = klen)
    (hv : u32At buf (pos + 4) = vlen) (hin : pos + 8 + klen ≤ regionLen)
    (hkey : fromUtf8 (buf.extract (pos + 8) (pos + 8 + klen)) = some key)
    (hwrap : 4294967296 ≤ pad4 (pos + 8 + klen) + vlen) :
    loadEntry buf pos = .error .indexOutOfBounds := by
  have hpad : pad4 (pos + 8 + klen) ≤ regionLen := pad4_le dvd_regionLen hin
  have hlt : usizeAdd (pad4 (pos + 8 + klen)) vlen < pad4 (pos + 8 + klen) :=
    usizeAdd_of_ge hpad (hv ▸ u32At_lt buf (pos + 4)) hwrap
  have hvend : ¬ buf.length < usizeAdd (pad4 (pos + 8 + klen)) vlen := by omega
  rw [loadEntry_klen_fits hbuf hk hv hin, hkey]
  simp only [if_neg hvend, slice_eq_error hlt]
  rfl

theorem loadEntry_vlen_large (hbuf : buf.length = regionLen) (hk : u32At buf pos = klen)
    (hv : u32At buf (pos + 4) = vlen) (hin : pos + 8 + klen ≤ regionLen)
    (hkey : fromUtf8 (buf.extract (pos + 8) (pos + 8 + klen)) = some key)
    (hout : regionLen < pad4 (pos + 8 + klen) + vlen)
    (hsum : pad4 (pos + 8 + klen) + vlen < 4294967296) : loadEntry buf pos = .ok none := by
  have hlt : buf.length < usizeAdd (pad4 (pos + 8 + klen)) vlen := by
    rw [usizeAdd_of_lt hsum]
    omega
  rw [loadEntry_klen_fits hbuf hk hv hin, hkey]
  simp only [if_pos hlt]

theorem loadEntry_read (hbuf : buf.length = regionLen) (hk : u32At buf pos = klen)
    (hv : u32At buf (pos + 4) = vlen) (hin : pos + 8 + klen ≤ regionLen)
    (hkey : fromUtf8 (buf.extract (pos + 8) (pos + 8 + klen)) = some key)
    (hvend : pad4 (pos + 8 + klen) + vlen ≤ regionLen) :
    loadEntry buf pos =
      .ok (some ((key, buf.extract (pad4 (pos + 8 + klen)) (pad4 (pos + 8 + klen) + vlen)),
        pad4 (pad4 (pos + 8 + klen) + vlen))) := by
  have hreg : regionLen = 8192 := rfl
  have hsum : usizeAdd (pad4 (pos + 8 + klen)) vlen = pad4 (pos + 8 + klen) + vlen :=
    usizeAdd_of_lt (by omega)
  have hlt : ¬ buf.length < pad4 (pos + 8 + klen) + vlen := by omega
  have hslice : slice buf (pad4 (pos + 8 + klen)) (pad4 (pos + 8 + klen) + vlen) =
      .ok (buf.extract (pad4 (pos + 8 + klen)) (pad4 (pos + 8 + klen) + vlen)) :=
    slice_eq_ok (by omega) (by omega)
  rw [loadEntry_klen_fits hbuf hk hv hin, hkey]
  simp only [hsum, if_neg hlt, hslice]
  rfl

end Round

/-! ## Entries of an image -/

section Entry

variable (k : String) (v : Bytes)

/-- The value ends inside its entry. -/
theorem value_end_le :
    8 + pad4 (keyBytes k).length + v.length ≤ (entryBytes (k, v)).length := by
  rw [length_entryBytes]
  exact Nat.add_le_add_left (le_pad4 v.length) _

theorem extract_entryBytes_klen (rest : Bytes) :
    (entryBytes (k, v) ++ rest).extract 0 4 = LittleEndian.bytes 4 (keyBytes k).length := by
  simp [entryBytes, List.extract_eq_take_drop]

theorem extract_entryBytes_vlen (rest : Bytes) :
    (entryBytes (k, v) ++ rest).extract 4 8 = LittleEndian.bytes 4 v.length := by
  simp [entryBytes, List.extract_eq_take_drop]

theorem extract_entryBytes_key (rest : Bytes) :
    (entryBytes (k, v) ++ rest).extract 8 (8 + (keyBytes k).length) = keyBytes k := by
  have hlens : (LittleEndian.bytes 4 (keyBytes k).length ++
      LittleEndian.bytes 4 v.length).length = 8 := by simp
  have hsplit : entryBytes (k, v) ++ rest =
      LittleEndian.bytes 4 (keyBytes k).length ++ LittleEndian.bytes 4 v.length ++ keyBytes k ++
        (List.replicate (pad4 (keyBytes k).length - (keyBytes k).length) 0 ++
          (resize4 v ++ rest)) := by
    simp [entryBytes, resize4]
  have h := extract_part (LittleEndian.bytes 4 (keyBytes k).length ++
    LittleEndian.bytes 4 v.length) (keyBytes k)
    (List.replicate (pad4 (keyBytes k).length - (keyBytes k).length) 0 ++ (resize4 v ++ rest))
  rwa [hlens, ← hsplit] at h

theorem extract_entryBytes_value (rest : Bytes) :
    (entryBytes (k, v) ++ rest).extract (8 + pad4 (keyBytes k).length)
      (8 + pad4 (keyBytes k).length + v.length) = v := by
  have hfront : (LittleEndian.bytes 4 (keyBytes k).length ++ LittleEndian.bytes 4 v.length ++
      resize4 (keyBytes k)).length = 8 + pad4 (keyBytes k).length := by simp; omega
  have hsplit : entryBytes (k, v) ++ rest =
      LittleEndian.bytes 4 (keyBytes k).length ++ LittleEndian.bytes 4 v.length ++
        resize4 (keyBytes k) ++ v ++
          (List.replicate (pad4 v.length - v.length) 0 ++ rest) := by
    simp [entryBytes, resize4]
  have h := extract_part (LittleEndian.bytes 4 (keyBytes k).length ++
    LittleEndian.bytes 4 v.length ++ resize4 (keyBytes k)) v
    (List.replicate (pad4 v.length - v.length) 0 ++ rest)
  rwa [hfront, ← hsplit] at h

end Entry

/-! ## Entries of a torn image -/

section TornEntry

variable {front rest v : Bytes} {k : String} {m : Nat}

/-- A field of an entry in a torn image is the field, torn. -/
theorem extract_torn_field (hm : (entryBytes (k, v) ++ rest).length ≤ m) {i j : Nat}
    (hj : j ≤ (entryBytes (k, v)).length) (o : Nat) :
    (front ++ LittleEndian.torn m (entryBytes (k, v) ++ rest) o).extract (front.length + i)
      (front.length + j) =
        LittleEndian.torn (j - i) ((entryBytes (k, v) ++ rest).extract i j) (o - i) := by
  rw [extract_append_right, LittleEndian.extract_torn _ hm]
  rw [List.length_append]
  exact Nat.le_add_right_of_le hj

theorem u32At_torn_klen (front : Bytes)
    (hm : (entryBytes (k, v) ++ rest).length ≤ m) (o : Nat) :
    u32At (front ++ LittleEndian.torn m (entryBytes (k, v) ++ rest) o) front.length =
      LittleEndian.value (LittleEndian.torn 4 (LittleEndian.bytes 4 (keyBytes k).length) o) := by
  have hj : 4 ≤ (entryBytes (k, v)).length := by rw [length_entryBytes]; omega
  rw [← extract_entryBytes_klen k v rest]
  exact congrArg LittleEndian.value (extract_torn_field (i := 0) hm hj o)

theorem u32At_torn_vlen (front : Bytes)
    (hm : (entryBytes (k, v) ++ rest).length ≤ m) (o : Nat) :
    u32At (front ++ LittleEndian.torn m (entryBytes (k, v) ++ rest) o) (front.length + 4) =
      LittleEndian.value (LittleEndian.torn 4 (LittleEndian.bytes 4 v.length) (o - 4)) := by
  have hj : 8 ≤ (entryBytes (k, v)).length := by rw [length_entryBytes]; omega
  rw [← extract_entryBytes_vlen k v rest]
  exact congrArg LittleEndian.value (extract_torn_field (i := 4) hm hj o)

theorem extract_torn_key (hm : (entryBytes (k, v) ++ rest).length ≤ m) (o : Nat) :
    (front ++ LittleEndian.torn m (entryBytes (k, v) ++ rest) o).extract (front.length + 8)
      (front.length + 8 + (keyBytes k).length) =
        LittleEndian.torn (keyBytes k).length (keyBytes k) (o - 8) := by
  have hj : 8 + (keyBytes k).length ≤ (entryBytes (k, v)).length := by
    have hpad := le_pad4 (keyBytes k).length
    rw [length_entryBytes]
    omega
  rw [Nat.add_assoc, extract_torn_field hm hj, extract_entryBytes_key, Nat.add_sub_cancel_left]

theorem extract_torn_value (hm : (entryBytes (k, v) ++ rest).length ≤ m) (o : Nat) :
    (front ++ LittleEndian.torn m (entryBytes (k, v) ++ rest) o).extract
      (front.length + (8 + pad4 (keyBytes k).length))
      (front.length + (8 + pad4 (keyBytes k).length) + v.length) =
        LittleEndian.torn v.length v (o - (8 + pad4 (keyBytes k).length)) := by
  rw [Nat.add_assoc, extract_torn_field hm (value_end_le k v), extract_entryBytes_value,
    Nat.add_sub_cancel_left]

theorem value_torn_length {n o : Nat} (hn : n < 4294967296) (ho : 4 ≤ o) :
    LittleEndian.value (LittleEndian.torn 4 (LittleEndian.bytes 4 n) o) = n := by
  have hlen : (LittleEndian.bytes 4 n).length ≤ o := by rwa [LittleEndian.length_bytes]
  have hself := LittleEndian.torn_self hlen
  rw [LittleEndian.length_bytes] at hself
  rw [hself, LittleEndian.value_bytes]
  exact Nat.mod_eq_of_lt hn

/-- An entry whose key was written in full is read, with as much of its value as
was written. -/
theorem loadEntry_torn (hfront : 4 ∣ front.length) (hsize : front.length + m = regionLen)
    (hm : (entryBytes (k, v) ++ rest).length ≤ m) {o : Nat} (ho : 8 + (keyBytes k).length ≤ o) :
    loadEntry (front ++ LittleEndian.torn m (entryBytes (k, v) ++ rest) o) front.length =
      .ok (some ((k, LittleEndian.torn v.length v (o - (8 + pad4 (keyBytes k).length))),
        front.length + (entryBytes (k, v)).length)) := by
  have hreg : regionLen = 8192 := rfl
  have hlen : (entryBytes (k, v)).length ≤ m := by
    rw [List.length_append] at hm
    omega
  rw [length_entryBytes] at hlen
  have hkpad := le_pad4 (keyBytes k).length
  have hvpad := le_pad4 v.length
  have hbuf : (front ++ LittleEndian.torn m (entryBytes (k, v) ++ rest) o).length =
      regionLen := by
    rw [List.length_append, LittleEndian.length_torn hm, hsize]
  have hk := u32At_torn_klen front hm o
  have hv := u32At_torn_vlen front hm o
  rw [value_torn_length (by omega) (by omega)] at hk hv
  have hkey : fromUtf8 ((front ++ LittleEndian.torn m (entryBytes (k, v) ++ rest) o).extract
      (front.length + 8) (front.length + 8 + (keyBytes k).length)) = some k := by
    rw [extract_torn_key hm, LittleEndian.torn_self (by omega), fromUtf8_keyBytes]
  have hdvd : 4 ∣ front.length + 8 := Nat.dvd_add hfront ⟨2, rfl⟩
  have hstart : pad4 (front.length + 8 + (keyBytes k).length) =
      front.length + (8 + pad4 (keyBytes k).length) := by
    rw [pad4_add hdvd, Nat.add_assoc]
  have hnext : pad4 (front.length + (8 + pad4 (keyBytes k).length) + v.length) =
      front.length + (entryBytes (k, v)).length := by
    have hdvd' : 4 ∣ front.length + (8 + pad4 (keyBytes k).length) := by
      have h := dvd_pad4 (keyBytes k).length
      omega
    rw [pad4_add hdvd', length_entryBytes, Nat.add_assoc]
  rw [loadEntry_read hbuf hk hv (by omega) hkey (by omega), hstart, extract_torn_value hm, hnext]

/-- An entry that was written in full is read. -/
theorem loadEntry_entryBytes (hfront : 4 ∣ front.length) (hsize : front.length + m = regionLen)
    (hm : (entryBytes (k, v) ++ rest).length ≤ m) {o : Nat}
    (ho : (entryBytes (k, v)).length ≤ o) :
    loadEntry (front ++ LittleEndian.torn m (entryBytes (k, v) ++ rest) o) front.length =
      .ok (some ((k, v), front.length + (entryBytes (k, v)).length)) := by
  have hlen := length_entryBytes k v
  have hkpad := le_pad4 (keyBytes k).length
  have hvpad := le_pad4 v.length
  have hval : v.length ≤ o - (8 + pad4 (keyBytes k).length) := by
    omega
  have hkey : 8 + (keyBytes k).length ≤ o := by
    omega
  rw [loadEntry_torn hfront hsize hm hkey, LittleEndian.torn_self hval]

end TornEntry

/-! ## Loading an image -/

section Loop

variable {buf : Bytes} {pos pos' : Nat} {k : String} {v : Bytes}

theorem loadEntries_of_some (h : loadEntry buf pos = .ok (some ((k, v), pos'))) (count : Nat)
    (map : Cache) :
    loadEntries buf (count + 1) pos map = loadEntries buf count pos' (map.insert k v) := by
  rw [loadEntries, h]
  rfl

theorem loadEntries_of_none (h : loadEntry buf pos = .ok none) (count : Nat) (map : Cache) :
    loadEntries buf (count + 1) pos map = .ok none := by
  rw [loadEntries, h]
  rfl

theorem loadEntries_of_error {panic : Panic} (h : loadEntry buf pos = .error panic) (count : Nat)
    (map : Cache) : loadEntries buf (count + 1) pos map = .error panic := by
  rw [loadEntries, h]
  rfl

end Loop

/-- The decoder reads the entries that were written in full, and goes on behind
them. -/
theorem loadEntries_entries (entries : List (String × Bytes)) {front : Bytes} (rest : Bytes)
    {o : Nat} (hfront : 4 ∣ front.length)
    (hsize : (front ++ entries.flatMap entryBytes ++ rest).length ≤ regionLen)
    (ho : (front ++ entries.flatMap entryBytes).length ≤ o) (count : Nat) (map : Cache) :
    loadEntries (LittleEndian.torn regionLen (front ++ entries.flatMap entryBytes ++ rest) o)
        (entries.length + count) front.length map =
      loadEntries (LittleEndian.torn regionLen (front ++ entries.flatMap entryBytes ++ rest) o)
        count (front ++ entries.flatMap entryBytes).length (map.insertMany entries) := by
  induction entries generalizing front map with
  | nil => simp
  | cons entry entries ih =>
      obtain ⟨k, v⟩ := entry
      have hsplit : front ++ ((k, v) :: entries).flatMap entryBytes =
          front ++ entryBytes (k, v) ++ entries.flatMap entryBytes := by
        simp
      have hnext : 4 ∣ (front ++ entryBytes (k, v)).length := by
        rw [List.length_append]
        exact Nat.dvd_add hfront (dvd_length_entryBytes (k, v))
      have hround : loadEntry (LittleEndian.torn regionLen
          (front ++ ((k, v) :: entries).flatMap entryBytes ++ rest) o) front.length =
            .ok (some ((k, v), (front ++ entryBytes (k, v)).length)) := by
        rw [hsplit] at hsize ho ⊢
        rw [List.append_assoc, List.append_assoc] at hsize
        rw [List.append_assoc] at ho
        simp only [List.length_append] at hsize ho
        rw [List.append_assoc, List.append_assoc, LittleEndian.torn_append (by omega),
          loadEntry_entryBytes hfront (by omega) (by simp only [List.length_append]; omega)
            (by omega), List.length_append]
      rw [List.length_cons, Nat.succ_add_eq_add_succ, Nat.add_succ,
        loadEntries_of_some hround, hsplit, Std.TreeMap.insertMany_cons]
      rw [hsplit] at hsize ho
      exact ih hnext hsize ho (map.insert k v)

/-- The region behind an erase and the write of the first `n` bytes. -/
theorem bytes_write_take {bs : Bytes} (h : bs.length ≤ regionLen) (n : Nat) :
    (Region.erased.write (bs.take n)).bytes = LittleEndian.torn regionLen bs n := by
  simp only [Region.write, Region.erased, LittleEndian.torn, List.drop_replicate,
    List.length_take]
  rw [List.take_of_length_le]
  simp only [List.length_append, List.length_take, List.length_replicate]
  omega

theorem size_lt {cache : Cache} (h : (image cache).length ≤ regionLen) :
    cache.size < 4294967296 := by
  have hle := size_le_length_image cache
  have hreg : regionLen = 8192 := rfl
  omega

/-- A region with a whole header is decoded by its count. -/
theorem load_torn_image {flash : Region} {cache : Cache} {n : Nat}
    (hbytes : flash.bytes = LittleEndian.torn regionLen (image cache) n)
    (hfit : (image cache).length ≤ regionLen) (hn : 12 ≤ n) :
    load flash true = loadEntries flash.bytes cache.size 12 ∅ := by
  have hbuf : flash.bytes = header cache.size ++
      LittleEndian.torn (regionLen - 12) (cache.toList.flatMap entryBytes) (n - 12) := by
    rw [hbytes, image_eq, LittleEndian.torn_append (by simpa using hn), length_header]
  have hmagic : flash.bytes.extract 0 4 = magic := by
    rw [hbuf]
    rfl
  have hversion : u32At flash.bytes 4 = version := by
    rw [hbuf]
    rfl
  have hcount : u32At flash.bytes 8 = cache.size := by
    have h : flash.bytes.extract 8 12 = LittleEndian.bytes 4 cache.size := by
      rw [hbuf]
      rfl
    rw [u32At, h, LittleEndian.value_bytes]
    exact Nat.mod_eq_of_lt (size_lt hfit)
  simp [load, hmagic, hversion, hcount]

/-- The entries of a map make up the map. -/
theorem insertMany_toList (cache : Cache) :
    ((∅ : Cache).insertMany cache.toList).Equiv cache := by
  refine Std.TreeMap.Equiv.of_forall_constGet?_eq fun key => ?_
  cases hget : cache[key]? with
  | none =>
      have hkey : (cache.toList.map Prod.fst).contains key = false := by
        rw [Std.TreeMap.map_fst_toList_eq_keys, Std.TreeMap.contains_keys,
          Std.TreeMap.contains_eq_isSome_getElem?, hget]
        rfl
      exact (Std.TreeMap.getElem?_insertMany_list_of_contains_eq_false hkey).trans
        Std.TreeMap.getElem?_emptyc
  | some v =>
      have hmem : (key, v) ∈ cache.toList := Std.TreeMap.mem_toList_iff_getElem?_eq_some.mpr hget
      exact Std.TreeMap.getElem?_insertMany_list_of_mem Std.ReflCmp.compare_self
        Std.TreeMap.distinct_keys_toList hmem

/-- Loading the image of a map gives the map. -/
theorem load_write_image {cache : Cache} (hfit : (image cache).length ≤ regionLen) {n : Nat}
    (hn : (image cache).length ≤ n) :
    ∃ map, load (Region.erased.write ((image cache).take n)) true = .ok (some map) ∧
      map.Equiv cache := by
  refine ⟨_, ?_, insertMany_toList cache⟩
  have hbytes := bytes_write_take hfit n
  have himage := image_eq cache
  have hlen : 12 ≤ (image cache).length := by rw [himage]; simp
  rw [load_torn_image hbytes hfit (by omega), hbytes]
  rw [himage] at hfit hn ⊢
  have hheader : 4 ∣ (header cache.size).length := ⟨3, length_header _⟩
  have hround := loadEntries_entries cache.toList [] hheader (by simpa using hfit) hn 0 ∅
  simpa [loadEntries] using hround

end FlashKv

end WaterController
