import WaterController.Nostd.FlashRuns

/-!
# Power cuts during a flush

A power cut stops a flush in front of the erase or behind any number of bytes of
the image.  The bytes that were not written are `0xFF`.  What the next boot makes
of that depends on where the image ends:

* in the magic or the version, the decoder gives up and the store is empty;
* in the count, the decoder adds a length of ones to its position, the sum wraps,
  and the boot panics;
* in an entry in front of the end of its key, it does the one or the other
  (`GivesUp`);
* in the value of an entry, the entry is read with the bytes that are missing
  read as `0xFF`, and the entry behind it panics.

So a cut is survived if and only if it is one of those that `Harmless` lists
(`power_cut_survived_iff`).
-/

namespace WaterController

namespace FlashKv

/-- Where the power is cut: in front of the erase, or behind the write of a number
of bytes. -/
inductive Cut where
  | beforeErase
  | written (n : Nat)
deriving DecidableEq

/-- The region when a flush is cut.  An image that does not fit is refused in
front of the erase. -/
def flushUntil (flash : Region) (cache : Cache) (cut : Cut) : Region :=
  let buf := image cache
  if regionLen < buf.length then flash
  else
    match cut with
    | .beforeErase => flash
    | .written n => Region.erased.write (buf.take n)

theorem flushUntil_written {cache : Cache} (hfit : (image cache).length ≤ regionLen)
    (flash : Region) (n : Nat) :
    flushUntil flash cache (.written n) = Region.erased.write ((image cache).take n) :=
  if_neg (Nat.not_lt.mpr hfit)

/-- A reboot behind the cut gives the contents before the call or those after it. -/
def Survives (kv : FlashKv) (call : Call) (cut : Cut) : Prop :=
  Holds (flushUntil kv.flash (call.apply kv.cache) cut) kv.cache ∨
    Holds (flushUntil kv.flash (call.apply kv.cache) cut) (call.apply kv.cache)

/-! ## The cuts that do no harm -/

/-- The sum of a position and a length of which only some bytes were written does
not wrap. -/
def NoWrap (start len : Nat) : Nat → Prop
  | 0 => False
  | 1 => start + len % 256 < 256
  | _ => True

/-- The decoder gives up, and does not panic, on the entry at `pos` of which only
`o` bytes were written, and not the whole key. -/
def GivesUp (pos klen vlen o : Nat) : Prop :=
  if o < 4 then NoWrap (pos + 8) klen o else 0 < klen ∨ NoWrap (pos + 8) vlen (o - 4)

/-- The cut behind `n` bytes does no harm to the entries from `pos` on. -/
def HarmlessFrom (before after : Cache) (n : Nat) : Nat → List (String × Bytes) → Prop
  | _, [] => True
  | pos, (k, v) :: rest =>
      let o := n - pos
      let written := LittleEndian.torn v.length v (o - (8 + pad4 (keyBytes k).length))
      if (entryBytes (k, v)).length ≤ o then
        HarmlessFrom before after n (pos + (entryBytes (k, v)).length) rest
      else if o < 8 + (keyBytes k).length then
        before.isEmpty ∧ GivesUp pos (keyBytes k).length v.length o
      else rest = [] ∧ (written = v ∨ (after.insert k written).Equiv before)

/-- The cuts that do no harm to a call. -/
def Harmless (kv : FlashKv) (call : Call) (cut : Cut) : Prop :=
  let after := call.apply kv.cache
  if regionLen < (image after).length then Holds kv.flash kv.cache ∨ Holds kv.flash after
  else
    match cut with
    | .beforeErase => Holds kv.flash kv.cache ∨ Holds kv.flash after
    | .written n =>
        if n < 8 then kv.cache.isEmpty ∨ after.isEmpty
        else if n < 12 then False
        else HarmlessFrom kv.cache after n 12 after.toList

/-! ## What a load leaves -/

/-- A load gives a store that reads as the map. -/
def Gives (result : Except Panic (Option Cache)) (cache : Cache) : Prop :=
  ∃ map, result = .ok map ∧ (map.getD ∅).Equiv cache

theorem holds_iff (flash : Region) (cache : Cache) :
    Holds flash cache ↔ Gives (load flash true) cache := by
  have hboot : ∀ map, load flash true = .ok map → boot flash = .ok ⟨flash, map.getD ∅⟩ := by
    intro map hload
    rw [boot, new, hload]
    rfl
  constructor
  · rintro ⟨kv, hkv, hget⟩
    cases hload : load flash true with
    | error panic =>
        rw [boot, new, hload] at hkv
        cases hkv
    | ok map =>
        rw [hboot map hload] at hkv
        cases hkv
        exact ⟨map, rfl, Std.TreeMap.Equiv.of_forall_constGet?_eq hget⟩
  · rintro ⟨map, hload, hmap⟩
    exact ⟨_, hboot map hload, fun key => hmap.getElem?_eq⟩

theorem gives_error (panic : Panic) (cache : Cache) : ¬ Gives (.error panic) cache := by
  rintro ⟨map, hmap, -⟩
  cases hmap

theorem gives_none (cache : Cache) : Gives (.ok none) cache ↔ cache.isEmpty := by
  constructor
  · rintro ⟨map, hmap, hequiv⟩
    cases hmap
    exact Std.TreeMap.empty_equiv_iff_isEmpty.mp hequiv
  · intro h
    exact ⟨none, rfl, Std.TreeMap.empty_equiv_iff_isEmpty.mpr h⟩

theorem gives_some (map cache : Cache) : Gives (.ok (some map)) cache ↔ map.Equiv cache := by
  constructor
  · rintro ⟨map', hmap, hequiv⟩
    cases hmap
    exact hequiv
  · intro h
    exact ⟨some map, rfl, h⟩

/-! ## Torn lengths -/

/-- The number that the first `o` of its four bytes give. -/
theorem value_torn_lt {n o : Nat} (ho : o < 4) :
    LittleEndian.value (LittleEndian.torn 4 (LittleEndian.bytes 4 n) o) + 256 ^ o =
      n % 256 ^ o + 4294967296 :=
  LittleEndian.value_torn (Nat.le_of_lt ho) n

/-- A torn length makes the sum wrap, or lies far behind the region. -/
theorem wraps_iff {start len o read : Nat} (ho : o < 4) (hstart : 0 < start)
    (hin : start + len ≤ regionLen)
    (hread : LittleEndian.value (LittleEndian.torn 4 (LittleEndian.bytes 4 len) o) = read) :
    (NoWrap start len o → regionLen < start + read ∧ start + read < 4294967296) ∧
      (¬ NoWrap start len o → 4294967296 ≤ start + read) := by
  have hreg : regionLen = 8192 := rfl
  have hsum : read + 256 ^ o = len % 256 ^ o + 4294967296 := by
    rw [← hread]
    exact value_torn_lt ho
  obtain rfl | rfl | rfl | rfl : o = 0 ∨ o = 1 ∨ o = 2 ∨ o = 3 := by omega
  · rw [Nat.pow_zero, Nat.mod_one] at hsum
    exact ⟨False.elim, fun _ => by omega⟩
  · rw [Nat.pow_one] at hsum
    simp only [NoWrap]
    omega
  · have hpow : 256 ^ 2 = 65536 := rfl
    rw [hpow] at hsum
    exact ⟨fun _ => by omega, fun hwrap => absurd trivial hwrap⟩
  · have hpow : 256 ^ 3 = 16777216 := rfl
    rw [hpow] at hsum
    exact ⟨fun _ => by omega, fun hwrap => absurd trivial hwrap⟩

/-! ## Torn entries -/

section TornEntry

variable {front rest v : Bytes} {k : String} {m o : Nat}

/-- An entry that fits behind `front` ends inside the region, and its parts inside it. -/
theorem entry_inside (hsize : front.length + m = regionLen)
    (hm : (entryBytes (k, v) ++ rest).length ≤ m) :
    front.length + 8 + pad4 (keyBytes k).length + pad4 v.length ≤ regionLen ∧
      (front ++ LittleEndian.torn m (entryBytes (k, v) ++ rest) o).length = regionLen := by
  constructor
  · rw [List.length_append, length_entryBytes] at hm
    omega
  · rw [List.length_append, LittleEndian.length_torn hm, hsize]

/-- At an entry the length of whose key is torn the decoder gives up or panics. -/
theorem loadEntry_torn_klen (hsize : front.length + m = regionLen)
    (hm : (entryBytes (k, v) ++ rest).length ≤ m) (ho : o < 4) :
    (NoWrap (front.length + 8) (keyBytes k).length o →
      loadEntry (front ++ LittleEndian.torn m (entryBytes (k, v) ++ rest) o) front.length =
        .ok none) ∧
    (¬ NoWrap (front.length + 8) (keyBytes k).length o →
      loadEntry (front ++ LittleEndian.torn m (entryBytes (k, v) ++ rest) o) front.length =
        .error .indexOutOfBounds) := by
  obtain ⟨hinside, hbuf⟩ := entry_inside (o := o) hsize hm
  have hkpad := le_pad4 (keyBytes k).length
  have hk := u32At_torn_klen front hm o
  have hwraps := wraps_iff ho (Nat.succ_pos _)
    (show front.length + 8 + (keyBytes k).length ≤ regionLen by omega) rfl
  constructor
  · intro hno
    obtain ⟨hout, hsum⟩ := hwraps.1 hno
    exact loadEntry_klen_large hbuf (by omega) hk hout hsum
  · intro hwrap
    exact loadEntry_klen_wraps hbuf (by omega) hk (hwraps.2 hwrap)

/-- A key that is torn, or was not reached, is no text. -/
theorem loadEntry_torn_text (hsize : front.length + m = regionLen)
    (hm : (entryBytes (k, v) ++ rest).length ≤ m) (hklen : 4 ≤ o)
    (ho : o < 8 + (keyBytes k).length) (hkey : 0 < (keyBytes k).length) :
    loadEntry (front ++ LittleEndian.torn m (entryBytes (k, v) ++ rest) o) front.length =
      .ok none := by
  obtain ⟨hinside, hbuf⟩ := entry_inside (o := o) hsize hm
  have hkpad := le_pad4 (keyBytes k).length
  have hreg : regionLen = 8192 := rfl
  have hk := u32At_torn_klen front hm o
  rw [value_torn_length (by omega) hklen] at hk
  have htext := fromUtf8_of_mem_erased (LittleEndian.erased_mem_torn
    (show o - 8 < (keyBytes k).length by omega) : LittleEndian.erased ∈
      LittleEndian.torn (keyBytes k).length (keyBytes k) (o - 8))
  rw [← extract_torn_key hm o] at htext
  exact loadEntry_not_text hbuf hk (by omega) htext

/-- At an entry with an empty key the length of whose value is torn the decoder gives up
or panics. -/
theorem loadEntry_torn_vlen (hsize : front.length + m = regionLen)
    (hm : (entryBytes (k, v) ++ rest).length ≤ m) (hfront : 4 ∣ front.length) (hklen : 4 ≤ o)
    (ho : o < 8) (hkey : (keyBytes k).length = 0) :
    (NoWrap (front.length + 8) v.length (o - 4) →
      loadEntry (front ++ LittleEndian.torn m (entryBytes (k, v) ++ rest) o) front.length =
        .ok none) ∧
    (¬ NoWrap (front.length + 8) v.length (o - 4) →
      loadEntry (front ++ LittleEndian.torn m (entryBytes (k, v) ++ rest) o) front.length =
        .error .indexOutOfBounds) := by
  obtain ⟨hinside, hbuf⟩ := entry_inside (o := o) hsize hm
  have hvpad := le_pad4 v.length
  have hk := u32At_torn_klen front hm o
  rw [value_torn_length (by omega) hklen] at hk
  have hv := u32At_torn_vlen front hm o
  have htext : fromUtf8 ((front ++
      LittleEndian.torn m (entryBytes (k, v) ++ rest) o).extract (front.length + 8)
        (front.length + 8 + (keyBytes k).length)) = some k := by
    rw [extract_torn_key hm o, LittleEndian.torn_self (by omega), fromUtf8_keyBytes]
  have hstart : pad4 (front.length + 8 + (keyBytes k).length) = front.length + 8 := by
    rw [hkey, Nat.add_zero, pad4]
    omega
  have hwraps := wraps_iff (show o - 4 < 4 by omega) (Nat.succ_pos _)
    (show front.length + 8 + v.length ≤ regionLen by omega) rfl
  constructor
  · intro hno
    obtain ⟨hout, hsum⟩ := hwraps.1 hno
    exact loadEntry_vlen_large hbuf hk hv (by omega) htext (by omega) (by omega)
  · intro hwrap
    have hge := hwraps.2 hwrap
    exact loadEntry_vlen_wraps hbuf hk hv (by omega) htext (by omega)

/-- At an entry whose key was not written in full the decoder gives up or
panics. -/
theorem loadEntry_torn_key (hsize : front.length + m = regionLen)
    (hm : (entryBytes (k, v) ++ rest).length ≤ m) (ho : o < 8 + (keyBytes k).length)
    (hfront : 4 ∣ front.length) :
    (GivesUp front.length (keyBytes k).length v.length o →
      loadEntry (front ++ LittleEndian.torn m (entryBytes (k, v) ++ rest) o) front.length =
        .ok none) ∧
    (¬ GivesUp front.length (keyBytes k).length v.length o →
      loadEntry (front ++ LittleEndian.torn m (entryBytes (k, v) ++ rest) o) front.length =
        .error .indexOutOfBounds) := by
  rcases Nat.lt_or_ge o 4 with hlt | hge
  · rw [GivesUp, if_pos hlt]
    exact loadEntry_torn_klen hsize hm hlt
  · rw [GivesUp, if_neg (Nat.not_lt.mpr hge)]
    rcases Nat.eq_zero_or_pos (keyBytes k).length with hzero | hpos
    · simp only [hzero, Nat.lt_irrefl, false_or]
      exact loadEntry_torn_vlen hsize hm hfront hge (by omega) hzero
    · exact ⟨fun _ => loadEntry_torn_text hsize hm hge ho hpos,
        fun hnot => absurd (.inl hpos) hnot⟩

/-- Where nothing was written the decoder panics. -/
theorem loadEntry_erased {image : Bytes} {n pos : Nat} (himage : image.length ≤ regionLen)
    (hn : n ≤ pos) (hpos : pos + 8 ≤ regionLen) :
    loadEntry (LittleEndian.torn regionLen image n) pos = .error .indexOutOfBounds := by
  have hk : u32At (LittleEndian.torn regionLen image n) pos = 4294967295 := by
    rw [u32At, LittleEndian.extract_torn_erased _ hn (by omega), Nat.add_sub_cancel_left]
    rfl
  exact loadEntry_klen_wraps (LittleEndian.length_torn himage n) hpos hk (by omega)

end TornEntry

/-! ## The decoder on a torn image -/

/-- A map with an entry in it is not empty. -/
theorem not_isEmpty_of_entry {map after : Cache} {k : String} {v : Bytes}
    {rest : List (String × Bytes)} (h : (map.insertMany ((k, v) :: rest)).Equiv after) :
    ¬ after.isEmpty := by
  rw [← h.isEmpty_eq, Std.TreeMap.insertMany_cons, Std.TreeMap.isEmpty_insertMany_list]
  simp

/-- Replacing the value of a key gives the same map only with the same value. -/
theorem insert_equiv_iff {map after : Cache} {k : String} {v v' : Bytes}
    (h : (map.insert k v).Equiv after) : (map.insert k v').Equiv after ↔ v' = v := by
  constructor
  · intro h'
    have hget : (map.insert k v')[k]? = (map.insert k v)[k]? := (h'.trans h.symm).getElem?_eq
    rw [Std.TreeMap.getElem?_insert_self, Std.TreeMap.getElem?_insert_self] at hget
    exact Option.some.inj hget
  · rintro rfl
    exact h

/-- Setting a key again forgets what it was set to. -/
theorem insert_insert_equiv {map after : Cache} {k : String} {v : Bytes} (v' : Bytes)
    (h : (map.insert k v).Equiv after) : (map.insert k v').Equiv (after.insert k v') := by
  refine Std.TreeMap.Equiv.of_forall_constGet?_eq fun key => ?_
  have hget : (map.insert k v)[key]? = after[key]? := h.getElem?_eq
  have hleft : (map.insert k v')[key]? = _ := Std.TreeMap.getElem?_insert
  have hright : (after.insert k v')[key]? = _ := Std.TreeMap.getElem?_insert
  refine hleft.trans (Eq.trans ?_ hright.symm)
  by_cases hkey : compare k key = .eq
  · rw [if_pos hkey, if_pos hkey]
  · rw [Std.TreeMap.getElem?_insert, if_neg hkey] at hget
    rw [if_neg hkey, if_neg hkey, hget]

section TornRound

variable {before after map : Cache} {front : Bytes} {k : String} {v : Bytes}
  {entries : List (String × Bytes)} {n : Nat}

/-- The part of a torn image behind the entries that were read. -/
theorem torn_front {rest : Bytes} (hsize : (front ++ rest).length ≤ regionLen)
    (hn : front.length ≤ n) :
    front.length + (regionLen - front.length) = regionLen ∧
      rest.length ≤ regionLen - front.length ∧
      LittleEndian.torn regionLen (front ++ rest) n =
        front ++ LittleEndian.torn (regionLen - front.length) rest (n - front.length) := by
  rw [List.length_append] at hsize
  exact ⟨by omega, by omega, LittleEndian.torn_append hn⟩

/-- The rounds from an entry on in front of the end of whose key the cut is. -/
theorem gives_torn_key_iff (hfront : 4 ∣ front.length)
    (hsize : (front ++ (entryBytes (k, v) ++ entries.flatMap entryBytes)).length ≤ regionLen)
    (hn : front.length ≤ n) (hafter : (map.insertMany ((k, v) :: entries)).Equiv after)
    (hkey : n - front.length < 8 + (keyBytes k).length) :
    (Gives (loadEntries (LittleEndian.torn regionLen
        (front ++ (entryBytes (k, v) ++ entries.flatMap entryBytes)) n)
          (entries.length + 1) front.length map) before ∨
      Gives (loadEntries (LittleEndian.torn regionLen
        (front ++ (entryBytes (k, v) ++ entries.flatMap entryBytes)) n)
          (entries.length + 1) front.length map) after) ↔
      before.isEmpty ∧ GivesUp front.length (keyBytes k).length v.length (n - front.length) := by
  obtain ⟨hle, hm, hbuf⟩ := torn_front hsize hn
  have hround := loadEntry_torn_key hle hm hkey hfront
  rw [← hbuf] at hround
  by_cases hgives : GivesUp front.length (keyBytes k).length v.length (n - front.length)
  · rw [loadEntries_of_none (hround.1 hgives), gives_none, gives_none]
    simp only [not_isEmpty_of_entry hafter, hgives, Bool.false_eq_true, or_false, and_true]
  · rw [loadEntries_of_error (hround.2 hgives)]
    simp only [gives_error, hgives, or_self, and_false]

/-- The rounds from an entry on in whose value the cut is: the entry is read, and
must be the last one. -/
theorem gives_torn_value_iff (hfront : 4 ∣ front.length)
    (hsize : (front ++ (entryBytes (k, v) ++ entries.flatMap entryBytes)).length ≤ regionLen)
    (hn : front.length ≤ n) (hafter : (map.insertMany ((k, v) :: entries)).Equiv after)
    (hkey : 8 + (keyBytes k).length ≤ n - front.length)
    (hcut : n ≤ front.length + (entryBytes (k, v)).length) :
    (Gives (loadEntries (LittleEndian.torn regionLen
        (front ++ (entryBytes (k, v) ++ entries.flatMap entryBytes)) n)
          (entries.length + 1) front.length map) before ∨
      Gives (loadEntries (LittleEndian.torn regionLen
        (front ++ (entryBytes (k, v) ++ entries.flatMap entryBytes)) n)
          (entries.length + 1) front.length map) after) ↔
      entries = [] ∧
        (LittleEndian.torn v.length v (n - front.length - (8 + pad4 (keyBytes k).length)) = v ∨
          (after.insert k (LittleEndian.torn v.length v
            (n - front.length - (8 + pad4 (keyBytes k).length)))).Equiv before) := by
  obtain ⟨hle, hm, hbuf⟩ := torn_front hsize hn
  have hround := loadEntry_torn hfront hle hm hkey
  rw [← hbuf] at hround
  rw [loadEntries_of_some hround]
  cases entries with
  | nil =>
      have hlast : (map.insert k v).Equiv after := hafter
      rw [List.length_nil, loadEntries, gives_some, gives_some, insert_equiv_iff hlast,
        (insert_insert_equiv _ hlast).congr_left, or_comm]
      simp
  | cons entry entries =>
      -- behind the cut nothing was written, and the next round panics
      obtain ⟨k', v'⟩ := entry
      have hpos : front.length + (entryBytes (k, v)).length + 8 ≤ regionLen := by
        rw [List.flatMap_cons, List.length_append, List.length_append, List.length_append,
          length_entryBytes k'] at hsize
        omega
      rw [List.length_cons, loadEntries_of_error (loadEntry_erased hsize hcut hpos)]
      simp only [gives_error, or_self, reduceCtorEq, false_and]

end TornRound

/-- The decoder's loop on a torn image gives the contents before or after the call
exactly when the cut does no harm to the entries that are left. -/
theorem gives_loadEntries_iff (before after : Cache) (entries : List (String × Bytes))
    {front : Bytes} {n : Nat} {map : Cache} (hfront : 4 ∣ front.length)
    (hsize : (front ++ entries.flatMap entryBytes).length ≤ regionLen) (hn : front.length ≤ n)
    (hafter : (map.insertMany entries).Equiv after) :
    (Gives (loadEntries (LittleEndian.torn regionLen (front ++ entries.flatMap entryBytes) n)
        entries.length front.length map) before ∨
      Gives (loadEntries (LittleEndian.torn regionLen (front ++ entries.flatMap entryBytes) n)
        entries.length front.length map) after) ↔
      HarmlessFrom before after n front.length entries := by
  induction entries generalizing front map with
  | nil =>
      simp only [List.length_nil, loadEntries, gives_some, HarmlessFrom, iff_true]
      exact .inr hafter
  | cons entry entries ih =>
      obtain ⟨k, v⟩ := entry
      rw [List.flatMap_cons] at hsize
      rw [List.length_cons, List.flatMap_cons, HarmlessFrom]
      by_cases hwhole : (entryBytes (k, v)).length ≤ n - front.length
      · -- the entry was written in full
        obtain ⟨hle, hm, hbuf⟩ := torn_front hsize hn
        have hround := loadEntry_entryBytes hfront hle hm hwhole
        rw [← hbuf] at hround
        have hnext : 4 ∣ (front ++ entryBytes (k, v)).length := by
          rw [List.length_append]
          exact Nat.dvd_add hfront (dvd_length_entryBytes (k, v))
        rw [Std.TreeMap.insertMany_cons] at hafter
        rw [← List.append_assoc] at hsize
        rw [if_pos hwhole, loadEntries_of_some hround, ← List.append_assoc,
          ← List.length_append]
        refine ih hnext hsize ?_ hafter
        rw [List.length_append]
        omega
      · rw [if_neg hwhole]
        by_cases hkey : n - front.length < 8 + (keyBytes k).length
        · rw [if_pos hkey]
          exact gives_torn_key_iff hfront hsize hn hafter hkey
        · rw [if_neg hkey]
          exact gives_torn_value_iff hfront hsize hn hafter (Nat.le_of_not_lt hkey) (by omega)

/-! ## Cuts in the header -/

/-- A length of which a byte is missing is far too large. -/
theorem value_torn_ge {n o : Nat} (ho : o < 4) :
    4278190080 ≤ LittleEndian.value (LittleEndian.torn 4 (LittleEndian.bytes 4 n) o) := by
  have hsum := value_torn_lt (n := n) ho
  have hpow : 256 ^ o ≤ 256 ^ 3 := Nat.pow_le_pow_right (by decide) (by omega)
  have hthree : 256 ^ 3 = 16777216 := rfl
  omega

section Header

variable {flash : Region} {cache : Cache} {n : Nat}

/-- A part of the header of a torn image is the part, torn. -/
theorem extract_torn_header (hbytes : flash.bytes = LittleEndian.torn regionLen (image cache) n)
    (hfit : (image cache).length ≤ regionLen) {i j : Nat} (hj : j ≤ 12) :
    flash.bytes.extract i j =
      LittleEndian.torn (j - i) ((header cache.size).extract i j) (n - i) := by
  have hlen : (header cache.size).length = 12 := length_header cache.size
  have hpart : (image cache).extract i j = (header cache.size).extract i j := by
    rw [image_eq, List.extract_eq_take_drop, List.extract_eq_take_drop, List.drop_append,
      List.take_append_of_le_length]
    rw [List.length_drop, hlen]
    omega
  rw [hbytes, LittleEndian.extract_torn _ hfit, hpart]
  rw [image_eq, List.length_append, hlen]
  exact Nat.le_add_right_of_le hj

theorem extract_torn_magic (hbytes : flash.bytes = LittleEndian.torn regionLen (image cache) n)
    (hfit : (image cache).length ≤ regionLen) :
    flash.bytes.extract 0 4 = LittleEndian.torn 4 magic n :=
  extract_torn_header hbytes hfit (by decide)

theorem u32At_torn_version (hbytes : flash.bytes = LittleEndian.torn regionLen (image cache) n)
    (hfit : (image cache).length ≤ regionLen) :
    u32At flash.bytes 4 =
      LittleEndian.value (LittleEndian.torn 4 (LittleEndian.bytes 4 version) (n - 4)) :=
  congrArg LittleEndian.value (extract_torn_header hbytes hfit (by decide))

theorem u32At_torn_count (hbytes : flash.bytes = LittleEndian.torn regionLen (image cache) n)
    (hfit : (image cache).length ≤ regionLen) :
    u32At flash.bytes 8 =
      LittleEndian.value (LittleEndian.torn 4 (LittleEndian.bytes 4 cache.size) (n - 8)) :=
  congrArg LittleEndian.value (extract_torn_header hbytes hfit (Nat.le_refl 12))

/-- A cut in the magic or the version leaves a region the decoder gives up on. -/
theorem load_cut_early (hbytes : flash.bytes = LittleEndian.torn regionLen (image cache) n)
    (hfit : (image cache).length ≤ regionLen) (hn : n < 8) : load flash true = .ok none := by
  have hmagic := extract_torn_magic hbytes hfit
  have hversion := u32At_torn_version hbytes hfit
  simp only [load, Bool.not_true, Bool.false_eq_true, if_false]
  by_cases hcut : n < 4
  · have hne : flash.bytes.extract 0 4 ≠ magic := by
      rw [hmagic]
      obtain rfl | rfl | rfl | rfl : n = 0 ∨ n = 1 ∨ n = 2 ∨ n = 3 := by omega
      all_goals decide
    rw [if_pos hne]
  · have heq : flash.bytes.extract 0 4 = magic :=
      hmagic.trans (LittleEndian.torn_self (Nat.le_of_not_lt hcut))
    have hge := value_torn_ge (n := version) (o := n - 4) (by omega)
    have hone : version = 1 := rfl
    rw [if_neg (not_not.mpr heq), if_pos (by omega)]

/-- A cut in the count makes the boot panic. -/
theorem load_cut_count (hbytes : flash.bytes = LittleEndian.torn regionLen (image cache) n)
    (hfit : (image cache).length ≤ regionLen) (hn : 8 ≤ n) (hlt : n < 12) :
    load flash true = .error .indexOutOfBounds := by
  have hmagic : flash.bytes.extract 0 4 = magic :=
    (extract_torn_magic hbytes hfit).trans (LittleEndian.torn_self (by omega : 4 ≤ n))
  have hversion : u32At flash.bytes 4 = version :=
    (u32At_torn_version hbytes hfit).trans (value_torn_length (by decide) (by omega))
  have hcount := u32At_torn_count hbytes hfit
  have hge := value_torn_ge (n := cache.size) (o := n - 8) (by omega)
  obtain ⟨count, hsucc⟩ : ∃ count, u32At flash.bytes 8 = count + 1 :=
    ⟨u32At flash.bytes 8 - 1, by omega⟩
  have hentry : loadEntry flash.bytes 12 = .error .indexOutOfBounds := by
    rw [hbytes]
    exact loadEntry_erased hfit (Nat.le_of_lt hlt) (by decide)
  have hloop : loadEntries flash.bytes (u32At flash.bytes 8) 12 ∅ =
      .error .indexOutOfBounds := by
    rw [hsucc, loadEntries_of_error hentry]
  simpa [load, hmagic, hversion] using hloop

end Header

/-! ## Power cuts -/

/-- What a cut behind `n` bytes leaves reads as the contents before or after the
call exactly when the cut does no harm. -/
theorem holds_written_iff (before after : Cache) (hfit : (image after).length ≤ regionLen)
    (n : Nat) :
    (Holds (Region.erased.write ((image after).take n)) before ∨
      Holds (Region.erased.write ((image after).take n)) after) ↔
      if n < 8 then before.isEmpty ∨ after.isEmpty
      else if n < 12 then False
      else HarmlessFrom before after n 12 after.toList := by
  have hbytes := bytes_write_take hfit n
  rw [holds_iff, holds_iff]
  by_cases hearly : n < 8
  · rw [if_pos hearly, load_cut_early hbytes hfit hearly, gives_none, gives_none]
  · rw [if_neg hearly]
    by_cases hcount : n < 12
    · rw [if_pos hcount, load_cut_count hbytes hfit (Nat.le_of_not_lt hearly) hcount]
      simp only [gives_error, or_self]
    · rw [if_neg hcount, load_torn_image hbytes hfit (Nat.le_of_not_lt hcount), hbytes,
        ← Std.TreeMap.length_toList]
      have hheader : (header after.size).length = 12 := length_header _
      have hwalk := gives_loadEntries_iff before after after.toList ⟨3, hheader⟩
        (image_eq after ▸ hfit) (hheader ▸ Nat.le_of_not_lt hcount) (insertMany_toList after)
      rwa [← image_eq, hheader] at hwalk

/-- A power cut is survived exactly when it does no harm. -/
theorem power_cut_survived_iff (kv : FlashKv) (call : Call) (cut : Cut) :
    kv.Survives call cut ↔ kv.Harmless call cut := by
  unfold Survives Harmless flushUntil
  by_cases hfull : regionLen < (image (call.apply kv.cache)).length
  · simp only [if_pos hfull]
  · simp only [if_neg hfull]
    cases cut with
    | beforeErase => rfl
    | written n => exact holds_written_iff _ _ (Nat.le_of_not_lt hfull) n

/-- A store that holds the valve's position, and in which nothing failed. -/
def valveStore : FlashKv :=
  ⟨Region.erased.write (image ((∅ : Cache).insert "wc.valve" [1])),
    (∅ : Cache).insert "wc.valve" [1]⟩

theorem valveStore_mirrors : valveStore.Mirrors := by
  have hfit : (image ((∅ : Cache).insert "wc.valve" [1])).length ≤ regionLen := by
    decide +kernel
  have h := holds_write_image hfit (Nat.le_refl _)
  rwa [List.take_length] at h

/-- A write of the configuration that is cut behind the erase loses the valve's
position, and one that is cut behind the version leaves a device that does not
boot. -/
theorem power_cut_loses_valve :
    valveStore.Mirrors ∧ valveStore.get "wc.valve" = some [1] ∧
      ¬ valveStore.Survives (.set "wc.cfg" [0]) (.written 0) ∧
      ¬ valveStore.Survives (.set "wc.cfg" [0]) (.written 8) := by
  have hfit : (image ((Call.set "wc.cfg" [0]).apply valveStore.cache)).length ≤ regionLen := by
    decide +kernel
  refine ⟨valveStore_mirrors, by decide +kernel, ?_, ?_⟩
  · rw [Survives, flushUntil_written hfit, holds_written_iff _ _ hfit, if_pos (by decide)]
    decide +kernel
  · rw [Survives, flushUntil_written hfit, holds_written_iff _ _ hfit]
    exact id

end FlashKv

end WaterController
