import WaterController.Nostd.FlashImage

/-!
# Panics of the flash decoder

`loadOn` is the decoder with every addition and every slice of it spelled out, for
a build whose additions wrap and for one whose additions trap.  On the wrapping
build it is `load` (`loadOn_wrapping`).

The decoder adds the lengths it reads before it compares them.  A region on which
such a sum reaches 2³² makes either build panic, the one in the addition and the
other in the slice that ends in front of its start; on every other region both
return the same and no sum overflows (`loadOn_iff`).
-/

namespace WaterController

namespace FlashKv

/-- What an addition does that overflows. -/
inductive Overflow where
  | wrapping
  | trapping
deriving DecidableEq, Repr

/-- Why the decoder panics. -/
inductive LoadPanic where
  | slice (panic : Panic)
  | addOverflow
deriving DecidableEq, Repr

/-- `m + n`. -/
def addUsize (mode : Overflow) (m n : Nat) : Except LoadPanic Nat :=
  if m + n < 4294967296 then .ok (m + n)
  else
    match mode with
    | .wrapping => .ok ((m + n) % 4294967296)
    | .trapping => .error .addOverflow

/-- `pad4(n)`. -/
def padUsize (mode : Overflow) (n : Nat) : Except LoadPanic Nat := do
  let sum ← addUsize mode n 3
  .ok (sum / 4 * 4)

/-- `buf[start..stop]`. -/
def sliceOn (buf : Bytes) (start stop : Nat) : Except LoadPanic Bytes :=
  (slice buf start stop).mapError .slice

/-- `u32::from_le_bytes(bs.try_into().ok()?)`. -/
def u32From (bs : Bytes) : Option Nat :=
  if bs.length = 4 then some (LittleEndian.value bs) else none

/-- One round of the decoder's loop, as `loadEntry`. -/
def loadEntryOn (mode : Overflow) (buf : Bytes) (pos : Nat) :
    Except LoadPanic (Option ((String × Bytes) × Nat)) := do
  if buf.length < (← addUsize mode pos 8) then .ok none
  else
    match u32From (← sliceOn buf pos (← addUsize mode pos 4)) with
    | none => .ok none
    | some klen =>
        match u32From (← sliceOn buf (← addUsize mode pos 4) (← addUsize mode pos 8)) with
        | none => .ok none
        | some vlen =>
            let pos ← addUsize mode pos 8
            let kend ← addUsize mode pos klen
            if buf.length < kend then .ok none
            else
              match fromUtf8 (← sliceOn buf pos kend) with
              | none => .ok none
              | some key =>
                  let pos ← padUsize mode kend
                  let vend ← addUsize mode pos vlen
                  if buf.length < vend then .ok none
                  else
                    let val ← sliceOn buf pos vend
                    let pos ← padUsize mode vend
                    .ok (some ((key, val), pos))

/-- The decoder's loop, as `loadEntries`. -/
def loadEntriesOn (mode : Overflow) (buf : Bytes) :
    Nat → Nat → Cache → Except LoadPanic (Option Cache)
  | 0, _, map => .ok (some map)
  | count + 1, pos, map => do
      match ← loadEntryOn mode buf pos with
      | none => .ok none
      | some ((key, val), pos) => loadEntriesOn mode buf count pos (map.insert key val)

/-- The map the region holds, as `load`. -/
def loadOn (mode : Overflow) (flash : Region) (readable : Bool) :
    Except LoadPanic (Option Cache) := do
  let buf := flash.bytes
  if !readable then .ok none
  else if (← sliceOn buf 0 4) ≠ magic then .ok none
  else
    match u32From (← sliceOn buf 4 8) with
    | none => .ok none
    | some ver =>
        if ver ≠ version then .ok none
        else
          match u32From (← sliceOn buf 8 12) with
          | none => .ok none
          | some count => loadEntriesOn mode buf count 12 ∅

/-! ## Sums and slices -/

theorem addUsize_of_lt (mode : Overflow) {m n : Nat} (h : m + n < 4294967296) :
    addUsize mode m n = .ok (m + n) :=
  if_pos h

theorem addUsize_wrapping (m n : Nat) : addUsize .wrapping m n = .ok (usizeAdd m n) := by
  rcases Nat.lt_or_ge (m + n) 4294967296 with h | h
  · rw [addUsize_of_lt _ h, usizeAdd_of_lt h]
  · exact if_neg (Nat.not_lt.mpr h)

theorem addUsize_trapping {m n : Nat} (h : 4294967296 ≤ m + n) :
    addUsize .trapping m n = .error .addOverflow :=
  if_neg (Nat.not_lt.mpr h)

theorem padUsize_of_le (mode : Overflow) {n : Nat} (h : n ≤ regionLen) :
    padUsize mode n = .ok (pad4 n) := by
  have hreg : regionLen = 8192 := rfl
  rw [padUsize, addUsize_of_lt mode (by omega)]
  rfl

theorem sliceOn_eq_ok {buf : Bytes} {start stop : Nat} (h : start ≤ stop)
    (hstop : stop ≤ buf.length) : sliceOn buf start stop = .ok (buf.extract start stop) := by
  rw [sliceOn, slice_eq_ok h hstop]
  rfl

theorem sliceOn_eq_error {buf : Bytes} {start stop : Nat} (h : stop < start) :
    sliceOn buf start stop = .error (.slice .indexOutOfBounds) := by
  rw [sliceOn, slice_eq_error h]
  rfl

theorem u32From_extract {buf : Bytes} {pos : Nat} (h : pos + 4 ≤ buf.length) :
    u32From (buf.extract pos (pos + 4)) = some (u32At buf pos) := by
  have hlen : (buf.extract pos (pos + 4)).length = 4 := by
    rw [List.extract_eq_take_drop, List.length_take, List.length_drop]
    omega
  exact if_pos hlen

/-! ## One field -/

/-- A field of `len` bytes at `pos`, given up when it ends behind the buffer. -/
def fieldOn {α : Type} (mode : Overflow) (buf : Bytes) (pos len : Nat)
    (rest : Nat → Bytes → Except LoadPanic (Option α)) : Except LoadPanic (Option α) := do
  let stop ← addUsize mode pos len
  if buf.length < stop then .ok none
  else rest stop (← sliceOn buf pos stop)

/-- What a build panics with on a sum that overflows. -/
def overflowPanic : Overflow → LoadPanic
  | .wrapping => .slice .indexOutOfBounds
  | .trapping => .addOverflow

section Field

variable {α : Type} {buf : Bytes} {pos len : Nat}
  (rest : Nat → Bytes → Except LoadPanic (Option α))

theorem fieldOn_overflows (mode : Overflow) (hbuf : buf.length = regionLen)
    (hpos : pos ≤ regionLen) (hlen : len < 4294967296) (h : 4294967296 ≤ pos + len) :
    fieldOn mode buf pos len rest = .error (overflowPanic mode) := by
  cases mode with
  | wrapping =>
      have hlt : usizeAdd pos len < pos := usizeAdd_of_ge hpos hlen h
      have hin : ¬ buf.length < usizeAdd pos len := by omega
      simp only [fieldOn, addUsize_wrapping, bind, Except.bind, hin, if_false,
        sliceOn_eq_error hlt, overflowPanic]
  | trapping => simp only [fieldOn, addUsize_trapping h, bind, Except.bind, overflowPanic]

theorem fieldOn_large (mode : Overflow) (hout : buf.length < pos + len)
    (h : pos + len < 4294967296) : fieldOn mode buf pos len rest = .ok none := by
  simp only [fieldOn, addUsize_of_lt mode h, bind, Except.bind, hout, if_true]

theorem fieldOn_fits (mode : Overflow) (hbuf : buf.length = regionLen)
    (h : pos + len ≤ regionLen) :
    fieldOn mode buf pos len rest = rest (pos + len) (buf.extract pos (pos + len)) := by
  have hreg : regionLen = 8192 := rfl
  have hin : ¬ buf.length < pos + len := by omega
  have hslice : sliceOn buf pos (pos + len) = .ok (buf.extract pos (pos + len)) :=
    sliceOn_eq_ok (Nat.le_add_right pos len) (by omega)
  simp only [fieldOn, addUsize_of_lt mode (show pos + len < 4294967296 by omega), bind,
    Except.bind, hin, if_false, hslice]

end Field

/-! ## One round -/

/-- The entry at `pos` has a key that lies in the buffer and is text. -/
def KeyFits (buf : Bytes) (pos : Nat) : Prop :=
  pos + 8 + u32At buf pos ≤ buf.length ∧
    ∃ key, fromUtf8 (buf.extract (pos + 8) (pos + 8 + u32At buf pos)) = some key

/-- Where the value of the entry at `pos` starts. -/
def valueStart (buf : Bytes) (pos : Nat) : Nat := pad4 (pos + 8 + u32At buf pos)

/-- A length of the entry at `pos` and the position it is added to reach 2³². -/
def EntryOverflows (buf : Bytes) (pos : Nat) : Prop :=
  pos + 8 ≤ buf.length ∧
    (4294967296 ≤ pos + 8 + u32At buf pos ∨
      KeyFits buf pos ∧ 4294967296 ≤ valueStart buf pos + u32At buf (pos + 4))

/-- The entry at `pos` lies in the buffer, and the next one is at `pos'`. -/
def NextEntry (buf : Bytes) (pos pos' : Nat) : Prop :=
  KeyFits buf pos ∧ valueStart buf pos + u32At buf (pos + 4) ≤ buf.length ∧
    pos' = pad4 (valueStart buf pos + u32At buf (pos + 4))

section Round

variable {buf : Bytes} {pos : Nat}

/-- A round reads the two lengths, and then the fields they are of. -/
theorem loadEntryOn_eq (mode : Overflow) (hbuf : buf.length = regionLen)
    (hpos : pos + 8 ≤ regionLen) :
    loadEntryOn mode buf pos =
      fieldOn mode buf (pos + 8) (u32At buf pos) fun kend bs =>
        match fromUtf8 bs with
        | none => .ok none
        | some key => (do
            let start ← padUsize mode kend
            fieldOn mode buf start (u32At buf (pos + 4)) fun vend val => (do
              let pos' ← padUsize mode vend
              .ok (some ((key, val), pos')))) := by
  have hreg : regionLen = 8192 := rfl
  have h₄ : addUsize mode pos 4 = .ok (pos + 4) := addUsize_of_lt mode (by omega)
  have h₈ : addUsize mode pos 8 = .ok (pos + 8) := addUsize_of_lt mode (by omega)
  have hklen : sliceOn buf pos (pos + 4) = .ok (buf.extract pos (pos + 4)) :=
    sliceOn_eq_ok (by omega) (by omega)
  have hvlen : sliceOn buf (pos + 4) (pos + 8) = .ok (buf.extract (pos + 4) (pos + 4 + 4)) :=
    sliceOn_eq_ok (by omega) (by omega)
  have hin : ¬ buf.length < pos + 8 := by omega
  have hk : u32From (buf.extract pos (pos + 4)) = some (u32At buf pos) :=
    u32From_extract (by omega)
  have hv : u32From (buf.extract (pos + 4) (pos + 4 + 4)) = some (u32At buf (pos + 4)) :=
    u32From_extract (by omega)
  simp only [loadEntryOn, h₄, h₈, hklen, hvlen, bind, Except.bind, hin, if_false, hk, hv]
  rfl

/-- What one round does. -/
inductive RoundCase (buf : Bytes) (pos : Nat) : Prop
  | overflows : EntryOverflows buf pos → loadEntry buf pos = .error .indexOutOfBounds →
      (∀ mode, loadEntryOn mode buf pos = .error (overflowPanic mode)) → RoundCase buf pos
  | givesUp : ¬ EntryOverflows buf pos → (∀ pos', ¬ NextEntry buf pos pos') →
      loadEntry buf pos = .ok none → (∀ mode, loadEntryOn mode buf pos = .ok none) →
      RoundCase buf pos
  | reads (k : String) (v : Bytes) (pos' : Nat) : ¬ EntryOverflows buf pos →
      NextEntry buf pos pos' → loadEntry buf pos = .ok (some ((k, v), pos')) →
      (∀ mode, loadEntryOn mode buf pos = .ok (some ((k, v), pos'))) → RoundCase buf pos

theorem roundCase_no_room (hbuf : buf.length = regionLen) (hpos : pos ≤ regionLen)
    (hend : regionLen < pos + 8) : RoundCase buf pos := by
  have hreg : regionLen = 8192 := rfl
  have hout : buf.length < pos + 8 := by omega
  refine .givesUp (fun h => ?_) (fun pos' h => ?_) (if_pos hout) fun mode => ?_
  · exact Nat.not_lt.mpr h.1 hout
  · have hkey := h.1.1
    omega
  · simp only [loadEntryOn, addUsize_of_lt mode (show pos + 8 < 4294967296 by omega), bind,
      Except.bind, hout, if_true]

theorem roundCase_klen_overflows (hbuf : buf.length = regionLen) (hroom : pos + 8 ≤ regionLen)
    (hwrap : 4294967296 ≤ pos + 8 + u32At buf pos) : RoundCase buf pos := by
  refine .overflows ⟨by omega, .inl hwrap⟩ (loadEntry_klen_wraps hbuf hroom rfl hwrap)
    fun mode => ?_
  rw [loadEntryOn_eq mode hbuf hroom,
    fieldOn_overflows _ mode hbuf hroom (u32At_lt buf pos) hwrap]

/-- A key that ends behind the region, or that is no text. -/
theorem roundCase_not_keyFits (hbuf : buf.length = regionLen) (hroom : pos + 8 ≤ regionLen)
    (hsum : pos + 8 + u32At buf pos < 4294967296) (hno : ¬ KeyFits buf pos) :
    RoundCase buf pos := by
  have hover : ¬ EntryOverflows buf pos := by
    rintro ⟨-, hwrap | ⟨hkey, -⟩⟩
    · omega
    · exact hno hkey
  have hround := fun mode => loadEntryOn_eq mode hbuf hroom
  rcases Nat.lt_or_ge regionLen (pos + 8 + u32At buf pos) with hout | hin
  · refine .givesUp hover (fun pos' h => hno h.1)
      (loadEntry_klen_large hbuf hroom rfl hout hsum) fun mode => ?_
    rw [hround mode, fieldOn_large _ mode (by omega) hsum]
  · have htext : fromUtf8 (buf.extract (pos + 8) (pos + 8 + u32At buf pos)) = none := by
      cases htext : fromUtf8 (buf.extract (pos + 8) (pos + 8 + u32At buf pos)) with
      | none => rfl
      | some key => exact absurd ⟨by omega, key, htext⟩ hno
    refine .givesUp hover (fun pos' h => hno h.1) (loadEntry_not_text hbuf rfl hin htext)
      fun mode => ?_
    rw [hround mode, fieldOn_fits _ mode hbuf hin, htext]

/-- Behind a key that fits the round goes by the value. -/
theorem roundCase_keyFits (hbuf : buf.length = regionLen) (hkey : KeyFits buf pos) :
    RoundCase buf pos := by
  have hreg : regionLen = 8192 := rfl
  obtain ⟨hfits, key, htext⟩ := id hkey
  have hin : pos + 8 + u32At buf pos ≤ regionLen := by omega
  have hstart : valueStart buf pos ≤ regionLen := pad4_le dvd_regionLen hin
  have hvalue : ∀ mode, loadEntryOn mode buf pos =
      fieldOn mode buf (valueStart buf pos) (u32At buf (pos + 4)) fun vend val => (do
        let pos' ← padUsize mode vend
        .ok (some ((key, val), pos'))) := by
    intro mode
    rw [loadEntryOn_eq mode hbuf (by omega), fieldOn_fits _ mode hbuf hin, htext]
    simp only [padUsize_of_le mode hin, bind, Except.bind]
    rfl
  rcases Nat.lt_or_ge (valueStart buf pos + u32At buf (pos + 4)) 4294967296 with hsum | hwrap
  · have hno : ¬ EntryOverflows buf pos := by
      rintro ⟨-, hwrap | ⟨-, hwrap⟩⟩
      · omega
      · omega
    rcases Nat.lt_or_ge regionLen (valueStart buf pos + u32At buf (pos + 4)) with hvout | hvin
    · refine .givesUp hno (fun pos' h => ?_)
        (loadEntry_vlen_large hbuf rfl rfl hin htext hvout hsum) fun mode => ?_
      · have hend := h.2.1
        omega
      · rw [hvalue mode, fieldOn_large _ mode (by omega) hsum]
    · refine .reads key _ _ hno ⟨hkey, by omega, rfl⟩
        (loadEntry_read hbuf rfl rfl hin htext hvin) fun mode => ?_
      rw [hvalue mode, fieldOn_fits _ mode hbuf hvin]
      simp only [padUsize_of_le mode hvin, bind, Except.bind]
      rfl
  · refine .overflows ⟨by omega, .inr ⟨hkey, hwrap⟩⟩
      (loadEntry_vlen_wraps hbuf rfl rfl hin htext hwrap) fun mode => ?_
    rw [hvalue mode, fieldOn_overflows _ mode hbuf hstart (u32At_lt buf (pos + 4)) hwrap]

/-- A round overflows, gives up, or reads an entry. -/
theorem roundCase (hbuf : buf.length = regionLen) (hpos : pos ≤ regionLen) :
    RoundCase buf pos := by
  rcases Nat.lt_or_ge regionLen (pos + 8) with hend | hroom
  · exact roundCase_no_room hbuf hpos hend
  rcases Nat.lt_or_ge (pos + 8 + u32At buf pos) 4294967296 with hsum | hwrap
  · by_cases hkey : KeyFits buf pos
    · exact roundCase_keyFits hbuf hkey
    · exact roundCase_not_keyFits hbuf hroom hsum hkey
  · exact roundCase_klen_overflows hbuf hroom hwrap

end Round

/-! ## A run -/

/-- One of the next `count` entries from `pos` on overflows, and those before it are
read. -/
inductive Overflows (buf : Bytes) : Nat → Nat → Prop
  | here {count pos : Nat} : EntryOverflows buf pos → Overflows buf (count + 1) pos
  | next {count pos pos' : Nat} : NextEntry buf pos pos' → Overflows buf count pos' →
      Overflows buf (count + 1) pos

theorem NextEntry.le {buf : Bytes} {pos pos' : Nat} (hbuf : buf.length = regionLen)
    (h : NextEntry buf pos pos') : pos' ≤ regionLen := by
  obtain ⟨-, hle, rfl⟩ := h
  exact pad4_le dvd_regionLen (hbuf ▸ hle)

theorem NextEntry.unique {buf : Bytes} {pos pos₁ pos₂ : Nat} (h₁ : NextEntry buf pos pos₁)
    (h₂ : NextEntry buf pos pos₂) : pos₁ = pos₂ :=
  h₁.2.2.trans h₂.2.2.symm

/-- An entry that is read decides nothing, the others behind it do. -/
theorem overflows_next_iff {buf : Bytes} {count pos pos' : Nat} (hno : ¬ EntryOverflows buf pos)
    (hnext : NextEntry buf pos pos') : Overflows buf (count + 1) pos ↔ Overflows buf count pos' := by
  constructor
  · intro h
    cases h with
    | here hover => exact absurd hover hno
    | next hnext' hrest => exact hnext.unique hnext' ▸ hrest
  · exact .next hnext

/-- The loop panics on every build when an entry overflows, and otherwise gives the
same on all. -/
theorem loadEntriesOn_cases {buf : Bytes} (hbuf : buf.length = regionLen) {count pos : Nat}
    (hpos : pos ≤ regionLen) (map : Cache) :
    (Overflows buf count pos ∧ loadEntries buf count pos map = .error .indexOutOfBounds ∧
      ∀ mode, loadEntriesOn mode buf count pos map = .error (overflowPanic mode)) ∨
    (¬ Overflows buf count pos ∧ ∃ result, loadEntries buf count pos map = .ok result ∧
      ∀ mode, loadEntriesOn mode buf count pos map = .ok result) := by
  induction count generalizing pos map with
  | zero =>
      refine .inr ⟨?_, some map, rfl, fun mode => rfl⟩
      intro h
      cases h
  | succ count ih =>
      cases roundCase hbuf hpos with
      | overflows hover hload hon =>
          refine .inl ⟨.here hover, loadEntries_of_error hload count map, fun mode => ?_⟩
          rw [loadEntriesOn, hon]
          rfl
      | givesUp hno hlast hload hon =>
          refine .inr ⟨?_, none, loadEntries_of_none hload count map, fun mode => ?_⟩
          · intro h
            cases h with
            | here hover => exact hno hover
            | next hnext _ => exact hlast _ hnext
          · rw [loadEntriesOn, hon]
            rfl
      | reads k v pos' hno hnext hload hon =>
          have hstep : ∀ mode, loadEntriesOn mode buf (count + 1) pos map =
              loadEntriesOn mode buf count pos' (map.insert k v) := by
            intro mode
            rw [loadEntriesOn, hon]
            rfl
          simp only [overflows_next_iff hno hnext, loadEntries_of_some hload, hstep]
          exact ih (hnext.le hbuf) (map.insert k v)

/-! ## The region -/

/-- The decoder looks at the entries of the region. -/
def Decoded (flash : Region) (readable : Bool) : Prop :=
  readable = true ∧ flash.bytes.extract 0 4 = magic ∧ u32At flash.bytes 4 = version

/-- A region that is not decoded is given up on at its header. -/
theorem header_gives_up {ε : Type} {flash : Region} {readable : Bool}
    (h : ¬ Decoded flash readable) (entries : Except ε (Option Cache)) :
    (if !readable then .ok none
      else if flash.bytes.extract 0 4 ≠ magic then .ok none
      else if u32At flash.bytes 4 ≠ version then .ok none
      else entries) = .ok none := by
  split_ifs with hread hmagic hver
  · rfl
  · rfl
  · rfl
  · exact absurd ⟨by simpa using hread, not_not.mp hmagic, not_not.mp hver⟩ h

/-- What the decoder gives on every build, and on which regions it panics. -/
theorem loadOn_cases (flash : Region) (readable : Bool) :
    (Decoded flash readable ∧ Overflows flash.bytes (u32At flash.bytes 8) 12 ∧
      load flash readable = .error .indexOutOfBounds ∧
      ∀ mode, loadOn mode flash readable = .error (overflowPanic mode)) ∨
    (¬ (Decoded flash readable ∧ Overflows flash.bytes (u32At flash.bytes 8) 12) ∧
      ∃ result, load flash readable = .ok result ∧
        ∀ mode, loadOn mode flash readable = .ok result) := by
  have hreg : regionLen = 8192 := rfl
  have hbuf := flash.length_eq
  have hheader : ∀ mode, loadOn mode flash readable =
      if !readable then .ok none
      else if flash.bytes.extract 0 4 ≠ magic then .ok none
      else if u32At flash.bytes 4 ≠ version then .ok none
      else loadEntriesOn mode flash.bytes (u32At flash.bytes 8) 12 ∅ := by
    intro mode
    have hmagic : sliceOn flash.bytes 0 4 = .ok (flash.bytes.extract 0 4) :=
      sliceOn_eq_ok (by omega) (by omega)
    have hver : sliceOn flash.bytes 4 8 = .ok (flash.bytes.extract 4 (4 + 4)) :=
      sliceOn_eq_ok (by omega) (by omega)
    have hcount : sliceOn flash.bytes 8 12 = .ok (flash.bytes.extract 8 (8 + 4)) :=
      sliceOn_eq_ok (by omega) (by omega)
    have hver' : u32From (flash.bytes.extract 4 (4 + 4)) = some (u32At flash.bytes 4) :=
      u32From_extract (by omega)
    have hcount' : u32From (flash.bytes.extract 8 (8 + 4)) = some (u32At flash.bytes 8) :=
      u32From_extract (by omega)
    simp only [loadOn, hmagic, hver, hcount, bind, Except.bind, hver', hcount']
  by_cases hdecoded : Decoded flash readable
  · obtain ⟨rfl, hmagic, hver⟩ := hdecoded
    have hon : ∀ mode, loadOn mode flash true =
        loadEntriesOn mode flash.bytes (u32At flash.bytes 8) 12 ∅ := by
      intro mode
      simp [hheader mode, hmagic, hver]
    have hload : load flash true = loadEntries flash.bytes (u32At flash.bytes 8) 12 ∅ := by
      simp [load, hmagic, hver]
    have hwhole : Decoded flash true := ⟨rfl, hmagic, hver⟩
    simp only [hon, hload, hwhole, true_and]
    exact loadEntriesOn_cases hbuf (by omega) ∅
  · refine .inr ⟨fun h => hdecoded h.1, none, header_gives_up hdecoded _, fun mode => ?_⟩
    rw [hheader mode]
    exact header_gives_up hdecoded _

/-- The wrapping build is the decoder of the other modules. -/
theorem loadOn_wrapping (flash : Region) (readable : Bool) :
    loadOn .wrapping flash readable = (load flash readable).mapError .slice := by
  rcases loadOn_cases flash readable with ⟨-, -, hload, hon⟩ | ⟨-, result, hload, hon⟩
  · rw [hload, hon]
    rfl
  · rw [hload, hon]
    rfl

/-- The builds agree on a map or none without a panic or an overflow if and only if
no length of the region overflows; where one does, both panic. -/
theorem loadOn_iff (flash : Region) (readable : Bool) :
    ((∃ result, ∀ mode, loadOn mode flash readable = .ok result) ↔
      ¬ (readable = true ∧ flash.bytes.extract 0 4 = magic ∧ u32At flash.bytes 4 = version ∧
        Overflows flash.bytes (u32At flash.bytes 8) 12)) ∧
    ∀ mode, (∃ result, loadOn mode flash readable = .ok result) ↔
      ∃ result, ∀ mode, loadOn mode flash readable = .ok result := by
  rcases loadOn_cases flash readable with ⟨hdecoded, hover, -, hon⟩ | ⟨hno, result, -, hon⟩
  · have hnone : ∀ mode, ¬ ∃ result, loadOn mode flash readable = .ok result := by
      rintro mode ⟨result, hresult⟩
      rw [hon mode] at hresult
      cases hresult
    refine ⟨⟨?_, fun h => absurd ⟨hdecoded.1, hdecoded.2.1, hdecoded.2.2, hover⟩ h⟩, ?_⟩
    · rintro ⟨result, hall⟩
      exact absurd ⟨result, hall .trapping⟩ (hnone .trapping)
    · intro mode
      constructor
      · intro h
        exact absurd h (hnone mode)
      · rintro ⟨result, hall⟩
        exact ⟨result, hall mode⟩
  · have hall : ∃ result, ∀ mode, loadOn mode flash readable = .ok result := ⟨result, hon⟩
    refine ⟨iff_of_true hall ?_, fun mode => iff_of_true ⟨result, hon mode⟩ hall⟩
    rintro ⟨hread, hmagic, hver, hover⟩
    exact hno ⟨⟨hread, hmagic, hver⟩, hover⟩

/-- A write cut behind the header leaves a key length of ones. -/
theorem header_then_erased_panics :
    ∃ flash : Region, ∀ mode, ¬ ∃ result, loadOn mode flash true = .ok result := by
  have hlen : (header 1).length ≤ regionLen := by
    rw [length_header]
    decide
  refine ⟨Region.erased.write ((header 1).take 12), fun mode h => ?_⟩
  have hbytes := bytes_write_take hlen 12
  have hfront : LittleEndian.torn regionLen (header 1) 12 =
      header 1 ++ List.replicate (regionLen - 12) LittleEndian.erased :=
    LittleEndian.torn_of_le regionLen (Nat.le_of_eq (length_header 1))
  have hklen : u32At (LittleEndian.torn regionLen (header 1) 12) 12 = 4294967295 := by
    rw [u32At, LittleEndian.extract_torn_erased _ (Nat.le_refl 12) (by decide)]
    rfl
  have hbuf : (LittleEndian.torn regionLen (header 1) 12).length = regionLen :=
    LittleEndian.length_torn hlen 12
  rcases loadOn_cases (Region.erased.write ((header 1).take 12)) true with
    ⟨-, -, -, hon⟩ | ⟨hno, -⟩
  · obtain ⟨result, hresult⟩ := h
    rw [hon mode] at hresult
    cases hresult
  · rw [Decoded, hbytes] at hno
    refine hno ⟨⟨rfl, ?_, ?_⟩, ?_⟩
    · rw [hfront]
      rfl
    · rw [hfront]
      rfl
    · have hcount : u32At (LittleEndian.torn regionLen (header 1) 12) 8 = 0 + 1 := by
        rw [hfront]
        rfl
      rw [hcount]
      refine .here ⟨?_, .inl ?_⟩
      · rw [hbuf]
        decide
      · rw [hklen]
        decide

end FlashKv

end WaterController
