import WaterController.Core.Calibration
import WaterController.Core.Traits
import WaterController.Library.LittleEndian

/-!
# The flash store of the no_std firmware

The store is a map in memory and a flash region that mirrors it.  Reads are
answered from the map.  Every change encodes the whole map into one *image*,
erases the region and writes the image at its start.  At boot `load` parses the
region, and a region it gives up on is an empty store.

Lengths are 32 bits wide on the chip.  The decoder adds lengths it read to its
position before it compares them, so a sum can wrap, and the slice it then takes
is checked.
-/

namespace WaterController

namespace FlashKv

/-- The two sectors the store uses. -/
def regionLen : Nat := 8 * 1024

/-- `b"WCKV"`. -/
def magic : Bytes := [0x57, 0x43, 0x4B, 0x56]

def version : Nat := 1

/-- `n + 3` with its low two bits cleared. -/
def pad4 (n : Nat) : Nat := (n + 3) / 4 * 4

/-- `m + n` on the chip's lengths. -/
def usizeAdd (m n : Nat) : Nat := (m + n) % 4294967296

/-! ## The flash -/

/-- The contents of the flash region. -/
structure Region where
  bytes : Bytes
  length_eq : bytes.length = regionLen
deriving DecidableEq

namespace Region

/-- The region behind an erase. -/
def erased : Region := ⟨List.replicate regionLen LittleEndian.erased, List.length_replicate⟩

theorem length_write (r : Region) (bs : Bytes) :
    ((bs ++ r.bytes.drop bs.length).take regionLen).length = regionLen := by
  simp only [List.length_take, List.length_append, List.length_drop, r.length_eq]
  omega

/-- The region behind a write at its start. -/
def write (r : Region) (bs : Bytes) : Region :=
  ⟨(bs ++ r.bytes.drop bs.length).take regionLen, r.length_write bs⟩

end Region

/-- How the driver's erase and write of the region go.  After a failure the
region holds whatever the driver left of it. -/
inductive FlashOutcome where
  | stored
  | eraseFails (left : Region)
  | writeFails (left : Region)

/-! ## The image of a map -/

/-- The map in memory. -/
abbrev Cache := Std.TreeMap String Bytes

/-- `k.as_bytes()`. -/
def keyBytes (key : String) : Bytes := key.toByteArray.data.toList

/-- `buf.resize(pad4(buf.len()), 0)`. -/
def resize4 (buf : Bytes) : Bytes := buf ++ List.replicate (pad4 buf.length - buf.length) 0

/-- One round of the encoder's loop. -/
def pushEntry (buf : Bytes) (entry : String × Bytes) : Bytes :=
  let (k, v) := entry
  let buf := buf ++ LittleEndian.bytes 4 (keyBytes k).length
  let buf := buf ++ LittleEndian.bytes 4 v.length
  let buf := resize4 (buf ++ keyBytes k)
  resize4 (buf ++ v)

/-- The image `flush` builds of a map. -/
def image (cache : Cache) : Bytes :=
  cache.toList.foldl pushEntry
    (magic ++ LittleEndian.bytes 4 version ++ LittleEndian.bytes 4 cache.size)

/-! ## The decoder -/

/-- `buf[start..stop]`. -/
def slice (buf : Bytes) (start stop : Nat) : Except Panic Bytes :=
  if start ≤ stop ∧ stop ≤ buf.length then .ok (buf.extract start stop)
  else .error .indexOutOfBounds

/-- `u32::from_le_bytes(buf[pos..pos + 4])`, at a position the code has checked. -/
def u32At (buf : Bytes) (pos : Nat) : Nat := LittleEndian.value (buf.extract pos (pos + 4))

/-- `String::from_utf8(bs).ok()`. -/
def fromUtf8 (bs : Bytes) : Option String := String.fromUTF8? bs.toByteArray

/-- One round of the decoder's loop: the entry at `pos`, and the position behind
it.  It is `none` where the code gives up. -/
def loadEntry (buf : Bytes) (pos : Nat) : Except Panic (Option ((String × Bytes) × Nat)) :=
  if buf.length < pos + 8 then .ok none
  else
    let klen := u32At buf pos
    let vlen := u32At buf (pos + 4)
    let pos := pos + 8
    let kend := usizeAdd pos klen
    if buf.length < kend then .ok none
    else do
      match fromUtf8 (← slice buf pos kend) with
      | none => .ok none
      | some key =>
          let pos := pad4 kend
          let vend := usizeAdd pos vlen
          if buf.length < vend then .ok none
          else do
            let val ← slice buf pos vend
            .ok (some ((key, val), pad4 vend))

/-- The decoder's loop, over the rounds that are left. -/
def loadEntries (buf : Bytes) : Nat → Nat → Cache → Except Panic (Option Cache)
  | 0, _, map => .ok (some map)
  | count + 1, pos, map => do
      match ← loadEntry buf pos with
      | none => .ok none
      | some ((key, val), pos) => loadEntries buf count pos (map.insert key val)

end FlashKv

/-! ## The store -/

open FlashKv in
structure FlashKv where
  flash : Region
  cache : Cache

namespace FlashKv

/-- The map the region holds.  `readable` is whether the driver's read succeeds. -/
def load (flash : Region) (readable : Bool) : Except Panic (Option Cache) :=
  let buf := flash.bytes
  if !readable then .ok none
  else if buf.extract 0 4 ≠ magic then .ok none
  else if u32At buf 4 ≠ version then .ok none
  else loadEntries buf (u32At buf 8) 12 ∅

/-- A region that does not load is an empty store. -/
def new (flash : Region) (readable : Bool) : Except Panic FlashKv := do
  let cache ← load flash readable
  .ok ⟨flash, cache.getD ∅⟩

/-- A boot from a region that can be read. -/
def boot (flash : Region) : Except Panic FlashKv := new flash true

/-- The rewrite of the region with the image of a map.  The encoder's length fits
the chip's 32 bits, as every vector's does. -/
def flush (flash : Region) (cache : Cache) (outcome : FlashOutcome) :
    Except NvsError Unit × Region :=
  let buf := image cache
  if regionLen < buf.length then (.error .full, flash)
  else
    match outcome with
    | .eraseFails left => (.error (.io "erase"), left)
    | .writeFails left => (.error (.io "write"), left)
    | .stored => (.ok (), Region.erased.write buf)

def get (kv : FlashKv) (key : String) : Option Bytes := kv.cache[key]?

def set (kv : FlashKv) (key : String) (value : Bytes) (outcome : FlashOutcome) :
    Except NvsError Unit × FlashKv :=
  let cache := kv.cache.insert key value
  let (result, flash) := flush kv.flash cache outcome
  (result, ⟨flash, cache⟩)

def remove (kv : FlashKv) (key : String) (outcome : FlashOutcome) :
    Except NvsError Unit × FlashKv :=
  let cache := kv.cache.erase key
  let (result, flash) := flush kv.flash cache outcome
  (result, ⟨flash, cache⟩)

end FlashKv

end WaterController
