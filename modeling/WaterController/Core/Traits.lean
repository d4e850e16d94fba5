import Mathlib.Algebra.GroupWithZero.Nat
import Mathlib.Data.List.Nodup

/-!
# What the core reads from its platform

The clock, the persistent key-value store and the JSON codec are traits or
crates of which the core sees only the interface.  A reading of the clock and
the outcomes of the writes an operation makes come with the operation, in an
`Env`.  The codec is a parameter, `Serde`.
-/

namespace WaterController

/-- Stored and transmitted bytes. -/
abbrev Bytes := List UInt8

/-- The bytes of a text in ASCII. -/
def asciiBytes (text : String) : Bytes := text.toList.map fun c => c.toNat.toUInt8

/-! ## The clock -/

/-- A wall-clock instant: its Unix time, and the text the date crate renders. -/
structure DateTime where
  timestamp : Int
  rfc3339 : String
deriving DecidableEq, Repr

/-! ## The store -/

inductive NvsError where
  | notFound
  | full
  | io (message : String)
deriving DecidableEq, Repr

def NvsError.display : NvsError → String
  | .notFound => "key not found"
  | .full => "storage full"
  | .io s => "io error: " ++ s

/-- The contents of the persistent store. -/
structure NvsStore where
  entries : String → Option Bytes

namespace NvsStore

/-- A store that has never been written. -/
def blank : NvsStore := ⟨fun _ => none⟩

def get (s : NvsStore) (key : String) : Option Bytes := s.entries key

/-- A write with the outcome the hardware gives it.  A failing write leaves the
store as it was. -/
def set (s : NvsStore) (key : String) (value : Bytes) (outcome : Except NvsError Unit) :
    NvsStore :=
  match outcome with
  | .ok () => ⟨fun k => if k = key then some value else s.entries k⟩
  | .error _ => s

/-- The removal of a key, with its outcome. -/
def remove (s : NvsStore) (key : String) (outcome : Except NvsError Unit) : NvsStore :=
  match outcome with
  | .ok () => ⟨fun k => if k = key then none else s.entries k⟩
  | .error _ => s

theorem get_set_ok (s : NvsStore) (key : String) (value : Bytes) :
    (s.set key value (.ok ())).get key = some value := by
  simp [set, get]

theorem get_set_ne (s : NvsStore) {key key' : String} (h : key' ≠ key) (value : Bytes)
    (outcome : Except NvsError Unit) : (s.set key value outcome).get key' = s.get key' := by
  cases outcome with
  | ok _ => simp [set, get, h]
  | error _ => rfl

theorem get_remove_ok (s : NvsStore) (key : String) : (s.remove key (.ok ())).get key = none := by
  simp [remove, get]

theorem get_remove_ne (s : NvsStore) {key key' : String} (h : key' ≠ key)
    (outcome : Except NvsError Unit) : (s.remove key outcome).get key' = s.get key' := by
  cases outcome with
  | ok _ => simp [remove, get, h]
  | error _ => rfl

end NvsStore

/-- What one operation reads from the platform: the two clocks, and how each
write to the store turns out.  A removal is a write. -/
structure Env where
  monotonicMs : Nat
  now : DateTime
  nvsSet : String → Except NvsError Unit

/-- All writes to the store succeed. -/
def Env.Writable (env : Env) : Prop := ∀ key, env.nvsSet key = .ok ()

/-! ## The JSON codec -/

/-- Serialisation of a type to and from JSON bytes. -/
structure Serde (α : Type) where
  toVec : α → Except String Bytes
  fromSlice : Bytes → Except String α

/-- What is written and can be read back reads back as itself. -/
def Serde.Faithful {α : Type} (serde : Serde α) : Prop :=
  ∀ a b c, serde.toVec a = .ok b → serde.fromSlice b = .ok c → c = a

/-- A codec of one value. -/
def Serde.single {α : Type} [DecidableEq α] (a : α) (bytes : Bytes) : Serde α where
  toVec a' := if a' = a then .ok bytes else .error "another value"
  fromSlice b := if b = bytes then .ok a else .error "other bytes"

theorem Serde.faithful_single {α : Type} [DecidableEq α] (a : α) (bytes : Bytes) :
    (Serde.single a bytes).Faithful := by
  intro a' b c hto hfrom
  simp only [single] at hto hfrom
  split at hto <;> split at hfrom <;> simp_all

/-- A codec of the values of a table. -/
def Serde.table {α : Type} [DecidableEq α] (rows : List (α × Bytes)) : Serde α where
  toVec a :=
    match rows.find? fun row => row.1 = a with
    | some row => .ok row.2
    | none => .error "another value"
  fromSlice b :=
    match rows.find? fun row => row.2 = b with
    | some row => .ok row.1
    | none => .error "other bytes"

/-- A table without repeated bytes reads what it writes. -/
theorem Serde.table_reads {α : Type} [DecidableEq α] {rows : List (α × Bytes)}
    (hrows : (rows.map Prod.snd).Nodup) {a : α} {b : Bytes} (h : (table rows).toVec a = .ok b) :
    (table rows).fromSlice b = .ok a := by
  simp only [table] at h ⊢
  cases hfind : rows.find? fun row => row.1 = a with
  | none => simp [hfind] at h
  | some row =>
      simp only [hfind, Except.ok.injEq] at h
      have hrow : row.1 = a := by simpa using List.find?_some hfind
      have hmem := List.mem_of_find?_eq_some hfind
      cases hback : rows.find? fun row => row.2 = b with
      | none => simpa [h] using List.find?_eq_none.mp hback row hmem
      | some row' =>
          have hrow' : row'.2 = b := by simpa using List.find?_some hback
          have hsame := List.inj_on_of_nodup_map hrows (List.mem_of_find?_eq_some hback) hmem
            (hrow'.trans h.symm)
          simp only [hsame, hrow]

/-- A codec that fails, for a device that stores nothing. -/
def Serde.fails (α : Type) : Serde α := ⟨fun _ => .error "no codec", fun _ => .error "no codec"⟩

/-! ## WiFi -/

structure WifiCreds where
  ssid : String
  password : String
deriving DecidableEq, Repr

inductive WifiState where
  | disconnected
  | connecting (ssid : String)
  | connected (ssid ip : String)
  | apMode (ssid ip : String)
deriving DecidableEq, Repr

end WaterController
