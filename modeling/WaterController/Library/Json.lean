import Mathlib.Data.List.Nodup

/-!
# JSON values and derived codecs

A JSON value with numbers of a type of its own, and codecs that go from a type to
JSON and back.  A codec is built as a derived one is: from the codecs of the parts,
with a combinator for lists, options, pairs, enumerations and records.

`Reads` says of one value that it is read back as itself.  Each combinator has a
lemma that says when: a list reads if its elements do, a record if its fields do.
So a codec is shown to read a value by going through the value.

Not every value is read back.  A float that is not finite has no JSON number, and
`f32` writes `null` for it.
-/

/-- A JSON value.  The members of an object stand in their order, repeated ones
included. -/
inductive Json (ν : Type) where
  | null
  | bool (b : Bool)
  | num (n : ν)
  | str (s : String)
  | arr (items : List (Json ν))
  | obj (members : List (String × Json ν))

namespace Json

variable {ν : Type}

/-! ## Equality -/

section Equality

variable [DecidableEq ν]

mutual

def beq : Json ν → Json ν → Bool
  | .null, .null => true
  | .bool a, .bool b => decide (a = b)
  | .num a, .num b => decide (a = b)
  | .str a, .str b => decide (a = b)
  | .arr as, .arr bs => beqItems as bs
  | .obj as, .obj bs => beqMembers as bs
  | _, _ => false

def beqItems : List (Json ν) → List (Json ν) → Bool
  | [], [] => true
  | a :: as, b :: bs => beq a b && beqItems as bs
  | _, _ => false

def beqMembers : List (String × Json ν) → List (String × Json ν) → Bool
  | [], [] => true
  | (k, a) :: as, (l, b) :: bs => decide (k = l) && beq a b && beqMembers as bs
  | _, _ => false

end

mutual

theorem beq_iff : ∀ a b : Json ν, beq a b = true ↔ a = b
  | .null, b => by cases b <;> simp [beq]
  | .bool _, b => by cases b <;> simp [beq]
  | .num _, b => by cases b <;> simp [beq]
  | .str _, b => by cases b <;> simp [beq]
  | .arr as, b => by cases b <;> simp [beq, beqItems_iff as]
  | .obj as, b => by cases b <;> simp [beq, beqMembers_iff as]

theorem beqItems_iff : ∀ as bs : List (Json ν), beqItems as bs = true ↔ as = bs
  | [], bs => by cases bs <;> simp [beqItems]
  | a :: as, bs => by cases bs <;> simp [beqItems, beq_iff a, beqItems_iff as]

theorem beqMembers_iff : ∀ as bs : List (String × Json ν), beqMembers as bs = true ↔ as = bs
  | [], bs => by cases bs <;> simp [beqMembers]
  | (k, a) :: as, bs => by
      cases bs with
      | nil => simp [beqMembers]
      | cons b bs => simp [beqMembers, beq_iff a, beqMembers_iff as, Prod.ext_iff, and_assoc]

end

instance instDecidableEq : DecidableEq (Json ν) := fun a b => decidable_of_iff _ (beq_iff a b)

end Equality

/-! ## Errors -/

/-- Why a value is not read. -/
inductive DeError where
  | invalidType (expected : String)
  | invalidValue (expected : String)
  | invalidLength (length : Nat)
  | missingField (name : String)
  | duplicateField (name : String)
  | unknownVariant (name : String)
deriving DecidableEq, Repr

def DeError.display : DeError → String
  | .invalidType expected => "invalid type, expected " ++ expected
  | .invalidValue expected => "invalid value, expected " ++ expected
  | .invalidLength length => "invalid length " ++ toString length
  | .missingField name => "missing field " ++ name
  | .duplicateField name => "duplicate field " ++ name
  | .unknownVariant name => "unknown variant " ++ name

/-- A sequence of two readings succeeds if both do. -/
theorem bind_eq_ok {ε α β : Type} {x : Except ε α} {f : α → Except ε β} {b : β} :
    (x >>= f) = .ok b ↔ ∃ a, x = .ok a ∧ f a = .ok b := by
  cases x <;> simp [bind, Except.bind]

/-! ## Numbers -/

/-- How the reader and the writer of JSON text treat numbers: the number that is
read from what a natural number or a finite float is written as, and what a number
is as an integer and as a float. -/
structure Numbers (ν : Type) where
  ofNat : Nat → ν
  ofF32 : Float32 → ν
  toInt : ν → Option Int
  toF32 : ν → Float32

/-- Numbers of 64 bits and finite floats are read as what was written. -/
structure Numbers.Faithful (N : Numbers ν) : Prop where
  toInt_ofNat : ∀ n, n < 18446744073709551616 → N.toInt (N.ofNat n) = some (n : Int)
  toF32_ofF32 : ∀ x : Float32, x.isFinite = true → N.toF32 (N.ofF32 x) = x

/-! ## Records -/

/-- The fields of a record, by name.  It is an object, in which none of them may be
repeated and others are ignored, or an array in the order of the names. -/
def fields (names : List String) : Json ν → Except DeError (String → Option (Json ν))
  | .obj members =>
      match names.find? fun name => 1 < (members.map Prod.fst).count name with
      | some name => .error (.duplicateField name)
      | none => .ok fun name => members.lookup name
  | .arr items =>
      if names.length < items.length then .error (.invalidLength items.length)
      else .ok fun name => (names.zip items).lookup name
  | _ => .error (.invalidType "a record")

theorem fields_obj {members : List (String × Json ν)} (h : (members.map Prod.fst).Nodup)
    (names : List String) :
    (Json.obj members).fields names = .ok fun name => members.lookup name := by
  have hnone : (names.find? fun name => 1 < (members.map Prod.fst).count name) = none := by
    simp [List.nodup_iff_count_le_one.mp h]
  simp only [fields, hnone]

end Json

/-- How a type is written as JSON, and read. -/
structure JsonCodec (ν α : Type) where
  toJson : α → Json ν
  fromJson : Json ν → Except Json.DeError α

namespace JsonCodec

open Json (DeError Numbers bind_eq_ok)

variable {ν α β : Type}

/-- A value is read back as itself. -/
def Reads (c : JsonCodec ν α) (a : α) : Prop := c.fromJson (c.toJson a) = .ok a

theorem Reads.eq {c : JsonCodec ν α} {a : α} (h : c.Reads a) : c.fromJson (c.toJson a) = .ok a := h

/-- A field that has to be there. -/
def required (c : JsonCodec ν α) (name : String) : Option (Json ν) → Except DeError α
  | some j => c.fromJson j
  | none => .error (.missingField name)

/-- A field with a default. -/
def orDefault (c : JsonCodec ν α) (value : α) : Option (Json ν) → Except DeError α
  | some j => c.fromJson j
  | none => .ok value

@[simp] theorem required_some (c : JsonCodec ν α) (name : String) (j : Json ν) :
    c.required name (some j) = c.fromJson j := rfl

@[simp] theorem orDefault_some (c : JsonCodec ν α) (value : α) (j : Json ν) :
    c.orDefault value (some j) = c.fromJson j := rfl

/-! ## Leaves -/

def string : JsonCodec ν String where
  toJson := .str
  fromJson
    | .str s => .ok s
    | _ => .error (.invalidType "a string")

@[simp] theorem string_fromJson_toJson (s : String) :
    (string : JsonCodec ν String).fromJson (string.toJson s) = .ok s := rfl

@[simp] theorem string_fromJson_str (s : String) :
    (string : JsonCodec ν String).fromJson (.str s) = .ok s := rfl

theorem reads_string (s : String) : (string : JsonCodec ν String).Reads s := rfl

def bool : JsonCodec ν Bool where
  toJson := .bool
  fromJson
    | .bool b => .ok b
    | _ => .error (.invalidType "a boolean")

@[simp] theorem bool_fromJson_toJson (b : Bool) :
    (bool : JsonCodec ν Bool).fromJson (bool.toJson b) = .ok b := rfl

/-- An unsigned integer type, with its name and the first number that it does not have. -/
def uint (N : Numbers ν) (name : String) (limit : Nat) (toNat : α → Nat) (ofNat : Nat → α) :
    JsonCodec ν α where
  toJson a := .num (N.ofNat (toNat a))
  fromJson
    | .num n =>
        match N.toInt n with
        | some i =>
            if 0 ≤ i ∧ i.toNat < limit then .ok (ofNat i.toNat) else .error (.invalidValue name)
        | none => .error (.invalidType name)
    | _ => .error (.invalidType name)

theorem reads_uint {N : Numbers ν} (hN : N.Faithful) {name : String} {limit : Nat}
    {toNat : α → Nat} {ofNat : Nat → α} (hlimit : limit ≤ 18446744073709551616) {a : α}
    (hlt : toNat a < limit) (hof : ofNat (toNat a) = a) :
    (uint N name limit toNat ofNat).Reads a := by
  simp [Reads, uint, hN.toInt_ofNat _ (Nat.lt_of_lt_of_le hlt hlimit), hlt, hof]

def u8 (N : Numbers ν) : JsonCodec ν UInt8 := uint N "u8" 256 UInt8.toNat UInt8.ofNat

def u16 (N : Numbers ν) : JsonCodec ν UInt16 := uint N "u16" 65536 UInt16.toNat UInt16.ofNat

def u32 (N : Numbers ν) : JsonCodec ν UInt32 := uint N "u32" 4294967296 UInt32.toNat UInt32.ofNat

/-- A float.  One that is not finite is written as `null`, and `null` is not read. -/
def f32 (N : Numbers ν) : JsonCodec ν Float32 where
  toJson x := if x.isFinite then .num (N.ofF32 x) else .null
  fromJson
    | .num n => .ok (N.toF32 n)
    | _ => .error (.invalidType "f32")

section Numeric

variable {N : Numbers ν} (hN : N.Faithful)

include hN

theorem reads_u8 (a : UInt8) : (u8 N).Reads a :=
  reads_uint hN (by simp) a.toNat_lt (by simp)

theorem reads_u16 (a : UInt16) : (u16 N).Reads a :=
  reads_uint hN (by simp) a.toNat_lt (by simp)

theorem reads_u32 (a : UInt32) : (u32 N).Reads a :=
  reads_uint hN (by simp) a.toNat_lt (by simp)

theorem reads_f32_iff {x : Float32} : (f32 N).Reads x ↔ x.isFinite = true := by
  cases hx : x.isFinite with
  | false => simp [Reads, f32, hx]
  | true => simp [Reads, f32, hx, hN.toF32_ofF32 x hx]

end Numeric

/-! ## Containers -/

def list (c : JsonCodec ν α) : JsonCodec ν (List α) where
  toJson as := .arr (as.map c.toJson)
  fromJson
    | .arr items => items.mapM c.fromJson
    | _ => .error (.invalidType "a sequence")

theorem reads_list_iff {c : JsonCodec ν α} {as : List α} :
    (list c).Reads as ↔ ∀ a ∈ as, c.Reads a := by
  simp only [Reads, list]
  induction as with
  | nil => simp [pure, Except.pure]
  | cons a as ih =>
      simp only [List.map_cons, List.mapM_cons, bind_eq_ok, pure, Except.pure, Except.ok.injEq,
        List.cons.injEq, List.forall_mem_cons]
      rw [← ih]
      constructor
      · rintro ⟨_, ha, _, has, rfl, rfl⟩
        exact ⟨ha, has⟩
      · rintro ⟨ha, has⟩
        exact ⟨a, ha, as, has, rfl, rfl⟩

theorem reads_list {c : JsonCodec ν α} (h : ∀ a, c.Reads a) (as : List α) :
    (list c).Reads as :=
  reads_list_iff.mpr fun a _ => h a

/-- An array of two. -/
def pair (c : JsonCodec ν α) : JsonCodec ν (α × α) where
  toJson p := .arr [c.toJson p.1, c.toJson p.2]
  fromJson
    | .arr [a, b] => do return (← c.fromJson a, ← c.fromJson b)
    | .arr items => .error (.invalidLength items.length)
    | _ => .error (.invalidType "an array of length 2")

theorem reads_pair_iff {c : JsonCodec ν α} {p : α × α} :
    (pair c).Reads p ↔ c.Reads p.1 ∧ c.Reads p.2 := by
  simp only [Reads, pair, bind_eq_ok, pure, Except.pure, Except.ok.injEq]
  constructor
  · rintro ⟨_, ha, _, hb, rfl⟩
    exact ⟨ha, hb⟩
  · rintro ⟨ha, hb⟩
    exact ⟨_, ha, _, hb, rfl⟩

def option (c : JsonCodec ν α) : JsonCodec ν (Option α) where
  toJson
    | some a => c.toJson a
    | none => .null
  fromJson
    | .null => .ok none
    | j => some <$> c.fromJson j

theorem reads_option {c : JsonCodec ν α} (h : ∀ a, c.Reads a) (hnull : ∀ a, c.toJson a ≠ .null)
    (a : Option α) : (option c).Reads a := by
  cases a with
  | none => rfl
  | some a =>
      have ha := h a
      have hne := hnull a
      simp only [Reads, option] at ha ⊢
      cases hj : c.toJson a with
      | null => exact absurd hj hne
      | bool | num | str | arr | obj =>
          rw [hj] at ha
          simp only [ha]
          rfl

/-- An enumeration without fields: the name of the variant, or an object with the
name and `null`. -/
def unitEnum (name : α → String) (variants : List α) : JsonCodec ν α where
  toJson a := .str (name a)
  fromJson
    | .str s | .obj [(s, .null)] =>
        match variants.find? fun a => name a = s with
        | some a => .ok a
        | none => .error (.unknownVariant s)
    | _ => .error (.invalidType "a variant")

theorem reads_unitEnum {name : α → String} {variants : List α} {a : α}
    (h : (variants.find? fun b => name b = name a) = some a) :
    (unitEnum name variants : JsonCodec ν α).Reads a := by
  simp only [Reads, unitEnum, h]

end JsonCodec
