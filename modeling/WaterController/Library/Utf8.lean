import Mathlib.Data.List.Basic
import Mathlib.Tactic.Common

/-!
# UTF-8 and ASCII

The bytes below 128 are characters of their own, and no other character has one of them in
its encoding.  So a text can be taken apart at such bytes in front of its decoding as well
as behind it.
-/

namespace Utf8

/-- The encoding of a text. -/
def encode (cs : List Char) : List UInt8 := cs.flatMap String.utf8EncodeChar

@[simp] theorem encode_nil : encode [] = [] := rfl

theorem encode_cons (c : Char) (cs : List Char) :
    encode (c :: cs) = String.utf8EncodeChar c ++ encode cs := rfl

@[simp] theorem encode_append (cs ds : List Char) : encode (cs ++ ds) = encode cs ++ encode ds :=
  List.flatMap_append

/-- The character of a byte. -/
def ofAscii (b : UInt8) : Char := Char.ofUInt8 b

theorem toNat_ofAscii (b : UInt8) : (ofAscii b).toNat = b.toNat := UInt8.toNat_toUInt32 b

/-- A byte that is a character of its own. -/
def IsAscii (b : UInt8) : Prop := b.toNat < 128

instance (b : UInt8) : Decidable (IsAscii b) := inferInstanceAs (Decidable (b.toNat < 128))

theorem encodeChar_ascii {b : UInt8} (h : IsAscii b) :
    String.utf8EncodeChar (ofAscii b) = [b] := by
  have hval : (ofAscii b).val.toNat = b.toNat := toNat_ofAscii b
  rw [String.utf8EncodeChar]
  simp only [hval]
  rw [if_pos (show b.toNat ≤ 0x7f from Nat.le_of_lt_succ h), UInt8.ofNat_toNat]

theorem encode_map_ofAscii {as : List UInt8} (has : ∀ a ∈ as, IsAscii a) :
    encode (as.map ofAscii) = as := by
  induction as with
  | nil => rfl
  | cons a as ih =>
      obtain ⟨ha, hrest⟩ := List.forall_mem_cons.mp has
      rw [List.map_cons, encode_cons, encodeChar_ascii ha, ih hrest]
      rfl

theorem toNat_ofNat {n : Nat} (h : n < 256) : (UInt8.ofNat n).toNat = n :=
  UInt8.toNat_ofNat_of_lt' h

theorem exists_ofAscii {c : Char} (h : c.toNat < 128) : ∃ b, IsAscii b ∧ ofAscii b = c := by
  have hbyte := toNat_ofNat (show c.toNat < 256 by omega)
  refine ⟨UInt8.ofNat c.toNat, ?_, ?_⟩
  · rw [IsAscii, hbyte]
    exact h
  · apply Char.ext
    apply UInt32.toNat_inj.mp
    show (UInt8.ofNat c.toNat).toUInt32.toNat = _
    rw [UInt8.toNat_toUInt32, hbyte]
    rfl

theorem ofAscii_injective : Function.Injective ofAscii := by
  intro a b h
  have hval := congrArg Char.toNat h
  rw [toNat_ofAscii, toNat_ofAscii] at hval
  exact UInt8.toNat_inj.mp hval

/-- A character is a byte of its own, or all of its bytes are 128 at least. -/
theorem encodeChar_cases (c : Char) :
    (∃ b, IsAscii b ∧ c = ofAscii b) ∨ ∀ b ∈ String.utf8EncodeChar c, ¬ IsAscii b := by
  rcases Nat.lt_or_ge c.val.toNat 128 with hlt | hge
  · obtain ⟨b, hb, hc⟩ := exists_ofAscii hlt
    exact .inl ⟨b, hb, hc.symm⟩
  · right
    have hlarge {n : Nat} (h : 128 ≤ n) (hn : n < 256) : ¬ IsAscii (UInt8.ofNat n) := by
      rw [IsAscii, toNat_ofNat hn]
      omega
    intro b hb
    rw [String.utf8EncodeChar, if_neg (by omega)] at hb
    split_ifs at hb
    · simp only [List.mem_cons, List.not_mem_nil, or_false] at hb
      rcases hb with rfl | rfl <;> exact hlarge (by omega) (by omega)
    · simp only [List.mem_cons, List.not_mem_nil, or_false] at hb
      rcases hb with rfl | rfl | rfl <;> exact hlarge (by omega) (by omega)
    · simp only [List.mem_cons, List.not_mem_nil, or_false] at hb
      rcases hb with rfl | rfl | rfl | rfl <;> exact hlarge (by omega) (by omega)

/-! ## Taking a text apart -/

/-- A text that starts with an ASCII byte starts with its character. -/
theorem encode_eq_cons {b : UInt8} (hb : IsAscii b) {cs : List Char} {bs : List UInt8} :
    encode cs = b :: bs ↔ ∃ ds, cs = ofAscii b :: ds ∧ encode ds = bs := by
  constructor
  · intro h
    cases cs with
    | nil => cases h
    | cons c cs =>
        rw [encode_cons] at h
        rcases encodeChar_cases c with ⟨a, ha, rfl⟩ | hlarge
        · rw [encodeChar_ascii ha] at h
          obtain ⟨rfl, hbs⟩ := List.cons.inj h
          exact ⟨cs, rfl, hbs⟩
        · obtain ⟨first, rest, hchar⟩ := List.exists_cons_of_ne_nil
            (@String.utf8EncodeChar_ne_nil c)
          rw [hchar] at h hlarge
          obtain ⟨rfl, -⟩ := List.cons.inj h
          exact absurd hb (hlarge first List.mem_cons_self)
  · rintro ⟨ds, rfl, rfl⟩
    rw [encode_cons, encodeChar_ascii hb]
    rfl

/-- A text that starts with ASCII bytes starts with their characters. -/
theorem encode_eq_append {as : List UInt8} (has : ∀ a ∈ as, IsAscii a) {cs : List Char}
    {bs : List UInt8} :
    encode cs = as ++ bs ↔ ∃ ds, cs = as.map ofAscii ++ ds ∧ encode ds = bs := by
  induction as generalizing cs with
  | nil => exact ⟨fun h => ⟨cs, rfl, h⟩, fun ⟨_, hcs, h⟩ => hcs ▸ h⟩
  | cons a as ih =>
      obtain ⟨ha, hrest⟩ := List.forall_mem_cons.mp has
      rw [List.cons_append, encode_eq_cons ha]
      constructor
      · rintro ⟨ds, rfl, hds⟩
        obtain ⟨es, rfl, hes⟩ := (ih hrest).mp hds
        exact ⟨es, rfl, hes⟩
      · rintro ⟨ds, rfl, hds⟩
        exact ⟨as.map ofAscii ++ ds, rfl, (ih hrest).mpr ⟨ds, rfl, hds⟩⟩

/-- An ASCII byte is in an encoding where its character is in the text. -/
theorem mem_encode {b : UInt8} (hb : IsAscii b) {cs : List Char} :
    b ∈ encode cs ↔ ofAscii b ∈ cs := by
  rw [encode, List.mem_flatMap]
  constructor
  · rintro ⟨c, hc, hbc⟩
    rcases encodeChar_cases c with ⟨a, ha, rfl⟩ | hlarge
    · rw [encodeChar_ascii ha, List.mem_singleton] at hbc
      exact hbc ▸ hc
    · exact absurd hb (hlarge b hbc)
  · intro hmem
    exact ⟨ofAscii b, hmem, by rw [encodeChar_ascii hb]; exact List.mem_cons_self⟩

/-- The text that ASCII bytes are. -/
theorem encode_eq_ascii {as : List UInt8} (has : ∀ a ∈ as, IsAscii a) {cs : List Char} :
    encode cs = as ↔ cs = as.map ofAscii := by
  constructor
  · intro h
    obtain ⟨ds, rfl, hds⟩ := (encode_eq_append has).mp (h.trans (List.append_nil as).symm)
    cases ds with
    | nil => exact List.append_nil _
    | cons d ds =>
        exact absurd (List.append_eq_nil_iff.mp hds).1 String.utf8EncodeChar_ne_nil
  · rintro rfl
    exact encode_map_ofAscii has

/-- A text of ASCII characters has a byte for each of them. -/
theorem map_ofAscii_encode {cs : List Char} (hcs : ∀ c ∈ cs, c.toNat < 128) :
    (encode cs).map ofAscii = cs := by
  induction cs with
  | nil => rfl
  | cons c cs ih =>
      obtain ⟨hc, hrest⟩ := List.forall_mem_cons.mp hcs
      obtain ⟨b, hb, rfl⟩ := exists_ofAscii hc
      rw [encode_cons, encodeChar_ascii hb, List.map_append, ih hrest]
      rfl

/-! ## Decoding -/

theorem toByteArray_eq (s : String) : s.toByteArray = (encode s.toList).toByteArray :=
  String.utf8Encode_toList.symm

theorem toByteArray_inj {as bs : List UInt8} (h : as.toByteArray = bs.toByteArray) : as = bs := by
  have hlist := congrArg (fun b : ByteArray => b.data.toList) h
  rwa [List.toList_data_toByteArray, List.toList_data_toByteArray] at hlist

theorem length_encode (s : String) : (encode s.toList).length = s.utf8ByteSize := by
  rw [← String.size_toByteArray, toByteArray_eq, List.size_toByteArray]

/-- What decodes is the encoding of the text it decodes to. -/
theorem fromUTF8?_eq_some {bs : List UInt8} {s : String} :
    String.fromUTF8? bs.toByteArray = some s ↔ encode s.toList = bs := by
  unfold String.fromUTF8?
  constructor
  · intro h
    split_ifs at h with hvalid
    cases h
    exact toByteArray_inj (toByteArray_eq _).symm
  · rintro rfl
    have hvalid : (encode s.toList).toByteArray.IsValidUTF8 := toByteArray_eq s ▸ s.isValidUTF8
    rw [dif_pos hvalid]
    exact congrArg some (String.toByteArray_inj.mp (toByteArray_eq s).symm)

/-- ASCII bytes in front of a text stay in front of it. -/
theorem fromUTF8?_append {as bs : List UInt8} (has : ∀ a ∈ as, IsAscii a) {s : String} :
    String.fromUTF8? (as ++ bs).toByteArray = some s ↔
      ∃ t, String.fromUTF8? bs.toByteArray = some t ∧ s.toList = as.map ofAscii ++ t.toList := by
  rw [fromUTF8?_eq_some, encode_eq_append has]
  constructor
  · rintro ⟨ds, hs, hds⟩
    refine ⟨String.ofList ds, fromUTF8?_eq_some.mpr ?_, ?_⟩
    · rw [String.toList_ofList, hds]
    · rw [String.toList_ofList, hs]
  · rintro ⟨t, ht, hs⟩
    exact ⟨t.toList, hs, fromUTF8?_eq_some.mp ht⟩

end Utf8
