import Mathlib.Data.List.Basic
import Mathlib.Data.List.Infix
import Mathlib.Tactic.Common
import WaterController.Library.Json
import WaterController.Library.Text

/-!
# Reading JSON texts

`parse` reads a JSON text.  It knows nothing beyond the grammar: white space, the
escapes of strings with surrogate pairs, numbers without leading zeros, and objects
with their members in order, repeated ones included.

`Unescape` says which letters between two quotes stand for a string.  A string that
is the value of a member is written in the text with two quotes around such letters
(`written_of_parse`), so that what the text has few of, the string has few of too.
-/

namespace JsonText

/-- The number `mantissa * 10 ^ exponent`. -/
structure Decimal where
  mantissa : Int
  exponent : Int
deriving DecidableEq, Repr

/-! ## Strings -/

def quote : Char := '\x22'

def backslash : Char := '\x5c'

/-- The letters that a string cannot have without an escape: the quote, the backslash
and the control characters. -/
def special (c : Char) : Bool := c = quote || c = backslash || c.toNat < 0x20

def hexValue (c : Char) : Option Nat :=
  if '0' ≤ c ∧ c ≤ '9' then some (c.toNat - 48)
  else if 'a' ≤ c ∧ c ≤ 'f' then some (c.toNat - 87)
  else if 'A' ≤ c ∧ c ≤ 'F' then some (c.toNat - 55)
  else none

/-- The number of four hexadecimal digits. -/
def hex4 (a b c d : Char) : Option Nat := do
  return (((← hexValue a) * 16 + (← hexValue b)) * 16 + (← hexValue c)) * 16 + (← hexValue d)

/-- The letter of a backslash and a letter. -/
def shortEscape (c : Char) : Option Char :=
  if c = quote ∨ c = backslash ∨ c = '/' then some c
  else if c = 'b' then some '\x08'
  else if c = 'f' then some '\x0c'
  else if c = 'n' then some '\n'
  else if c = 'r' then some '\r'
  else if c = 't' then some '\t'
  else none

/-- The letter of one code unit that is no surrogate. -/
def unitLetter (n : Nat) : Option Char :=
  if 0xD800 ≤ n ∧ n < 0xE000 then none else some (Char.ofNat n)

/-- The letter of a surrogate pair. -/
def pairLetter (high low : Nat) : Option Char :=
  if 0xD800 ≤ high ∧ high < 0xDC00 ∧ 0xDC00 ≤ low ∧ low < 0xE000 then
    some (Char.ofNat (0x10000 + (high - 0xD800) * 0x400 + (low - 0xDC00)))
  else none

/-- The letters behind a backslash and the letter that they stand for. -/
inductive Escape : List Char → Char → Prop where
  | short {e c : Char} (he : shortEscape e = some c) : Escape [e] c
  | unit {d₁ d₂ d₃ d₄ c : Char} {n : Nat} (hn : hex4 d₁ d₂ d₃ d₄ = some n)
      (hc : unitLetter n = some c) : Escape ['u', d₁, d₂, d₃, d₄] c
  | pair {d₁ d₂ d₃ d₄ e₁ e₂ e₃ e₄ c : Char} {m n : Nat} (hm : hex4 d₁ d₂ d₃ d₄ = some m)
      (hn : hex4 e₁ e₂ e₃ e₄ = some n) (hc : pairLetter m n = some c) :
      Escape ['u', d₁, d₂, d₃, d₄, backslash, 'u', e₁, e₂, e₃, e₄] c

/-- The letters between two quotes and the string that they stand for. -/
inductive Unescape : List Char → List Char → Prop where
  | nil : Unescape [] []
  | plain {c : Char} {raw s : List Char} (hc : special c = false) (h : Unescape raw s) :
      Unescape (c :: raw) (c :: s)
  | escape {e : List Char} {c : Char} {raw s : List Char} (he : Escape e c) (h : Unescape raw s) :
      Unescape (backslash :: (e ++ raw)) (c :: s)

/-! ### What the letters have, and what the string has -/

theorem special_eq_false_iff {c : Char} :
    special c = false ↔ c ≠ quote ∧ c ≠ backslash ∧ 0x20 ≤ c.toNat := by
  simp [special, and_assoc]

theorem count_backslash_le (s : List Char) : s.count backslash ≤ s.countP special :=
  List.countP_mono_left fun c _ hc => by rw [beq_iff_eq.mp hc]; rfl

theorem hexValue_quote : hexValue quote = none := by decide

/-- A hexadecimal digit is no quote. -/
theorem quote_not_mem_of_hex4 {a b c d : Char} {n : Nat} (h : hex4 a b c d = some n) :
    quote ∉ [a, b, c, d] := by
  intro hmem
  simp only [hex4, Option.bind_eq_bind, Option.bind_eq_some_iff] at h
  obtain ⟨na, ha, nb, hb, nc, hc, nd, hd, _⟩ := h
  simp only [List.mem_cons, List.not_mem_nil, or_false] at hmem
  rcases hmem with rfl | rfl | rfl | rfl
  · exact nomatch hexValue_quote.symm.trans ha
  · exact nomatch hexValue_quote.symm.trans hb
  · exact nomatch hexValue_quote.symm.trans hc
  · exact nomatch hexValue_quote.symm.trans hd

theorem eq_of_shortEscape {e c : Char} (h : shortEscape e = some c)
    (hspecial : c = quote ∨ c = backslash) : e = c := by
  simp only [shortEscape] at h
  split_ifs at h with h1 h2 h3 h4 h5 h6
  · exact Option.some.inj h
  all_goals
    obtain rfl := Option.some.inj h
    exact absurd hspecial (by decide)

namespace Escape

variable {e : List Char} {c : Char}

/-- A quote stands for itself. -/
theorem quote_mem (h : Escape e c) (hmem : quote ∈ e) : c = quote := by
  cases h with
  | @short e c he =>
      obtain rfl := List.mem_singleton.mp hmem
      simp only [shortEscape, true_or, if_true, Option.some.injEq] at he
      exact he.symm
  | unit hn hc =>
      rcases List.mem_cons.mp hmem with h | h
      · exact absurd h (by decide)
      · exact absurd h (quote_not_mem_of_hex4 hn)
  | @pair d₁ d₂ d₃ d₄ e₁ e₂ e₃ e₄ c m n hm hn hc =>
      have hfirst := quote_not_mem_of_hex4 hm
      have hsecond := quote_not_mem_of_hex4 hn
      have hu : quote ≠ 'u' := by decide
      have hbackslash : quote ≠ backslash := by decide
      simp_all

/-- A backslash is escaped by itself or by its code. -/
theorem of_backslash (h : Escape e backslash) : e = [backslash] ∨ 5 ≤ e.length := by
  cases h with
  | short he => exact .inl (by rw [eq_of_shortEscape he (.inr rfl)])
  | unit hn hc => exact .inr (Nat.le_refl 5)
  | pair hm hn hc => exact .inr (Nat.le_add_left 5 6)

end Escape

namespace Unescape

variable {raw s : List Char}

/-- A special letter of the string takes a backslash. -/
theorem countP_special_le (h : Unescape raw s) : s.countP special ≤ raw.count backslash := by
  induction h with
  | nil => exact Nat.le_refl 0
  | @plain c raw s hc h ih =>
      rw [List.countP_cons, hc, List.count_cons]
      exact Nat.le_trans ih (Nat.le_add_right _ _)
  | @escape e c raw s he h ih =>
      rw [List.count_cons_self, List.count_append, List.countP_cons]
      split_ifs <;> omega

/-- Without a quote in the string there is none in the letters. -/
theorem quote_not_mem (h : Unescape raw s) (hs : quote ∉ s) : quote ∉ raw := by
  induction h with
  | nil => exact List.not_mem_nil
  | @plain c raw s hc h ih =>
      rw [List.mem_cons, not_or] at hs ⊢
      exact ⟨hs.1, ih hs.2⟩
  | @escape e c raw s he h ih =>
      rw [List.mem_cons, not_or] at hs
      rw [List.mem_cons, List.mem_append, not_or, not_or]
      exact ⟨by decide, fun hmem => hs.1 (he.quote_mem hmem).symm, ih hs.2⟩

/-- A letter and a backslash of the string take one each. -/
theorem count_add_count_le (h : Unescape raw s) {b : Char} (hb : b ≠ backslash) :
    s.count b + s.count backslash ≤ raw.count b + raw.count backslash := by
  induction h with
  | nil => exact Nat.le_refl 0
  | @plain c raw s hc h ih =>
      rw [List.count_cons, List.count_cons, List.count_cons, List.count_cons]
      omega
  | @escape e c raw s he h ih =>
      rw [List.count_cons_self, List.count_append, List.count_cons_of_ne hb.symm,
        List.count_append, List.count_cons, List.count_cons]
      have hone : (if c == b then 1 else 0) + (if c == backslash then 1 else 0) ≤ 1 := by
        split_ifs with h1 h2
        · exact absurd ((beq_iff_eq.mp h1).symm.trans (beq_iff_eq.mp h2)) hb
        all_goals decide
      omega

/-- A backslash of the string takes two backslashes or five letters more. -/
theorem length_add_count_le (h : Unescape raw s) :
    s.length + 9 * s.count backslash ≤ raw.length + 4 * raw.count backslash := by
  induction h with
  | nil => exact Nat.le_refl 0
  | @plain c raw s hc h ih =>
      have hne : c ≠ backslash := (special_eq_false_iff.mp hc).2.1
      rw [List.count_cons_of_ne hne, List.count_cons_of_ne hne, List.length_cons, List.length_cons]
      omega
  | @escape e c raw s he h ih =>
      rw [List.count_cons_self, List.count_append, List.length_cons, List.length_cons,
        List.length_append, List.count_cons]
      split_ifs with hc
      · obtain rfl : c = backslash := beq_iff_eq.mp hc
        rcases he.of_backslash with rfl | hlong
        · rw [List.count_singleton_self, List.length_singleton]
          omega
        · omega
      · omega

/-- If the letters have no more backslashes than the string, nothing else in the string
needs an escape. -/
theorem eq_backslash (h : Unescape raw s) (hle : raw.count backslash ≤ s.count backslash) :
    ∀ c ∈ s, special c = true → c = backslash := by
  have hspecial := Nat.le_trans h.countP_special_le hle
  clear h hle
  induction s with
  | nil => exact fun c hc => absurd hc List.not_mem_nil
  | cons d s ih =>
      have hless := count_backslash_le s
      rw [List.countP_cons, List.count_cons] at hspecial
      refine List.forall_mem_cons.mpr ⟨fun hd => ?_, ih ?_⟩
      · by_contra hne
        rw [if_pos hd, if_neg (by rwa [beq_iff_eq])] at hspecial
        omega
      · rcases eq_or_ne d backslash with rfl | hne
        · rw [if_pos (by rfl), if_pos (by rfl)] at hspecial
          omega
        · rw [if_neg (show ¬ (d == backslash) = true by rwa [beq_iff_eq])] at hspecial
          omega

end Unescape

/-- Read the letter of an escape, behind its backslash. -/
def parseEscape : List Char → Option (Char × List Char)
  | 'u' :: d₁ :: d₂ :: d₃ :: d₄ :: rest => do
      let n ← hex4 d₁ d₂ d₃ d₄
      match unitLetter n with
      | some c => return (c, rest)
      | none =>
          match rest with
          | '\x5c' :: 'u' :: e₁ :: e₂ :: e₃ :: e₄ :: rest => do
              let low ← hex4 e₁ e₂ e₃ e₄
              return (← pairLetter n low, rest)
          | _ => none
  | e :: rest => do return (← shortEscape e, rest)
  | [] => none

/-- Read a string, behind its first quote and up to behind its second.  The fuel is a
bound on its letters. -/
def parseString : Nat → List Char → Option (List Char × List Char)
  | 0, _ => none
  | _, [] => none
  | fuel + 1, c :: rest =>
      if c = quote then some ([], rest)
      else if c = backslash then do
        let (c, rest) ← parseEscape rest
        let (s, rest) ← parseString fuel rest
        return (c :: s, rest)
      else if special c then none
      else do
        let (s, rest) ← parseString fuel rest
        return (c :: s, rest)

/-! ## Numbers -/

/-- Read the digits behind a point, if there is one. -/
def parseFraction : List Char → Option (List Char × List Char)
  | '.' :: rest =>
      let (digits, rest) := rest.span Char.isDigit
      if digits = [] then none else some (digits, rest)
  | text => some ([], text)

/-- Read a sign, if there is one. -/
def parseSign : List Char → Int × List Char
  | '-' :: rest => (-1, rest)
  | '+' :: rest => (1, rest)
  | text => (1, text)

/-- Read an exponent, if there is one. -/
def parseExponent : List Char → Option (Int × List Char)
  | [] => some (0, [])
  | c :: rest =>
      if c = 'e' ∨ c = 'E' then
        let (digits, rest') := (parseSign rest).2.span Char.isDigit
        if digits = [] then none
        else some ((parseSign rest).1 * (Nat.ofDigitChars 10 digits 0 : Nat), rest')
      else some (0, c :: rest)

/-- Read a number without a sign. -/
def parseUnsigned (text : List Char) : Option (Decimal × List Char) :=
  let (digits, rest) := text.span Char.isDigit
  if digits = [] ∨ (digits.head? = some '0' ∧ 1 < digits.length) then none
  else do
    let (fraction, rest) ← parseFraction rest
    let (exponent, rest) ← parseExponent rest
    return (⟨(Nat.ofDigitChars 10 (digits ++ fraction) 0 : Nat), exponent - fraction.length⟩, rest)

def parseNumber : List Char → Option (Decimal × List Char)
  | '-' :: rest => do
      let (number, rest) ← parseUnsigned rest
      return (⟨-number.mantissa, number.exponent⟩, rest)
  | text => parseUnsigned text

/-! ## Values -/

def skipSpace (text : List Char) : List Char :=
  text.dropWhile fun c => c = ' ' || c = '\t' || c = '\n' || c = '\r'

/-- Read what is no string, array or object. -/
def parseScalar : List Char → Option (Json Decimal × List Char)
  | 't' :: 'r' :: 'u' :: 'e' :: rest => some (.bool true, rest)
  | 'f' :: 'a' :: 'l' :: 's' :: 'e' :: rest => some (.bool false, rest)
  | 'n' :: 'u' :: 'l' :: 'l' :: rest => some (.null, rest)
  | text => do
      let (number, rest) ← parseNumber text
      return (.num number, rest)

mutual

/-- Read a value. -/
def parseValue : Nat → List Char → Option (Json Decimal × List Char)
  | 0, _ => none
  | fuel + 1, text =>
      match skipSpace text with
      | '\x22' :: rest => do
          let (s, rest) ← parseString (rest.length + 1) rest
          return (.str (String.ofList s), rest)
      | '[' :: rest =>
          match skipSpace rest with
          | ']' :: rest => some (.arr [], rest)
          | rest => do
              let (items, rest) ← parseItems fuel rest
              return (.arr items, rest)
      | '\x7b' :: rest =>
          match skipSpace rest with
          | '\x7d' :: rest => some (.obj [], rest)
          | rest => do
              let (members, rest) ← parseMembers fuel rest
              return (.obj members, rest)
      | text => parseScalar text

/-- Read the items of an array that has some, and its end. -/
def parseItems : Nat → List Char → Option (List (Json Decimal) × List Char)
  | 0, _ => none
  | fuel + 1, text => do
      let (item, rest) ← parseValue fuel text
      match skipSpace rest with
      | ']' :: rest => return ([item], rest)
      | ',' :: rest => do
          let (items, rest) ← parseItems fuel rest
          return (item :: items, rest)
      | _ => none

/-- Read the members of an object that has some, and its end. -/
def parseMembers : Nat → List Char → Option (List (String × Json Decimal) × List Char)
  | 0, _ => none
  | fuel + 1, text =>
      match skipSpace text with
      | '\x22' :: rest => do
          let (name, rest) ← parseString (rest.length + 1) rest
          match skipSpace rest with
          | ':' :: rest => do
              let (value, rest) ← parseValue fuel rest
              match skipSpace rest with
              | '\x7d' :: rest => return ([(String.ofList name, value)], rest)
              | ',' :: rest => do
                  let (members, rest) ← parseMembers fuel rest
                  return ((String.ofList name, value) :: members, rest)
              | _ => none
          | _ => none
      | _ => none

end

/-- Read a text.  Two steps for each letter are enough. -/
def parse (text : String) : Option (Json Decimal) := do
  let (value, rest) ← parseValue (2 * text.length + 2) text.toList
  if skipSpace rest = [] then return value else none

/-! ## What is read is written -/

theorem parseEscape_sound {text rest : List Char} {c : Char}
    (h : parseEscape text = some (c, rest)) : ∃ e, Escape e c ∧ text = e ++ rest := by
  rw [parseEscape.eq_def] at h
  split at h
  · next d₁ d₂ d₃ d₄ rest' =>
      obtain ⟨n, hn, h⟩ := Option.bind_eq_some_iff.mp h
      split at h
      · next c' hc =>
          obtain ⟨rfl, rfl⟩ := Prod.mk.inj (Option.some.inj h)
          exact ⟨_, .unit hn hc, rfl⟩
      · split at h
        · obtain ⟨low, hlow, h⟩ := Option.bind_eq_some_iff.mp h
          obtain ⟨c', hc, h⟩ := Option.bind_eq_some_iff.mp h
          obtain ⟨rfl, rfl⟩ := Prod.mk.inj (Option.some.inj h)
          exact ⟨_, .pair hn hlow hc, rfl⟩
        · exact nomatch h
  · next e rest' _ =>
      obtain ⟨c', hc, h⟩ := Option.bind_eq_some_iff.mp h
      obtain ⟨rfl, rfl⟩ := Prod.mk.inj (Option.some.inj h)
      exact ⟨_, .short hc, rfl⟩
  · exact nomatch h

theorem parseString_sound {fuel : Nat} {text s rest : List Char}
    (h : parseString fuel text = some (s, rest)) :
    ∃ raw, Unescape raw s ∧ text = raw ++ quote :: rest := by
  induction fuel generalizing text s with
  | zero => exact nomatch h
  | succ fuel ih =>
      cases text with
      | nil => exact nomatch h
      | cons c text =>
          rw [parseString] at h
          split_ifs at h with hquote hbackslash hspecial
          · obtain ⟨rfl, rfl⟩ := Prod.mk.inj (Option.some.inj h)
            exact ⟨[], .nil, by rw [hquote]; rfl⟩
          · obtain ⟨⟨c', text'⟩, he, h⟩ := Option.bind_eq_some_iff.mp h
            obtain ⟨⟨s', rest'⟩, hs, h⟩ := Option.bind_eq_some_iff.mp h
            obtain ⟨rfl, rfl⟩ := Prod.mk.inj (Option.some.inj h)
            obtain ⟨e, hescape, htext⟩ := parseEscape_sound he
            obtain ⟨raw, hraw, htext'⟩ := ih hs
            refine ⟨_, .escape hescape hraw, ?_⟩
            rw [hbackslash, htext, htext', List.cons_append, List.append_assoc]
          · obtain ⟨⟨s', rest'⟩, hs, h⟩ := Option.bind_eq_some_iff.mp h
            obtain ⟨rfl, rfl⟩ := Prod.mk.inj (Option.some.inj h)
            obtain ⟨raw, hraw, htext⟩ := ih hs
            exact ⟨_, .plain (Bool.not_eq_true _ ▸ hspecial) hraw, by rw [htext]; rfl⟩

/-- A string is written somewhere in a text, between two quotes. -/
def Written (text : List Char) (s : String) : Prop :=
  ∃ raw, Unescape raw s.toList ∧ (quote :: (raw ++ [quote])) <:+: text

theorem Written.mono {text text' : List Char} {s : String} (h : Written text s)
    (hin : text <:+: text') : Written text' s := by
  obtain ⟨raw, hraw, hwritten⟩ := h
  exact ⟨raw, hraw, hwritten.trans hin⟩

theorem written_of_parseString {fuel : Nat} {text s rest : List Char}
    (h : parseString fuel text = some (s, rest)) :
    Written (quote :: text) (String.ofList s) ∧ rest <:+ text := by
  obtain ⟨raw, hraw, rfl⟩ := parseString_sound h
  refine ⟨⟨raw, by rwa [String.toList_ofList], [], rest, ?_⟩, raw ++ [quote], ?_⟩
  · simp
  · simp

/-! ### What is left of a text -/

theorem span_suffix (text : List Char) (p : Char → Bool) : (text.span p).2 <:+ text := by
  rw [List.span_eq_takeWhile_dropWhile]
  exact List.dropWhile_suffix p

theorem skipSpace_suffix (text : List Char) : skipSpace text <:+ text := List.dropWhile_suffix _

theorem parseFraction_suffix {text digits rest : List Char}
    (h : parseFraction text = some (digits, rest)) : rest <:+ text := by
  rw [parseFraction.eq_def] at h
  split at h
  · next text' =>
      simp only at h
      split_ifs at h
      obtain ⟨_, rfl⟩ := Prod.mk.inj (Option.some.inj h)
      exact (span_suffix _ _).trans (List.suffix_cons _ _)
  · obtain ⟨_, rfl⟩ := Prod.mk.inj (Option.some.inj h)
    exact List.suffix_refl _

theorem parseSign_suffix (text : List Char) : (parseSign text).2 <:+ text := by
  rw [parseSign.eq_def]
  split
  · exact List.suffix_cons _ _
  · exact List.suffix_cons _ _
  · exact List.suffix_refl _

theorem parseExponent_suffix {text rest : List Char} {e : Int}
    (h : parseExponent text = some (e, rest)) : rest <:+ text := by
  cases text with
  | nil =>
      obtain ⟨_, rfl⟩ := Prod.mk.inj (Option.some.inj h)
      exact List.suffix_refl _
  | cons c text =>
      rw [parseExponent] at h
      split_ifs at h with hc
      · simp only at h
        split_ifs at h
        obtain ⟨_, rfl⟩ := Prod.mk.inj (Option.some.inj h)
        exact ((span_suffix _ _).trans (parseSign_suffix _)).trans (List.suffix_cons _ _)
      · obtain ⟨_, rfl⟩ := Prod.mk.inj (Option.some.inj h)
        exact List.suffix_refl _

theorem parseUnsigned_suffix {text rest : List Char} {d : Decimal}
    (h : parseUnsigned text = some (d, rest)) : rest <:+ text := by
  rw [parseUnsigned] at h
  simp only at h
  split_ifs at h
  obtain ⟨⟨fraction, text₁⟩, hfraction, h⟩ := Option.bind_eq_some_iff.mp h
  obtain ⟨⟨exponent, text₂⟩, hexponent, h⟩ := Option.bind_eq_some_iff.mp h
  obtain ⟨_, rfl⟩ := Prod.mk.inj (Option.some.inj h)
  exact ((parseExponent_suffix hexponent).trans (parseFraction_suffix hfraction)).trans
    (span_suffix _ _)

theorem parseNumber_suffix {text rest : List Char} {d : Decimal}
    (h : parseNumber text = some (d, rest)) : rest <:+ text := by
  rw [parseNumber.eq_def] at h
  split at h
  · obtain ⟨⟨number, text'⟩, hnumber, h⟩ := Option.bind_eq_some_iff.mp h
    obtain ⟨_, rfl⟩ := Prod.mk.inj (Option.some.inj h)
    exact (parseUnsigned_suffix hnumber).trans (List.suffix_cons _ _)
  · exact parseUnsigned_suffix h

/-- A scalar is no string and no object. -/
theorem parseScalar_sound {text rest : List Char} {v : Json Decimal}
    (h : parseScalar text = some (v, rest)) :
    rest <:+ text ∧ (∀ s, v ≠ .str s) ∧ ∀ members, v ≠ .obj members := by
  rw [parseScalar.eq_def] at h
  split at h
  · obtain ⟨rfl, rfl⟩ := Prod.mk.inj (Option.some.inj h)
    exact ⟨List.suffix_append ['t', 'r', 'u', 'e'] _, fun _ => nofun, fun _ => nofun⟩
  · obtain ⟨rfl, rfl⟩ := Prod.mk.inj (Option.some.inj h)
    exact ⟨List.suffix_append ['f', 'a', 'l', 's', 'e'] _, fun _ => nofun, fun _ => nofun⟩
  · obtain ⟨rfl, rfl⟩ := Prod.mk.inj (Option.some.inj h)
    exact ⟨List.suffix_append ['n', 'u', 'l', 'l'] _, fun _ => nofun, fun _ => nofun⟩
  · obtain ⟨⟨number, text'⟩, hnumber, h⟩ := Option.bind_eq_some_iff.mp h
    obtain ⟨rfl, rfl⟩ := Prod.mk.inj (Option.some.inj h)
    exact ⟨parseNumber_suffix hnumber, fun _ => nofun, fun _ => nofun⟩

/-! ### The strings of an object -/

/-- The strings that are a value or the value of a member of an object are written in a
text. -/
def StringsWritten (text : List Char) (v : Json Decimal) : Prop :=
  (∀ s, v = .str s → Written text s) ∧
    ∀ members, v = .obj members → ∀ name s, (name, .str s) ∈ members → Written text s

section Sound

variable {fuel : Nat} {text rest : List Char}

theorem parseValue_sound_step
    (ihitems : ∀ text items rest, parseItems fuel text = some (items, rest) → rest <:+ text)
    (ihmembers : ∀ text members rest, parseMembers fuel text = some (members, rest) →
      rest <:+ text ∧ ∀ name s, (name, .str s) ∈ members → Written text s) {v : Json Decimal}
    (h : parseValue (fuel + 1) text = some (v, rest)) :
    rest <:+ text ∧ StringsWritten text v := by
  have hspace := skipSpace_suffix text
  rw [parseValue] at h
  split at h
  · next rest' htext =>
      obtain ⟨⟨s, rest''⟩, hs, h⟩ := Option.bind_eq_some_iff.mp h
      obtain ⟨rfl, rfl⟩ := Prod.mk.inj (Option.some.inj h)
      obtain ⟨hwritten, hrest⟩ := written_of_parseString hs
      rw [htext] at hspace
      refine ⟨hrest.trans ((List.suffix_cons _ _).trans hspace), fun s' hs' => ?_,
        fun _ => nofun⟩
      obtain rfl := Json.str.inj hs'
      exact hwritten.mono hspace.isInfix
  · next rest' htext =>
      rw [htext] at hspace
      have hin : rest' <:+ text := (List.suffix_cons _ _).trans hspace
      split at h
      · next rest'' hempty =>
          obtain ⟨rfl, rfl⟩ := Prod.mk.inj (Option.some.inj h)
          have hclosed := skipSpace_suffix rest'
          rw [hempty] at hclosed
          exact ⟨((List.suffix_cons _ _).trans hclosed).trans hin, fun _ => nofun,
            fun _ => nofun⟩
      · obtain ⟨⟨items, rest''⟩, hitems, h⟩ := Option.bind_eq_some_iff.mp h
        obtain ⟨rfl, rfl⟩ := Prod.mk.inj (Option.some.inj h)
        exact ⟨((ihitems _ _ _ hitems).trans (skipSpace_suffix _)).trans hin, fun _ => nofun,
          fun _ => nofun⟩
  · next rest' htext =>
      rw [htext] at hspace
      have hin : rest' <:+ text := (List.suffix_cons _ _).trans hspace
      split at h
      · next rest'' hempty =>
          obtain ⟨rfl, rfl⟩ := Prod.mk.inj (Option.some.inj h)
          have hclosed := skipSpace_suffix rest'
          rw [hempty] at hclosed
          refine ⟨((List.suffix_cons _ _).trans hclosed).trans hin, fun _ => nofun, ?_⟩
          rintro members hmembers name s hmem
          rw [← Json.obj.inj hmembers] at hmem
          exact absurd hmem List.not_mem_nil
      · obtain ⟨⟨members, rest''⟩, hmembers, h⟩ := Option.bind_eq_some_iff.mp h
        obtain ⟨rfl, rfl⟩ := Prod.mk.inj (Option.some.inj h)
        obtain ⟨hrest, hwritten⟩ := ihmembers _ _ _ hmembers
        have hopen := (skipSpace_suffix rest').trans hin
        refine ⟨hrest.trans hopen, fun _ => nofun, ?_⟩
        rintro members' hmembers' name s hmem
        rw [← Json.obj.inj hmembers'] at hmem
        exact (hwritten name s hmem).mono hopen.isInfix
  · obtain ⟨hrest, hstr, hobj⟩ := parseScalar_sound h
    exact ⟨hrest.trans hspace, fun s hs => absurd hs (hstr s),
      fun members hmembers => absurd hmembers (hobj members)⟩

theorem parseItems_sound_step
    (ihvalue : ∀ text v rest, parseValue fuel text = some (v, rest) →
      rest <:+ text ∧ StringsWritten text v)
    (ihitems : ∀ text items rest, parseItems fuel text = some (items, rest) → rest <:+ text)
    {items : List (Json Decimal)} (h : parseItems (fuel + 1) text = some (items, rest)) :
    rest <:+ text := by
  rw [parseItems] at h
  obtain ⟨⟨item, rest₁⟩, hitem, h⟩ := Option.bind_eq_some_iff.mp h
  have hfirst := (skipSpace_suffix rest₁).trans (ihvalue _ _ _ hitem).1
  simp only at h
  split at h
  · next rest₂ hend =>
      obtain ⟨_, rfl⟩ := Prod.mk.inj (Option.some.inj h)
      rw [hend] at hfirst
      exact (List.suffix_cons _ _).trans hfirst
  · next rest₂ hcomma =>
      obtain ⟨⟨items', rest₃⟩, hitems, h⟩ := Option.bind_eq_some_iff.mp h
      obtain ⟨_, rfl⟩ := Prod.mk.inj (Option.some.inj h)
      rw [hcomma] at hfirst
      exact (ihitems _ _ _ hitems).trans ((List.suffix_cons _ _).trans hfirst)
  · exact nomatch h

theorem parseMembers_sound_step
    (ihvalue : ∀ text v rest, parseValue fuel text = some (v, rest) →
      rest <:+ text ∧ StringsWritten text v)
    (ihmembers : ∀ text members rest, parseMembers fuel text = some (members, rest) →
      rest <:+ text ∧ ∀ name s, (name, .str s) ∈ members → Written text s)
    {members : List (String × Json Decimal)}
    (h : parseMembers (fuel + 1) text = some (members, rest)) :
    rest <:+ text ∧ ∀ name s, (name, .str s) ∈ members → Written text s := by
  have hspace := skipSpace_suffix text
  rw [parseMembers] at h
  split at h
  · next rest₁ htext =>
      rw [htext] at hspace
      obtain ⟨⟨name, rest₂⟩, hname, h⟩ := Option.bind_eq_some_iff.mp h
      have hrest₂ := (written_of_parseString hname).2.trans
        ((List.suffix_cons _ _).trans hspace)
      have hcolon := (skipSpace_suffix rest₂).trans hrest₂
      simp only at h
      split at h
      · next rest₃ hrest₃ =>
          rw [hrest₃] at hcolon
          obtain ⟨⟨value, rest₄⟩, hvalue, h⟩ := Option.bind_eq_some_iff.mp h
          obtain ⟨hrest₄, hwritten⟩ := ihvalue _ _ _ hvalue
          have hin₃ := (List.suffix_cons _ _).trans hcolon
          have hnext := ((skipSpace_suffix rest₄).trans hrest₄).trans hin₃
          simp only at h
          split at h
          · next rest₅ hend =>
              obtain ⟨rfl, rfl⟩ := Prod.mk.inj (Option.some.inj h)
              rw [hend] at hnext
              refine ⟨(List.suffix_cons _ _).trans hnext, fun name' s hmem => ?_⟩
              have hvalue := (Prod.mk.inj (List.mem_singleton.mp hmem)).2
              exact (hwritten.1 s hvalue.symm).mono hin₃.isInfix
          · next rest₅ hcomma =>
              obtain ⟨⟨members', rest₆⟩, hmembers, h⟩ := Option.bind_eq_some_iff.mp h
              obtain ⟨rfl, rfl⟩ := Prod.mk.inj (Option.some.inj h)
              rw [hcomma] at hnext
              have hin₅ := (List.suffix_cons _ _).trans hnext
              obtain ⟨hrest₆, hothers⟩ := ihmembers _ _ _ hmembers
              refine ⟨hrest₆.trans hin₅, fun name' s hmem => ?_⟩
              rcases List.mem_cons.mp hmem with hfirst | hmem
              · exact (hwritten.1 s (Prod.mk.inj hfirst).2.symm).mono hin₃.isInfix
              · exact (hothers name' s hmem).mono hin₅.isInfix
          · exact nomatch h
      · exact nomatch h
  · exact nomatch h

end Sound

/-- What the parser reads, it reads from the front of its text. -/
theorem parse_sound (fuel : Nat) :
    (∀ text v rest, parseValue fuel text = some (v, rest) →
      rest <:+ text ∧ StringsWritten text v) ∧
    (∀ text items rest, parseItems fuel text = some (items, rest) → rest <:+ text) ∧
    ∀ text members rest, parseMembers fuel text = some (members, rest) →
      rest <:+ text ∧ ∀ name s, (name, .str s) ∈ members → Written text s := by
  induction fuel with
  | zero => exact ⟨fun _ _ _ => nofun, fun _ _ _ => nofun, fun _ _ _ => nofun⟩
  | succ fuel ih =>
      obtain ⟨ihvalue, ihitems, ihmembers⟩ := ih
      exact ⟨fun _ _ _ h => parseValue_sound_step ihitems ihmembers h,
        fun _ _ _ h => parseItems_sound_step ihvalue ihitems h,
        fun _ _ _ h => parseMembers_sound_step ihvalue ihmembers h⟩

/-- A string that is the value of a member of an object is written in the text of the
object. -/
theorem written_of_parse {text : String} {members : List (String × Json Decimal)}
    (h : parse text = some (.obj members)) {name s : String} (hmem : (name, .str s) ∈ members) :
    Written text.toList s := by
  rw [parse] at h
  obtain ⟨⟨v, rest⟩, hvalue, h⟩ := Option.bind_eq_some_iff.mp h
  simp only at h
  split_ifs at h
  obtain rfl := Option.some.inj h
  exact ((parse_sound _).1 _ _ _ hvalue).2.2 members rfl name s hmem

/-! ### The parts between separators -/

section Parts

variable {α : Type} [DecidableEq α] {sep : α}

/-- Between two separators that follow each other stands a whole part. -/
theorem mem_of_infix_intercalate {part : List α} {parts : List (List α)}
    (hparts : ∀ p ∈ parts, sep ∉ p) (hpart : sep ∉ part)
    (h : (sep :: (part ++ [sep])) <:+: [sep].intercalate parts) : part ∈ parts := by
  rcases eq_or_ne parts [] with rfl | hne
  · exact absurd (List.infix_nil.mp h) (List.cons_ne_nil _ _)
  · obtain ⟨front, back, hsplit⟩ := h
    have hsplit : front ++ sep :: (part ++ sep :: back) = [sep].intercalate parts := by
      rw [← hsplit]
      simp
    rw [← List.splitOn_intercalate sep hparts hne, ← hsplit, List.splitOn_append_cons_self,
      List.splitOn_append_cons_self_of_not_mem hpart]
    exact List.mem_append_right _ List.mem_cons_self

theorem count_intercalate {c : α} (hc : c ≠ sep) (parts : List (List α)) :
    ([sep].intercalate parts).count c = parts.flatten.count c := by
  induction parts with
  | nil => rfl
  | cons part parts ih =>
      cases parts with
      | nil => rw [List.intercalate_singleton, List.flatten_cons, List.flatten_nil, List.append_nil]
      | cons part' parts =>
          rw [List.intercalate_cons_cons, List.count_append, List.count_append, ih,
            List.count_singleton, if_neg (by simpa using hc.symm), Nat.add_zero,
            ← List.count_append, ← List.flatten_cons]

end Parts

/-! ## Plain objects are read

The members of a plain object are plain strings, and a natural number at the end. -/

/-- A string without a special letter. -/
def Plain (s : List Char) : Prop := ∀ c ∈ s, special c = false

instance decidablePlain (s : List Char) : Decidable (Plain s) :=
  List.decidableBAll (fun c => special c = false) s

/-- A string between its quotes. -/
def quoted (s : List Char) : List Char := quote :: (s ++ [quote])

/-- The text of an object of plain strings with a number at the end. -/
def plainObject (strings : List (List Char × List Char)) (name : List Char) (n : Nat) : List Char :=
  '\x7b' :: (strings.flatMap fun kv => quoted kv.1 ++ ':' :: (quoted kv.2 ++ [','])) ++
    (quoted name ++ ':' :: ((toString n).toList ++ ['\x7d']))

theorem parseString_plain {s rest : List Char} {fuel : Nat} (h : Plain s)
    (hfuel : s.length < fuel) : parseString fuel (s ++ quote :: rest) = some (s, rest) := by
  induction s generalizing fuel with
  | nil =>
      obtain ⟨fuel, rfl⟩ := Nat.exists_eq_succ_of_ne_zero (Nat.pos_iff_ne_zero.mp hfuel)
      exact if_pos rfl
  | cons c s ih =>
      obtain ⟨fuel, rfl⟩ := Nat.exists_eq_succ_of_ne_zero (Nat.ne_zero_of_lt hfuel)
      obtain ⟨hc, hs⟩ := List.forall_mem_cons.mp h
      obtain ⟨hquote, hbackslash, _⟩ := special_eq_false_iff.mp hc
      rw [List.cons_append, parseString, if_neg hquote, if_neg hbackslash, hc,
        ih hs (Nat.lt_of_succ_lt_succ hfuel)]
      rfl

/-- A positive number is written without a leading zero. -/
theorem head_toDigits {n : Nat} (h : 0 < n) : (Nat.toDigits 10 n).head? ≠ some '0' := by
  induction n using Nat.strongRecOn with
  | ind n ih =>
      rcases Nat.lt_or_ge n 10 with hlt | hge
      · rw [Nat.toDigits_of_lt_base hlt]
        have hdigit : ∀ n < 10, 0 < n → Nat.digitChar n ≠ '0' := by decide
        exact fun hhead => hdigit n hlt h (Option.some.inj hhead)
      · rw [Nat.toDigits_of_base_le (by decide) hge,
          List.head?_append_of_ne_nil _ Nat.toDigits_ne_nil]
        exact ih (n / 10) (by omega) (by omega)

theorem span_digits (n : Nat) {c : Char} (hc : c.isDigit = false) (rest : List Char) :
    ((toString n).toList ++ c :: rest).span Char.isDigit = ((toString n).toList, c :: rest) := by
  have hdigits : ∀ d ∈ (toString n).toList, d.isDigit = true := fun d => Text.isDigit_of_mem_toString
  rw [List.span_eq_takeWhile_dropWhile, List.takeWhile_append_of_pos hdigits,
    List.dropWhile_append_of_pos hdigits, List.takeWhile_cons_of_neg (by rw [hc]; decide),
    List.dropWhile_cons_of_neg (by rw [hc]; decide), List.append_nil]

theorem toString_eq_cons (n : Nat) : ∃ d ds, (toString n).toList = d :: ds ∧ d.isDigit = true := by
  have hne : (toString n).toList ≠ [] := by
    rw [Nat.toString_eq_ofList_toDigits, String.toList_ofList]
    exact Nat.toDigits_ne_nil
  obtain ⟨d, ds, hdigits⟩ := List.exists_cons_of_ne_nil hne
  exact ⟨d, ds, hdigits, Text.isDigit_of_mem_toString (hdigits ▸ List.mem_cons_self)⟩

theorem parseUnsigned_toString (n : Nat) (rest : List Char) :
    parseUnsigned ((toString n).toList ++ '\x7d' :: rest) = some (⟨n, 0⟩, '\x7d' :: rest) := by
  have hvalue : Nat.ofDigitChars 10 (toString n).toList 0 = n := by
    rw [Nat.toString_eq_ofList_toDigits, String.toList_ofList, Nat.ofDigitChars_ten_toDigits]
  have hleading : ¬ ((toString n).toList = [] ∨
      ((toString n).toList.head? = some '0' ∧ 1 < (toString n).toList.length)) := by
    rw [Nat.toString_eq_ofList_toDigits, String.toList_ofList]
    rintro (hnil | ⟨hzero, hlong⟩)
    · exact Nat.toDigits_ne_nil hnil
    · rcases Nat.eq_zero_or_pos n with rfl | hpos
      · exact absurd hlong (by decide)
      · exact head_toDigits hpos hzero
  rw [parseUnsigned, span_digits n (by decide)]
  simp only
  rw [if_neg hleading]
  show some _ = some _
  rw [List.append_nil, hvalue]
  rfl

/-- A natural number is read up to the end of its object. -/
theorem parseValue_toString (fuel n : Nat) (rest : List Char) :
    parseValue (fuel + 1) ((toString n).toList ++ '\x7d' :: rest) =
      some (.num ⟨n, 0⟩, '\x7d' :: rest) := by
  obtain ⟨d, ds, hds, hdigit⟩ := toString_eq_cons n
  have hread := parseUnsigned_toString n rest
  have hspace : skipSpace (d :: (ds ++ '\x7d' :: rest)) = d :: (ds ++ '\x7d' :: rest) := by
    rw [skipSpace, List.dropWhile_cons_of_neg]
    intro h
    simp only [Bool.or_eq_true, decide_eq_true_eq] at h
    rcases h with ((rfl | rfl) | rfl) | rfl <;> exact absurd hdigit (by decide)
  rw [hds, List.cons_append] at hread ⊢
  -- a digit starts no string, array, object or word, and is no sign
  have hfirst : ∀ {c : Char} {text : List Char}, d :: (ds ++ '\x7d' :: rest) = c :: text →
      c.isDigit = true := fun h => (List.cons.inj h).1 ▸ hdigit
  rw [parseValue, hspace]
  split
  · next h => exact absurd (hfirst h) (by decide)
  · next h => exact absurd (hfirst h) (by decide)
  · next h => exact absurd (hfirst h) (by decide)
  · rw [parseScalar.eq_def]
    split
    · next h => exact absurd (hfirst h) (by decide)
    · next h => exact absurd (hfirst h) (by decide)
    · next h => exact absurd (hfirst h) (by decide)
    · rw [parseNumber.eq_def]
      split
      · next h => exact absurd (hfirst h) (by decide)
      · rw [hread]
        rfl

theorem parseString_quoted {s : List Char} (text : List Char) (h : Plain s) :
    parseString ((s ++ quote :: text).length + 1) (s ++ quote :: text) = some (s, text) :=
  parseString_plain h (by rw [List.length_append]; omega)

/-- A plain string is read. -/
theorem parseValue_quoted {s : List Char} (fuel : Nat) (text : List Char)
    (h : Plain s) :
    parseValue (fuel + 1) (quoted s ++ text) = some (.str (String.ofList s), text) := by
  rw [quoted, List.cons_append, List.append_assoc, parseValue]
  show (parseString _ (s ++ quote :: text) >>= _) = _
  rw [show (s ++ ([quote] ++ text)).length = (s ++ quote :: text).length from rfl,
    parseString_quoted text h]
  rfl

section Members

variable {fuel : Nat} {name text rest : List Char} {v : Json Decimal}

theorem parseMembers_last (hname : Plain name)
    (hv : parseValue fuel text = some (v, '\x7d' :: rest)) :
    parseMembers (fuel + 1) (quoted name ++ ':' :: text) =
      some ([(String.ofList name, v)], rest) := by
  rw [quoted, List.cons_append, List.append_assoc, parseMembers]
  show (parseString _ (name ++ quote :: (':' :: text)) >>= _) = _
  rw [show (name ++ ([quote] ++ ':' :: text)).length = (name ++ quote :: ':' :: text).length from
    rfl, parseString_quoted _ hname]
  show (parseValue fuel text >>= _) = _
  rw [hv]
  rfl

theorem parseMembers_more (hname : Plain name)
    (hv : parseValue fuel text = some (v, ',' :: rest)) {members : List (String × Json Decimal)}
    {rest' : List Char} (hrest : parseMembers fuel rest = some (members, rest')) :
    parseMembers (fuel + 1) (quoted name ++ ':' :: text) =
      some ((String.ofList name, v) :: members, rest') := by
  rw [quoted, List.cons_append, List.append_assoc, parseMembers]
  show (parseString _ (name ++ quote :: (':' :: text)) >>= _) = _
  rw [show (name ++ ([quote] ++ ':' :: text)).length = (name ++ quote :: ':' :: text).length from
    rfl, parseString_quoted _ hname]
  show (parseValue fuel text >>= _) = _
  rw [hv]
  show (parseMembers fuel rest >>= _) = _
  rw [hrest]
  rfl

end Members

/-- The members of a plain object. -/
def plainMembers (strings : List (List Char × List Char)) (name : List Char) (n : Nat) :
    List (String × Json Decimal) :=
  strings.map (fun kv => (String.ofList kv.1, .str (String.ofList kv.2))) ++
    [(String.ofList name, .num ⟨n, 0⟩)]

theorem parseMembers_plain {strings : List (List Char × List Char)} {name : List Char}
    (n fuel : Nat) (rest : List Char) (hstrings : ∀ kv ∈ strings, Plain kv.1 ∧ Plain kv.2)
    (hname : Plain name) :
    parseMembers (strings.length + (fuel + 2))
        ((strings.flatMap fun kv => quoted kv.1 ++ ':' :: (quoted kv.2 ++ [','])) ++
          (quoted name ++ ':' :: ((toString n).toList ++ '\x7d' :: rest))) =
      some (plainMembers strings name n, rest) := by
  induction strings with
  | nil =>
      rw [List.length_nil, Nat.zero_add]
      exact parseMembers_last hname (parseValue_toString fuel n rest)
  | cons kv strings ih =>
      obtain ⟨⟨hkey, hvalue⟩, hstrings⟩ := List.forall_mem_cons.mp hstrings
      have hfuel : strings.length + 1 + (fuel + 2) = strings.length + (fuel + 2) + 1 := by omega
      rw [List.length_cons, hfuel, List.flatMap_cons, List.append_assoc, List.append_assoc,
        List.cons_append, List.append_assoc]
      exact parseMembers_more hkey (parseValue_quoted _ _ hvalue) (ih hstrings)

/-- A member has a letter at least. -/
theorem length_plainObject (strings : List (List Char × List Char)) (name : List Char) (n : Nat) :
    strings.length + 2 ≤ (plainObject strings name n).length := by
  have hmembers : strings.length ≤
      (strings.flatMap fun kv => quoted kv.1 ++ ':' :: (quoted kv.2 ++ [','])).length := by
    induction strings with
    | nil => exact Nat.le_refl 0
    | cons kv strings ih =>
        simp only [List.flatMap_cons, List.length_append, List.length_cons] at ih ⊢
        omega
  simp only [plainObject, quoted, List.cons_append, List.length_append, List.length_cons]
    at hmembers ⊢
  omega

theorem plainObject_eq_cons (strings : List (List Char × List Char)) (name : List Char) (n : Nat) :
    ∃ text, plainObject strings name n = '\x7b' :: quote :: text := by
  cases strings with
  | nil | cons => exact ⟨_, rfl⟩

/-- A plain object is read as its members. -/
theorem parse_plainObject {strings : List (List Char × List Char)} {name : List Char} (n : Nat)
    (hstrings : ∀ kv ∈ strings, Plain kv.1 ∧ Plain kv.2) (hname : Plain name) :
    parse (String.ofList (plainObject strings name n)) =
      some (.obj (plainMembers strings name n)) := by
  obtain ⟨text, htext⟩ := plainObject_eq_cons strings name n
  have hlength := length_plainObject strings name n
  rw [htext, List.length_cons, List.length_cons] at hlength
  have hmembers : plainObject strings name n = '\x7b' ::
      ((strings.flatMap fun kv => quoted kv.1 ++ ':' :: (quoted kv.2 ++ [','])) ++
        (quoted name ++ ':' :: ((toString n).toList ++ ['\x7d']))) := rfl
  have htail := (List.cons.inj (htext.symm.trans hmembers)).2
  have hread := parseMembers_plain n (2 * (text.length + 2) - strings.length - 1) [] hstrings hname
  rw [← htail] at hread
  have hfuel : strings.length + (2 * (text.length + 2) - strings.length - 1 + 2) =
      2 * (text.length + 2) + 1 := by omega
  rw [hfuel] at hread
  rw [parse, htext, String.length_ofList, String.toList_ofList, List.length_cons, List.length_cons,
    parseValue]
  show ((parseMembers (2 * (text.length + 2) + 1) (quote :: text) >>= _) >>= _) = _
  rw [hread]
  rfl

end JsonText
