import Mathlib.Data.List.Basic

/-!
# Taking a text apart

`stripPrefix` takes a given start off a text, and `splitOnce` cuts a text at the
first of a given character.  Each comes with the statement that says what texts
it takes apart and what it leaves.

`splitWhitespace` has the words of a text, and `parseUnsigned` the number a word
is.
-/

namespace Text

/-- The text behind a given start, if it starts so. -/
def stripPrefix (s start : String) : Option String :=
  (s.toList.dropPrefix? start.toList).map String.ofList

/-- The characters in front of the first `c`, and those behind it. -/
def splitAt (c : Char) : List Char → Option (List Char × List Char)
  | [] => none
  | a :: as =>
      if a = c then some ([], as) else (splitAt c as).map fun r => (a :: r.1, r.2)

/-- The text in front of the first `c`, and the text behind it. -/
def splitOnce (s : String) (c : Char) : Option (String × String) :=
  (splitAt c s.toList).map fun r => (String.ofList r.1, String.ofList r.2)

theorem stripPrefix_eq_some {s start rest : String} :
    stripPrefix s start = some rest ↔ s = start ++ rest := by
  rw [stripPrefix, Option.map_eq_some_iff]
  constructor
  · rintro ⟨cs, hdrop, rfl⟩
    obtain ⟨pre, hs, hpre⟩ := List.dropPrefix?_eq_some_iff.mp hdrop
    rw [beq_iff_eq] at hpre
    rw [← String.toList_inj, String.toList_append, String.toList_ofList, hs, hpre]
  · rintro rfl
    refine ⟨rest.toList, ?_, String.ofList_toList⟩
    rw [String.toList_append]
    exact List.dropPrefix?_append_of_beq _ (beq_self_eq_true _)

theorem splitAt_eq_some {c : Char} {as pre post : List Char} :
    splitAt c as = some (pre, post) ↔ as = pre ++ c :: post ∧ c ∉ pre := by
  induction as generalizing pre with
  | nil => simp [splitAt]
  | cons a as ih =>
      rw [splitAt]
      rcases eq_or_ne a c with rfl | hne
      · cases pre with
        | nil => simp [eq_comm]
        | cons p pre =>
            rw [if_pos rfl]
            simp only [Option.some.injEq, Prod.mk.injEq, List.nil_eq, reduceCtorEq, false_and,
              List.cons_append, List.cons.injEq, List.mem_cons, false_iff]
            rintro ⟨⟨hp, -⟩, hnot⟩
            exact hnot (.inl hp)
      · rw [if_neg hne, Option.map_eq_some_iff]
        constructor
        · rintro ⟨⟨pre', post'⟩, hsplit, heq⟩
          obtain ⟨rfl, rfl⟩ := Prod.mk.inj heq
          obtain ⟨rfl, hnot⟩ := ih.mp hsplit
          exact ⟨rfl, by simp [hnot, Ne.symm hne]⟩
        · rintro ⟨has, hnot⟩
          cases pre with
          | nil => exact absurd (List.cons.inj has).1 hne
          | cons p pre =>
              obtain ⟨rfl, htail⟩ := List.cons.inj has
              exact ⟨(pre, post), ih.mpr ⟨htail, fun h => hnot (List.mem_cons_of_mem _ h)⟩, rfl⟩

theorem splitAt_eq_none {c : Char} {as : List Char} : splitAt c as = none ↔ c ∉ as := by
  induction as with
  | nil => simp [splitAt]
  | cons a as ih =>
      rw [splitAt]
      rcases eq_or_ne a c with rfl | hne
      · simp
      · rw [if_neg hne, Option.map_eq_none_iff, ih]
        simp [hne.symm]

/-- Two texts that are cut at their first `c` have the same parts. -/
theorem append_cons_inj {c : Char} {pre₁ pre₂ post₁ post₂ : List Char} (h₁ : c ∉ pre₁)
    (h₂ : c ∉ pre₂) (h : pre₁ ++ c :: post₁ = pre₂ ++ c :: post₂) :
    pre₁ = pre₂ ∧ post₁ = post₂ := by
  have hcut := splitAt_eq_some.mpr ⟨h, h₂⟩
  rw [splitAt_eq_some.mpr ⟨rfl, h₁⟩] at hcut
  simpa using hcut

theorem splitOnce_eq_some {s pre post : String} {c : Char} :
    splitOnce s c = some (pre, post) ↔
      s.toList = pre.toList ++ c :: post.toList ∧ c ∉ pre.toList := by
  rw [splitOnce, Option.map_eq_some_iff, ← splitAt_eq_some]
  constructor
  · rintro ⟨⟨as, bs⟩, hsplit, heq⟩
    obtain ⟨rfl, rfl⟩ := Prod.mk.inj heq
    rw [String.toList_ofList, String.toList_ofList, hsplit]
  · intro hsplit
    exact ⟨(pre.toList, post.toList), hsplit, by rw [String.ofList_toList, String.ofList_toList]⟩

/-- The text in front of the last `c`, and the text behind it. -/
def rsplitOnce (s : String) (c : Char) : Option (String × String) :=
  (splitAt c s.toList.reverse).map fun r => (String.ofList r.2.reverse, String.ofList r.1.reverse)

theorem rsplitOnce_eq_some {s pre post : String} {c : Char} (h : rsplitOnce s c = some (pre, post)) :
    s.toList = pre.toList ++ c :: post.toList := by
  rw [rsplitOnce, Option.map_eq_some_iff] at h
  obtain ⟨⟨back, front⟩, hsplit, heq⟩ := h
  obtain ⟨rfl, rfl⟩ := Prod.mk.inj heq
  obtain ⟨hreverse, -⟩ := splitAt_eq_some.mp hsplit
  have hlist := congrArg List.reverse hreverse
  rw [List.reverse_reverse, List.reverse_append, List.reverse_cons, List.append_assoc] at hlist
  rw [String.toList_ofList, String.toList_ofList, hlist]
  rfl

theorem rsplitOnce_eq_none {s : String} {c : Char} : rsplitOnce s c = none ↔ c ∉ s.toList := by
  rw [rsplitOnce, Option.map_eq_none_iff, splitAt_eq_none, List.mem_reverse]

/-! ## Words -/

/-- White space, as Unicode has it. -/
def isWhitespace (c : Char) : Bool :=
  let n := c.toNat
  9 ≤ n && n ≤ 13 || n == 0x20 || n == 0x85 || n == 0xa0 || n == 0x1680 ||
    0x2000 ≤ n && n ≤ 0x200a || n == 0x2028 || n == 0x2029 || n == 0x202f || n == 0x205f ||
    n == 0x3000

/-- The text without the white space at its ends. -/
def trim (s : String) : String :=
  String.ofList ((s.toList.dropWhile isWhitespace).reverse.dropWhile isWhitespace).reverse

/-- The words between white space. -/
def splitWhitespace (cs : List Char) : List (List Char) :=
  (cs.splitOnP isWhitespace).filter fun word => !word.isEmpty

/-- White space, behind a word or not. -/
theorem splitWhitespace_append_cons {word : List Char} (hword : ∀ c ∈ word, isWhitespace c = false)
    (hne : word ≠ []) {c : Char} (hc : isWhitespace c = true) (rest : List Char) :
    splitWhitespace (word ++ c :: rest) = word :: splitWhitespace rest := by
  rw [splitWhitespace, List.splitOnP_append_cons_of_forall_mem hword c hc, List.filter_cons_of_pos]
  · rfl
  · rw [List.isEmpty_eq_false_iff.mpr hne]
    rfl

/-- A word without white space behind it. -/
theorem splitWhitespace_of_word {word : List Char} (hword : ∀ c ∈ word, isWhitespace c = false)
    (hne : word ≠ []) : splitWhitespace word = [word] := by
  rw [splitWhitespace, List.splitOnP_eq_singleton hword, List.filter_cons_of_pos]
  · rfl
  · rw [List.isEmpty_eq_false_iff.mpr hne]
    rfl

@[simp] theorem splitWhitespace_nil : splitWhitespace [] = [] := rfl

/-- A piece has the characters of the text that do not cut it. -/
theorem mem_of_mem_splitOnP {p : Char → Bool} {cs word : List Char} (h : word ∈ cs.splitOnP p)
    {c : Char} (hc : c ∈ word) : c ∈ cs ∧ p c = false := by
  induction cs generalizing word with
  | nil =>
      rw [List.splitOnP_nil, List.mem_singleton] at h
      rw [h] at hc
      cases hc
  | cons a as ih =>
      rw [List.splitOnP_cons_eq_if_modifyHead] at h
      cases ha : p a with
      | true =>
          rw [ha, if_pos rfl] at h
          rcases List.mem_cons.mp h with rfl | hrest
          · cases hc
          · exact (ih hrest hc).imp_left (List.mem_cons_of_mem a)
      | false =>
          rw [ha, if_neg Bool.false_ne_true] at h
          obtain ⟨first, rest, hsplit⟩ := List.exists_cons_of_ne_nil (List.splitOnP_ne_nil p as)
          rw [hsplit] at h ih
          rcases List.mem_cons.mp h with rfl | hrest
          · rcases List.mem_cons.mp hc with rfl | hfirst
            · exact ⟨List.mem_cons_self, ha⟩
            · exact (ih List.mem_cons_self hfirst).imp_left (List.mem_cons_of_mem a)
          · exact (ih (List.mem_cons_of_mem first hrest) hc).imp_left (List.mem_cons_of_mem a)

/-- A word is not empty, and has characters of the text that are no white space. -/
theorem of_mem_splitWhitespace {cs word : List Char} (h : word ∈ splitWhitespace cs) :
    word ≠ [] ∧ ∀ c ∈ word, c ∈ cs ∧ isWhitespace c = false := by
  obtain ⟨hpiece, hne⟩ := List.mem_filter.mp h
  refine ⟨?_, fun c hc => mem_of_mem_splitOnP hpiece hc⟩
  rintro rfl
  cases hne

/-- A trimmed text has the characters of the text. -/
theorem toList_trim_subset (s : String) : (trim s).toList ⊆ s.toList := by
  rw [trim, String.toList_ofList]
  intro c hc
  have hback := (List.dropWhile_sublist _).subset (List.mem_reverse.mp hc)
  exact (List.dropWhile_sublist _).subset (List.mem_reverse.mp hback)

/-! ## Numbers -/

/-- The number that decimal digits are. -/
def digitsValue (digits : List Char) : Nat := Nat.ofDigitChars 10 digits 0

theorem digitsValue_toString (n : Nat) : digitsValue (toString n).toList = n := by
  rw [digitsValue, Nat.toString_eq_ofList_toDigits, String.toList_ofList,
    Nat.ofDigitChars_ten_toDigits]

theorem isDigit_of_mem_toString {n : Nat} {d : Char} (hd : d ∈ (toString n).toList) :
    d.isDigit = true := by
  rw [Nat.toString_eq_ofList_toDigits, String.toList_ofList] at hd
  exact Nat.isDigit_of_mem_toDigits (by decide) (by decide) hd

theorem toNat_of_isDigit {d : Char} (hd : d.isDigit = true) : d.toNat < 128 := by
  simp only [Char.isDigit, Bool.and_eq_true, decide_eq_true_eq] at hd
  exact Nat.lt_of_le_of_lt (UInt32.le_iff_toNat_le.mp hd.2) (by decide)

/-- A word without its sign. -/
def unsign (word : List Char) : List Char := if word.head? = some '+' then word.tail else word

/-- Parse a number below a bound, as `FromStr` of an unsigned integer does. -/
def parseUnsigned (bound : Nat) (word : List Char) : Option Nat :=
  if (unsign word).isEmpty || !(unsign word).all Char.isDigit then none
  else if digitsValue (unsign word) < bound then some (digitsValue (unsign word))
  else none

theorem mem_unsign {word : List Char} {c : Char} (hc : c ∈ word) : c = '+' ∨ c ∈ unsign word := by
  cases word with
  | nil => cases hc
  | cons first rest =>
      rw [unsign]
      split
      · rename_i hsign
        cases hsign
        exact List.mem_cons.mp hc
      · exact .inr hc

/-- A word that is parsed consists of digits, behind a sign or not. -/
theorem mem_of_parseUnsigned {bound n : Nat} {word : List Char}
    (h : parseUnsigned bound word = some n) {c : Char} (hc : c ∈ word) :
    c = '+' ∨ c.isDigit = true := by
  rw [parseUnsigned] at h
  split at h
  · cases h
  · rename_i hdigits
    simp only [Bool.or_eq_true, not_or, Bool.not_eq_true, Bool.not_eq_false'] at hdigits
    exact (mem_unsign hc).imp id (List.all_eq_true.mp hdigits.2 c)

theorem parseUnsigned_of_digits {bound : Nat} {digits : List Char} (hne : digits ≠ [])
    (hdigits : ∀ c ∈ digits, c.isDigit = true) (hbound : digitsValue digits < bound) :
    parseUnsigned bound digits = some (digitsValue digits) := by
  have hsign : unsign digits = digits := by
    refine if_neg fun hhead => ?_
    exact absurd (hdigits '+' (List.mem_of_mem_head? hhead)) (by decide)
  have hall : digits.all Char.isDigit = true := List.all_eq_true.mpr hdigits
  rw [parseUnsigned, hsign, hall, List.isEmpty_eq_false_iff.mpr hne]
  exact if_pos hbound

end Text
