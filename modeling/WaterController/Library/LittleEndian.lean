import Mathlib.Data.Nat.Digits.Defs
import Mathlib.Tactic.Common

/-!
# Numbers as bytes, and memory that erases to ones

The little-endian bytes of a number at a fixed width, and the number that bytes
stand for.  On memory whose erased bytes are all ones, a number of which only
the first bytes were written reads as a number near the top of its range
(`value_torn`).

Text is never written with the erased byte: no byte of a UTF-8 encoding is
`0xFF` (`not_validUTF8_of_mem`).
-/

namespace LittleEndian

/-- The byte that erased memory holds. -/
def erased : UInt8 := 0xFF

/-- The number that bytes stand for. -/
def value (bs : List UInt8) : Nat := Nat.ofDigits 256 (bs.map UInt8.toNat)

/-- The low `w` bytes of a number. -/
def bytes : Nat → Nat → List UInt8
  | 0, _ => []
  | w + 1, n => UInt8.ofNat n :: bytes w (n / 256)

@[simp] theorem length_bytes (w n : Nat) : (bytes w n).length = w := by
  induction w generalizing n with
  | zero => rfl
  | succ w ih => simp [bytes, ih]

@[simp] theorem value_nil : value [] = 0 := rfl

theorem value_cons (b : UInt8) (bs : List UInt8) :
    value (b :: bs) = b.toNat + 256 * value bs := by
  simp [value, Nat.ofDigits_cons]

theorem value_append (as bs : List UInt8) :
    value (as ++ bs) = value as + 256 ^ as.length * value bs := by
  simp [value, Nat.ofDigits_append]

theorem value_lt (bs : List UInt8) : value bs < 256 ^ bs.length := by
  have hdigits : ∀ d ∈ bs.map UInt8.toNat, d < 256 := by
    intro d hd
    obtain ⟨b, -, rfl⟩ := List.mem_map.mp hd
    exact b.toNat_lt
  have h := Nat.ofDigits_lt_base_pow_length (by decide : 1 < 256) hdigits
  rwa [List.length_map] at h

theorem value_bytes (w n : Nat) : value (bytes w n) = n % 256 ^ w := by
  induction w generalizing n with
  | zero => simp [bytes, Nat.mod_one]
  | succ w ih =>
      rw [bytes, value_cons, ih, Nat.pow_succ', Nat.mod_mul]
      simp

theorem take_bytes {j w : Nat} (h : j ≤ w) (n : Nat) : (bytes w n).take j = bytes j n := by
  induction j generalizing w n with
  | zero => rfl
  | succ j ih =>
      obtain ⟨w, rfl⟩ : ∃ v, w = v + 1 := ⟨w - 1, by omega⟩
      simp [bytes, ih (Nat.le_of_succ_le_succ h)]

theorem value_replicate_erased (w : Nat) : value (List.replicate w erased) + 1 = 256 ^ w := by
  induction w with
  | zero => rfl
  | succ w ih =>
      have hbyte : erased.toNat = 255 := rfl
      rw [List.replicate_succ, value_cons, hbyte, Nat.pow_succ']
      omega

/-! ## Torn writes -/

/-- Memory of `n` erased bytes into which only the first `o` of the bytes `xs`
were written. -/
def torn (n : Nat) (xs : List UInt8) (o : Nat) : List UInt8 :=
  xs.take o ++ List.replicate (n - min o xs.length) erased

theorem length_torn {n : Nat} {xs : List UInt8} (h : xs.length ≤ n) (o : Nat) :
    (torn n xs o).length = n := by
  simp only [torn, List.length_append, List.length_take, List.length_replicate]
  omega

/-- A write that was not cut. -/
theorem torn_of_le (n : Nat) {xs : List UInt8} {o : Nat} (h : xs.length ≤ o) :
    torn n xs o = xs ++ List.replicate (n - xs.length) erased := by
  rw [torn, List.take_of_length_le h, Nat.min_eq_right h]

theorem torn_self {xs : List UInt8} {o : Nat} (h : xs.length ≤ o) : torn xs.length xs o = xs := by
  simp [torn_of_le _ h]

theorem torn_append {front xs : List UInt8} {n o : Nat} (h : front.length ≤ o) :
    torn n (front ++ xs) o = front ++ torn (n - front.length) xs (o - front.length) := by
  have hlen : n - min o (front ++ xs).length =
      n - front.length - min (o - front.length) xs.length := by
    rw [List.length_append]
    omega
  rw [torn, torn, List.take_append, List.take_of_length_le h, hlen, List.append_assoc]

/-- A part of a torn write is a torn write of the part. -/
theorem extract_torn {n i j : Nat} {xs : List UInt8} (hj : j ≤ xs.length) (hn : xs.length ≤ n)
    (o : Nat) : (torn n xs o).extract i j = torn (j - i) (xs.extract i j) (o - i) := by
  simp only [torn, List.extract_eq_take_drop, List.drop_append, List.take_append,
    List.drop_take, List.take_take, List.length_take, List.length_drop, List.drop_replicate,
    List.take_replicate]
  congr 2
  all_goals omega

/-- Behind a torn write the memory is erased. -/
theorem extract_torn_erased {n i j o : Nat} (xs : List UInt8) (hi : o ≤ i) (hj : j ≤ n) :
    (torn n xs o).extract i j = List.replicate (j - i) erased := by
  have hlen : (xs.take o).length ≤ i := by
    rw [List.length_take]
    omega
  have hmin : min o xs.length ≤ i := Nat.le_trans (Nat.min_le_left _ _) hi
  rw [torn, List.extract_eq_take_drop, List.drop_append, List.drop_of_length_le hlen,
    List.nil_append, List.drop_replicate, List.take_replicate, List.length_take]
  congr 1
  omega

theorem erased_mem_torn {xs : List UInt8} {o : Nat} (h : o < xs.length) :
    erased ∈ torn xs.length xs o := by
  refine List.mem_append_right _ (List.mem_replicate.mpr ⟨?_, rfl⟩)
  omega

/-- A number of which only the first `j` bytes were written. -/
theorem value_torn {j w : Nat} (h : j ≤ w) (n : Nat) :
    value (torn w (bytes w n) j) + 256 ^ j = n % 256 ^ j + 256 ^ w := by
  have hones := value_replicate_erased (w - j)
  have hpow : 256 ^ w = 256 ^ j * 256 ^ (w - j) := by rw [← Nat.pow_add, Nat.add_sub_cancel' h]
  rw [torn, take_bytes h, length_bytes, Nat.min_eq_left h, value_append, value_bytes,
    length_bytes, hpow, ← hones]
  ring

/-! ## Erased bytes and text -/

/-- No byte of an encoded character is the erased byte. -/
theorem erased_not_mem_utf8EncodeChar (c : Char) : erased ∉ String.utf8EncodeChar c := by
  have hne : ∀ n, n < 255 → erased ≠ UInt8.ofNat n := by
    intro n hn heq
    have h := congrArg UInt8.toNat heq
    have hbyte : erased.toNat = 255 := rfl
    have hlt : n < 256 := by omega
    rw [hbyte, UInt8.toNat_ofNat_of_lt' hlt] at h
    omega
  intro hmem
  simp only [String.utf8EncodeChar] at hmem
  split at hmem
  · simp only [List.mem_singleton] at hmem
    exact hne _ (by omega) hmem
  split at hmem
  · simp only [List.mem_cons, List.not_mem_nil, or_false] at hmem
    rcases hmem with h | h <;> exact hne _ (by omega) h
  split at hmem
  · simp only [List.mem_cons, List.not_mem_nil, or_false] at hmem
    rcases hmem with h | h | h <;> exact hne _ (by omega) h
  · simp only [List.mem_cons, List.not_mem_nil, or_false] at hmem
    rcases hmem with h | h | h | h <;> exact hne _ (by omega) h

/-- Bytes with an erased byte among them are not text. -/
theorem not_validUTF8_of_mem {bs : List UInt8} (h : erased ∈ bs) :
    ¬ bs.toByteArray.IsValidUTF8 := by
  rintro ⟨chars, henc⟩
  have hbytes : bs = chars.flatMap String.utf8EncodeChar := by
    have hlist := congrArg (fun b => b.data.toList) henc
    simpa [List.utf8Encode] using hlist
  rw [hbytes, List.mem_flatMap] at h
  obtain ⟨c, -, hc⟩ := h
  exact erased_not_mem_utf8EncodeChar c hc

end LittleEndian
