import Mathlib

/-!
# The order of single floats, and their differences

Comparisons of 32-bit floats are those of a linear order on the floats that are
numbers.  `rank` maps such a float to a lexicographic triple: its class, its
exponent and its mantissa, the last two negated for a negative number.  Both
zeros have one rank.  `<` and `≤` are the comparisons of ranks.

Underflow is gradual, so the difference of two different numbers is not zero
(`sub_ne_zero`): the exponents of both are at least the smallest, so the exact
difference is a multiple of the smallest number, and rounding keeps it above.
-/

namespace SingleFloat

open Float.Model (UnpackedFloat Format totalExponent)
open Float.Model.UnpackedFloat

/-- The unpacked form of a float. -/
def unpacked (x : Float32) : UnpackedFloat := x.toModel.unpack

/-! ## Ranks -/

/-- The rank of an unpacked float, if it is a number. -/
def rankOf : UnpackedFloat → Option (ℤ ×ₗ ℤ ×ₗ ℤ)
  | .notANumber => none
  | .infinity .negative => some (toLex (-2, toLex (0, 0)))
  | .finite .negative m e _ => some (toLex (-1, toLex (-e, -(m : ℤ))))
  | .zero _ => some (toLex (0, toLex (0, 0)))
  | .finite .positive m e _ => some (toLex (1, toLex (e, (m : ℤ))))
  | .infinity .positive => some (toLex (2, toLex (0, 0)))

/-- The rank of a float, if it is a number. -/
def rank (x : Float32) : Option (ℤ ×ₗ ℤ ×ₗ ℤ) := rankOf (unpacked x)

section Lexicographic

variable {e₁ e₂ : ℤ} {m₁ m₂ : ℕ}

private theorem then_eq_lt_iff :
    (compare e₁ e₂).then (compare m₁ m₂) = .lt ↔ e₁ < e₂ ∨ e₁ = e₂ ∧ m₁ < m₂ := by
  rw [Ordering.then_eq_lt, compare_lt_iff_lt, compare_lt_iff_lt, compare_eq_iff_eq]

private theorem then_eq_gt_iff :
    (compare e₁ e₂).then (compare m₁ m₂) = .gt ↔ e₂ < e₁ ∨ e₁ = e₂ ∧ m₂ < m₁ := by
  rw [Ordering.then_eq_gt, compare_gt_iff_gt, compare_gt_iff_gt, compare_eq_iff_eq]

private theorem then_isLE_iff :
    ((compare e₁ e₂).then (compare m₁ m₂)).isLE = true ↔ e₁ < e₂ ∨ e₁ = e₂ ∧ m₁ ≤ m₂ := by
  rw [Ordering.isLE_then_iff_or, compare_lt_iff_lt, compare_eq_iff_eq, Nat.isLE_compare]

private theorem then_isGE_iff :
    ((compare e₁ e₂).then (compare m₁ m₂)).isGE = true ↔ e₂ < e₁ ∨ e₁ = e₂ ∧ m₂ ≤ m₁ := by
  rw [← Ordering.isLE_swap, Ordering.swap_then, Ordering.isLE_then_iff_or, Ordering.swap_eq_lt,
    Ordering.swap_eq_eq, Ordering.isLE_swap, compare_gt_iff_gt, compare_eq_iff_eq, Nat.isGE_compare]

private theorem compare_sign :
    compare Sign.negative .negative = .eq ∧ compare Sign.negative .positive = .lt ∧
      compare Sign.positive .negative = .gt ∧ compare Sign.positive .positive = .eq :=
  ⟨rfl, rfl, rfl, rfl⟩

end Lexicographic

theorem lt_iff_rankOf (a b : UnpackedFloat) :
    UnpackedFloat.lt a b = true ↔ ∃ x ∈ rankOf a, ∃ y ∈ rankOf b, x < y := by
  rcases a with (_ | _) | _ | (_ | _) | ⟨_ | _, m, e, h⟩ <;>
    rcases b with (_ | _) | _ | (_ | _) | ⟨_ | _, m', e', h'⟩ <;>
    simp [UnpackedFloat.lt, UnpackedFloat.compare, rankOf, Prod.Lex.toLex_lt_toLex, compare_sign,
      Ordering.swap_eq_lt, then_eq_lt_iff, then_eq_gt_iff]

theorem le_iff_rankOf (a b : UnpackedFloat) :
    UnpackedFloat.le a b = true ↔ ∃ x ∈ rankOf a, ∃ y ∈ rankOf b, x ≤ y := by
  rcases a with (_ | _) | _ | (_ | _) | ⟨_ | _, m, e, h⟩ <;>
    rcases b with (_ | _) | _ | (_ | _) | ⟨_ | _, m', e', h'⟩ <;>
    simp [UnpackedFloat.le, UnpackedFloat.compare, rankOf, Prod.Lex.toLex_le_toLex, compare_sign,
      then_isLE_iff, then_isGE_iff]

theorem lt_iff {x y : Float32} : x < y ↔ ∃ a ∈ rank x, ∃ b ∈ rank y, a < b := by
  show decide (x.toModel < y.toModel) = true ↔ _
  rw [decide_eq_true_iff]
  exact lt_iff_rankOf (unpacked x) (unpacked y)

theorem le_iff {x y : Float32} : x ≤ y ↔ ∃ a ∈ rank x, ∃ b ∈ rank y, a ≤ b := by
  show decide (x.toModel ≤ y.toModel) = true ↔ _
  rw [decide_eq_true_iff]
  exact le_iff_rankOf (unpacked x) (unpacked y)

/-- A finite float has a rank. -/
theorem exists_rank {x : Float32} (h : x.isFinite = true) : ∃ a, rank x = some a := by
  change (unpacked x).isFinite = true at h
  rw [rank]
  cases hx : unpacked x with
  | notANumber | infinity s =>
      rw [hx] at h
      exact absurd h Bool.noConfusion
  | zero s => exact ⟨_, rfl⟩
  | finite s m e hm => cases s <;> exact ⟨_, rfl⟩

theorem le_trans {x y z : Float32} (hxy : x ≤ y) (hyz : y ≤ z) : x ≤ z := by
  obtain ⟨a, ha, b, hb, hab⟩ := le_iff.mp hxy
  obtain ⟨b', hb', c, hc, hbc⟩ := le_iff.mp hyz
  cases Option.some.inj (hb.symm.trans hb')
  exact le_iff.mpr ⟨a, ha, c, hc, hab.trans hbc⟩

/-! ## Zero and bounds -/

/-- The unpacked float is one of the two zeros. -/
def isZero : UnpackedFloat → Bool
  | .zero _ => true
  | _ => false

theorem beq_zero (x : Float32) : (x == 0) = isZero (unpacked x) := by
  show UnpackedFloat.beq (unpacked x) (.zero .positive) = _
  rcases unpacked x with (_ | _) | _ | (_ | _) | ⟨_ | _, m, e, h⟩ <;> rfl

/-- The mantissa fits and the exponent is not below the smallest. -/
def Bounded : UnpackedFloat → Prop
  | .finite _ m e _ => m < 2 ^ 24 ∧ -149 ≤ e
  | _ => True

/-- The form of an unpacked 32-bit float: moreover the mantissa is full, unless
the exponent is the smallest. -/
def Canonical : UnpackedFloat → Prop
  | .finite _ m e _ => m < 2 ^ 24 ∧ -149 ≤ e ∧ (2 ^ 23 ≤ m ∨ e = -149)
  | _ => True

theorem Canonical.bounded {u : UnpackedFloat} (h : Canonical u) : Bounded u := by
  cases u with
  | finite s m e hm => exact ⟨h.1, h.2.1⟩
  | infinity s | notANumber | zero s => trivial

private theorem toNat_one_append (v : BitVec 23) : (1#1 ++ v).toNat = 2 ^ 23 + v.toNat := by
  rw [BitVec.toNat_append, ← Nat.shiftLeft_add_eq_or_of_lt v.isLt]
  rfl

/-- Every bit pattern unpacks to a canonical form. -/
theorem canonical_unpack (b : BitVec (Format.numBits .binary32)) :
    Canonical (UnpackedFloat.unpack .binary32 b) := by
  have hm : (unpackMantissa b :
      BitVec Format.binary32.mantissaBitsWithoutImplicit).toNat < 2 ^ 23 := BitVec.isLt _
  have hbias : (Format.binary32.exponentBias : Int) = 127 := rfl
  unfold UnpackedFloat.unpack
  dsimp only
  split_ifs with hmax hinf hmin hzero
  · trivial
  · trivial
  · trivial
  · -- a subnormal has the smallest exponent
    refine ⟨by omega, ?_, .inr ?_⟩ <;> rw [hmin] <;> decide
  · -- a normal has the implicit bit
    have hpos : 0 < (unpackExponent b : BitVec Format.binary32.exponentBits).toNat := by
      rw [Nat.pos_iff_ne_zero]
      intro h
      exact hmin (BitVec.eq_of_toNat_eq h)
    refine ⟨?_, ?_, .inl ?_⟩
    · rw [toNat_one_append]
      omega
    · simp only [hbias]
      omega
    · rw [toNat_one_append]
      omega

theorem canonical_unpacked (x : Float32) : Canonical (unpacked x) := canonical_unpack _

/-! ## Rounding does not underflow to zero -/

private theorem mantissa_shiftRight (em : ExtendedMantissa) (k : ℕ) :
    (em >>> k).mantissa = em.mantissa / 2 ^ k := by
  induction k with
  | zero => exact (Nat.div_one _).symm
  | succ k ih =>
      show (em >>> k).mantissa / 2 = _
      rw [ih, Nat.div_div_eq_div_mul, Nat.pow_succ]

private theorem le_roundedMantissa (em : ExtendedMantissa) : em.mantissa ≤ em.roundedMantissa := by
  obtain ⟨m, r, s⟩ := em
  cases r <;> cases s <;>
    simp [ExtendedMantissa.roundedMantissa, ExtendedMantissa.accuracy, Accuracy.roundToNearestEven]

private theorem mantissa_ofMantissaAndAccuracy (m : ℕ) (acc : Accuracy) :
    (ExtendedMantissa.ofMantissaAndAccuracy m acc).mantissa = m := by
  rcases acc with _ | (_ | _ | _) <;> rfl

/-- The shift to the target exponent drops what does not fit into the mantissa. -/
private theorem shift_eq {m : ℕ} {e : ℤ} (he : -149 ≤ e) :
    (Format.binary32.targetExponent (totalExponent m e) - e).toNat = m.log2 - 23 := by
  have hbits : (Format.binary32.mantissaBits : ℤ) = 24 := rfl
  have hmin : Format.binary32.minExponent = -149 := by decide
  simp only [Format.targetExponent, totalExponent, hbits, hmin]
  omega

private theorem shifted_bounds {m : ℕ} (hm : 0 < m) :
    0 < m / 2 ^ (m.log2 - 23) ∧ m / 2 ^ (m.log2 - 23) < 2 ^ 24 := by
  have hlow : 2 ^ m.log2 ≤ m := Nat.log2_self_le (Nat.ne_of_gt hm)
  have hhigh : m < 2 ^ (m.log2 + 1) := Nat.lt_log2_self
  constructor
  · have hle : 2 ^ (m.log2 - 23) ≤ 2 ^ m.log2 := Nat.pow_le_pow_right (by decide) (Nat.sub_le _ _)
    exact Nat.div_pos (hle.trans hlow) (Nat.two_pow_pos _)
  · rw [Nat.div_lt_iff_lt_mul (Nat.two_pow_pos _), ← Nat.pow_add]
    exact hhigh.trans_le (Nat.pow_le_pow_right (by decide) (by omega))

/-- A bounded form that is not zero. -/
structure Proper (u : UnpackedFloat) : Prop where
  bounded : Bounded u
  nonzero : isZero u = false

theorem proper_roundWithAccuracy (s : Sign) {m : ℕ} (hm : 0 < m) {e : ℤ} (he : -149 ≤ e)
    (acc : Accuracy) : Proper (roundWithAccuracy .binary32 s m e acc) := by
  unfold roundWithAccuracy shiftToTargetExponent shiftToExponent
  dsimp only
  rw [shift_eq he]
  generalize hr : ExtendedMantissa.roundedMantissa _ = r
  have hrpos : 0 < r := by
    have hle := le_roundedMantissa
      (ExtendedMantissa.ofMantissaAndAccuracy m acc >>> (m.log2 - 23))
    rw [mantissa_shiftRight, mantissa_ofMantissaAndAccuracy, hr] at hle
    exact (shifted_bounds hm).1.trans_le hle
  have he' : -149 ≤ e + (m.log2 - 23 : ℕ) := by omega
  obtain ⟨hpos, hlt⟩ := shifted_bounds hrpos
  have hfinal : (ExtendedMantissa.ofMantissaAndAccuracy r .exact >>> (r.log2 - 23)).mantissa =
      r / 2 ^ (r.log2 - 23) := by
    rw [mantissa_shiftRight, mantissa_ofMantissaAndAccuracy]
  rw [shift_eq he']
  split_ifs with hz
  · omega
  · exact ⟨⟨by rw [hfinal]; exact hlt, by omega⟩, rfl⟩

theorem proper_round (s : Sign) {m : ℕ} (hm : 0 < m) {e : ℤ} (he : -149 ≤ e) :
    Proper (UnpackedFloat.round .binary32 s m e) := by
  have hmin : Format.binary32.minExponent = -149 := by decide
  unfold UnpackedFloat.round decreaseExponent
  refine proper_roundWithAccuracy s ?_ ?_ .exact
  · rw [Nat.shiftLeft_eq]
    exact Nat.mul_pos hm (Nat.two_pow_pos _)
  · simp only [Format.targetExponent, hmin]
    omega

theorem proper_normalize {m : ℤ} (hm : m ≠ 0) {e : ℤ} (he : -149 ≤ e) (z : Sign) :
    Proper (UnpackedFloat.normalize .binary32 m e z) := by
  unfold UnpackedFloat.normalize
  split
  · rename_i hlt
    have hneg := compare_lt_iff_lt.mp hlt
    exact proper_round _ (by omega) he
  · rename_i heq
    exact absurd (compare_eq_iff_eq.mp heq) hm
  · rename_i hgt
    have hpos := compare_gt_iff_gt.mp hgt
    exact proper_round _ (by omega) he

/-! ## Differences of unpacked floats -/

/-- A full mantissa at a larger exponent is larger than any mantissa. -/
private theorem lt_full_mul {m₁ m₂ k : ℕ} (h₁ : m₁ < 2 ^ 24) (h₂ : 2 ^ 23 ≤ m₂) (hk : 0 < k) :
    m₁ < m₂ * 2 ^ k := by
  have htwo : 2 ≤ 2 ^ k := Nat.le_self_pow (Nat.ne_of_gt hk) 2
  calc m₁ < 2 ^ 23 * 2 := h₁
    _ ≤ m₂ * 2 ^ k := Nat.mul_le_mul h₂ htwo

/-- Canonical magnitudes that differ still differ at their common exponent. -/
private theorem magnitude_ne {m₁ m₂ : ℕ} {e₁ e₂ : ℤ} (h₁ : m₁ < 2 ^ 24) (h₂ : m₂ < 2 ^ 24)
    (he₁ : -149 ≤ e₁) (he₂ : -149 ≤ e₂) (hc₁ : 2 ^ 23 ≤ m₁ ∨ e₁ = -149)
    (hc₂ : 2 ^ 23 ≤ m₂ ∨ e₂ = -149) (hne : ¬ (e₁ = e₂ ∧ m₁ = m₂)) :
    m₁ * 2 ^ (e₁ - min e₁ e₂).toNat ≠ m₂ * 2 ^ (e₂ - min e₁ e₂).toNat := by
  rcases lt_trichotomy e₁ e₂ with hlt | heq | hgt
  · have hzero : (e₁ - min e₁ e₂).toNat = 0 := by omega
    have hfull : 2 ^ 23 ≤ m₂ := hc₂.resolve_right (by omega)
    have hlt' := lt_full_mul h₁ hfull (show 0 < (e₂ - min e₁ e₂).toNat by omega)
    rw [hzero, Nat.pow_zero, Nat.mul_one]
    exact Nat.ne_of_lt hlt'
  · intro h
    have hz₁ : (e₁ - min e₁ e₂).toNat = 0 := by omega
    have hz₂ : (e₂ - min e₁ e₂).toNat = 0 := by omega
    rw [hz₁, hz₂, Nat.pow_zero, Nat.mul_one, Nat.mul_one] at h
    exact hne ⟨heq, h⟩
  · have hzero : (e₂ - min e₁ e₂).toNat = 0 := by omega
    have hfull : 2 ^ 23 ≤ m₁ := hc₁.resolve_right (by omega)
    have hlt' := lt_full_mul h₂ hfull (show 0 < (e₁ - min e₁ e₂).toNat by omega)
    rw [hzero, Nat.pow_zero, Nat.mul_one]
    exact (Nat.ne_of_lt hlt').symm

private theorem proper_sub_finite {s s' : Sign} {m m' : ℕ} {e e' : ℤ} {h : 0 < m} {h' : 0 < m'}
    (ha : Canonical (.finite s m e h)) (hb : Canonical (.finite s' m' e' h'))
    (hdiffer : s = s' → ¬ (e' = e ∧ m' = m)) :
    Proper (UnpackedFloat.sub .binary32 (.finite s' m' e' h') (.finite s m e h)) := by
  obtain ⟨hm, he, hc⟩ := ha
  obtain ⟨hm', he', hc'⟩ := hb
  show Proper (UnpackedFloat.normalize .binary32 _ (min e' e) _)
  refine proper_normalize ?_ (by omega) _
  simp only [Nat.shiftLeft_eq]
  have hpos : 0 < m * 2 ^ (e - min e' e).toNat := Nat.mul_pos h (Nat.two_pow_pos _)
  have hpos' : 0 < m' * 2 ^ (e' - min e' e).toNat := Nat.mul_pos h' (Nat.two_pow_pos _)
  have hne : s = s' → m' * 2 ^ (e' - min e' e).toNat ≠ m * 2 ^ (e - min e' e).toNat :=
    fun hs => magnitude_ne hm' hm he' he hc' hc (hdiffer hs)
  cases s <;> cases s' <;> simp only [Sign.apply]
  · have := hne rfl
    omega
  · omega
  · omega
  · have := hne rfl
    omega

/-- The difference of two numbers with different ranks is not zero. -/
theorem proper_sub {a b : UnpackedFloat} (ha : Canonical a) (hb : Canonical b)
    (h : ∃ x ∈ rankOf a, ∃ y ∈ rankOf b, x < y) : Proper (UnpackedFloat.sub .binary32 b a) := by
  obtain ⟨x, hx, y, hy, hlt⟩ := h
  cases a with
  | notANumber => cases hx
  | infinity s =>
      cases b with
      | notANumber => cases hy
      | infinity s' =>
          cases s <;> cases s' <;> cases hx <;> cases hy
          · exact absurd hlt (lt_irrefl _)
          · exact ⟨trivial, rfl⟩
          · exact absurd hlt (by decide)
          · exact absurd hlt (lt_irrefl _)
      | zero s' => exact ⟨trivial, rfl⟩
      | finite s' m' e' h' => exact ⟨trivial, rfl⟩
  | zero s =>
      cases b with
      | notANumber => cases hy
      | infinity s' => exact ⟨trivial, rfl⟩
      | zero s' =>
          cases hx
          cases hy
          exact absurd hlt (lt_irrefl _)
      | finite s' m' e' h' => exact ⟨hb.bounded, rfl⟩
  | finite s m e h =>
      cases b with
      | notANumber => cases hy
      | infinity s' => exact ⟨trivial, rfl⟩
      | zero s' => exact ⟨ha.bounded, rfl⟩
      | finite s' m' e' h' =>
          refine proper_sub_finite ha hb ?_
          -- numbers of one sign have different magnitudes, since their ranks differ
          rintro rfl ⟨rfl, rfl⟩
          cases s <;> cases hx <;> cases hy <;> exact absurd hlt (lt_irrefl _)

/-! ## Packing -/

/-- Bits that unpack to zero have an empty exponent and an empty mantissa. -/
private theorem eq_zero_of_isZero {b : BitVec (Format.numBits .binary32)}
    (h : isZero (UnpackedFloat.unpack .binary32 b) = true) :
    (unpackExponent b : BitVec Format.binary32.exponentBits) = 0#_ ∧
      (unpackMantissa b : BitVec Format.binary32.mantissaBitsWithoutImplicit) = 0#_ := by
  unfold UnpackedFloat.unpack at h
  dsimp only at h
  split_ifs at h with hmax hinf hmin hzero
  · exact absurd h Bool.noConfusion
  · exact absurd h Bool.noConfusion
  · exact ⟨hmin, hzero⟩
  · exact absurd h Bool.noConfusion
  · exact absurd h Bool.noConfusion

/-- The bits of a form that is not zero do not unpack to zero. -/
theorem isZero_unpack_pack {u : UnpackedFloat} (h : Proper u) :
    isZero (UnpackedFloat.unpack .binary32 (UnpackedFloat.pack .binary32 u)) = false := by
  cases u with
  | notANumber => rfl
  | infinity s => cases s <;> rfl
  | zero s => exact absurd h.nonzero Bool.noConfusion
  | finite s m e hm =>
      obtain ⟨hlt, he⟩ := h.bounded
      have hbias : (Format.binary32.exponentBias : ℤ) = 127 := rfl
      rw [Bool.eq_false_iff]
      intro hzero
      obtain ⟨hexp, hmant⟩ := eq_zero_of_isZero hzero
      unfold UnpackedFloat.pack at hzero hexp hmant
      dsimp only at hzero hexp hmant
      split_ifs at hzero hexp hmant with hover hnormal
      · cases s <;> exact absurd hzero Bool.noConfusion
      · -- a normal has an exponent between its two extremes
        rw [unpackExponent_packComponents] at hexp
        have hnat := congrArg BitVec.toNat hexp
        rw [BitVec.toNat_ofNat, Nat.mod_eq_of_lt (by omega)] at hnat
        simp only [hbias, BitVec.toNat_zero] at hnat
        omega
      · -- a subnormal has its whole mantissa in the bits
        rw [unpackMantissa_packComponents] at hmant
        have hsmall : m < 2 ^ 23 := by
          rcases Nat.lt_or_ge m (2 ^ 23) with hs | hl
          · exact hs
          · have hlog := (Nat.le_log2 (Nat.ne_of_gt hm)).mpr hl
            have hlog' := (Nat.log2_lt (Nat.ne_of_gt hm)).mpr hlt
            exact absurd (show m.log2 + 1 = 24 by omega) hnormal
        have hnat := congrArg BitVec.toNat hmant
        rw [BitVec.toNat_ofNat, Nat.mod_eq_of_lt hsmall, BitVec.toNat_zero] at hnat
        omega

/-- The difference of two different numbers is not zero. -/
theorem sub_ne_zero {x y : Float32} (h : x < y) : (y - x == 0) = false := by
  rw [beq_zero]
  exact isZero_unpack_pack (proper_sub (canonical_unpacked x) (canonical_unpacked y) (lt_iff.mp h))

/-- The difference of two finite numbers of one rank is a zero. -/
theorem sub_of_rank_eq {x y : Float32} (hx : x.isFinite = true) (h : rank x = rank y) :
    ∃ s, x - y = .ofModel (.pack (.zero s)) := by
  have hsub : ∀ {a b : UnpackedFloat}, a.isFinite = true → rankOf a = rankOf b →
      ∃ s, UnpackedFloat.sub .binary32 a b = .zero s := by
    intro a b ha hab
    cases a with
    | notANumber | infinity s => cases ha
    | zero s =>
        rcases b with (_ | _) | _ | s' | ⟨_ | _, m', e', h'⟩ <;> simp [rankOf] at hab
        cases s <;> cases s' <;> exact ⟨_, rfl⟩
    | finite s m e hm =>
        rcases b with (_ | _) | _ | s' | ⟨_ | _, m', e', h'⟩ <;> cases s <;> simp [rankOf] at hab
        all_goals
          obtain ⟨rfl, hmm⟩ := hab
          obtain rfl : m = m' := by omega
          simp only [UnpackedFloat.sub, Int.sub_self]
          exact ⟨_, rfl⟩
  obtain ⟨s, hs⟩ := hsub hx h
  exact ⟨s, congrArg (fun u => Float32.ofModel (.pack u)) hs⟩

end SingleFloat
