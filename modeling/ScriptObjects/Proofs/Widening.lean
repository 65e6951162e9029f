import Mathlib
import ScriptObjects.Proofs.FloatOrder

/-!
# Integers as floats

An integer becomes the float nearest to it, with ties to the even mantissa.  A natural number is
written with 53 binary digits: a shorter one is padded, and of a longer one the digits that do not
fit are shifted out and leave two residual bits behind.  Read together, the mantissa and its
residual bits count in quarters, and both the shift and the final rounding keep the order of such
counts.

So widening keeps the order of the integers (`place_ofWord_mono`).  It loses nothing of an integer
that is a mantissa at some exponent (`nearest_exact`), hence nothing up to `2 ^ 53`, where different
integers stay different (`place_ofWord_inj`).
-/

namespace ScriptObjects.Number

set_option autoImplicit false

open Float.Model
open Float.Model.UnpackedFloat

/-! ## Shifting digits out -/

/-- A mantissa with its residual bits, counted in quarters of the last digit. -/
def quarters (extended : ExtendedMantissa) : ℕ :=
  4 * extended.mantissa + 2 * extended.roundBit.toNat + extended.stickyBit.toNat

theorem quarters_div (extended : ExtendedMantissa) : quarters extended / 4 = extended.mantissa := by
  have round := extended.roundBit.toNat_le
  have sticky := extended.stickyBit.toNat_le
  unfold quarters
  omega

theorem quarters_shiftRightOne (extended : ExtendedMantissa) :
    quarters extended.shiftRightOne =
      2 * (quarters extended / 4) + min (quarters extended % 4) 1 := by
  obtain ⟨m, round, sticky⟩ := extended
  rcases Nat.mod_two_eq_zero_or_one m with even | odd <;> cases round <;> cases sticky <;>
    simp [quarters, ExtendedMantissa.shiftRightOne, *] <;> omega

/-- The nearest mantissa, and the even one of two that are equally near. -/
theorem roundedMantissa_eq (extended : ExtendedMantissa) :
    extended.roundedMantissa = (quarters extended + 1 + extended.mantissa % 2) / 4 := by
  obtain ⟨m, round, sticky⟩ := extended
  rcases Nat.mod_two_eq_zero_or_one m with even | odd <;> cases round <;> cases sticky <;>
    simp [quarters, ExtendedMantissa.roundedMantissa, ExtendedMantissa.accuracy,
      Accuracy.roundToNearestEven, *] <;> omega

theorem shiftRight_zero (extended : ExtendedMantissa) : extended >>> 0 = extended := rfl

theorem shiftRight_succ (extended : ExtendedMantissa) (count : ℕ) :
    extended >>> (count + 1) = (extended >>> count).shiftRightOne := rfl

theorem mantissa_shiftRight (extended : ExtendedMantissa) (count : ℕ) :
    (extended >>> count).mantissa = extended.mantissa / 2 ^ count := by
  induction count with
  | zero => exact (Nat.div_one _).symm
  | succ count ih =>
      show (extended >>> count).mantissa / 2 = _
      rw [ih, Nat.div_div_eq_div_mul, Nat.pow_succ]

theorem quarters_shiftRight_mono {a b : ExtendedMantissa} (le : quarters a ≤ quarters b)
    (count : ℕ) : quarters (a >>> count) ≤ quarters (b >>> count) := by
  induction count with
  | zero => exact le
  | succ count ih =>
      rw [shiftRight_succ, shiftRight_succ, quarters_shiftRightOne, quarters_shiftRightOne]
      omega

theorem roundedMantissa_mono {a b : ExtendedMantissa} (le : quarters a ≤ quarters b) :
    a.roundedMantissa ≤ b.roundedMantissa := by
  have first := quarters_div a
  have second := quarters_div b
  rw [roundedMantissa_eq, roundedMantissa_eq]
  rcases Nat.lt_or_ge a.mantissa b.mantissa with less | _
  · omega
  · have same : a.mantissa = b.mantissa := by omega
    rw [same]
    exact Nat.div_le_div_right (by omega)

theorem roundedMantissa_bounds (extended : ExtendedMantissa) :
    extended.mantissa ≤ extended.roundedMantissa ∧
      extended.roundedMantissa ≤ extended.mantissa + 1 := by
  have whole := quarters_div extended
  rw [roundedMantissa_eq]
  omega

/-- A mantissa whose mere zeros are dropped has no residual bits. -/
theorem shiftRight_exact (m count : ℕ) :
    (⟨m * 2 ^ count, false, false⟩ : ExtendedMantissa) >>> count = ⟨m, false, false⟩ := by
  induction count generalizing m with
  | zero => rw [Nat.pow_zero, Nat.mul_one, shiftRight_zero]
  | succ count ih =>
      have doubled : m * 2 ^ (count + 1) = m * 2 * 2 ^ count := by ring
      rw [shiftRight_succ, doubled, ih]
      simp [ExtendedMantissa.shiftRightOne]

/-! ## The float nearest to a natural number -/

/-- Padding a number keeps it between two powers of two. -/
theorem padded_bounds {n : ℕ} (pos : 0 < n) (count : ℕ) :
    2 ^ n.log2 * 2 ^ count ≤ n * 2 ^ count ∧ n * 2 ^ count < 2 * (2 ^ n.log2 * 2 ^ count) := by
  have next : 2 * (2 ^ n.log2 * 2 ^ count) = 2 ^ (n.log2 + 1) * 2 ^ count := by ring
  rw [next]
  exact ⟨Nat.mul_le_mul_right _ (Nat.log2_self_le (Nat.ne_of_gt pos)),
    Nat.mul_lt_mul_of_pos_right Nat.lt_log2_self (Nat.two_pow_pos count)⟩

theorem log2_mul_two_pow {m : ℕ} (pos : 0 < m) (count : ℕ) :
    (m * 2 ^ count).log2 = m.log2 + count := by
  have next : 2 ^ (m.log2 + count + 1) = 2 * (2 ^ m.log2 * 2 ^ count) := by ring
  rw [Nat.log2_eq_iff (Nat.ne_of_gt (Nat.mul_pos pos (Nat.two_pow_pos count))), Nat.pow_add, next]
  exact padded_bounds pos count

/-- The 53 leading binary digits of a natural number, rounded. -/
def leading (n : ℕ) : ℕ :=
  ((⟨n * 2 ^ (52 - n.log2), false, false⟩ : ExtendedMantissa) >>> (n.log2 - 52)).roundedMantissa

/-- The exponent and the mantissa of the float nearest to a natural number.  Rounding up can lead to
a power of two, whose mantissa is the smallest at the next exponent. -/
def nearest (n : ℕ) : ℤ × ℕ :=
  if leading n < 2 ^ 53 then ((n.log2 : ℤ) - 52, leading n) else ((n.log2 : ℤ) - 51, 2 ^ 52)

section

variable {n : ℕ}

theorem leading_bounds (pos : 0 < n) : 2 ^ 52 ≤ leading n ∧ leading n ≤ 2 ^ 53 := by
  obtain ⟨low, high⟩ := padded_bounds pos (52 - n.log2)
  obtain ⟨least, most⟩ := roundedMantissa_bounds
    ((⟨n * 2 ^ (52 - n.log2), false, false⟩ : ExtendedMantissa) >>> (n.log2 - 52))
  rw [mantissa_shiftRight] at least most
  have scaled : 2 ^ 52 * 2 ^ (n.log2 - 52) = 2 ^ n.log2 * 2 ^ (52 - n.log2) := by
    rw [← Nat.pow_add, ← Nat.pow_add]
    congr 1
    omega
  have lower : 2 ^ 52 ≤ n * 2 ^ (52 - n.log2) / 2 ^ (n.log2 - 52) := by
    rwa [Nat.le_div_iff_mul_le (Nat.two_pow_pos _), scaled]
  have upper : n * 2 ^ (52 - n.log2) / 2 ^ (n.log2 - 52) < 2 ^ 53 := by
    rw [Nat.div_lt_iff_lt_mul (Nat.two_pow_pos _)]
    rw [← scaled] at high
    omega
  exact ⟨lower.trans least, most.trans upper⟩

theorem nearest_bounds (pos : 0 < n) : 2 ^ 52 ≤ (nearest n).2 ∧ (nearest n).2 < 2 ^ 53 := by
  obtain ⟨low, high⟩ := leading_bounds pos
  unfold nearest
  split <;> constructor <;> simp only <;> omega

theorem nearest_pos (pos : 0 < n) : 0 < (nearest n).2 :=
  Nat.lt_of_lt_of_le (Nat.two_pow_pos 52) (nearest_bounds pos).1

theorem leading_mono {k : ℕ} (le : n ≤ k) (binade : n.log2 = k.log2) : leading n ≤ leading k := by
  have scaled := Nat.mul_le_mul_right (2 ^ (52 - k.log2)) le
  unfold leading
  rw [binade]
  refine roundedMantissa_mono (quarters_shiftRight_mono ?_ _)
  simp only [quarters, Bool.toNat_false]
  omega

/-- Larger numbers do not have smaller floats: within a binade the leading digits grow, and the
floats of one binade end where those of the next begin. -/
theorem nearest_mono {k : ℕ} (pos : 0 < n) (le : n ≤ k) :
    toLex ((nearest n).1, ((nearest n).2 : ℤ)) ≤ toLex ((nearest k).1, ((nearest k).2 : ℤ)) := by
  have binades : n.log2 ≤ k.log2 :=
    (Nat.le_log2 (by omega)).mpr ((Nat.log2_self_le (by omega)).trans le)
  obtain ⟨low, high⟩ := leading_bounds pos
  obtain ⟨low', high'⟩ := leading_bounds (Nat.lt_of_lt_of_le pos le)
  rw [Prod.Lex.toLex_le_toLex]
  rcases Nat.lt_or_eq_of_le binades with below | same
  · unfold nearest
    split <;> split <;> simp only <;> omega
  · have grows := leading_mono le same
    unfold nearest
    split <;> split <;> simp only <;> omega

/-- A number that is a mantissa at an exponent is not rounded. -/
theorem nearest_exact {m : ℕ} {e : ℤ} (low : 2 ^ 52 ≤ m) (high : m < 2 ^ 53)
    (value : n * 2 ^ (-e).toNat = m * 2 ^ e.toNat) : nearest n = (e, m) := by
  have mantissaPos : 0 < m := Nat.lt_of_lt_of_le (Nat.two_pow_pos 52) low
  have pos : 0 < n := by
    refine Nat.pos_of_mul_pos_right (b := 2 ^ (-e).toNat) ?_
    rw [value]
    exact Nat.mul_pos mantissaPos (Nat.two_pow_pos _)
  have log : m.log2 = 52 := (Nat.log2_eq_iff (Nat.ne_of_gt mantissaPos)).mpr ⟨low, high⟩
  have logs := congrArg Nat.log2 value
  rw [log2_mul_two_pow pos, log2_mul_two_pow mantissaPos, log] at logs
  have padding : 52 - n.log2 = (-e).toNat := by omega
  have dropped : n.log2 - 52 = e.toNat := by omega
  have same : leading n = m := by
    unfold leading
    rw [padding, dropped, value, shiftRight_exact]
    rfl
  unfold nearest
  rw [same, if_pos high]
  congr 1
  omega

/-- Up to `2 ^ 53` every number is a mantissa at an exponent. -/
theorem nearest_of_small (pos : 0 < n) (small : n ≤ 2 ^ 53) :
    n * 2 ^ (-(nearest n).1).toNat = (nearest n).2 * 2 ^ (nearest n).1.toNat := by
  rcases Nat.lt_or_eq_of_le small with inside | rfl
  · obtain ⟨low, high⟩ := padded_bounds pos (52 - n.log2)
    have log : n.log2 ≤ 52 := Nat.lt_succ_iff.mp ((Nat.log2_lt (Nat.ne_of_gt pos)).mpr inside)
    have exponent : (-((n.log2 : ℤ) - 52)).toNat = 52 - n.log2 := by omega
    have none : ((n.log2 : ℤ) - 52).toNat = 0 := by omega
    have bottom : 2 ^ 52 = 2 ^ n.log2 * 2 ^ (52 - n.log2) := by
      rw [← Nat.pow_add]
      congr 1
      omega
    have exact : nearest n = ((n.log2 : ℤ) - 52, n * 2 ^ (52 - n.log2)) := by
      rw [← bottom] at low high
      exact nearest_exact low high (by rw [exponent, none, Nat.pow_zero, Nat.mul_one])
    rw [exact]
    simp only [exponent, none, Nat.pow_zero, Nat.mul_one]
  · have exact : nearest (2 ^ 53) = (1, 2 ^ 52) := nearest_exact (by decide) (by decide) (by decide)
    rw [exact]
    decide

end

/-! ## Rounding to a mantissa and an exponent -/

theorem targetExponent_eq (m : ℕ) (e : ℤ) :
    Format.binary64.targetExponent (totalExponent m e) = max (m.log2 + e - 52) (-1074) := by
  show max ((m.log2 : ℤ) + 1 + e - 53) (-1074) = _
  congr 1
  ring

theorem shiftToTargetExponent_eq (m : ℕ) (e : ℤ) (above : -1074 ≤ m.log2 + e - 52) :
    shiftToTargetExponent .binary64 m e .exact =
      ((⟨m, false, false⟩ : ExtendedMantissa) >>> (m.log2 - 52), e + (m.log2 - 52 : ℕ)) := by
  have target := targetExponent_eq m e
  rw [max_eq_left above] at target
  have amount : ((m.log2 : ℤ) + e - 52 - e).toNat = m.log2 - 52 := by omega
  unfold shiftToTargetExponent
  rw [target]
  unfold shiftToExponent
  simp only [amount]
  rfl

/-- The shift that follows the rounding leaves a mantissa of 53 digits as it is. -/
theorem shift_of_fits {m : ℕ} (low : 2 ^ 52 ≤ m) (high : m < 2 ^ 53) {e : ℤ} (above : -1074 ≤ e) :
    shiftToTargetExponent .binary64 m e .exact = (⟨m, false, false⟩, e) := by
  have log : m.log2 = 52 := (Nat.log2_eq_iff (by omega)).mpr ⟨low, high⟩
  rw [shiftToTargetExponent_eq m e (by omega), log]
  simp [shiftRight_zero]

theorem shift_of_carry {e : ℤ} (above : -1074 ≤ e) :
    shiftToTargetExponent .binary64 (2 ^ 53) e .exact = (⟨2 ^ 52, false, false⟩, e + 1) := by
  have log : (2 ^ 53).log2 = 53 := Nat.log2_two_pow
  rw [shiftToTargetExponent_eq _ e (by omega), log]
  rfl

theorem round_natural (sign : Sign) {n : ℕ} (pos : 0 < n) :
    round .binary64 sign n 0 = .finite sign (nearest n).2 (nearest n).1 (nearest_pos pos) := by
  have target := targetExponent_eq n 0
  rw [max_eq_left (by omega)] at target
  have amount : (0 - ((n.log2 : ℤ) + 0 - 52)).toNat = 52 - n.log2 := by omega
  have first :
      shiftToTargetExponent .binary64 (n * 2 ^ (52 - n.log2)) (0 - (52 - n.log2 : ℕ)) .exact =
        ((⟨n * 2 ^ (52 - n.log2), false, false⟩ : ExtendedMantissa) >>> (n.log2 - 52),
          (n.log2 : ℤ) - 52) := by
    have log := log2_mul_two_pow pos (52 - n.log2)
    have count : n.log2 + (52 - n.log2) - 52 = n.log2 - 52 := by omega
    rw [shiftToTargetExponent_eq _ _ (by omega), log, count]
    congr 1
    omega
  obtain ⟨low, high⟩ := leading_bounds pos
  unfold UnpackedFloat.round decreaseExponent
  simp only [target, amount, Nat.shiftLeft_eq]
  unfold roundWithAccuracy
  simp only [first]
  rcases Nat.lt_or_eq_of_le high with inside | top
  · have near : nearest n = ((n.log2 : ℤ) - 52, leading n) := if_pos inside
    have second := shift_of_fits low inside (e := (n.log2 : ℤ) - 52) (by omega)
    unfold leading at second
    simp only [second, near]
    exact dif_neg (by unfold leading at low; omega)
  · have near : nearest n = ((n.log2 : ℤ) - 51, 2 ^ 52) := if_neg (by omega)
    have second := shift_of_carry (e := (n.log2 : ℤ) - 52) (by omega)
    unfold leading at top
    simp only [top, second, near]
    rw [dif_neg (by decide)]
    congr 1
    omega

/-! ## Reading a float back from its bits -/

/-- The bits of a mantissa of 53 digits, the first of which is left out, are read as that
mantissa. -/
theorem unpack_pack (sign : Sign) {m : ℕ} {e : ℤ} (pos : 0 < m) (low : 2 ^ 52 ≤ m)
    (high : m < 2 ^ 53) (above : -1074 ≤ e) (below : e ≤ 971) :
    (Float.Model.pack (.finite sign m e pos)).unpack = .finite sign m e pos := by
  have log : m.log2 = 52 := (Nat.log2_eq_iff (by omega)).mpr ⟨low, high⟩
  have biased : (BitVec.ofNat 11 (e + 1023 + 52).toNat).toNat = (e + 1075).toNat := by
    rw [BitVec.toNat_ofNat]
    omega
  have finite : BitVec.ofNat 11 (e + 1023 + 52).toNat ≠ -1#11 := by
    intro same
    have top : (-1#11 : BitVec 11).toNat = 2047 := by decide
    rw [same, top] at biased
    omega
  have normal : BitVec.ofNat 11 (e + 1023 + 52).toNat ≠ 0#11 := by
    intro same
    have bottom : (0#11 : BitVec 11).toNat = 0 := by decide
    rw [same, bottom] at biased
    omega
  have digits : (1#1 ++ BitVec.ofNat 52 m).toNat = m := by
    rw [BitVec.toNat_append, ← Nat.shiftLeft_add_eq_or_of_lt (BitVec.isLt _), BitVec.toNat_ofNat]
    simp only [Nat.shiftLeft_eq, BitVec.toNat_ofNat]
    omega
  have packed : UnpackedFloat.pack .binary64 (.finite sign m e pos) =
      packComponents .binary64 sign (BitVec.ofNat 11 (e + 1023 + 52).toNat)
        (BitVec.ofNat 52 m) := by
    have fits : ¬ 2 ^ 11 ≤ (e + 1023 + 52).toNat + 1 := by omega
    unfold UnpackedFloat.pack
    exact (if_neg fits).trans (if_pos (by rw [log]; rfl))
  unfold Float.Model.unpack Float.Model.pack
  simp only [packed]
  unfold UnpackedFloat.unpack
  simp only [unpackExponent_packComponents, unpackMantissa_packComponents,
    unpackSign_packComponents]
  rw [if_neg finite, if_neg normal]
  simp only [digits, biased, Sign.ofBitVec_toBitVec]
  have bias : (Format.binary64.exponentBias : ℤ) = 1023 := by decide
  rw [bias]
  congr 1
  show ((e + 1075).toNat : ℤ) - (1023 + 52) = e
  omega

/-! ## The float of a word -/

theorem normalize_apply (sign : Sign) {n : ℕ} (pos : 0 < n) :
    UnpackedFloat.normalize .binary64 (sign.apply n) 0 .positive = round .binary64 sign n 0 := by
  cases sign with
  | positive =>
      have order : compare (n : ℤ) 0 = .gt := compare_gt_iff_gt.mpr (by omega)
      simp only [UnpackedFloat.normalize, Sign.apply, order, Int.toNat_natCast]
  | negative =>
      have order : compare (-(n : ℤ)) 0 = .lt := compare_lt_iff_lt.mpr (by omega)
      simp only [UnpackedFloat.normalize, Sign.apply, order, Int.neg_neg, Int.toNat_natCast]

section

variable {word : Int64}

theorem unpack_ofWord (sign : Sign) (n : ℕ) (pos : 0 < n) (value : word.toInt = sign.apply n) :
    (ofWord word).toModel.unpack = .finite sign (nearest n).2 (nearest n).1 (nearest_pos pos) := by
  have inside : n < 2 ^ 64 := by
    have low := word.le_toInt
    have high := word.toInt_lt
    cases sign <;> simp only [Sign.apply] at value <;> omega
  have log := (Nat.log2_lt (Nat.ne_of_gt pos)).mpr inside
  obtain ⟨low, high⟩ := nearest_bounds pos
  have exponent : -1074 ≤ (nearest n).1 ∧ (nearest n).1 ≤ 971 := by
    unfold nearest
    split <;> simp only <;> omega
  show (Float.Model.pack (UnpackedFloat.normalize .binary64 word.toInt 0 .positive)).unpack = _
  rw [value, normalize_apply sign pos, round_natural sign pos]
  exact unpack_pack sign _ low high exponent.1 exponent.2

theorem unpack_ofWord_zero (value : word.toInt = 0) :
    (ofWord word).toModel.unpack = .zero .positive := by
  show (Float.Model.pack (UnpackedFloat.normalize .binary64 word.toInt 0 .positive)).unpack = _
  rw [value]
  rfl

theorem isNaN_ofWord (word : Int64) : (ofWord word).isNaN = false := by
  show (ofWord word).toModel.unpack.isNaN = false
  rcases Int.lt_trichotomy word.toInt 0 with negative | zero | positive
  · rw [unpack_ofWord .negative word.toInt.natAbs (by omega)
      (by simp only [Sign.apply]; omega)]
    rfl
  · rw [unpack_ofWord_zero zero]
    rfl
  · rw [unpack_ofWord .positive word.toInt.natAbs (by omega)
      (by simp only [Sign.apply]; omega)]
    rfl

theorem place_ofWord (word : Int64) : place (ofWord word) =
    toLex (word.toInt.sign, toLex (word.toInt.sign * (nearest word.toInt.natAbs).1,
      word.toInt.sign * ((nearest word.toInt.natAbs).2 : ℤ))) := by
  rcases Int.lt_trichotomy word.toInt 0 with negative | zero | positive
  · rw [place, unpack_ofWord .negative word.toInt.natAbs (by omega)
      (by simp only [Sign.apply]; omega), Int.sign_eq_neg_one_of_neg negative]
    simp only [placeOf, Int.neg_one_mul]
  · rw [place, unpack_ofWord_zero zero, zero]
    simp only [placeOf, Int.sign_zero, Int.zero_mul]
  · rw [place, unpack_ofWord .positive word.toInt.natAbs (by omega)
      (by simp only [Sign.apply]; omega), Int.sign_eq_one_of_pos positive]
    simp only [placeOf, Int.one_mul]

/-- Widening keeps the order. -/
theorem place_ofWord_mono {a b : Int64} (le : a.toInt ≤ b.toInt) :
    place (ofWord a) ≤ place (ofWord b) := by
  rw [place_ofWord, place_ofWord]
  simp only [Prod.Lex.toLex_le_toLex]
  rcases Int.lt_trichotomy a.toInt 0 with negative | zero | positive
  · rw [Int.sign_eq_neg_one_of_neg negative]
    rcases Int.lt_trichotomy b.toInt 0 with below | none | above
    · have nearer := nearest_mono (n := b.toInt.natAbs) (k := a.toInt.natAbs) (by omega) (by omega)
      rw [Prod.Lex.toLex_le_toLex] at nearer
      rw [Int.sign_eq_neg_one_of_neg below]
      omega
    · exact .inl (by rw [none]; decide)
    · exact .inl (by rw [Int.sign_eq_one_of_pos above]; decide)
  · rcases Int.lt_or_eq_of_le le with above | same
    · rw [zero] at above ⊢
      exact .inl (by rw [Int.sign_eq_one_of_pos above]; decide)
    · rw [← same, zero]
      decide
  · have nearer := nearest_mono (n := a.toInt.natAbs) (k := b.toInt.natAbs) (by omega) (by omega)
    rw [Prod.Lex.toLex_le_toLex] at nearer
    rw [Int.sign_eq_one_of_pos positive, Int.sign_eq_one_of_pos (Int.lt_of_lt_of_le positive le)]
    omega

/-- Up to `2 ^ 53` different words have different floats. -/
theorem place_ofWord_inj {a b : Int64} (first : a.toInt.natAbs ≤ 2 ^ 53)
    (second : b.toInt.natAbs ≤ 2 ^ 53) (same : place (ofWord a) = place (ofWord b)) : a = b := by
  rw [place_ofWord, place_ofWord] at same
  simp only [EmbeddingLike.apply_eq_iff_eq, Prod.mk.injEq] at same
  obtain ⟨signs, exponents, mantissas⟩ := same
  rw [← signs] at exponents mantissas
  refine Int64.toInt_inj.mp ?_
  by_cases zero : a.toInt = 0
  · rw [zero, Int.sign_zero] at signs
    rw [zero, Int.sign_eq_zero_iff_zero.mp signs.symm]
  · have turned : a.toInt.sign ≠ 0 := mt Int.sign_eq_zero_iff_zero.mp zero
    have positive : 0 < b.toInt.natAbs := by
      refine Int.natAbs_pos.mpr fun none => turned ?_
      rw [signs, none, Int.sign_zero]
    have floats : nearest a.toInt.natAbs = nearest b.toInt.natAbs :=
      Prod.ext (Int.eq_of_mul_eq_mul_left turned exponents)
        (Int.ofNat_inj.mp (Int.eq_of_mul_eq_mul_left turned mantissas))
    have value := nearest_of_small (Int.natAbs_pos.mpr zero) first
    rw [floats, ← nearest_of_small positive second] at value
    have magnitudes := Nat.eq_of_mul_eq_mul_right (Nat.two_pow_pos _) value
    rw [← Int.sign_mul_natAbs a.toInt, ← Int.sign_mul_natAbs b.toInt, signs, magnitudes]

end

end ScriptObjects.Number
