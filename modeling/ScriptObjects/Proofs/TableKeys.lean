import ScriptObjects.Proofs.Tables
import ScriptObjects.Proofs.Widening

/-!
# Numbers as table keys

A float whose exact value is an integer of the word range is the key of that integer, so that both
of them address one slot of a table.  The least word is the exception: it has a float, but the bound
on the magnitude of a float that becomes a word leaves `-2 ^ 63` out, as it leaves out `2 ^ 63`,
which is no word (`Number.word?_eq_some_iff`).

In the other direction nothing is lost: values of one key are identical (`identical_of_key`).
-/

namespace ScriptObjects

set_option autoImplicit false

namespace Number

open Float.Model
open Float.Model.UnpackedFloat

/-! ## Floats that are integers -/

/-- The exact value of a float; none for infinities and NaN. -/
def rational? (x : Float) : Option ℚ :=
  match x.toModel.unpack with
  | .zero _ => some 0
  | .finite sign mantissa exponent _ => some (sign.apply mantissa * 2 ^ exponent)
  | .infinity _ | .notANumber => none

theorem rational?_of_finite {x : Float} {sign : Sign} {m : ℕ} {e : ℤ} {pos : 0 < m}
    (kind : x.toModel.unpack = .finite sign m e pos) :
    rational? x = some (sign.apply m * 2 ^ e : ℚ) := by
  unfold rational?
  rw [kind]

/-- A scaled mantissa is an integer when the two are equal without a fraction. -/
theorem scaled_eq_iff {m n e : ℤ} :
    (m : ℚ) * 2 ^ e = n ↔ n * 2 ^ (-e).toNat = m * 2 ^ e.toNat := by
  have parts : e = (e.toNat : ℤ) - ((-e).toNat : ℤ) := by omega
  have two : (2 : ℚ) ≠ 0 := by decide
  have power : (2 : ℚ) ^ e = 2 ^ e.toNat / 2 ^ (-e).toNat := by
    conv_lhs => rw [parts, zpow_sub₀ two, zpow_natCast, zpow_natCast]
  rw [power, ← mul_div_assoc, div_eq_iff (pow_ne_zero _ two), eq_comm]
  norm_cast

theorem wholeScaled?_eq_some_iff {m n : ℕ} {e : ℤ} :
    wholeScaled? m e = some n ↔ n * 2 ^ (-e).toNat = m * 2 ^ e.toNat := by
  unfold wholeScaled?
  by_cases up : 0 ≤ e
  · have undivided : (-e).toNat = 0 := by omega
    rw [if_pos up, undivided, Nat.pow_zero, Nat.mul_one, Option.some_inj, eq_comm]
    rfl
  · have unscaled : e.toNat = 0 := by omega
    have pos := Nat.two_pow_pos (-e).toNat
    rw [if_neg up, unscaled, Nat.pow_zero, Nat.mul_one]
    show (if m % 2 ^ (-e).toNat = 0 then some (m / 2 ^ (-e).toNat) else none) = some n ↔ _
    split
    next divides =>
      rw [Option.some_inj, Nat.div_eq_iff_eq_mul_left pos (Nat.dvd_of_mod_eq_zero divides), eq_comm]
    next rest =>
      refine iff_of_false (fun absent => nomatch absent) fun value => rest ?_
      rw [← value, Nat.mul_mod_left]

theorem whole?_of_finite {x : Float} {sign : Sign} {m : ℕ} {e : ℤ} {pos : 0 < m}
    (kind : x.toModel.unpack = .finite sign m e pos) :
    whole? x = (wholeScaled? m e).map fun n : ℕ => sign.apply n := by
  unfold whole?
  rw [kind]
  cases sign <;> rfl

theorem apply_of_scaled {sign : Sign} {m a b : ℕ} {n : ℤ}
    (scaled : n * 2 ^ b = sign.apply m * 2 ^ a) :
    n = sign.apply n.natAbs ∧ n.natAbs * 2 ^ b = m * 2 ^ a := by
  have pos : (0 : ℤ) < 2 ^ b := Int.pow_pos (by decide)
  have nonneg : 0 ≤ (m : ℤ) * 2 ^ a :=
    Int.mul_nonneg (Int.natCast_nonneg m) (Int.pow_nonneg (by decide))
  have magnitudes := congrArg Int.natAbs scaled
  rw [Int.natAbs_mul, Int.natAbs_mul, Int.natAbs_pow, Int.natAbs_pow] at magnitudes
  cases sign with
  | positive =>
      simp only [Sign.apply] at scaled magnitudes ⊢
      have : 0 ≤ n := Int.le_of_mul_le_mul_right (by rwa [Int.zero_mul, scaled]) pos
      exact ⟨by omega, by simpa using magnitudes⟩
  | negative =>
      simp only [Sign.apply] at scaled magnitudes ⊢
      have : n ≤ 0 := by
        refine Int.le_of_mul_le_mul_right ?_ pos
        rw [Int.zero_mul, scaled, Int.neg_mul]
        omega
      exact ⟨by omega, by simpa using magnitudes⟩

/-- A float that is exactly an integer stands for it. -/
theorem whole?_of_rational {x : Float} {n : ℤ} (value : rational? x = some (n : ℚ)) :
    whole? x = some n := by
  cases kind : x.toModel.unpack with
  | infinity sign | notANumber =>
      unfold rational? at value
      rw [kind] at value
      cases value
  | zero sign =>
      unfold rational? at value
      rw [kind] at value
      have absent : n = 0 := Int.cast_eq_zero.mp (Option.some.inj value).symm
      unfold whole?
      rw [kind, absent]
  | finite sign m e pos =>
      rw [rational?_of_finite kind] at value
      obtain ⟨signed, scaled⟩ := apply_of_scaled (scaled_eq_iff.mp (Option.some.inj value))
      rw [whole?_of_finite kind, wholeScaled?_eq_some_iff.mpr scaled, Option.map_some, ← signed]

/-- The mantissa of a float has 53 digits, unless its exponent is the least one. -/
theorem unpack_canonical {x : Float} {sign : Sign} {m : ℕ} {e : ℤ} {pos : 0 < m}
    (kind : x.toModel.unpack = .finite sign m e pos) :
    m < 2 ^ 53 ∧ (2 ^ 52 ≤ m ∨ e = -1074) := by
  unfold Float.Model.unpack UnpackedFloat.unpack at kind
  simp only at kind
  split at kind
  · split at kind <;> cases kind
  · split at kind
    next subnormal =>
      split at kind
      · cases kind
      · injection kind with signs mantissas exponents
        subst mantissas exponents
        rw [subnormal]
        refine ⟨(BitVec.isLt _).trans (by decide), .inr ?_⟩
        decide
    next normal =>
      injection kind with signs mantissas exponents
      subst mantissas
      rw [BitVec.toNat_append, ← Nat.shiftLeft_add_eq_or_of_lt (BitVec.isLt _)]
      have := (@unpackMantissa .binary64 x.toModel.toBits.toBitVec).isLt
      simp only [BitVec.toNat_ofNat, Nat.shiftLeft_eq] at *
      omega

/-- A float that stands for a word is in the place of the float of that word. -/
theorem place_of_whole {x : Float} {word : Int64} (value : whole? x = some word.toInt) :
    place x = place (ofWord word) := by
  cases kind : x.toModel.unpack with
  | infinity sign | notANumber =>
      unfold whole? at value
      rw [kind] at value
      cases value
  | zero sign =>
      unfold whole? at value
      rw [kind] at value
      unfold place
      rw [kind, unpack_ofWord_zero (Option.some.inj value).symm]
      rfl
  | finite sign m e pos =>
      rw [whole?_of_finite kind] at value
      obtain ⟨n, whole, signed⟩ := Option.map_eq_some_iff.mp value
      have scaled := wholeScaled?_eq_some_iff.mp whole
      obtain ⟨high, low⟩ := unpack_canonical kind
      have positive : 0 < n := by
        refine Nat.pos_of_mul_pos_right (b := 2 ^ (-e).toNat) ?_
        rw [scaled]
        exact Nat.mul_pos pos (Nat.two_pow_pos _)
      -- at the least exponent no mantissa is long enough to be an integer above zero
      have normal : 2 ^ 52 ≤ m := by
        refine low.resolve_right fun least => ?_
        have unscaled : e.toNat = 0 := by omega
        have huge : 2 ^ 53 ≤ n * 2 ^ (-e).toNat :=
          (Nat.pow_le_pow_right (by decide) (by omega)).trans (Nat.le_mul_of_pos_left _ positive)
        rw [scaled, unscaled] at huge
        omega
      unfold place
      rw [kind, unpack_ofWord _ _ positive signed.symm]
      simp only [nearest_exact normal high scaled]

/-- The words of floats are the integers they stand for, without the least one. -/
theorem word?_eq_some_iff {x : Float} {word : Int64} :
    word? x = some word ↔ whole? x = some word.toInt ∧ word ≠ Int64.minValue := by
  unfold word?
  cases whole : whole? x with
  | none => exact iff_of_false (fun absent => nomatch absent) fun absent => nomatch absent.1
  | some n =>
      have low : Int64.minValue.toInt ≤ word.toInt := word.minValue_le_toInt
      have high : word.toInt ≤ Int64.maxValue.toInt := word.toInt_le
      show (if _ then _ else _) = _ ↔ _
      rw [Option.some_inj, ne_eq, ← Int64.toInt_inj]
      constructor
      · intro known
        split at known
        next within =>
          rw [← Option.some.inj known, Int64.toInt_ofInt_of_le within.1.le
            (Int.lt_add_one_of_le within.2)]
          exact ⟨rfl, within.1.ne'⟩
        next => cases known
      · rintro ⟨rfl, greater⟩
        rw [if_pos ⟨lt_of_le_of_ne low (Ne.symm greater), high⟩, Int64.ofInt_toInt]

theorem isNaN_of_whole {x : Float} {n : ℤ} (whole : whole? x = some n) : x.isNaN = false := by
  show x.toModel.unpack.isNaN = false
  unfold whole? at whole
  cases kind : x.toModel.unpack with
  | notANumber =>
      rw [kind] at whole
      cases whole
  | zero | finite | infinity => rfl

end Number

namespace TableKey

/-! ## The values of a key -/

/-- The key of a float is the word it stands for, or itself. -/
theorem ofValue?_float {x : Float} (number : x.isNaN = false) :
    ofValue? (.float x) = some ((Number.word? x).elim (.float x) .int) := by
  rw [ofValue?, if_neg (by rw [number]; decide)]
  cases Number.word? x <;> rfl

/-- A value is the one its key reads as, or a float that stands for the word of the key. -/
theorem value_cases {value : Value} {key : TableKey} (known : ofValue? value = some key) :
    (value = key.toValue ∧ ∀ x, value = .float x → x.isNaN = false) ∨
      ∃ x word, value = .float x ∧ key = .int word ∧ Number.whole? x = some word.toInt := by
  cases value with
  | float x =>
      cases number : x.isNaN with
      | true =>
          rw [ofValue?, if_pos number] at known
          cases known
      | false =>
          rw [ofValue?_float number, Option.some_inj] at known
          cases whole : Number.word? x with
          | none =>
              rw [whole] at known
              subst known
              exact .inl ⟨rfl, fun _ same => by injection same with same; rwa [← same]⟩
          | some word =>
              rw [whole] at known
              exact .inr ⟨x, word, rfl, known.symm, (Number.word?_eq_some_iff.mp whole).1⟩
  | bool | int | text =>
      cases known
      exact .inl ⟨rfl, fun _ absent => nomatch absent⟩
  | null | table | function | object | host => cases known

/-- Values of one key are identical. -/
theorem identical_of_key {one other : Value} {key : TableKey} (first : ofValue? one = some key)
    (second : ofValue? other = some key) : one.identical other = true := by
  obtain ⟨rfl, number⟩ | ⟨x, word, rfl, rfl, whole⟩ := value_cases first
  · obtain ⟨rfl, _⟩ | ⟨x, word, rfl, rfl, whole⟩ := value_cases second
    · cases key with
      | float x =>
          have number := number x rfl
          exact (Number.beq_iff_place number number).mpr rfl
      | bool | int | text => exact decide_eq_true rfl
    · exact (Number.beq_iff_place (Number.isNaN_ofWord word) (Number.isNaN_of_whole whole)).mpr
        (Number.place_of_whole whole).symm
  · obtain ⟨rfl, _⟩ | ⟨y, other, rfl, same, whole'⟩ := value_cases second
    · exact (Number.beq_iff_place (Number.isNaN_of_whole whole) (Number.isNaN_ofWord word)).mpr
        (Number.place_of_whole whole)
    · cases same
      exact (Number.beq_iff_place (Number.isNaN_of_whole whole) (Number.isNaN_of_whole whole')).mpr
        ((Number.place_of_whole whole).trans (Number.place_of_whole whole').symm)

/-! ## The slot of an integer -/

/-- Two values are one key, and a table does not tell them apart. -/
structure OneSlot (one other : Value) : Prop where
  key : ∃ key, ofValue? one = some key ∧ ofValue? other = some key
  /-- What is stored under the one is found under the other. -/
  found : ∀ first second, ofValue? one = some first → ofValue? other = some second →
    ∀ (table : Table) value, (table.set first value).get second = value
  /-- Null stored under the other removes what was stored under the one. -/
  removed : ∀ first second, ofValue? one = some first → ofValue? other = some second →
    ∀ (table : Table) value, ((table.set first value).set second .null).find? first = none

theorem OneSlot.of_key {one other : Value} {key : TableKey} (first : ofValue? one = some key)
    (second : ofValue? other = some key) : OneSlot one other where
  key := ⟨key, first, second⟩
  found _ _ known known' table value := by
    cases first.symm.trans known
    cases second.symm.trans known'
    exact table.get_set key value
  removed _ _ known known' table value := by
    cases first.symm.trans known
    cases second.symm.trans known'
    rw [Table.find?_set, if_pos rfl]
    rfl

/-- An integer and the float of the same value are one key, unless the integer is the least word;
and whatever two values share a key are identical. -/
theorem whole_floats_are_keys (word : Int64) (x : Float)
    (value : Number.rational? x = some (word.toInt : ℚ)) :
    (ofValue? (.int word) = ofValue? (.float x) ↔ word ≠ Int64.minValue) ∧
      (word ≠ Int64.minValue →
        OneSlot (.int word) (.float x) ∧ OneSlot (.float x) (.int word)) ∧
      ∀ one other key, ofValue? one = some key → ofValue? other = some key →
        one.identical other = true := by
  have whole := Number.whole?_of_rational value
  have keyed := ofValue?_float (Number.isNaN_of_whole whole)
  have shared : word ≠ Int64.minValue → ofValue? (.float x) = some (.int word) := fun greater => by
    rw [keyed, Number.word?_eq_some_iff.mpr ⟨whole, greater⟩]
    rfl
  refine ⟨⟨fun same least => ?_, fun greater => (shared greater).symm⟩, fun greater => ?_,
    fun _ _ _ => identical_of_key⟩
  · cases known : Number.word? x with
    | none =>
        rw [keyed, known] at same
        cases same
    | some other =>
        obtain ⟨whole', greater⟩ := Number.word?_eq_some_iff.mp known
        rw [whole, Option.some_inj, Int64.toInt_inj] at whole'
        exact greater (whole' ▸ least)
  · exact ⟨.of_key rfl (shared greater), .of_key (shared greater) rfl⟩

/-- The least float of a word that is a key of it. -/
theorem low_word_is_key :
    OneSlot (.int (-9223372036854774784)) (.float (.ofBits 0xc3dfffffffffffff)) := by
  have kind : (Float.ofBits 0xc3dfffffffffffff).toModel.unpack =
    .finite .negative 9007199254740991 10 (by decide) := rfl
  have value : Number.rational? (.ofBits 0xc3dfffffffffffff) =
      some (((-9223372036854774784 : Int64).toInt : ℤ) : ℚ) :=
    (Number.rational?_of_finite kind).trans (by decide +kernel)
  exact ((whole_floats_are_keys _ _ value).2.1 (by decide)).1

/-- The least word has a float, but that float is another key. -/
theorem least_word_is_no_key : ¬ ∀ (word : Int64) (x : Float),
    Number.rational? x = some (word.toInt : ℚ) → ofValue? (.int word) = ofValue? (.float x) := by
  intro claim
  have kind : (Float.ofBits 0xc3e0000000000000).toModel.unpack =
    .finite .negative 4503599627370496 11 (by decide) := rfl
  have value : Number.rational? (.ofBits 0xc3e0000000000000) =
      some ((Int64.minValue.toInt : ℤ) : ℚ) :=
    (Number.rational?_of_finite kind).trans (by decide +kernel)
  exact absurd (claim _ _ value) (by decide +kernel)

end TableKey

end ScriptObjects
