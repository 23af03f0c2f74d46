import SourceMetrics.Proofs.DoubleMeans

/-! # What a double is worth

A double other than `nan` is worth a rational number or an infinite value (`Double.worth?`).
Mantissa and exponent are those of a word, so a worth other than zero has one double only
(`Double.ofFloat_eq_of_worth_eq`), and doubles are equal exactly if they are worth the same
(`Double.beq_iff_worth_eq`).

The whole part of a double needs no more bits than the double itself, so it is rounded to a double
of just this worth (`Double.worth_nearest_whole`). Hence a double is found to be a whole number
exactly if it is worth one (`Binary64.integer?_eq_some_iff`).
-/

namespace SourceMetrics

/-- What a number is worth. -/
inductive Worth where
  | finite (q : ℚ)
  | infinite (negative : Bool)
deriving DecidableEq

namespace Double

open Float.Model Float.Model.UnpackedFloat

/-- A magnitude with a sign. -/
def signed (negative : Bool) (magnitude : Nat) : Int :=
  if negative then -magnitude else magnitude

/-- What a double is worth, unless it is no number. -/
def worth? : Double → Option Worth
  | .nan => none
  | .infinite negative => some (.infinite negative)
  | .finite negative mantissa exponent =>
    some (.finite (signed negative mantissa * 2 ^ exponent))

@[simp] theorem natAbs_signed (negative : Bool) (magnitude : Nat) :
    (signed negative magnitude).natAbs = magnitude := by
  cases negative <;> simp [signed]

private theorem signed_natAbs (i : Int) : signed (decide (i < 0)) i.natAbs = i := by
  by_cases below : i < 0
  · simp only [signed, below, decide_true, ↓reduceIte]
    omega
  · simp only [signed, below, decide_false, Bool.false_eq_true, ↓reduceIte]
    omega

@[simp] theorem signed_zero (negative : Bool) : signed negative 0 = 0 := by
  cases negative <;> rfl

private theorem signed_mul_eq {negative : Bool} {m n : Nat} {q : ℚ} (same : (m : ℚ) * q = n) :
    (signed negative m : ℚ) * q = signed negative n := by
  cases negative <;> simp [signed, same]

private theorem signed_mul (negative : Bool) (m n : Nat) :
    signed negative (m * n) = signed negative m * n := by
  cases negative <;> simp [signed]

private theorem signed_div (negative : Bool) (m n : Nat) :
    signed negative (m / n) = (signed negative m).tdiv n := by
  cases negative <;> simp [signed, Int.neg_tdiv]

private theorem worth?_eq_infinite {x : Double} {negative : Bool} :
    x.worth? = some (.infinite negative) ↔ x = .infinite negative := by
  cases x <;> simp [worth?]

private theorem worth?_eq_finite {x : Double} {q : ℚ} :
    x.worth? = some (.finite q) ↔
      ∃ negative mantissa exponent, x = .finite negative mantissa exponent ∧
        (signed negative mantissa : ℚ) * 2 ^ exponent = q := by
  cases x <;> simp [worth?]

private theorem whole?_finite (negative : Bool) (mantissa : Nat) (exponent : Int) :
    (Double.finite negative mantissa exponent).whole? =
      some (signed negative (if 0 ≤ exponent then mantissa * 2 ^ exponent.toNat
        else mantissa / 2 ^ (-exponent).toNat)) :=
  rfl

/-! ## Reading the fields of a word -/

/-- The fields of a word, written with powers of two. -/
theorem ofFloat_eq (x : Float) : ofFloat x =
    if x.toBits.toNat / 2 ^ 52 % 2 ^ 11 = 2047 then
      if x.toBits.toNat % 2 ^ 52 = 0 then .infinite (decide (2 ^ 63 ≤ x.toBits.toNat)) else .nan
    else if x.toBits.toNat / 2 ^ 52 % 2 ^ 11 = 0 then
      .finite (decide (2 ^ 63 ≤ x.toBits.toNat)) (x.toBits.toNat % 2 ^ 52) leastExponent
    else
      .finite (decide (2 ^ 63 ≤ x.toBits.toNat)) (x.toBits.toNat % 2 ^ 52 + 2 ^ 52)
        ((x.toBits.toNat / 2 ^ 52 % 2 ^ 11 : Nat) - 1075) :=
  rfl

/-- Whether a sign is the negative one. -/
def isNegative : Sign → Bool
  | .negative => true
  | .positive => false

/-- The double that the fields of a word say. -/
def ofFields : UnpackedFloat → Double
  | .infinity sign => .infinite (isNegative sign)
  | .notANumber => .nan
  | .zero sign => .finite (isNegative sign) 0 leastExponent
  | .finite sign mantissa exponent _ => .finite (isNegative sign) mantissa exponent

private theorem isNegative_signOf (word : BitVec Format.binary64.numBits) :
    isNegative (signOf word) = decide (2 ^ 63 ≤ word.toNat) := by
  have field := toNat_unpackSign word
  have bound : word.toNat < 2 ^ 64 := word.isLt
  have bit : ∀ bit : BitVec 1, isNegative (Sign.ofBitVec bit) = decide (bit.toNat = 1) := by decide
  rw [signOf, bit, field, decide_eq_decide]
  omega

/-- A double is read from its word as its fields say. -/
theorem ofFloat_eq_ofFields (x : Float) : ofFloat x = ofFields x.toModel.unpack := by
  let word : BitVec Format.binary64.numBits := x.toModel.toBits.toBitVec
  have same : x.toBits.toNat = word.toNat := rfl
  have said : Says word x.toModel.unpack := says_unpack word
  rw [ofFloat_eq, same, ← isNegative_signOf]
  generalize x.toModel.unpack = fields at said
  cases said with
  | infinity top blank =>
    rw [if_pos top, if_pos blank]
    rfl
  | notANumber top filled =>
    rw [if_pos top, if_neg filled]
    rfl
  | zero bottom blank =>
    rw [if_neg (by omega), if_pos bottom, blank]
    rfl
  | subnormal bottom =>
    rw [if_neg (by omega), if_pos bottom]
    rfl
  | normal notTop notBottom =>
    rw [if_neg notTop, if_neg notBottom, Nat.add_comm]
    rfl

/-! ## One double for a worth -/

/-- Mantissas and exponents as they are read from words. -/
structure IsCanonical (mantissa : Nat) (exponent : Int) : Prop where
  short : mantissa < 2 ^ 53
  least : leastExponent ≤ exponent
  most : exponent ≤ 971
  leading : 2 ^ 52 ≤ mantissa ∨ exponent = leastExponent

/-- Mantissa and exponent of a finite double are as they are read from words. -/
theorem isCanonical_of_ofFloat {x : Float} {negative : Bool} {mantissa : Nat} {exponent : Int}
    (read : ofFloat x = .finite negative mantissa exponent) : IsCanonical mantissa exponent := by
  have least : leastExponent = -1074 := rfl
  rw [ofFloat_eq] at read
  split at read
  · split at read <;> cases read
  · split at read
    · cases read
      exact ⟨by omega, by omega, by omega, .inr rfl⟩
    · cases read
      exact ⟨by omega, by omega, by omega, .inl (by omega)⟩

private theorem eq_mul_of_same_worth {s s' e e' : Int} (same : (s : ℚ) * 2 ^ e = s' * 2 ^ e')
    (ordered : e ≤ e') : s = s' * 2 ^ (e' - e).toNat := by
  have raised : (2 : ℚ) ^ e' = 2 ^ (e' - e).toNat * 2 ^ e := by
    rw [← zpow_natCast, Int.toNat_of_nonneg (by omega), ← zpow_add₀ two_ne_zero]
    congr 1
    omega
  rw [raised, ← mul_assoc] at same
  have equal := mul_right_cancel₀ (zpow_ne_zero e two_ne_zero) same
  exact_mod_cast equal

/-- Of two doubles that are worth the same, none has the smaller exponent: the other one would have
a mantissa of all bits, and this one a longer one. -/
theorem not_lt_of_same_worth {negative negative' : Bool} {m m' : Nat} {e e' : Int}
    (canonical : IsCanonical m e) (canonical' : IsCanonical m' e')
    (same : (signed negative m : ℚ) * 2 ^ e = signed negative' m' * 2 ^ e') : ¬ e < e' := by
  intro below
  have scaled := congrArg Int.natAbs (eq_mul_of_same_worth same below.le)
  rw [Int.natAbs_mul, natAbs_signed, natAbs_signed, Int.natAbs_pow] at scaled
  obtain ⟨places, raised⟩ : ∃ places, (e' - e).toNat = places + 1 :=
    Nat.exists_eq_succ_of_ne_zero (by omega)
  have full : 2 ^ 52 ≤ m' := by
    rcases canonical'.leading with full | least
    · exact full
    · have low := canonical.least
      omega
  have long : m' * 2 ≤ m := by
    rw [scaled, raised, pow_succ']
    exact Nat.mul_le_mul_left _ (Nat.le_mul_of_pos_right 2 (Nat.two_pow_pos places))
  have short := canonical.short
  omega

private theorem signed_inj {negative negative' : Bool} {m m' : Nat} (nonzero : m ≠ 0)
    (same : signed negative m = signed negative' m') : negative = negative' ∧ m = m' := by
  have magnitude := congrArg Int.natAbs same
  rw [natAbs_signed, natAbs_signed] at magnitude
  subst magnitude
  refine ⟨?_, rfl⟩
  cases negative <;> cases negative' <;> simp [signed] at same ⊢
  · omega
  · omega

private theorem finite_eq_of_same_worth {negative negative' : Bool} {m m' : Nat} {e e' : Int}
    (canonical : IsCanonical m e) (canonical' : IsCanonical m' e') (nonzero : m ≠ 0)
    (same : (signed negative m : ℚ) * 2 ^ e = signed negative' m' * 2 ^ e') :
    negative = negative' ∧ m = m' ∧ e = e' := by
  obtain rfl : e = e' := le_antisymm
    (not_lt.mp (not_lt_of_same_worth canonical' canonical same.symm))
    (not_lt.mp (not_lt_of_same_worth canonical canonical' same))
  have equal := mul_right_cancel₀ (zpow_ne_zero e two_ne_zero) same
  obtain ⟨sign, magnitude⟩ := signed_inj nonzero (Int.cast_inj.mp equal)
  exact ⟨sign, magnitude, rfl⟩

/-- Two doubles are read alike if they are worth the same and not zero. -/
theorem ofFloat_eq_of_worth_eq {x y : Float} {w : Worth} (left : (ofFloat x).worth? = some w)
    (right : (ofFloat y).worth? = some w) (nonzero : w ≠ .finite 0) : ofFloat x = ofFloat y := by
  cases w with
  | infinite negative => rw [worth?_eq_infinite.mp left, worth?_eq_infinite.mp right]
  | finite q =>
    obtain ⟨negative, m, e, first, rfl⟩ := worth?_eq_finite.mp left
    obtain ⟨negative', m', e', second, same⟩ := worth?_eq_finite.mp right
    have occupied : m ≠ 0 := by
      rintro rfl
      apply nonzero
      simp
    obtain ⟨rfl, rfl, rfl⟩ := finite_eq_of_same_worth (isCanonical_of_ofFloat first)
      (isCanonical_of_ofFloat second) occupied same.symm
    rw [first, second]

private theorem ofFields_injective {x y : UnpackedFloat} (same : ofFields x = ofFields y) :
    x = y := by
  rcases x with ⟨⟨⟩⟩ | _ | ⟨⟨⟩⟩ | ⟨⟨⟩, m, e, _⟩ <;>
    rcases y with ⟨⟨⟩⟩ | _ | ⟨⟨⟩⟩ | ⟨⟨⟩, m', e', _⟩ <;>
    first
    | rfl
    | dsimp only [ofFields, isNegative] at same
      simp at same
  -- What is left is of one sign: two finite doubles, or one and a zero, which has no mantissa.
  all_goals
    first
    | exact finite_congr _ rfl same.1 same.2
    | omega

/-- The fields of a double that is worth something are those of a number. -/
theorem unpack_ne_of_worth {x : Float} {w : Worth} (number : (ofFloat x).worth? = some w) :
    x.toModel.unpack ≠ .notANumber := by
  intro unread
  rw [ofFloat_eq_ofFields, unread] at number
  cases number

/-- Doubles other than zero that are worth the same have the same bits. -/
theorem toBits_eq_of_worth_eq {x y : Float} {w : Worth} (left : (ofFloat x).worth? = some w)
    (right : (ofFloat y).worth? = some w) (nonzero : w ≠ .finite 0) : x.toBits = y.toBits := by
  have read := ofFloat_eq_of_worth_eq left right nonzero
  rw [ofFloat_eq_ofFields, ofFloat_eq_ofFields] at read
  have fields : UnpackedFloat.unpack .binary64 x.toModel.toBits.toBitVec =
      UnpackedFloat.unpack .binary64 y.toModel.toBits.toBitVec := ofFields_injective read
  have word := pack_unpack (unpack_ne_of_worth left)
  rw [fields, pack_unpack (unpack_ne_of_worth right)] at word
  exact UInt64.toBitVec_inj.mp word.symm

/-- Equal doubles have the same fields, or are both zeros. -/
theorem beq_eq_true_iff {x y : UnpackedFloat} (left : x ≠ .notANumber) :
    x.beq y = true ↔ x = y ∨ ∃ first second, x = .zero first ∧ y = .zero second := by
  change (x.compare y == some .eq) = true ↔ _
  constructor
  · intro same
    rcases x with ⟨⟨⟩⟩ | _ | ⟨⟨⟩⟩ | ⟨⟨⟩, m, e, _⟩ <;>
      rcases y with ⟨⟨⟩⟩ | _ | ⟨⟨⟩⟩ | ⟨⟨⟩, m', e', _⟩ <;>
      first
      | exact absurd rfl left
      | exact .inl rfl
      | exact .inr ⟨_, _, rfl, rfl⟩
      | dsimp only [UnpackedFloat.compare] at same
        simp at same
    all_goals exact .inl (finite_congr _ rfl same.2 same.1)
  · intro either
    rcases either with rfl | ⟨first, second, rfl, rfl⟩
    · cases x with
      | notANumber => exact absurd rfl left
      | infinity sign => cases sign <;> rfl
      | zero sign => rfl
      | finite sign m e positive =>
        cases sign <;> dsimp only [UnpackedFloat.compare] <;> simp
    · rfl

private theorem unpack_eq_zero_of_worth {x : Float} (zero : (ofFloat x).worth? = some (.finite 0)) :
    ∃ sign, x.toModel.unpack = .zero sign := by
  rw [ofFloat_eq_ofFields] at zero
  cases fields : x.toModel.unpack with
  | zero sign => exact ⟨sign, rfl⟩
  | notANumber =>
    rw [fields] at zero
    cases zero
  | infinity sign =>
    rw [fields] at zero
    cases zero
  | finite sign mantissa exponent positive =>
    rw [fields] at zero
    obtain ⟨_, _, _, ⟨⟩, vanishes⟩ := worth?_eq_finite.mp zero
    have factor := (mul_eq_zero_iff_right (zpow_ne_zero exponent two_ne_zero)).mp vanishes
    have magnitude := congrArg Int.natAbs (Int.cast_eq_zero.mp factor)
    rw [natAbs_signed] at magnitude
    exact absurd magnitude positive.ne'

/-- Doubles are equal exactly if they are worth the same. -/
theorem beq_iff_worth_eq {x y : Float} {w w' : Worth} (left : (ofFloat x).worth? = some w)
    (right : (ofFloat y).worth? = some w') : (x == y) = true ↔ w = w' := by
  change x.toModel.unpack.beq y.toModel.unpack = true ↔ _
  rw [beq_eq_true_iff (unpack_ne_of_worth left)]
  constructor
  · rw [ofFloat_eq_ofFields] at left right
    rintro (same | ⟨first, second, zero, zero'⟩)
    · rw [same] at left
      exact Option.some.inj (left.symm.trans right)
    · rw [zero] at left
      rw [zero'] at right
      cases left
      cases right
      simp
  · rintro rfl
    by_cases zero : w = .finite 0
    · subst zero
      obtain ⟨first, fields⟩ := unpack_eq_zero_of_worth left
      obtain ⟨second, fields'⟩ := unpack_eq_zero_of_worth right
      exact .inr ⟨first, second, fields, fields'⟩
    · left
      have read := ofFloat_eq_of_worth_eq left right zero
      rw [ofFloat_eq_ofFields, ofFloat_eq_ofFields] at read
      exact ofFields_injective read

/-! ## Whole numbers -/

/-- The bits of the double nearest to a whole number are kept as they were rounded. -/
theorem toBits_nearest_whole (i : Int) :
    (nearest i 1).toBits.toNat = nearestBits (decide (i < 0)) i.natAbs 1 := by
  obtain ⟨bound, low, -⟩ := nearestBits_whole i
  rw [nearest_one]
  exact (congrArg BitVec.toNat (toBitVec_toBits_ofBits bound low)).trans (Nat.mod_eq_of_lt bound)

private theorem ofFloat_normal {x : Float} {negative : Bool} {mantissa biased : Nat}
    (bits : x.toBits.toNat =
      (if negative then 2 ^ 63 else 0) + (biased * 2 ^ 52 + (mantissa - 2 ^ 52)))
    (low : 0 < biased) (high : biased < 2047) (leading : 2 ^ 52 ≤ mantissa)
    (short : mantissa < 2 ^ 53) :
    ofFloat x = .finite negative mantissa (biased - 1075) := by
  have sign : decide (2 ^ 63 ≤ x.toBits.toNat) = negative := by
    cases negative <;> simp at bits ⊢ <;> omega
  have exponent : x.toBits.toNat / 2 ^ 52 % 2 ^ 11 = biased := by
    split at bits <;> omega
  have fraction : x.toBits.toNat % 2 ^ 52 + 2 ^ 52 = mantissa := by
    split at bits <;> omega
  rw [ofFloat_eq, exponent, if_neg high.ne, if_neg low.ne', sign, fraction]

private theorem nearest_of_dvd {numerator denominator : Nat} (exact : denominator ∣ numerator) :
    Rounding.nearest numerator denominator = numerator / denominator := by
  unfold Rounding.nearest
  rw [Nat.mod_eq_zero_of_dvd exact]
  grind

private theorem log2_lt_of_short {count m k : Nat} (nonzero : count ≠ 0) (bits : count = m * 2 ^ k)
    (short : m < 2 ^ 53) : count.log2 < 53 + k := by
  rw [Nat.log2_lt nonzero, bits, Nat.pow_add]
  exact Nat.mul_lt_mul_of_pos_right short (Nat.two_pow_pos k)

/-- A whole number with few bits before its zero bits is not rounded. -/
theorem leadingBits_mul {count m k : Nat} (nonzero : count ≠ 0) (bits : count = m * 2 ^ k)
    (short : m < 2 ^ 53) : leadingBits count * 2 ^ count.log2 = count * 2 ^ 52 := by
  have within := log2_lt_of_short nonzero bits short
  have exact : 2 ^ (count.log2 - 52) ∣ count * 2 ^ (52 - count.log2) :=
    ((Nat.pow_dvd_pow 2 (by omega)).trans (Dvd.intro_left m bits.symm)).mul_right _
  have unrounded : leadingBits count * 2 ^ (count.log2 - 52) = count * 2 ^ (52 - count.log2) := by
    rw [leadingBits, nearest_of_dvd exact, Nat.div_mul_cancel exact]
  calc leadingBits count * 2 ^ count.log2
      = leadingBits count * 2 ^ (count.log2 - 52) * 2 ^ min count.log2 52 := by
        rw [Nat.mul_assoc, ← Nat.pow_add]
        congr 2
        omega
    _ = count * 2 ^ 52 := by
        rw [unrounded, Nat.mul_assoc, ← Nat.pow_add]
        congr 2
        omega

private theorem leadingBits_lt {count : Nat}
    (scaled : leadingBits count * 2 ^ count.log2 = count * 2 ^ 52) :
    leadingBits count < 2 ^ 53 := by
  have upper : count < 2 ^ (count.log2 + 1) := Nat.lt_log2_self
  apply Nat.lt_of_mul_lt_mul_right (a := 2 ^ count.log2)
  calc leadingBits count * 2 ^ count.log2
      = count * 2 ^ 52 := scaled
    _ < 2 ^ (count.log2 + 1) * 2 ^ 52 := Nat.mul_lt_mul_of_pos_right upper (Nat.two_pow_pos 52)
    _ = 2 ^ 53 * 2 ^ count.log2 := by
        rw [← Nat.pow_add, ← Nat.pow_add]
        congr 1
        omega

/-- The double nearest to a whole number that is not rounded up to the next power of two. -/
theorem ofFloat_nearest_whole {i : Int} (occupied : i ≠ 0) (full : leadingBits i.natAbs < 2 ^ 53)
    (length : i.natAbs.log2 < 1024) : ofFloat (nearest i 1) =
      .finite (decide (i < 0)) (leadingBits i.natAbs) (i.natAbs.log2 - 52) := by
  have nonzero : i.natAbs ≠ 0 := Int.natAbs_ne_zero.mpr occupied
  have leading := (leadingBits_mem_Icc nonzero).1
  have biased : ((i.natAbs.log2 : Int) - 52 + 1075).toNat = i.natAbs.log2 + 1023 := by omega
  have word := toBits_nearest_whole i
  rw [nearestBits_one _ nonzero, packed_of_leading _ leading, biased,
    Nat.min_eq_left (by omega)] at word
  have exponent : ((i.natAbs.log2 + 1023 : Nat) : Int) - 1075 = i.natAbs.log2 - 52 := by omega
  rw [ofFloat_normal word (by omega) (by omega) leading full, exponent]

/-- A whole number in range that has few bits before its zero bits is a double. -/
theorem worth_nearest_whole {i : Int} {m k : Nat} (bits : i.natAbs = m * 2 ^ k)
    (short : m < 2 ^ 53) (inRange : k ≤ 971) :
    (ofFloat (nearest i 1)).worth? = some (.finite i) := by
  by_cases zero : i = 0
  · subst zero
    have read : ofFloat (nearest 0 1) = .finite false 0 leastExponent := by decide
    simp [read, worth?]
  · have occupied : i.natAbs ≠ 0 := Int.natAbs_ne_zero.mpr zero
    have scaled := leadingBits_mul occupied bits short
    have length := log2_lt_of_short occupied bits short
    have read := ofFloat_nearest_whole zero (leadingBits_lt scaled) (by omega)
    refine worth?_eq_finite.mpr ⟨_, _, _, read, ?_⟩
    have unscaled : (leadingBits i.natAbs : ℚ) * 2 ^ ((i.natAbs.log2 : Int) - 52) = i.natAbs := by
      rw [zpow_sub₀ two_ne_zero, zpow_natCast, mul_div_assoc']
      exact (div_eq_iff (by positivity)).mpr (by exact_mod_cast scaled)
    rw [signed_mul_eq unscaled, signed_natAbs]

/-- The whole part of a double is a whole number that is not rounded. -/
theorem worth_nearest_of_whole {x : Float} {i : Int} (whole : (ofFloat x).whole? = some i) :
    (ofFloat (nearest i 1)).worth? = some (.finite i) := by
  cases read : ofFloat x with
  | nan => simp [read, whole?] at whole
  | infinite negative => simp [read, whole?] at whole
  | finite negative mantissa exponent =>
    obtain ⟨short, -, most, -⟩ := isCanonical_of_ofFloat read
    rw [read, whole?_finite, Option.some.injEq] at whole
    have magnitude := congrArg Int.natAbs whole.symm
    rw [natAbs_signed] at magnitude
    split at magnitude
    · exact worth_nearest_whole magnitude short (by omega)
    · refine worth_nearest_whole (k := 0) (by rw [magnitude, Nat.pow_zero, Nat.mul_one])
        ((Nat.div_le_self _ _).trans_lt short) (Nat.zero_le _)

/-- A double that is worth a whole number has this number as its whole part. -/
theorem whole_of_worth {x : Double} {i : Int} (worth : x.worth? = some (.finite i)) :
    x.whole? = some i := by
  obtain ⟨negative, m, e, rfl, same⟩ := worth?_eq_finite.mp worth
  have level : (signed negative m : ℚ) * 2 ^ e = i * 2 ^ (0 : Int) := by simpa using same
  rw [whole?_finite, Option.some.injEq]
  split
  · next raised =>
    have scaled := eq_mul_of_same_worth level.symm raised
    rw [Int.sub_zero] at scaled
    rw [signed_mul, scaled]
    push_cast
    rfl
  · next lowered =>
    have scaled := eq_mul_of_same_worth level (by omega)
    rw [Int.zero_sub] at scaled
    rw [signed_div, scaled]
    push_cast
    exact Int.mul_tdiv_cancel i (pow_ne_zero _ two_ne_zero)

end Double

namespace Binary64

/-- A double is worth something unless it is no number. -/
theorem exists_worth_iff {x : Binary64} :
    (∃ w, (Double.ofFloat x.value).worth? = some w) ↔ Arithmetic.isNaN x = false := by
  change _ ↔ x.value.toModel.unpack.isNaN = false
  rw [Double.ofFloat_eq_ofFields]
  cases x.value.toModel.unpack with
  | notANumber =>
    constructor
    · intro ⟨w, worth⟩
      cases worth
    · intro number
      cases number
  | _ => exact ⟨fun _ => rfl, fun _ => ⟨_, rfl⟩⟩

/-- A double is found to be a whole number exactly if it is worth one. -/
theorem integer?_eq_some_iff {x : Binary64} {w : Worth}
    (worth : (Double.ofFloat x.value).worth? = some w) (i : Int) :
    Arithmetic.integer? x = some i ↔ w = .finite i := by
  have equal {whole : Int} (part : Arithmetic.whole? x = some whole) :
      Arithmetic.equal x (Arithmetic.ofInt whole) = true ↔ w = .finite whole :=
    Double.beq_iff_worth_eq worth (Double.worth_nearest_of_whole part)
  constructor
  · intro found
    unfold Arithmetic.integer? at found
    split at found
    · next whole part =>
      split at found
      · next same =>
        cases found
        exact (equal part).mp same
      · cases found
    · cases found
  · rintro rfl
    have part : Arithmetic.whole? x = some i := Double.whole_of_worth worth
    simp only [Arithmetic.integer?, part, (equal part).mpr rfl, ↓reduceIte]

end Binary64

end SourceMetrics
