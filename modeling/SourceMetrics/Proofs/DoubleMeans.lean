import SourceMetrics.Proofs.DoubleOrder
import SourceMetrics.Proofs.WholeMeans

/-! # Means and shares in doubles

A whole number that fits into a word is a normal double (`Double.wholeFields_eq_normal`): its
mantissa has all fifty-three bits, and its exponent is far from both ends of the range. Adding such
a double to itself raises the exponent and dividing it by a power of two lowers it, and in both
cases all that is rounded away is a zero bit. So the mean of a whole number with itself is that
number again (`Double.halve_whole`), and medians of equal numbers are exact
(`Arithmetic.AveragesWholes`).

The share of a count in a limit has at most one bit before its point, so it is no infinite value
(`Double.nearestBits_share`, `Arithmetic.HoldsShares`).
-/

namespace SourceMetrics

namespace Double

open Float.Model Float.Model.UnpackedFloat

/-- A word is the sum of its fields at their places. -/
theorem toNat_packComponents (sign : Sign) (exponent : BitVec 11) (mantissa : BitVec 52) :
    (packComponents .binary64 sign exponent mantissa).toNat =
      sign.toBitVec.toNat * 2 ^ 63 + exponent.toNat * 2 ^ 52 + mantissa.toNat := by
  rw [packComponents, toNat_append_eq, toNat_append_eq]
  omega

/-- The sign that is packed into a word is the one it says. -/
theorem signOf_packComponents (sign : Sign) (exponent : BitVec 11) (mantissa : BitVec 52) :
    signOf (packComponents .binary64 sign exponent mantissa) = sign := by
  have bit : unpackSign (packComponents .binary64 sign exponent mantissa) = sign.toBitVec := by
    have small := exponent.isLt
    have smaller := mantissa.isLt
    apply BitVec.eq_of_toNat_eq
    rw [toNat_unpackSign, toNat_packComponents]
    omega
  rw [signOf, bit]
  cases sign <;> rfl

/-- A magnitude is rounded to fifty-three bits, but not below the least exponent. -/
theorem targetExponent_eq (total : Int) :
    Format.binary64.targetExponent total = max (total - 53) (-1074) := rfl

/-- What is rounded is brought to its exponent, rounded there, and brought to its exponent again. -/
theorem roundWithAccuracy_eq (sign : Sign) {magnitude : Nat} {exponent target final : Int}
    {extended last : ExtendedMantissa}
    (shifted : shiftToTargetExponent .binary64 magnitude exponent .exact = (extended, target))
    (again : shiftToTargetExponent .binary64 extended.roundedMantissa target .exact = (last, final))
    (positive : 0 < last.mantissa) :
    roundWithAccuracy .binary64 sign magnitude exponent .exact =
      .finite sign last.mantissa final positive := by
  unfold roundWithAccuracy
  rw [shifted]
  dsimp only
  rw [again]
  exact dif_neg positive.ne'

/-- Where the exponent is not above its target, rounding starts without a shift. -/
theorem round_of_raised (sign : Sign) {magnitude : Nat} {exponent : Int}
    (raised : exponent ≤ Format.binary64.targetExponent (totalExponent magnitude exponent)) :
    UnpackedFloat.round .binary64 sign magnitude exponent =
      roundWithAccuracy .binary64 sign magnitude exponent .exact := by
  have unshifted : (exponent - Format.binary64.targetExponent
      (totalExponent magnitude exponent)).toNat = 0 := by omega
  simp only [UnpackedFloat.round, decreaseExponent, unshifted, Nat.shiftLeft_zero, Int.natCast_zero,
    Int.sub_zero]

/-- Finite doubles of one sign are added by rounding the sum of their mantissas. -/
theorem add_finite (sign : Sign) {m m' : Nat} {e e' : Int} (positive : 0 < m) (positive' : 0 < m') :
    UnpackedFloat.add .binary64 (.finite sign m e positive) (.finite sign m' e' positive') =
      UnpackedFloat.round .binary64 sign
        (m * 2 ^ (e - min e e').toNat + m' * 2 ^ (e' - min e e').toNat) (min e e') := by
  have left := Nat.mul_pos positive (Nat.two_pow_pos (e - min e e').toNat)
  change UnpackedFloat.normalize .binary64 (sign.apply ↑(m <<< (e - min e e').toNat) +
    sign.apply ↑(m' <<< (e' - min e e').toNat)) (min e e') .positive = _
  rw [Nat.shiftLeft_eq, Nat.shiftLeft_eq]
  generalize m * 2 ^ (e - min e e').toNat = first at *
  generalize m' * 2 ^ (e' - min e e').toNat = second at *
  cases sign with
  | positive =>
    have above : compare ((first : Int) + second) 0 = .gt := compare_gt_iff_gt.mpr (by omega)
    have whole : ((first : Int) + second).toNat = first + second := by omega
    simp only [Sign.apply, UnpackedFloat.normalize, above, whole]
  | negative =>
    have below : compare (-(first : Int) + -second) 0 = .lt := compare_lt_iff_lt.mpr (by omega)
    have whole : (-(-(first : Int) + -second)).toNat = first + second := by omega
    simp only [Sign.apply, UnpackedFloat.normalize, below, whole]

section Normal

variable {mantissa : Nat} (lower : 2 ^ 52 ≤ mantissa) (upper : mantissa < 2 ^ 53)

include lower upper

private theorem log2_normal : mantissa.log2 = 52 := by
  have positive : mantissa ≠ 0 := by omega
  have least := (Nat.le_log2 positive).mpr lower
  have most := (Nat.log2_lt positive).mpr upper
  omega

private theorem targetExponent_double {exponent : Int} (inRange : -1075 ≤ exponent) :
    Format.binary64.targetExponent (totalExponent (2 * mantissa) exponent) = exponent + 1 := by
  have nonzero : mantissa ≠ 0 := by omega
  rw [targetExponent_eq, totalExponent, Nat.log2_two_mul nonzero, log2_normal lower upper]
  omega

variable (sign : Sign) (positive : 0 < mantissa)

/-- A normal double is packed into a word that says it. -/
theorem unpack_pack_normal {biased : Nat} (low : 0 < biased) (high : biased < 2047) :
    UnpackedFloat.unpack .binary64
        (UnpackedFloat.pack .binary64 (.finite sign mantissa (biased - 1075) positive)) =
      .finite sign mantissa (biased - 1075) positive := by
  rw [pack_normal sign positive lower upper high]
  have packed := toNat_packComponents sign (BitVec.ofNat 11 biased) (BitVec.ofNat 52 mantissa)
  rw [BitVec.toNat_ofNat, BitVec.toNat_ofNat] at packed
  have exponent : (packComponents .binary64 sign (BitVec.ofNat 11 biased)
      (BitVec.ofNat 52 mantissa)).toNat / 2 ^ 52 % 2 ^ 11 = biased := by omega
  rw [unpack_normal (by omega) (by omega)]
  exact finite_congr _ (signOf_packComponents _ _ _) (by omega) (by rw [exponent])

/-- Twice a mantissa is one place too long, and rounding drops a zero. -/
theorem roundWithAccuracy_double {exponent : Int} (inRange : -1075 ≤ exponent) :
    roundWithAccuracy .binary64 sign (2 * mantissa) exponent .exact =
      .finite sign mantissa (exponent + 1) positive := by
  have first := targetExponent_double lower upper inRange
  have second : Format.binary64.targetExponent (totalExponent mantissa (exponent + 1)) -
      (exponent + 1) = 0 := by
    rw [targetExponent_eq, totalExponent, log2_normal lower upper]
    omega
  have shifted : shiftToTargetExponent .binary64 (2 * mantissa) exponent .exact =
      (⟨mantissa, false, false⟩, exponent + 1) := by
    rw [shiftToTargetExponent, shiftToExponent, first, add_sub_cancel_left]
    change (ExtendedMantissa.shiftRightOne ⟨2 * mantissa, false, false⟩, exponent + 1) = _
    simp [ExtendedMantissa.shiftRightOne]
  have again : shiftToTargetExponent .binary64 mantissa (exponent + 1) .exact =
      (⟨mantissa, false, false⟩, exponent + 1) := by
    simp only [shiftToTargetExponent, shiftToExponent, second, Int.toNat_zero, Int.natCast_zero,
      Int.add_zero]
    rfl
  exact roundWithAccuracy_eq sign shifted again positive

/-- A normal double is added to itself by raising its exponent. -/
theorem add_self_normal {exponent : Int} (inRange : -1075 ≤ exponent) :
    UnpackedFloat.add .binary64 (.finite sign mantissa exponent positive)
        (.finite sign mantissa exponent positive) =
      .finite sign mantissa (exponent + 1) positive := by
  have raised :
      exponent ≤ Format.binary64.targetExponent (totalExponent (2 * mantissa) exponent) := by
    rw [targetExponent_double lower upper inRange]
    omega
  rw [add_finite, min_self, sub_self, Int.toNat_zero, Nat.pow_zero, Nat.mul_one, ← Nat.two_mul,
    round_of_raised sign raised]
  exact roundWithAccuracy_double lower upper sign positive inRange

/-- Dividing a normal double by a power of two lowers its exponent. -/
theorem div_normal {unit : Nat} (single : unit = 2 ^ 52) (occupied : 0 < unit)
    {exponent power : Int} (inRange : -1021 ≤ exponent - power) :
    UnpackedFloat.div .binary64 (.finite sign mantissa exponent positive)
        (.finite .positive unit power occupied) =
      .finite sign mantissa (exponent - power - 53 + 1) positive := by
  have target : min (exponent - power) (Format.binary64.targetExponent
      (totalExponent mantissa exponent - totalExponent unit power)) = exponent - power - 53 := by
    have bits : unit.log2 = 52 := by rw [single, Nat.log2_two_pow]
    rw [targetExponent_eq, totalExponent, totalExponent, log2_normal lower upper, bits]
    omega
  have shift : (exponent - power - (exponent - power - 53)).toNat = 53 := by omega
  have shifted : mantissa <<< 53 = unit * (2 * mantissa) := by
    rw [Nat.shiftLeft_eq, single]
    omega
  have unsigned : sign / Sign.positive = sign := by
    cases sign <;> rfl
  have quotient : divCore .binary64 mantissa exponent unit power =
      (2 * mantissa, exponent - power - 53, .exact) := by
    simp only [divCore, target, shift, shifted, accuracyOfFraction, Nat.mul_mod_right,
      Nat.mul_div_cancel_left _ occupied, ↓reduceIte]
  let core := divCore .binary64 mantissa exponent unit power
  change roundWithAccuracy .binary64 (sign / Sign.positive) core.1 core.2.1 core.2.2 = _
  rw [show core = _ from quotient, unsigned]
  have low : -1075 ≤ exponent - power - 53 := by omega
  exact roundWithAccuracy_double lower upper sign positive low

end Normal

/-! ## Whole numbers -/

/-- A word whose magnitude is below that of the infinite values is none of them. -/
theorem isInf_unpack {word : BitVec Format.binary64.numBits}
    (low : word.toNat % 2 ^ 63 < 2047 * 2 ^ 52) :
    (UnpackedFloat.unpack .binary64 word).isInf = false := by
  have said := says_unpack word
  generalize UnpackedFloat.unpack .binary64 word = fields at said
  cases said with
  | infinity top => omega
  | _ => rfl

/-- The word of a mantissa with its leading bit, which the word leaves out. -/
theorem packed_of_leading (negative : Bool) {mantissa : Nat} (leading : 2 ^ 52 ≤ mantissa)
    (exponent : Int) :
    packed negative mantissa exponent = (if negative then 2 ^ 63 else 0) +
      min ((exponent + 1075).toNat * 2 ^ 52 + (mantissa - 2 ^ 52)) (2047 * 2 ^ 52) := by
  simp only [packed, leastNormal, powerOfTwo, Nat.pow_eq, Nat.not_lt.mpr leading, ↓reduceIte]
  cases negative
  · simp only [Bool.false_eq_true, ↓reduceIte, Nat.zero_add]
  · simp only [↓reduceIte]

/-- A whole number that fits into a word is a normal double, unless it is zero. -/
theorem wholeFields_eq_normal {i : Int} (nonzero : i ≠ 0) (isWord : i.natAbs ≤ 2 ^ 63) :
    ∃ sign mantissa positive, ∃ biased : Nat, 2 ^ 52 ≤ mantissa ∧ mantissa < 2 ^ 53 ∧
      1023 ≤ biased ∧ biased ≤ 1087 ∧
      wholeFields i = .finite sign mantissa (biased - 1075) positive := by
  obtain ⟨word, bits, fields, -⟩ := exists_word_whole i
  obtain ⟨lower, upper⟩ := leadingBits_mem_Icc (Int.natAbs_ne_zero.mpr nonzero)
  have length : i.natAbs.log2 < 64 :=
    (Nat.log2_lt (Int.natAbs_ne_zero.mpr nonzero)).mpr (by omega)
  rw [nearestBits_one _ (Int.natAbs_ne_zero.mpr nonzero), packed_of_leading _ lower] at bits
  have between : 1023 ≤ word.toNat / 2 ^ 52 % 2 ^ 11 ∧ word.toNat / 2 ^ 52 % 2 ^ 11 ≤ 1087 := by
    split at bits <;> omega
  have low : word.toNat / 2 ^ 52 % 2 ^ 11 ≠ 0 := by omega
  have high : word.toNat / 2 ^ 52 % 2 ^ 11 ≠ 2047 := by omega
  exact ⟨_, _, _, _, by omega, by omega, between.1, between.2,
    fields.trans (unpack_normal low high)⟩

/-! ## Means and shares -/

private theorem add_zero_whole (i : Int) : Float.add (nearest 0 1) (nearest i 1) = nearest i 1 := by
  obtain ⟨number, unsigned, packed⟩ := wholeFields_eq i
  have sum : UnpackedFloat.add .binary64 (.zero .positive) (wholeFields i) = wholeFields i := by
    cases found : wholeFields i with
    | notANumber => exact absurd found number
    | infinity sign => rfl
    | zero sign =>
      rw [unsigned sign found]
      rfl
    | finite sign mantissa exponent positive => rfl
  conv_rhs => rw [packed, ← sum]
  rfl

private theorem wholeFields_one :
    wholeFields 1 = .finite .positive (2 ^ 52) (-52) (Nat.two_pow_pos 52) := rfl

private theorem wholeFields_two :
    wholeFields 2 = .finite .positive (2 ^ 52) (-51) (Nat.two_pow_pos 52) := rfl

private theorem div_one_whole {i : Int} (isWord : i.natAbs ≤ 2 ^ 63) :
    Float.div (nearest i 1) (nearest 1 1) = nearest i 1 := by
  by_cases zero : i = 0
  · subst zero
    rfl
  · obtain ⟨sign, mantissa, positive, biased, lower, upper, low, high, fields⟩ :=
      wholeFields_eq_normal zero isWord
    have quotient :
        UnpackedFloat.div .binary64 (wholeFields i) (wholeFields 1) = wholeFields i := by
      rw [fields, wholeFields_one, div_normal lower upper sign positive rfl _ (by omega)]
      congr 1
      omega
    conv_rhs => rw [(wholeFields_eq i).2.2, ← quotient]
    rfl

/-- Twice a whole number is halved to the number itself. -/
theorem halve_whole {i : Int} (isWord : i.natAbs ≤ 2 ^ 63) :
    Float.div (Float.add (nearest i 1) (nearest i 1)) (nearest 2 1) = nearest i 1 := by
  by_cases zero : i = 0
  · subst zero
    rfl
  · obtain ⟨sign, mantissa, positive, biased, lower, upper, low, high, fields⟩ :=
      wholeFields_eq_normal zero isWord
    have sum : (Float.add (nearest i 1) (nearest i 1)).toModel.unpack =
        .finite sign mantissa ((biased + 1 : Nat) - 1075) positive := by
      change UnpackedFloat.unpack .binary64 (UnpackedFloat.pack .binary64
        (UnpackedFloat.add .binary64 (wholeFields i) (wholeFields i))) = _
      have raised : (biased : Int) - 1075 + 1 = (biased + 1 : Nat) - 1075 := by omega
      rw [fields, add_self_normal lower upper sign positive (by omega), raised,
        unpack_pack_normal lower upper sign positive (by omega) (by omega)]
    have quotient : UnpackedFloat.div .binary64
        (Float.add (nearest i 1) (nearest i 1)).toModel.unpack (wholeFields 2) =
          wholeFields i := by
      rw [sum, fields, wholeFields_two, div_normal lower upper sign positive rfl _ (by omega)]
      congr 1
      omega
    conv_rhs => rw [(wholeFields_eq i).2.2, ← quotient]
    rfl

private theorem packed_le {mantissa : Nat} (short : mantissa ≤ 2 ^ 53) {exponent : Int}
    (small : exponent ≤ -52) : packed false mantissa exponent ≤ 1024 * 2 ^ 52 := by
  simp only [packed, leastNormal, powerOfTwo, Nat.pow_eq, Bool.false_eq_true, ↓reduceIte]
  apply (min_le_left _ _).trans
  by_cases subnormal : mantissa < 2 ^ 52
  · simp only [subnormal, ↓reduceIte]
    omega
  · simp only [subnormal, ↓reduceIte]
    omega

/-- A share has no more than one bit before its point, and so it is far from the infinite value. -/
theorem nearestBits_share {count limit : Nat} (fits : count ≤ limit) :
    nearestBits false count limit ≤ 1024 * 2 ^ 52 := by
  unfold nearestBits
  by_cases empty : count = 0
  · rw [if_pos empty]
    decide
  rw [if_neg empty]
  extract_lets spread reaches leading exponent mantissa
  have ordered : count.log2 ≤ limit.log2 :=
    (Nat.le_log2 (by omega)).mpr ((Nat.log2_self_le empty).trans fits)
  obtain ⟨gap, wide⟩ := Nat.exists_eq_add_of_le ordered
  have apart : spread = -(gap : Int) := by
    simp only [spread, wide]
    omega
  have scaled : count * 2 ^ gap < 2 * limit := by
    calc count * 2 ^ gap
        < 2 ^ (count.log2 + 1) * 2 ^ gap :=
          Nat.mul_lt_mul_of_pos_right Nat.lt_log2_self (Nat.two_pow_pos gap)
      _ = 2 * 2 ^ limit.log2 := by
          rw [wide]
          ring
      _ ≤ 2 * limit := Nat.mul_le_mul_left 2 (Nat.log2_self_le (by omega))
  have unreached (not : ¬ reaches) : count * 2 ^ gap < limit := by
    apply Nat.lt_of_not_le
    intro covers
    apply not
    simp only [reaches, apart]
    split
    · next level =>
      have noGap : gap = 0 := by omega
      simpa [noGap, powerOfTwo] using covers
    · rwa [Int.neg_neg, Int.toNat_natCast]
  -- The exponent is at most 52 places below the leading bit of the share.
  have bounded : count * 2 ^ (-exponent).toNat < 2 ^ 53 * limit := by
    by_cases reached : reaches
    · have places : (-exponent).toNat ≤ gap + 52 := by
        simp only [exponent, leading, reached, ↓reduceIte, apart, leastExponent]
        omega
      calc count * 2 ^ (-exponent).toNat
          ≤ count * 2 ^ (gap + 52) := Nat.mul_le_mul_left _ (Nat.pow_le_pow_right two_pos places)
        _ = count * 2 ^ gap * 2 ^ 52 := by rw [Nat.pow_add, Nat.mul_assoc]
        _ < 2 * limit * 2 ^ 52 := Nat.mul_lt_mul_of_pos_right scaled (Nat.two_pow_pos 52)
        _ = 2 ^ 53 * limit := by ring
    · have places : (-exponent).toNat ≤ gap + 53 := by
        simp only [exponent, leading, reached, ↓reduceIte, apart, leastExponent]
        omega
      calc count * 2 ^ (-exponent).toNat
          ≤ count * 2 ^ (gap + 53) := Nat.mul_le_mul_left _ (Nat.pow_le_pow_right two_pos places)
        _ = count * 2 ^ gap * 2 ^ 53 := by rw [Nat.pow_add, Nat.mul_assoc]
        _ < limit * 2 ^ 53 := Nat.mul_lt_mul_of_pos_right (unreached reached) (Nat.two_pow_pos 53)
        _ = 2 ^ 53 * limit := Nat.mul_comm _ _
  have small : exponent ≤ -52 := by
    have tight : leading ≤ spread := by
      simp only [leading]
      split <;> omega
    simp only [exponent, leastExponent]
    omega
  apply packed_le _ small
  have negative : ¬ 0 ≤ exponent := by omega
  simp only [mantissa, negative, ↓reduceIte]
  exact nearest_le bounded

end Double

namespace Binary64

private theorem less_of_value_eq {i : Int} {x : Binary64} (same : x.value = Double.nearest i 1) :
    Arithmetic.less (Arithmetic.ofInt i) x = false := by
  have level : Arithmetic.less (Arithmetic.ofInt i : Binary64) (Arithmetic.ofInt i) = false := by
    rw [less_ofInt]
    simp
  rw [← level]
  change decide (_ < x.value) = decide (_ < Double.nearest i 1)
  rw [same]

instance : Arithmetic.AveragesWholes Binary64 where
  isNaN_ofInt i := by
    obtain ⟨number, -, -⟩ := Double.wholeFields_eq i
    change (Double.wholeFields i).isNaN = false
    cases found : Double.wholeFields i with
    | notANumber => exact absurd found number
    | _ => rfl
  single i isWord := by
    apply less_of_value_eq
    change Float.div (Float.add (Double.nearest 0 1) (Double.nearest i 1)) (Double.nearest 1 1) = _
    rw [Double.add_zero_whole, Double.div_one_whole isWord]
  pair i isWord := by
    apply less_of_value_eq
    change Float.div (Float.add (Float.add (Double.nearest 0 1) (Double.nearest i 1))
      (Double.nearest i 1)) (Double.nearest 2 1) = _
    rw [Double.add_zero_whole, Double.halve_whole isWord]

instance : Arithmetic.HoldsShares Binary64 where
  inRange := by
    intro count limit fits
    have share := Double.nearestBits_share fits
    have bound : Double.nearestBits false count limit < 2 ^ 64 := by omega
    have low : Double.nearestBits false count limit % 2 ^ 63 ≤ 2047 * 2 ^ 52 := by omega
    obtain ⟨word, bits, fields, -⟩ := Double.exists_word_ofBits bound low
    have written : Double.nearest count limit =
        Float.ofBits (UInt64.ofNat (Double.nearestBits false count limit)) := by
      unfold Double.nearest
      simp [Int.not_lt.mpr (Int.natCast_nonneg count), Int.not_lt.mpr (Int.natCast_nonneg limit)]
    change (Double.nearest count limit).toModel.unpack.isInf = false
    rw [written, fields]
    exact Double.isInf_unpack (by omega)

end Binary64

end SourceMetrics
