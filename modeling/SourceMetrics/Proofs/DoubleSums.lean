import SourceMetrics.Proofs.DoubleWorth
import SourceMetrics.Proofs.LengthSums

/-! # Sums of lengths in doubles

A sum of two doubles is the exact sum, rounded at the exponent where its mantissa has fifty-three
bits. A double that is not above the exact sum has no larger exponent than that one, and at the same
exponent no larger mantissa (`Double.le_target`), so rounding does not go below it
(`Double.exists_round`). Hence a sum of doubles that are not negative is not below its terms, even
where it is rounded to the infinite value (`Double.isAbove_add`).

Of two equal doubles a sum tells only the signs of zeros apart (`Double.rank_refit_add_congr`). So
doubles are a model in which lengths may be added (`Arithmetic.AddsLengths`).
-/

namespace SourceMetrics

namespace Double

open Float.Model Float.Model.UnpackedFloat

/-! ## Rounding at the target exponent -/

private theorem mantissa_shiftRight (extended : ExtendedMantissa) (places : Nat) :
    (extended >>> places).mantissa = extended.mantissa / 2 ^ places := by
  induction places with
  | zero => exact (Nat.div_one _).symm
  | succ places ih =>
    change (extended >>> places).mantissa / 2 = _
    rw [ih, Nat.div_div_eq_div_mul, Nat.pow_succ]

private theorem roundedMantissa_bounds (extended : ExtendedMantissa) :
    extended.mantissa ≤ extended.roundedMantissa ∧
      extended.roundedMantissa ≤ extended.mantissa + 1 := by
  rcases extended with ⟨mantissa, ⟨⟩, ⟨⟩⟩ <;>
    simp only [ExtendedMantissa.roundedMantissa, ExtendedMantissa.accuracy,
      Accuracy.roundToNearestEven] <;>
    omega

/-- A mantissa that is short enough is not shifted. -/
theorem shiftToTargetExponent_short {mantissa : Nat} (short : mantissa < 2 ^ 53) {exponent : Int}
    (inRange : leastExponent ≤ exponent) :
    shiftToTargetExponent .binary64 mantissa exponent .exact =
      (⟨mantissa, false, false⟩, exponent) := by
  have bits : mantissa.log2 < 53 := by
    by_cases zero : mantissa = 0
    · subst zero
      decide
    · exact (Nat.log2_lt zero).mpr short
  have unshifted :
      (Format.binary64.targetExponent (totalExponent mantissa exponent) - exponent).toNat = 0 := by
    rw [targetExponent_eq, totalExponent]
    simp only [leastExponent] at inRange
    omega
  rw [shiftToTargetExponent, shiftToExponent, unshifted, Int.natCast_zero, Int.add_zero]
  rfl

private theorem shiftToTargetExponent_carry {exponent : Int} (inRange : leastExponent ≤ exponent) :
    shiftToTargetExponent .binary64 (2 ^ 53) exponent .exact =
      (⟨2 ^ 52, false, false⟩, exponent + 1) := by
  have one : (Format.binary64.targetExponent (totalExponent (2 ^ 53) exponent) - exponent).toNat =
      1 := by
    rw [targetExponent_eq, totalExponent, Nat.log2_two_pow]
    simp only [leastExponent] at inRange
    omega
  rw [shiftToTargetExponent, shiftToExponent, one, Int.natCast_one]
  rfl

/-- The places that are dropped to reach the target exponent leave all bits of a mantissa, or none
are dropped at the least exponent. -/
theorem div_target {magnitude : Nat} (nonzero : magnitude ≠ 0) {exponent target : Int}
    (inRange : leastExponent ≤ exponent) (raised : exponent ≤ target)
    (aimed : target = max ((magnitude.log2 : Int) + 1 + exponent - 53) leastExponent) :
    magnitude / 2 ^ (target - exponent).toNat < 2 ^ 53 ∧
      (2 ^ 52 ≤ magnitude / 2 ^ (target - exponent).toNat ∨
        target = leastExponent ∧ magnitude / 2 ^ (target - exponent).toNat ≠ 0) := by
  have lower : 2 ^ magnitude.log2 ≤ magnitude := Nat.log2_self_le nonzero
  have upper : magnitude < 2 ^ (magnitude.log2 + 1) := Nat.lt_log2_self
  refine ⟨?_, ?_⟩
  · rw [Nat.div_lt_iff_lt_mul (Nat.two_pow_pos _), ← Nat.pow_add]
    exact upper.trans_le (Nat.pow_le_pow_right two_pos (by omega))
  · by_cases least : target = leastExponent
    · have unshifted : (target - exponent).toNat = 0 := by omega
      rw [unshifted, Nat.pow_zero, Nat.div_one]
      exact .inr ⟨least, nonzero⟩
    · left
      rw [Nat.le_div_iff_mul_le (Nat.two_pow_pos _), ← Nat.pow_add]
      exact (Nat.pow_le_pow_right two_pos (by omega)).trans lower

/-- Mantissas and exponents as they are rounded, where the exponent may be out of range. -/
structure IsRounded (mantissa : Nat) (exponent : Int) : Prop where
  short : mantissa < 2 ^ 53
  least : leastExponent ≤ exponent
  leading : 2 ^ 52 ≤ mantissa ∨ exponent = leastExponent

section Rounding

variable (sign : Sign) {magnitude : Nat} {exponent target : Int}

private theorem roundWithAccuracy_short {extended : ExtendedMantissa}
    (shifted : shiftToTargetExponent .binary64 magnitude exponent .exact = (extended, target))
    (inRange : leastExponent ≤ target) (positive : 0 < extended.roundedMantissa)
    (short : extended.roundedMantissa < 2 ^ 53) :
    roundWithAccuracy .binary64 sign magnitude exponent .exact =
      .finite sign extended.roundedMantissa target positive :=
  roundWithAccuracy_eq sign shifted (shiftToTargetExponent_short short inRange) positive

/-- Where rounding makes a mantissa one bit too long, its last bit is a zero. -/
theorem roundWithAccuracy_carry {extended : ExtendedMantissa}
    (shifted : shiftToTargetExponent .binary64 magnitude exponent .exact = (extended, target))
    (inRange : leastExponent ≤ target) (carry : extended.roundedMantissa = 2 ^ 53) :
    roundWithAccuracy .binary64 sign magnitude exponent .exact =
      .finite sign (2 ^ 52) (target + 1) (Nat.two_pow_pos 52) :=
  roundWithAccuracy_eq sign shifted (carry ▸ shiftToTargetExponent_carry inRange)
    (Nat.two_pow_pos 52)

private theorem shiftToTargetExponent_of_raised
    (aimed : Format.binary64.targetExponent (totalExponent magnitude exponent) = target)
    (raised : exponent ≤ target) :
    ∃ extended, shiftToTargetExponent .binary64 magnitude exponent .exact = (extended, target) ∧
      extended.mantissa = magnitude / 2 ^ (target - exponent).toNat := by
  have exact : exponent + (target - exponent).toNat = target := by omega
  rw [shiftToTargetExponent, shiftToExponent, aimed, exact]
  exact ⟨_, rfl, mantissa_shiftRight _ _⟩

/-- What is not above a magnitude has no larger exponent than the one it is rounded at, and at the
same exponent no larger mantissa. -/
theorem le_target {m : Nat} {e : Int} (canonical : IsCanonical m e) (higher : exponent ≤ e)
    (covered : m * 2 ^ (e - exponent).toNat ≤ magnitude)
    (aimed : target = max ((magnitude.log2 : Int) + 1 + exponent - 53) leastExponent) :
    e < target ∨ e = target ∧ m ≤ magnitude / 2 ^ (target - exponent).toNat := by
  have reached : e ≤ target := by
    rcases canonical.leading with full | least
    · have nonzero : magnitude ≠ 0 := by
        have := Nat.mul_le_mul full (Nat.one_le_two_pow (n := (e - exponent).toNat))
        omega
      have long : 52 + (e - exponent).toNat ≤ magnitude.log2 := by
        rw [Nat.le_log2 nonzero, Nat.pow_add]
        exact (Nat.mul_le_mul_right _ full).trans covered
      omega
    · omega
  rcases reached.lt_or_eq with below | rfl
  · exact .inl below
  · exact .inr ⟨rfl, (Nat.le_div_iff_mul_le (Nat.two_pow_pos _)).mpr covered⟩

/-- Rounding is not below any mantissa and exponent of a word that are not above what is rounded. -/
theorem exists_round (nonzero : magnitude ≠ 0) (inRange : leastExponent ≤ exponent)
    (raised : exponent ≤ Format.binary64.targetExponent (totalExponent magnitude exponent)) :
    ∃ m e positive, UnpackedFloat.round .binary64 sign magnitude exponent =
        .finite sign m e positive ∧ IsRounded m e ∧
      ∀ m' e', IsCanonical m' e' → exponent ≤ e' →
        m' * 2 ^ (e' - exponent).toNat ≤ magnitude → e' < e ∨ e' = e ∧ m' ≤ m := by
  obtain ⟨extended, shifted, kept⟩ := shiftToTargetExponent_of_raised rfl raised
  have aimed := targetExponent_eq (totalExponent magnitude exponent)
  rw [round_of_raised sign raised]
  generalize Format.binary64.targetExponent (totalExponent magnitude exponent) = target at *
  obtain ⟨short, leading⟩ := div_target nonzero inRange raised aimed
  obtain ⟨lower, upper⟩ := roundedMantissa_bounds extended
  have least : leastExponent ≤ target := aimed ▸ le_max_right _ _
  rw [← kept] at short leading
  have positive : 0 < extended.roundedMantissa := by omega
  by_cases carry : extended.roundedMantissa = 2 ^ 53
  · refine ⟨_, _, _, roundWithAccuracy_carry sign shifted least carry,
      ⟨by decide, by omega, .inl le_rfl⟩, ?_⟩
    intro m' e' canonical higher covered
    have := le_target canonical higher covered aimed
    rw [← kept] at this
    omega
  · refine ⟨_, _, _, roundWithAccuracy_short sign shifted least positive (by omega),
      ⟨by omega, least, by omega⟩, ?_⟩
    intro m' e' canonical higher covered
    have := le_target canonical higher covered aimed
    rw [← kept] at this
    omega

end Rounding

/-! ## Sums of lengths -/

/-- The fields of a double that some fields are packed into. -/
def refit (fields : UnpackedFloat) : UnpackedFloat :=
  UnpackedFloat.unpack .binary64 (UnpackedFloat.pack .binary64 fields)

private theorem refit_subnormal (sign : Sign) {mantissa : Nat} (positive : 0 < mantissa)
    (small : mantissa < 2 ^ 52) :
    refit (.finite sign mantissa leastExponent positive) =
      .finite sign mantissa leastExponent positive := by
  rw [refit, leastExponent, pack_subnormal sign positive small]
  have packed := toNat_packComponents sign 0 (BitVec.ofNat 52 mantissa)
  have blank : (0 : BitVec 11).toNat = 0 := rfl
  rw [BitVec.toNat_ofNat, blank] at packed
  rw [unpack_subnormal (by omega) (by omega)]
  exact finite_congr _ (signOf_packComponents _ _ _) (by omega) rfl

private theorem refit_infinite (sign : Sign) {mantissa : Nat} {exponent : Int}
    (positive : 0 < mantissa) (large : 971 < exponent) :
    refit (.finite sign mantissa exponent positive) = .infinity sign := by
  have high : 2 ^ 11 ≤ (exponent + Format.binary64.exponentBias +
      Format.binary64.mantissaBitsWithoutImplicit).toNat + 1 := by
    have bias : (Format.binary64.exponentBias : Int) = 1023 := rfl
    simp only [bias]
    omega
  have packed : UnpackedFloat.pack .binary64 (.finite sign mantissa exponent positive) =
      packedInfinity .binary64 sign := if_pos high
  rw [refit, packed]
  cases sign <;> rfl

/-- What is rounded is a double, unless it is too large. -/
theorem refit_rounded (sign : Sign) {mantissa : Nat} {exponent : Int} (positive : 0 < mantissa)
    (rounded : IsRounded mantissa exponent) (inRange : exponent ≤ 971) :
    refit (.finite sign mantissa exponent positive) = .finite sign mantissa exponent positive := by
  obtain ⟨short, least, leading⟩ := rounded
  by_cases full : 2 ^ 52 ≤ mantissa
  · obtain ⟨biased, rfl⟩ : ∃ biased : Nat, exponent = biased - 1075 :=
      ⟨(exponent + 1075).toNat, by simp only [leastExponent] at least; omega⟩
    simp only [leastExponent] at least
    exact unpack_pack_normal full short sign positive (by omega) (by omega)
  · obtain rfl := leading.resolve_left full
    exact refit_subnormal sign positive (by omega)

/-- The fields of a double that is not negative. -/
inductive IsLength : UnpackedFloat → Prop
  | zero (sign : Sign) : IsLength (.zero sign)
  | finite {mantissa : Nat} {exponent : Int} (positive : 0 < mantissa)
      (canonical : IsCanonical mantissa exponent) :
      IsLength (.finite .positive mantissa exponent positive)
  | infinite : IsLength (.infinity .positive)

private theorem IsLength.refit {fields : UnpackedFloat} (length : IsLength fields) :
    refit fields = fields := by
  cases length with
  | zero sign => cases sign <;> rfl
  | finite positive canonical =>
    exact refit_rounded .positive positive ⟨canonical.short, canonical.least, canonical.leading⟩
      canonical.most
  | infinite => rfl

private theorem rank_le_rank {m m' : Nat} {e e' : Int} (positive : 0 < m) (positive' : 0 < m')
    (above : e < e' ∨ e = e' ∧ m ≤ m') :
    rank (.finite .positive m e positive) ≤ rank (.finite .positive m' e' positive') := by
  change toLex (1, toLex (e, (m : Int))) ≤ toLex (1, toLex (e', (m' : Int)))
  simpa [Prod.Lex.toLex_le_toLex] using above

private theorem IsLength.rank_le {fields : UnpackedFloat} (length : IsLength fields) :
    rank (.zero .positive) ≤ rank fields ∧ rank fields ≤ rank (.infinity .positive) := by
  cases length <;> dsimp only [rank] <;> simp [Prod.Lex.toLex_le_toLex]

/-- A length that is not below two others. -/
structure IsAbove (sum x y : UnpackedFloat) : Prop where
  isLength : IsLength sum
  left : rank x ≤ rank sum
  right : rank y ≤ rank sum

private theorem IsAbove.refit {sum x y : UnpackedFloat} (above : IsAbove sum x y) :
    IsAbove (Double.refit sum) x y := by
  rwa [above.isLength.refit]

/-- A sum of finite lengths is not below its terms. -/
theorem isAbove_add_finite {m m' : Nat} {e e' : Int} (positive : 0 < m) (positive' : 0 < m')
    (canonical : IsCanonical m e) (canonical' : IsCanonical m' e') :
    IsAbove (Double.refit (UnpackedFloat.add .binary64 (.finite .positive m e positive)
        (.finite .positive m' e' positive')))
      (.finite .positive m e positive) (.finite .positive m' e' positive') := by
  rw [add_finite]
  have left : min e e' ≤ e := min_le_left e e'
  have right : min e e' ≤ e' := min_le_right e e'
  have low : leastExponent ≤ min e e' := le_min canonical.least canonical'.least
  generalize min e e' = exponent at *
  have scaled := Nat.mul_pos positive (Nat.two_pow_pos (e - exponent).toNat)
  have covered := Nat.le_add_right (m * 2 ^ (e - exponent).toNat) (m' * 2 ^ (e' - exponent).toNat)
  have covered' := Nat.le_add_left (m' * 2 ^ (e' - exponent).toNat) (m * 2 ^ (e - exponent).toNat)
  generalize m * 2 ^ (e - exponent).toNat + m' * 2 ^ (e' - exponent).toNat = magnitude at *
  have nonzero : magnitude ≠ 0 := by omega
  have raised : exponent ≤ Format.binary64.targetExponent (totalExponent magnitude exponent) := by
    have := le_target canonical left covered
      (targetExponent_eq (totalExponent magnitude exponent))
    omega
  obtain ⟨m₁, e₁, positive₁, sum, rounded, above⟩ := exists_round .positive nonzero low raised
  rw [sum]
  by_cases inRange : e₁ ≤ 971
  · rw [refit_rounded _ positive₁ rounded inRange]
    refine ⟨.finite _ ⟨rounded.short, rounded.least, inRange, rounded.leading⟩, ?_, ?_⟩
    · exact rank_le_rank _ _ (above m e canonical left covered)
    · exact rank_le_rank _ _ (above m' e' canonical' right covered')
  · rw [refit_infinite _ positive₁ (by omega)]
    exact ⟨.infinite, (IsLength.finite positive canonical).rank_le.2,
      (IsLength.finite positive' canonical').rank_le.2⟩

/-- A sum of lengths is a length that is not below its terms. -/
theorem isAbove_add {x y : UnpackedFloat} (first : IsLength x) (second : IsLength y) :
    IsAbove (Double.refit (UnpackedFloat.add .binary64 x y)) x y := by
  cases first with
  | infinite =>
    have all : UnpackedFloat.add .binary64 (.infinity .positive) y = .infinity .positive := by
      cases second <;> rfl
    rw [all]
    exact IsAbove.refit ⟨.infinite, le_rfl, second.rank_le.2⟩
  | zero sign =>
    cases second with
    | zero sign' =>
      obtain ⟨signed, vanishes⟩ : ∃ signed,
          UnpackedFloat.add .binary64 (.zero sign) (.zero sign') = .zero signed := by
        cases sign <;> cases sign' <;> exact ⟨_, rfl⟩
      rw [vanishes]
      exact IsAbove.refit ⟨.zero signed, le_rfl, le_rfl⟩
    | finite positive canonical =>
      have length := IsLength.finite positive canonical
      exact IsAbove.refit ⟨length, length.rank_le.1, le_rfl⟩
    | infinite => exact IsAbove.refit ⟨.infinite, IsLength.infinite.rank_le.1, le_rfl⟩
  | finite positive canonical =>
    have length := IsLength.finite positive canonical
    cases second with
    | zero sign => exact IsAbove.refit ⟨length, le_rfl, length.rank_le.1⟩
    | finite positive' canonical' =>
      exact isAbove_add_finite positive positive' canonical canonical'
    | infinite => exact IsAbove.refit ⟨.infinite, length.rank_le.2, le_rfl⟩

/-- A zero adds nothing, apart from its sign. -/
theorem rank_refit_zero (sign : Sign) {x : UnpackedFloat} (length : IsLength x) :
    rank (Double.refit (UnpackedFloat.add .binary64 (.zero sign) x)) = rank x ∧
      rank (Double.refit (UnpackedFloat.add .binary64 x (.zero sign))) = rank x := by
  have same := congrArg rank length.refit
  cases length with
  | zero sign' => cases sign <;> cases sign' <;> exact ⟨rfl, rfl⟩
  | finite => exact ⟨same, same⟩
  | infinite => exact ⟨same, same⟩

private theorem IsLength.ne_notANumber {fields : UnpackedFloat} (length : IsLength fields) :
    fields ≠ .notANumber := by
  cases length <;> nofun

private theorem IsLength.isNaN_eq {fields : UnpackedFloat} (length : IsLength fields) :
    fields.isNaN = false := by
  cases length <;> rfl

/-- Lengths of one rank have sums of one rank. -/
theorem rank_refit_add_congr {x x' y y' : UnpackedFloat} (first : IsLength x) (first' : IsLength x')
    (second : IsLength y) (second' : IsLength y') (same : rank x = rank x')
    (same' : rank y = rank y') :
    rank (Double.refit (UnpackedFloat.add .binary64 x y)) =
      rank (Double.refit (UnpackedFloat.add .binary64 x' y')) := by
  rcases eq_or_zeros_of_rank_eq first.ne_notANumber first'.ne_notANumber same with
    rfl | ⟨sign, sign', rfl, rfl⟩
  · rcases eq_or_zeros_of_rank_eq second.ne_notANumber second'.ne_notANumber same' with
      rfl | ⟨sign, sign', rfl, rfl⟩
    · rfl
    · rw [(rank_refit_zero sign first).2, (rank_refit_zero sign' first).2]
  · rw [(rank_refit_zero sign second).1, (rank_refit_zero sign' second').1, same']

/-- Only a negative zero has a negative zero as a sum. -/
theorem refit_add_ne_negative {x y : UnpackedFloat} (first : IsLength x) (second : IsLength y)
    (unsigned : x ≠ .zero .negative) (unsigned' : y ≠ .zero .negative) :
    Double.refit (UnpackedFloat.add .binary64 x y) ≠ .zero .negative := by
  have vanishes {fields : UnpackedFloat} (length : IsLength fields)
      (unsigned : fields ≠ .zero .negative) (low : rank fields ≤ rank (.zero .negative)) :
      fields = .zero .positive := by
    cases length with
    | zero sign =>
      cases sign with
      | positive => rfl
      | negative => exact absurd rfl unsigned
    | finite =>
      dsimp only [rank] at low
      simp [Prod.Lex.toLex_le_toLex] at low
    | infinite => exact absurd low (by decide)
  have plain : Double.refit (UnpackedFloat.add .binary64 (.zero .positive) (.zero .positive)) =
      .zero .positive := rfl
  obtain ⟨-, left, right⟩ := isAbove_add first second
  intro negative
  rw [negative] at left right
  rw [vanishes first unsigned left, vanishes second unsigned' right, plain] at negative
  cases negative

end Double

namespace Binary64

open Arithmetic (IsLength IsPlainLength SameLength)
open Float.Model (UnpackedFloat)

/-- What the bits of a double say. -/
def fields (x : Binary64) : UnpackedFloat :=
  x.value.toModel.unpack

private theorem fields_add (x y : Binary64) :
    fields (Arithmetic.add x y) = Double.refit (UnpackedFloat.add .binary64 x.fields y.fields) :=
  rfl

private theorem less_eq_false_iff {x y : Binary64} (left : x.fields ≠ .notANumber)
    (right : y.fields ≠ .notANumber) :
    Arithmetic.less x y = false ↔ Double.rank y.fields ≤ Double.rank x.fields := by
  rw [← not_lt, ← Double.lt_iff_rank_lt left right, Bool.eq_false_iff, not_iff_not]
  change decide (decide (_ = true) = true) = true ↔ _
  simp only [decide_eq_true_eq]
  rfl

private theorem isCanonical_of_fields {x : Binary64} {sign : UnpackedFloat.Sign} {mantissa : Nat}
    {exponent : Int} {positive : 0 < mantissa}
    (read : x.fields = .finite sign mantissa exponent positive) :
    Double.IsCanonical mantissa exponent := by
  have same := Double.ofFloat_eq_ofFields x.value
  change _ = Double.ofFields x.fields at same
  rw [read] at same
  exact Double.isCanonical_of_ofFloat same

/-- The lengths among the doubles. -/
theorem isLength_iff {x : Binary64} : IsLength x ↔ Double.IsLength x.fields := by
  have zero : (Arithmetic.zero : Binary64).fields = .zero .positive := rfl
  have order (number : x.fields ≠ .notANumber) : Arithmetic.less x Arithmetic.zero = false ↔
      Double.rank (.zero .positive) ≤ Double.rank x.fields :=
    less_eq_false_iff number nofun
  constructor
  · rintro ⟨number, notLess⟩
    change x.fields.isNaN = false at number
    have present : x.fields ≠ .notANumber := by
      intro undefined
      rw [undefined] at number
      cases number
    rw [order present] at notLess
    cases read : x.fields with
    | notANumber => exact absurd read present
    | zero sign => exact .zero sign
    | infinity sign =>
      cases sign with
      | positive => exact .infinite
      | negative =>
        rw [read] at notLess
        exact absurd notLess (by decide)
    | finite sign mantissa exponent positive =>
      cases sign with
      | positive => exact .finite positive (isCanonical_of_fields read)
      | negative =>
        rw [read] at notLess
        dsimp only [Double.rank] at notLess
        simp [Prod.Lex.toLex_le_toLex] at notLess
  · intro length
    exact ⟨length.isNaN_eq, (order length.ne_notANumber).mpr length.rank_le.1⟩

private theorem sameLength_iff {x y : Binary64} : SameLength x y ↔
    (Double.IsLength x.fields ∧ Double.IsLength y.fields) ∧
      Double.rank x.fields = Double.rank y.fields := by
  rw [SameLength, isLength_iff, isLength_iff]
  refine and_congr_right fun ⟨left, right⟩ => ?_
  rw [less_eq_false_iff left.ne_notANumber right.ne_notANumber,
    less_eq_false_iff right.ne_notANumber left.ne_notANumber, and_comm]
  exact le_antisymm_iff.symm

private theorem isPlainLength_iff {x : Binary64} : IsPlainLength x ↔
    Double.IsLength x.fields ∧ x.fields ≠ .zero .negative := by
  rw [IsPlainLength, isLength_iff]
  refine and_congr_right fun length => ?_
  change isNegative x = false ↔ _
  have read := Double.ofFloat_eq_ofFields x.value
  change _ = Double.ofFields x.fields at read
  rw [isNegative, read]
  generalize x.fields = fields at length
  cases length with
  | zero sign =>
    cases sign with
    | positive => exact ⟨fun _ => nofun, fun _ => rfl⟩
    | negative => exact ⟨fun plain => absurd plain Bool.noConfusion, fun other => absurd rfl other⟩
  | finite => exact ⟨fun _ => nofun, fun _ => rfl⟩
  | infinite => exact ⟨fun _ => nofun, fun _ => rfl⟩

private theorem fields_eq_of_plain {x y : Binary64} (left : IsPlainLength x)
    (right : IsPlainLength y) (same : SameLength x y) : x.fields = y.fields := by
  obtain ⟨first, unsigned⟩ := isPlainLength_iff.mp left
  obtain ⟨second, unsigned'⟩ := isPlainLength_iff.mp right
  rcases Double.eq_or_zeros_of_rank_eq first.ne_notANumber second.ne_notANumber
    (sameLength_iff.mp same).2 with same | ⟨⟨⟩, ⟨⟩, zero, zero'⟩
  · exact same
  · exact absurd zero unsigned
  · exact absurd zero unsigned
  · exact absurd zero' unsigned'
  · rw [zero, zero']

private theorem add_lengths {x y : Binary64} (first : IsLength x) (second : IsLength y) :
    IsLength (Arithmetic.add x y) ∧ Arithmetic.less (Arithmetic.add x y) x = false ∧
      Arithmetic.less (Arithmetic.add x y) y = false := by
  rw [isLength_iff] at first second ⊢
  obtain ⟨length, left, right⟩ := Double.isAbove_add first second
  rw [← fields_add] at length left right
  refine ⟨length, ?_, ?_⟩
  · exact (less_eq_false_iff length.ne_notANumber first.ne_notANumber).mpr left
  · exact (less_eq_false_iff length.ne_notANumber second.ne_notANumber).mpr right

instance : Arithmetic.AddsLengths Binary64 where
  total := by
    intro x y first second
    rw [isLength_iff] at first second
    rw [less_eq_false_iff first.ne_notANumber second.ne_notANumber,
      less_eq_false_iff second.ne_notANumber first.ne_notANumber]
    exact le_total _ _
  trans := by
    intro x y z first second third
    rw [isLength_iff] at first second third
    rw [less_eq_false_iff second.ne_notANumber first.ne_notANumber,
      less_eq_false_iff third.ne_notANumber second.ne_notANumber,
      less_eq_false_iff third.ne_notANumber first.ne_notANumber]
    exact le_trans
  equal_of_same := by
    intro x y same
    obtain ⟨⟨left, right⟩, level⟩ := sameLength_iff.mp same
    exact (Double.beq_eq_true_iff left.ne_notANumber).mpr
      (Double.eq_or_zeros_of_rank_eq left.ne_notANumber right.ne_notANumber level)
  isLength_add first second := (add_lengths first second).1
  left_le_add first second := (add_lengths first second).2.1
  right_le_add first second := (add_lengths first second).2.2
  add_congr := by
    intro x x' y y' first second
    have sum := (add_lengths first.1.1 second.1.1).1
    have sum' := (add_lengths first.1.2 second.1.2).1
    rw [isLength_iff] at sum sum'
    obtain ⟨⟨left, left'⟩, level⟩ := sameLength_iff.mp first
    obtain ⟨⟨right, right'⟩, level'⟩ := sameLength_iff.mp second
    exact sameLength_iff.mpr
      ⟨⟨sum, sum'⟩, Double.rank_refit_add_congr left left' right right' level level'⟩
  isNegative_add := by
    intro x y first second
    obtain ⟨left, unsigned⟩ := isPlainLength_iff.mp first
    obtain ⟨right, unsigned'⟩ := isPlainLength_iff.mp second
    have sum := isLength_iff.mp (add_lengths first.1 second.1).1
    exact (isPlainLength_iff.mpr
      ⟨sum, Double.refit_add_ne_negative left right unsigned unsigned'⟩).2
  add_plain := by
    intro x x' y y' first first' second second' same same'
    have sum : Float.add x.value y.value = Float.add x'.value y'.value := by
      change Float.ofModel (.pack (UnpackedFloat.add .binary64 x.fields y.fields)) =
        .ofModel (.pack (UnpackedFloat.add .binary64 x'.fields y'.fields))
      rw [fields_eq_of_plain first first' same, fields_eq_of_plain second second' same']
    have sign {x y : Binary64} (left : IsPlainLength x) (right : IsPlainLength y) :
        resultSign x y = true := by
      have number : x.value.isNaN = false := left.1.1
      have number' : y.value.isNaN = false := right.1.1
      simp only [resultSign, number, number', Bool.false_eq_true, ↓reduceIte]
    change Binary64.mk _ (resultSign x y) = Binary64.mk _ (resultSign x' y')
    rw [sum, sign first second, sign first' second']

end Binary64

end SourceMetrics
