import Mathlib.Data.Prod.Lex
import SourceMetrics.Proofs.WholeOrder
import SourceMetrics.Real.Binary64

/-! # Doubles in order

A double is a word of sixty-four bits. What it says depends on its exponent and on its mantissa, in
one of five ways (`Double.Says`), and what is read from a word can be packed into the same word again
(`Double.pack_unpack`), so a double is known by its fields. It is compared by them: the sign, then
the exponent, then the mantissa. So the doubles other than `nan` are ordered like triples of integers
(`Double.rank`), and only the two zeros share a rank.

A whole number is never rounded to `nan`, and never to the negative zero. Hence the doubles nearest
to whole numbers stand in a linear order, and medians of whole numbers may be taken in doubles
(`Arithmetic.OrdersWholes`).
-/

namespace SourceMetrics

namespace Double

open Float.Model Float.Model.UnpackedFloat

/-! ## The fields of a word -/

private theorem toNat_unpackMantissa (word : BitVec Format.binary64.numBits) :
    (unpackMantissa word).toNat = word.toNat % 2 ^ 52 := by
  simp [unpackMantissa, BitVec.extractLsb]

private theorem toNat_unpackExponent (word : BitVec Format.binary64.numBits) :
    (unpackExponent word).toNat = word.toNat / 2 ^ 52 % 2 ^ 11 := by
  simp [unpackExponent, BitVec.extractLsb, Nat.shiftRight_eq_div_pow]

/-- The sign is the highest bit of a word. -/
theorem toNat_unpackSign (word : BitVec Format.binary64.numBits) :
    (unpackSign word).toNat = word.toNat / 2 ^ 63 := by
  have bound : word.toNat < 2 ^ 64 := word.isLt
  have shifted : (unpackSign word).toNat = word.toNat / 2 ^ 63 % 2 := by
    change (BitVec.cast _ (BitVec.extractLsb 63 63 word)).toNat = _
    rw [BitVec.toNat_cast, BitVec.extractLsb_toNat, Nat.shiftRight_eq_div_pow]
  omega

/-- Of two rows of bits, the first one counts from where the second one ends. -/
theorem toNat_append_eq {v w : Nat} (high : BitVec v) (low : BitVec w) :
    (high ++ low).toNat = high.toNat * 2 ^ w + low.toNat := by
  rw [BitVec.toNat_append, ← Nat.shiftLeft_add_eq_or_of_lt low.isLt, Nat.shiftLeft_eq]

/-- The sign that a word says. -/
def signOf (word : BitVec Format.binary64.numBits) : Sign :=
  Sign.ofBitVec (unpackSign word)

/-- What a word says, by its exponent and its mantissa. The greatest exponent is that of the values
that are not finite; the least one is that of the mantissas without a leading bit. -/
inductive Says (word : BitVec Format.binary64.numBits) : UnpackedFloat → Prop
  | infinity (top : word.toNat / 2 ^ 52 % 2 ^ 11 = 2047) (blank : word.toNat % 2 ^ 52 = 0) :
      Says word (.infinity (signOf word))
  | notANumber (top : word.toNat / 2 ^ 52 % 2 ^ 11 = 2047) (filled : word.toNat % 2 ^ 52 ≠ 0) :
      Says word .notANumber
  | zero (bottom : word.toNat / 2 ^ 52 % 2 ^ 11 = 0) (blank : word.toNat % 2 ^ 52 = 0) :
      Says word (.zero (signOf word))
  | subnormal (bottom : word.toNat / 2 ^ 52 % 2 ^ 11 = 0) (positive : 0 < word.toNat % 2 ^ 52) :
      Says word (.finite (signOf word) (word.toNat % 2 ^ 52) (-1074) positive)
  | normal (notTop : word.toNat / 2 ^ 52 % 2 ^ 11 ≠ 2047)
      (notBottom : word.toNat / 2 ^ 52 % 2 ^ 11 ≠ 0) (positive : 0 < 2 ^ 52 + word.toNat % 2 ^ 52) :
      Says word (.finite (signOf word) (2 ^ 52 + word.toNat % 2 ^ 52)
        ((word.toNat / 2 ^ 52 % 2 ^ 11 : Nat) - 1075) positive)

theorem finite_congr {s s' : Sign} {m m' : Nat} {e e' : Int} (positive : 0 < m) (sign : s = s')
    (mantissa : m = m') (exponent : e = e') :
    UnpackedFloat.finite s m e positive = .finite s' m' e' (mantissa ▸ positive) := by
  subst sign mantissa exponent
  rfl

/-- A word is unpacked into what it says. -/
theorem says_unpack (word : BitVec Format.binary64.numBits) :
    Says word (UnpackedFloat.unpack .binary64 word) := by
  have exponent (field : BitVec 11) :
      unpackExponent word = field ↔ word.toNat / 2 ^ 52 % 2 ^ 11 = field.toNat := by
    rw [← toNat_unpackExponent]
    exact BitVec.toNat_inj.symm
  have mantissa (field : BitVec 52) :
      unpackMantissa word = field ↔ word.toNat % 2 ^ 52 = field.toNat := by
    rw [← toNat_unpackMantissa]
    exact BitVec.toNat_inj.symm
  -- The cases are the branches of unpacking, which is computed in each of them.
  by_cases top : unpackExponent word = -1#11
  · by_cases blank : unpackMantissa word = 0#52
    · have read : UnpackedFloat.unpack .binary64 word = .infinity (signOf word) :=
        (if_pos top).trans (if_pos blank)
      exact read ▸ .infinity ((exponent _).mp top) ((mantissa _).mp blank)
    · have read : UnpackedFloat.unpack .binary64 word = .notANumber :=
        (if_pos top).trans (if_neg blank)
      exact read ▸ .notANumber ((exponent _).mp top) (mt (mantissa 0#52).mpr blank)
  · by_cases bottom : unpackExponent word = 0#11
    · by_cases blank : unpackMantissa word = 0#52
      · have read : UnpackedFloat.unpack .binary64 word = .zero (signOf word) :=
          (if_neg top).trans ((if_pos bottom).trans (dif_pos blank))
        exact read ▸ .zero ((exponent _).mp bottom) ((mantissa _).mp blank)
      · have least : ((unpackExponent word).toNat : Int) - 1075 + 1 = -1074 := by
          rw [bottom]
          rfl
        have read : UnpackedFloat.unpack .binary64 word = .finite (signOf word) _ _ _ :=
          (if_neg top).trans ((if_pos bottom).trans ((dif_neg blank).trans
            (finite_congr _ rfl (toNat_unpackMantissa word) least)))
        exact read ▸ .subnormal ((exponent _).mp bottom) _
    · have leading : (1#1 ++ unpackMantissa word).toNat = 2 ^ 52 + word.toNat % 2 ^ 52 := by
        rw [toNat_append_eq, toNat_unpackMantissa]
        rfl
      have shifted : ((unpackExponent word).toNat : Int) - 1075 =
          (word.toNat / 2 ^ 52 % 2 ^ 11 : Nat) - 1075 := by
        rw [toNat_unpackExponent]
      have read : UnpackedFloat.unpack .binary64 word = .finite (signOf word) _ _ _ :=
        (if_neg top).trans ((if_neg bottom).trans (finite_congr _ rfl leading shifted))
      exact read ▸ .normal (mt (exponent (-1#11)).mpr top) (mt (exponent 0#11).mpr bottom) _

/-- A word that has an exponent, and not the one of the infinite values, is a normal double. -/
theorem unpack_normal {word : BitVec Format.binary64.numBits}
    (low : word.toNat / 2 ^ 52 % 2 ^ 11 ≠ 0) (high : word.toNat / 2 ^ 52 % 2 ^ 11 ≠ 2047) :
    UnpackedFloat.unpack .binary64 word =
      .finite (signOf word) (2 ^ 52 + word.toNat % 2 ^ 52)
        ((word.toNat / 2 ^ 52 % 2 ^ 11 : Nat) - 1075) (by omega) := by
  have said := says_unpack word
  generalize UnpackedFloat.unpack .binary64 word = fields at said
  cases said with
  | infinity top => exact absurd top high
  | notANumber top => exact absurd top high
  | zero bottom => exact absurd bottom low
  | subnormal bottom => exact absurd bottom low
  | normal => rfl

/-- A word that has a mantissa and no exponent is a subnormal double. -/
theorem unpack_subnormal {word : BitVec Format.binary64.numBits}
    (low : word.toNat / 2 ^ 52 % 2 ^ 11 = 0) (positive : 0 < word.toNat % 2 ^ 52) :
    UnpackedFloat.unpack .binary64 word =
      .finite (signOf word) (word.toNat % 2 ^ 52) (-1074) positive := by
  have said := says_unpack word
  generalize UnpackedFloat.unpack .binary64 word = fields at said
  cases said with
  | infinity top => omega
  | notANumber top => omega
  | zero _ blank => omega
  | subnormal => rfl
  | normal _ notBottom => exact absurd low notBottom

/-- A word consists of its fields. -/
theorem packComponents_fields {word : BitVec Format.binary64.numBits} {exponent : BitVec 11}
    {mantissa : BitVec 52} (sameExponent : word.toNat / 2 ^ 52 % 2 ^ 11 = exponent.toNat)
    (sameMantissa : word.toNat % 2 ^ 52 = mantissa.toNat) :
    packComponents .binary64 (signOf word) exponent mantissa = word := by
  have sign : ∀ bit : BitVec 1, (Sign.ofBitVec bit).toBitVec = bit := by decide
  have bound : word.toNat < 2 ^ 64 := word.isLt
  apply BitVec.eq_of_toNat_eq
  rw [packComponents, signOf, sign, toNat_append_eq, toNat_append_eq, toNat_unpackSign,
    ← sameExponent, ← sameMantissa]
  simp only [Format.binary64]
  omega

/-- A mantissa without a leading bit is packed with no exponent. -/
theorem pack_subnormal (sign : Sign) {mantissa : Nat} (positive : 0 < mantissa)
    (small : mantissa < 2 ^ 52) :
    UnpackedFloat.pack .binary64 (.finite sign mantissa (-1074) positive) =
      packComponents .binary64 sign 0 (BitVec.ofNat 52 mantissa) := by
  have short : mantissa.log2 + 1 ≠ 53 := by
    have below := (Nat.log2_lt positive.ne').mpr small
    omega
  unfold UnpackedFloat.pack
  exact (if_neg (by decide)).trans (if_neg short)

/-- A mantissa with a leading bit is packed with its exponent. -/
theorem pack_normal (sign : Sign) {mantissa : Nat} (positive : 0 < mantissa)
    (lower : 2 ^ 52 ≤ mantissa) (upper : mantissa < 2 ^ 53) {biased : Nat}
    (inRange : biased < 2047) :
    UnpackedFloat.pack .binary64 (.finite sign mantissa (biased - 1075) positive) =
      packComponents .binary64 sign (BitVec.ofNat 11 biased) (BitVec.ofNat 52 mantissa) := by
  have full : mantissa.log2 + 1 = Format.binary64.mantissaBits := by
    have least := (Nat.le_log2 positive.ne').mpr lower
    have most := (Nat.log2_lt positive.ne').mpr upper
    change _ = 53
    omega
  have bias : (Format.binary64.exponentBias : Int) = 1023 := rfl
  have shifted : ((biased : Int) - 1075 + Format.binary64.exponentBias +
      Format.binary64.mantissaBitsWithoutImplicit).toNat = biased := by
    simp only [bias]
    omega
  have fits : ¬ 2 ^ 11 ≤ ((biased : Int) - 1075 + Format.binary64.exponentBias +
      Format.binary64.mantissaBitsWithoutImplicit).toNat + 1 := by
    rw [shifted]
    omega
  unfold UnpackedFloat.pack
  refine (if_neg fits).trans ((if_pos full).trans ?_)
  rw [shifted]

/-- What a word says is packed into the same word again, unless it is no number. -/
theorem Says.pack_eq {word : BitVec Format.binary64.numBits} {fields : UnpackedFloat}
    (said : Says word fields) (number : fields ≠ .notANumber) :
    UnpackedFloat.pack .binary64 fields = word := by
  cases said with
  | infinity top blank => exact packComponents_fields top blank
  | notANumber => exact absurd rfl number
  | zero bottom blank => exact packComponents_fields bottom blank
  | subnormal bottom positive =>
    have short : word.toNat % 2 ^ 52 < 2 ^ 52 := Nat.mod_lt _ (Nat.two_pow_pos 52)
    rw [pack_subnormal _ positive short]
    exact packComponents_fields bottom (Nat.mod_eq_of_lt short).symm
  | normal notTop notBottom positive =>
    -- The leading bit of the mantissa is not in the word: reading puts it in, packing drops it.
    rw [pack_normal _ positive (by omega) (by omega) (by omega)]
    apply packComponents_fields <;> rw [BitVec.toNat_ofNat] <;> omega

/-- What is read from a word is packed into the same word again, unless it is no number. -/
theorem pack_unpack {word : BitVec Format.binary64.numBits}
    (number : UnpackedFloat.unpack .binary64 word ≠ .notANumber) :
    UnpackedFloat.pack .binary64 (UnpackedFloat.unpack .binary64 word) = word :=
  (says_unpack word).pack_eq number

/-- A word whose magnitude is at most that of the infinite values is a number. -/
theorem unpack_ne_notANumber {word : BitVec Format.binary64.numBits}
    (low : word.toNat % 2 ^ 63 ≤ 2047 * 2 ^ 52) :
    UnpackedFloat.unpack .binary64 word ≠ .notANumber := by
  intro unread
  cases unread ▸ says_unpack word with
  | notANumber top filled => omega

/-- A zero has no magnitude, and without a sign bit it is the positive one. -/
theorem unpack_eq_zero {word : BitVec Format.binary64.numBits} {sign : Sign}
    (zero : UnpackedFloat.unpack .binary64 word = .zero sign) :
    word.toNat % 2 ^ 63 = 0 ∧ (word.toNat = 0 → sign = .positive) := by
  cases zero ▸ says_unpack word with
  | zero bottom blank =>
    refine ⟨by omega, ?_⟩
    intro clear
    have plain : unpackSign word = 0 := by
      apply BitVec.eq_of_toNat_eq
      rw [toNat_unpackSign, clear]
      rfl
    rw [signOf, plain]
    rfl

/-! ## The order of doubles -/

/-- The place of a double among the others, by sign, exponent and mantissa. -/
def rank : UnpackedFloat → ℤ ×ₗ ℤ ×ₗ ℤ
  | .infinity .negative => toLex (-2, toLex (0, 0))
  | .infinity .positive => toLex (2, toLex (0, 0))
  | .zero _ | .notANumber => toLex (0, toLex (0, 0))
  | .finite .negative mantissa exponent _ => toLex (-1, toLex (-exponent, -mantissa))
  | .finite .positive mantissa exponent _ => toLex (1, toLex (exponent, mantissa))

/-- Doubles other than `nan` are compared by their ranks. -/
theorem lt_iff_rank_lt {x y : UnpackedFloat} (left : x ≠ .notANumber) (right : y ≠ .notANumber) :
    x.lt y = true ↔ rank x < rank y := by
  have larger (e e' : Int) (m m' : Nat) : ((compare e e').then (compare m m')) = .gt ↔
      e' < e ∨ e = e' ∧ m' < m := by
    rw [Ordering.then_eq_gt, compare_gt_iff_gt, compare_eq_iff_eq, compare_gt_iff_gt]
  have smaller (e e' : Int) (m m' : Nat) : ((compare e e').then (compare m m')) = .lt ↔
      e < e' ∨ e = e' ∧ m < m' := by
    rw [Ordering.then_eq_lt, compare_lt_iff_lt, compare_eq_iff_eq, compare_lt_iff_lt]
  -- Two finite doubles of one sign are compared by their fields, all others by their kinds.
  rcases x with ⟨⟨⟩⟩ | _ | ⟨⟨⟩⟩ | ⟨⟨⟩, m, e, _⟩ <;>
    rcases y with ⟨⟨⟩⟩ | _ | ⟨⟨⟩⟩ | ⟨⟨⟩, m', e', _⟩ <;>
    first
    | exact absurd rfl left
    | exact absurd rfl right
    | clear left right
      dsimp only [UnpackedFloat.lt, UnpackedFloat.compare, rank]
      simp [Prod.Lex.toLex_lt_toLex, larger, smaller]
  all_goals decide

/-- Only the two zeros share a rank. -/
theorem eq_or_zeros_of_rank_eq {x y : UnpackedFloat} (left : x ≠ .notANumber)
    (right : y ≠ .notANumber) (same : rank x = rank y) :
    x = y ∨ ∃ first second, x = .zero first ∧ y = .zero second := by
  rcases x with ⟨⟨⟩⟩ | _ | ⟨⟨⟩⟩ | ⟨⟨⟩, m, e, _⟩ <;>
    rcases y with ⟨⟨⟩⟩ | _ | ⟨⟨⟩⟩ | ⟨⟨⟩, m', e', _⟩ <;>
    first
    | exact absurd rfl left
    | exact absurd rfl right
    | exact .inl rfl
    | exact .inr ⟨_, _, rfl, rfl⟩
    | dsimp only [rank] at same
      simp at same
  all_goals exact .inl (finite_congr _ rfl same.2 same.1)

/-! ## Doubles nearest to whole numbers -/

private theorem le_nearest (numerator denominator : Nat) :
    numerator / denominator ≤ Rounding.nearest numerator denominator := by
  unfold Rounding.nearest
  grind

/-- A word has a sign and a magnitude, which is zero only without a mantissa. -/
theorem packed_eq (negative : Bool) (mantissa : Nat) {exponent : Int}
    (inRange : leastExponent ≤ exponent) :
    ∃ magnitude ≤ 2047 * 2 ^ 52, packed negative mantissa exponent =
        (if negative then 2 ^ 63 else 0) + magnitude ∧ (mantissa ≠ 0 → magnitude ≠ 0) := by
  let magnitude :=
    if mantissa < 2 ^ 52 then mantissa
    else (exponent + 1075).toNat * 2 ^ 52 + (mantissa - 2 ^ 52)
  refine ⟨min magnitude (2047 * 2 ^ 52), min_le_right _ _, ?_, ?_⟩
  · cases negative
    · exact (Nat.zero_add _).symm
    · rfl
  · intro nonzero
    have raised : 0 < (exponent + 1075).toNat := by
      simp only [leastExponent] at inRange
      omega
    simp only [magnitude]
    split <;> omega

/-- Rounding a ratio below a whole number does not exceed this number. -/
theorem nearest_le {numerator denominator bound : Nat} (below : numerator < bound * denominator) :
    Rounding.nearest numerator denominator ≤ bound := by
  have quotient : numerator / denominator < bound :=
    Nat.div_lt_of_lt_mul (by rwa [Nat.mul_comm] at below)
  unfold Rounding.nearest
  grind

private theorem nearest_mem_Icc {numerator denominator : Nat} (positive : 0 < denominator)
    (lower : 2 ^ 52 * denominator ≤ numerator) (upper : numerator < 2 ^ 53 * denominator) :
    2 ^ 52 ≤ Rounding.nearest numerator denominator ∧
      Rounding.nearest numerator denominator ≤ 2 ^ 53 :=
  ⟨((Nat.le_div_iff_mul_le positive).mpr lower).trans (le_nearest _ _), nearest_le upper⟩

/-- The leading bits of a whole number: it is brought to the size of a mantissa and rounded. -/
def leadingBits (count : Nat) : Nat :=
  Rounding.nearest (count * 2 ^ (52 - count.log2)) (2 ^ (count.log2 - 52))

/-- A whole number has the word of its leading bits. -/
theorem nearestBits_one (negative : Bool) {count : Nat} (nonzero : count ≠ 0) :
    nearestBits negative count 1 = packed negative (leadingBits count) (count.log2 - 52) := by
  unfold nearestBits
  rw [if_neg nonzero]
  extract_lets spread reaches leading exponent mantissa
  have whole : spread = count.log2 := by
    have unit : Nat.log2 1 = 0 := by decide
    simp [spread, unit]
  have reached : reaches := by
    simp only [reaches, whole, Int.natCast_nonneg, ↓reduceIte, Int.toNat_natCast, Nat.one_mul]
    exact Nat.log2_self_le nonzero
  have scale : exponent = count.log2 - 52 := by
    simp only [exponent, leading, reached, ↓reduceIte, whole, leastExponent]
    omega
  have rounded : mantissa = leadingBits count := by
    simp only [mantissa, scale, leadingBits]
    split
    · have places : ((count.log2 : Int) - 52).toNat = count.log2 - 52 := by omega
      have full : 52 - count.log2 = 0 := by omega
      rw [places, full, Nat.one_mul, Nat.pow_zero, Nat.mul_one]
      rfl
    · have places : (-((count.log2 : Int) - 52)).toNat = 52 - count.log2 := by omega
      have short : count.log2 - 52 = 0 := by omega
      rw [places, short]
      rfl
  rw [rounded, scale]

/-- The leading bits fill a mantissa, which a carry may make one bit longer. -/
theorem leadingBits_mem_Icc {count : Nat} (nonzero : count ≠ 0) :
    2 ^ 52 ≤ leadingBits count ∧ leadingBits count ≤ 2 ^ 53 := by
  have lower : 2 ^ count.log2 ≤ count := Nat.log2_self_le nonzero
  have upper : count < 2 ^ (count.log2 + 1) := Nat.lt_log2_self
  have balanced : 52 + (count.log2 - 52) = count.log2 + (52 - count.log2) := by omega
  apply nearest_mem_Icc (Nat.two_pow_pos _)
  · rw [← Nat.pow_add, balanced, Nat.pow_add]
    exact Nat.mul_le_mul_right _ lower
  · rw [← Nat.pow_add, Nat.add_right_comm 52 1, balanced, Nat.add_right_comm, Nat.pow_add]
    exact Nat.mul_lt_mul_of_pos_right upper (Nat.two_pow_pos _)

/-- The bits of a whole number are those of a number, and those of a zero only without a sign. -/
theorem nearestBits_whole (i : Int) :
    nearestBits (decide (i < 0)) i.natAbs 1 < 2 ^ 64 ∧
      nearestBits (decide (i < 0)) i.natAbs 1 % 2 ^ 63 ≤ 2047 * 2 ^ 52 ∧
      (nearestBits (decide (i < 0)) i.natAbs 1 % 2 ^ 63 = 0 →
        nearestBits (decide (i < 0)) i.natAbs 1 = 0) := by
  by_cases zero : i = 0
  · subst zero
    decide
  · have occupied : i.natAbs ≠ 0 := Int.natAbs_ne_zero.mpr zero
    have inRange : leastExponent ≤ (i.natAbs.log2 : Int) - 52 := by
      simp only [leastExponent]
      omega
    obtain ⟨magnitude, low, same, nonzero⟩ :=
      packed_eq (decide (i < 0)) (leadingBits i.natAbs) inRange
    have left : magnitude ≠ 0 := nonzero (by have := (leadingBits_mem_Icc occupied).1; omega)
    rw [nearestBits_one _ occupied, same]
    split <;> omega

/-- The bits of a number are kept as they are. -/
theorem toBitVec_toBits_ofBits {bits : Nat} (bound : bits < 2 ^ 64)
    (low : bits % 2 ^ 63 ≤ 2047 * 2 ^ 52) :
    (Float.ofBits (UInt64.ofNat bits)).toBits.toBitVec = (UInt64.ofNat bits).toBitVec := by
  have same : (UInt64.ofNat bits).toBitVec.toNat = bits := Nat.mod_eq_of_lt bound
  exact pack_unpack (unpack_ne_notANumber (by rwa [same]))

/-- The bits of a number are read as the fields of its word. -/
theorem exists_word_ofBits {bits : Nat} (bound : bits < 2 ^ 64)
    (low : bits % 2 ^ 63 ≤ 2047 * 2 ^ 52) :
    ∃ word : BitVec Format.binary64.numBits, word.toNat = bits ∧
      (Float.ofBits (UInt64.ofNat bits)).toModel.unpack = UnpackedFloat.unpack .binary64 word ∧
      Float.ofBits (UInt64.ofNat bits) =
        .ofModel (Float.Model.pack (UnpackedFloat.unpack .binary64 word)) :=
  ⟨(UInt64.ofNat bits).toBitVec, Nat.mod_eq_of_lt bound,
    congrArg (UnpackedFloat.unpack .binary64) (toBitVec_toBits_ofBits bound low), rfl⟩

/-- The fields of the double nearest to a whole number. -/
def wholeFields (i : Int) : UnpackedFloat :=
  (nearest i 1).toModel.unpack

theorem nearest_one (i : Int) : nearest i 1 =
    Float.ofBits (UInt64.ofNat (nearestBits (decide (i < 0)) i.natAbs 1)) := by
  unfold nearest
  simp

/-- The double nearest to a whole number is read from a word with the bits nearest to it. -/
theorem exists_word_whole (i : Int) :
    ∃ word : BitVec Format.binary64.numBits,
      word.toNat = nearestBits (decide (i < 0)) i.natAbs 1 ∧
      wholeFields i = UnpackedFloat.unpack .binary64 word ∧
      nearest i 1 = .ofModel (Float.Model.pack (wholeFields i)) := by
  obtain ⟨bound, low, -⟩ := nearestBits_whole i
  obtain ⟨word, bits, fields, packed⟩ := exists_word_ofBits bound low
  rw [← nearest_one] at fields packed
  exact ⟨word, bits, fields, by rw [wholeFields, fields, packed]⟩

/-- The double nearest to a whole number is a number, and not the negative zero. -/
theorem wholeFields_eq (i : Int) :
    wholeFields i ≠ .notANumber ∧ (∀ sign, wholeFields i = .zero sign → sign = .positive) ∧
      nearest i 1 = .ofModel (Float.Model.pack (wholeFields i)) := by
  obtain ⟨-, low, unsigned⟩ := nearestBits_whole i
  obtain ⟨word, bits, fields, packed⟩ := exists_word_whole i
  rw [← bits] at low unsigned
  refine ⟨?_, ?_, packed⟩
  · rw [fields]
    exact unpack_ne_notANumber low
  · intro sign zero
    rw [fields] at zero
    obtain ⟨clear, plain⟩ := unpack_eq_zero zero
    exact plain (unsigned clear)

end Double

namespace Binary64

/-- Whole numbers as doubles are compared by the ranks of the doubles nearest to them. -/
theorem less_ofInt (i j : Int) :
    Arithmetic.less (Arithmetic.ofInt i : Binary64) (Arithmetic.ofInt j) =
      decide (Double.rank (Double.wholeFields i) < Double.rank (Double.wholeFields j)) := by
  have compared := Double.lt_iff_rank_lt (Double.wholeFields_eq i).1 (Double.wholeFields_eq j).1
  rw [Bool.eq_iff_iff, decide_eq_true_iff, ← compared]
  change decide (decide (_ = true) = true) = true ↔ _
  simp only [decide_eq_true_eq]
  rfl

instance : Arithmetic.OrdersWholes Binary64 where
  total i j := by
    simp only [less_ofInt, decide_eq_false_iff_not, not_lt]
    exact le_total _ _
  trans i j k := by
    simp only [less_ofInt, decide_eq_false_iff_not, not_lt]
    exact le_trans
  antisymm i j := by
    simp only [less_ofInt, decide_eq_false_iff_not, not_lt]
    intro first second
    obtain ⟨number, unsigned, packed⟩ := Double.wholeFields_eq i
    obtain ⟨number', unsigned', packed'⟩ := Double.wholeFields_eq j
    have same : Double.wholeFields i = Double.wholeFields j := by
      rcases Double.eq_or_zeros_of_rank_eq number number' (le_antisymm first second) with
        same | ⟨sign, sign', zero, zero'⟩
      · exact same
      · rw [zero, zero', unsigned sign zero, unsigned' sign' zero']
    change Binary64.mk (Double.nearest i 1) false = Binary64.mk (Double.nearest j 1) false
    rw [packed, packed', same]

end Binary64

end SourceMetrics
