import SourceMetrics.Proofs.SafeDerivation

/-! # Bounds of the maintainability index

In exact arithmetic each of the three logarithms of an index may be a number, an infinite value or
no number, and so may their sum. Whatever it is, it is capped to a value that is not above the
ceiling (`Maintainability.less_ceiling_cap`), and rescaling brings every capped value between 0 and
100, also one that is no number (`Maintainability.exists_rescale_cap`). From averages that are not
negative, with some paths, no logarithm comes that could make the sum indeterminate: a missing
effort and missing lines both raise it without bound, and then the index is the greatest one
(`Maintainability.indexOf_of_none`, `Maintainability.isWithin_indexOf`).
-/

namespace SourceMetrics

variable {K : Type} [Field K] [LinearOrder K] {kit : FieldKit K}

namespace Maintainability

/-- The natural logarithm of exact arithmetic, extended to all values. -/
def lnOf : Exact K kit → Exact K kit
  | .finite x =>
    if x = 0 then .negInfinite else if x < 0 then .nan else .finite (kit.natural x)
  | .infinite => .infinite
  | .negInfinite | .nan => .nan

private theorem lnOf_zero : lnOf (.finite 0 : Exact K kit) = .negInfinite :=
  if_pos rfl

private theorem lnOf_of_pos {x : K} (positive : 0 < x) :
    lnOf (.finite x : Exact K kit) = .finite (kit.natural x) := by
  rw [lnOf, if_neg positive.ne', if_neg positive.not_gt]

/-- A number that is not above the ceiling, and between 0 and 100 if it is rescaled. -/
def IsWithin (rescaled : Bool) (index : Exact K kit) : Prop :=
  ∃ x : K, index = .finite x ∧ x ≤ (171 : Nat) ∧ (rescaled = true → 0 ≤ x ∧ x ≤ (100 : Nat))

private theorem isWithin_iff {rescaled : Bool} {index : Exact K kit} : IsWithin rescaled index ↔
    ∃ x : K, index = .finite x ∧ x ≤ 171 ∧ (rescaled = true → 0 ≤ x ∧ x ≤ 100) := by
  simp only [IsWithin, Nat.cast_ofNat]

end Maintainability

variable [FloorRing K]

namespace Exact

private theorem isZero_eq_false {x : Exact K kit} (nonzero : x ≠ .finite 0) :
    Arithmetic.isZero x = false := by
  cases x with
  | finite y =>
    rw [isZero_finite, decide_eq_false]
    rintro rfl
    exact nonzero rfl
  | infinite =>
    rw [Arithmetic.isZero, zero_eq]
    rfl
  | negInfinite =>
    rw [Arithmetic.isZero, zero_eq]
    rfl
  | nan =>
    rw [Arithmetic.isZero, zero_eq]
    rfl

private theorem sub_finite (x y : K) :
    Arithmetic.sub (.finite x : Exact K kit) (.finite y) = .finite (x - y) := by
  rw [sub_eq_add_neg]
  rfl

private theorem fraction_eq [CharZero K] (numerator : Nat) {denominator : Nat}
    (nonzero : denominator ≠ 0) :
    (Arithmetic.fraction numerator denominator : Exact K kit) =
      .finite (numerator / denominator) := by
  have divisor : ((denominator : Int) : K) ≠ 0 := by
    rw [Int.cast_natCast]
    exact Nat.cast_ne_zero.mpr nonzero
  refine (div_finite _ divisor).trans ?_
  rw [Int.cast_natCast, Int.cast_natCast]

private theorem mul_negInfinite {x : K} (positive : 0 < x) :
    Arithmetic.mul (.finite x : Exact K kit) .negInfinite = .negInfinite := by
  change neg (signed x) = _
  rw [signed, if_pos positive]
  rfl

/-- A value that stands for a number is that number, or an integer. -/
theorem number_of_toReal {value : Value (Exact K kit)} {x : Exact K kit}
    (stands : value.toReal = .ok x) :
    value.number? = some (.real x) ∨ ∃ i : Int, value.number? = some (.int i) ∧ x = .finite i := by
  unfold Value.toReal at stands
  cases counted : value.number? with
  | none => simp [counted] at stands
  | some number =>
    cases number with
    | real y =>
      obtain rfl : y = x := by simpa [counted, Number.toReal] using stands
      exact .inl rfl
    | int i =>
      obtain rfl : .finite (i : K) = x := by
        simpa only [counted, toReal_int, Except.ok.injEq] using stands
      exact .inr ⟨i, rfl, rfl⟩

private theorem isZero_of_toReal {value : Value (Exact K kit)} {x : Exact K kit}
    (stands : value.toReal = .ok x) (nonzero : x ≠ .finite 0) : value.isZero = false := by
  obtain counted | ⟨i, counted, rfl⟩ := number_of_toReal stands
  · rw [Value.isZero, counted]
    exact isZero_eq_false nonzero
  · have whole : i ≠ 0 := by
      rintro rfl
      exact nonzero (by rw [Int.cast_zero])
    simpa [Value.isZero, counted, Number.isZero] using whole

end Exact

namespace Maintainability

private theorem ln_real (x : Exact K kit) : ln (.real x) = .ok (lnOf x) := by
  have taken : ln (.real x) =
      if Arithmetic.isZero x then .ok .negInfinite
      else if Arithmetic.less x Arithmetic.zero || Arithmetic.isNaN x then .ok .nan
      else .ok (Arithmetic.log x) := rfl
  rw [taken, Exact.zero_eq]
  cases x with
  | finite y =>
    rw [Exact.isZero_finite, lnOf]
    by_cases zero : y = 0
    · simp [zero]
    · by_cases negative : y < 0
      · have below : Arithmetic.less (.finite y : Exact K kit) (.finite 0) = true :=
          decide_eq_true negative
        simp [zero, negative, below]
      · have above : Arithmetic.less (.finite y : Exact K kit) (.finite 0) = false :=
          decide_eq_false negative
        have number : Arithmetic.isNaN (.finite y : Exact K kit) = false := rfl
        have positive : 0 < y := lt_of_le_of_ne (not_lt.mp negative) (Ne.symm zero)
        have logarithm : Arithmetic.log (.finite y : Exact K kit) = .finite (kit.natural y) :=
          if_pos positive
        simp [zero, negative, above, number, logarithm]
  | infinite =>
    rw [Exact.isZero_eq_false (by simp)]
    rfl
  | negInfinite =>
    rw [Exact.isZero_eq_false (by simp)]
    rfl
  | nan =>
    rw [Exact.isZero_eq_false (by simp)]
    rfl

/-! ## Capping and rescaling -/

/-- The ceiling of the index is exact. -/
theorem ceiling_eq : (ceiling : Exact K kit) = .finite 171 := by
  rw [ceiling, Exact.ofInt_eq, Int.cast_ofNat]

private theorem cap_finite (x : K) : cap (.finite x : Exact K kit) = .finite (min x 171) := by
  rw [cap, ceiling_eq]
  by_cases above : 171 < x
  · have exceeds : Arithmetic.less (.finite 171 : Exact K kit) (.finite x) = true :=
      decide_eq_true above
    rw [if_pos exceeds, min_eq_right above.le]
  · have stays : Arithmetic.less (.finite 171 : Exact K kit) (.finite x) = false :=
      decide_eq_false above
    rw [stays, if_neg Bool.false_ne_true, min_eq_left (not_lt.mp above)]

private theorem cap_infinite : cap (.infinite : Exact K kit) = .finite 171 := by
  rw [cap, ceiling_eq]
  exact if_pos rfl

private theorem cap_negInfinite : cap (.negInfinite : Exact K kit) = .negInfinite := by
  rw [cap, ceiling_eq]
  exact if_neg Bool.false_ne_true

private theorem cap_nan : cap (.nan : Exact K kit) = .nan := by
  rw [cap, ceiling_eq]
  exact if_neg Bool.false_ne_true

private theorem rescale_finite (x : K) :
    rescale (.finite x : Exact K kit) = .finite (max 0 (x * 100 / 171)) := by
  have scaled : Arithmetic.div (Arithmetic.mul (.finite x : Exact K kit) (Arithmetic.ofInt 100))
      ceiling = .finite (x * 100 / 171) := by
    rw [ceiling_eq, Exact.ofInt_eq, Exact.mul_finite, Exact.div_finite _ (by norm_num),
      Int.cast_ofNat]
  rw [rescale, scaled, Exact.zero_eq]
  by_cases positive : 0 < x * 100 / 171
  · have exceeds : Arithmetic.less (.finite 0 : Exact K kit) (.finite (x * 100 / 171)) = true :=
      decide_eq_true positive
    rw [if_pos exceeds, max_eq_right positive.le]
  · have stays : Arithmetic.less (.finite 0 : Exact K kit) (.finite (x * 100 / 171)) = false :=
      decide_eq_false positive
    rw [stays, if_neg Bool.false_ne_true, max_eq_left (not_lt.mp positive)]

private theorem rescale_nan : rescale (.nan : Exact K kit) = .finite 0 := by
  have scaled : Arithmetic.div (Arithmetic.mul (.nan : Exact K kit) (Arithmetic.ofInt 100))
      ceiling = .nan := by
    rw [ceiling_eq, Exact.ofInt_eq]
    rfl
  rw [rescale, scaled, Exact.zero_eq]
  exact if_neg Bool.false_ne_true

/-- What is capped is not above the ceiling, though it may be no number. -/
theorem less_ceiling_cap (x : Exact K kit) : Arithmetic.less ceiling (cap x) = false := by
  unfold cap
  by_cases above : Arithmetic.less ceiling x = true
  · rw [if_pos above, ceiling_eq]
    exact decide_eq_false (lt_irrefl _)
  · rw [if_neg above]
    exact Bool.not_eq_true _ ▸ above

/-- The formula on numbers. -/
theorem formula_finite (effort cyclomatic loc : K) :
    formula (.finite effort : Exact K kit) (.finite cyclomatic) (.finite loc) =
      .finite (171 - 342 / 100 * effort - 23 / 100 * cyclomatic - 162 / 10 * loc) := by
  simp only [formula, ceiling_eq, Exact.fraction_eq _ (show 100 ≠ 0 by decide),
    Exact.fraction_eq _ (show 10 ≠ 0 by decide), Exact.mul_finite, Exact.sub_finite,
    Nat.cast_ofNat]

variable [IsStrictOrderedRing K]

private theorem rescale_negInfinite : rescale (.negInfinite : Exact K kit) = .finite 0 := by
  have scaled : Arithmetic.div
      (Arithmetic.mul (.negInfinite : Exact K kit) (Arithmetic.ofInt 100)) ceiling =
        .negInfinite := by
    have product : Arithmetic.mul (.negInfinite : Exact K kit) (.finite (100 : K)) =
        .negInfinite := by
      change Exact.neg (Exact.signed (100 : K)) = _
      rw [Exact.signed, if_pos (by norm_num)]
      rfl
    rw [ceiling_eq, Exact.ofInt_eq, Int.cast_ofNat, product]
    change (if (171 : K) < 0 then Exact.infinite else Exact.negInfinite) = _
    rw [if_neg (by norm_num)]
  rw [rescale, scaled, Exact.zero_eq]
  exact if_neg Bool.false_ne_true

/-- A capped value is brought between 0 and 100, and is a number then. -/
theorem exists_rescale_cap (x : Exact K kit) :
    ∃ y : K, rescale (cap x) = .finite y ∧ 0 ≤ y ∧ y ≤ 100 := by
  have low : (0 : K) ≤ 0 ∧ (0 : K) ≤ 100 := ⟨le_rfl, by norm_num⟩
  have numbers (y : K) (capped : y ≤ 171) : 0 ≤ max 0 (y * 100 / 171) ∧
      max 0 (y * 100 / 171) ≤ 100 := by
    refine ⟨le_max_left _ _, max_le low.2 ?_⟩
    rw [div_le_iff₀ (by norm_num)]
    linarith
  cases x with
  | finite y =>
    rw [cap_finite, rescale_finite]
    exact ⟨_, rfl, numbers _ (min_le_right _ _)⟩
  | infinite =>
    rw [cap_infinite, rescale_finite]
    exact ⟨_, rfl, numbers _ le_rfl⟩
  | negInfinite =>
    rw [cap_negInfinite, rescale_negInfinite]
    exact ⟨0, rfl, low⟩
  | nan =>
    rw [cap_nan, rescale_nan]
    exact ⟨0, rfl, low⟩

/-- Without effort the formula rises without bound, unless another logarithm is infinite or no
number. -/
theorem formula_of_noEffort (cyclomatic : K) {loc : Exact K kit}
    (low : loc = .negInfinite ∨ ∃ x, loc = .finite x) :
    formula .negInfinite (.finite cyclomatic) loc = .infinite := by
  simp only [formula, ceiling_eq, Exact.fraction_eq _ (show 100 ≠ 0 by decide),
    Exact.fraction_eq _ (show 10 ≠ 0 by decide), Exact.mul_finite, Nat.cast_ofNat,
    Exact.mul_negInfinite (show (0 : K) < 342 / 100 by norm_num)]
  obtain rfl | ⟨x, rfl⟩ := low
  · rw [Exact.mul_negInfinite (by norm_num)]
    rfl
  · rfl

/-- Without lines it does so as well. -/
theorem formula_of_noLines (effort cyclomatic : K) :
    formula (.finite effort : Exact K kit) (.finite cyclomatic) .negInfinite = .infinite := by
  simp only [formula, ceiling_eq, Exact.fraction_eq _ (show 100 ≠ 0 by decide),
    Exact.fraction_eq _ (show 10 ≠ 0 by decide), Exact.mul_finite, Exact.sub_finite,
    Nat.cast_ofNat, Exact.mul_negInfinite (show (0 : K) < 162 / 10 by norm_num)]
  rfl

/-! ## Bounds -/

/-- The value that an average stands for decides its logarithm. -/
theorem ln_eq {value : Value (Exact K kit)} {x : Exact K kit} (stands : value.toReal = .ok x) :
    ln value = .ok (lnOf x) := by
  obtain counted | ⟨i, counted, rfl⟩ := Exact.number_of_toReal stands
  · rw [← ln_real x]
    simp only [ln, counted]
    rfl
  · simp only [ln, counted, lnOf, Exact.toReal_int, Int.cast_eq_zero, Int.cast_lt_zero]
    by_cases zero : i = 0
    · simp only [zero, ↓reduceIte]
      rfl
    · by_cases negative : i < 0
      · simp only [zero, negative, ↓reduceIte]
        rfl
      · have positive : (0 : K) < i := Int.cast_pos.mpr (by omega)
        have logarithm : Arithmetic.log (.finite (i : K) : Exact K kit) =
            .finite (kit.natural i) := if_pos positive
        simp only [zero, negative, ↓reduceIte, Except.map, logarithm]

/-- The index of averages, from the values that they stand for. -/
def indexOf (effort cyclomatic loc : Exact K kit) (rescaled : Bool) : Exact K kit :=
  let capped := cap (formula (lnOf effort) (lnOf cyclomatic) (lnOf loc))
  if rescaled then rescale capped else capped

/-- The index is always defined where there are some paths. -/
theorem index_eq {effort cyclomatic loc : Value (Exact K kit)} {e c l : Exact K kit}
    (forEffort : effort.toReal = .ok e) (forCyclomatic : cyclomatic.toReal = .ok c)
    (forLoc : loc.toReal = .ok l) (paths : c ≠ .finite 0) (rescaled : Bool) :
    index effort cyclomatic loc rescaled = .ok (indexOf e c l rescaled) := by
  unfold index
  rw [Exact.isZero_of_toReal forCyclomatic paths, ln_eq forEffort, ln_eq forCyclomatic,
    ln_eq forLoc]
  rfl

/-- A rescaled index is within its bounds, whatever the means are. -/
theorem isWithin_rescaled (effort cyclomatic loc : Exact K kit) :
    IsWithin true (indexOf effort cyclomatic loc true) := by
  obtain ⟨x, rescaled, least, most⟩ :=
    exists_rescale_cap (formula (lnOf effort) (lnOf cyclomatic) (lnOf loc))
  exact isWithin_iff.mpr ⟨x, rescaled, le_trans most (by norm_num), fun _ => ⟨least, most⟩⟩

/-- No index exceeds the ceiling. -/
theorem less_ceiling_indexOf (effort cyclomatic loc : Exact K kit) (rescaled : Bool) :
    Arithmetic.less ceiling (indexOf effort cyclomatic loc rescaled) = false := by
  cases rescaled with
  | false => exact less_ceiling_cap _
  | true =>
    obtain ⟨x, same, below, -⟩ := isWithin_iff.mp (isWithin_rescaled effort cyclomatic loc)
    rw [same, ceiling_eq]
    exact decide_eq_false (not_lt.mpr below)

/-- Without effort or without lines the index is the greatest one. -/
theorem indexOf_of_none {effort cyclomatic loc : K} (work : 0 ≤ effort) (paths : 0 < cyclomatic)
    (lines : 0 ≤ loc) (missing : effort = 0 ∨ loc = 0) (rescaled : Bool) :
    indexOf (.finite effort : Exact K kit) (.finite cyclomatic) (.finite loc) rescaled =
      .finite (if rescaled then 100 else 171) := by
  have low {x : K} (least : 0 ≤ x) : lnOf (.finite x : Exact K kit) = .negInfinite ∨
      ∃ y, lnOf (.finite x : Exact K kit) = .finite y := by
    obtain rfl | positive := least.eq_or_lt
    · exact .inl lnOf_zero
    · exact .inr ⟨_, lnOf_of_pos positive⟩
  have unbounded : formula (lnOf (.finite effort : Exact K kit)) (lnOf (.finite cyclomatic))
      (lnOf (.finite loc)) = .infinite := by
    rw [lnOf_of_pos paths]
    obtain first | ⟨x, first⟩ := low work
    · rw [first]
      exact formula_of_noEffort _ (low lines)
    · have worked : effort ≠ 0 := by
        rintro rfl
        rw [lnOf_zero] at first
        cases first
      rw [first, missing.resolve_left worked, lnOf_zero]
      exact formula_of_noLines _ _
  unfold indexOf
  rw [unbounded, cap_infinite]
  cases rescaled with
  | false => rfl
  | true =>
    have whole : max 0 ((171 : K) * 100 / 171) = 100 := by norm_num
    exact (rescale_finite 171).trans (congrArg Exact.finite whole)

/-- Averages that are not negative, with some paths, have an index that is a number. -/
theorem isWithin_indexOf {effort cyclomatic loc : K} (work : 0 ≤ effort) (paths : 0 < cyclomatic)
    (lines : 0 ≤ loc) (rescaled : Bool) :
    IsWithin rescaled
      (indexOf (.finite effort : Exact K kit) (.finite cyclomatic) (.finite loc) rescaled) := by
  cases rescaled with
  | true => exact isWithin_rescaled _ _ _
  | false =>
    by_cases missing : effort = 0 ∨ loc = 0
    · rw [indexOf_of_none work paths lines missing]
      exact isWithin_iff.mpr ⟨171, rfl, le_rfl, nofun⟩
    · obtain ⟨someWork, someLines⟩ := not_or.mp missing
      simp only [indexOf, lnOf_of_pos (work.lt_of_ne' someWork), lnOf_of_pos paths,
        lnOf_of_pos (lines.lt_of_ne' someLines), formula_finite, cap_finite]
      exact isWithin_iff.mpr ⟨_, rfl, min_le_right _ _, nofun⟩

end Maintainability

end SourceMetrics
