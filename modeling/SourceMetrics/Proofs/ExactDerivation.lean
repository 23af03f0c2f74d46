import Mathlib.Algebra.Order.BigOperators.Group.List
import Mathlib.Algebra.Order.Field.Basic
import SourceMetrics.Proofs.Conservation
import SourceMetrics.Proofs.Exact
import SourceMetrics.Proofs.FullDerivation

/-! # Derivation in exact arithmetic

Where all counts of a function are whole numbers, a token has been counted at least once if any has
occurred, and there is at least one path (`FunctionReport.IsCounted`), everything that is derived
from the counts is given by its formula: no logarithm is taken of zero and no quotient by zero
(`FunctionReport.derive_eq_exact`). The figures of a module are the means over its functions, or
those of the module as a whole if it has none (`ModuleReport.derive_eq_exact`). Parameters only have
to be such that they can be added up.
-/

namespace SourceMetrics

variable {K : Type} [Field K] [LinearOrder K] [FloorRing K] {kit : FieldKit K}

namespace Exact

theorem zero_eq : (Arithmetic.zero : Exact K kit) = .finite 0 := by
  rw [Arithmetic.zero, ofInt_eq, Int.cast_zero]

private theorem one_eq : (Arithmetic.one : Exact K kit) = .finite 1 := by
  rw [Arithmetic.one, ofInt_eq, Int.cast_one]

private theorem plus_int (i j : Int) :
    (Value.int i : Value (Exact K kit)).plus (.int j) = .ok (.int (i + j)) := rfl

private theorem isZero_int (i : Int) :
    (Value.int i : Value (Exact K kit)).isZero = decide (i = 0) := rfl

theorem toReal_int (i : Int) : (Number.int i : Number (Exact K kit)).toReal = .ok (.finite i) :=
  entryReal_int i

theorem mul_finite (x y : K) :
    Arithmetic.mul (.finite x : Exact K kit) (.finite y) = .finite (x * y) := rfl

/-- Numbers are divided as in the field, by a divisor other than zero. -/
theorem div_finite (x : K) {y : K} (nonzero : y ≠ 0) :
    Arithmetic.div (.finite x : Exact K kit) (.finite y) = .finite (x / y) := by
  change (if y = 0 then signed x else .finite (x / y)) = _
  rw [if_neg nonzero]

/-- The natural logarithm is extended to all numbers. -/
theorem exists_ln (x : Exact K kit) : ∃ y, Maintainability.ln (.real x) = .ok y := by
  unfold Maintainability.ln
  simp only [Value.number?]
  split
  · exact ⟨_, rfl⟩
  · split
    · exact ⟨_, rfl⟩
    · exact ⟨_, rfl⟩

private theorem binaryLog_int {i : Int} (positive : 0 < i) :
    Measures.binaryLog (.int i : Value (Exact K kit)) = .ok (.finite (kit.binary (i : K))) := by
  have taken : Measures.binaryLog (.int i : Value (Exact K kit)) =
      if 0 < i then .ok (.finite (kit.binary (i.toNat : K))) else .error .logarithm := rfl
  have same : ((i.toNat : Nat) : K) = (i : K) := by
    rw [← Int.cast_natCast, Int.toNat_of_nonneg positive.le]
  rw [taken, if_pos positive, same]

/-- The index of averages is defined unless there are no paths. -/
theorem exists_index (effort loc : Exact K kit) {cyclomatic : K} (paths : cyclomatic ≠ 0)
    (rescaled : Bool) : ∃ index,
      Maintainability.index (.real effort) (.real (.finite cyclomatic)) (.real loc) rescaled =
        .ok index := by
  obtain ⟨first, lnEffort⟩ := exists_ln effort
  obtain ⟨second, lnCyclomatic⟩ := exists_ln (.finite cyclomatic : Exact K kit)
  obtain ⟨third, lnLoc⟩ := exists_ln loc
  have nonzero : (Value.real (.finite cyclomatic) : Value (Exact K kit)).isZero = false := by
    change Arithmetic.isZero (.finite cyclomatic : Exact K kit) = false
    rw [isZero_finite, decide_eq_false paths]
  unfold Maintainability.index
  rw [nonzero, lnEffort, lnCyclomatic, lnLoc]
  exact ⟨_, rfl⟩

variable [CharZero K]

private theorem dividedBy_int (i : Int) {j : Int} (nonzero : j ≠ 0) :
    (Value.int i : Value (Exact K kit)).dividedBy (.int j) = .ok (.finite (i / j)) := by
  have quotient : (Arithmetic.quotient i j : Exact K kit) = .finite (i / j) :=
    div_finite _ (Int.cast_ne_zero.mpr nonzero)
  change (if Arithmetic.isInfinite (Arithmetic.quotient i j : Exact K kit) then _ else _) = _
  rw [quotient]
  rfl

/-- Numbers are divided by whole numbers as in the field. -/
theorem div_ofInt (x : K) {i : Int} (nonzero : i ≠ 0) :
    Arithmetic.div (.finite x : Exact K kit) (Arithmetic.ofInt i) = .finite (x / i) := by
  rw [ofInt_eq, div_finite x (Int.cast_ne_zero.mpr nonzero)]

end Exact

/-! ## Functions -/

/-- A tally whose counts are whole numbers, and which has counted a token if any has occurred. -/
structure Tally.IsCounted {R : Type} [Arithmetic R] (tally : Tally R) : Prop where
  total : ∃ count : Nat, tally.total = .int count
  distinct : ∃ count : Nat, tally.distinct = .int count
  met : tally.total.whole = 0 ↔ tally.distinct.whole = 0

/-- Counts that are whole numbers: lines and tokens that may have been met, and at least one
path. -/
structure FunctionReport.IsCounted {R : Type} [Arithmetic R] (f : FunctionReport R) : Prop where
  logical : ∃ count : Nat, f.logical = .int count
  cyclomatic : ∃ count : Nat, f.cyclomatic = .int (count + 1)
  tally : ∀ tokenClass, (f.halstead.tally tokenClass).IsCounted

namespace Measures

/-- The difficulty of counts: half of the distinct operators, for each occurrence of an operand that
there is on average. -/
def difficultyOf (n₁ n₂ N₂ : Int) : K :=
  (n₁ : K) / 2 * if n₂ = 0 then 1 else (N₂ : K) / (n₂ : K)

/-- The volume of counts: all occurrences, times the bits that tell the distinct tokens apart. -/
def volumeOf (kit : FieldKit K) (n₁ n₂ N₁ N₂ : Int) : K :=
  ((N₁ + N₂ : Int) : K) * kit.binary ((n₁ + n₂ : Int) : K)

/-- The measures of counts by their definitions. -/
def ofCounts (n₁ n₂ N₁ N₂ : Int) : Measures (Exact K kit) where
  length := .int (N₁ + N₂)
  vocabulary := .int (n₁ + n₂)
  difficulty := .finite (difficultyOf n₁ n₂ N₂)
  volume := .finite (volumeOf kit n₁ n₂ N₁ N₂)
  effort := .finite (difficultyOf n₁ n₂ N₂ * volumeOf kit n₁ n₂ N₁ N₂)
  bugs := .finite (volumeOf kit n₁ n₂ N₁ N₂ / 3000)
  time := .finite (difficultyOf n₁ n₂ N₂ * volumeOf kit n₁ n₂ N₁ N₂ / 18)

variable {operators operands : Tally (Exact K kit)} {n₁ n₂ N₁ N₂ : Int}

/-- Without occurrences there are no distinct tokens, and every definition gives zero. -/
theorem ofCounts_zero : (ofCounts 0 0 0 0 : Measures (Exact K kit)) = none (.int 0) := by
  simp [ofCounts, none, difficultyOf, volumeOf, Exact.zero_eq]

variable [CharZero K]

/-- The steps of the computation are those of the definitions. -/
theorem ofCounts_eq {ratio : K} (average : ratio = if n₂ = 0 then 1 else (N₂ : K) / (n₂ : K)) :
    let difficulty : Exact K kit := Arithmetic.mul (.finite ((n₁ : K) / 2)) (.finite ratio)
    let volume : Exact K kit := Arithmetic.mul (.finite ((N₁ + N₂ : Int) : K))
      (.finite (kit.binary ((n₁ + n₂ : Int) : K)))
    ofCounts n₁ n₂ N₁ N₂ =
      { length := .int (N₁ + N₂)
        vocabulary := .int (n₁ + n₂)
        difficulty
        volume
        effort := Arithmetic.mul difficulty volume
        bugs := Arithmetic.div volume (Arithmetic.ofInt 3000)
        time := Arithmetic.div (Arithmetic.mul difficulty volume) (Arithmetic.ofInt 18) } := by
  simp only [Exact.mul_finite, Exact.div_ofInt _ (show (3000 : Int) ≠ 0 by decide),
    Exact.div_ofInt _ (show (18 : Int) ≠ 0 by decide), Int.cast_ofNat]
  rw [average]
  rfl

private theorem derive_of_occurrences (total₁ : operators.total = .int N₁)
    (distinct₁ : operators.distinct = .int n₁) (total₂ : operands.total = .int N₂)
    (distinct₂ : operands.distinct = .int n₂) (nonzero : N₁ + N₂ ≠ 0) (known : 0 < n₁ + n₂) :
    derive operators operands = .ok (ofCounts n₁ n₂ N₁ N₂) := by
  have half : (Value.int n₁ : Value (Exact K kit)).dividedBy (.int 2) =
      .ok (.finite ((n₁ : K) / 2)) := by
    rw [Exact.dividedBy_int n₁ (by decide), Int.cast_ofNat]
  have factor : (Value.int (N₁ + N₂) : Value (Exact K kit)).toReal =
      .ok (.finite ((N₁ + N₂ : Int) : K)) := Exact.toReal_int _
  unfold derive
  rw [total₁, distinct₁, total₂, distinct₂]
  simp only [Exact.plus_int, Exact.isZero_int, nonzero, decide_false, Bool.false_eq_true, ↓reduceIte,
    half, Exact.binaryLog_int known, factor, ok_bind]
  by_cases without : n₂ = 0
  · rw [ofCounts_eq (if_pos without).symm, ← Exact.one_eq]
    simp only [without, decide_true, ↓reduceIte]
    rfl
  · rw [ofCounts_eq (if_neg without).symm]
    simp only [without, decide_false, Bool.false_eq_true, ↓reduceIte,
      Exact.dividedBy_int N₂ without, ok_bind]
    rfl

/-- The measures of counted tallies are those of their definitions. -/
theorem derive_of_isCounted (first : operators.IsCounted) (second : operands.IsCounted) :
    derive operators operands = .ok (ofCounts operators.distinct.whole operands.distinct.whole
      operators.total.whole operands.total.whole) := by
  obtain ⟨⟨N₁, total₁⟩, ⟨n₁, distinct₁⟩, met₁⟩ := first
  obtain ⟨⟨N₂, total₂⟩, ⟨n₂, distinct₂⟩, met₂⟩ := second
  rw [total₁, distinct₁, Value.whole_int, Value.whole_int] at met₁
  rw [total₂, distinct₂, Value.whole_int, Value.whole_int] at met₂
  rw [total₁, distinct₁, total₂, distinct₂]
  simp only [Value.whole_int]
  by_cases nothing : (N₁ + N₂ : Int) = 0
  · obtain ⟨rfl, rfl⟩ : N₁ = 0 ∧ N₂ = 0 := by omega
    have no₁ : (n₁ : Int) = 0 := met₁.mp rfl
    have no₂ : (n₂ : Int) = 0 := met₂.mp rfl
    rw [no₁, no₂, derive, total₁, total₂]
    exact congrArg Except.ok ofCounts_zero.symm
  · exact derive_of_occurrences total₁ distinct₁ total₂ distinct₂ nothing (by omega)

end Measures

namespace FunctionReport

variable (f : FunctionReport (Exact K kit))

/-- Branches in a hundred lines. -/
def exactDensity : Exact K kit :=
  if f.logical.whole = 0 then .infinite
  else .finite ((f.cyclomatic.whole : K) / (f.logical.whole : K) * 100)

/-- The measures of the tallies of a function. -/
def exactMeasures : Measures (Exact K kit) :=
  .ofCounts f.halstead.operators.distinct.whole f.halstead.operands.distinct.whole
    f.halstead.operators.total.whole f.halstead.operands.total.whole

/-- The effort that goes into a function. -/
def exactEffort : K :=
  Measures.difficultyOf f.halstead.operators.distinct.whole f.halstead.operands.distinct.whole
      f.halstead.operands.total.whole *
    Measures.volumeOf kit f.halstead.operators.distinct.whole f.halstead.operands.distinct.whole
      f.halstead.operators.total.whole f.halstead.operands.total.whole

/-- A function with everything that is derived from its counts. -/
def exact : FunctionReport (Exact K kit) :=
  { f with
    density := .real f.exactDensity
    halstead := { f.halstead with measures := f.exactMeasures } }

/-- The mean of a figure over functions. -/
def mean {R : Type} (samples : List (FunctionReport R)) (figure : FunctionReport R → K) : K :=
  (samples.map figure).sum / (samples.length : K)

variable {f} [IsStrictOrderedRing K]

private theorem density_of_isCounted (counted : f.IsCounted) :
    Maintainability.density f.cyclomatic f.logical = .ok f.exactDensity := by
  obtain ⟨lines, logical⟩ := counted.logical
  obtain ⟨branches, cyclomatic⟩ := counted.cyclomatic
  unfold Maintainability.density exactDensity
  rw [logical, cyclomatic, Exact.isZero_int, Exact.isZero_int, Value.whole_int, Value.whole_int]
  have path : (branches + 1 : Int) ≠ 0 := by omega
  by_cases empty : (lines : Int) = 0
  · have positive : ¬ ((branches + 1 : Int) : K) < 0 := by
      rw [not_lt]
      exact Int.cast_nonneg (by omega)
    have unsigned : Arithmetic.isNegative (.finite ((branches + 1 : Int) : K) : Exact K kit) =
        false := decide_eq_false positive
    have branched : (Value.int (branches + 1) : Value (Exact K kit)).toReal =
        .ok (.finite ((branches + 1 : Int) : K)) := Exact.toReal_int _
    simp only [empty, path, decide_true, decide_false, Bool.false_eq_true, ↓reduceIte, branched,
      ok_bind, unsigned]
    rfl
  · simp only [empty, decide_false, Bool.false_eq_true, ↓reduceIte, Exact.dividedBy_int _ empty,
      ok_bind, Exact.ofInt_eq, Exact.mul_finite, Int.cast_ofNat]
    rfl

/-- Derivation of a counted function does not fail, and gives what the formulas give. -/
theorem derive_eq_exact (counted : f.IsCounted) : f.derive = .ok f.exact := by
  have measures : Measures.derive f.halstead.operators f.halstead.operands = .ok f.exactMeasures :=
    Measures.derive_of_isCounted (counted.tally .operators) (counted.tally .operands)
  simp only [FunctionReport.derive, Halstead.derive, density_of_isCounted counted, measures,
    ok_bind]
  rfl

end FunctionReport

namespace Totals

/-- Add the numbers of parameters of functions one after another. -/
def addParams {R : Type} [Arithmetic R] (samples : List (FunctionReport R)) (start : R) :
    Except Fault R :=
  samples.foldlM (fun sum f => add sum f.params) start

/-- The sums of the figures of functions, with a sum of their parameters. -/
def exact (samples : List (FunctionReport (Exact K kit))) (params : Exact K kit) :
    Totals (Exact K kit) where
  loc := .finite (samples.map fun f => (f.logical.whole : K)).sum
  cyclomatic := .finite (samples.map fun f => (f.cyclomatic.whole : K)).sum
  effort := .finite (samples.map FunctionReport.exactEffort).sum
  params := params

private theorem exact_nil : (exact [] Arithmetic.zero : Totals (Exact K kit)) = zero := by
  simp only [exact, zero, Exact.zero_eq, List.map_nil, List.sum_nil]

private theorem add_finite (x : K) {value : Value (Exact K kit)}
    (integer : value.integer?.isSome = true) :
    add (.finite x) value = .ok (.finite (x + value.whole)) := by
  unfold Value.whole
  unfold Value.integer? at integer ⊢
  unfold add
  cases counted : value.number? with
  | none => simp [counted] at integer
  | some number =>
    cases number with
    | int i =>
      simp only [Exact.toReal_int]
      rfl
    | real y => simp [counted] at integer

/-- One more function. -/
theorem addFunction_exact (samples : List (FunctionReport (Exact K kit)))
    {f : FunctionReport (Exact K kit)} (counted : f.IsCounted) {params next : Exact K kit}
    (summed : add params f.params = .ok next) :
    (exact samples params).addFunction f.exact = .ok (exact (samples ++ [f]) next) := by
  obtain ⟨lines, logical⟩ := counted.logical
  obtain ⟨branches, cyclomatic⟩ := counted.cyclomatic
  have loc := add_finite (samples.map fun g => (g.logical.whole : K)).sum
    (show f.logical.integer?.isSome = true by rw [logical]; rfl)
  have paths := add_finite (samples.map fun g => (g.cyclomatic.whole : K)).sum
    (show f.cyclomatic.integer?.isSome = true by rw [cyclomatic]; rfl)
  simp only [addFunction, exact, FunctionReport.exact, loc, paths, summed, ok_bind, List.map_append,
    List.sum_append, List.map_cons, List.map_nil, List.sum_cons, List.sum_nil, add_zero]
  rfl

/-- Whole numbers of parameters are added up as numbers. -/
theorem addParams_wholes {samples : List (FunctionReport (Exact K kit))}
    (integers : ∀ f ∈ samples, f.params.integer?.isSome = true) (x : K) :
    addParams samples (.finite x) =
      .ok (.finite (x + (samples.map fun f => (f.params.whole : K)).sum)) := by
  induction samples generalizing x with
  | nil =>
    rw [List.map_nil, List.sum_nil, add_zero]
    rfl
  | cons f rest ih =>
    rw [List.forall_mem_cons] at integers
    rw [addParams, List.foldlM_cons, add_finite x integers.1, ok_bind, ← addParams,
      ih integers.2, List.map_cons, List.sum_cons, add_assoc]

end Totals

/-- Counted functions are derived one after another, and their figures are summed up. -/
theorem FunctionReport.deriveAll_eq_exact [IsStrictOrderedRing K]
    {functions : List (FunctionReport (Exact K kit))} (each : ∀ f ∈ functions, f.IsCounted)
    (earlier : List (FunctionReport (Exact K kit))) {params total : Exact K kit}
    (summed : Totals.addParams functions params = .ok total) :
    deriveAll functions (Totals.exact earlier params) =
      .ok (functions.map exact, Totals.exact (earlier ++ functions) total) := by
  induction functions generalizing earlier params with
  | nil =>
    cases summed
    rw [deriveAll, List.append_nil, List.map_nil]
  | cons f rest ih =>
    rw [List.forall_mem_cons] at each
    rw [Totals.addParams, List.foldlM_cons, bind_eq_ok] at summed
    obtain ⟨next, added, later⟩ := summed
    have onward := ih each.2 (earlier ++ [f]) later
    rw [List.append_assoc, List.singleton_append] at onward
    simp only [deriveAll, derive_eq_exact each.1, Totals.addFunction_exact earlier each.1 added,
      onward, ok_bind]
    rfl

namespace ModuleReport

/-- The functions of a module, or the module as a whole if it has none. -/
def samples {R : Type} (m : ModuleReport R) : List (FunctionReport R) :=
  if m.functions.isEmpty then [m.aggregate] else m.functions

/-- A module without functions is a sample of itself. -/
theorem length_samples {R : Type} (m : ModuleReport R) :
    m.samples.length = max m.functions.length 1 := by
  unfold samples
  cases m.functions with
  | nil => rfl
  | cons f rest => simp

/-- The samples of a module are its functions or the module as a whole. -/
theorem mem_of_mem_samples {R : Type} {m : ModuleReport R} {f : FunctionReport R}
    (member : f ∈ m.samples) : f ∈ m.aggregate :: m.functions := by
  unfold samples at member
  split at member
  · rw [List.mem_singleton.mp member]
    exact List.mem_cons_self
  · exact List.mem_cons_of_mem _ member

variable [IsStrictOrderedRing K] {m : ModuleReport (Exact K kit)}

/-- A function has one path at least, and so it has on average. -/
theorem one_le_mean_cyclomatic (counted : ∀ f ∈ m.aggregate :: m.functions, f.IsCounted) :
    1 ≤ FunctionReport.mean m.samples fun f => (f.cyclomatic.whole : K) := by
  have sampled : (0 : K) < m.samples.length := by
    rw [length_samples]
    exact Nat.cast_pos.mpr (by omega)
  rw [FunctionReport.mean, one_le_div sampled]
  have least := List.card_nsmul_le_sum (m.samples.map fun f => (f.cyclomatic.whole : K)) 1
  rw [List.length_map, nsmul_eq_mul, mul_one] at least
  apply least
  intro x member
  obtain ⟨f, sample, rfl⟩ := List.mem_map.mp member
  obtain ⟨branches, paths⟩ := (counted f (mem_of_mem_samples sample)).cyclomatic
  rw [paths, Value.whole_int]
  push_cast
  exact le_add_of_nonneg_left (Nat.cast_nonneg branches)

/-- The functions of a module are derived, and the figures of its samples are summed up. -/
theorem exists_totals (counted : ∀ f ∈ m.aggregate :: m.functions, f.IsCounted)
    {total : Exact K kit} (summed : Totals.addParams m.samples Arithmetic.zero = .ok total) :
    ∃ sums, FunctionReport.deriveAll m.functions Totals.zero =
        .ok (m.functions.map FunctionReport.exact, sums) ∧
      (if (m.functions.map FunctionReport.exact).isEmpty then sums.addFunction m.aggregate.exact
        else .ok sums) = .ok (Totals.exact m.samples total) := by
  obtain ⟨whole, each⟩ := List.forall_mem_cons.mp counted
  unfold samples at summed ⊢
  rw [← Totals.exact_nil]
  cases found : m.functions with
  | nil =>
    rw [found] at summed
    have added : Totals.add Arithmetic.zero m.aggregate.params = .ok total := by
      simpa [Totals.addParams] using summed
    exact ⟨_, rfl, Totals.addFunction_exact [] whole added⟩
  | cons f rest =>
    rw [found] at summed each
    exact ⟨_, FunctionReport.deriveAll_eq_exact each [] summed, rfl⟩

/-- A module whose functions are counted, whose parameters can be added up and whose figures have an
index can be derived. Its figures are the means of those of its samples. -/
theorem derive_eq_exact (counted : ∀ f ∈ m.aggregate :: m.functions, f.IsCounted)
    {total : Exact K kit} (summed : Totals.addParams m.samples Arithmetic.zero = .ok total)
    {index : Exact K kit} {rescaled : Bool}
    (indexed : Maintainability.index
      (.real (.finite (FunctionReport.mean m.samples FunctionReport.exactEffort) : Exact K kit))
      (.real (.finite (FunctionReport.mean m.samples fun f => (f.cyclomatic.whole : K))))
      (.real (.finite (FunctionReport.mean m.samples fun f => (f.logical.whole : K)))) rescaled =
        .ok index) :
    m.derive rescaled = .ok {
      m with
      aggregate := m.aggregate.exact
      functions := m.functions.map FunctionReport.exact
      maintainability := .real index
      loc := .real (.finite (FunctionReport.mean m.samples fun f => (f.logical.whole : K)))
      cyclomatic := .real (.finite
        (FunctionReport.mean m.samples fun f => (f.cyclomatic.whole : K)))
      effort := .real (.finite (FunctionReport.mean m.samples FunctionReport.exactEffort))
      params := .real (Arithmetic.div total (Arithmetic.ofInt m.samples.length)) } := by
  obtain ⟨sums, functions, totals⟩ := exists_totals counted summed
  have sampled : (m.samples.length : Int) ≠ 0 := by
    rw [length_samples]
    omega
  have count : max (m.functions.map FunctionReport.exact).length 1 = m.samples.length := by
    rw [List.length_map, length_samples]
  have average : (Totals.exact m.samples total).average m.samples.length =
      { loc := .finite (FunctionReport.mean m.samples fun f => (f.logical.whole : K))
        cyclomatic := .finite (FunctionReport.mean m.samples fun f => (f.cyclomatic.whole : K))
        effort := .finite (FunctionReport.mean m.samples FunctionReport.exactEffort)
        params := Arithmetic.div total (Arithmetic.ofInt m.samples.length) } := by
    simp only [Totals.average, Totals.exact, Exact.div_ofInt _ sampled, Int.cast_natCast,
      FunctionReport.mean]
  refine derive_eq_ok.mpr ⟨_, sums, _, _, index, functions,
    FunctionReport.derive_eq_exact (List.forall_mem_cons.mp counted).1, totals, ?_⟩
  rw [count, average]
  exact ⟨indexed, rfl⟩

end ModuleReport

end SourceMetrics
