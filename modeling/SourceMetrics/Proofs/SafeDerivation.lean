import SourceMetrics.Proofs.ExactDerivation

/-! # Derivation after a run never fails

The derivation of a report checks little of what it relies on. It can do so because of what a
builder keeps up through every run: lines do not become negative, every function has at least one
path, and there is a distinct token as soon as any token has occurred (`Builder.isCounted_of_run`).
In exact arithmetic this is all that a derivation needs (`Builder.derivation_never_fails`).
-/

namespace SourceMetrics

/-- Whether the amount of a contribution, if it has one, is an integer and not negative. -/
def Contribution.isNatural {R : Type} [Arithmetic R] (item : Contribution R) : Bool :=
  item.isWhole && decide (0 ≤ item.lines) && decide (0 ≤ item.branches)

section Counted

variable {R : Type} [Arithmetic R]

private theorem Contribution.isNatural_iff {item : Contribution R} :
    item.isNatural = true ↔ item.isWhole = true ∧ 0 ≤ item.lines ∧ 0 ≤ item.branches := by
  simp [isNatural, and_assoc]

private theorem Tally.Counts.isCounted {tally : Tally R} {occurrences : List Key}
    (counts : tally.Counts occurrences) : tally.IsCounted where
  total := ⟨_, counts.total⟩
  distinct := ⟨_, counts.distinct⟩
  met := by
    rw [counts.total, counts.distinct, Value.whole_int, Value.whole_int, Int.natCast_eq_zero,
      Int.natCast_eq_zero, Key.distinctCount_eq_zero, List.length_eq_zero_iff]

private theorem FunctionReport.isCounted_of_totals {f : FunctionReport R}
    {items : List (Contribution R)} (natural : ∀ item ∈ items, item.isNatural = true)
    (totals : f.counters.Totals items) : f.IsCounted where
  logical := by
    have counted : f.logical = .int (items.map Contribution.lines).sum := totals.logical
    have sum : 0 ≤ (items.map Contribution.lines).sum :=
      List.sum_nonneg (List.forall_mem_map.mpr fun item inside =>
        (Contribution.isNatural_iff.mp (natural item inside)).2.1)
    exact ⟨_, by rw [counted, Int.toNat_of_nonneg sum]⟩
  cyclomatic := by
    have counted : f.cyclomatic = .int (1 + (items.map Contribution.branches).sum) :=
      totals.cyclomatic
    have sum : 0 ≤ (items.map Contribution.branches).sum :=
      List.sum_nonneg (List.forall_mem_map.mpr fun item inside =>
        (Contribution.isNatural_iff.mp (natural item inside)).2.2)
    exact ⟨_, by rw [counted, Int.toNat_of_nonneg sum, Int.add_comm]⟩
  tally tokenClass := (totals.counts_tally tokenClass).isCounted

end Counted

namespace Builder

open History

section Run

variable {R : Type} [Arithmetic R] {call : Interpretation R} {location : Value R}
  {initial b : Builder R} {events : List (Event R)}

/-- What a run keeps up in the report of every function and of the module as a whole. -/
theorem isCounted_of_run (started : Builder.start location = .ok initial)
    (done : Progress.foldl (Builder.step call) initial events = { state := b })
    (amounts : ∀ item ∈ events.flatMap (Event.counted call), item.isNatural = true) :
    ∀ f ∈ b.report.aggregate :: b.report.functions, f.IsCounted := by
  have shares := shares_of_run started done fun item member =>
    (Contribution.isNatural_iff.mp (amounts item member)).1
  intro f member
  rcases List.mem_cons.mp member with rfl | listed
  · exact FunctionReport.isCounted_of_totals amounts shares.whole
  · obtain ⟨k, found⟩ := List.getElem?_of_mem listed
    apply FunctionReport.isCounted_of_totals _ (shares.each k f found)
    intro item inside
    have below := (List.getElem?_eq_some_iff.mp found).1
    exact amounts item (shares.parts.mem_iff.mpr (List.mem_append_left _
      (List.mem_flatMap.mpr ⟨k, List.mem_range.mpr below, inside⟩)))

end Run

variable {K : Type} [Field K] [LinearOrder K] [IsStrictOrderedRing K] [FloorRing K]
  {kit : FieldKit K} {call : Interpretation (Exact K kit)} {location : Value (Exact K kit)}
  {initial b : Builder (Exact K kit)} {events : List (Event (Exact K kit))}

/-- **Derivation never fails after a run.** In exact arithmetic this holds of every run whose
amounts are integers and not negative and whose numbers of parameters are integers. Each function,
and the module as a whole, has a path, and distinct tokens if it has any, so its measures are those
of their definitions: the logarithm is that of a positive number, and the ratio of operands is taken
if there are operands. The figures of the module are means over its functions, or over the module as
a whole if it has none; there is at least one path on average, and so an index. -/
theorem derivation_never_fails (started : Builder.start location = .ok initial)
    (done : Progress.foldl (Builder.step call) initial events = { state := b })
    (amounts : ∀ item ∈ events.flatMap (Event.counted call), item.isNatural = true)
    (integers : ∀ opening ∈ openings events, opening.2.2.integer?.isSome = true)
    (rescaled : Bool) :
    (∀ f ∈ b.report.aggregate :: b.report.functions,
      1 ≤ f.cyclomatic.whole ∧
      (f.halstead.operators.total.whole + f.halstead.operands.total.whole ≠ 0 →
        1 ≤ f.halstead.operators.distinct.whole + f.halstead.operands.distinct.whole) ∧
      f.derive = .ok f.exact) ∧
    b.report.samples ≠ [] ∧
    1 ≤ FunctionReport.mean b.report.samples (fun f => (f.cyclomatic.whole : K)) ∧
    ∃ index, b.report.derive rescaled = .ok {
      b.report with
      aggregate := b.report.aggregate.exact
      functions := b.report.functions.map FunctionReport.exact
      maintainability := .real index
      loc := .real (.finite
        (FunctionReport.mean b.report.samples fun f => (f.logical.whole : K)))
      cyclomatic := .real (.finite
        (FunctionReport.mean b.report.samples fun f => (f.cyclomatic.whole : K)))
      effort := .real (.finite
        (FunctionReport.mean b.report.samples FunctionReport.exactEffort))
      params := .real (.finite
        (FunctionReport.mean b.report.samples fun f => (f.params.whole : K))) } := by
  have counted := isCounted_of_run started done amounts
  have conserved := conserved_of_run started done
    (fun item member => (Contribution.isNatural_iff.mp (amounts item member)).1) integers
  have paths := ModuleReport.one_le_mean_cyclomatic counted
  have sampled : b.report.samples.length ≠ 0 := by
    rw [b.report.length_samples]
    omega
  refine ⟨?_, fun empty => sampled (by rw [empty, List.length_nil]), paths, ?_⟩
  · intro f member
    refine ⟨?_, ?_, FunctionReport.derive_eq_exact (counted f member)⟩
    · obtain ⟨branches, paths⟩ := (counted f member).cyclomatic
      rw [paths, Value.whole_int]
      omega
    · obtain ⟨-, ⟨n₁, distinct₁⟩, met₁⟩ := (counted f member).tally .operators
      obtain ⟨-, ⟨n₂, distinct₂⟩, met₂⟩ := (counted f member).tally .operands
      simp only [Halstead.tally] at distinct₁ met₁ distinct₂ met₂
      rw [distinct₁, Value.whole_int] at met₁ ⊢
      rw [distinct₂, Value.whole_int] at met₂ ⊢
      omega
  · have summed := Totals.addParams_wholes (fun f member =>
      (conserved.whole f (ModuleReport.mem_of_mem_samples member)).params) (0 : K)
    rw [← Exact.zero_eq, zero_add] at summed
    obtain ⟨index, indexed⟩ := Exact.exists_index
      (.finite (FunctionReport.mean b.report.samples FunctionReport.exactEffort) : Exact K kit)
      (.finite (FunctionReport.mean b.report.samples fun f => (f.logical.whole : K)))
      (one_pos.trans_le paths).ne' rescaled
    refine ⟨index, (ModuleReport.derive_eq_exact counted summed indexed).trans ?_⟩
    rw [Exact.div_ofInt _ (Int.natCast_ne_zero.mpr sampled), Int.cast_natCast]
    rfl

/-- A rule for assignments: a line, a branch, an operator and a number as an operand. -/
def assigning (number : ℚ) : Value (Exact ℚ .lines) :=
  .dict [("lloc", .int 1), ("cyclomatic", .int 1),
    ("operators", .list [.dict [("identifier", .text "=")]]),
    ("operands", .list [.dict [("identifier", .real (.finite number))]])]

/-- Assignments of two fractions in a function, and one outside of it. -/
def assignments : List (Event (Exact ℚ .lines)) :=
  [.openScope (.text "f") .null (.int 2), .node .null (assigning (1 / 2)),
    .node .null (assigning (1 / 4)), .node .null (assigning (1 / 2)), .closeScope,
    .node .null (assigning (1 / 4))]

/-- The only function has four paths, and two distinct operands for three occurrences. -/
theorem derivation_never_fails_assignments :
    ∃ (initial b : Builder (Exact ℚ .lines)) (derived : ModuleReport (Exact ℚ .lines)),
      Builder.start .null = .ok initial ∧
      Progress.foldl (Builder.step fun _ _ _ => .ok .null) initial assignments = { state := b } ∧
      b.report.derive false = .ok derived ∧ derived.cyclomatic = .real (.finite 4) ∧
      derived.functions.map (fun f => f.halstead.operands.distinct) = [.int 2] ∧
      derived.effort = .real (.finite 9) ∧ derived.params = .real (.finite 2) := by
  obtain ⟨initial, started⟩ :
      ∃ initial : Builder (Exact ℚ .lines), Builder.start .null = .ok initial := ⟨_, rfl⟩
  obtain ⟨b, done⟩ : ∃ b : Builder (Exact ℚ .lines), Progress.foldl
      (Builder.step fun _ _ _ => .ok .null) initial assignments = { state := b } := by
    cases started
    exact ⟨_, by with_unfolding_all rfl⟩
  have amounts : (assignments.flatMap (Event.counted fun _ _ _ => .ok .null)).all
      Contribution.isNatural = true := rfl
  have integers : (openings assignments).all
      (fun opening => opening.2.2.integer?.isSome) = true := rfl
  obtain ⟨-, -, -, index, derived⟩ := derivation_never_fails started done
    (List.all_eq_true.mp amounts) (List.all_eq_true.mp integers) false
  refine ⟨initial, b, _, started, done, derived, ?_⟩
  cases started
  cases done
  refine ⟨?_, ?_, ?_, ?_⟩
  · change Value.real (Exact.finite ((((4 : Int) : ℚ) + 0) / ((1 : Nat) : ℚ))) = _
    norm_num
  · with_unfolding_all rfl
  · with_unfolding_all change Value.real (Exact.finite
      ((Measures.difficultyOf 1 2 3 * Measures.volumeOf .lines 1 2 3 3 + 0) / ((1 : Nat) : ℚ))) = _
    norm_num [Measures.difficultyOf, Measures.volumeOf, FieldKit.lines]
  · change Value.real (Exact.finite ((((2 : Int) : ℚ) + 0) / ((1 : Nat) : ℚ))) = _
    norm_num

end Builder

end SourceMetrics
