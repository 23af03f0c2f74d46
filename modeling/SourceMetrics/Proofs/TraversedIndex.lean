import Mathlib.Analysis.SpecialFunctions.Log.Base
import SourceMetrics.Proofs.IndexBounds
import SourceMetrics.Proofs.ProjectFigures

/-! # The index of a traversed module

The figures of a module are means, and for the index three of them have to be numbers that are not
negative, with some paths. Each function has lines, at least one path and an effort that is not
negative (`FunctionReport.IsCounted.exactEffort_nonneg`), and so have the means. So a traversal
whose rules count whole numbers, none of them negative, ends in a report with an index within its
bounds (`ModuleReport.exists_ofTree`). The numbers of parameters have no part in it; they only have
to be numbers, and those of scopes that could be opened are (`Builder.number_params_of_run`).
-/

namespace SourceMetrics

/-! ## Parameters -/

section Parameters

variable {R : Type} [Arithmetic R]

/-- Only a number can be added to a counter, and the sum is a number again. -/
theorem Value.number_of_increase {counter amount sum : Value R}
    (added : counter.increase amount = .ok sum) :
    amount.number?.isSome = true ∧ sum.number?.isSome = true := by
  unfold increase arithmetic at added
  cases first : counter.number? with
  | none =>
    simp only [first] at added
    cases added
  | some a =>
    cases second : amount.number? with
    | none =>
      simp only [first, second] at added
      cases added
    | some b =>
      simp only [first, second] at added
      cases total : a.add b with
      | error fault =>
        rw [total] at added
        cases added
      | ok n =>
        rw [total] at added
        obtain rfl : n.toValue = sum := Except.ok.inj added
        exact ⟨rfl, by cases n <;> rfl⟩

namespace Builder

open History

variable {call : Interpretation R} {location : Value R} {initial b : Builder R}
  {events : List (Event R)}

private theorem number_params_step {next : Builder R} {event : Event R}
    (done : b.step call event = { state := next })
    (before : b.report.aggregate.params.number?.isSome = true) :
    next.report.aggregate.params.number?.isSome = true ∧
      ∀ opening ∈ event.opening?, opening.2.2.number?.isSome = true := by
  cases event with
  | node visited rule =>
    obtain ⟨-, effect⟩ := effect_of_process done
    obtain ⟨counters, -, changed⟩ := effect.aggregate
    refine ⟨?_, nofun⟩
    rw [changed]
    exact before
  | openScope name place params =>
    obtain ⟨f, sum, -, added, rfl⟩ := openScope_eq_ok done
    obtain ⟨number, total⟩ := Value.number_of_increase added
    refine ⟨total, ?_⟩
    rintro _ ⟨⟩
    exact number
  | closeScope =>
    cases done
    exact ⟨before, nofun⟩

private theorem number_openings_of_run (started : Builder.start location = .ok initial)
    (done : Progress.foldl (Builder.step call) initial events = { state := b }) :
    b.report.aggregate.params.number?.isSome = true ∧
      ∀ opening ∈ openings events, opening.2.2.number?.isSome = true := by
  induction events using List.reverseRecOn generalizing b with
  | nil =>
    cases done
    obtain ⟨f, opened, result⟩ := bind_eq_ok.mp started
    cases result
    have fresh : f.params = .int 0 := (FunctionReport.opened_eq_ok opened).2.2.1
    exact ⟨by rw [fresh]; rfl, nofun⟩
  | append_singleton events event ih =>
    obtain ⟨middle, before, last⟩ := Progress.foldl_concat_eq_ok.mp done
    obtain ⟨sum, earlier⟩ := ih before
    obtain ⟨total, latest⟩ := number_params_step last sum
    refine ⟨total, ?_⟩
    rw [openings_concat]
    intro opening member
    rcases List.mem_append.mp member with inside | inside
    · exact earlier opening inside
    · exact latest opening (Option.mem_toList.mp inside)

/-- After a run, every number of parameters is a number. -/
theorem number_params_of_run (started : Builder.start location = .ok initial)
    (done : Progress.foldl (Builder.step call) initial events = { state := b }) :
    ∀ f ∈ b.report.aggregate :: b.report.functions, f.params.number?.isSome = true := by
  obtain ⟨whole, each⟩ := number_openings_of_run started done
  refine List.forall_mem_cons.mpr ⟨whole, ?_⟩
  intro f member
  have opened : f.params ∈ (openings events).map fun opening => opening.2.2 := by
    rw [← functions_params started done]
    exact List.mem_map_of_mem member
  obtain ⟨opening, inside, same⟩ := List.mem_map.mp opened
  rw [← same]
  exact each opening inside

end Builder

end Parameters

/-! ## Figures -/

variable {K : Type} [Field K] [LinearOrder K] [FloorRing K] {kit : FieldKit K}

private theorem Exact.isMeasured_of_number {value : Value (Exact K kit)}
    (number : value.number?.isSome = true) : value.IsMeasured := by
  obtain ⟨n, found⟩ := Option.isSome_iff_exists.mp number
  unfold Value.IsMeasured Value.toReal
  rw [found]
  cases n with
  | int i => exact ⟨_, toReal_int i⟩
  | real x => exact ⟨x, rfl⟩

variable [IsStrictOrderedRing K]

namespace FunctionReport

variable {f : FunctionReport (Exact K kit)}

/-- The effort of counted tokens is not negative: a logarithm is only taken of a vocabulary that has
a token, and then it is not negative. -/
theorem IsCounted.exactEffort_nonneg (counted : f.IsCounted)
    (binary : ∀ x : K, 1 ≤ x → 0 ≤ kit.binary x) : 0 ≤ f.exactEffort := by
  obtain ⟨⟨N₁, total₁⟩, ⟨n₁, distinct₁⟩, met₁⟩ := counted.tally .operators
  obtain ⟨⟨N₂, total₂⟩, ⟨n₂, distinct₂⟩, met₂⟩ := counted.tally .operands
  simp only [Halstead.tally] at total₁ distinct₁ met₁ total₂ distinct₂ met₂
  rw [total₁, distinct₁, Value.whole_int, Value.whole_int] at met₁
  rw [total₂, distinct₂, Value.whole_int, Value.whole_int] at met₂
  unfold exactEffort
  rw [total₁, distinct₁, total₂, distinct₂]
  simp only [Value.whole_int]
  apply mul_nonneg
  · unfold Measures.difficultyOf
    apply mul_nonneg
    · positivity
    · split <;> positivity
  · unfold Measures.volumeOf
    by_cases nothing : (N₁ + N₂ : Int) = 0
    · rw [nothing, Int.cast_zero, zero_mul]
    · apply mul_nonneg
      · exact Int.cast_nonneg (by omega)
      · have known : (1 : Int) ≤ n₁ + n₂ := by omega
        exact binary _ (by exact_mod_cast known)

omit [FloorRing K] in
private theorem mean_nonneg {R : Type} {samples : List (FunctionReport R)}
    {figure : FunctionReport R → K} (each : ∀ f ∈ samples, 0 ≤ figure f) :
    0 ≤ mean samples figure :=
  div_nonneg (List.sum_nonneg (List.forall_mem_map.mpr each)) (Nat.cast_nonneg _)

end FunctionReport

namespace ModuleReport

open Maintainability

/-- A module whose functions are counted, with any numbers for their parameters, has an index within
its bounds. -/
theorem exists_derive {m : ModuleReport (Exact K kit)}
    (counted : ∀ f ∈ m.aggregate :: m.functions, f.IsCounted)
    (numbers : ∀ f ∈ m.aggregate :: m.functions, f.params.number?.isSome = true)
    (binary : ∀ x : K, 1 ≤ x → 0 ≤ kit.binary x) (rescaled : Bool) :
    ∃ derived index, m.derive rescaled = .ok derived ∧ derived.maintainability = .real index ∧
      IsWithin rescaled index := by
  obtain ⟨total, summed⟩ : ∃ total, Totals.addParams m.samples Arithmetic.zero = .ok total :=
    exists_foldlM_eq_ok (fun f member sum => Totals.add_of_isMeasured
      (Exact.isMeasured_of_number (numbers f (mem_of_mem_samples member))) sum) Arithmetic.zero
  have work : 0 ≤ FunctionReport.mean m.samples FunctionReport.exactEffort :=
    FunctionReport.mean_nonneg fun f member =>
      (counted f (mem_of_mem_samples member)).exactEffort_nonneg binary
  have paths : 0 < FunctionReport.mean m.samples fun f => (f.cyclomatic.whole : K) :=
    one_pos.trans_le (one_le_mean_cyclomatic counted)
  have lines : 0 ≤ FunctionReport.mean m.samples fun f => (f.logical.whole : K) := by
    apply FunctionReport.mean_nonneg
    intro f member
    obtain ⟨count, logical⟩ := (counted f (mem_of_mem_samples member)).logical
    rw [logical, Value.whole_int]
    exact Int.cast_nonneg (Int.natCast_nonneg count)
  exact ⟨_, _, derive_eq_exact counted summed
    (index_eq rfl rfl rfl (fun zero => paths.ne' (Exact.finite.inj zero)) rescaled), rfl,
    isWithin_indexOf work paths lines rescaled⟩

/-- A tree that is walked to its end, with amounts that are whole numbers and not negative, has a
report with an index within its bounds. -/
theorem exists_ofTree (binary : ∀ x : K, 1 ≤ x → 0 ≤ kit.binary x) {tree : Value (Exact K kit)}
    {walk : Value (Exact K kit) → Settings (Exact K kit) → Walk (Exact K kit)}
    {settings : Settings (Exact K kit)} {initial : Builder (Exact K kit)}
    (usable : isTree tree = true) (started : Builder.start (tree.field "loc") = .ok initial)
    (walked : ((walk tree settings).run initial).failure = none)
    (amounts : ∀ item ∈ (walk tree settings).trace.items.flatMap
      (Event.counted (walk tree settings).call), item.isNatural = true) :
    ∃ m index, ofTree tree (.walks walk) (.ok settings) = .ok m ∧
      m.maintainability = .real index ∧ IsWithin (settings.flags .newmi) index := by
  have done : (walk tree settings).run initial =
      { state := ((walk tree settings).run initial).state } := by
    rw [← walked]
  obtain ⟨-, events⟩ := Progress.run_eq_ok.mp done
  obtain ⟨m, index, derived, shown, within⟩ := exists_derive
    (Builder.isCounted_of_run started events amounts) (Builder.number_params_of_run started events)
    binary (settings.flags .newmi)
  refine ⟨m, index, ?_, shown, within⟩
  simp only [ofTree, requireWalk, usable, ↓reduceIte, bind_eq_ok, mapError_eq_ok, liftM_eq_ok]
  refine ⟨walk, rfl, settings, rfl, initial, started, ?_⟩
  simp only [build, walked]
  exact derived

/-- **The index stays within its bounds.** Let averages stand for numbers, infinite values or no
number, but not for no paths at all. Then they have an index, which is not above 171, and rescaled
it is a number between 0 and 100. From an effort and lines that are not negative and a positive
number of paths the index is a number without rescaling as well, and it is the greatest one if there
is no effort or there are no lines.

Such averages belong to every tree that is walked to its end, with amounts that are whole numbers
and not negative, so its report has an index that is a number within these bounds. -/
theorem index_within_bounds (kit : FieldKit K) :
    (∀ (effort cyclomatic loc : Value (Exact K kit)) (e c l : Exact K kit) (rescaled : Bool),
      effort.toReal = .ok e → cyclomatic.toReal = .ok c → loc.toReal = .ok l → c ≠ .finite 0 →
      ∃ index, Maintainability.index effort cyclomatic loc rescaled = .ok index ∧
        Arithmetic.less (.finite 171) index = false ∧
        (rescaled = true → IsWithin true index) ∧
        ∀ x y z : K, e = .finite x → c = .finite y → l = .finite z → 0 ≤ x → 0 < y → 0 ≤ z →
          IsWithin rescaled index ∧
          (x = 0 ∨ z = 0 → index = .finite (if rescaled then 100 else 171))) ∧
    ((∀ x : K, 1 ≤ x → 0 ≤ kit.binary x) →
      ∀ (tree : Value (Exact K kit))
        (walk : Value (Exact K kit) → Settings (Exact K kit) → Walk (Exact K kit))
        (settings : Settings (Exact K kit)) (initial : Builder (Exact K kit)),
        isTree tree = true → Builder.start (tree.field "loc") = .ok initial →
        ((walk tree settings).run initial).failure = none →
        (∀ item ∈ (walk tree settings).trace.items.flatMap
          (Event.counted (walk tree settings).call), item.isNatural = true) →
        ∃ m index, ofTree tree (.walks walk) (.ok settings) = .ok m ∧
          m.maintainability = .real index ∧ IsWithin (settings.flags .newmi) index) := by
  constructor
  · intro effort cyclomatic loc e c l rescaled forEffort forCyclomatic forLoc paths
    refine ⟨_, index_eq forEffort forCyclomatic forLoc paths rescaled, ?_, ?_, ?_⟩
    · rw [← ceiling_eq]
      exact less_ceiling_indexOf e c l rescaled
    · rintro rfl
      exact isWithin_rescaled e c l
    · rintro x y z rfl rfl rfl work paths lines
      exact ⟨isWithin_indexOf work paths lines rescaled,
        fun missing => indexOf_of_none work paths lines missing rescaled⟩
  · intro binary tree walk settings initial usable started walked amounts
    exact exists_ofTree binary usable started walked amounts

/-- The logarithms of the real numbers. Real numbers have no codes that tell them all apart, and
none are needed here. -/
noncomputable def realLogarithms : FieldKit ℝ where
  natural := Real.log
  binary := Real.logb (2 : Nat)
  code _ := 0

/-- A call in a function, which counts no line, and a branch outside of it. -/
def callAndBranch {R : Type} : List (Event R) :=
  [.openScope (.text "f") .null (.bool true),
    .node .null (.dict [("operators", .list [.dict [("identifier", .text "()")]]),
      ("operands", .list [.dict [("identifier", .text "g")]])]),
    .closeScope,
    .node .null (.dict [("lloc", .int 1), ("cyclomatic", .int 1),
      ("operators", .list [.dict [("identifier", .text "if")]])])]

/-- Without a number for the effort the rescaled index is a number all the same. Without effort and
lines the index is 171. And a tree whose only function has no lines has an index within the bounds.
-/
theorem index_within_bounds_callAndBranch :
    (∃ index : Exact ℝ realLogarithms, Maintainability.index (.real .nan) (.int (-2))
      (.real .infinite) true = .ok index ∧ IsWithin true index) ∧
    Maintainability.index (.int 0) (.int 2) (.bool false) false =
      .ok (.finite 171 : Exact ℝ realLogarithms) ∧
    ∃ (m : ModuleReport (Exact ℝ realLogarithms)) (index : Exact ℝ realLogarithms),
      ofTree (.dict []) (.walks fun _ _ => ⟨fun _ _ _ => .ok .null, { items := callAndBranch }⟩)
        (.ok {}) = .ok m ∧
      m.maintainability = .real index ∧ IsWithin false index := by
  obtain ⟨averages, modules⟩ := index_within_bounds realLogarithms
  have integer (i : Int) : (Value.int i : Value (Exact ℝ realLogarithms)).toReal =
      .ok (.finite i) := Exact.toReal_int i
  have untrue : (Value.bool false : Value (Exact ℝ realLogarithms)).toReal =
      .ok (.finite (0 : Int)) := Exact.toReal_int 0
  refine ⟨?_, ?_, ?_⟩
  · obtain ⟨index, indexed, -, rescaled, -⟩ :=
      averages (.real .nan) (.int (-2)) (.real .infinite) .nan _ .infinite true rfl
        (integer (-2)) rfl (by simp)
    exact ⟨index, indexed, rescaled rfl⟩
  · obtain ⟨index, indexed, -, -, numbers⟩ :=
      averages (.int 0) (.int 2) (.bool false) _ _ _ false (integer 0) (integer 2) untrue (by simp)
    obtain ⟨-, greatest⟩ := numbers 0 2 0 (by simp) (by simp) (by simp) le_rfl (by norm_num) le_rfl
    rw [indexed, greatest (.inl rfl)]
    rfl
  · have binary : ∀ x : ℝ, 1 ≤ x → 0 ≤ realLogarithms.binary x := fun x least =>
      Real.logb_nonneg (Nat.one_lt_cast.mpr one_lt_two) least
    have amounts : ((callAndBranch : List (Event (Exact ℝ realLogarithms))).flatMap
        (Event.counted fun _ _ _ => .ok .null)).all Contribution.isNatural = true := rfl
    exact modules binary (.dict []) _ {} _ rfl rfl rfl (List.all_eq_true.mp amounts)

end ModuleReport

end SourceMetrics
