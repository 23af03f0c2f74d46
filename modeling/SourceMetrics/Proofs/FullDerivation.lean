import SourceMetrics.Module.Analysis
import SourceMetrics.Proofs.Outcome

/-! # Derived reports

A function report is derived if its density and its Halstead measures are those of its own counters
(`FunctionReport.IsDerived`). A module report is fully derived if its functions and its aggregate
are and its own figures follow from theirs (`ModuleReport.IsFullyDerived`). Derivation gives such
reports and leaves them as they are: what it computes does not enter what it computes from.
-/

namespace SourceMetrics

variable {R : Type} [Arithmetic R]

/-- Whether a value is a number that the model of the real numbers has room for. -/
def Value.IsMeasured (value : Value R) : Prop :=
  ∃ x, value.toReal = .ok x

namespace FunctionReport

/-- What is derived from the counters of a function is what they give. -/
structure IsDerived (f : FunctionReport R) : Prop where
  density : ∃ x, Maintainability.density f.cyclomatic f.logical = .ok x ∧ f.density = .real x
  measures : Measures.derive f.halstead.operators f.halstead.operands = .ok f.halstead.measures

private theorem isDerived_of_derive {f derived : FunctionReport R} (done : f.derive = .ok derived) :
    derived.IsDerived := by
  simp only [derive, Halstead.derive, bind_eq_ok] at done
  obtain ⟨density, dense, _, ⟨measures, measured, ⟨⟩⟩, ⟨⟩⟩ := done
  exact ⟨⟨density, dense, rfl⟩, measured⟩

private theorem IsDerived.derive_eq {f : FunctionReport R} (derived : f.IsDerived) :
    f.derive = .ok f := by
  obtain ⟨⟨density, dense, same⟩, measured⟩ := derived
  simp only [derive, Halstead.derive, dense, measured, ok_bind]
  cases f
  cases same
  rfl

private theorem deriveAll_again {functions derived : List (FunctionReport R)}
    {start sums : Totals R} (done : deriveAll functions start = .ok (derived, sums)) :
    (∀ f ∈ derived, f.IsDerived) ∧ deriveAll derived start = .ok (derived, sums) := by
  -- Each function adds its derived figures, which are the same the second time, so the sums on the
  -- way are the same as well.
  induction functions generalizing start derived with
  | nil =>
    cases done
    exact ⟨nofun, rfl⟩
  | cons f rest ih =>
    simp only [deriveAll, bind_eq_ok] at done
    obtain ⟨g, first, next, added, ⟨others, total⟩, onward, ⟨⟩⟩ := done
    obtain ⟨complete, again⟩ := ih onward
    have ready := isDerived_of_derive first
    constructor
    · exact List.forall_mem_cons.mpr ⟨ready, complete⟩
    · simp only [deriveAll, bind_eq_ok]
      exact ⟨g, ready.derive_eq, next, added, _, again, rfl⟩

end FunctionReport

namespace ModuleReport

/-- The figures of a module that are averaged over a project are all there. -/
structure IsDerived (m : ModuleReport R) : Prop where
  loc : m.loc.IsMeasured
  cyclomatic : m.cyclomatic.IsMeasured
  effort : m.effort.IsMeasured
  params : m.params.IsMeasured
  maintainability : m.maintainability.IsMeasured

/-- The steps of a derivation: the functions one after another, then the aggregate, which is the
only sample of a module without functions, then the averages and the index. -/
theorem derive_eq_ok {m derived : ModuleReport R} {rescaled : Bool} :
    m.derive rescaled = .ok derived ↔ ∃ functions sums aggregate totals index,
      FunctionReport.deriveAll m.functions Totals.zero = .ok (functions, sums) ∧
      m.aggregate.derive = .ok aggregate ∧
      (if functions.isEmpty then sums.addFunction aggregate else .ok sums) = .ok totals ∧
      let averages := totals.average (max functions.length 1)
      Maintainability.index (.real averages.effort) (.real averages.cyclomatic)
        (.real averages.loc) rescaled = .ok index ∧
      derived = {
        m with
        aggregate
        functions
        maintainability := .real index
        loc := .real averages.loc
        cyclomatic := .real averages.cyclomatic
        effort := .real averages.effort
        params := .real averages.params } := by
  simp only [derive, bind_eq_ok, liftM_eq_ok]
  constructor
  · rintro ⟨⟨functions, sums⟩, each, aggregate, whole, onward⟩
    refine ⟨functions, sums, aggregate, ?_⟩
    -- The rest of the derivation is written out once for each way to come by the totals.
    by_cases empty : functions.isEmpty = true
    · simp only [empty, ↓reduceIte, bind_eq_ok, liftM_eq_ok] at onward ⊢
      obtain ⟨totals, summed, index, indexed, ⟨⟩⟩ := onward
      exact ⟨totals, index, each, whole, summed, indexed, rfl⟩
    · simp only [empty, Bool.false_eq_true, ↓reduceIte, bind_eq_ok] at onward ⊢
      obtain ⟨totals, ⟨⟩, index, indexed, ⟨⟩⟩ := onward
      exact ⟨_, index, each, whole, rfl, indexed, rfl⟩
  · rintro ⟨functions, sums, aggregate, totals, index, each, whole, summed, indexed, rfl⟩
    refine ⟨(functions, sums), each, aggregate, whole, ?_⟩
    by_cases empty : functions.isEmpty = true
    · simp only [empty, ↓reduceIte, bind_eq_ok, liftM_eq_ok] at summed ⊢
      exact ⟨totals, summed, index, indexed, rfl⟩
    · simp only [empty, Bool.false_eq_true, ↓reduceIte, bind_eq_ok] at summed ⊢
      cases summed
      exact ⟨sums, rfl, index, indexed, rfl⟩

/-- The figures are there once they have been derived. -/
theorem isDerived_of_derive {m derived : ModuleReport R} {rescaled : Bool}
    (done : m.derive rescaled = .ok derived) : derived.IsDerived := by
  obtain ⟨_, _, _, _, _, -, -, -, -, rfl⟩ := derive_eq_ok.mp done
  exact ⟨⟨_, rfl⟩, ⟨_, rfl⟩, ⟨_, rfl⟩, ⟨_, rfl⟩, ⟨_, rfl⟩⟩

/-- All figures of a module, of its functions and of its aggregate are those that its counters
give. -/
structure IsFullyDerived (m : ModuleReport R) (rescaled : Bool) : Prop where
  aggregate : m.aggregate.IsDerived
  functions : ∀ f ∈ m.functions, f.IsDerived
  figures : m.IsDerived
  settled : m.derive rescaled = .ok m

/-- What a derivation returns is derived in all its figures. -/
theorem isFullyDerived_of_derive {m derived : ModuleReport R} {rescaled : Bool}
    (done : m.derive rescaled = .ok derived) : derived.IsFullyDerived rescaled := by
  have figures := isDerived_of_derive done
  obtain ⟨functions, sums, aggregate, totals, index, each, whole, summed, indexed, rfl⟩ :=
    derive_eq_ok.mp done
  obtain ⟨complete, again⟩ := FunctionReport.deriveAll_again each
  have ready := FunctionReport.isDerived_of_derive whole
  exact ⟨ready, complete, figures, derive_eq_ok.mpr
    ⟨functions, sums, aggregate, totals, index, again, ready.derive_eq, summed, indexed, rfl⟩⟩

/-- The path of a module does not enter its figures. -/
theorem IsFullyDerived.withPath {m : ModuleReport R} {rescaled : Bool}
    (derived : m.IsFullyDerived rescaled) (path : Value R) :
    IsFullyDerived { m with path } rescaled := by
  obtain ⟨functions, sums, _, totals, index, each, whole, summed, indexed, same⟩ :=
    derive_eq_ok.mp derived.settled
  apply isFullyDerived_of_derive (m := { m with path })
  refine derive_eq_ok.mpr ⟨functions, sums, _, totals, index, each, whole, summed, indexed, ?_⟩
  rw [same]

/-- A report that comes from a tree is fully derived. -/
theorem isFullyDerived_of_ofTree {tree : Value R} {walker : Walker R} {settings : Settings R}
    {m : ModuleReport R} (done : ofTree tree walker (.ok settings) = .ok m) :
    m.IsFullyDerived (settings.flags .newmi) := by
  simp only [ofTree, bind_eq_ok, mapError_eq_ok] at done
  obtain ⟨walk, -, accepted, ⟨⟩, b, -, built⟩ := done
  simp only [build] at built
  split at built
  · cases built
  · exact isFullyDerived_of_derive built

end ModuleReport

end SourceMetrics
