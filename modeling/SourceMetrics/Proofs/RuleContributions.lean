import SourceMetrics.Proofs.BuilderSteps
import SourceMetrics.Proofs.EntryOrder

/-! # Rules without their dependencies

A rule's contributions to counters come first and its dependencies last, so the former do not depend
on whether another rule has reported dependencies before (`Rule.contributions_eq`). A rule whose
`dependencies` entry is dropped makes just the contributions to counters
(`Rule.contributions_withoutDependencies`).
-/

namespace SourceMetrics

variable {R : Type}

namespace Trace

variable {α : Type}

private theorem append_assoc (first second third : Trace R α) :
    first ++ second ++ third = first ++ (second ++ third) := by
  change append (append first second) third = append first (append second third)
  cases failed : first.failure with
  | some failure => simp [append, failed]
  | none =>
    cases broken : second.failure with
    | some failure => simp [append, failed, broken]
    | none => simp [append, failed, broken]

@[simp] theorem append_empty (trace : Trace R α) : trace ++ ({} : Trace R α) = trace := by
  change append trace {} = trace
  cases failed : trace.failure with
  | some failure => simp [append, failed]
  | none =>
    simp only [append, failed, List.append_nil]
    rw [← failed]

/-- Two traces that do not fail together do not fail apart, and have the items of both. -/
theorem failure_append_eq_none {first second : Trace R α}
    (calm : (first ++ second).failure = none) :
    first.failure = none ∧ second.failure = none ∧
      (first ++ second).items = first.items ++ second.items := by
  change (append first second).failure = none at calm
  change _ ∧ _ ∧ (append first second).items = _
  cases failed : first.failure with
  | some failure =>
    simp only [append, failed] at calm
    cases calm
  | none =>
    simp only [append, failed] at calm ⊢
    exact ⟨trivial, calm, trivial⟩

end Trace

namespace Value

/-- A record or a mapping without the field of a name. -/
def dropField (name : String) : Value R → Value R
  | .dict entries => .dict (entries.filter fun entry => entry.1 ≠ name)
  | .record kind fields => .record kind (fields.filter fun entry => entry.1 ≠ name)
  | value => value

private theorem field_dropField (value : Value R) (name other : String) :
    (value.dropField name).field other = if other = name then .null else value.field other := by
  have entries (fields : Entries (Value R)) :
      ((fields.filter fun entry => entry.1 ≠ name).lookup other).getD .null =
        if other = name then .null else (fields.lookup other).getD .null := by
    rw [Entries.lookup_filter fun key => key ≠ name]
    by_cases same : other = name
    · simp [same]
    · simp [same]
  cases value with
  | dict fields => exact entries fields
  | record kind fields => exact entries fields
  | _ => simp [dropField, field, field?]

end Value

namespace Rule

variable [Arithmetic R] (call : Interpretation R)

/-- The contributions of a node to counters. -/
def counted (node rule : Value R) : Trace R (Contribution R) :=
  Trace.concat
    [Trace.ofExcept ((amount call node rule "lloc").map (·.map Contribution.logical)),
     Trace.ofExcept ((amount call node rule "cyclomatic").map (·.map Contribution.cyclomatic)),
     tokenTrace call node rule .operators,
     tokenTrace call node rule .operands]

/-- A rule without the entry for its dependencies. -/
def withoutDependencies (rule : Value R) : Value R :=
  rule.dropField "dependencies"

/-- The dependencies of a node are reported after its contributions to counters. -/
theorem contributions_eq (clear : Bool) (node rule : Value R) :
    contributions call clear node rule = counted call node rule ++ Trace.ofExcept
      ((dependencies call clear node rule).map (·.map Contribution.dependencies)) := by
  simp only [contributions, counted, Trace.concat, Trace.append_empty, Trace.append_assoc]

/-- What a rule counts does not depend on the dependencies it reports. -/
theorem counted_withoutDependencies (node rule : Value R) :
    counted call node (withoutDependencies rule) = counted call node rule := by
  have field (name : String) (other : name ≠ "dependencies") :
      (withoutDependencies rule).field name = rule.field name := by
    rw [withoutDependencies, Value.field_dropField, if_neg other]
  simp only [counted, amount, tokenTrace, tokens, TokenClass.name, field "lloc" (by decide),
    field "cyclomatic" (by decide), field "operators" (by decide), field "operands" (by decide)]

/-- A rule without its dependencies contributes to counters only, and the same as before. -/
theorem contributions_withoutDependencies (clear : Bool) (node rule : Value R) :
    contributions call clear node (withoutDependencies rule) = counted call node rule := by
  have nothing : dependencies call clear node (withoutDependencies rule) = .ok none := by
    rw [dependencies, withoutDependencies, Value.field_dropField, if_pos rfl]
  rw [contributions_eq, nothing, counted_withoutDependencies]
  exact Trace.append_empty _

/-- Where all contributions of a node are computed, those that do not go to counters are
dependencies. -/
theorem contributions_items {clear : Bool} {node rule : Value R}
    (calm : (contributions call clear node rule).failure = none) :
    (counted call node rule).failure = none ∧
      ∃ reported, (contributions call clear node rule).items =
        (counted call node rule).items ++ reported ∧
        ∀ item ∈ reported, item.isDependencies = true := by
  rw [contributions_eq] at calm ⊢
  obtain ⟨first, -, items⟩ := Trace.failure_append_eq_none calm
  refine ⟨first, _, items, ?_⟩
  intro item member
  match found : dependencies call clear node rule with
  | .error failure => simp [found, Except.map, Trace.ofExcept, Trace.fail] at member
  | .ok none => simp [found, Except.map, Trace.ofExcept] at member
  | .ok (some records) =>
    simp only [found, Except.map, Option.map_some, Trace.ofExcept, Trace.item,
      List.mem_singleton] at member
    subst member
    rfl

end Rule

end SourceMetrics
