import SourceMetrics.Proofs.RuleContributions
import SourceMetrics.Real.Binary64
import SourceMetrics.Value.Field

/-! # Tokens that are rejected by their filters

The identifier of a token is computed before its filter is asked, and either of the two may fail. So
a token that its filter rejects adds nothing to a report, but it may still end the node. Without the
rejected tokens a node makes the contributions that it makes with them, and those after the failure
as well (`Rule.cutShort_contributions`).
-/

namespace SourceMetrics

variable {R : Type}

namespace Trace

variable {α β : Type} {failures : Failure R → Prop}

/-- A trace goes as another one does, unless it is cut short by one of some failures. -/
def CutShort (failures : Failure R → Prop) (trace whole : Trace R α) : Prop :=
  trace = whole ∨ ∃ failure rest, failures failure ∧ trace.failure = some failure ∧
    whole.items = trace.items ++ rest

private theorem CutShort.refl (trace : Trace R α) : CutShort failures trace trace :=
  .inl rfl

private theorem cutShort_fail {failure : Failure R} (known : failures failure) (whole : Trace R α) :
    CutShort failures (fail failure) whole :=
  .inr ⟨failure, whole.items, known, rfl, rfl⟩

private theorem append_of_failure {first : Trace R α} {failure : Failure R}
    (failed : first.failure = some failure) (second : Trace R α) : first ++ second = first := by
  change append first second = first
  simp only [append, failed]

private theorem items_append (first second : Trace R α) :
    ∃ rest, (first ++ second).items = first.items ++ rest := by
  change ∃ rest, (append first second).items = first.items ++ rest
  unfold append
  split
  · exact ⟨[], (List.append_nil _).symm⟩
  · exact ⟨second.items, rfl⟩

private theorem CutShort.append {first second whole more : Trace R α}
    (start : CutShort failures first whole) (onward : CutShort failures second more) :
    CutShort failures (first ++ second) (whole ++ more) := by
  rcases start with rfl | ⟨failure, rest, known, failed, longer⟩
  · rcases onward with rfl | ⟨failure, rest, known, failed, longer⟩
    · exact .refl _
    · cases stopped : first.failure with
      | some earlier =>
        rw [append_of_failure stopped, append_of_failure stopped]
        exact .refl _
      | none =>
        right
        change ∃ failure rest, failures failure ∧
          (Trace.append first second).failure = some failure ∧
          (Trace.append first more).items = (Trace.append first second).items ++ rest
        simp only [Trace.append, stopped]
        refine ⟨failure, rest, known, failed, ?_⟩
        rw [longer, List.append_assoc]
  · right
    obtain ⟨later, longest⟩ := items_append whole more
    rw [append_of_failure failed]
    refine ⟨failure, rest ++ later, known, failed, ?_⟩
    rw [longest, longer, List.append_assoc]

/-- Leaving out items that contribute nothing, or fail, matters only where one of them fails. -/
theorem cutShort_concat_filter {trace : β → Trace R α} {keep : β → Bool} {items : List β}
    (dropped : ∀ item ∈ items, keep item = false →
      trace item = {} ∨ ∃ failure, failures failure ∧ trace item = fail failure) :
    CutShort failures (concat (items.map trace)) (concat ((items.filter keep).map trace)) := by
  induction items with
  | nil => exact .refl _
  | cons item rest ih =>
    rw [List.forall_mem_cons] at dropped
    cases kept : keep item with
    | true =>
      rw [List.filter_cons_of_pos kept]
      exact .append (.refl _) (ih dropped.2)
    | false =>
      rw [List.filter_cons_of_neg (by simp [kept]), List.map_cons, concat]
      rcases dropped.1 kept with nothing | ⟨failure, known, fails⟩
      · rw [nothing]
        exact ih dropped.2
      · rw [fails, append_of_failure rfl]
        exact cutShort_fail known _

private theorem failure_of_mem_concat {traces : List (Trace R α)}
    (calm : (concat traces).failure = none) : ∀ trace ∈ traces, trace.failure = none := by
  induction traces with
  | nil => exact fun _ member => absurd member List.not_mem_nil
  | cons first rest ih =>
    obtain ⟨firstCalm, restCalm, -⟩ := failure_append_eq_none calm
    exact List.forall_mem_cons.mpr ⟨firstCalm, ih restCalm⟩

end Trace

namespace Progress

variable {σ α : Type} {step : σ → α → Progress R σ}

/-- A trace that is cut short is carried out as the whole one, or ends with the failure. -/
theorem run_of_cutShort {failures : Failure R → Prop} {trace whole : Trace R α}
    (cut : Trace.CutShort failures trace whole) (s : σ) :
    run step s trace = run step s whole ∨
      ∃ failure, failures failure ∧ (run step s trace).failure = some failure := by
  rcases cut with rfl | ⟨failure, rest, known, failed, longer⟩
  · exact .inl rfl
  · cases stopped : (foldl step s trace.items).failure with
    | none =>
      right
      refine ⟨failure, known, ?_⟩
      simp only [run, stopped, failed]
    | some earlier =>
      left
      simp only [run, longer, foldl_append, stopped]

private theorem failure_trace_eq_none {s : σ} {trace : Trace R α}
    (calm : (run step s trace).failure = none) : trace.failure = none := by
  have done : run step s trace = { state := (run step s trace).state } := by
    rw [← calm]
  exact (run_eq_ok.mp done).1

end Progress

namespace Value

/-- A list or a tuple with the items that pass a test. -/
def filterItems (test : Value R → Bool) : Value R → Value R
  | .list items => .list (items.filter test)
  | .tuple items => .tuple (items.filter test)
  | value => value

private theorem items?_filterItems (test : Value R → Bool) (value : Value R) :
    (value.filterItems test).items?.getD [] = (value.items?.getD []).filter test := by
  cases value <;> rfl

/-- A record or a mapping with the fields of some names changed. -/
def mapFields (names : List String) (change : Value R → Value R) : Value R → Value R
  | .dict entries =>
    .dict (entries.map fun entry => (entry.1, if entry.1 ∈ names then change entry.2 else entry.2))
  | .record kind fields =>
    .record kind
      (fields.map fun entry => (entry.1, if entry.1 ∈ names then change entry.2 else entry.2))
  | value => value

private theorem field_mapFields (names : List String) {change : Value R → Value R}
    (absent : change .null = .null) (value : Value R) (name : String) :
    (value.mapFields names change).field name =
      if name ∈ names then change (value.field name) else value.field name := by
  have entries (fields : Entries (Value R)) :
      ((fields.map fun entry =>
          (entry.1, if entry.1 ∈ names then change entry.2 else entry.2)).lookup name).getD .null =
        if name ∈ names then change ((fields.lookup name).getD .null)
        else (fields.lookup name).getD .null := by
    induction fields with
    | nil => simp [absent]
    | cons entry rest ih =>
      obtain ⟨key, held⟩ := entry
      by_cases same : name = key
      · subst same
        simp
      · have apart : (name == key) = false := by simpa using same
        simpa [List.lookup_cons, apart] using ih
  cases value with
  | dict fields => exact entries fields
  | record kind fields => exact entries fields
  | _ => simp [mapFields, field, field?, absent]

end Value

namespace Rule

variable (call : Interpretation R)

/-- Whether a token has a filter that is a function and does not return the truth value true. -/
def isRejected (node token : Value R) : Bool :=
  match token.field "filter" with
  | .function handle =>
    match call handle node none with
    | .ok (.bool true) => false
    | _ => true
  | _ => false

/-- A rule without the tokens that are rejected for a node. -/
def withoutRejected (node rule : Value R) : Value R :=
  rule.mapFields ["operators", "operands"]
    (Value.filterItems fun token => !isRejected call node token)

variable {call} {node rule : Value R}

private theorem passes_of_isRejected {candidate : Value R}
    (rejected : isRejected call node candidate = true) :
    passes call node candidate = .ok false ∨
      ∃ failure, passes call node candidate = .error failure := by
  unfold isRejected at rejected
  unfold passes
  generalize candidate.field "filter" = filter at rejected ⊢
  cases filter with
  | function handle =>
    dsimp only at rejected ⊢
    generalize call handle node none = answer at rejected ⊢
    cases answer with
    | error failure => exact .inr ⟨failure, rfl⟩
    | ok value =>
      left
      rw [ok_bind]
      split
      · cases rejected
      · rfl
  | _ => cases rejected

/-- A rejected token adds nothing, and it fails if its identifier or its filter does. -/
theorem token_of_isRejected {candidate : Value R}
    (rejected : isRejected call node candidate = true) :
    (∃ identifier, resolve call node (candidate.field "identifier") = .ok identifier ∧
      passes call node candidate = .ok false ∧ token call node candidate = .ok none) ∨
    ∃ failure, (resolve call node (candidate.field "identifier") = .error failure ∨
      passes call node candidate = .error failure) ∧
        token call node candidate = .error failure := by
  unfold token
  cases found : resolve call node (candidate.field "identifier") with
  | error failure => exact .inr ⟨failure, .inl rfl, rfl⟩
  | ok identifier =>
    rcases passes_of_isRejected rejected with no | ⟨failure, fails⟩
    · rw [no]
      exact .inl ⟨identifier, rfl, rfl, rfl⟩
    · rw [fails]
      exact .inr ⟨failure, .inr rfl, rfl⟩

private theorem tokens_withoutRejected (tokenClass : TokenClass) :
    tokens (withoutRejected call node rule) tokenClass =
      (tokens rule tokenClass).filter fun token => !isRejected call node token := by
  have named : tokenClass.name ∈ ["operators", "operands"] := by cases tokenClass <;> decide
  rw [tokens, withoutRejected, Value.field_mapFields _ rfl, if_pos named, Value.items?_filterItems]
  rfl

/-- The failures with which the rejected tokens of a rule may end a node. -/
def RejectedFails (call : Interpretation R) (node rule : Value R) (failure : Failure R) : Prop :=
  ∃ tokenClass, ∃ candidate ∈ tokens rule tokenClass, isRejected call node candidate = true ∧
    (resolve call node (candidate.field "identifier") = .error failure ∨
      passes call node candidate = .error failure)

private theorem cutShort_tokenTrace (tokenClass : TokenClass) :
    Trace.CutShort (RejectedFails call node rule) (tokenTrace call node rule tokenClass)
      (tokenTrace call node (withoutRejected call node rule) tokenClass) := by
  rw [tokenTrace, tokenTrace, tokens_withoutRejected]
  apply Trace.cutShort_concat_filter
  intro candidate member dropped
  have rejected : isRejected call node candidate = true := by simpa using dropped
  rcases token_of_isRejected rejected with ⟨-, -, -, nothing⟩ | ⟨failure, why, fails⟩
  · left
    rw [nothing]
    rfl
  · right
    rw [fails]
    exact ⟨failure, ⟨tokenClass, candidate, member, rejected, why⟩, rfl⟩

variable [Arithmetic R]

/-- Without the rejected tokens a rule contributes the same, unless one of them fails. -/
theorem cutShort_contributions (clear : Bool) :
    Trace.CutShort (RejectedFails call node rule) (contributions call clear node rule)
      (contributions call clear node (withoutRejected call node rule)) := by
  have field (name : String) (other : name ∉ ["operators", "operands"]) :
      (withoutRejected call node rule).field name = rule.field name := by
    rw [withoutRejected, Value.field_mapFields _ rfl, if_neg other]
  simp only [contributions, amount, dependencies, field "lloc" (by decide),
    field "cyclomatic" (by decide), field "dependencies" (by decide), Trace.concat]
  exact .append (.refl _) (.append (.refl _) (.append (cutShort_tokenTrace .operators)
    (.append (cutShort_tokenTrace .operands) (.refl _))))

private theorem token_ne_error {clear : Bool}
    (calm : (contributions call clear node rule).failure = none) {tokenClass : TokenClass}
    {candidate : Value R} (member : candidate ∈ tokens rule tokenClass) (failure : Failure R) :
    token call node candidate ≠ .error failure := by
  have each := Trace.failure_of_mem_concat calm
  have classCalm : (tokenTrace call node rule tokenClass).failure = none := by
    apply each
    cases tokenClass <;> simp
  have own := Trace.failure_of_mem_concat classCalm _ (List.mem_map_of_mem member)
  intro fails
  rw [fails] at own
  cases own

end Rule

namespace Builder

open SourceMetrics.Rule

variable [Arithmetic R]

private theorem process_withoutRejected (call : Interpretation R) (b : Builder R)
    (node rule : Value R) :
    b.process call node rule = b.process call node (withoutRejected call node rule) ∨
      ∃ failure, RejectedFails call node rule failure ∧
        (b.process call node rule).failure = some failure :=
  Progress.run_of_cutShort (cutShort_contributions b.clear) b

/-- **Rejected tokens have no effect unless they fail.** A node does to a builder what it does
without the tokens that the filters of its rule reject, or it ends with the failure of such a token:
a filter is asked only after the identifier has been computed, and a failure of either ends the
node. If the node is taken without the rejected tokens, then its outcome with them is the same
exactly if the identifiers of all of them can be computed and their filters return. -/
theorem rejected_tokens_idle_unless_failing (call : Interpretation R) (b : Builder R)
    (node rule : Value R) :
    (b.process call node rule = b.process call node (withoutRejected call node rule) ∨
      ∃ failure, RejectedFails call node rule failure ∧
        (b.process call node rule).failure = some failure) ∧
    ((b.process call node (withoutRejected call node rule)).failure = none →
      (b.process call node rule = b.process call node (withoutRejected call node rule) ↔
        ∀ tokenClass, ∀ candidate ∈ tokens rule tokenClass,
          isRejected call node candidate = true →
          (∃ identifier, resolve call node (candidate.field "identifier") = .ok identifier) ∧
            passes call node candidate = .ok false)) := by
  refine ⟨process_withoutRejected call b node rule, ?_⟩
  intro calm
  constructor
  · intro same tokenClass candidate member rejected
    rw [← same] at calm
    rcases token_of_isRejected rejected with ⟨identifier, found, no, -⟩ | ⟨failure, -, fails⟩
    · exact ⟨⟨identifier, found⟩, no⟩
    · exact absurd fails (token_ne_error (Progress.failure_trace_eq_none calm) member failure)
  · intro idle
    rcases process_withoutRejected call b node rule with
      same | ⟨failure, ⟨tokenClass, candidate, member, rejected, why⟩, -⟩
    · exact same
    · obtain ⟨⟨identifier, found⟩, no⟩ := idle tokenClass candidate member rejected
      rw [found, no] at why
      rcases why with impossible | impossible <;> cases impossible

/-- Two functions of a node: its name, which has to be there, and whether it is there. -/
def naming : Interpretation Binary64 := fun handle node _ =>
  if handle = 0 then (node.require "name").mapError .fault
  else .ok (.bool (node.field? "name").isSome)

/-- A rule with the name of a node as an operand, if the node has one. -/
def namedOperand : Value Binary64 :=
  .dict [("operands", .list [.dict [("identifier", .function 0), ("filter", .function 1)]])]

/-- A node without a name fails, although the filter of the only token rejects it. -/
theorem rejected_tokens_idle_unless_failing_unnamed :
    let b : Builder Binary64 := { report := { aggregate := .empty } }
    (b.process naming (.dict []) namedOperand).failure = some (.fault (.missingKey "name")) ∧
    (b.process naming (.dict [])
      (withoutRejected naming (.dict []) namedOperand)).failure = none ∧
    b.process naming (.dict []) namedOperand ≠
      b.process naming (.dict []) (withoutRejected naming (.dict []) namedOperand) := by
  intro b
  have calm : (b.process naming (.dict [])
      (withoutRejected naming (.dict []) namedOperand)).failure = none := rfl
  refine ⟨rfl, calm, ?_⟩
  rw [Ne, (rejected_tokens_idle_unless_failing naming b (.dict []) namedOperand).2 calm]
  intro idle
  obtain ⟨⟨identifier, found⟩, -⟩ := idle .operands _ List.mem_cons_self rfl
  cases found

end Builder

end SourceMetrics
