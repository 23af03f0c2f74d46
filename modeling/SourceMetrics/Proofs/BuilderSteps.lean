import Mathlib.Data.List.Induction
import SourceMetrics.Proofs.Outcome
import SourceMetrics.Traversal.Builder

/-! # What an event does to a builder

A node contributes to the report of the innermost open scope and to the module as a whole, and to
nothing else. `Builder.Effect` says so for a row of contributions: which fields they leave alone and
how the others follow from them. Effects of rows add up, so what holds of one contribution holds of
all contributions of a node (`Builder.effect_of_process`). Opening a scope is a single change of the
builder (`Builder.openScope_eq_ok`).

Without an open scope a row of contributions succeeds as soon as the module as a whole can take it
(`Builder.foldl_take_of_noScope`).
-/

namespace SourceMetrics

variable {R : Type}

namespace Progress

variable {σ α : Type} {step : σ → α → Progress R σ} {s next : σ}

/-- A row of items is carried out to its end if the first one is and the others are after it. -/
theorem foldl_cons_eq_ok {a : α} {rest : List α} :
    foldl step s (a :: rest) = { state := next } ↔
      ∃ middle, step s a = { state := middle } ∧ foldl step middle rest = { state := next } := by
  constructor
  · intro done
    cases failed : (step s a).failure with
    | none =>
      refine ⟨(step s a).state, by rw [← failed], ?_⟩
      simpa only [foldl, failed] using done
    | some failure =>
      simp only [foldl, failed] at done
      rw [done] at failed
      cases failed
  · rintro ⟨middle, first, onward⟩
    simpa only [foldl, first] using onward

/-- Steps in two parts succeed exactly if the first part does and the second one from there. -/
theorem foldl_append_eq_ok {first second : List α} :
    foldl step s (first ++ second) = { state := next } ↔
      ∃ middle, foldl step s first = { state := middle } ∧
        foldl step middle second = { state := next } := by
  induction first generalizing s with
  | nil =>
    constructor
    · intro done
      exact ⟨s, rfl, done⟩
    · rintro ⟨middle, ⟨⟩, done⟩
      exact done
  | cons a rest ih =>
    simp only [List.cons_append, foldl_cons_eq_ok, ih]
    constructor
    · rintro ⟨middle, first, later, onward, last⟩
      exact ⟨later, ⟨middle, first, onward⟩, last⟩
    · rintro ⟨later, ⟨middle, first, onward⟩, last⟩
      exact ⟨middle, first, later, onward, last⟩

/-- The last step is taken from where the earlier ones ended. -/
theorem foldl_concat_eq_ok {a : α} {earlier : List α} :
    foldl step s (earlier ++ [a]) = { state := next } ↔
      ∃ middle, foldl step s earlier = { state := middle } ∧
        step middle a = { state := next } := by
  have single (middle : σ) :
      foldl step middle [a] = { state := next } ↔ step middle a = { state := next } := by
    rw [foldl_cons_eq_ok]
    constructor
    · rintro ⟨after, last, ⟨⟩⟩
      exact last
    · intro last
      exact ⟨next, last, rfl⟩
  simp only [foldl_append_eq_ok, single]

/-- What holds at the start and is preserved by one more item holds after a row of items. -/
theorem foldl_invariant {motive : List α → σ → Prop} (start : motive [] s)
    (preserved : ∀ {earlier a b after}, motive earlier b → step b a = { state := after } →
      motive (earlier ++ [a]) after) {items : List α}
    (done : foldl step s items = { state := next }) : motive items next := by
  induction items using List.reverseRecOn generalizing next with
  | nil =>
    cases done
    exact start
  | append_singleton earlier a ih =>
    obtain ⟨middle, before, last⟩ := foldl_concat_eq_ok.mp done
    exact preserved (ih before) last

/-- A trace is carried out to its end if it does not end in a failure and its items are. -/
theorem run_eq_ok {trace : Trace R α} :
    run step s trace = { state := next } ↔
      trace.failure = none ∧ foldl step s trace.items = { state := next } := by
  cases failed : (foldl step s trace.items).failure with
  | none =>
    have eq : run step s trace = { foldl step s trace.items with failure := trace.failure } := by
      simp only [run, failed]
    rw [eq]
    constructor
    · intro done
      obtain ⟨reached, calm⟩ := mk.inj done
      exact ⟨calm, by rw [← reached, ← failed]⟩
    · rintro ⟨calm, done⟩
      rw [done, calm]
  | some failure =>
    have eq : run step s trace = foldl step s trace.items := by simp only [run, failed]
    rw [eq]
    constructor
    · intro done
      rw [done] at failed
      cases failed
    · rintro ⟨-, done⟩
      exact done

end Progress

namespace Contribution

/-- Whether a contribution reports dependencies. -/
def isDependencies : Contribution R → Bool
  | .dependencies _ => true
  | _ => false

/-- The dependency records of a contribution. -/
def records : Contribution R → List (Value R)
  | .dependencies records => records
  | _ => []

end Contribution

/-- What contributions change in the report of a scope. -/
structure Counters (R : Type) where
  logical : Value R
  cyclomatic : Value R
  operators : Tally R
  operands : Tally R

namespace FunctionReport

/-- The counters of a report. -/
def counters (f : FunctionReport R) : Counters R where
  logical := f.logical
  cyclomatic := f.cyclomatic
  operators := f.halstead.operators
  operands := f.halstead.operands

/-- A report with its counters replaced. -/
def withCounters (f : FunctionReport R) (c : Counters R) : FunctionReport R :=
  { f with
    logical := c.logical
    cyclomatic := c.cyclomatic
    halstead := { f.halstead with operators := c.operators, operands := c.operands } }

@[simp] theorem counters_withCounters (f : FunctionReport R) (c : Counters R) :
    (f.withCounters c).counters = c := rfl

@[simp] theorem withCounters_withCounters (f : FunctionReport R) (c d : Counters R) :
    (f.withCounters c).withCounters d = f.withCounters d := rfl

@[simp] theorem withCounters_counters (f : FunctionReport R) :
    f.withCounters f.counters = f := rfl

end FunctionReport

namespace Counters

variable [Arithmetic R]

/-- The counters of a report that nothing has contributed to. -/
def initial : Counters R :=
  (FunctionReport.empty : FunctionReport R).counters

/-- Add a contribution to counters. -/
def take (c : Counters R) : Contribution R → Except Fault (Counters R)
  | .logical amount => do
    let logical ← c.logical.increase amount
    return { c with logical }
  | .cyclomatic amount => do
    let cyclomatic ← c.cyclomatic.increase amount
    return { c with cyclomatic }
  | .token .operators identifier => do
    let operators ← c.operators.record identifier
    return { c with operators }
  | .token .operands identifier => do
    let operands ← c.operands.record identifier
    return { c with operands }
  | .dependencies _ => .ok c

/-- Add contributions to counters, one after another. -/
def takeAll (c : Counters R) (items : List (Contribution R)) : Except Fault (Counters R) :=
  items.foldlM take c

theorem takeAll_append {c d : Counters R} {first : List (Contribution R)}
    (sum : c.takeAll first = .ok d) (second : List (Contribution R)) :
    c.takeAll (first ++ second) = d.takeAll second := by
  unfold takeAll at sum ⊢
  rw [List.foldlM_append, sum]
  rfl

/-- Dependencies belong to the module and leave counters alone. -/
theorem takeAll_dependencies (c : Counters R) (items : List (Contribution R))
    (all : ∀ item ∈ items, item.isDependencies = true) : c.takeAll items = .ok c := by
  induction items with
  | nil => rfl
  | cons item rest ih =>
    have first := all item List.mem_cons_self
    cases item with
    | dependencies records => exact ih fun other member => all other (List.mem_cons_of_mem _ member)
    | logical amount => cases first
    | cyclomatic amount => cases first
    | token tokenClass identifier => cases first

/-- Dependencies leave the counters as they are. -/
theorem takeAll_append_dependencies (c : Counters R) (items : List (Contribution R))
    {reported : List (Contribution R)} (all : ∀ item ∈ reported, item.isDependencies = true) :
    c.takeAll (items ++ reported) = c.takeAll items := by
  cases sum : c.takeAll items with
  | ok d => rw [takeAll_append sum, takeAll_dependencies d reported all]
  | error fault =>
    unfold takeAll at sum ⊢
    rw [List.foldlM_append, sum]
    rfl

end Counters

/-- The number of lines from a first to a last one. -/
def Location.extent [Arithmetic R] (first last : Value R) : Except Fault (Value R) := do
  let difference ← last.minus first
  difference.plus (.int 1)

namespace FunctionReport

variable [Arithmetic R]

/-- A contribution looks at the counters of a report and changes nothing else in it. -/
theorem take_eq (f : FunctionReport R) (c : Contribution R) :
    f.take c = (f.counters.take c).map f.withCounters := by
  cases c with
  | logical amount =>
    simp only [take, Counters.take, counters]
    cases f.logical.increase amount <;> rfl
  | cyclomatic amount =>
    simp only [take, Counters.take, counters]
    cases f.cyclomatic.increase amount <;> rfl
  | token tokenClass identifier =>
    cases tokenClass with
    | operators =>
      simp only [take, Counters.take, counters, Halstead.record, Halstead.tally]
      cases f.halstead.operators.record identifier <;> rfl
    | operands =>
      simp only [take, Counters.take, counters, Halstead.record, Halstead.tally]
      cases f.halstead.operands.record identifier <;> rfl
  | dependencies records => rfl

/-- The lines of a report are those that a location tells: its first line, and the number of lines
from there to its last one. -/
def HasExtent (f : FunctionReport R) (location : Value R) : Prop :=
  match Location.lines? location with
  | none => f.line = .null ∧ f.physical = .null
  | some (first, last) => f.line = first ∧ Location.extent first last = .ok f.physical

/-- A scope is opened with the lines that its location tells, if their number can be computed. -/
theorem opened_eq (name location params : Value R) :
    FunctionReport.opened name location params =
      match Location.lines? location with
      | none => .ok { empty with name, params }
      | some (first, last) => (Location.extent first last).map fun physical =>
          { empty with name, params, line := first, physical } := by
  unfold FunctionReport.opened
  cases told : Location.lines? location with
  | none => rfl
  | some lines =>
    obtain ⟨first, last⟩ := lines
    simp only [Location.extent]
    cases last.minus first with
    | error fault => rfl
    | ok difference =>
      simp only [ok_bind]
      cases difference.plus (.int 1) <;> rfl

/-- The report of a scope that has just been opened. -/
theorem opened_eq_ok {name location params : Value R} {f : FunctionReport R}
    (opened : FunctionReport.opened name location params = .ok f) :
    f.counters = Counters.initial ∧ f.name = name ∧ f.params = params ∧ f.HasExtent location := by
  rw [opened_eq] at opened
  unfold HasExtent
  cases told : Location.lines? location with
  | none =>
    rw [told] at opened
    cases opened
    exact ⟨rfl, rfl, rfl, rfl, rfl⟩
  | some lines =>
    obtain ⟨first, last⟩ := lines
    simp only [told] at opened ⊢
    cases counted : Location.extent first last with
    | error fault =>
      rw [counted] at opened
      cases opened
    | ok physical =>
      rw [counted] at opened
      cases opened
      exact ⟨rfl, rfl, rfl, rfl, rfl⟩

/-- A scope is not opened if its location tells lines whose number cannot be computed. -/
theorem opened_eq_error {name location params : Value R} {fault : Fault} :
    FunctionReport.opened name location params = .error fault ↔
      ∃ first last, Location.lines? location = some (first, last) ∧
        Location.extent first last = .error fault := by
  rw [opened_eq]
  cases told : Location.lines? location with
  | none => simp
  | some lines =>
    obtain ⟨first, last⟩ := lines
    constructor
    · intro failed
      refine ⟨first, last, rfl, ?_⟩
      cases counted : Location.extent first last with
      | error other =>
        simp only [counted] at failed
        cases failed
        rfl
      | ok physical =>
        simp only [counted] at failed
        cases failed
    · rintro ⟨first, last, ⟨⟩, counted⟩
      simp only [counted]
      rfl

end FunctionReport

namespace Builder

/-- What contributions do to a builder that takes all of them. -/
structure Effect [Arithmetic R] (items : List (Contribution R)) (b next : Builder R) : Prop where
  scopes : next.scopes = b.scopes
  clear : next.clear = (b.clear && items.all fun item => !item.isDependencies)
  dependencies :
    next.report.dependencies = b.report.dependencies ++ items.flatMap Contribution.records
  aggregate : ∃ c, b.report.aggregate.counters.takeAll items = .ok c ∧
    next.report.aggregate = b.report.aggregate.withCounters c
  length : next.report.functions.length = b.report.functions.length
  elsewhere : ∀ k, b.scopes.head? ≠ some k → next.report.functions[k]? = b.report.functions[k]?
  current : ∀ k f, b.scopes.head? = some k → b.report.functions[k]? = some f →
    ∃ c, f.counters.takeAll items = .ok c ∧
      next.report.functions[k]? = some (f.withCounters c)

private theorem takeDependencies_eq (b : Builder R) (c : Contribution R) :
    b.takeDependencies c =
      { b with
        report := { b.report with dependencies := b.report.dependencies ++ c.records }
        clear := b.clear && !c.isDependencies } := by
  cases c <;> simp [takeDependencies, Contribution.records, Contribution.isDependencies]

variable [Arithmetic R]

private theorem Effect.refl (b : Builder R) : Effect [] b b where
  scopes := rfl
  clear := by simp
  dependencies := by simp
  aggregate := ⟨_, rfl, by simp⟩
  length := rfl
  elsewhere _ _ := rfl
  current _ f _ found := ⟨f.counters, rfl, by simpa using found⟩

private theorem Effect.trans {first second : List (Contribution R)} {a b c : Builder R}
    (before : Effect first a b) (after : Effect second b c) : Effect (first ++ second) a c where
  scopes := after.scopes.trans before.scopes
  clear := by rw [after.clear, before.clear, List.all_append, Bool.and_assoc]
  dependencies := by
    rw [after.dependencies, before.dependencies, List.flatMap_append, List.append_assoc]
  aggregate := by
    obtain ⟨middle, sum, changed⟩ := before.aggregate
    obtain ⟨last, rest, result⟩ := after.aggregate
    rw [changed, FunctionReport.counters_withCounters] at rest
    refine ⟨last, (Counters.takeAll_append sum second).trans rest, ?_⟩
    rw [result, changed, FunctionReport.withCounters_withCounters]
  length := after.length.trans before.length
  elsewhere k other := by
    rw [after.elsewhere k (before.scopes ▸ other), before.elsewhere k other]
  current k f innermost found := by
    obtain ⟨middle, sum, changed⟩ := before.current k f innermost found
    obtain ⟨last, rest, result⟩ := after.current k _ (before.scopes ▸ innermost) changed
    exact ⟨last, (Counters.takeAll_append sum second).trans rest, result⟩

private theorem takeAggregate_eq (b : Builder R) (c : Contribution R) :
    b.takeAggregate c =
      match b.report.aggregate.counters.take c with
      | .ok sum => { state := { b with
          report := { b.report with aggregate := b.report.aggregate.withCounters sum } } }
      | .error fault => { state := b, failure := some (.fault fault) } := by
  rw [takeAggregate, FunctionReport.take_eq]
  cases b.report.aggregate.counters.take c <;> rfl

/-- A contribution that does not fail at the innermost open scope changes the report of that scope,
if there is one. -/
theorem takeCurrent_cases {b : Builder R} {c : Contribution R}
    (calm : (b.takeCurrent c).failure = none) :
    (b.current? = none ∧ (b.takeCurrent c).state = b) ∨
      ∃ k f sum, b.scopes.head? = some k ∧ b.report.functions[k]? = some f ∧
        f.counters.take c = .ok sum ∧
        (b.takeCurrent c).state = b.setFunction k (f.withCounters sum) := by
  cases open? : b.scopes with
  | nil => exact .inl (by simp [takeCurrent, current?, open?])
  | cons k rest =>
    cases found : b.report.functions[k]? with
    | none => exact .inl (by simp [takeCurrent, current?, open?, found])
    | some f =>
      right
      have taken := f.take_eq c
      cases sum : f.counters.take c with
      | error fault =>
        rw [sum] at taken
        simp [takeCurrent, open?, found, taken, Except.map] at calm
      | ok counters =>
        rw [sum] at taken
        refine ⟨k, f, counters, rfl, found, sum, ?_⟩
        simp [takeCurrent, open?, found, taken, Except.map]

/-- What one contribution does. -/
theorem effect_of_take {b next : Builder R} {c : Contribution R}
    (taken : b.take c = { state := next }) : Effect [c] b next := by
  have calm : (b.takeCurrent c).failure = none := by
    cases failed : (b.takeCurrent c).failure with
    | none => rfl
    | some failure =>
      simp only [take, failed] at taken
      rw [taken] at failed
      cases failed
  simp only [take, calm, takeDependencies_eq, takeAggregate_eq] at taken
  have single (counters : Counters R) : counters.takeAll [c] = counters.take c := by
    simp [Counters.takeAll]
  cases sum : (b.takeCurrent c).state.report.aggregate.counters.take c with
  | error fault =>
    rw [sum] at taken
    cases taken
  | ok total =>
    rw [sum] at taken
    cases taken
    rcases takeCurrent_cases calm with
      ⟨none_open, same⟩ | ⟨k, f, changed, innermost, found, took, same⟩
    · rw [same] at sum ⊢
      refine ⟨rfl, by simp, by simp, ⟨total, (single _).trans sum, rfl⟩, rfl, fun _ _ => rfl, ?_⟩
      intro k f innermost found
      simp [current?, innermost, found] at none_open
    · rw [same] at sum ⊢
      refine ⟨rfl, by simp [setFunction], by simp [setFunction], ⟨total, (single _).trans sum, rfl⟩,
        by simp [setFunction], ?_, ?_⟩
      · intro other different
        have apart : k ≠ other := fun equal => different (equal ▸ innermost)
        simp [setFunction, apart]
      · intro other g again present
        obtain rfl : k = other := Option.some.inj (innermost.symm.trans again)
        obtain rfl : f = g := Option.some.inj (found.symm.trans present)
        have inside := (List.getElem?_eq_some_iff.mp found).1
        exact ⟨changed, (single _).trans took, by simp [setFunction, inside]⟩

/-- What a row of contributions does. -/
theorem effect_of_foldl {b next : Builder R} {items : List (Contribution R)}
    (taken : Progress.foldl take b items = { state := next }) : Effect items b next := by
  induction items generalizing b with
  | nil =>
    cases taken
    exact .refl _
  | cons c rest ih =>
    obtain ⟨middle, first, onward⟩ := Progress.foldl_cons_eq_ok.mp taken
    exact (effect_of_take first).trans (ih onward)

/-- Without an open scope, contributions that the module as a whole can take are taken. -/
theorem foldl_take_of_noScope {b : Builder R} (noScope : b.scopes = [])
    {items : List (Contribution R)} {sum : Counters R}
    (taken : b.report.aggregate.counters.takeAll items = .ok sum) :
    ∃ next, Progress.foldl take b items = { state := next } := by
  induction items generalizing b with
  | nil => exact ⟨b, rfl⟩
  | cons c rest ih =>
    have inner : b.takeCurrent c = { state := b } := by simp [takeCurrent, noScope]
    cases first : b.report.aggregate.counters.take c with
    | error fault =>
      simp [Counters.takeAll, List.foldlM_cons, first, bind, Except.bind] at taken
    | ok middle =>
      have onward : middle.takeAll rest = .ok sum := by
        simpa [Counters.takeAll, List.foldlM_cons, first, bind, Except.bind] using taken
      simp only [Progress.foldl, take, inner, takeDependencies_eq, takeAggregate_eq, first]
      exact ih noScope onward

/-- What a node does: its rule computes all contributions, and these are taken. -/
theorem effect_of_process {call : Interpretation R} {b next : Builder R} {node rule : Value R}
    (done : b.process call node rule = { state := next }) :
    (Rule.contributions call b.clear node rule).failure = none ∧
      Effect (Rule.contributions call b.clear node rule).items b next := by
  obtain ⟨calm, taken⟩ := Progress.run_eq_ok.mp done
  exact ⟨calm, effect_of_foldl taken⟩

/-- What opening a scope does. -/
theorem openScope_eq_ok {b next : Builder R} {name location params : Value R}
    (done : b.openScope name location params = { state := next }) :
    ∃ f sum, FunctionReport.opened name location params = .ok f ∧
      b.report.aggregate.params.increase params = .ok sum ∧
      next = { b with
        report := { b.report with
          functions := b.report.functions ++ [f]
          aggregate := { b.report.aggregate with params := sum } }
        scopes := b.report.functions.length :: b.scopes } := by
  unfold openScope at done
  cases opened : FunctionReport.opened name location params with
  | error fault =>
    rw [opened] at done
    cases done
  | ok f =>
    cases increased : b.report.aggregate.params.increase params with
    | error fault =>
      simp only [opened, increased] at done
      cases done
    | ok sum =>
      simp only [opened, increased] at done
      cases done
      exact ⟨f, sum, rfl, rfl, rfl⟩

/-- A builder at its start: nothing is open and nothing has been contributed. -/
theorem start_eq_ok {b : Builder R} {location : Value R} (started : start location = .ok b) :
    b.scopes = [] ∧ b.clear = true ∧ b.report.functions = [] ∧ b.report.dependencies = [] ∧
      b.report.aggregate.counters = Counters.initial := by
  unfold start at started
  cases opened : FunctionReport.opened (.null : Value R) location (.int 0) with
  | error fault =>
    rw [opened] at started
    cases started
  | ok f =>
    rw [opened] at started
    cases started
    exact ⟨rfl, rfl, rfl, rfl, (FunctionReport.opened_eq_ok opened).1⟩

/-- A run cannot start exactly if the place of the module has no extent. -/
theorem start_eq_error {location : Value R} {fault : Fault} :
    start location = .error fault ↔
      ∃ first last, Location.lines? location = some (first, last) ∧
        Location.extent first last = .error fault := by
  unfold start
  rw [bind_eq_error, FunctionReport.opened_eq_error]
  constructor
  · rintro (failed | ⟨f, -, impossible⟩)
    · exact failed
    · cases impossible
  · exact .inl

end Builder

end SourceMetrics
