import Mathlib.Data.List.Induction
import SourceMetrics.Proofs.RuleContributions
import SourceMetrics.Real.Binary64

/-! # A report without the stack

A builder keeps a stack of open scopes. What its report says can be read off the history of events
alone: `History.innermost` goes back from a moment to the last opening that no closing has matched
since, and `History.handedTo` lists the nodes at whose moment a given scope was that one. A function
report then has the counters of a builder that is handed just these nodes and never opens a scope,
and the module as a whole has those of a builder that is handed all nodes
(`Builder.report_refines_history`).

Closings on an empty stack are allowed, and so are scopes that are never closed.
-/

namespace SourceMetrics

variable {R : Type}

namespace Event

/-- Whether an event hands over a node. -/
def isNode : Event R → Bool
  | .node _ _ => true
  | _ => false

/-- The name, the location and the number of parameters with which an event opens a scope. -/
def opening? : Event R → Option (Value R × Value R × Value R)
  | .openScope name location params => some (name, location, params)
  | _ => none

/-- An event whose rule, if it has one, is without its dependencies. -/
def withoutDependencies : Event R → Event R
  | .node visited rule => .node visited (Rule.withoutDependencies rule)
  | event => event

end Event

namespace History

/-- The openings of scopes, in order. -/
def openings (events : List (Event R)) : List (Value R × Value R × Value R) :=
  events.filterMap Event.opening?

/-- The last opening in a history, latest event first, that is left when some closings have still to
be matched. Going back, a closing waits for an opening and an opening serves a waiting closing. -/
def unmatched : List (Event R) → Nat → Option Nat
  | [], _ => none
  | .node _ _ :: earlier, closings => unmatched earlier closings
  | .closeScope :: earlier, closings => unmatched earlier (closings + 1)
  | .openScope _ _ _ :: earlier, 0 => some (openings earlier).length
  | .openScope _ _ _ :: earlier, closings + 1 => unmatched earlier closings

/-- The innermost scope that is open after events: the last opening that no closing matches. -/
def innermost (events : List (Event R)) : Option Nat :=
  unmatched events.reverse 0

/-- The nodes that are handed over while a scope is the innermost open one or, for `none`, while no
scope is open. -/
def handedTo (inside : Option Nat) (events : List (Event R)) : List (Event R) :=
  (events.zipIdx.filter fun entry =>
    entry.1.isNode && innermost (events.take entry.2) == inside).map Prod.fst

private theorem openings_cons (event : Event R) (events : List (Event R)) :
    openings (event :: events) = event.opening?.toList ++ openings events := by
  cases opened : event.opening? <;> simp [openings, opened]

theorem openings_append (first second : List (Event R)) :
    openings (first ++ second) = openings first ++ openings second := by
  simp only [openings, List.filterMap_append]

/-- An event opens at most one scope, after all earlier ones. -/
theorem openings_concat (events : List (Event R)) (event : Event R) :
    openings (events ++ [event]) = openings events ++ event.opening?.toList := by
  cases opened : event.opening? <;> simp [openings, List.filterMap_append, opened]

/-- As many scopes are opened by events in reverse order. -/
theorem length_openings_reverse (events : List (Event R)) :
    (openings events.reverse).length = (openings events).length := by
  simp [openings, List.filterMap_reverse]

/-- One more event adds a node if it is one and is handed over at the right moment. -/
theorem handedTo_concat (inside : Option Nat) (events : List (Event R)) (event : Event R) :
    handedTo inside (events ++ [event]) = handedTo inside events ++
      if event.isNode && innermost events == inside then [event] else [] := by
  have earlier : (events.zipIdx.filter fun entry =>
        entry.1.isNode && innermost ((events ++ [event]).take entry.2) == inside) =
      events.zipIdx.filter fun entry =>
        entry.1.isNode && innermost (events.take entry.2) == inside := by
    apply List.filter_congr
    intro entry member
    have before : entry.2 < events.length := by
      simpa using (List.snd_lt_add_of_mem_zipIdx member)
    rw [List.take_append_of_le_length (Nat.le_of_lt before)]
  unfold handedTo
  rw [List.zipIdx_append, List.filter_append, List.map_append, earlier]
  congr 1
  by_cases handed : (event.isNode && innermost events == inside) = true
  · simp [handed]
  · simp [handed]

/-- An event that is no node is handed to no scope. -/
theorem handedTo_concat_of_not (inside : Option Nat) {events : List (Event R)} {event : Event R}
    (noNode : event.isNode = false) :
    handedTo inside (events ++ [event]) = handedTo inside events := by
  rw [handedTo_concat, noNode]
  simp

theorem filter_isNode_concat_of_not {events : List (Event R)} {event : Event R}
    (noNode : event.isNode = false) :
    (events ++ [event]).filter Event.isNode = events.filter Event.isNode := by
  simp [noNode]

/-- A scope that is open has been opened. -/
theorem unmatched_lt {events : List (Event R)} {closings scope : Nat}
    (found : unmatched events closings = some scope) : scope < (openings events).length := by
  fun_induction unmatched events closings with
  | case1 => cases found
  | case2 visited rule earlier closings ih =>
    rw [openings_cons]
    exact ih found
  | case3 earlier closings ih =>
    rw [openings_cons]
    exact ih found
  | case4 name location params earlier =>
    obtain rfl := Option.some.inj found
    rw [openings_cons]
    exact Nat.lt_succ_self _
  | case5 name location params earlier closings ih =>
    rw [openings_cons]
    exact Nat.lt_succ_of_lt (ih found)

/-- The innermost scope is one of those that were opened. -/
theorem innermost_lt {events : List (Event R)} {scope : Nat}
    (inside : innermost events = some scope) : scope < (openings events).length := by
  rw [← length_openings_reverse]
  exact unmatched_lt inside

/-- Nothing is handed to a scope before it is opened. -/
theorem handedTo_eq_nil {scope : Nat} {events : List (Event R)}
    (unopened : (openings events).length ≤ scope) : handedTo (some scope) events = [] := by
  induction events using List.reverseRecOn with
  | nil => rfl
  | append_singleton events event ih =>
    rw [openings_concat, List.length_append] at unopened
    have outside : innermost events ≠ some scope := by
      intro inside
      have opened := innermost_lt inside
      omega
    rw [handedTo_concat, ih (by omega)]
    simp [outside]

end History

namespace Builder

open History

variable [Arithmetic R] {call : Interpretation R}

/-- Without an open scope, a node is taken if its rule computes all contributions and the module as
a whole can take them. -/
theorem process_of_noScope {b : Builder R} (noScope : b.scopes = []) {node rule : Value R}
    (calm : (Rule.contributions call b.clear node rule).failure = none) {sum : Counters R}
    (taken : b.report.aggregate.counters.takeAll
      (Rule.contributions call b.clear node rule).items = .ok sum) :
    ∃ next, b.process call node rule = { state := next } ∧ next.scopes = [] ∧
      next.clear = (b.clear && (Rule.contributions call b.clear node rule).items.all
        fun item => !item.isDependencies) ∧
      next.report.aggregate.counters = sum := by
  obtain ⟨next, done⟩ := foldl_take_of_noScope noScope taken
  have effect := effect_of_foldl done
  refine ⟨next, Progress.run_eq_ok.mpr ⟨calm, done⟩, effect.scopes.trans noScope, effect.clear, ?_⟩
  obtain ⟨total, again, changed⟩ := effect.aggregate
  rw [changed, FunctionReport.counters_withCounters]
  exact Except.ok.inj (again.symm.trans taken)

/-- A function after contributions: it has taken them if it was the innermost open scope, and is the
same as before otherwise. -/
theorem Effect.function_eq {items : List (Contribution R)} {b next : Builder R}
    (effect : Effect items b next) {k : Nat} {g : FunctionReport R}
    (found : next.report.functions[k]? = some g) :
    ∃ f, b.report.functions[k]? = some f ∧
      (b.scopes.head? ≠ some k ∧ g = f ∨
        b.scopes.head? = some k ∧
          ∃ sum, f.counters.takeAll items = .ok sum ∧ g = f.withCounters sum) := by
  by_cases inside : b.scopes.head? = some k
  · have before : k < b.report.functions.length := by
      rw [← effect.length]
      exact (List.getElem?_eq_some_iff.mp found).1
    have present := List.getElem?_eq_getElem before
    obtain ⟨sum, taken, changed⟩ := effect.current k _ inside present
    exact ⟨_, present, .inr ⟨inside, sum, taken, Option.some.inj (found.symm.trans changed)⟩⟩
  · rw [effect.elsewhere k inside] at found
    exact ⟨g, found, .inl ⟨inside, rfl⟩⟩

/-- The runs of nodes that a builder without open scopes carries out, with the counters of the
module as a whole at the end. -/
structure Flat (call : Interpretation R) (fresh : Builder R) (nodes : List (Event R))
    (counters : Counters R) (b : Builder R) : Prop where
  done : Progress.foldl (step call) fresh nodes = { state := b }
  noScope : b.scopes = []
  counters_eq : b.report.aggregate.counters = counters

/-- Handing one more node to a builder without open scopes. -/
theorem Flat.node {fresh flat : Builder R} {nodes : List (Event R)} {before after : Counters R}
    (run : Flat call fresh nodes before flat) {node rule : Value R}
    (calm : (Rule.contributions call flat.clear node rule).failure = none)
    (taken : before.takeAll (Rule.contributions call flat.clear node rule).items = .ok after) :
    ∃ next, Flat call fresh (nodes ++ [.node node rule]) after next ∧
      next.clear = (flat.clear && (Rule.contributions call flat.clear node rule).items.all
        fun item => !item.isDependencies) := by
  rw [← run.counters_eq] at taken
  obtain ⟨next, done, noScope, clear, counters⟩ := process_of_noScope run.noScope calm taken
  exact ⟨next, ⟨Progress.foldl_concat_eq_ok.mpr ⟨flat, run.done, done⟩, noScope, counters⟩, clear⟩

/-- What a builder has to do with the history of its events. The scope at a depth of its stack is
the opening that is left when so many closings more are matched; the module as a whole has been
handed all nodes, and each function those at whose moment it was the innermost one. -/
structure Reads (call : Interpretation R) (fresh : Builder R) (events : List (Event R))
    (b : Builder R) : Prop where
  scopes : ∀ depth, b.scopes[depth]? = unmatched events.reverse depth
  length : b.report.functions.length = (openings events).length
  whole : ∃ flat, Flat call fresh (events.filter Event.isNode) b.report.aggregate.counters flat ∧
    flat.clear = b.clear
  opened : ∀ (k : Nat) (f : FunctionReport R), b.report.functions[k]? = some f →
    ∃ name location params, (openings events)[k]? = some (name, location, params) ∧
      f.name = name ∧ f.params = params ∧ f.HasExtent location
  handed : ∀ (k : Nat) (f : FunctionReport R), b.report.functions[k]? = some f → ∃ flat,
    Flat call fresh ((handedTo (some k) events).map Event.withoutDependencies) f.counters flat

/-- At the start there is nothing to read. -/
theorem Reads.start {location elsewhere : Value R} {initial fresh : Builder R}
    (started : Builder.start location = .ok initial) (begun : Builder.start elsewhere = .ok fresh) :
    Reads call fresh [] initial := by
  obtain ⟨scopes, clear, functions, -, counters⟩ := start_eq_ok started
  obtain ⟨freshScopes, freshClear, -, -, freshCounters⟩ := start_eq_ok begun
  refine ⟨?_, ?_, ⟨fresh, ⟨rfl, freshScopes, ?_⟩, ?_⟩, ?_, ?_⟩
  · intro depth
    simp [scopes, unmatched]
  · simp [functions, openings]
  · rw [freshCounters, counters]
  · rw [freshClear, clear]
  · intro k f found
    simp [functions] at found
  · intro k f found
    simp [functions] at found

/-- The scope that the stack has on top is the innermost one of the history. -/
theorem Reads.head_eq {fresh b : Builder R} {events : List (Event R)}
    (reads : Reads call fresh events b) : b.scopes.head? = innermost events := by
  rw [List.head?_eq_getElem?, reads.scopes 0]
  rfl

/-- A node goes to the innermost scope and to the module as a whole. -/
theorem Reads.node {fresh b next : Builder R} {events : List (Event R)}
    (reads : Reads call fresh events b) {node rule : Value R}
    (done : b.process call node rule = { state := next }) :
    Reads call fresh (events ++ [.node node rule]) next := by
  obtain ⟨calm, effect⟩ := effect_of_process done
  refine ⟨?_, ?_, ?_, ?_, ?_⟩
  · intro depth
    rw [effect.scopes, reads.scopes, List.reverse_concat, unmatched]
  · rw [effect.length, reads.length, openings_concat]
    simp [Event.opening?]
  · obtain ⟨flat, run, clear⟩ := reads.whole
    obtain ⟨sum, taken, changed⟩ := effect.aggregate
    rw [← clear] at calm taken
    obtain ⟨after, ran, stillClear⟩ := run.node calm taken
    refine ⟨after, ?_, by rw [stillClear, effect.clear, clear]⟩
    rw [List.filter_append, changed, FunctionReport.counters_withCounters]
    exact ran
  · intro k g found
    obtain ⟨f, before, unchanged⟩ := effect.function_eq found
    obtain ⟨name, location, params, opened, facts⟩ := reads.opened k f before
    refine ⟨name, location, params, ?_, ?_⟩
    · rw [openings_concat]
      simpa [Event.opening?] using opened
    · rcases unchanged with ⟨-, rfl⟩ | ⟨-, sum, -, rfl⟩
      · exact facts
      · exact facts
  · intro k g found
    obtain ⟨f, before, unchanged⟩ := effect.function_eq found
    obtain ⟨flat, run⟩ := reads.handed k f before
    rw [handedTo_concat, ← reads.head_eq]
    rcases unchanged with ⟨elsewhere, rfl⟩ | ⟨inside, sum, taken, rfl⟩
    · refine ⟨flat, ?_⟩
      simpa [elsewhere] using run
    · -- Without its dependencies the rule contributes what it counts, and nothing else counts.
      obtain ⟨countedCalm, reported, items, only⟩ := Rule.contributions_items call calm
      have counted : f.counters.takeAll (Rule.contributions call flat.clear node
          (Rule.withoutDependencies rule)).items = .ok sum := by
        rw [Rule.contributions_withoutDependencies, ← Counters.takeAll_append_dependencies _ _ only,
          ← items]
        exact taken
      rw [← Rule.contributions_withoutDependencies call flat.clear] at countedCalm
      obtain ⟨after, ran, -⟩ := run.node countedCalm counted
      refine ⟨after, ?_⟩
      simpa [inside, Event.isNode, Event.withoutDependencies] using ran

/-- Opening a scope lists its report and makes it the innermost one. -/
theorem Reads.openScope {fresh b next : Builder R} {events : List (Event R)}
    (reads : Reads call fresh events b) (begun : Flat call fresh [] Counters.initial fresh)
    {name location params : Value R}
    (done : b.openScope name location params = { state := next }) :
    Reads call fresh (events ++ [.openScope name location params]) next := by
  obtain ⟨f, sum, opened, -, rfl⟩ := openScope_eq_ok done
  obtain ⟨initial, named, counted, extent⟩ := FunctionReport.opened_eq_ok opened
  have listed {k : Nat} {g : FunctionReport R} (found : (b.report.functions ++ [f])[k]? = some g) :
      b.report.functions[k]? = some g ∨ k = (openings events).length ∧ g = f := by
    rw [← reads.length]
    rw [List.getElem?_append, List.getElem?_singleton] at found
    grind
  have noNode : (Event.openScope name location params).isNode = false := rfl
  refine ⟨?_, ?_, ?_, ?_, ?_⟩
  · intro depth
    rw [List.reverse_concat]
    cases depth with
    | zero =>
      rw [unmatched, length_openings_reverse, ← reads.length]
      rfl
    | succ depth =>
      rw [unmatched, ← reads.scopes]
      rfl
  · rw [openings_concat, List.length_append, List.length_append, reads.length]
    rfl
  · rw [filter_isNode_concat_of_not noNode]
    exact reads.whole
  · intro k g found
    rw [openings_concat]
    rcases listed found with before | ⟨rfl, rfl⟩
    · obtain ⟨name', location', params', earlier, facts⟩ := reads.opened k g before
      have inside := (List.getElem?_eq_some_iff.mp earlier).1
      exact ⟨name', location', params', (List.getElem?_append_left inside).trans earlier, facts⟩
    · exact ⟨name, location, params, List.getElem?_concat_length, named, counted, extent⟩
  · intro k g found
    rw [handedTo_concat_of_not (some k) noNode]
    rcases listed found with before | ⟨rfl, rfl⟩
    · exact reads.handed k g before
    · refine ⟨fresh, ?_⟩
      rw [handedTo_eq_nil (Nat.le_refl _), initial]
      exact begun

/-- Closing a scope makes the next one on the stack the innermost one. -/
theorem Reads.closeScope {fresh b : Builder R} {events : List (Event R)}
    (reads : Reads call fresh events b) :
    Reads call fresh (events ++ [.closeScope]) b.closeScope := by
  have noOpening : openings (events ++ [.closeScope]) = openings events := by
    simp [openings_concat, Event.opening?]
  refine ⟨?_, ?_, ?_, ?_, ?_⟩
  · intro depth
    rw [List.reverse_concat, unmatched, ← reads.scopes]
    exact List.getElem?_tail
  · rw [noOpening]
    exact reads.length
  · rw [filter_isNode_concat_of_not rfl]
    exact reads.whole
  · intro k f found
    rw [noOpening]
    exact reads.opened k f found
  · intro k f found
    rw [handedTo_concat_of_not (some k) rfl]
    exact reads.handed k f found

/-- What one event preserves. -/
theorem Reads.step {fresh b next : Builder R} {events : List (Event R)}
    (reads : Reads call fresh events b) (begun : Flat call fresh [] Counters.initial fresh)
    {event : Event R} (done : b.step call event = { state := next }) :
    Reads call fresh (events ++ [event]) next := by
  cases event with
  | node node rule => exact reads.node done
  | openScope name location params => exact reads.openScope begun done
  | closeScope =>
    cases done
    exact reads.closeScope

/-- What all events together preserve. -/
theorem Reads.run {location elsewhere : Value R} {initial fresh b : Builder R}
    (started : Builder.start location = .ok initial) (begun : Builder.start elsewhere = .ok fresh)
    {events : List (Event R)}
    (done : Progress.foldl (Builder.step call) initial events = { state := b }) :
    Reads call fresh events b := by
  have flat : Flat call fresh [] Counters.initial fresh := by
    obtain ⟨noScope, -, -, -, counters⟩ := start_eq_ok begun
    exact ⟨rfl, noScope, counters⟩
  exact Progress.foldl_invariant (.start started begun) (fun reads => reads.step flat) done

/-- A rule with an operator, a line and a branch, which also reports dependencies. -/
def branchRule : Value Binary64 :=
  .dict [("lloc", .int 1), ("cyclomatic", .int 1), ("dependencies", .function 0),
    ("operators", .list [.dict [("identifier", .text "if")]])]

/-- A closing with nothing open, a scope inside a scope, and an outer scope that stays open. -/
def nestedScopes : List (Event Binary64) :=
  [.closeScope, .node (.int 0) branchRule, .openScope (.text "outer") .null (.int 2),
    .node (.int 1) branchRule, .openScope (.text "inner") .null (.int 1),
    .node (.int 2) branchRule, .closeScope, .node (.int 3) branchRule]

end Builder

end SourceMetrics
