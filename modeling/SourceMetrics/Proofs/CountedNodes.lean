import SourceMetrics.Proofs.ScopeHistory

/-! # Counters from contributions

The counters of a report are what the contributions of nodes add up to, in the order in which the
nodes were handed over: for the module as a whole those of all nodes (`Builder.aggregate_counters`),
and for a function those of the nodes handed to its scope (`Builder.function_counters`).
-/

namespace SourceMetrics

variable {R : Type} [Arithmetic R]

/-- What an event contributes to counters. -/
def Event.counted (call : Interpretation R) : Event R → List (Contribution R)
  | .node visited rule => (Rule.counted call visited rule).items
  | _ => []

private theorem Event.counted_withoutDependencies (call : Interpretation R) (event : Event R) :
    event.withoutDependencies.counted call = event.counted call := by
  cases event with
  | node visited rule =>
    simp only [withoutDependencies, counted, Rule.counted_withoutDependencies]
  | openScope name location params => rfl
  | closeScope => rfl

/-- Only nodes contribute to counters. -/
theorem Event.flatMap_counted_filter (call : Interpretation R) (events : List (Event R)) :
    (events.filter Event.isNode).flatMap (Event.counted call) =
      events.flatMap (Event.counted call) := by
  induction events with
  | nil => rfl
  | cons event rest ih =>
    cases event with
    | node visited rule => exact congrArg ((Event.node visited rule).counted call ++ ·) ih
    | openScope name location params => exact ih
    | closeScope => exact ih

namespace Builder

variable {call : Interpretation R}

/-- What one event adds to the counters of the module as a whole. -/
theorem aggregate_counters_step {b next : Builder R} {event : Event R}
    (done : b.step call event = { state := next }) :
    b.report.aggregate.counters.takeAll (event.counted call) =
      .ok next.report.aggregate.counters := by
  cases event with
  | node visited rule =>
    obtain ⟨calm, effect⟩ := effect_of_process done
    obtain ⟨sum, taken, changed⟩ := effect.aggregate
    obtain ⟨-, reported, items, only⟩ := Rule.contributions_items call calm
    rw [items, Counters.takeAll_append_dependencies _ _ only] at taken
    rw [changed, FunctionReport.counters_withCounters]
    exact taken
  | openScope name location params =>
    obtain ⟨f, sum, -, -, rfl⟩ := openScope_eq_ok done
    rfl
  | closeScope =>
    cases done
    rfl

/-- In a run, the module as a whole takes what all events count. -/
theorem aggregate_counters {location : Value R} {initial b : Builder R}
    (started : Builder.start location = .ok initial) {events : List (Event R)}
    (done : Progress.foldl (step call) initial events = { state := b }) :
    Counters.initial.takeAll (events.flatMap (Event.counted call)) =
      .ok b.report.aggregate.counters := by
  induction events using List.reverseRecOn generalizing b with
  | nil =>
    cases done
    obtain ⟨-, -, -, -, counters⟩ := start_eq_ok started
    rw [counters]
    rfl
  | append_singleton events event ih =>
    obtain ⟨middle, before, last⟩ := Progress.foldl_concat_eq_ok.mp done
    rw [List.flatMap_append, Counters.takeAll_append (ih before), List.flatMap_singleton]
    exact aggregate_counters_step last

/-- A function is the same as a builder without scopes that is handed the nodes of the function. -/
theorem function_counters {location : Value R} {initial b : Builder R}
    (started : Builder.start location = .ok initial) {events : List (Event R)}
    (done : Progress.foldl (step call) initial events = { state := b })
    {k : Nat} {f : FunctionReport R} (found : b.report.functions[k]? = some f) :
    Counters.initial.takeAll ((History.handedTo (some k) events).flatMap (Event.counted call)) =
      .ok f.counters := by
  obtain ⟨flat, run⟩ := (Reads.run started started done).handed k f found
  have counters := aggregate_counters started run.done
  rw [run.counters_eq, List.flatMap_map] at counters
  simpa only [Event.counted_withoutDependencies] using counters

end Builder

end SourceMetrics
