import SourceMetrics.Proofs.ScopeHistory

/-! # The dependencies of a module

A function that reports dependencies is told whether it is the first one to do so. The builder keeps
a flag for that. What it passes on can be read off the history of events alone: the reportings of a
history (`History.reportings`) are the calls of such functions in the order of the nodes, the first
one with the flag set and all others without it. What a call gives stands for one record, for
several or for none, by its shape (`Rule.StandsFor`). The dependencies of a module are these
records, one call after another (`Builder.dependencies_reported_in_order`).
-/

namespace SourceMetrics

variable {R : Type}

namespace Trace

variable {α : Type}

private theorem mem_ofExcept {run : Except (Failure R) (Option α)} {a : α}
    (member : a ∈ (ofExcept run).items) : run = .ok (some a) := by
  match run with
  | .error failure => cases member
  | .ok none => cases member
  | .ok (some b) =>
    rw [List.mem_singleton.mp member]

/-- An item of traces one after another is an item of one of them. -/
theorem mem_concat {traces : List (Trace R α)} {a : α} (member : a ∈ (concat traces).items) :
    ∃ trace ∈ traces, a ∈ trace.items := by
  induction traces with
  | nil => cases member
  | cons first rest ih =>
    change a ∈ (append first (concat rest)).items at member
    unfold append at member
    split at member
    · exact ⟨first, List.mem_cons_self, member⟩
    · rcases List.mem_append.mp member with here | later
      · exact ⟨first, List.mem_cons_self, here⟩
      · obtain ⟨trace, inside, found⟩ := ih later
        exact ⟨trace, List.mem_cons_of_mem _ inside, found⟩

end Trace

/-- A call of a function that reports dependencies. -/
structure Reporting (R : Type) where
  handle : Nat
  node : Value R
  /-- Whether the function is told that no other one has reported dependencies yet. -/
  first : Bool

/-- What a call gives. -/
def Reporting.result (call : Interpretation R) (reporting : Reporting R) :
    Except (Failure R) (Value R) :=
  call reporting.handle reporting.node (some reporting.first)

/-- The function with which a rule reports dependencies, if it does. -/
def Rule.reporter? (rule : Value R) : Option Nat :=
  match rule.field "dependencies" with
  | .function handle => some handle
  | _ => none

namespace Event

/-- The function with which the rule of an event reports dependencies, and the node of the event. -/
def reporter? : Event R → Option (Nat × Value R)
  | .node visited rule => (Rule.reporter? rule).map fun handle => (handle, visited)
  | _ => none

/-- The call that an event makes for dependencies. -/
def reporting? (first : Bool) (event : Event R) : Option (Reporting R) :=
  event.reporter?.map fun reporter => { handle := reporter.1, node := reporter.2, first }

end Event

namespace History

/-- The calls of functions that report dependencies, in the order of their nodes. Only the first one
is told that it is the first. -/
def reportings (events : List (Event R)) : List (Reporting R) :=
  (events.filterMap Event.reporter?).mapIdx fun position reporter =>
    { handle := reporter.1, node := reporter.2, first := position == 0 }

/-- One more event makes the first call if there was none before it. -/
theorem reportings_concat (events : List (Event R)) (event : Event R) :
    reportings (events ++ [event]) =
      reportings events ++ (event.reporting? (reportings events).isEmpty).toList := by
  have none_before : (reportings events).isEmpty =
      ((events.filterMap Event.reporter?).length == 0) := by
    cases found : events.filterMap Event.reporter? <;> simp [reportings, found]
  rw [none_before]
  unfold reportings Event.reporting?
  rw [List.filterMap_append, List.mapIdx_append]
  cases found : event.reporter? <;> simp [found]

end History

namespace Rule

/-- The records that a result stands for: a mapping and a dependency record each stand for
themselves, a list and a tuple for their items, and anything else for nothing. -/
inductive StandsFor : Value R → List (Value R) → Prop
  | mapping (entries : Entries (Value R)) : StandsFor (.dict entries) [.dict entries]
  | dependency (fields : Entries (Value R)) :
      StandsFor (.record .dependency fields) [.record .dependency fields]
  | list (items : List (Value R)) : StandsFor (.list items) items
  | tuple (items : List (Value R)) : StandsFor (.tuple items) items
  | nothing {result : Value R} (noMapping : ∀ entries, result ≠ .dict entries)
      (noDependency : ∀ fields, result ≠ .record .dependency fields)
      (noList : ∀ items, result ≠ .list items) (noTuple : ∀ items, result ≠ .tuple items) :
      StandsFor result []

/-- A result is read as the records that it stands for. -/
theorem standsFor_records (result : Value R) : StandsFor result (records result) := by
  unfold records
  split
  · exact .mapping _
  · exact .dependency _
  · exact .list _
  · exact .tuple _
  · next noMapping noDependency noList noTuple =>
    exact .nothing noMapping noDependency noList noTuple

/-- A result stands for nothing else. -/
theorem StandsFor.eq_records {result : Value R} {part : List (Value R)}
    (stands : StandsFor result part) : part = records result := by
  cases stands with
  | nothing noMapping noDependency noList noTuple =>
    unfold records
    split
    · exact absurd rfl (noMapping _)
    · exact absurd rfl (noDependency _)
    · exact absurd rfl (noList _)
    · exact absurd rfl (noTuple _)
    · rfl
  | _ => rfl

private theorem eq_map_records {results : List (Value R)} {parts : List (List (Value R))}
    (shapes : List.Forall₂ StandsFor results parts) : parts = results.map records := by
  induction shapes with
  | nil => rfl
  | cons stands _ ih => rw [List.map_cons, ← stands.eq_records, ← ih]

/-- A rule asks its function for dependencies, and reports none without one. -/
theorem dependencies_eq (call : Interpretation R) (clear : Bool) (node rule : Value R) :
    dependencies call clear node rule =
      match (Event.node node rule).reporting? clear with
      | some reporting => (reporting.result call).map fun result => some (records result)
      | none => .ok none := by
  have made : (Event.node node rule).reporting? clear =
      (reporter? rule).map fun handle => { handle, node, first := clear } := Option.map_map _ _ _
  rw [made, dependencies, reporter?]
  generalize rule.field "dependencies" = entry
  cases entry with
  | function handle =>
    simp only [Option.map_some, Reporting.result]
    cases call handle node (some clear) <;> rfl
  | _ => rfl

variable [Arithmetic R] {call : Interpretation R} {node rule : Value R}

/-- Contributions to counters are no dependencies. -/
theorem isDependencies_of_mem_counted {item : Contribution R}
    (member : item ∈ (counted call node rule).items) : item.isDependencies = false := by
  have plain {α : Type} {run : Except (Failure R) (Option α)} {f : α → Contribution R}
      (kind : ∀ a, (f a).isDependencies = false)
      (found : item ∈ (Trace.ofExcept (run.map (·.map f))).items) :
      item.isDependencies = false := by
    have given := Trace.mem_ofExcept found
    match run with
    | .error failure => cases given
    | .ok none => cases given
    | .ok (some a) =>
      cases given
      exact kind a
  have tokens {tokenClass : TokenClass}
      (found : item ∈ (tokenTrace call node rule tokenClass).items) :
      item.isDependencies = false := by
    obtain ⟨trace, inside, here⟩ := Trace.mem_concat found
    obtain ⟨candidate, -, rfl⟩ := List.mem_map.mp inside
    exact plain (fun _ => rfl) here
  obtain ⟨trace, inside, here⟩ := Trace.mem_concat member
  simp only [List.mem_cons, List.not_mem_nil, or_false] at inside
  rcases inside with rfl | rfl | rfl | rfl
  · exact plain (fun _ => rfl) here
  · exact plain (fun _ => rfl) here
  · exact tokens here
  · exact tokens here

/-- What a node reports last of all. -/
theorem contributions_eq_counted_append {clear : Bool}
    (calm : (contributions call clear node rule).failure = none) :
    ∃ reported, dependencies call clear node rule = .ok reported ∧
      (contributions call clear node rule).items =
        (counted call node rule).items ++ (reported.map Contribution.dependencies).toList := by
  rw [contributions_eq] at calm ⊢
  obtain ⟨-, last, items⟩ := Trace.failure_append_eq_none calm
  rw [items]
  match found : dependencies call clear node rule with
  | .error failure =>
    rw [found] at last
    cases last
  | .ok none => exact ⟨none, rfl, rfl⟩
  | .ok (some records) => exact ⟨some records, rfl, rfl⟩

/-- The contributions of a node depend on what its rule's functions give for the node, and on what
the function for dependencies gives for the flag that it is told. -/
theorem contributions_congr {other : Interpretation R}
    (plain : ∀ handle node, other handle node none = call handle node none) {clear : Bool}
    (asked : ∀ reporting ∈ (Event.node node rule).reporting? clear,
      reporting.result other = reporting.result call) :
    contributions other clear node rule = contributions call clear node rule := by
  have counts : counted other node rule = counted call node rule := by
    simp only [counted, amount, tokenTrace, token, resolve, passes, plain]
  have reports : dependencies other clear node rule = dependencies call clear node rule := by
    rw [dependencies_eq, dependencies_eq]
    generalize (Event.node node rule).reporting? clear = found at asked ⊢
    cases found with
    | none => rfl
    | some reporting => simp only [asked reporting rfl]
  rw [contributions_eq, contributions_eq, counts, reports]

end Rule

namespace Builder

open History

variable [Arithmetic R] {call other : Interpretation R} {location : Value R}
  {initial b next : Builder R} {events : List (Event R)} {event : Event R}

/-- What one event does to the flag and to the dependencies. -/
theorem dependencies_step (done : b.step call event = { state := next }) :
    match event.reporting? b.clear with
    | some reporting => next.clear = false ∧ ∃ result, reporting.result call = .ok result ∧
        next.report.dependencies = b.report.dependencies ++ Rule.records result
    | none => next.clear = b.clear ∧ next.report.dependencies = b.report.dependencies := by
  cases event with
  | node visited rule =>
    obtain ⟨calm, effect⟩ := effect_of_process done
    obtain ⟨reported, asked, items⟩ := Rule.contributions_eq_counted_append calm
    have counted : (Rule.counted call visited rule).items.all
        (fun item => !item.isDependencies) = true := by
      rw [List.all_eq_true]
      intro item member
      rw [Rule.isDependencies_of_mem_counted member]
      rfl
    have nothing : (Rule.counted call visited rule).items.flatMap Contribution.records = [] := by
      rw [List.flatMap_eq_nil_iff]
      intro item member
      have kind := Rule.isDependencies_of_mem_counted member
      cases item with
      | dependencies records => cases kind
      | _ => rfl
    have clear := effect.clear
    have dependencies := effect.dependencies
    rw [items, List.all_append, counted, Bool.true_and] at clear
    rw [items, List.flatMap_append, nothing, List.nil_append] at dependencies
    rw [Rule.dependencies_eq] at asked
    generalize (Event.node visited rule).reporting? b.clear = found at asked ⊢
    cases found with
    | none =>
      cases asked
      exact ⟨by simpa using clear, by simpa using dependencies⟩
    | some reporting =>
      cases given : reporting.result call with
      | error failure =>
        simp only [given] at asked
        cases asked
      | ok result =>
        simp only [given] at asked
        cases asked
        refine ⟨by simpa [Contribution.isDependencies] using clear, result, given, ?_⟩
        simpa [Contribution.records] using dependencies
  | openScope name place params =>
    obtain ⟨f, sum, -, -, rfl⟩ := openScope_eq_ok done
    exact ⟨rfl, rfl⟩
  | closeScope =>
    cases done
    exact ⟨rfl, rfl⟩

/-- An event is carried out in the same way by an interpretation that gives the same wherever it is
asked. -/
theorem step_congr (plain : ∀ handle node, other handle node none = call handle node none)
    (asked : ∀ reporting ∈ event.reporting? b.clear,
      reporting.result other = reporting.result call) :
    b.step other event = b.step call event := by
  cases event with
  | node visited rule =>
    change Progress.run take b _ = Progress.run take b _
    rw [Rule.contributions_congr plain asked]
  | openScope name place params => rfl
  | closeScope => rfl

/-- What a builder has to do with the reportings in the history of its events. -/
structure Reported (call : Interpretation R) (events : List (Event R)) (b : Builder R) : Prop where
  clear : b.clear = (reportings events).isEmpty
  dependencies : ∃ results, (reportings events).mapM (Reporting.result call) = .ok results ∧
    b.report.dependencies = results.flatMap Rule.records

private theorem Reported.step (reported : Reported call events b)
    (done : b.step call event = { state := next }) : Reported call (events ++ [event]) next := by
  have change := dependencies_step done
  rw [reported.clear] at change
  obtain ⟨results, given, before⟩ := reported.dependencies
  cases made : event.reporting? (reportings events).isEmpty with
  | none =>
    have same : reportings (events ++ [event]) = reportings events := by
      rw [reportings_concat, made, Option.toList_none, List.append_nil]
    rw [made] at change
    refine ⟨?_, results, ?_, ?_⟩
    · rw [same, change.1]
    · rw [same, given]
    · rw [change.2, before]
  | some reporting =>
    have more : reportings (events ++ [event]) = reportings events ++ [reporting] := by
      rw [reportings_concat, made, Option.toList_some]
    rw [made] at change
    obtain ⟨clear, result, gave, after⟩ := change
    refine ⟨?_, results ++ [result], ?_, ?_⟩
    · simp [more, clear]
    · rw [more, mapM_eq_ok_iff]
      exact List.rel_append (mapM_eq_ok_iff.mp given) (.cons gave .nil)
    · rw [after, before, List.flatMap_append, List.flatMap_singleton]

private theorem Reported.run (started : Builder.start location = .ok initial)
    (done : Progress.foldl (Builder.step call) initial events = { state := b }) :
    Reported call events b := by
  obtain ⟨-, clear, -, dependencies, -⟩ := start_eq_ok started
  exact Progress.foldl_invariant ⟨clear, [], rfl, dependencies⟩ Reported.step done

/-- The reportings of a history are all that matters of the functions for dependencies. -/
theorem foldl_step_congr (started : Builder.start location = .ok initial)
    (plain : ∀ handle node, other handle node none = call handle node none)
    (asked : ∀ reporting ∈ reportings events, reporting.result other = reporting.result call)
    (done : Progress.foldl (Builder.step call) initial events = { state := b }) :
    Progress.foldl (Builder.step other) initial events = { state := b } := by
  induction events using List.reverseRecOn generalizing b with
  | nil => exact done
  | append_singleton events event ih =>
    obtain ⟨middle, before, last⟩ := Progress.foldl_concat_eq_ok.mp done
    rw [reportings_concat] at asked
    have earlier := ih (fun reporting member => asked reporting (List.mem_append_left _ member))
      before
    refine Progress.foldl_concat_eq_ok.mpr ⟨middle, earlier, ?_⟩
    rw [← last]
    apply step_congr plain
    intro reporting made
    rw [(Reported.run started before).clear] at made
    exact asked reporting (List.mem_append_right _ (Option.mem_toList.mpr made))

/-- **Dependencies are reported in the order of the nodes.** The functions for dependencies are
called once for each node whose rule has one, in the order of the nodes: the first one is told that
it is the first and no other one is, whatever scopes are open and whatever the functions give. The
dependencies of the module are the records that their results stand for, one result after another.
No other call of such a function matters: the run is the same for every interpretation that agrees
on these calls and on those of the functions for amounts, identifiers and filters. -/
theorem dependencies_reported_in_order (started : Builder.start location = .ok initial)
    (done : Progress.foldl (Builder.step call) initial events = { state := b }) :
    b.clear = (reportings events).isEmpty ∧
      (∃ results parts, (reportings events).mapM (Reporting.result call) = .ok results ∧
        List.Forall₂ Rule.StandsFor results parts ∧ b.report.dependencies = parts.flatten) ∧
      ∀ other : Interpretation R, (∀ handle node, other handle node none = call handle node none) →
        (∀ reporting ∈ reportings events, reporting.result other = reporting.result call) →
        Progress.foldl (Builder.step other) initial events = { state := b } := by
  have reported := Reported.run started done
  obtain ⟨results, given, dependencies⟩ := reported.dependencies
  refine ⟨reported.clear, ⟨results, results.map Rule.records, given, ?_, ?_⟩, ?_⟩
  · rw [List.forall₂_map_right_iff, List.forall₂_same]
    exact fun result _ => Rule.standsFor_records result
  · rw [dependencies, List.flatMap_def]
  · intro other plain asked
    exact foldl_step_congr started plain asked done

/-- An interpretation whose functions give the node and the flag that they are told, each one in a
shape of its own: a mapping, a dependency record, a list, a tuple, and a text without the flag. -/
def shaped : Interpretation Binary64 := fun handle node flag =>
  let told := (flag.map Value.bool).getD .null
  match handle with
  | 0 => .ok (.dict [("path", node), ("first", told)])
  | 1 => .ok (Dependency.make (.text "AMD") node told)
  | 2 => .ok (.list [node, told])
  | 3 => .ok (.tuple [node, told])
  | _ => .ok (.text "none")

/-- A node whose rule reports dependencies by a function. -/
def asking (node handle : Nat) : Event Binary64 :=
  .node (.int node) (.dict [("dependencies", .function handle)])

/-- Functions of all shapes are asked, in two scopes and outside of them. -/
def allShapes : List (Event Binary64) :=
  [asking 0 4, .openScope (.text "outer") .null (.int 0), asking 1 0, asking 2 1,
    .openScope (.text "inner") .null (.int 0), asking 3 2, .closeScope, asking 4 3, asking 5 2]

/-- The first function is told that it is the first, although it reports nothing. -/
theorem dependencies_reported_in_order_allShapes :
    ∃ initial b : Builder Binary64, Builder.start .null = .ok initial ∧
      Progress.foldl (Builder.step shaped) initial allShapes = { state := b } ∧
      (reportings allShapes).map Reporting.first = [true, false, false, false, false, false] ∧
      b.report.dependencies = [.dict [("path", .int 1), ("first", .bool false)],
        Dependency.make (.text "AMD") (.int 2) (.bool false), .int 3, .bool false,
        .int 4, .bool false, .int 5, .bool false] := by
  obtain ⟨initial, started⟩ : ∃ initial : Builder Binary64, Builder.start .null = .ok initial :=
    ⟨_, rfl⟩
  obtain ⟨b, done⟩ : ∃ b : Builder Binary64,
      Progress.foldl (Builder.step shaped) initial allShapes = { state := b } := by
    cases started
    exact ⟨_, rfl⟩
  obtain ⟨-, ⟨results, parts, given, shapes, dependencies⟩, -⟩ :=
    dependencies_reported_in_order started done
  refine ⟨initial, b, started, done, rfl, ?_⟩
  rw [dependencies, Rule.eq_map_records shapes]
  cases given
  rfl

end Builder

end SourceMetrics
