import Mathlib.Data.List.Flatten
import Mathlib.Data.List.Perm.Basic
import SourceMetrics.Proofs.CountedNodes
import SourceMetrics.Proofs.CounterTotals

/-! # Conservation

Every node is handed to one scope or to none (`History.nodes_perm`). What the module as a whole has
taken is therefore what its functions have taken together, and what was contributed while no scope
was open (`ModuleReport.Shares`). Everything that adds up follows from that in the same way
(`ModuleReport.Shares.sum_counters`); distinct tokens do not add up, and have bounds instead. Since
every part of a run is a run, this holds at every point of it (`Builder.conserved_at_every_point`).
-/

namespace SourceMetrics

variable {R : Type}

namespace History

private theorem flatMap_range_single {α : Type} {n k : Nat} (below : k < n) (a : α) :
    ((List.range n).flatMap fun j => if j = k then [a] else []) = [a] := by
  induction n with
  | zero => omega
  | succ n ih =>
    rw [List.range_succ, List.flatMap_append, List.flatMap_singleton]
    by_cases last : n = k
    · have nothing : ((List.range n).flatMap fun j => if j = k then [a] else []) = [] := by
        rw [List.flatMap_eq_nil_iff]
        intro j inside
        have earlier := List.mem_range.mp inside
        rw [if_neg (by omega)]
      rw [nothing, if_pos last, List.nil_append]
    · rw [ih (by omega), if_neg last, List.append_nil]

/-- A node is the last of all nodes, and the last of those of its scope or of those of none. -/
theorem nodes_perm_node {events : List (Event R)}
    (before : (events.filter Event.isNode).Perm
      ((List.range (openings events).length).flatMap (fun k => handedTo (some k) events) ++
        handedTo none events)) {event : Event R} (handed : event.isNode = true) :
    (events.filter Event.isNode ++ [event]).Perm
      ((List.range (openings events).length).flatMap
          (fun k => handedTo (some k) (events ++ [event])) ++
        handedTo none (events ++ [event])) := by
  cases inside : innermost events with
  | none =>
    have outside : handedTo none (events ++ [event]) =
        handedTo none events ++ [event] := by
      simp [handedTo_concat, inside, handed]
    have others (k : Nat) : handedTo (some k) (events ++ [event]) = handedTo (some k) events := by
      simp [handedTo_concat, inside]
    simp only [others]
    rw [outside, ← List.append_assoc]
    exact before.append_right _
  | some k =>
    have opened := innermost_lt inside
    have outside : handedTo none (events ++ [event]) = handedTo none events := by
      simp [handedTo_concat, inside]
    have each (j : Nat) : handedTo (some j) (events ++ [event]) =
        handedTo (some j) events ++ if j = k then [event] else [] := by
      rw [handedTo_concat, inside]
      by_cases same : j = k
      · simp [same, handed]
      · simp [same, Ne.symm same]
    have spread := List.flatMap_append_perm (List.range (openings events).length)
      (fun k => handedTo (some k) events) fun j => if j = k then [event] else []
    have moved : ((List.range (openings events).length).flatMap
          (fun k => handedTo (some k) events) ++ handedTo none events ++ [event]).Perm
        ((List.range (openings events).length).flatMap
          (fun k => handedTo (some k) events) ++ [event] ++ handedTo none events) := by
      rw [List.append_assoc, List.append_assoc]
      exact List.perm_append_comm.append_left _
    rw [flatMap_range_single opened] at spread
    simp only [each]
    rw [outside]
    exact (before.append_right _).trans (moved.trans (spread.append_right _))

/-- Every node is handed to one of the scopes that have been opened, or handed over while none is
open. -/
theorem nodes_perm (events : List (Event R)) :
    (events.filter Event.isNode).Perm
      ((List.range (openings events).length).flatMap (fun k => handedTo (some k) events) ++
        handedTo none events) := by
  induction events using List.reverseRecOn with
  | nil => exact .nil
  | append_singleton events event ih =>
    have opened := openings_concat events event
    cases event with
    | node visited rule =>
      rw [opened, List.filter_append]
      have handed : (Event.node visited rule).isNode = true := rfl
      simpa [Event.opening?, handed] using nodes_perm_node ih handed
    | openScope name location params =>
      have others (k : Nat) : handedTo (some k) (events ++ [.openScope name location params]) =
          handedTo (some k) events := handedTo_concat_of_not (some k) rfl
      have one : (openings (events ++ [.openScope name location params])).length =
          (openings events).length + 1 := by
        rw [opened, List.length_append]
        rfl
      simp only [others]
      rw [filter_isNode_concat_of_not rfl, handedTo_concat_of_not none rfl, one, List.range_succ,
        List.flatMap_append, List.flatMap_singleton, handedTo_eq_nil (Nat.le_refl _),
        List.append_nil]
      exact ih
    | closeScope =>
      have others (k : Nat) : handedTo (some k) (events ++ [.closeScope]) =
          handedTo (some k) events := handedTo_concat_of_not (some k) rfl
      simp only [others]
      rw [filter_isNode_concat_of_not rfl, handedTo_concat_of_not none rfl, opened]
      simpa [Event.opening?] using ih

end History

/-- A value of each function, by its position. -/
theorem map_eq_map_range {F α : Type} {functions : List F} {value : F → α} {part : Nat → α}
    (agree : ∀ (k : Nat) (f : F), functions[k]? = some f → value f = part k) :
    functions.map value = (List.range functions.length).map part := by
  apply List.ext_getElem?
  intro k
  rw [List.getElem?_map, List.getElem?_map]
  cases found : functions[k]? with
  | none =>
    rw [List.getElem?_eq_none_iff] at found
    simp [found]
  | some f =>
    have below := (List.getElem?_eq_some_iff.mp found).1
    simp [below, agree k f found]

/-- What is additive is shared out among functions and what is outside of them. -/
theorem sum_of_parts {F C : Type} {functions : List F} {part : Nat → List C}
    {outside all : List C}
    (parts : all.Perm ((List.range functions.length).flatMap part ++ outside))
    (measure : List C → Int)
    (additive : ∀ first second, measure (first ++ second) = measure first + measure second)
    (symmetric : ∀ first second, first.Perm second → measure first = measure second)
    {value : F → Int}
    (agree : ∀ (k : Nat) (f : F), functions[k]? = some f → value f = measure (part k)) :
    measure all = (functions.map value).sum + measure outside := by
  have empty : measure [] = 0 := by
    have twice := additive [] []
    rw [List.append_nil] at twice
    omega
  have spread (row : List Nat) :
      measure (row.flatMap part) = (row.map fun k => measure (part k)).sum := by
    induction row with
    | nil => exact empty
    | cons k rest ih => rw [List.flatMap_cons, additive, ih, List.map_cons, List.sum_cons]
  rw [symmetric _ _ parts, additive, spread, map_eq_map_range agree]

namespace ModuleReport

variable [Arithmetic R]

/-- What the functions of a report and the module as a whole have taken: all contributions together
are those of the functions and those outside of every function. -/
structure Shares (report : ModuleReport R) (all : List (Contribution R))
    (part : Nat → List (Contribution R)) (outside : List (Contribution R)) : Prop where
  parts : all.Perm ((List.range report.functions.length).flatMap part ++ outside)
  whole : report.aggregate.counters.Totals all
  each : ∀ (k : Nat) (f : FunctionReport R), report.functions[k]? = some f →
    f.counters.Totals (part k)

namespace Shares

variable {report : ModuleReport R} {all outside : List (Contribution R)}
  {part : Nat → List (Contribution R)}

/-- What counters add up is shared out. -/
theorem sum_counters (shares : report.Shares all part outside) (value : FunctionReport R → Int)
    (measure : List (Contribution R) → Int)
    (additive : ∀ first second, measure (first ++ second) = measure first + measure second)
    (symmetric : ∀ first second, first.Perm second → measure first = measure second)
    (agree : ∀ (f : FunctionReport R) (items : List (Contribution R)), f.counters.Totals items →
      value f = measure items) :
    value report.aggregate = (report.functions.map value).sum + measure outside := by
  rw [agree _ _ shares.whole]
  apply sum_of_parts shares.parts measure additive symmetric
  intro k f found
  exact agree f _ (shares.each k f found)

private theorem logical (shares : report.Shares all part outside) :
    report.aggregate.logical.whole =
      (report.functions.map fun f => f.logical.whole).sum +
        (outside.map Contribution.lines).sum := by
  apply shares.sum_counters (fun f => f.logical.whole) fun items => (items.map Contribution.lines).sum
  · intro first second
    rw [List.map_append, List.sum_append]
  · intro first second same
    exact (same.map _).sum_eq
  · intro f items totals
    exact congrArg Value.whole totals.logical

private theorem cyclomatic (shares : report.Shares all part outside) :
    report.aggregate.cyclomatic.whole - 1 =
      (report.functions.map fun f => f.cyclomatic.whole - 1).sum +
        (outside.map Contribution.branches).sum := by
  apply shares.sum_counters (fun f => f.cyclomatic.whole - 1)
    fun items => (items.map Contribution.branches).sum
  · intro first second
    rw [List.map_append, List.sum_append]
  · intro first second same
    exact (same.map _).sum_eq
  · intro f items totals
    have same : f.cyclomatic.whole = 1 + (items.map Contribution.branches).sum :=
      congrArg Value.whole totals.cyclomatic
    omega

private theorem total (shares : report.Shares all part outside) (tokenClass : TokenClass) :
    (report.aggregate.halstead.tally tokenClass).total.whole =
      (report.functions.map fun f => (f.halstead.tally tokenClass).total.whole).sum +
        (outside.filterMap (Contribution.tokenKey? tokenClass)).length := by
  apply shares.sum_counters (fun f => (f.halstead.tally tokenClass).total.whole)
    fun items => (items.filterMap (Contribution.tokenKey? tokenClass)).length
  · intro first second
    rw [List.filterMap_append, List.length_append, Int.natCast_add]
  · intro first second same
    rw [(same.filterMap _).length_eq]
  · intro f items totals
    exact congrArg Value.whole (totals.counts_tally tokenClass).total

/-- Tokens that are never met again are listed for each of their occurrences. -/
theorem repeated (shares : report.Shares all part outside) (tokenClass : TokenClass) {k : Key}
    (once : k.recurs = false) :
    ((report.aggregate.halstead.tally tokenClass).keys.count k : Int) =
      (report.functions.map fun f => ((f.halstead.tally tokenClass).keys.count k : Int)).sum +
        (outside.filterMap (Contribution.tokenKey? tokenClass)).count k := by
  apply shares.sum_counters (fun f => ((f.halstead.tally tokenClass).keys.count k : Int))
    fun items => (items.filterMap (Contribution.tokenKey? tokenClass)).count k
  · intro first second
    rw [List.filterMap_append, List.count_append, Int.natCast_add]
  · intro first second same
    rw [(same.filterMap _).count_eq]
  · intro f items totals
    rw [(totals.counts_tally tokenClass).repeated k once]

/-- The tokens of a class in all contributions, by the functions that have taken them. -/
theorem tokens_perm (shares : report.Shares all part outside) (tokenClass : TokenClass) :
    (all.filterMap (Contribution.tokenKey? tokenClass)).Perm
      ((List.range report.functions.length).flatMap
          (fun k => (part k).filterMap (Contribution.tokenKey? tokenClass)) ++
        outside.filterMap (Contribution.tokenKey? tokenClass)) := by
  have keys := shares.parts.filterMap (Contribution.tokenKey? tokenClass)
  rwa [List.filterMap_append, List.filterMap_flatMap] at keys

private theorem listed (shares : report.Shares all part outside) (tokenClass : TokenClass)
    (k : Key) :
    k ∈ (report.aggregate.halstead.tally tokenClass).keys ↔
      (∃ f ∈ report.functions, k ∈ (f.halstead.tally tokenClass).keys) ∨
        k ∈ outside.filterMap (Contribution.tokenKey? tokenClass) := by
  rw [(shares.whole.counts_tally tokenClass).listed, (shares.tokens_perm tokenClass).mem_iff,
    List.mem_append, List.mem_flatMap]
  apply or_congr_left
  constructor
  · rintro ⟨j, inside, member⟩
    have found := List.getElem?_eq_getElem (List.mem_range.mp inside)
    refine ⟨_, List.mem_of_getElem? found, ?_⟩
    exact (((shares.each j _ found).counts_tally tokenClass).listed k).mpr member
  · rintro ⟨f, inside, member⟩
    obtain ⟨j, found⟩ := List.getElem?_of_mem inside
    refine ⟨j, List.mem_range.mpr (List.getElem?_eq_some_iff.mp found).1, ?_⟩
    exact (((shares.each j f found).counts_tally tokenClass).listed k).mp member

/-- A function has no more distinct tokens than the module as a whole. -/
theorem distinct_le_aggregate (shares : report.Shares all part outside) (tokenClass : TokenClass)
    {f : FunctionReport R} (listed : f ∈ report.functions) :
    (f.halstead.tally tokenClass).distinct.whole ≤
      (report.aggregate.halstead.tally tokenClass).distinct.whole := by
  obtain ⟨k, found⟩ := List.getElem?_of_mem listed
  have below : k ∈ List.range report.functions.length :=
    List.mem_range.mpr (List.getElem?_eq_some_iff.mp found).1
  have inside := (List.singleton_sublist.mpr below).flatMap fun k =>
    (part k).filterMap (Contribution.tokenKey? tokenClass)
  rw [List.flatMap_singleton] at inside
  have fewer := Key.distinctCount_le
    ((inside.trans (List.sublist_append_left _ _)).subperm.trans
      (shares.tokens_perm tokenClass).symm.subperm)
  rw [((shares.each k f found).counts_tally tokenClass).distinct,
    (shares.whole.counts_tally tokenClass).distinct, Value.whole_int, Value.whole_int]
  exact Int.ofNat_le.mpr fewer

/-- The module as a whole has no more distinct tokens than its functions and what is outside of them
together: a token may be in several of these. -/
theorem aggregate_distinct_le (shares : report.Shares all part outside) (tokenClass : TokenClass) :
    (report.aggregate.halstead.tally tokenClass).distinct.whole ≤
      (report.functions.map fun f => (f.halstead.tally tokenClass).distinct.whole).sum +
        Key.distinctCount (outside.filterMap (Contribution.tokenKey? tokenClass)) := by
  have functions : (report.functions.map fun f => (f.halstead.tally tokenClass).distinct.whole) =
      (List.range report.functions.length).map fun k =>
        (Key.distinctCount ((part k).filterMap (Contribution.tokenKey? tokenClass)) : Int) := by
    apply map_eq_map_range
    intro k f found
    rw [((shares.each k f found).counts_tally tokenClass).distinct, Value.whole_int]
  have split := Key.distinctCount_append_le
    ((List.range report.functions.length).flatMap fun k =>
      (part k).filterMap (Contribution.tokenKey? tokenClass))
    (outside.filterMap (Contribution.tokenKey? tokenClass))
  have spread := Key.distinctCount_flatMap_le (List.range report.functions.length) fun k =>
    (part k).filterMap (Contribution.tokenKey? tokenClass)
  rw [(shares.whole.counts_tally tokenClass).distinct, Value.whole_int, functions,
    Key.distinctCount_perm (shares.tokens_perm tokenClass)]
  omega

end Shares

end ModuleReport

/-- All counts of a report are integers. -/
structure FunctionReport.IsWhole [Arithmetic R] (f : FunctionReport R) : Prop where
  params : f.params.integer?.isSome = true
  logical : f.logical.integer?.isSome = true
  cyclomatic : f.cyclomatic.integer?.isSome = true
  total : ∀ tokenClass, (f.halstead.tally tokenClass).total.integer?.isSome = true
  distinct : ∀ tokenClass, (f.halstead.tally tokenClass).distinct.integer?.isSome = true

private theorem FunctionReport.isWhole_of_totals [Arithmetic R] {f : FunctionReport R}
    {items : List (Contribution R)} (params : f.params.integer?.isSome = true)
    (totals : f.counters.Totals items) : f.IsWhole where
  params := params
  logical := by
    have counted : f.logical = .int _ := totals.logical
    rw [counted]
    rfl
  cyclomatic := by
    have counted : f.cyclomatic = .int _ := totals.cyclomatic
    rw [counted]
    rfl
  total tokenClass := by
    rw [(totals.counts_tally tokenClass).total]
    rfl
  distinct tokenClass := by
    rw [(totals.counts_tally tokenClass).distinct]
    rfl

namespace ModuleReport

variable [Arithmetic R]

/-- Nothing gets lost between the functions of a report and the module as a whole, when some
contributions were made outside of every function. -/
structure Conserved (report : ModuleReport R) (outside : List (Contribution R)) : Prop where
  whole : ∀ f ∈ report.aggregate :: report.functions, f.IsWhole
  params : report.aggregate.params.whole = (report.functions.map fun f => f.params.whole).sum
  logical : report.aggregate.logical.whole =
    (report.functions.map fun f => f.logical.whole).sum + (outside.map Contribution.lines).sum
  cyclomatic : report.aggregate.cyclomatic.whole - 1 =
    (report.functions.map fun f => f.cyclomatic.whole - 1).sum +
      (outside.map Contribution.branches).sum
  total : ∀ tokenClass, (report.aggregate.halstead.tally tokenClass).total.whole =
    (report.functions.map fun f => (f.halstead.tally tokenClass).total.whole).sum +
      (outside.filterMap (Contribution.tokenKey? tokenClass)).length
  /-- The tokens of the module as a whole are those of its functions and those outside. -/
  listed : ∀ tokenClass k, k ∈ (report.aggregate.halstead.tally tokenClass).keys ↔
    (∃ f ∈ report.functions, k ∈ (f.halstead.tally tokenClass).keys) ∨
      k ∈ outside.filterMap (Contribution.tokenKey? tokenClass)
  /-- Tokens that are never met again are different tokens, though they have the same key. -/
  repeated : ∀ tokenClass k, k.recurs = false →
    ((report.aggregate.halstead.tally tokenClass).keys.count k : Int) =
      (report.functions.map fun f => ((f.halstead.tally tokenClass).keys.count k : Int)).sum +
        (outside.filterMap (Contribution.tokenKey? tokenClass)).count k
  distinct_le_aggregate : ∀ tokenClass, ∀ f ∈ report.functions,
    (f.halstead.tally tokenClass).distinct.whole ≤
      (report.aggregate.halstead.tally tokenClass).distinct.whole
  aggregate_distinct_le : ∀ tokenClass,
    (report.aggregate.halstead.tally tokenClass).distinct.whole ≤
      (report.functions.map fun f => (f.halstead.tally tokenClass).distinct.whole).sum +
        Key.distinctCount (outside.filterMap (Contribution.tokenKey? tokenClass))

end ModuleReport

namespace Builder

open History

variable [Arithmetic R] {call : Interpretation R} {location : Value R} {initial b : Builder R}
  {events : List (Event R)}

/-- What one event adds to the number of parameters of the module as a whole. -/
theorem aggregate_params_step {next : Builder R} {event : Event R}
    (done : b.step call event = { state := next })
    {sum : Int} (before : b.report.aggregate.params = .int sum)
    (integers : ∀ opening ∈ event.opening?, opening.2.2.integer?.isSome = true) :
    next.report.aggregate.params =
      .int (sum + (event.opening?.toList.map fun opening => opening.2.2.whole).sum) := by
  cases event with
  | node visited rule =>
    obtain ⟨-, effect⟩ := effect_of_process done
    obtain ⟨counters, -, changed⟩ := effect.aggregate
    have same : next.report.aggregate.params = b.report.aggregate.params := by
      rw [changed]
      rfl
    rw [same, before]
    exact congrArg Value.int (Int.add_zero sum).symm
  | openScope name place params =>
    obtain ⟨f, increased, -, added, rfl⟩ := openScope_eq_ok done
    have integer : params.integer?.isSome = true := integers (name, place, params) rfl
    rw [before, Value.increase_int sum integer] at added
    cases added
    simp [Event.opening?]
  | closeScope =>
    cases done
    change b.report.aggregate.params = _
    rw [before]
    exact congrArg Value.int (Int.add_zero sum).symm

private theorem aggregate_params (started : Builder.start location = .ok initial)
    (done : Progress.foldl (Builder.step call) initial events = { state := b })
    (integers : ∀ opening ∈ openings events, opening.2.2.integer?.isSome = true) :
    b.report.aggregate.params =
      .int ((openings events).map fun opening => opening.2.2.whole).sum := by
  induction events using List.reverseRecOn generalizing b with
  | nil =>
    cases done
    obtain ⟨f, opened, result⟩ := bind_eq_ok.mp started
    cases result
    exact (FunctionReport.opened_eq_ok opened).2.2.1
  | append_singleton events event ih =>
    obtain ⟨middle, before, last⟩ := Progress.foldl_concat_eq_ok.mp done
    rw [openings_concat] at integers ⊢
    have earlier := ih before fun opening member => integers opening (List.mem_append_left _ member)
    have step := aggregate_params_step last earlier fun opening member =>
      integers opening (List.mem_append_right _ (Option.mem_toList.mpr member))
    rw [step, List.map_append, List.sum_append]

/-- In a run, the parameters of the functions are those of the scopes that were opened, in order. -/
theorem functions_params (started : Builder.start location = .ok initial)
    (done : Progress.foldl (Builder.step call) initial events = { state := b }) :
    (b.report.functions.map fun f => f.params) =
      (openings events).map fun opening => opening.2.2 := by
  have reads := Reads.run started started done
  apply List.ext_getElem?
  intro k
  rw [List.getElem?_map, List.getElem?_map]
  cases found : b.report.functions[k]? with
  | none =>
    rw [List.getElem?_eq_none_iff, reads.length, ← List.getElem?_eq_none_iff] at found
    rw [found]
    rfl
  | some f =>
    obtain ⟨name, place, params, opened, -, same, -⟩ := reads.opened k f found
    rw [opened, Option.map_some, Option.map_some, same]

/-- What the functions and the module as a whole have taken after a run. -/
theorem shares_of_run (started : Builder.start location = .ok initial)
    (done : Progress.foldl (Builder.step call) initial events = { state := b })
    (amounts : ∀ item ∈ events.flatMap (Event.counted call), item.isWhole = true) :
    b.report.Shares (events.flatMap (Event.counted call))
      (fun k => (handedTo (some k) events).flatMap (Event.counted call))
      ((handedTo none events).flatMap (Event.counted call)) := by
  have parts : (events.flatMap (Event.counted call)).Perm
      ((List.range b.report.functions.length).flatMap
          (fun k => (handedTo (some k) events).flatMap (Event.counted call)) ++
        (handedTo none events).flatMap (Event.counted call)) := by
    have nodes := (nodes_perm events).flatMap_right (Event.counted call)
    rw [Event.flatMap_counted_filter, List.flatMap_append, List.flatMap_assoc] at nodes
    rw [(Reads.run started started done).length]
    exact nodes
  refine ⟨parts, ?_, ?_⟩
  · exact Counters.Totals.initial.takeAll amounts (aggregate_counters started done)
  · intro k f found
    have below := (List.getElem?_eq_some_iff.mp found).1
    apply Counters.Totals.initial.takeAll _ (function_counters started done found)
    intro item member
    apply amounts
    apply parts.mem_iff.mpr
    apply List.mem_append_left
    exact List.mem_flatMap.mpr ⟨k, List.mem_range.mpr below, member⟩

/-- A run conserves what it counts, if all amounts and all numbers of parameters are whole. -/
theorem conserved_of_run (started : Builder.start location = .ok initial)
    (done : Progress.foldl (Builder.step call) initial events = { state := b })
    (amounts : ∀ item ∈ events.flatMap (Event.counted call), item.isWhole = true)
    (integers : ∀ opening ∈ openings events, opening.2.2.integer?.isSome = true) :
    b.report.Conserved ((handedTo none events).flatMap (Event.counted call)) := by
  have shares := shares_of_run started done amounts
  have total := aggregate_params started done integers
  have params := functions_params started done
  refine ⟨?_, ?_, shares.logical, shares.cyclomatic, shares.total, shares.listed, ?_, ?_,
    shares.aggregate_distinct_le⟩
  · intro f member
    rcases List.mem_cons.mp member with rfl | listed
    · exact FunctionReport.isWhole_of_totals (by rw [total]; rfl) shares.whole
    · obtain ⟨k, found⟩ := List.getElem?_of_mem listed
      apply FunctionReport.isWhole_of_totals _ (shares.each k f found)
      have opened : f.params ∈ (openings events).map fun opening => opening.2.2 := by
        rw [← params]
        exact List.mem_map_of_mem listed
      obtain ⟨opening, inside, same⟩ := List.mem_map.mp opened
      rw [← same]
      exact integers opening inside
  · have values := congrArg (List.map Value.whole) params
    rw [List.map_map, List.map_map] at values
    rw [total, Value.whole_int]
    exact (congrArg List.sum values).symm
  · intro tokenClass k once
    exact shares.repeated tokenClass once
  · intro tokenClass f listed
    exact shares.distinct_le_aggregate tokenClass listed

/-- At every point of a run whose amounts and numbers of parameters are integers, nothing is lost
between the functions and the module as a whole: parameters, lines, branches and occurrences of
tokens add up, with those contributed while no scope is open, and so do the tokens that are listed.
Distinct tokens do not add up, but those of the module are no fewer than those of a function and no
more than those of all functions and those met while no scope is open. -/
theorem conserved_at_every_point {last : Builder R} (started : Builder.start location = .ok initial)
    (done : Progress.foldl (Builder.step call) initial events = { state := last })
    (amounts : ∀ item ∈ events.flatMap (Event.counted call), item.isWhole = true)
    (integers : ∀ opening ∈ openings events, opening.2.2.integer?.isSome = true) (n : Nat) :
    ∃ b, Progress.foldl (Builder.step call) initial (events.take n) = { state := b } ∧
      b.report.Conserved ((handedTo none (events.take n)).flatMap (Event.counted call)) := by
  have split := List.take_append_drop n events
  rw [← split] at done amounts integers
  obtain ⟨b, before, -⟩ := Progress.foldl_append_eq_ok.mp done
  refine ⟨b, before, conserved_of_run started before ?_ ?_⟩
  · intro item member
    apply amounts
    rw [List.flatMap_append]
    exact List.mem_append_left _ member
  · intro opening member
    apply integers
    rw [openings_append]
    exact List.mem_append_left _ member

/-- With both scopes open, the first node has been handed over outside of them. -/
theorem conserved_at_every_point_nestedScopes :
    ∃ initial last b : Builder Binary64, Builder.start .null = .ok initial ∧
      Progress.foldl (Builder.step fun _ _ _ => .ok (.list [])) initial nestedScopes =
        { state := last } ∧
      Progress.foldl (Builder.step fun _ _ _ => .ok (.list [])) initial (nestedScopes.take 6) =
        { state := b } ∧
      b.report.aggregate.params.whole = (b.report.functions.map fun f => f.params.whole).sum ∧
      b.report.aggregate.logical.whole =
        (b.report.functions.map fun f => f.logical.whole).sum + 1 ∧
      b.report.aggregate.halstead.operators.distinct.whole ≤
        (b.report.functions.map fun f => f.halstead.operators.distinct.whole).sum + 1 := by
  obtain ⟨initial, started⟩ : ∃ initial : Builder Binary64, Builder.start .null = .ok initial :=
    ⟨_, rfl⟩
  obtain ⟨last, done⟩ : ∃ last : Builder Binary64, Progress.foldl
      (Builder.step fun _ _ _ => .ok (.list [])) initial nestedScopes = { state := last } := by
    cases started
    exact ⟨_, rfl⟩
  have amounts : (nestedScopes.flatMap (Event.counted fun _ _ _ => .ok (.list []))).all
      Contribution.isWhole = true := rfl
  have integers : (openings nestedScopes).all
      (fun opening => opening.2.2.integer?.isSome) = true := rfl
  obtain ⟨b, before, conserved⟩ := conserved_at_every_point started done
    (List.all_eq_true.mp amounts) (List.all_eq_true.mp integers) 6
  exact ⟨initial, last, b, started, done, before, conserved.params, conserved.logical,
    conserved.aggregate_distinct_le .operators⟩

end Builder

end SourceMetrics
