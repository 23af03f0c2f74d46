import SourceMetrics.Proofs.CountedNodes
import SourceMetrics.Proofs.TreeAddresses

/-! # A tree walked by a table

The events of a walk by a table are bracketed: they leave the open scopes as they find them,
whatever these are, and each node goes to a scope that the tree alone determines
(`History.Bracketed`). For a whole tree the stack is therefore empty at the end, the functions are
the scope nodes in pre-order, and the counters of a function are those of the nodes whose nearest
scope node it belongs to (`SyntaxTable.functions_of_tree`).
-/

namespace SourceMetrics

variable {R : Type}

namespace History

/-- The nodes that bracketed events hand to a scope: those outside their own scopes to the scope
that is the innermost one before them, and those of one of their own scopes to that one. -/
def share (before outer : List (Event R))
    (inner : List ((Value R × Value R × Value R) × List (Event R))) (scope : Nat) :
    List (Event R) :=
  if innermost before = some scope then outer
  else if (openings before).length ≤ scope then
    (inner[scope - (openings before).length]?.map Prod.snd).getD []
  else []

/-- Events that close the scopes that they open and no others. They hand over `all` nodes, open
the scopes of `inner` with the nodes listed there, and hand over the nodes of `outer` outside of
these. -/
structure Bracketed (all outer : List (Event R))
    (inner : List ((Value R × Value R × Value R) × List (Event R))) (events : List (Event R)) :
    Prop where
  nodes : events.filter Event.isNode = all
  opened : openings events = inner.map Prod.fst
  restores : ∀ before depth,
    unmatched (before ++ events).reverse depth = unmatched before.reverse depth
  handed : ∀ before scope,
    handedTo (some scope) (before ++ events) =
      handedTo (some scope) before ++ share before outer inner scope

namespace Bracketed

variable {all outer events : List (Event R)}
  {inner : List ((Value R × Value R × Value R) × List (Event R))}

private theorem innermost_eq (bracketed : Bracketed all outer inner events)
    (before : List (Event R)) : innermost (before ++ events) = innermost before :=
  bracketed.restores before 0

private theorem nil : Bracketed ([] : List (Event R)) [] [] [] where
  nodes := rfl
  opened := rfl
  restores before depth := by rw [List.append_nil]
  handed before scope := by simp [share]

private theorem node (visited rule : Value R) :
    Bracketed [.node visited rule] [.node visited rule] [] [.node visited rule] where
  nodes := rfl
  opened := rfl
  restores before depth := by rw [List.reverse_concat, unmatched]
  handed before scope := by
    rw [handedTo_concat]
    by_cases inside : innermost before = some scope
    · simp [share, inside, Event.isNode]
    · simp [share, inside]

/-- One bracketed row of events after another. -/
theorem append {all' outer' events' : List (Event R)}
    {inner' : List ((Value R × Value R × Value R) × List (Event R))}
    (first : Bracketed all outer inner events) (second : Bracketed all' outer' inner' events') :
    Bracketed (all ++ all') (outer ++ outer') (inner ++ inner') (events ++ events') where
  nodes := by rw [List.filter_append, first.nodes, second.nodes]
  opened := by rw [openings_append, first.opened, second.opened, List.map_append]
  restores before depth := by
    rw [← List.append_assoc, second.restores, first.restores]
  handed before scope := by
    have later :
        (openings (before ++ events)).length = (openings before).length + inner.length := by
      rw [openings_append, List.length_append, first.opened, List.length_map]
    rw [← List.append_assoc, second.handed, first.handed, List.append_assoc]
    congr 1
    unfold share
    rw [first.innermost_eq, later]
    by_cases inside : innermost before = some scope
    · rw [if_pos inside, if_pos inside, if_pos inside]
    · rw [if_neg inside, if_neg inside, if_neg inside]
      by_cases listed : (openings before).length ≤ scope
      · rw [if_pos listed, if_pos listed]
        by_cases late : (openings before).length + inner.length ≤ scope
        · rw [if_pos late, List.getElem?_append_right (by omega), List.getElem?_eq_none (by omega),
            Nat.sub_add_eq]
          rfl
        · rw [if_neg late, List.append_nil, List.getElem?_append_left (by omega)]
      · rw [if_neg listed, if_neg listed, if_neg (by omega)]
        rfl

/-- Bracketed events inside a scope of their own. -/
theorem enclose (body : Bracketed all outer inner events) (name location params : Value R) :
    Bracketed all [] (((name, location, params), outer) :: inner)
      ([.openScope name location params] ++ events ++ [.closeScope]) where
  nodes := by
    rw [filter_isNode_concat_of_not rfl, List.filter_append, body.nodes]
    rfl
  opened := by
    rw [openings_append, openings_append, body.opened]
    simp [openings, Event.opening?]
  restores before depth := by
    rw [← List.append_assoc, ← List.append_assoc, List.reverse_concat, unmatched, body.restores,
      List.reverse_concat, unmatched]
  handed before scope := by
    have entered : innermost (before ++ [.openScope name location params]) =
        some (openings before).length := by
      rw [innermost, List.reverse_concat, unmatched, length_openings_reverse]
    have later : (openings (before ++ [.openScope name location params])).length =
        (openings before).length + 1 := by
      rw [openings_concat, List.length_append]
      rfl
    rw [← List.append_assoc, ← List.append_assoc, handedTo_concat_of_not (some scope) rfl,
      body.handed, handedTo_concat_of_not (some scope) rfl]
    congr 1
    unfold share
    rw [entered, later]
    -- The scope may be one from before, the one around the events, or one of theirs.
    rcases Nat.lt_trichotomy scope (openings before).length with known | same | deeper
    · rw [if_neg (by simp; omega), if_neg (by omega), if_neg (show ¬ _ ≤ scope by omega), ite_self]
    · have outside : innermost before ≠ some scope := by
        intro inside
        have := innermost_lt inside
        omega
      rw [if_pos (by rw [same]), if_neg outside, if_pos (by omega), same, Nat.sub_self]
      rfl
    · have outside : innermost before ≠ some scope := by
        intro inside
        have := innermost_lt inside
        omega
      have next : scope - (openings before).length =
          scope - ((openings before).length + 1) + 1 := by omega
      rw [if_neg (by simp; omega), if_pos (by omega), if_neg outside, if_pos (by omega), next,
        List.getElem?_cons_succ]

/-- After nothing else, bracketed events hand to each of their scopes what is listed for it. -/
theorem handedTo_eq (bracketed : Bracketed all outer inner events) {scope : Nat}
    {entry : (Value R × Value R × Value R) × List (Event R)} (found : inner[scope]? = some entry) :
    handedTo (some scope) events = entry.2 := by
  have whole := bracketed.handed [] scope
  have outside : innermost ([] : List (Event R)) ≠ some scope := by
    intro inside
    cases inside
  have unopened : (openings ([] : List (Event R))).length = 0 := rfl
  rw [List.nil_append, share, if_neg outside, unopened, if_pos (Nat.zero_le _), Nat.sub_zero,
    found] at whole
  exact whole

end Bracketed

end History

namespace SyntaxTable

/-- The event that hands over a node, if the table has a rule for it. -/
def handed (table : SyntaxTable R) (node : Value R) : List (Event R) :=
  match node.field "type" with
  | .text name => (table.rules.lookup name).toList.map (Event.node node)
  | _ => []

/-- The name, the location and the number of parameters that the scope of a node is opened with. -/
def opening (node : Value R) : Value R × Value R × Value R :=
  (node.field "name", node.field "loc",
    .int ((((node.field? "params").getD (.list [])).length.toOption.getD 0 : Nat) : Int))

/-- The nodes of a scope as they are handed over, with what the scope is opened with. -/
def scopeEvents (table : SyntaxTable R) (scope : Value R × List (Value R)) :
    (Value R × Value R × Value R) × List (Event R) :=
  (opening scope.1, scope.2.flatMap table.handed)

private theorem bracketed_handed (table : SyntaxTable R) (node : Value R) :
    History.Bracketed (table.handed node) (table.handed node) [] (table.handed node) := by
  unfold handed
  split
  · next name _ =>
    cases table.rules.lookup name with
    | none => exact .nil
    | some rule => exact .node node rule
  · exact .nil

variable {table : SyntaxTable R} {tree : Value R}

private theorem enter_items (calm : (enter tree).failure = none) :
    (∃ count, ((tree.field? "params").getD (.list [])).length = .ok count ∧
      (opening tree).2.2 = .int count) ∧
    (enter tree).items = [.openScope (opening tree).1 (opening tree).2.1 (opening tree).2.2] := by
  unfold enter opening at *
  cases counted : ((tree.field? "params").getD (.list [])).length with
  | error fault =>
    rw [counted] at calm
    cases calm
  | ok count => exact ⟨⟨count, rfl, rfl⟩, rfl⟩

variable [Arithmetic R]

/-- What is visited without a failure is a row of items. -/
theorem visitItems_eq {value : Value R} (calm : (table.visitItems value).failure = none) :
    table.visitItems value = table.visitAll (value.items?.getD []) := by
  cases value with
  | list items => rw [visitItems]; rfl
  | tuple items => rw [visitItems]; rfl
  | text s =>
    by_cases empty : s.isEmpty = true
    · rw [visitItems, if_pos empty]; rfl
    · rw [visitItems, if_neg empty] at calm; cases calm
  | dict entries =>
    by_cases empty : entries.isEmpty = true
    · rw [visitItems, if_pos empty]; rfl
    · rw [visitItems, if_neg empty] at calm; cases calm
  | bytes bs =>
    by_cases empty : bs.isEmpty = true
    · rw [visitItems, if_pos empty]; rfl
    · rw [visitItems, if_neg empty] at calm; cases calm
  | _ => simp [visitItems, Trace.fail] at calm

private theorem visitBody_eq {entries : List (String × Value R)}
    (calm : (table.visitBody entries).failure = none) :
    table.visitBody entries =
      table.visitAll (((entries.lookup "body").bind Value.items?).getD []) := by
  induction entries with
  | nil => rfl
  | cons entry rest ih =>
    obtain ⟨name, value⟩ := entry
    rw [visitBody] at calm ⊢
    rw [List.lookup_cons]
    by_cases same : name = "body"
    · subst same
      rw [if_pos rfl] at calm ⊢
      exact visitItems_eq calm
    · have apart : ("body" == name) = false := by simpa using Ne.symm same
      rw [if_neg same] at calm ⊢
      rw [apart]
      exact ih calm

private theorem handOver_items (calm : (table.handOver (tree.field "type") tree).failure = none) :
    (table.handOver (tree.field "type") tree).items = table.handed tree := by
  unfold handed
  cases kind : tree.field "type" with
  | text name =>
    rw [kind] at calm
    simp only [handOver] at calm ⊢
    cases refused : table.refused.lookup name with
    | some fault =>
      rw [refused] at calm
      cases calm
    | none => cases table.rules.lookup name <;> rfl
  | _ =>
    simp only [handOver]
    split <;> rfl

/-- A node is handed over first; then its body follows, inside a scope if the node opens one. -/
theorem around_items {body : Trace R (Event R)} (calm : (table.around tree body).failure = none) :
    body.failure = none ∧ (table.isScope tree = true → (enter tree).failure = none) ∧
      (table.around tree body).items = table.handed tree ++
        if table.isScope tree then (enter tree).items ++ body.items ++ [.closeScope]
        else body.items := by
  unfold around at calm ⊢
  cases typed : tree.field? "type" with
  | none =>
    simp only [Value.require, typed] at calm
    cases tree <;> cases calm
  | some type =>
    have field : tree.field "type" = type := by rw [Value.field, typed, Option.getD_some]
    have required : tree.require "type" = .ok type := by simp only [Value.require, typed]
    simp only [required, ← field] at calm ⊢
    obtain ⟨handedCalm, restCalm, items⟩ := Trace.failure_append_eq_none calm
    rw [items, handOver_items handedCalm, isScope]
    by_cases opens : table.opensScope (tree.field "type") = true
    · rw [if_pos opens] at restCalm ⊢
      obtain ⟨insideCalm, -, closed⟩ := Trace.failure_append_eq_none restCalm
      obtain ⟨enterCalm, bodyCalm, entered⟩ := Trace.failure_append_eq_none insideCalm
      refine ⟨bodyCalm, fun _ => enterCalm, ?_⟩
      rw [closed, entered, if_pos opens]
      rfl
    · rw [if_neg opens] at restCalm ⊢
      exact ⟨restCalm, fun opened => absurd opened opens, by rw [if_neg opens]⟩

/-- A walk that does not fail goes from a node to its children. -/
theorem visit_eq (calm : (table.visit tree).failure = none) :
    table.visit tree = table.around tree (table.visitAll tree.children) := by
  cases tree with
  | dict entries =>
    rw [visit] at calm ⊢
    rw [visitBody_eq (around_items calm).1]
    rfl
  | record kind fields =>
    rw [visit] at calm ⊢
    rw [visitBody_eq (around_items calm).1]
    rfl
  | _ =>
    simp only [visit]
    rfl

/-- Events that hand over the nodes of trees, each in the scope of its nearest scope node, if it has
one, and open the scopes of all scope nodes. -/
structure Covers (table : SyntaxTable R) (trees : List (Value R)) (events : List (Event R)) :
    Prop where
  bracketed : History.Bracketed
    ((trees.flatMap fun tree => tree.nodesAt tree.addresses).flatMap table.handed)
    ((trees.flatMap table.outerNodes).flatMap table.handed)
    ((trees.flatMap table.scopeNodes).map table.scopeEvents) events
  entered : ∀ scope ∈ trees.flatMap table.scopeNodes, (enter scope.1).failure = none

private theorem covers_visitAll {trees : List (Value R)}
    (each : ∀ tree ∈ trees, (table.visit tree).failure = none →
      table.Covers [tree] (table.visit tree).items)
    (calm : (table.visitAll trees).failure = none) :
    table.Covers trees (table.visitAll trees).items := by
  induction trees with
  | nil =>
    refine ⟨.nil, ?_⟩
    intro scope member
    cases member
  | cons tree rest ih =>
    rw [visitAll] at calm ⊢
    obtain ⟨first, others, items⟩ := Trace.failure_append_eq_none calm
    have head := each tree List.mem_cons_self first
    have tail := ih (fun other member => each other (List.mem_cons_of_mem _ member)) others
    rw [items]
    refine ⟨?_, ?_⟩
    · simpa using head.bracketed.append tail.bracketed
    · intro scope member
      rw [List.flatMap_cons, List.mem_append] at member
      rcases member with inFirst | inRest
      · exact head.entered scope (by simpa using inFirst)
      · exact tail.entered scope inRest

/-- A walk hands over the nodes of its tree, whatever scopes are open before it. -/
theorem covers_visit (calm : (table.visit tree).failure = none) :
    table.Covers [tree] (table.visit tree).items := by
  induction tree using Value.children_induction with
  | step tree ih =>
    have same := visit_eq calm
    rw [same] at calm ⊢
    obtain ⟨bodyCalm, entered, items⟩ := around_items calm
    have body := covers_visitAll ih bodyCalm
    have node := table.bracketed_handed tree
    rw [items]
    by_cases opens : table.isScope tree = true
    · obtain ⟨-, openedWith⟩ := enter_items (entered opens)
      rw [if_pos opens, openedWith]
      refine ⟨?_, ?_⟩
      · have inside := body.bracketed.enclose (opening tree).1 (opening tree).2.1 (opening tree).2.2
        rw [List.flatMap_singleton, List.flatMap_singleton, List.flatMap_singleton,
          Value.nodesAt_addresses, outerNodes_eq, scopeNodes_eq, if_pos opens, if_pos opens]
        exact node.append inside
      · intro scope member
        rw [List.flatMap_singleton, scopeNodes_eq, if_pos opens, List.singleton_append,
          List.mem_cons] at member
        rcases member with rfl | below
        · exact entered opens
        · exact body.entered scope below
    · rw [if_neg opens]
      refine ⟨?_, ?_⟩
      · rw [List.flatMap_singleton, List.flatMap_singleton, List.flatMap_singleton,
          Value.nodesAt_addresses, outerNodes_eq, scopeNodes_eq, if_neg opens, if_neg opens]
        exact node.append body.bracketed
      · intro scope member
        rw [List.flatMap_singleton, scopeNodes_eq, if_neg opens, List.nil_append] at member
        exact body.entered scope member

/-- What a node contributes to counters, by the rule of its type if the table has one. -/
def counted (table : SyntaxTable R) (call : Interpretation R) (node : Value R) :
    List (Contribution R) :=
  (table.handed node).flatMap (Event.counted call)

private theorem flatMap_counted (call : Interpretation R) (nodes : List (Value R)) :
    (nodes.flatMap table.handed).flatMap (Event.counted call) =
      nodes.flatMap (table.counted call) :=
  List.flatMap_assoc

/-- A tree that is walked without a failure leaves no scope open. The addresses of its nodes ascend,
that is, they are in pre-order, and the functions are its scope nodes in this order, with their
names, lines and numbers of parameters. The counters of a function are what the nodes add up to
whose nearest scope node is that of the function, and the counters of the module as a whole are what
all nodes add up to. -/
theorem functions_of_tree {call : Interpretation R} {location : Value R} {initial b : Builder R}
    (started : Builder.start location = .ok initial)
    (done : Walk.run { call, trace := table.visit tree } initial = { state := b }) :
    b.scopes = [] ∧
      tree.addresses.Pairwise (· < ·) ∧
      (∀ address, address ∈ tree.addresses ↔ (tree.nodeAt address).isSome) ∧
      b.report.functions.length = (table.scopeAddresses tree).length ∧
      (∀ (k : Nat) (f : FunctionReport R) (scope : List Nat),
        b.report.functions[k]? = some f → (table.scopeAddresses tree)[k]? = some scope →
        ∃ node, tree.nodeAt scope = some node ∧
          f.name = node.field "name" ∧ f.HasExtent (node.field "loc") ∧
          (∃ count, ((node.field? "params").getD (.list [])).length = .ok count ∧
            f.params = .int count) ∧
          Counters.initial.takeAll
            ((tree.nodesAt (table.ownedBy tree (some scope))).flatMap (table.counted call)) =
              .ok f.counters) ∧
      Counters.initial.takeAll ((tree.nodesAt tree.addresses).flatMap (table.counted call)) =
        .ok b.report.aggregate.counters := by
  obtain ⟨calm, ran⟩ := Progress.run_eq_ok.mp done
  have reads := Builder.Reads.run started started ran
  obtain ⟨bracketed, entered⟩ := covers_visit calm
  rw [List.flatMap_singleton] at entered
  rw [List.flatMap_singleton, List.flatMap_singleton, List.flatMap_singleton] at bracketed
  refine ⟨?_, tree.addresses_ascending, fun _ => Value.mem_addresses, ?_, ?_, ?_⟩
  · have top : b.scopes[0]? = none := by
      rw [reads.scopes 0, ← List.nil_append (table.visit tree).items, bracketed.restores]
      rfl
    exact List.length_eq_zero_iff.mp (Nat.le_zero.mp (List.getElem?_eq_none_iff.mp top))
  · rw [reads.length, bracketed.opened, List.length_map, List.length_map, scopeNodes,
      List.length_map]
  · intro k f scope found placed
    obtain ⟨node, here, entry⟩ := getElem?_scopeNodes placed
    have opened : (History.openings (table.visit tree).items)[k]? = some (opening node) := by
      rw [bracketed.opened, List.map_map, List.getElem?_map, entry]
      rfl
    have events : ((table.scopeNodes tree).map table.scopeEvents)[k]? =
        some (table.scopeEvents (node, tree.nodesAt (table.ownedBy tree (some scope)))) := by
      rw [List.getElem?_map, entry, Option.map_some]
    obtain ⟨name, lines, params, openedWith, named, counted, extent⟩ := reads.opened k f found
    rw [opened] at openedWith
    obtain ⟨rfl, rfl, rfl⟩ : opening node = (name, lines, params) := Option.some.inj openedWith
    obtain ⟨⟨count, measured, same⟩, -⟩ := enter_items (entered _ (List.mem_of_getElem? entry))
    have counters := Builder.function_counters started ran found
    rw [bracketed.handedTo_eq events] at counters
    refine ⟨node, here, named, extent, ⟨count, measured, counted.trans same⟩, ?_⟩
    rw [← flatMap_counted]
    exact counters
  · have counters := Builder.aggregate_counters started ran
    rw [← Event.flatMap_counted_filter, bracketed.nodes, flatMap_counted] at counters
    exact counters

/-- Statements with a line and a branch, and functions with an operand, which open a scope. -/
def statements : SyntaxTable Binary64 where
  rules :=
    [("Statement", .dict [("lloc", .int 1), ("cyclomatic", .int 1)]),
     ("Function", .dict [("operands", .list [.dict [("identifier", .text "f")]])])]
  scopeTypes := ["Function"]

/-- A statement, and a function with a statement before and one after a function inside it. -/
def nestedFunctions : Value Binary64 :=
  let statement : Value Binary64 := .dict [("type", .text "Statement")]
  let inner : Value Binary64 := .dict [("type", .text "Function"), ("name", .text "inner"),
    ("body", .list [statement])]
  let outer : Value Binary64 := .dict [("type", .text "Function"), ("name", .text "outer"),
    ("params", .list [.text "a"]), ("body", .list [statement, inner, statement])]
  .dict [("type", .text "Program"), ("body", .list [statement, outer])]

/-- The outer function has the lines and branches of the two statements around the inner one, its
own path, and the operand of the inner function. -/
theorem functions_of_tree_nestedFunctions :
    ∃ (initial b : Builder Binary64) (f : FunctionReport Binary64),
      Builder.start .null = .ok initial ∧
      Walk.run { call := fun _ _ _ => .ok .null, trace := statements.visit nestedFunctions } initial =
        { state := b } ∧
      b.scopes = [] ∧ b.report.functions.length = 2 ∧ b.report.functions[0]? = some f ∧
      f.name = .text "outer" ∧ f.logical = .int 2 ∧ f.cyclomatic = .int 3 ∧
      f.halstead.operands.total = .int 1 ∧
      Counters.initial.takeAll ((nestedFunctions.nodesAt [[1, 0], [1, 1], [1, 2]]).flatMap
        (statements.counted fun _ _ _ => .ok .null)) = .ok f.counters := by
  have scopes : statements.scopeAddresses nestedFunctions = [[1], [1, 1]] := by decide +kernel
  have owned : statements.ownedBy nestedFunctions (some [1]) = [[1, 0], [1, 1], [1, 2]] := by
    decide +kernel
  obtain ⟨initial, started⟩ : ∃ initial : Builder Binary64, Builder.start .null = .ok initial :=
    ⟨_, rfl⟩
  obtain ⟨b, done⟩ : ∃ b : Builder Binary64, Walk.run
      { call := fun _ _ _ => .ok .null, trace := statements.visit nestedFunctions } initial =
        { state := b } := by
    cases started
    exact ⟨_, rfl⟩
  obtain ⟨empty, -, -, length, functions, -⟩ := functions_of_tree started done
  rw [scopes] at length functions
  have first : 0 < b.report.functions.length := by
    rw [length]
    decide
  obtain ⟨node, here, named, -, -, counters⟩ :=
    functions 0 _ [1] (List.getElem?_eq_getElem first) rfl
  cases here
  rw [owned] at counters
  have figures : (Counters.initial.takeAll ((nestedFunctions.nodesAt [[1, 0], [1, 1], [1, 2]]).flatMap
      (statements.counted fun _ _ _ => .ok .null))).map
        (fun c => (c.logical, c.cyclomatic, c.operands.total)) = .ok (.int 2, .int 3, .int 1) := rfl
  rw [counters] at figures
  obtain ⟨logical, others⟩ := Prod.mk.inj (Except.ok.inj figures)
  obtain ⟨cyclomatic, operands⟩ := Prod.mk.inj others
  exact ⟨initial, b, _, started, done, empty, length, List.getElem?_eq_getElem first, named,
    logical, cyclomatic, operands, counters⟩

end SyntaxTable

end SourceMetrics
