import Mathlib.Data.List.Infix
import Mathlib.Data.List.Lex
import Mathlib.Data.List.Sort
import SourceMetrics.Proofs.EntryOrder
import SourceMetrics.Traversal.Table

/-! # Nodes and scopes by their addresses

A node of a tree has an address, the way down to it from the root. Addresses in ascending order are
the tree in pre-order: an address comes after those that it extends, and places are taken from left
to right (`Value.addresses_ascending`, `Value.mem_addresses`).

A scope node has for its own the nodes whose nearest scope node on the way up it is. None of this
speaks of a walk or a stack; what a walk needs is how the nodes of a scope, and those of no scope,
are put together from the children of a node (`SyntaxTable.outerNodes_eq`,
`SyntaxTable.scopeNodes_eq`).
-/

namespace SourceMetrics

variable {R : Type}

namespace Value

/-- The nodes directly below a node: the items of its `body`. -/
def children (node : Value R) : List (Value R) :=
  ((node.field? "body").bind items?).getD []

private theorem sizeOf_lt_of_mem_items {value item : Value R} {items : List (Value R)}
    (listed : value.items? = some items) (member : item ∈ items) : sizeOf item < sizeOf value := by
  have below := List.sizeOf_lt_of_mem member
  cases value with
  | list held =>
    cases listed
    simp only [Value.list.sizeOf_spec]
    omega
  | tuple held =>
    cases listed
    simp only [Value.tuple.sizeOf_spec]
    omega
  | _ => cases listed

private theorem sizeOf_lt_of_field {value found : Value R} {name : String}
    (held : value.field? name = some found) : sizeOf found < sizeOf value := by
  cases value with
  | dict entries =>
    have below := Entries.sizeOf_lt_of_lookup held
    simp only [Value.dict.sizeOf_spec]
    omega
  | record kind fields =>
    have below := Entries.sizeOf_lt_of_lookup held
    simp only [Value.record.sizeOf_spec]
    omega
  | _ => cases held

private theorem sizeOf_lt_of_mem_children {node child : Value R} (member : child ∈ node.children) :
    sizeOf child < sizeOf node := by
  unfold children at member
  cases held : node.field? "body" with
  | none => simp [held] at member
  | some body =>
    cases listed : body.items? with
    | none => simp [held, listed] at member
    | some items =>
      have inside : child ∈ items := by simpa [held, listed] using member
      exact (sizeOf_lt_of_mem_items listed inside).trans (sizeOf_lt_of_field held)

/-- What passes from the children of each node to the node holds of every node. -/
theorem children_induction {motive : Value R → Prop}
    (step : ∀ node, (∀ child ∈ node.children, motive child) → motive node) (node : Value R) :
    motive node :=
  step node fun child member =>
    have := sizeOf_lt_of_mem_children member
    children_induction step child
termination_by sizeOf node

/-- The node at an address. -/
def nodeAt : Value R → List Nat → Option (Value R)
  | node, [] => some node
  | node, place :: rest => node.children[place]?.bind fun child => child.nodeAt rest

/-- The addresses of all nodes. -/
def addresses (tree : Value R) : List (List Nat) :=
  [] :: tree.children.zipIdx.attach.flatMap fun entry =>
    have := sizeOf_lt_of_mem_children (List.fst_mem_of_mem_zipIdx entry.2)
    (addresses entry.1.1).map (entry.1.2 :: ·)
termination_by sizeOf tree

/-- The addresses in the tree of a node: below each child they start with its place. -/
theorem addresses_eq (tree : Value R) :
    tree.addresses = [] :: tree.children.zipIdx.flatMap fun entry =>
      entry.1.addresses.map (entry.2 :: ·) := by
  rw [addresses]
  congr 1
  conv_rhs => rw [← List.attach_map_subtype_val tree.children.zipIdx, List.flatMap_map]

private theorem nodeAt_cons {tree child : Value R} {place : Nat}
    (found : tree.children[place]? = some child) (rest : List Nat) :
    tree.nodeAt (place :: rest) = child.nodeAt rest := by
  rw [nodeAt, found, Option.bind_some]

/-- Every node is listed, and nothing else is. -/
theorem mem_addresses {tree : Value R} {address : List Nat} :
    address ∈ tree.addresses ↔ (tree.nodeAt address).isSome := by
  induction address generalizing tree with
  | nil =>
    rw [addresses_eq]
    simp [nodeAt]
  | cons place rest ih =>
    rw [addresses_eq]
    cases found : tree.children[place]? with
    | none =>
      have absent : ∀ child, (child, place) ∉ tree.children.zipIdx := by
        intro child member
        rw [List.mem_zipIdx_iff_getElem?, found] at member
        cases member
      simp [nodeAt, found, absent]
    | some child =>
      rw [nodeAt_cons found, ← ih]
      constructor
      · intro member
        simp only [List.mem_cons, reduceCtorEq, List.mem_flatMap, List.mem_map, List.cons.injEq,
          false_or] at member
        obtain ⟨⟨other, at_⟩, listed, tail, inside, rfl, rfl⟩ := member
        rw [List.mem_zipIdx_iff_getElem?, found] at listed
        obtain rfl := Option.some.inj listed
        exact inside
      · intro member
        apply List.mem_cons_of_mem
        apply List.mem_flatMap.mpr
        exact ⟨(child, place), List.mem_zipIdx_iff_getElem?.mpr found,
          List.mem_map_of_mem member⟩

/-- Addresses are listed in ascending order, each once. -/
theorem addresses_ascending (tree : Value R) : tree.addresses.Pairwise (· < ·) := by
  induction tree using children_induction with
  | step tree ih =>
    have places : tree.children.zipIdx.Pairwise fun first second => first.2 < second.2 := by
      apply List.pairwise_map.mp
      rw [List.zipIdx_map_snd]
      exact List.pairwise_lt_range'
    rw [addresses_eq, List.pairwise_cons, List.pairwise_flatMap]
    refine ⟨?_, ?_, places.imp ?_⟩
    · intro address member
      obtain ⟨entry, -, inside⟩ := List.mem_flatMap.mp member
      obtain ⟨rest, -, rfl⟩ := List.mem_map.mp inside
      exact List.nil_lt_cons _ _
    · intro entry member
      rw [List.pairwise_map]
      apply (ih entry.1 (List.fst_mem_of_mem_zipIdx member)).imp
      intro first second before
      exact List.cons_lt_cons_iff.mpr (.inr ⟨rfl, before⟩)
    · intro first second before address inFirst other inSecond
      obtain ⟨rest, -, rfl⟩ := List.mem_map.mp inFirst
      obtain ⟨tail, -, rfl⟩ := List.mem_map.mp inSecond
      exact List.cons_lt_cons_iff.mpr (.inl before)

/-- The nodes at some addresses. -/
def nodesAt (tree : Value R) (places : List (List Nat)) : List (Value R) :=
  places.filterMap tree.nodeAt

private theorem nodesAt_map_cons {tree child : Value R} {place : Nat}
    (found : tree.children[place]? = some child) (places : List (List Nat)) :
    tree.nodesAt (places.map (place :: ·)) = child.nodesAt places := by
  have same : tree.nodeAt ∘ (place :: ·) = child.nodeAt := funext (nodeAt_cons found)
  rw [nodesAt, List.filterMap_map, same, nodesAt]

/-- Nodes below the children of a node, those of one child after those of another. -/
theorem nodesAt_below (tree : Value R) (select : Value R → List (List Nat)) :
    tree.nodesAt (tree.children.zipIdx.flatMap fun entry =>
        (select entry.1).map (entry.2 :: ·)) =
      tree.children.flatMap fun child => child.nodesAt (select child) := by
  have each : ∀ entry ∈ tree.children.zipIdx,
      tree.nodesAt ((select entry.1).map (entry.2 :: ·)) = entry.1.nodesAt (select entry.1) := by
    intro entry member
    exact nodesAt_map_cons (List.mem_zipIdx_iff_getElem?.mp member) _
  rw [nodesAt, List.filterMap_flatMap]
  conv_rhs => rw [← List.zipIdx_map_fst 0 tree.children, List.flatMap_map]
  exact List.flatMap_congr each

/-- The nodes at all addresses of a tree are its root and those of its children. -/
theorem nodesAt_addresses (tree : Value R) :
    tree.nodesAt tree.addresses =
      tree :: tree.children.flatMap fun child => child.nodesAt child.addresses := by
  rw [← nodesAt_below tree addresses, addresses_eq]
  rfl

end Value

namespace SyntaxTable

variable (table : SyntaxTable R)

/-- Whether a node opens a scope. -/
def isScope (node : Value R) : Bool :=
  table.opensScope (node.field "type")

/-- Whether the node at an address opens a scope. -/
def isScopeAt (tree : Value R) (address : List Nat) : Bool :=
  (tree.nodeAt address).any table.isScope

/-- The addresses of the nodes that open a scope, in pre-order. -/
def scopeAddresses (tree : Value R) : List (List Nat) :=
  tree.addresses.filter (table.isScopeAt tree)

/-- The nearest scope node strictly above an address, if there is one. -/
def nearestScope (tree : Value R) (address : List Nat) : Option (List Nat) :=
  address.inits.dropLast.reverse.find? (table.isScopeAt tree)

/-- The nodes whose nearest scope node is a given one, or that are in no scope, in pre-order. -/
def ownedBy (tree : Value R) (scope : Option (List Nat)) : List (List Nat) :=
  tree.addresses.filter fun address => table.nearestScope tree address = scope

variable {table} {tree child : Value R} {place : Nat}

private theorem isScopeAt_cons (found : tree.children[place]? = some child) (rest : List Nat) :
    table.isScopeAt tree (place :: rest) = table.isScopeAt child rest := by
  rw [isScopeAt, Value.nodeAt_cons found, isScopeAt]

/-- The nearest scope node of a node below a child is below that child too, or else it is the
root. -/
theorem nearestScope_cons (found : tree.children[place]? = some child) (rest : List Nat) :
    table.nearestScope tree (place :: rest) =
      ((table.nearestScope child rest).map (place :: ·)).or
        (if table.isScope tree then some [] else none) := by
  have above : (place :: rest).inits.dropLast.reverse =
      (rest.inits.dropLast.reverse.map (place :: ·)) ++ [[]] := by
    have some_above : rest.inits.map (place :: ·) ≠ [] := by
      cases rest <;> simp
    rw [List.inits_cons, List.dropLast_cons_of_ne_nil some_above, List.reverse_cons,
      ← List.map_dropLast, List.map_reverse]
  have same : (table.isScopeAt tree ∘ fun tail => place :: tail) = table.isScopeAt child :=
    funext (isScopeAt_cons found)
  rw [nearestScope, above, List.find?_append, List.find?_map, same, nearestScope]
  congr 1
  by_cases opens : table.isScope tree = true
  · simp [isScopeAt, Value.nodeAt, opens]
  · simp [isScopeAt, Value.nodeAt, opens]

/-- Addresses below the children of a node, chosen by a test that looks at each child alone. -/
theorem filter_below {test : List Nat → Bool} (keeps : Value R → List Nat → Bool)
    (agree : ∀ {place child}, tree.children[place]? = some child →
      ∀ rest, test (place :: rest) = keeps child rest) :
    (tree.children.zipIdx.flatMap fun entry =>
        entry.1.addresses.map (entry.2 :: ·)).filter test =
      tree.children.zipIdx.flatMap fun entry =>
        (entry.1.addresses.filter (keeps entry.1)).map (entry.2 :: ·) := by
  rw [List.filter_flatMap]
  apply List.flatMap_congr
  intro entry member
  have found := List.mem_zipIdx_iff_getElem?.mp member
  have same : test ∘ (entry.2 :: ·) = keeps entry.1 := funext (agree found)
  rw [List.filter_map, same]

private theorem scopeAddresses_eq (tree : Value R) :
    table.scopeAddresses tree = (if table.isScope tree then [[]] else []) ++
      tree.children.zipIdx.flatMap fun entry =>
        (table.scopeAddresses entry.1).map (entry.2 :: ·) := by
  have root : table.isScopeAt tree [] = table.isScope tree := rfl
  rw [scopeAddresses, Value.addresses_eq, List.filter_cons, root, filter_below _ isScopeAt_cons]
  by_cases opens : table.isScope tree = true
  · rw [if_pos opens, if_pos opens]
    rfl
  · rw [if_neg opens, if_neg opens]
    rfl

private theorem nearestScope_nil (tree : Value R) : table.nearestScope tree [] = none := rfl

/-- The root is in no scope. Below a root that opens one nothing else is, and below another root it
is what is in no scope below a child. -/
theorem ownedBy_none (tree : Value R) :
    table.ownedBy tree none = [] :: if table.isScope tree then [] else
      tree.children.zipIdx.flatMap fun entry =>
        (table.ownedBy entry.1 none).map (entry.2 :: ·) := by
  rw [ownedBy, Value.addresses_eq, List.filter_cons, nearestScope_nil, decide_eq_true rfl,
    if_pos rfl]
  congr 1
  by_cases opens : table.isScope tree = true
  · rw [if_pos opens, List.filter_eq_nil_iff]
    intro address member
    obtain ⟨entry, listed, inside⟩ := List.mem_flatMap.mp member
    obtain ⟨rest, -, rfl⟩ := List.mem_map.mp inside
    rw [nearestScope_cons (List.mem_zipIdx_iff_getElem?.mp listed), if_pos opens]
    simp
  · rw [if_neg opens]
    apply filter_below fun child rest => table.nearestScope child rest = none
    intro place child found rest
    rw [nearestScope_cons found, if_neg opens]
    simp

/-- A root that opens a scope owns what is in no scope below its children. -/
theorem ownedBy_root (opens : table.isScope tree = true) :
    table.ownedBy tree (some []) = tree.children.zipIdx.flatMap fun entry =>
      (table.ownedBy entry.1 none).map (entry.2 :: ·) := by
  rw [ownedBy, Value.addresses_eq, List.filter_cons, nearestScope_nil,
    decide_eq_false (by simp), if_neg (by simp)]
  apply filter_below fun child rest => table.nearestScope child rest = none
  intro place child found rest
  rw [nearestScope_cons found, if_pos opens]
  cases table.nearestScope child rest with
  | none => simp
  | some scope => simp

/-- A scope below a child owns what it owns in the tree of that child. -/
theorem ownedBy_cons (found : tree.children[place]? = some child) (scope : List Nat) :
    table.ownedBy tree (some (place :: scope)) =
      (table.ownedBy child (some scope)).map (place :: ·) := by
  have shifted : ((table.ownedBy child (some scope)).map (place :: ·)).Pairwise (· < ·) := by
    rw [List.pairwise_map]
    apply (child.addresses_ascending.filter _).imp
    intro first second before
    exact List.cons_lt_cons_iff.mpr (.inr ⟨rfl, before⟩)
  -- Both lists ascend, so it is enough that they have the same members.
  apply (tree.addresses_ascending.filter _).eq_of_mem_iff shifted
  intro address
  rw [List.mem_filter, Value.mem_addresses, decide_eq_true_eq]
  cases address with
  | nil => simp [nearestScope_nil]
  | cons other rest =>
    cases there : tree.children[other]? with
    | none =>
      have different : place ≠ other := by
        rintro rfl
        rw [found] at there
        cases there
      simp [Value.nodeAt, there, different]
    | some sibling =>
      rw [nearestScope_cons there, Value.nodeAt_cons there, ← Value.mem_addresses]
      constructor
      · rintro ⟨listed, nearest⟩
        cases inner : table.nearestScope sibling rest with
        | none =>
          rw [inner] at nearest
          by_cases opens : table.isScope tree = true
          · simp [opens] at nearest
          · simp [opens] at nearest
        | some scope' =>
          rw [inner] at nearest
          simp only [Option.map_some, Option.some_or, Option.some.injEq, List.cons.injEq] at nearest
          obtain ⟨rfl, rfl⟩ := nearest
          obtain rfl := Option.some.inj (found.symm.trans there)
          apply List.mem_map_of_mem
          exact List.mem_filter.mpr ⟨listed, decide_eq_true inner⟩
      · intro member
        obtain ⟨tail, owned, same⟩ := List.mem_map.mp member
        obtain ⟨rfl, rfl⟩ := List.cons.inj same
        obtain rfl := Option.some.inj (found.symm.trans there)
        obtain ⟨listed, nearest⟩ := List.mem_filter.mp owned
        rw [of_decide_eq_true nearest]
        exact ⟨listed, rfl⟩

/-- The nodes in no scope. -/
def outerNodes (table : SyntaxTable R) (tree : Value R) : List (Value R) :=
  tree.nodesAt (table.ownedBy tree none)

/-- The scope nodes in pre-order, each with the nodes that it owns. -/
def scopeNodes (table : SyntaxTable R) (tree : Value R) : List (Value R × List (Value R)) :=
  (table.scopeAddresses tree).map fun scope =>
    ((tree.nodeAt scope).getD .null, tree.nodesAt (table.ownedBy tree (some scope)))

/-- The nodes of a tree in no scope are its root and, unless the root opens one, those of its
children. -/
theorem outerNodes_eq (tree : Value R) :
    table.outerNodes tree =
      tree :: if table.isScope tree then [] else tree.children.flatMap table.outerNodes := by
  have below := tree.nodesAt_below fun child => table.ownedBy child none
  rw [outerNodes, ownedBy_none]
  by_cases opens : table.isScope tree = true
  · rw [if_pos opens, if_pos opens]
    rfl
  · rw [if_neg opens, if_neg opens]
    exact congrArg (tree :: ·) below

/-- The scopes of a tree are its root, if that is one, and those of its children. -/
theorem scopeNodes_eq (tree : Value R) :
    table.scopeNodes tree =
      (if table.isScope tree then [(tree, tree.children.flatMap table.outerNodes)] else []) ++
        tree.children.flatMap table.scopeNodes := by
  have root : table.isScope tree = true →
      tree.nodesAt (table.ownedBy tree (some [])) = tree.children.flatMap table.outerNodes := by
    intro opens
    rw [ownedBy_root opens]
    exact tree.nodesAt_below fun child => table.ownedBy child none
  have below : ∀ entry ∈ tree.children.zipIdx,
      (((table.scopeAddresses entry.1).map (entry.2 :: ·)).map fun scope =>
        ((tree.nodeAt scope).getD .null, tree.nodesAt (table.ownedBy tree (some scope)))) =
      table.scopeNodes entry.1 := by
    intro entry member
    have found := List.mem_zipIdx_iff_getElem?.mp member
    rw [List.map_map, scopeNodes]
    apply List.map_congr_left
    intro scope inside
    simp only [Function.comp_apply, Value.nodeAt_cons found, ownedBy_cons found,
      Value.nodesAt_map_cons found]
  rw [scopeNodes, scopeAddresses_eq, List.map_append, List.map_flatMap, List.flatMap_congr below,
    ← List.flatMap_map Prod.fst, List.zipIdx_map_fst]
  congr 1
  by_cases opens : table.isScope tree = true
  · rw [if_pos opens, if_pos opens, List.map_singleton, root opens]
    rfl
  · rw [if_neg opens, if_neg opens]
    rfl

/-- A scope in pre-order is the node at its address, with the nodes that this address owns. -/
theorem getElem?_scopeNodes {k : Nat} {scope : List Nat}
    (placed : (table.scopeAddresses tree)[k]? = some scope) :
    ∃ node, tree.nodeAt scope = some node ∧ (table.scopeNodes tree)[k]? =
      some (node, tree.nodesAt (table.ownedBy tree (some scope))) := by
  have listed : scope ∈ tree.addresses := (List.mem_filter.mp (List.mem_of_getElem? placed)).1
  obtain ⟨node, here⟩ := Option.isSome_iff_exists.mp (Value.mem_addresses.mp listed)
  refine ⟨node, here, ?_⟩
  rw [scopeNodes, List.getElem?_map, placed, Option.map_some, here, Option.getD_some]

end SyntaxTable

end SourceMetrics
