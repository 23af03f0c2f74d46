import SourceMetrics.Traversal.Walk

/-!
# Walking a tree by a table

The plainest walker goes through a tree depth first. A node has a `type`; the table gives the rule
of that type, if there is one, and the node is handed over with it. If the type opens a scope, the
scope is opened after the node has been handed over, with the `name`, the `loc` and the number of
`params` of the node, and closed after the items of its `body` have been visited.
-/

namespace SourceMetrics

/-- The rules of node types, the types that open a scope, and the types that the walker refuses. -/
structure SyntaxTable (R : Type) where
  rules : Entries (Value R)
  scopeTypes : List String
  refused : Entries Fault := []

namespace SyntaxTable

variable {R : Type} [Arithmetic R] (table : SyntaxTable R)

/-- Hand over a node of a type for which the table has a rule. A type that cannot be looked up is
refused. -/
def handOver (type node : Value R) : Trace R (Event R) :=
  match type with
  | .text name =>
    match table.refused.lookup name with
    | some fault => Trace.fail (.fault fault)
    | none =>
      match table.rules.lookup name with
      | some rule => Trace.item (.node node rule)
      | none => {}
  | _ =>
    match type.tokenKey with
    | .ok _ => {}
    | .error fault => Trace.fail (.fault fault)

/-- Whether nodes of a type open a scope. -/
def opensScope : Value R → Bool
  | .text name => table.scopeTypes.contains name
  | _ => false

/-- Open the scope of a node. -/
def enter (node : Value R) : Trace R (Event R) :=
  match ((node.field? "params").getD (.list [])).length with
  | .ok count => Trace.item (.openScope (node.field "name") (node.field "loc") (.int count))
  | .error fault => Trace.fail (.fault fault)

/-- The trace of a node around the trace of its body. -/
def around (node : Value R) (body : Trace R (Event R)) : Trace R (Event R) :=
  match node.require "type" with
  | .error fault => Trace.fail (.fault fault)
  | .ok type =>
    table.handOver type node
      ++ (if table.opensScope type then enter node ++ body ++ Trace.item .closeScope else body)

mutual

/-- The trace of a node. -/
def visit : Value R → Trace R (Event R)
  | .dict entries => table.around (.dict entries) (visitBody entries)
  | .record kind fields => table.around (.record kind fields) (visitBody fields)
  | node => table.around node {}

/-- The trace of the items of the field `body`, if it is there. -/
def visitBody : List (String × Value R) → Trace R (Event R)
  | [] => {}
  | (name, value) :: rest => if name = "body" then visitItems value else visitBody rest

/-- The trace of the items of a value. -/
def visitItems : Value R → Trace R (Event R)
  | .list items => visitAll items
  | .tuple items => visitAll items
  | .text s => if s.isEmpty then {} else Trace.fail (.fault (.missingAttribute "str" "type"))
  | .dict entries =>
    if entries.isEmpty then {} else Trace.fail (.fault (.missingAttribute "str" "type"))
  | .bytes bs => if bs.isEmpty then {} else Trace.fail (.fault (.missingAttribute "int" "type"))
  | value => Trace.fail (.fault (.notIterable value.typeName))

/-- The traces of nodes one after another. -/
def visitAll : List (Value R) → Trace R (Event R)
  | [] => {}
  | node :: rest => visit node ++ visitAll rest

end

end SyntaxTable

end SourceMetrics
