import SourceMetrics.Value.Basic

/-!
# Grids

A grid is a single item, or a row of grids. It has a shape if all grids of a row have the same one:
a single item has no dimension, a row has one more than its items, and an empty row has one.
-/

namespace SourceMetrics

/-- Items in nested rows. -/
inductive Grid (α : Type) where
  | item (a : α)
  | row (items : List (Grid α))

namespace Grid

variable {α β : Type}

/-- The shape of a row of grids that have the given shapes, if these are the same. -/
def shapeOfRow? : List (List Nat) → Option (List Nat)
  | [] => some [0]
  | first :: rest => if rest.all (· == first) then some ((rest.length + 1) :: first) else none

mutual

/-- The numbers of items in each dimension, outermost first. -/
def shape? : Grid α → Option (List Nat)
  | .item _ => some []
  | .row items => (shapes? items).bind shapeOfRow?

/-- The shapes of grids, if each has one. -/
def shapes? : List (Grid α) → Option (List (List Nat))
  | [] => some []
  | first :: rest =>
    match shape? first, shapes? rest with
    | some shape, some shapes => some (shape :: shapes)
    | _, _ => none

end

mutual

/-- The items of a grid in order. -/
def entries : Grid α → List α
  | .item a => [a]
  | .row items => rowEntries items

/-- The items of grids in order. -/
def rowEntries : List (Grid α) → List α
  | [] => []
  | first :: rest => entries first ++ rowEntries rest

end

/-- The grids of a row; a single item has none. -/
def rows : Grid α → List (Grid α)
  | .item _ => []
  | .row items => items

mutual

/-- Read every item, in order. The first one that is refused ends the reading. -/
def read {ε : Type} (entry : α → Except ε β) : Grid α → Except ε (Grid β)
  | .item a => (entry a).map .item
  | .row items => (readRow entry items).map .row

/-- Read the items of grids. -/
def readRow {ε : Type} (entry : α → Except ε β) : List (Grid α) → Except ε (List (Grid β))
  | [] => .ok []
  | first :: rest => do
    let done ← read entry first
    let others ← readRow entry rest
    return done :: others

end

mutual

/-- Combine two grids of one shape item by item. -/
def combine (f : α → α → α) : Grid α → Grid α → Grid α
  | .item a, .item b => .item (f a b)
  | .row items, .row others => .row (combineRows f items others)
  | grid, _ => grid

/-- Combine two rows of grids. -/
def combineRows (f : α → α → α) : List (Grid α) → List (Grid α) → List (Grid α)
  | first :: rest, second :: others => combine f first second :: combineRows f rest others
  | _, _ => []

end

mutual

/-- A value as a grid: lists and tuples are rows, and anything else is a single item. -/
def ofValue {R : Type} : Value R → Grid (Value R)
  | .list items => .row (ofItems items)
  | .tuple items => .row (ofItems items)
  | value => .item value

/-- Values as grids. -/
def ofItems {R : Type} : List (Value R) → List (Grid (Value R))
  | [] => []
  | first :: rest => ofValue first :: ofItems rest

end

mutual

/-- A grid of numbers as a value. -/
def toValue {R : Type} : Grid R → Value R
  | .item x => .real x
  | .row items => .list (toItems items)

/-- Grids of numbers as values. -/
def toItems {R : Type} : List (Grid R) → List (Value R)
  | [] => []
  | first :: rest => toValue first :: toItems rest

end

end Grid

end SourceMetrics
