import SourceMetrics.Proofs.SquareMatrix

/-! # Reading square matrices from values

A matrix reaches the library as a value, a row of rows. If there are as many rows as entries in each
row and every entry can be read on its own, then the grid that the value stands for is the square of
these entries (`Grid.square`), and reading the value is reading the entries one by one
(`Grid.ofEntries_square`). A matrix of numbers marks an edge wherever its entry is not zero
(`Matrix.edges_square`).
-/

namespace SourceMetrics

variable {n : Nat}

namespace Value

variable {R : Type}

/-- A value is the square matrix of some values if it is a row of rows of them. Each of the rows may
be a list or a tuple. -/
def IsSquareOf (value : Value R) (entry : Fin n → Fin n → Value R) : Prop :=
  ∃ row : Fin n → Value R, value.items? = some (List.ofFn row) ∧
    ∀ i, (row i).items? = some (List.ofFn (entry i))

/-- A list or tuple is as long as its items. -/
theorem length_of_items {value : Value R} {items : List (Value R)}
    (listed : value.items? = some items) : value.length = .ok items.length := by
  cases value <;> simp_all [items?, length]

/-- What reads as a number is no row. -/
theorem items?_of_entryReal [Arithmetic R] {value : Value R} {number : R}
    (numeric : value.entryReal = .ok number) : value.items? = none := by
  cases value <;> simp_all [items?, entryReal, toReal, number?]

end Value

namespace Grid

variable {R α β ε : Type}

/-- The grid of two dimensions with given entries. -/
def square (entry : Fin n → Fin n → α) : Grid α :=
  .row (List.ofFn fun i => .row (List.ofFn fun j => .item (entry i j)))

private theorem ofItems_eq_map (items : List (Value R)) : ofItems items = items.map ofValue := by
  induction items with
  | nil => rfl
  | cons first rest ih => rw [ofItems, List.map_cons, ih]

/-- A list or tuple is a row of what its items are. -/
theorem ofValue_of_items {value : Value R} {items : List (Value R)}
    (listed : value.items? = some items) : ofValue value = .row (items.map ofValue) := by
  rw [← ofItems_eq_map]
  cases value <;> simp_all [Value.items?, ofValue]

/-- A value that has no items is an entry. -/
theorem ofValue_of_single {value : Value R} (single : value.items? = none) :
    ofValue value = .item value := by
  cases value <;> simp_all [Value.items?, ofValue]

/-- The rows of a square are read as this square, if its entries have no items. -/
theorem ofValue_square {value : Value R} {entry : Fin n → Fin n → Value R}
    (isSquare : value.IsSquareOf entry) (single : ∀ i j, (entry i j).items? = none) :
    ofValue value = square entry := by
  obtain ⟨row, rows, items⟩ := isSquare
  have line (i : Fin n) : ofValue (row i) = .row (List.ofFn fun j => .item (entry i j)) := by
    rw [ofValue_of_items (items i), List.map_ofFn]
    exact congrArg (fun part => Grid.row (List.ofFn part))
      (funext fun j => ofValue_of_single (single i j))
  rw [ofValue_of_items rows, List.map_ofFn]
  exact congrArg (fun part => Grid.row (List.ofFn part)) (funext line)

private theorem shapes?_ofFn (item : Fin n → Grid α) (shape : List Nat)
    (same : ∀ i, (item i).shape? = some shape) :
    shapes? (List.ofFn item) = some (List.replicate n shape) := by
  induction n with
  | zero => simp [shapes?]
  | succ n ih =>
    rw [List.ofFn_succ, shapes?, same 0, ih (fun i => item i.succ) fun i => same i.succ]
    rfl

/-- A row of grids of one shape has that shape, with the length of the row in front. -/
theorem shape?_row_ofFn (item : Fin (n + 1) → Grid α) (shape : List Nat)
    (same : ∀ i, (item i).shape? = some shape) :
    (Grid.row (List.ofFn item)).shape? = some ((n + 1) :: shape) := by
  rw [shape?, shapes?_ofFn item shape same]
  simp [shapeOfRow?, List.replicate_succ]

theorem shape?_square (entry : Fin (n + 1) → Fin (n + 1) → α) :
    (square entry).shape? = some [n + 1, n + 1] :=
  shape?_row_ofFn _ _ fun _ => shape?_row_ofFn _ _ fun _ => rfl

private theorem readRow_ofFn (parse : α → Except ε β) (item : Fin n → Grid α)
    (result : Fin n → Grid β) (each : ∀ i, read parse (item i) = .ok (result i)) :
    readRow parse (List.ofFn item) = .ok (List.ofFn result) := by
  induction n with
  | zero => simp [readRow]
  | succ n ih =>
    rw [List.ofFn_succ, List.ofFn_succ, readRow, each 0,
      ih (fun i => item i.succ) (fun i => result i.succ) fun i => each i.succ]
    rfl

/-- A row is parsed item by item. -/
theorem read_row_ofFn (parse : α → Except ε β) (item : Fin n → Grid α) (result : Fin n → Grid β)
    (each : ∀ i, read parse (item i) = .ok (result i)) :
    read parse (.row (List.ofFn item)) = .ok (.row (List.ofFn result)) := by
  rw [read, readRow_ofFn parse item result each]
  rfl

private theorem read_square (parse : α → Except ε β) (entry : Fin n → Fin n → α)
    (result : Fin n → Fin n → β) (each : ∀ i j, parse (entry i j) = .ok (result i j)) :
    (square entry).read parse = .ok (square result) := by
  apply read_row_ofFn
  intro i
  apply read_row_ofFn
  intro j
  rw [read, each i j]
  rfl

/-- Reading a square matrix whose entries can be read. -/
theorem ofEntries_square {value : Value R} {entry : Fin (n + 1) → Fin (n + 1) → Value R}
    (isSquare : value.IsSquareOf entry) (single : ∀ i j, (entry i j).items? = none)
    {parse : Value R → Except Fault α} {result : Fin (n + 1) → Fin (n + 1) → α}
    (each : ∀ i j, parse (entry i j) = .ok (result i j)) :
    ofEntries parse value = .ok ([n + 1, n + 1], square result) := by
  simp only [ofEntries, ofValue_square isSquare single, shape?_square,
    read_square parse entry result each]
  rfl

theorem rowEntries_ofFn_item (item : Fin n → α) :
    rowEntries (List.ofFn fun i => Grid.item (item i)) = List.ofFn item := by
  induction n with
  | zero => simp [rowEntries]
  | succ n ih =>
    rw [List.ofFn_succ, List.ofFn_succ, rowEntries, ih fun i => item i.succ]
    rfl

/-- The rows of a square have its entries. -/
theorem map_entries_rows_square (entry : Fin n → Fin n → α) :
    (square entry).rows.map entries = Matrix.tabulate entry := by
  rw [square, rows, List.map_ofFn]
  exact congrArg List.ofFn (funext fun i => rowEntries_ofFn_item (entry i))

end Grid

namespace Matrix

variable {R : Type} [Arithmetic R]

/-- A square matrix of numbers marks an edge wherever its entry is not zero. -/
theorem edges_square {matrix : Value R} {entry : Fin n → Fin n → Value R}
    (isSquare : matrix.IsSquareOf entry) {number : Fin n → Fin n → R}
    (numeric : ∀ i j, (entry i j).entryReal = .ok (number i j)) :
    edges matrix = .ok (tabulate fun i j => !Arithmetic.isZero (number i j)) := by
  have length : matrix.length = .ok n := by
    obtain ⟨row, rows, -⟩ := isSquare
    rw [Value.length_of_items rows, List.length_ofFn]
  rw [edges, length]
  cases n with
  | zero => rfl
  | succ n =>
    have single (i j : Fin (n + 1)) := Value.items?_of_entryReal (numeric i j)
    have mark (i j : Fin (n + 1)) :
        isEdge (entry i j) = .ok (!Arithmetic.isZero (number i j)) := by
      rw [isEdge, numeric i j]
      rfl
    rw [Grid.ofEntries_square isSquare single mark, ← Grid.map_entries_rows_square]
    exact if_pos rfl

end Matrix

end SourceMetrics
