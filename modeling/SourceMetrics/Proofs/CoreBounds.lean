import SourceMetrics.Graph.Stack
import SourceMetrics.Proofs.AddedDependencies
import SourceMetrics.Proofs.MedianRank

/-! # How many nodes the core has

At least half of the nodes, rounded up, have a fan-in that reaches its median, and as many have such
a fan-out (`Graph.half_le_card_reaching`). Two halves that together exceed the number of nodes have
nodes in common, so the core of an odd number of nodes is never empty (`Graph.le_card_coreNodes`).
The numbers of a matrix and their sums are words: a number beyond a word is refused
(`Graph.coreSizeOf_refused`), while a sum beyond a word wraps around and may change the core.
-/

namespace SourceMetrics

namespace Value

/-- A whole number that fits into a word. -/
def IsWord (i : Int) : Prop :=
  -2 ^ 63 ≤ i ∧ i < 2 ^ 63

instance : DecidablePred IsWord := fun i =>
  inferInstanceAs (Decidable (-2 ^ 63 ≤ i ∧ i < 2 ^ 63))

private theorem entryWhole_int {R : Type} [Arithmetic R] (i : Int) :
    (Value.int i : Value R).entryWhole = if IsWord i then .ok i else .error .wordRange := by
  change word i = _
  apply if_congr _ rfl rfl
  rw [Bool.and_eq_true, decide_eq_true_eq, decide_eq_true_eq]
  simp only [wordRange, IsWord]
  omega

end Value

namespace Grid

variable {n : Nat} {α β ε : Type} {parse : α → Except ε β}

private theorem readRow_eq_mapM (items : List (Grid α)) :
    readRow parse items = items.mapM (read parse) := by
  induction items with
  | nil => rfl
  | cons first rest ih => rw [readRow, List.mapM_cons, ih]

private theorem read_row_eq_error {items : List (Grid α)} {failure : ε} :
    read parse (.row items) = .error failure ↔ items.mapM (read parse) = .error failure := by
  rw [read, readRow_eq_mapM, map_eq_error]

private theorem read_item_eq_error {a : α} {failure : ε} :
    read parse (.item a) = .error failure ↔ parse a = .error failure := by
  rw [read, map_eq_error]

/-- A row of grids is refused if one of them is. -/
theorem exists_read_row_error (item : Fin n → Grid α) {i : Fin n} {failure : ε}
    (refused : read parse (item i) = .error failure) :
    ∃ cause, read parse (.row (List.ofFn item)) = .error cause := by
  obtain ⟨-, -, cause, -, -, -, -, broke⟩ :=
    mapM_eq_error_of_mem (List.mem_ofFn.mpr ⟨i, rfl⟩) refused
  exact ⟨cause, read_row_eq_error.mpr broke⟩

/-- A row of grids is refused for one of them. -/
theorem exists_of_read_row_error {item : Fin n → Grid α} {cause : ε}
    (refused : read parse (.row (List.ofFn item)) = .error cause) :
    ∃ i, read parse (item i) = .error cause := by
  obtain ⟨_, member, broke⟩ := exists_mem_of_mapM_eq_error (read_row_eq_error.mp refused)
  obtain ⟨i, rfl⟩ := List.mem_ofFn.mp member
  exact ⟨i, broke⟩

/-- A square matrix of which an entry is refused is refused, for the only reason that there is. -/
theorem read_square_eq_error {entry : Fin n → Fin n → α} {failure : ε}
    (only : ∀ i j cause, parse (entry i j) = .error cause → cause = failure) {i j : Fin n}
    (refused : parse (entry i j) = .error failure) :
    (square entry).read parse = .error failure := by
  obtain ⟨_, row⟩ := exists_read_row_error (fun j => .item (entry i j))
    (read_item_eq_error.mpr refused)
  obtain ⟨cause, whole⟩ :=
    exists_read_row_error (fun i => .row (List.ofFn fun j => .item (entry i j))) row
  obtain ⟨k, inRow⟩ := exists_of_read_row_error whole
  obtain ⟨l, inEntry⟩ := exists_of_read_row_error inRow
  rw [← only k l cause (read_item_eq_error.mp inEntry)]
  exact whole

end Grid

namespace Graph

open SourceMetrics.Matrix SourceMetrics.Statistics

variable {n : Nat}

/-- Fan-in is the sum of a row, as a word. -/
theorem fanInAt_eq (entry : Fin n → Fin n → Int) (i : Fin n) :
    fanInAt entry i = (∑ j, entry i j).bmod (2 ^ 64) := by
  rw [fanInAt, wordSum, ← List.sum_ofFn]
  rfl

/-- Fan-out is the sum of a column, as a word. -/
theorem fanOutAt_eq (entry : Fin n → Fin n → Int) (j : Fin n) :
    fanOutAt entry j = (∑ i, entry i j).bmod (2 ^ 64) :=
  fanInAt_eq (fun j i => entry i j) j

private theorem bmod_of_isWord {i : Int} (isWord : Value.IsWord i) : i.bmod (2 ^ 64) = i := by
  rw [Value.IsWord] at isWord
  apply Int.bmod_eq_of_le <;> omega

/-- Two sets of nodes have at least as many in common as they are larger than all nodes together. -/
theorem card_add_card_le (nodes others : Finset (Fin n)) :
    nodes.card + others.card ≤ n + (nodes ∩ others).card := by
  have both := Finset.card_union_add_card_inter nodes others
  have atMost := (Finset.card_le_univ (nodes ∪ others)).trans_eq (Fintype.card_fin n)
  omega

section Reading

variable {R : Type} [Arithmetic R] {matrix density : Value R} {entry : Fin n → Fin n → Int}

/-- The core size of a square matrix of words. -/
theorem coreSizeOf_square (isSquare : matrix.IsSquareOf fun i j => .int (entry i j))
    (occupied : n ≠ 0) (nonzero : density.isZero = false)
    (words : ∀ i j, Value.IsWord (entry i j)) :
    coreSizeOf matrix density = .ok (percentage (coreNodes R entry).card n) := by
  obtain ⟨m, rfl⟩ := Nat.exists_eq_succ_of_ne_zero occupied
  have each (i j : Fin (m + 1)) :
      (Value.int (entry i j) : Value R).entryWhole = .ok (entry i j) := by
    rw [Value.entryWhole_int, if_pos (words i j)]
  have read : Grid.wholes matrix = .ok ([m + 1, m + 1], Grid.square entry) :=
    Grid.ofEntries_square isSquare (fun _ _ => rfl) each
  rw [coreSizeOf, nonzero, if_neg Bool.false_ne_true, read]
  change coreShare ((Grid.square entry).rows.map Grid.entries) = _
  rw [Grid.map_entries_rows_square, coreShare_tabulate entry occupied]

/-- A square matrix with a number beyond a word has no core size. -/
theorem coreSizeOf_refused (isSquare : matrix.IsSquareOf fun i j => .int (entry i j))
    (nonzero : density.isZero = false) {i j : Fin n} (beyond : ¬ Value.IsWord (entry i j)) :
    coreSizeOf matrix density = .error .wordRange := by
  obtain ⟨m, rfl⟩ := Nat.exists_eq_succ_of_ne_zero i.pos.ne'
  have only (i j : Fin (m + 1)) (cause : Fault)
      (refused : (Value.int (entry i j) : Value R).entryWhole = .error cause) :
      cause = .wordRange := by
    rw [Value.entryWhole_int] at refused
    split at refused <;> cases refused
    rfl
  have refused : (Value.int (entry i j) : Value R).entryWhole = .error .wordRange := by
    rw [Value.entryWhole_int, if_neg beyond]
  have read : Grid.wholes matrix = .error .wordRange := by
    rw [Grid.wholes, Grid.ofEntries, Grid.ofValue_square isSquare fun _ _ => rfl,
      Grid.shape?_square]
    change Except.map _ _ = _
    rw [map_eq_error]
    exact Grid.read_square_eq_error only refused
  rw [coreSizeOf, nonzero, if_neg Bool.false_ne_true, read]
  rfl

end Reading

section Bounds

variable {K : Type} [Field K] [LinearOrder K] [FloorRing K] (kit : FieldKit K)

private theorem percentify_eq {count limit : Nat} (fits : count ≤ limit) :
    percentify (.int count) (.int limit) = .ok (.finite (count / limit * 100) : Exact K kit) := by
  rw [percentify_share fits, Exact.percentage_eq]

variable [IsStrictOrderedRing K]

private theorem median_ofFn (occupied : n ≠ 0) (sums : Fin n → Int) :
    median ((List.ofFn sums).map Arithmetic.ofInt : List (Exact K kit)) =
      .finite (middleWhole K (ascendingWholes (List.ofFn sums))) := by
  apply median_wholes
  rwa [ne_eq, List.ofFn_eq_nil_iff]

private theorem reachesAt_iff (sums : Fin n → Int) (i : Fin n) :
    reachesAt (Exact K kit) sums i = true ↔
      middleWhole K (ascendingWholes (List.ofFn sums)) ≤ sums i := by
  rw [reachesAt, median_ofFn kit i.pos.ne', Exact.ofInt_eq]
  change (!decide _) = true ↔ _
  rw [Bool.not_eq_true', decide_eq_false_iff_not, not_lt]

/-- Half of the nodes, rounded up, have a sum that reaches the median. -/
theorem half_le_card_reaching (occupied : n ≠ 0) (sums : Fin n → Int) :
    (n + 1) / 2 ≤
      (Finset.univ.filter fun i => reachesAt (Exact K kit) sums i = true).card := by
  have filled : List.ofFn sums ≠ [] := by rwa [ne_eq, List.ofFn_eq_nil_iff]
  have half := half_le_countP (K := K) filled
  rw [List.length_ofFn, countP_ofFn] at half
  simpa only [reachesAt_iff, Finset.card_filter, decide_eq_true_eq] using half

private theorem mem_coreNodes_iff (entry : Fin n → Fin n → Int) (i : Fin n) :
    i ∈ coreNodes (Exact K kit) entry ↔
      middleWhole K (ascendingWholes (List.ofFn (fanInAt entry))) ≤ fanInAt entry i ∧
        middleWhole K (ascendingWholes (List.ofFn (fanOutAt entry))) ≤ fanOutAt entry i := by
  rw [coreNodes, Finset.mem_filter_univ, reachesAt_iff, reachesAt_iff]

private theorem card_coreNodes_le {R : Type} [Arithmetic R] (entry : Fin n → Fin n → Int) :
    (coreNodes R entry).card ≤ n :=
  (Finset.card_le_univ _).trans_eq (Fintype.card_fin n)

/-- The core has at least the nodes that two halves have in common. -/
theorem le_card_coreNodes (occupied : n ≠ 0) (entry : Fin n → Fin n → Int) :
    2 * ((n + 1) / 2) - n ≤ (coreNodes (Exact K kit) entry).card := by
  have into := half_le_card_reaching kit occupied (fanInAt entry)
  have out := half_le_card_reaching kit occupied (fanOutAt entry)
  have shared := card_add_card_le
    (Finset.univ.filter fun i => reachesAt (Exact K kit) (fanInAt entry) i = true)
    (Finset.univ.filter fun i => reachesAt (Exact K kit) (fanOutAt entry) i = true)
  rw [← Finset.filter_and] at shared
  rw [coreNodes]
  omega

private theorem coreNodes_nonempty (odd : Odd n) (entry : Fin n → Fin n → Int) :
    (coreNodes (Exact K kit) entry).Nonempty := by
  have least := le_card_coreNodes kit odd.pos.ne' entry
  rw [← Finset.card_pos]
  obtain ⟨half, rfl⟩ := odd
  omega

private theorem percentage_pos {count limit : Nat} (nonzero : count ≠ 0) (fits : count ≤ limit) :
    ∃ share : K, (percentage count limit : Exact K kit) = .finite share ∧ 0 < share := by
  refine ⟨_, Exact.percentage_eq count limit, ?_⟩
  have limited : limit ≠ 0 := fun zero => nonzero (Nat.le_zero.mp (zero ▸ fits))
  positivity

/-- A graph with an edge and an odd number of nodes has a core. -/
theorem exists_closure_pos (odd : Odd n) {adjacent : Fin n → Fin n → Nat} {i j : Fin n}
    (edge : adjacent i j ≠ 0) :
    ∃ c, closure (toEdges (tabulate adjacent))
        (.real (density (tabulate adjacent) : Exact K kit)) = .ok c ∧
      ∃ share : K, c.coreSize = .finite share ∧ 0 < share := by
  classical
  have nonzero : (Value.real (density (tabulate adjacent) : Exact K kit)).isZero = false := by
    have edged : edgeCount (tabulate adjacent) ≠ 0 := fun unmarked =>
      edge ((edgeCount_eq_zero_iff adjacent).mp unmarked i j)
    obtain ⟨share, isShare, positive⟩ := percentage_pos kit edged (edgeCount_tabulate_le adjacent)
    change Arithmetic.isZero (density (tabulate adjacent) : Exact K kit) = false
    rw [density, length_tabulate, isShare, Exact.isZero_finite]
    exact decide_eq_false positive.ne'
  rw [closure_eq, toEdges_tabulate, visibility_tabulate, coreSize_tabulate, nonzero,
    if_neg Bool.false_ne_true, if_neg odd.pos.ne']
  exact ⟨_, rfl, percentage_pos kit (coreNodes_nonempty kit odd _).card_pos.ne'
    (card_coreNodes_le _)⟩

/-- **The core and how many nodes it has.** In exact arithmetic, let a square matrix of whole
numbers that is not empty have its core size taken with a density that is not zero. Add its rows and
its columns up, as words; sums that fit into a word are the plain ones. Then the core, the nodes of
which the sum of the row and the sum of the column both reach their medians, has at least the nodes
that two halves of them, rounded up, have in common, and its percentage is the core size, provided
that all numbers of the matrix are words; otherwise the matrix is refused. So no core of an odd
number of nodes is empty, and neither is that of a graph with an odd number of nodes and at least
one edge. -/
theorem core_size_within_bounds {matrix density : Value (Exact K kit)}
    {entry : Fin n → Fin n → Int} (isSquare : matrix.IsSquareOf fun i j => .int (entry i j))
    (occupied : n ≠ 0) (nonzero : density.isZero = false) :
    ∃ (row column : Fin n → Int) (into out : K) (core : Finset (Fin n)),
      (∀ i, row i = (∑ j, entry i j).bmod (2 ^ 64) ∧
        (Value.IsWord (∑ j, entry i j) → row i = ∑ j, entry i j)) ∧
      (∀ j, column j = (∑ i, entry i j).bmod (2 ^ 64) ∧
        (Value.IsWord (∑ i, entry i j) → column j = ∑ i, entry i j)) ∧
      median ((List.ofFn row).map Arithmetic.ofInt) = (.finite into : Exact K kit) ∧
      median ((List.ofFn column).map Arithmetic.ofInt) = (.finite out : Exact K kit) ∧
      (∀ i, i ∈ core ↔ into ≤ row i ∧ out ≤ column i) ∧
      2 * ((n + 1) / 2) - n ≤ core.card ∧ core.card ≤ n ∧
      (coreSizeOf matrix density = if ∀ i j, Value.IsWord (entry i j) then
        percentify (.int core.card) (.int n) else .error .wordRange) ∧
      (Odd n → core.Nonempty ∧
        ∀ (adjacent : Fin n → Fin n → Nat) (i j : Fin n), adjacent i j ≠ 0 →
          ∃ c, closure (toEdges (tabulate adjacent))
              (.real (Graph.density (tabulate adjacent) : Exact K kit)) = .ok c ∧
            ∃ share : K, c.coreSize = .finite share ∧ 0 < share) := by
  have rows (i : Fin n) := fanInAt_eq entry i
  have columns (j : Fin n) := fanOutAt_eq entry j
  refine ⟨fanInAt entry, fanOutAt entry, _, _, coreNodes (Exact K kit) entry, ?_, ?_,
    median_ofFn kit occupied _, median_ofFn kit occupied _, mem_coreNodes_iff kit entry,
    le_card_coreNodes kit occupied entry, card_coreNodes_le entry, ?_, ?_⟩
  · exact fun i => ⟨rows i, fun isWord => (rows i).trans (bmod_of_isWord isWord)⟩
  · exact fun j => ⟨columns j, fun isWord => (columns j).trans (bmod_of_isWord isWord)⟩
  · split
    · next words =>
      rw [coreSizeOf_square isSquare occupied nonzero words,
        percentify_share (card_coreNodes_le entry)]
    · next beyond =>
      obtain ⟨i, j, notWord⟩ : ∃ i j, ¬ Value.IsWord (entry i j) := by simpa using beyond
      exact coreSizeOf_refused isSquare nonzero notWord
  · exact fun odd => ⟨coreNodes_nonempty kit odd entry, fun _ _ _ edge =>
      exists_closure_pos kit odd edge⟩

end Bounds

/-- The rows of a square matrix of whole numbers, among the values. -/
def rowsOfWholes {R : Type} (entry : Fin n → Fin n → Int) : Value R :=
  .list (List.ofFn fun i => .list (List.ofFn fun j => .int (entry i j)))

private theorem isSquareOf_rowsOfWholes {R : Type} (entry : Fin n → Fin n → Int) :
    (rowsOfWholes entry : Value R).IsSquareOf fun i j => .int (entry i j) :=
  ⟨_, rfl, fun _ => rfl⟩

/-- Three nodes. The sum of the first row does not fit into a word. -/
def wideRow : Fin 3 → Fin 3 → Int :=
  ![![2 ^ 63 - 1, 1, 0], ![0, -4, 5], ![-7, 2, 0]]

/-- The core of three nodes is not empty, although the sum of a row wraps around. -/
theorem core_size_within_bounds_wideRow : ∃ core : Finset (Fin 3),
    core.Nonempty ∧ core.card ≤ 3 ∧
    coreSizeOf (rowsOfWholes wideRow : Value (Exact ℚ .lines)) (.real (.finite (1 / 3))) =
      percentify (.int core.card) (.int 3) := by
  have nonzero : (Value.real (.finite (1 / 3) : Exact ℚ .lines)).isZero = false := by
    change Arithmetic.isZero (.finite (1 / 3) : Exact ℚ .lines) = false
    rw [Exact.isZero_finite]
    decide +kernel
  have words : ∀ i j, Value.IsWord (wideRow i j) := by decide +kernel
  obtain ⟨-, -, -, -, core, -, -, -, -, -, -, atMost, size, odd⟩ :=
    core_size_within_bounds .lines (isSquareOf_rowsOfWholes wideRow) (by decide) nonzero
  exact ⟨core, (odd (by decide)).1, atMost, size.trans (if_pos words)⟩

/-- Two nodes. The sum of the first row does not fit into a word and wraps around. -/
def wrapping : Fin 2 → Fin 2 → Int :=
  ![![2 ^ 63 - 1, 1], ![0, 0]]

private theorem middleWhole_pair (i j : Int) :
    middleWhole ℚ (ascendingWholes [i, j]) = ((i + j : Int) : ℚ) / 2 := by
  have perm := ascendingWholes_perm [i, j]
  generalize ascendingWholes [i, j] = sorted at perm
  obtain ⟨a, b, rfl⟩ := List.length_eq_two.mp perm.length_eq
  have sum : a + b = i + j := by simpa using perm.sum_eq
  rw [← sum]
  simp [middleWhole]

private theorem middleWhole_ofFn_two (sums : Fin 2 → Int) :
    middleWhole ℚ (ascendingWholes (List.ofFn sums)) = ((sums 0 + sums 1 : Int) : ℚ) / 2 :=
  middleWhole_pair _ _

private theorem coreNodes_wrapping : coreNodes (Exact ℚ .lines) wrapping = ∅ := by
  ext i
  rw [mem_coreNodes_iff, middleWhole_ofFn_two, middleWhole_ofFn_two]
  revert i
  decide +kernel

/-- By the plain sums, the first of the wrapping nodes reaches both medians and is half of the
nodes, and a single node with a loop is always the core; but the sum of the first row of the
wrapping nodes is negative as a word, so that they have no core, and a number beyond a word is
refused. -/
theorem core_size_of_overflow :
    median ((List.ofFn fun i => ∑ j, wrapping i j).map Arithmetic.ofInt) =
      (.finite (2 ^ 62) : Exact ℚ .lines) ∧
    median ((List.ofFn fun j => ∑ i, wrapping i j).map Arithmetic.ofInt) =
      (.finite (2 ^ 62) : Exact ℚ .lines) ∧
    (∀ i, 2 ^ 62 ≤ ∑ j, wrapping i j ∧ 2 ^ 62 ≤ ∑ k, wrapping k i ↔ i = 0) ∧
    percentify (.int 1) (.int 2) = .ok (.finite 50 : Exact ℚ .lines) ∧
    coreSizeOf (rowsOfWholes wrapping) (.int 1) = .ok (.finite 0 : Exact ℚ .lines) ∧
    percentify (.int 1) (.int 1) = .ok (.finite 100 : Exact ℚ .lines) ∧
    coreSizeOf (.list [.list [.int (2 ^ 63)]] : Value (Exact ℚ .lines)) (.int 1) =
      .error .wordRange := by
  have words : ∀ i j, Value.IsWord (wrapping i j) := by decide +kernel
  have half := percentify_eq .lines (show 1 ≤ 2 by decide)
  have whole := percentify_eq .lines (show 1 ≤ 1 by decide)
  refine ⟨?_, ?_, by decide +kernel, ?_, ?_, ?_, rfl⟩
  · rw [median_ofFn .lines (by decide), middleWhole_ofFn_two]
    exact congrArg Exact.finite (by decide +kernel)
  · rw [median_ofFn .lines (by decide), middleWhole_ofFn_two]
    exact congrArg Exact.finite (by decide +kernel)
  · exact half.trans (by norm_num)
  · rw [coreSizeOf_square (isSquareOf_rowsOfWholes wrapping) (by decide) rfl words,
      coreNodes_wrapping, Exact.percentage_eq]
    norm_num
  · exact whole.trans (by norm_num)

end Graph

end SourceMetrics
