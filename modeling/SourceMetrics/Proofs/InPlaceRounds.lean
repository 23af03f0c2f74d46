import SourceMetrics.Proofs.ClosedDistances
import SourceMetrics.Proofs.DoubleSums

/-! # Closing distances in place

A round of `Graph.close` computes all distances from those before the round. The distances may as
well be computed one cell after another in a single matrix, where a later cell reads what earlier
cells of the same round have become (`Graph.closeInPlace`). A round overwrites the distances to its
node and from its node too, and these are read for every cell. But they are only compared with
longer ways, so no sum notices (`PathWeight.IsSteady`). Hence each cell comes out as if nothing had
been overwritten, in whatever order the cells are visited (`Graph.same_foldl_relaxCell`,
`Graph.same_closeInPlace`).

Lengths are such distances in every model in which they may be added, and so in doubles: always up
to equality of numbers, and exactly where no zero has the negative sign.
-/

namespace SourceMetrics

/-- Distances that may be overwritten in place, up to what counts as the same distance: a sum does
not notice if one of its terms has been compared with a longer way. Only distances that are the same
as themselves take part. -/
structure PathWeight.IsSteady {W : Type} [PathWeight W] (same : W → W → Prop) : Prop where
  symm : ∀ {a b}, same a b → same b a
  trans : ∀ {a b c}, same a b → same b c → same a c
  join : ∀ {a a' b b'}, same a a' → same b b' →
    same (PathWeight.join a b) (PathWeight.join a' b')
  shorter : ∀ {a a' b b'}, same a a' → same b b' →
    same (PathWeight.shorter a b) (PathWeight.shorter a' b')
  shorter_again : ∀ {a b}, same a a → same b b →
    same (PathWeight.shorter (PathWeight.shorter a b) b) (PathWeight.shorter a b)
  join_left : ∀ {a b c}, same a a → same b b → same c c →
    same (PathWeight.join (PathWeight.shorter a (PathWeight.join a c)) b) (PathWeight.join a b)
  join_right : ∀ {a b c}, same a a → same b b → same c c →
    same (PathWeight.join b (PathWeight.shorter a (PathWeight.join c a))) (PathWeight.join b a)

namespace Graph

open SourceMetrics.Matrix

variable {n : Nat} {W : Type} [PathWeight W]

/-- Let ways by a node count for a single cell, and leave the other cells as they are. -/
def relaxCell (node : Fin n) (distance : Fin n → Fin n → W) (cell : Fin n × Fin n) :
    Fin n → Fin n → W := fun i j =>
  if (i, j) = cell then relaxAt distance node i j else distance i j

/-- Close distances in place, where each round visits cells in an order of its own. -/
def closeInPlace (order : Fin n → List (Fin n × Fin n)) (distance : Fin n → Fin n → W) :
    Fin n → Fin n → W :=
  (List.finRange n).foldl (fun current node => (order node).foldl (relaxCell node) current) distance

/-- Close distances in place by three nested loops: over the nodes, the rows and the columns. -/
def closeNested (distance : Fin n → Fin n → W) : Fin n → Fin n → W :=
  (List.finRange n).foldl (fun current node =>
    (List.finRange n).foldl (fun current i =>
      (List.finRange n).foldl (fun current j => relaxCell node current (i, j)) current) current)
    distance

private theorem closeNested_eq (distance : Fin n → Fin n → W) :
    closeNested distance = closeInPlace (fun _ => rowByRow n) distance := by
  simp only [closeNested, closeInPlace, rowByRow, List.foldl_flatMap, List.foldl_map]

/-- The distances in the middle of a round, when some cells have been visited. -/
def midRound (distance : Fin n → Fin n → W) (node : Fin n) (visited : List (Fin n × Fin n)) :
    Fin n → Fin n → W := fun i j =>
  if (i, j) ∈ visited then relaxAt distance node i j else distance i j

section Steady

variable {same : W → W → Prop} (steady : PathWeight.IsSteady same)
  {distance current : Fin n → Fin n → W} (proper : ∀ i j, same (distance i j) (distance i j))
  (node : Fin n)

include steady proper

private theorem same_relaxAt (i j : Fin n) :
    same (relaxAt distance node i j) (relaxAt distance node i j) :=
  steady.shorter (proper i j) (steady.join (proper i node) (proper node j))

private theorem same_midRound (visited : List (Fin n × Fin n)) (i j : Fin n) :
    same (midRound distance node visited i j) (midRound distance node visited i j) := by
  unfold midRound
  split
  · exact same_relaxAt steady proper node i j
  · exact proper i j

/-- In the middle of a round, the way by its node is as long as before the round. -/
theorem same_join_midRound (visited : List (Fin n × Fin n)) (i j : Fin n) :
    same (PathWeight.join (midRound distance node visited i node)
        (midRound distance node visited node j))
      (PathWeight.join (distance i node) (distance node j)) := by
  have onward := same_midRound steady proper node visited node j
  have left : same (PathWeight.join (midRound distance node visited i node)
      (midRound distance node visited node j))
      (PathWeight.join (distance i node) (midRound distance node visited node j)) := by
    rw [midRound]
    split
    · exact steady.join_left (proper i node) onward (proper node node)
    · exact steady.join (proper i node) onward
  refine steady.trans left ?_
  rw [midRound]
  split
  · exact steady.join_right (proper node j) (proper i node) (proper node node)
  · exact steady.join (proper i node) (proper node j)

/-- Visiting one more cell brings the round one cell further, whatever has been visited. -/
theorem same_relaxCell {visited : List (Fin n × Fin n)}
    (reached : ∀ i j, same (current i j) (midRound distance node visited i j))
    (cell : Fin n × Fin n) (i j : Fin n) :
    same (relaxCell node current cell i j) (midRound distance node (visited ++ [cell]) i j) := by
  unfold relaxCell
  split
  · next here =>
    have visits : (i, j) ∈ visited ++ [cell] := by simp [here]
    have through := steady.trans (steady.join (reached i node) (reached node j))
      (same_join_midRound steady proper node visited i j)
    have way := steady.join (proper i node) (proper node j)
    refine steady.trans (steady.shorter (reached i j) through) ?_
    rw [midRound, midRound, if_pos visits]
    split
    · exact steady.shorter_again (proper i j) way
    · exact steady.shorter (proper i j) way
  · next elsewhere =>
    have still : midRound distance node (visited ++ [cell]) i j =
        midRound distance node visited i j := by
      simp [midRound, elsewhere]
    rw [still]
    exact reached i j

/-- Visiting cells one after another leads to the middle of the round. -/
theorem same_foldl_relaxCell (start : ∀ i j, same (current i j) (distance i j))
    (visited : List (Fin n × Fin n)) (i j : Fin n) :
    same (visited.foldl (relaxCell node) current i j) (midRound distance node visited i j) := by
  induction visited using List.reverseRecOn generalizing i j with
  | nil => simpa [midRound] using start i j
  | append_singleton visited cell ih =>
    rw [List.foldl_append]
    exact same_relaxCell steady proper node ih cell i j

end Steady

/-- Closing in place is closing, if each round visits every cell. -/
theorem same_closeInPlace {same : W → W → Prop} (steady : PathWeight.IsSteady same)
    {order : Fin n → List (Fin n × Fin n)} (complete : ∀ node cell, cell ∈ order node)
    {distance : Fin n → Fin n → W} (proper : ∀ i j, same (distance i j) (distance i j))
    (i j : Fin n) :
    same (closeInPlace order distance i j) ((List.finRange n).foldl relaxAt distance i j) := by
  unfold closeInPlace
  induction List.finRange n using List.reverseRecOn generalizing i j with
  | nil => exact proper i j
  | append_singleton nodes node ih =>
    rw [List.foldl_append, List.foldl_append]
    have closed (i j : Fin n) := steady.trans (steady.symm (ih i j)) (ih i j)
    have round := same_foldl_relaxCell steady closed node ih (order node) i j
    rwa [midRound, if_pos (complete node (i, j))] at round

end Graph

namespace Arithmetic

variable {R : Type} [Arithmetic R] [AddsLengths R]

/-- Lengths may be overwritten in place, up to equality of numbers. -/
theorem isSteady_sameLength : PathWeight.IsSteady (SameLength : R → R → Prop) where
  symm := SameLength.symm
  trans := SameLength.trans
  join := AddsLengths.add_congr
  shorter := SameLength.shorter
  shorter_again {a b} first second := by
    rw [shorter_shorter]
    exact first.shorter second
  join_left {a b c} first second third := by
    have stays := SameLength.shorter_of_le first.1.1
      (AddsLengths.isLength_add first.1.1 third.1.1)
      (AddsLengths.left_le_add first.1.1 third.1.1)
    exact AddsLengths.add_congr stays second
  join_right {a b c} first second third := by
    have stays := SameLength.shorter_of_le first.1.1
      (AddsLengths.isLength_add third.1.1 first.1.1)
      (AddsLengths.right_le_add third.1.1 first.1.1)
    exact AddsLengths.add_congr second stays

private theorem isPlainLength_add {x y : R} (first : IsPlainLength x) (second : IsPlainLength y) :
    IsPlainLength (add x y) :=
  ⟨AddsLengths.isLength_add first.1 second.1, AddsLengths.isNegative_add first second⟩

omit [AddsLengths R] in
private theorem isPlainLength_shorter {x y : R} (first : IsPlainLength x)
    (second : IsPlainLength y) : IsPlainLength (PathWeight.shorter x y) := by
  rcases shorter_cases x y with same | same <;> rw [same] <;> assumption

/-- Without negative zeros, lengths may be overwritten in place and stay exactly what they are. -/
theorem isSteady_plain : PathWeight.IsSteady fun x y : R => IsPlainLength x ∧ x = y where
  symm := by
    rintro x y ⟨plain, rfl⟩
    exact ⟨plain, rfl⟩
  trans := by
    rintro x y z ⟨plain, rfl⟩ ⟨-, rfl⟩
    exact ⟨plain, rfl⟩
  join := by
    rintro x x' y y' ⟨plain, rfl⟩ ⟨plain', rfl⟩
    exact ⟨isPlainLength_add plain plain', rfl⟩
  shorter := by
    rintro x x' y y' ⟨plain, rfl⟩ ⟨plain', rfl⟩
    exact ⟨isPlainLength_shorter plain plain', rfl⟩
  shorter_again {a b} first second := by
    rw [shorter_shorter]
    exact ⟨isPlainLength_shorter first.1 second.1, rfl⟩
  join_left {a b c} first second third := by
    have way := isPlainLength_add first.1 third.1
    have stays := isPlainLength_shorter first.1 way
    exact ⟨isPlainLength_add stays second.1, AddsLengths.add_plain stays first.1 second.1 second.1
      (SameLength.shorter_of_le first.1.1 way.1 (AddsLengths.left_le_add first.1.1 third.1.1))
      (SameLength.refl second.1.1)⟩
  join_right {a b c} first second third := by
    have way := isPlainLength_add third.1 first.1
    have stays := isPlainLength_shorter first.1 way
    exact ⟨isPlainLength_add second.1 stays, AddsLengths.add_plain second.1 second.1 stays first.1
      (SameLength.refl second.1.1)
      (SameLength.shorter_of_le first.1.1 way.1 (AddsLengths.right_le_add third.1.1 first.1.1))⟩

end Arithmetic

namespace Graph

open SourceMetrics.Matrix

variable {n : Nat} {R : Type} [Arithmetic R] [Arithmetic.AddsLengths R]

/-- **Distances may be closed in place.** Let a square matrix hold numbers that are not negative,
possibly infinite. It is closed by rounds that each read the matrix as it was before the round.
Closing it in place, by three nested loops or by visiting the cells of each round in any other
order, gives equal numbers in every cell. Where no number is a negative zero, it gives the same
matrix. -/
theorem in_place_rounds_agree {matrix : Value R} {entry : Fin n → Fin n → Value R}
    {number : Fin n → Fin n → R} (isSquare : matrix.IsSquareOf entry)
    (numeric : ∀ i j, (entry i j).entryReal = .ok (number i j))
    (lengths : ∀ i j, Arithmetic.IsLength (number i j)) :
    ∃ closed : Fin n → Fin n → R, closeMatrix matrix = .ok (Grid.square closed) ∧
      ∀ result, (result = closeNested number ∨
          ∃ order : Fin n → List (Fin n × Fin n), (∀ node cell, cell ∈ order node) ∧
            result = closeInPlace order number) →
        (∀ i j, Arithmetic.equal (result i j) (closed i j) = true) ∧
        ((∀ i j, Arithmetic.isNegative (number i j) = false) → result = closed) := by
  refine ⟨_, closeMatrix_square isSquare numeric, ?_⟩
  intro result inPlace
  obtain ⟨order, complete, rfl⟩ : ∃ order : Fin n → List (Fin n × Fin n),
      (∀ node cell, cell ∈ order node) ∧ result = closeInPlace order number := by
    rcases inPlace with rfl | ordered
    · exact ⟨fun _ => rowByRow n, fun _ => mem_rowByRow, closeNested_eq number⟩
    · exact ordered
  constructor
  · intro i j
    exact Arithmetic.AddsLengths.equal_of_same (same_closeInPlace Arithmetic.isSteady_sameLength
      complete (fun i j => Arithmetic.SameLength.refl (lengths i j)) i j)
  · intro unsigned
    funext i j
    exact (same_closeInPlace Arithmetic.isSteady_plain complete
      (fun i j => ⟨⟨lengths i j, unsigned i j⟩, rfl⟩) i j).2

/-- Three nodes on a cycle, one of them with a loop. The sum of all steps is not a double. -/
def wideCycle : Fin 3 → Fin 3 → Binary64 :=
  ![![Arithmetic.quotient 1 2, Arithmetic.ofInt 2, Arithmetic.infinite],
    ![Arithmetic.infinite, Arithmetic.infinite, Arithmetic.ofInt (2 ^ 53)],
    ![Arithmetic.ofInt 1, Arithmetic.infinite, Arithmetic.infinite]]

/-- The way around the cycle is rounded, and all orders agree on it. -/
theorem in_place_rounds_agree_wideCycle :
    ∃ closed : Fin 3 → Fin 3 → Binary64,
      closeMatrix (.list (List.ofFn fun i => .tuple (List.ofFn fun j => .real (wideCycle i j)))) =
        .ok (Grid.square closed) ∧
      closeNested wideCycle = closed ∧
      closeInPlace (fun _ => (rowByRow 3).reverse) wideCycle = closed ∧
      Arithmetic.equal (closed 2 2) (Arithmetic.ofInt (2 ^ 53 + 4)) = true := by
  have isSquare : (Value.list (List.ofFn fun i => .tuple (List.ofFn fun j =>
      .real (wideCycle i j)))).IsSquareOf fun i j => .real (wideCycle i j) :=
    ⟨_, rfl, fun _ => rfl⟩
  have lengths : ∀ i j, Arithmetic.IsLength (wideCycle i j) := by decide +kernel
  have unsigned : ∀ i j, Arithmetic.isNegative (wideCycle i j) = false := by decide +kernel
  obtain ⟨closed, done, agree⟩ := in_place_rounds_agree isSquare (fun _ _ => rfl) lengths
  have nested := (agree _ (.inl rfl)).2 unsigned
  have reversed := (agree _ (.inr ⟨fun _ => (rowByRow 3).reverse,
    fun _ cell => List.mem_reverse.mpr (mem_rowByRow cell), rfl⟩)).2 unsigned
  refine ⟨closed, done, nested, reversed, ?_⟩
  rw [← nested]
  decide +kernel

/-- With a negative number on the diagonal, a round shortens the ways that it reads. -/
example : Arithmetic.equal (closeNested (n := 2)
      ![![Exact.finite (-1), .finite 1], ![.finite 1, (.finite 0 : Exact ℚ .lines)]] 1 1)
    ((List.finRange 2).foldl relaxAt
      ![![Exact.finite (-1), .finite 1], ![.finite 1, (.finite 0 : Exact ℚ .lines)]] 1 1) =
      false := by
  decide +kernel

end Graph

end SourceMetrics
