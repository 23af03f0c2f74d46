import SourceMetrics.Proofs.DoubleMeans
import SourceMetrics.Proofs.GraphSymmetry

/-! # Cycles belong to the core as a whole

Two modules that see each other see the same modules apart from themselves, and are seen by the
same ones. In the visibility matrix no module sees itself, so their rows are not equal; but one row
is the other with the two places exchanged (`Graph.visibleAt_swap`), and so are the columns. Hence
their sums are equal, and either both of them belong to the core or neither does. If all modules
see each other, every sum is the median of the sums, and the core has all of them
(`Graph.coreNodes_eq_univ`).
-/

namespace SourceMetrics

namespace Graph

open SourceMetrics.Matrix

variable {n : Nat} {edge : Fin n → Fin n → Bool} {i j : Fin n}

/-- A node sees the other nodes that it reaches. -/
theorem visibleAt_eq_one_iff :
    visibleAt edge i j = 1 ↔ i ≠ j ∧ Relation.TransGen (fun a b => edge a b = true) i j := by
  rw [visibleAt]
  split <;> simp_all

private theorem visibleAt_reverse (i j : Fin n) :
    visibleAt (fun a b => edge b a) i j = visibleAt edge j i := by
  classical
  apply if_congr _ rfl rfl
  rw [ne_comm]
  exact and_congr_right fun _ => Relation.transGen_swap

section Mutual

variable (there : visibleAt edge i j = 1) (back : visibleAt edge j i = 1)

include there back

/-- Of two nodes that see each other, one has the row of the other with the two places exchanged. -/
theorem visibleAt_swap (k : Fin n) :
    visibleAt edge j (Equiv.swap i j k) = visibleAt edge i k := by
  classical
  obtain ⟨-, forth⟩ := visibleAt_eq_one_iff.mp there
  obtain ⟨-, home⟩ := visibleAt_eq_one_iff.mp back
  rcases eq_or_ne k i with rfl | notFirst
  · rw [Equiv.swap_apply_left]
    simp [visibleAt]
  rcases eq_or_ne k j with rfl | notSecond
  · rw [Equiv.swap_apply_right, there, back]
  rw [Equiv.swap_apply_of_ne_of_ne notFirst notSecond]
  apply if_congr _ rfl rfl
  constructor
  · rintro ⟨-, path⟩
    exact ⟨notFirst.symm, forth.trans path⟩
  · rintro ⟨-, path⟩
    exact ⟨notSecond.symm, home.trans path⟩

private theorem sum_row_of_mutual : ∑ k, visibleAt edge i k = ∑ k, visibleAt edge j k := by
  rw [← Equiv.sum_comp (Equiv.swap i j) (visibleAt edge j)]
  exact Finset.sum_congr rfl fun k _ => (visibleAt_swap there back k).symm

private theorem fanInAt_of_mutual :
    fanInAt (fun a b => (visibleAt edge a b : Int)) i =
      fanInAt (fun a b => (visibleAt edge a b : Int)) j := by
  have exchanged : (fun k => (visibleAt edge i k : Int)) =
      (fun k => (visibleAt edge j k : Int)) ∘ Equiv.swap i j := by
    funext k
    rw [Function.comp_apply, visibleAt_swap there back]
  rw [fanInAt, fanInAt, exchanged]
  exact wordSum_of_perm ((Equiv.swap i j).ofFn_comp_perm _)

end Mutual

section Core

variable {R : Type} [Arithmetic R]

private theorem reachesAt_congr {sums : Fin n → Int} (same : sums i = sums j) :
    reachesAt R sums i = reachesAt R sums j := by
  rw [reachesAt, reachesAt, same]

/-- Sums that are all the same reach their median. -/
theorem reachesAt_of_level [Arithmetic.AveragesWholes R] {sums : Fin n → Int}
    (level : ∀ i j, sums i = sums j) (isWord : ∀ i, (sums i).natAbs ≤ 2 ^ 63) (i : Fin n) :
    reachesAt R sums i = true := by
  have constant : List.ofFn sums = List.replicate n (sums i) := by
    rw [← List.ofFn_const]
    exact congrArg List.ofFn (funext fun j => level j i)
  rw [reachesAt, constant, List.map_replicate,
    Statistics.less_median_replicate i.pos.ne' (isWord i)]
  rfl

private theorem natAbs_wordSum_le (entries : List Int) : (wordSum entries).natAbs ≤ 2 ^ 63 := by
  have least := Int.le_bmod (x := entries.foldr (· + ·) 0) (m := wordCount) (by decide)
  have most := Int.bmod_lt (x := entries.foldr (· + ·) 0) (m := wordCount) (by decide)
  rw [wordSum]
  simp only [wordCount] at least most ⊢
  omega

private theorem fanOutAt_visibleAt (edge : Fin n → Fin n → Bool) :
    fanOutAt (fun a b => (visibleAt edge a b : Int)) =
      fanInAt fun a b => (visibleAt (fun a b => edge b a) a b : Int) := by
  funext k
  simp only [fanOutAt, fanInAt, visibleAt_reverse]

private theorem mem_coreNodes_of_mutual (there : visibleAt edge i j = 1)
    (back : visibleAt edge j i = 1) :
    i ∈ coreNodes R (fun a b => (visibleAt edge a b : Int)) ↔
      j ∈ coreNodes R (fun a b => (visibleAt edge a b : Int)) := by
  have columns := fanInAt_of_mutual ((visibleAt_reverse i j).trans back)
    ((visibleAt_reverse j i).trans there)
  rw [← fanOutAt_visibleAt] at columns
  rw [coreNodes, Finset.mem_filter_univ, Finset.mem_filter_univ,
    reachesAt_congr (fanInAt_of_mutual there back), reachesAt_congr columns]

private theorem reachesAt_of_joined [Arithmetic.AveragesWholes R]
    (joined : ∀ i j, i ≠ j → visibleAt edge i j = 1) (i : Fin n) :
    reachesAt R (fanInAt fun a b => (visibleAt edge a b : Int)) i = true := by
  apply reachesAt_of_level _ fun k => natAbs_wordSum_le _
  intro k l
  rcases eq_or_ne k l with rfl | different
  · rfl
  · exact fanInAt_of_mutual (joined k l different) (joined l k different.symm)

/-- Where all nodes see each other, the core has all of them. -/
theorem coreNodes_eq_univ [Arithmetic.AveragesWholes R]
    (joined : ∀ i j, i ≠ j → visibleAt edge i j = 1) :
    coreNodes R (fun a b => (visibleAt edge a b : Int)) = Finset.univ := by
  apply Finset.filter_true_of_mem
  intro i _
  refine ⟨reachesAt_of_joined joined i, ?_⟩
  rw [fanOutAt_visibleAt]
  apply reachesAt_of_joined
  intro k l different
  rw [visibleAt_reverse]
  exact joined l k different.symm

/-- **Nodes on a cycle are in the core together.** Let two nodes see each other in the visibility
matrix of a square matrix of numbers. Then their rows have the same sum and so have their columns,
and of the core, whose share among the nodes is the core size, both of them are members or neither.
If every node sees every other one, then all nodes are in the core. -/
theorem core_respects_cycles [Arithmetic.AveragesWholes R] {matrix : Value R}
    {entry : Fin n → Fin n → Value R} {number : Fin n → Fin n → R}
    (isSquare : matrix.IsSquareOf entry)
    (numeric : ∀ i j, (entry i j).entryReal = .ok (number i j)) :
    ∃ visible : Fin n → Fin n → Nat,
      (Matrix.edges matrix).map visibility = .ok (tabulate visible) ∧
      let core := coreNodes R fun i j => (visible i j : Int)
      (∀ density : Value R, n ≠ 0 → density.isZero = false →
        coreSize (tabulate visible) density = .ok (Statistics.percentage core.card n)) ∧
      (∀ i j, i ≠ j → visible i j = 1 → visible j i = 1 →
        ∑ k, visible i k = ∑ k, visible j k ∧ ∑ k, visible k i = ∑ k, visible k j ∧
          (i ∈ core ↔ j ∈ core)) ∧
      ((∀ i j, i ≠ j → visible i j = 1) → core = Finset.univ) := by
  let edge : Fin n → Fin n → Bool := fun i j => !Arithmetic.isZero (number i j)
  refine ⟨visibleAt edge, ?_, ?_, ?_, coreNodes_eq_univ⟩
  · rw [edges_square isSquare numeric]
    exact congrArg Except.ok (visibility_tabulate edge)
  · intro density occupied nonzero
    rw [coreSize_tabulate, nonzero, if_neg Bool.false_ne_true, if_neg occupied]
  · intro i j _ there back
    refine ⟨sum_row_of_mutual there back, ?_, mem_coreNodes_of_mutual there back⟩
    have columns := sum_row_of_mutual ((visibleAt_reverse i j).trans back)
      ((visibleAt_reverse j i).trans there)
    simpa only [visibleAt_reverse] using columns

/-- Two nodes that depend on each other. -/
def couple : Fin 2 → Fin 2 → Int :=
  ![![0, 1], ![1, 0]]

/-- Two nodes of the cycle are in the core together, although no edge leads from the first one to
the second. Of two nodes that depend on each other, both are in the core. -/
theorem core_respects_cycles_cycle :
    (∃ visible : Fin 4 → Fin 4 → Nat,
      (Matrix.edges (rowsOf cycleAndPoint)).map visibility = .ok (tabulate visible) ∧
      visible 0 2 = 1 ∧ visible 2 0 = 1 ∧ ∑ k, visible 0 k = ∑ k, visible 2 k ∧
      (0 ∈ coreNodes Binary64 (fun i j => (visible i j : Int)) ↔
        2 ∈ coreNodes Binary64 fun i j => (visible i j : Int))) ∧
    ∃ visible : Fin 2 → Fin 2 → Nat,
      (Matrix.edges (rowsOf couple)).map visibility = .ok (tabulate visible) ∧
      coreNodes Binary64 (fun i j => (visible i j : Int)) = Finset.univ := by
  have inRange : ∀ i j, Arithmetic.isInfinite (Arithmetic.ofInt (cycleAndPoint i j) : Binary64) =
      false := by decide
  have inRangeToo : ∀ i j, Arithmetic.isInfinite (Arithmetic.ofInt (couple i j) : Binary64) =
      false := by decide
  constructor
  · obtain ⟨visible, read, -, together, -⟩ :=
      core_respects_cycles (isSquareOf_rowsOf cycleAndPoint) fun i j =>
        entryReal_of_inRange (inRange i j)
    have entries : visible = ![![0, 1, 1, 0], ![1, 0, 1, 0], ![1, 1, 0, 0], ![0, 0, 0, 0]] :=
      tabulate_injective (Except.ok.inj (read.symm.trans rfl))
    have there : visible 0 2 = 1 := by rw [entries]; rfl
    have back : visible 2 0 = 1 := by rw [entries]; rfl
    obtain ⟨rows, -, core⟩ := together 0 2 (by decide) there back
    exact ⟨visible, read, there, back, rows, core⟩
  · obtain ⟨visible, read, -, -, whole⟩ :=
      core_respects_cycles (isSquareOf_rowsOf couple) fun i j =>
        entryReal_of_inRange (inRangeToo i j)
    have entries : visible = ![![0, 1], ![1, 0]] :=
      tabulate_injective (Except.ok.inj (read.symm.trans rfl))
    refine ⟨visible, read, whole ?_⟩
    rw [entries]
    decide

end Core

end Graph

end SourceMetrics
