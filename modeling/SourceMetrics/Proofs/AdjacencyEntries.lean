import SourceMetrics.Proofs.DoubleMeans
import SourceMetrics.Proofs.Recomputation

/-! # What the adjacency matrix says

The modules of a project are sorted by the depth of their paths and then by the texts of the paths.
The sort is stable: modules of one path stay in the order in which they were given
(`Path.filter_sortBy`). In this order, an entry of the adjacency matrix is one if a dependency of
the module of the row names the path of the module of the column, and modules of one path are told
apart by their places (`Graph.adjacencyMatrix_eq`). The density counts the entries that are one.
-/

namespace SourceMetrics

namespace Path

variable {α : Type} (path : α → String)

/-- Items of one path keep their order. -/
theorem filter_sortBy (items : List α) (text : String) :
    (sortBy path items).filter (fun item => path item = text) =
      items.filter fun item => path item = text := by
  have level : (items.filter fun item => path item = text).Pairwise
      fun a b => before (path a) (path b) = true := by
    rw [List.pairwise_filter]
    apply List.pairwise_of_forall
    intro a b first second
    rw [of_decide_eq_true first, of_decide_eq_true second]
    simpa using before_total text text
  have kept : (items.filter fun item => path item = text).Sublist (sortBy path items) := by
    apply List.sublist_mergeSort _ _ level List.filter_sublist
    · intro a b c
      exact before_trans
    · intro a b
      simpa using before_total (path a) (path b)
  have filtered := kept.filter fun item => path item = text
  simp only [List.filter_filter, Bool.and_self] at filtered
  have length := ((sortBy_perm path items).filter fun item => path item = text).length_eq
  exact (filtered.eq_of_length length.symm).symm

end Path

namespace Graph

open SourceMetrics.Matrix

variable {R : Type}

/-- An entry is one exactly if the module of the row names the different module of the column. -/
theorem adjacencyMatrix_eq (working : String) (reports : List (ModuleReport R)) :
    adjacencyMatrix working reports = tabulate fun x y : Fin reports.length =>
      if x ≠ y ∧ ∃ dependency ∈ (reports.get x).dependencies,
        Dependency.Names working (reports.get x).pathText dependency (reports.get y).pathText
      then 1 else 0 := by
  have entries := adjacencyMatrix_ofFn working reports.get
  rw [List.ofFn_get] at entries
  rw [entries]
  simp only [ModuleReport.dependsOn_iff]

/-- **The adjacency matrix marks the modules that are named.** Modules that have paths, whatever
dependencies they declare, are listed by depth and then by text of their paths, those of one path
in the order in which they were given. They have an adjacency matrix of zeros and ones without an
entry on the diagonal. It is one at `(x, y)` exactly if `x` and `y` differ and some dependency of
the module listed at `x` names the path of the module listed at `y`. The density is the percentage
of the ones among all entries. -/
theorem adjacency_marks_named [Arithmetic R] [Arithmetic.HoldsShares R] (working : String)
    {reports : List (ModuleReport R)} (paths : ∀ m ∈ reports, m.hasPath = true) :
    let listed := ModuleReport.sorted reports
    (listed.Perm reports ∧
      (listed.Pairwise fun a b => Path.depth a.pathText < Path.depth b.pathText ∨
        Path.depth a.pathText = Path.depth b.pathText ∧ a.pathText ≤ b.pathText) ∧
      ∀ text, listed.filter (fun m => m.pathText = text) =
        reports.filter fun m => m.pathText = text) ∧
    ∃ (entry : Fin listed.length → Fin listed.length → Nat) (share : R),
      (buildAdjacency working reports).result = .ok (tabulate entry, share) ∧
      (∀ x y, entry x y = 0 ∨ entry x y = 1) ∧ (∀ x, entry x x = 0) ∧
      (∀ x y, entry x y = 1 ↔ x ≠ y ∧ ∃ dependency ∈ (listed.get x).dependencies,
        Dependency.Names working (listed.get x).pathText dependency (listed.get y).pathText) ∧
      Statistics.percentify
        (.int (Finset.univ.filter fun place : Fin listed.length × Fin listed.length =>
          entry place.1 place.2 = 1).card)
        (.int (reports.length * reports.length : Nat)) = .ok share := by
  intro listed
  have perm : listed.Perm reports := Path.sortBy_perm ModuleReport.pathText reports
  refine ⟨⟨perm, ?_, Path.filter_sortBy ModuleReport.pathText reports⟩, ?_⟩
  · exact (Path.pairwise_sortBy ModuleReport.pathText reports).imp Path.before_iff.mp
  let entry : Fin listed.length → Fin listed.length → Nat := fun x y =>
    if x ≠ y ∧ ∃ dependency ∈ (listed.get x).dependencies,
      Dependency.Names working (listed.get x).pathText dependency (listed.get y).pathText
    then 1 else 0
  have matrix : adjacencyMatrix working listed = tabulate entry := adjacencyMatrix_eq working listed
  have cases (x y) : entry x y = 0 ∨ entry x y = 1 := by
    simp only [entry]
    split
    · exact .inr rfl
    · exact .inl rfl
  refine ⟨entry, density (tabulate entry), ?_, cases, ?_, ?_, ?_⟩
  · rw [ProjectReport.buildAdjacency_result working paths, ← matrix]
  · intro x
    simp [entry]
  · intro x y
    simp [entry]
  · have ones : edgeCount (tabulate entry) = (Finset.univ.filter
        fun place : Fin listed.length × Fin listed.length => entry place.1 place.2 = 1).card := by
      rw [edgeCount_tabulate]
      apply congrArg Finset.card
      apply Finset.filter_congr
      intro place _
      rcases cases place.1 place.2 with zero | one
      · simp [zero]
      · simp [one]
    rw [← ones, ← perm.length_eq, density, length_tabulate]
    exact Statistics.percentify_share (edgeCount_tabulate_le entry)

/-- A report of which only the path and the dependencies are known. -/
def declaring (path : String) (dependencies : List (Value Binary64)) : ModuleReport Binary64 :=
  { aggregate := .empty, path := .text path, dependencies }

/-- A module that depends on itself and twice on a second one. -/
def repeating : ModuleReport Binary64 :=
  declaring "/lib/a.js" [
    Dependency.make (.text "CommonJS") (.text "./a") .null,
    Dependency.make (.text "CommonJS") (.text "../b") .null,
    Dependency.make (.text "CommonJS") (.text "../b.js") .null]

/-- A module that depends on a package, and has two dependencies without a path. -/
def malformed : ModuleReport Binary64 :=
  declaring "/b.js" [
    Dependency.make (.text "CommonJS") (.text "lib/a") .null, .null, .dict [("path", .int 1)]]

/-- A module with a dependency whose path need not start at a directory. -/
def unprefixed : ModuleReport Binary64 :=
  declaring "/c.js" [.dict [("type", .text "AMD"), ("path", .text "lib/a")]]

/-- The three modules are not given in the order of their paths. -/
theorem sorted_tangled : ModuleReport.sorted [repeating, malformed, unprefixed] =
    [malformed, unprefixed, repeating] := by
  have sorted : ModuleReport.sorted [malformed, unprefixed, repeating] =
      [malformed, unprefixed, repeating] := by
    apply List.mergeSort_of_pairwise
    decide
  rw [← sorted]
  apply Path.sortBy_eq_of_perm
  · exact @List.perm_append_comm _ [repeating] [malformed, unprefixed]
  · decide

/-- Only the dependencies that name a module count, and those on one module count once. -/
theorem adjacency_marks_named_tangled : ∃ share : Binary64,
    (buildAdjacency "/" [repeating, malformed, unprefixed]).result =
      .ok ([[0, 0, 0], [0, 0, 1], [1, 0, 0]], share) ∧
    Statistics.percentify (.int 2) (.int 9) = .ok share := by
  have paths : ∀ m ∈ [repeating, malformed, unprefixed], m.hasPath = true := by
    simp only [List.forall_mem_cons]
    exact ⟨rfl, rfl, rfl, nofun⟩
  have marked := adjacency_marks_named "/" paths
  rw [sorted_tangled] at marked
  obtain ⟨-, entry, share, built, cases, -, marks, percent⟩ := marked
  let expected : Fin 3 → Fin 3 → Nat := ![![0, 0, 0], ![0, 0, 1], ![1, 0, 0]]
  have named : ∀ x y : Fin 3, expected x y ≤ 1 ∧ (expected x y = 1 ↔ x ≠ y ∧
      ∃ dependency ∈ ([malformed, unprefixed, repeating].get x).dependencies,
        Dependency.Names "/" ([malformed, unprefixed, repeating].get x).pathText dependency
          ([malformed, unprefixed, repeating].get y).pathText) := by
    decide
  have entries : entry = expected := by
    funext x y
    have agree := (marks x y).trans (named x y).2.symm
    have bounds := (named x y).1
    have bit := cases x y
    omega
  subst entries
  exact ⟨share, built, percent⟩

end Graph

end SourceMetrics
