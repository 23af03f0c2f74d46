import SourceMetrics.Proofs.AdjacencyEntries
import SourceMetrics.Proofs.PathNames

/-! # Where a dependency leads

A declared path means a path from the root in normal form (`Path.IsResolved`), from wherever it is
read. So a module whose own path is of another form is meant by no dependency. The working directory
counts only where the path of a module does not start at the root, since the directory of a path
from the root is such a path again, and so is all that is joined to it
(`Dependency.resolve_of_isAbsolute`).
-/

namespace SourceMetrics

namespace Path

variable {lead : Nat} {base path : List Char} {row : List (List Char)}

/-- The root, which may be written with two slashes. -/
def IsRoot (path : List Char) : Prop :=
  path = [slash] ∨ path = [slash, slash]

instance (path : List Char) : Decidable (IsRoot path) :=
  inferInstanceAs (Decidable (_ ∨ _))

/-- A path from the root in its normal form: one slash or two, then names with a slash between any
two of them. -/
structure IsResolved (path : List Char) : Prop where
  rooted : isAbsolute path = true
  named : ¬ IsRoot path → ∀ segment ∈ segments (path.drop (leading path)), IsName segment
  ends : path.getLast? = some slash → IsRoot path
  normal : normalize path = path

private theorem isRoot_anchored (leads : lead = 1 ∨ lead = 2) : IsRoot (anchored lead []) := by
  rcases leads with rfl | rfl
  · exact .inl rfl
  · exact .inr rfl

private theorem isResolved_anchored (leads : lead = 1 ∨ lead = 2)
    (all : ∀ segment ∈ row, IsName segment) : IsResolved (anchored lead row) := by
  have plain : ArePlain row := arePlain_of_isName all
  have clean (segment) (member : segment ∈ row) : slash ∉ segment := (all segment member).clean
  have root (empty : row = []) : IsRoot (anchored lead row) := empty ▸ isRoot_anchored leads
  refine ⟨?_, ?_, ?_, ?_⟩
  · rcases leads with rfl | rfl <;> rfl
  · intro below
    have started : leading (anchored lead row) = lead :=
      leading_replicate leads plain.isAbsolute_joinSegments
    have rest : (anchored lead row).drop lead = joinSegments row := List.drop_left' (by simp)
    rw [started, rest, segments_joinSegments (fun empty => below (root empty)) clean]
    exact all
  · intro ends
    by_contra below
    obtain ⟨front, c, same, different⟩ :=
      plain.exists_anchored_concat (fun empty => below (root empty)) lead
    rw [same, List.getLast?_concat] at ends
    exact different (Option.some.inj ends)
  · rw [normalize_anchored leads clean plain.isAbsolute_joinSegments, foldl_follow_names all,
      List.append_nil, List.reverse_reverse]

/-- An absolute path starts with a slash. -/
theorem exists_eq_cons_of_isAbsolute (rooted : isAbsolute path = true) :
    ∃ rest, path = slash :: rest := by
  cases path with
  | nil => cases rooted
  | cons c rest =>
    have same : c = slash := by simpa [isAbsolute] using rooted
    exact ⟨rest, same ▸ rfl⟩

private theorem leading_of_isAbsolute (rooted : isAbsolute path = true) :
    leading path = 1 ∨ leading path = 2 := by
  unfold leading
  split
  · exact .inl rfl
  · exact .inr rfl
  · exact .inl rfl
  · next other =>
    obtain ⟨rest, same⟩ := exists_eq_cons_of_isAbsolute rooted
    exact absurd same (other rest)

private theorem exists_normalize_eq (rooted : isAbsolute path = true) : ∃ lead row,
    (lead = 1 ∨ lead = 2) ∧ (∀ segment ∈ row, IsName segment) ∧
      normalize path = anchored lead row := by
  refine ⟨leading path, normalSegments true path, leading_of_isAbsolute rooted,
    isName_of_mem_normalSegments path, ?_⟩
  rcases leading_of_isAbsolute rooted with one | two
  · rw [normalize_of_leading one, one]
  · rw [normalize_of_leading two, two]

private theorem isResolved_normalize (rooted : isAbsolute path = true) :
    IsResolved (normalize path) := by
  obtain ⟨lead, row, leads, all, same⟩ := exists_normalize_eq rooted
  rw [same]
  exact isResolved_anchored leads all

private theorem isResolved_iff :
    IsResolved path ↔ isAbsolute path = true ∧ normalize path = path := by
  constructor
  · intro resolved
    exact ⟨resolved.rooted, resolved.normal⟩
  · rintro ⟨rooted, normal⟩
    rw [← normal]
    exact isResolved_normalize rooted

instance (path : List Char) : Decidable (IsResolved path) :=
  decidable_of_iff _ isResolved_iff.symm

private theorem IsResolved.exists_names (resolved : IsResolved path) : ∃ lead row,
    (lead = 1 ∨ lead = 2) ∧ (∀ segment ∈ row, IsName segment) ∧ path = anchored lead row := by
  obtain ⟨lead, row, leads, all, same⟩ := exists_normalize_eq resolved.rooted
  exact ⟨lead, row, leads, all, resolved.normal.symm.trans same⟩

/-- A resolved path other than the root consists of one or two slashes and of names. -/
theorem IsResolved.exists_names_of_not_isRoot (resolved : IsResolved path) (below : ¬ IsRoot path) :
    ∃ lead row, (lead = 1 ∨ lead = 2) ∧ row ≠ [] ∧ (∀ segment ∈ row, IsName segment) ∧
      path = anchored lead row := by
  obtain ⟨lead, row, leads, all, rfl⟩ := resolved.exists_names
  refine ⟨lead, row, leads, ?_, all, rfl⟩
  rintro rfl
  exact below (isRoot_anchored leads)

/-- An absolute path is not empty. -/
theorem ne_nil_of_isAbsolute (rooted : isAbsolute path = true) : path ≠ [] := by
  rintro rfl
  cases rooted

private theorem isAbsolute_join (rooted : isAbsolute base = true) (path : List Char) :
    isAbsolute (join base path) = true := by
  have filled : base ≠ [] := ne_nil_of_isAbsolute rooted
  unfold join
  split
  · assumption
  · split
    · rw [isAbsolute_append filled, rooted]
    · rw [isAbsolute_append filled, rooted]

private theorem isAbsolute_of_prefix (rooted : isAbsolute path = true) (start : base <+: path)
    (filled : base ≠ []) : isAbsolute base = true := by
  obtain ⟨more, rfl⟩ := start
  rw [isAbsolute_append filled] at rooted
  exact rooted

/-- The directory of a path from the root is a path from the root. -/
theorem isAbsolute_directory (rooted : isAbsolute path = true) :
    isAbsolute (directory path) = true := by
  have start : upToSlash path <+: path := List.rdropWhile_prefix _ _
  have filled : upToSlash path ≠ [] := by
    obtain ⟨rest, rfl⟩ := exists_eq_cons_of_isAbsolute rooted
    intro empty
    have clear := List.rdropWhile_eq_nil_iff.mp empty slash List.mem_cons_self
    simp at clear
  simp only [directory]
  split
  · exact isAbsolute_of_prefix rooted start filled
  · next mixed =>
    have shorter : dropSlashes (upToSlash path) <+: upToSlash path := List.rdropWhile_prefix _ _
    apply isAbsolute_of_prefix rooted (shorter.trans start)
    intro empty
    apply mixed
    rw [List.all_eq_true]
    exact List.rdropWhile_eq_nil_iff.mp empty

private theorem absolute_of_isAbsolute (rooted : isAbsolute path = true) (working : List Char) :
    absolute working path = normalize path := by
  rw [absolute, if_pos rooted]

private theorem isResolved_absolute {working : List Char} (rooted : isAbsolute working = true)
    (path : List Char) : IsResolved (absolute working path) := by
  unfold absolute
  apply isResolved_normalize
  split
  · assumption
  · exact isAbsolute_join rooted path

end Path

namespace Dependency

open SourceMetrics.Path

variable {R : Type} {working source : String}

private theorem isResolved_resolve (rooted : isAbsolute working.toList = true)
    (source declared target : String) :
    IsResolved (resolve working source declared target).toList := by
  rw [resolve, String.toList_ofList]
  exact isResolved_absolute rooted _

/-- What a module with a path from the root declares means the same in all working directories. -/
theorem resolve_of_isAbsolute (rooted : isAbsolute source.toList = true)
    (working declared target : String) :
    resolve working source declared target = String.ofList (normalize
      (join (directory source.toList) (withExtension declared.toList target.toList))) := by
  rw [resolve, absolute_of_isAbsolute]
  exact isAbsolute_join (isAbsolute_directory rooted) _

private theorem leadsTo_of_isAbsolute (rooted : isAbsolute source.toList = true)
    (working other : String) (dependency : Value R) (target : String) :
    leadsTo working source dependency target = leadsTo other source dependency target := by
  simp only [leadsTo, resolve_of_isAbsolute rooted]

private theorem exists_resolve_of_resolveValue {source target value : Value R} {declared : String}
    (done : resolveValue working source (.text declared) target = .ok value) :
    ∃ origin lender, value = .text (resolve working origin declared lender) := by
  rw [resolveValue] at done
  split at done
  · obtain ⟨lender, -, rest⟩ := bind_eq_ok.mp done
    obtain ⟨origin, -, result⟩ := bind_eq_ok.mp rest
    exact ⟨origin, lender, (Except.ok.inj result).symm⟩
  · rw [pure_bind] at done
    obtain ⟨origin, -, result⟩ := bind_eq_ok.mp done
    exact ⟨origin, "", (Except.ok.inj result).symm⟩

/-- A dependency means nothing but texts in normal form. -/
theorem isResolved_of_check (rooted : isAbsolute working.toList = true)
    {source dependency target : Value R}
    (meant : check working source dependency target = .ok true) :
    ∃ path, target = .text path ∧ IsResolved path.toList := by
  unfold check at meant
  split at meant
  · split at meant
    · cases meant
    · obtain ⟨value, done, same⟩ := bind_eq_ok.mp meant
      obtain ⟨origin, lender, rfl⟩ := exists_resolve_of_resolveValue done
      cases target with
      | text path =>
        refine ⟨path, rfl, ?_⟩
        rw [← of_decide_eq_true (Except.ok.inj same)]
        exact isResolved_resolve rooted _ _ _
      | _ => cases same
  · cases meant

end Dependency

namespace Graph

open SourceMetrics.Matrix SourceMetrics.Path

variable {R : Type} [Arithmetic R] {working other : String} {reports : List (ModuleReport R)}

/-- Modules that depend on each other as before have the matrix that they had. -/
theorem measureAdjacency_map {change : ModuleReport R → ModuleReport R}
    (same : ∀ source ∈ reports, ∀ target ∈ reports,
      (change source).dependsOn other (change target) = source.dependsOn working target) :
    measureAdjacency other (reports.map change) = measureAdjacency working reports := by
  have inside {item : ModuleReport R × Nat} (member : item ∈ reports.zipIdx) : item.1 ∈ reports :=
    List.fst_mem_of_mem_zipIdx member
  have found : findEdges other (reports.map change) = findEdges working reports := by
    simp only [findEdges, List.zipIdx_map, List.foldl_map, List.length_map]
    apply List.foldl_ext
    intro found source member
    apply List.foldl_ext
    intro found target memberToo
    simp only [EdgeSearch.look, Prod.map, id,
      same source.1 (inside member) target.1 (inside memberToo)]
  simp only [measureAdjacency, found, List.length_map]

/-- Modules whose paths start at the root have one adjacency matrix, in whatever directory they are
looked at. -/
theorem buildAdjacency_of_isAbsolute
    (all : ∀ m ∈ reports, m.hasPath = true ∧ isAbsolute m.pathText.toList = true)
    (working other : String) : buildAdjacency other reports = buildAdjacency working reports := by
  have paths (m) (member : m ∈ reports) := (all m member).1
  have kept := @measureAdjacency_map R _ working other (ModuleReport.sorted reports) id
  rw [List.map_id] at kept
  rw [buildAdjacency_eq other paths, buildAdjacency_eq working paths]
  apply kept
  intro source member target _
  have inside := (Path.sortBy_perm ModuleReport.pathText reports).mem_iff.mp member
  simp only [ModuleReport.dependsOn, id,
    Dependency.leadsTo_of_isAbsolute (all source inside).2 other working]

/-- **Dependencies are resolved to paths in normal form.** In a working directory that is given from
the root, every declared path means a path from the root in normal form, which stays as it is when
it is read once more. So a dependency means only modules whose paths are of this form, and in the
column of any other module the adjacency matrix is empty. What is declared by a module whose path
starts at the root means the same in all working directories, and modules with such paths have the
same matrix and density in all of them. -/
theorem resolution_is_normal (rooted : isAbsolute working.toList = true) :
    (∀ source declared target,
      IsResolved (Dependency.resolve working source declared target).toList ∧
      ∀ elsewhere, absolute elsewhere (Dependency.resolve working source declared target).toList =
        (Dependency.resolve working source declared target).toList) ∧
    (∀ source dependency target : Value R,
      Dependency.check working source dependency target = .ok true →
        ∃ path, target = .text path ∧ IsResolved path.toList) ∧
    (∀ reports : List (ModuleReport R), (∀ m ∈ reports, m.hasPath = true) →
      let listed := ModuleReport.sorted reports
      ∃ (entry : Fin listed.length → Fin listed.length → Nat) (share : R),
        (buildAdjacency working reports).result = .ok (tabulate entry, share) ∧
        ∀ x y, ¬ IsResolved (listed.get y).pathText.toList → entry x y = 0) ∧
    (∀ source, isAbsolute source.toList = true → ∀ other declared target,
      Dependency.resolve other source declared target =
        Dependency.resolve working source declared target) ∧
    ∀ reports : List (ModuleReport R),
      (∀ m ∈ reports, m.hasPath = true ∧ isAbsolute m.pathText.toList = true) →
      ∃ matrix share, ∀ other, (buildAdjacency other reports).result = .ok (matrix, share) := by
  refine ⟨?_, ?_, ?_, ?_, ?_⟩
  · intro source declared target
    have resolved := Dependency.isResolved_resolve rooted source declared target
    refine ⟨resolved, ?_⟩
    intro elsewhere
    rw [absolute_of_isAbsolute resolved.rooted, resolved.normal]
  · intro source dependency target
    exact Dependency.isResolved_of_check rooted
  · intro reports paths listed
    refine ⟨fun x y => if x ≠ y ∧ ∃ dependency ∈ (listed.get x).dependencies,
      Dependency.Names working (listed.get x).pathText dependency (listed.get y).pathText
      then 1 else 0, density (adjacencyMatrix working listed), ?_, ?_⟩
    · rw [ProjectReport.buildAdjacency_result working paths, ← adjacencyMatrix_eq]
    · intro x y unresolved
      apply if_neg
      rintro ⟨-, dependency, -, declared, -, -, same⟩
      rw [← same] at unresolved
      exact unresolved (Dependency.isResolved_resolve rooted _ _ _)
  · intro source absolute other declared target
    rw [Dependency.resolve_of_isAbsolute absolute, Dependency.resolve_of_isAbsolute absolute]
  · intro reports all
    let matrix := adjacencyMatrix working (ModuleReport.sorted reports)
    refine ⟨matrix, density matrix, ?_⟩
    intro other
    rw [buildAdjacency_of_isAbsolute all working other]
    exact ProjectReport.buildAdjacency_result working fun m member => (all m member).1

/-- A path that leads up to the root, a module that is never meant, and modules whose matrix does
not depend on the working directory. -/
theorem resolution_is_normal_upward :
    IsResolved (Dependency.resolve "/w" "lib//x/../a.js" "../..//./b" "/b.js").toList ∧
    Dependency.resolve "/w" "lib//x/../a.js" "../..//./b" "/b.js" = "/b.js" ∧
    Dependency.check "/w" (.text "/w/a.js")
      (Dependency.make (.text "CommonJS") (.text "./b.js") .null : Value Binary64)
      (.text "b.js") ≠ .ok true ∧
    ∃ matrix share, ∀ other,
      (buildAdjacency other [repeating, malformed, unprefixed]).result = .ok (matrix, share) := by
  obtain ⟨resolved, meant, -, -, everywhere⟩ :=
    @resolution_is_normal Binary64 _ "/w" (by decide)
  refine ⟨(resolved _ _ _).1, by decide, ?_, everywhere _ ?_⟩
  · intro checked
    obtain ⟨path, same, resolved⟩ := meant _ _ _ checked
    cases same
    exact absurd resolved (by decide)
  · simp only [List.forall_mem_cons]
    exact ⟨⟨rfl, by decide⟩, ⟨rfl, by decide⟩, ⟨rfl, by decide⟩, nofun⟩

end Graph

end SourceMetrics
