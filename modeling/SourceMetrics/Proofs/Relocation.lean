import Mathlib.Data.String.Basic
import SourceMetrics.Proofs.Resolution

/-! # Moving a project

When a directory is put in front of the paths of all modules, the modules stay in order
(`Path.before_append`). Where a declared path never goes up from the root, its segments change the
last names of a path only (`Path.foldl_follow_append`), so it means a module after the move exactly
if it did before (`Dependency.leadsTo_append`).
-/

namespace SourceMetrics

namespace Path

variable {segment name text base source target : List Char} {place row rest : List (List Char)}

/-- Whether no segment `..` of a row is followed at the root, from a directory that is given by its
segments, the last one first. -/
def Stays : List (List Char) → List (List Char) → Prop
  | _, [] => True
  | place, segment :: rest =>
    (segment = above → place ≠ []) ∧ Stays (follow true place segment) rest

instance decidableStays : (place row : List (List Char)) → Decidable (Stays place row)
  | _, [] => .isTrue trivial
  | place, segment :: rest =>
    have := decidableStays (follow true place segment) rest
    inferInstanceAs (Decidable (_ ∧ _))

private theorem stays_append : Stays place (row ++ rest) ↔
    Stays place row ∧ Stays (row.foldl (follow true) place) rest := by
  induction row generalizing place with
  | nil => simp [Stays]
  | cons segment others ih => simp only [List.cons_append, Stays, ih, List.foldl_cons, and_assoc]

private theorem follow_append (stays : segment = above → place ≠ []) (base : List (List Char)) :
    follow true (place ++ base) segment = follow true place segment ++ base := by
  unfold follow
  split
  · rfl
  · split
    · rfl
    · next up =>
      cases place with
      | nil => exact absurd rfl (stays (not_not.mp up))
      | cons last others =>
        simp only [List.cons_append]
        split
        · rfl
        · rfl

/-- What lies above the start of a row is left alone unless the row leads up to it. -/
theorem foldl_follow_append (stays : Stays place row) (base : List (List Char)) :
    row.foldl (follow true) (place ++ base) = row.foldl (follow true) place ++ base := by
  induction row generalizing place with
  | nil => rfl
  | cons segment rest ih => rw [List.foldl_cons, follow_append stays.1, ih stays.2, List.foldl_cons]

/-- A path that is joined to a row of names is followed from the last of them. -/
theorem normalize_join_anchored {lead : Nat} (leads : lead = 1 ∨ lead = 2)
    (all : ∀ segment ∈ row, IsName segment) (relative : isAbsolute text = false) :
    normalize (join (anchored lead row) text) =
      anchored lead ((segments text).foldl (follow true) row.reverse).reverse := by
  have plain : ArePlain row := arePlain_of_isName all
  have clean := plain.slash_not_mem_append text
  rw [plain.join_anchored (by omega) relative,
    normalize_anchored leads clean (plain.isAbsolute_joinSegments_append relative),
    List.foldl_append, foldl_follow_names all, List.append_nil]

private theorem stays_segments (all : ∀ segment ∈ row, IsName segment)
    (relative : isAbsolute text = false) (stays : Stays [] (segments (join (fromRoot row) text))) :
    Stays row.reverse (segments text) := by
  have plain : ArePlain row := arePlain_of_isName all
  have filled : row ++ segments text ≠ [] :=
    List.append_ne_nil_of_right_ne_nil _ (segments_ne_nil text)
  have split : segments (fromRoot (row ++ segments text)) = [] :: row ++ segments text := by
    rw [fromRoot, segments, if_pos rfl,
      segments_joinSegments filled (plain.slash_not_mem_append text), List.cons_append]
  rw [plain.join_fromRoot relative, split, stays_append, List.foldl_cons] at stays
  have names : row.foldl (follow true) (follow true [] []) = row.reverse := by
    rw [← List.append_nil row.reverse]
    exact foldl_follow_names all
  rw [← names]
  exact stays.2

private theorem extension_append (base : List Char) (rooted : isAbsolute target = true) :
    extension (base ++ target) = extension target := by
  obtain ⟨rest, rfl⟩ := exists_eq_cons_of_isAbsolute rooted
  apply extension_congr
  rw [lastSegment_append]
  exact (lastSegment_append [] rest).symm

variable {lead : Nat} {front : List (List Char)}

private theorem directory_anchored_append (leads : lead = 1 ∨ lead = 2) (someFront : front ≠ [])
    (allFront : ∀ segment ∈ front, IsName segment)
    (all : ∀ segment ∈ row ++ [name], IsName segment) :
    directory (anchored lead front ++ fromRoot (row ++ [name])) = anchored lead (front ++ row) := by
  have filled : row ++ [name] ≠ [] := by simp
  have moved : ArePlain (front ++ row ++ [name]) := by
    rw [List.append_assoc]
    exact arePlain_of_isName (List.forall_mem_append.mpr ⟨allFront, all⟩)
  rw [fromRoot, ← anchored_append lead someFront filled, ← List.append_assoc]
  exact moved.directory_anchored (by omega)

/-- A path that does not lead up from the root leads to the same names below a directory. -/
theorem normalize_join_anchored_append (leads : lead = 1 ∨ lead = 2)
    (allFront : ∀ segment ∈ front, IsName segment) (all : ∀ segment ∈ row, IsName segment)
    (relative : isAbsolute text = false)
    (stays : Stays [] (segments (join (fromRoot row) text))) :
    ∃ found, (∀ segment ∈ found, IsName segment) ∧
      normalize (join (fromRoot row) text) = fromRoot found ∧
      normalize (join (anchored lead (front ++ row)) text) = anchored lead (front ++ found) := by
  refine ⟨((segments text).foldl (follow true) row.reverse).reverse, ?_, ?_, ?_⟩
  · intro segment member
    apply isName_of_mem_foldl (fun _ => slash_not_mem_of_mem_segments) ?_ segment
      (List.mem_reverse.mp member)
    intro name inside
    exact all name (List.mem_reverse.mp inside)
  · rw [← anchored_one, ← anchored_one]
    exact normalize_join_anchored (.inl rfl) all relative
  · rw [normalize_join_anchored leads (List.forall_mem_append.mpr ⟨allFront, all⟩) relative,
      List.reverse_append, foldl_follow_append (stays_segments all relative stays),
      List.reverse_append, List.reverse_reverse]

private theorem normalize_join_append_iff (resolved : IsResolved base) (below : ¬ IsRoot base)
    (normalSource : IsNormal source) (normalTarget : IsNormal target)
    (relative : isAbsolute text = false)
    (stays : Stays [] (segments (join (directory source) text))) :
    normalize (join (directory (base ++ source)) text) = base ++ target ↔
      normalize (join (directory source) text) = target := by
  obtain ⟨lead, front, leads, someFront, allFront, rfl⟩ :=
    resolved.exists_names_of_not_isRoot below
  obtain ⟨whole, someWhole, allWhole, rfl⟩ := normalTarget.exists_names
  obtain ⟨names, filled, all, rfl⟩ := normalSource.exists_names
  obtain ⟨row, name, rfl⟩ := (List.eq_nil_or_concat' names).resolve_left filled
  rw [(arePlain_of_isName all).directory_fromRoot] at stays ⊢
  obtain ⟨found, allFound, before, after⟩ := normalize_join_anchored_append leads allFront
    (List.forall_mem_append.mp all).1 relative stays
  have same : fromRoot found = fromRoot whole ↔ found = whole :=
    (arePlain_of_isName allFound).anchored_inj (arePlain_of_isName allWhole) 1
  have sameMoved : anchored lead (front ++ found) = anchored lead (front ++ whole) ↔
      front ++ found = front ++ whole :=
    (arePlain_of_isName (List.forall_mem_append.mpr ⟨allFront, allFound⟩)).anchored_inj
      (arePlain_of_isName (List.forall_mem_append.mpr ⟨allFront, allWhole⟩)) lead
  have target : anchored lead front ++ fromRoot whole = anchored lead (front ++ whole) :=
    (anchored_append lead someFront someWhole).symm
  rw [directory_anchored_append leads someFront allFront all, before, after, target, same,
    sameMoved, List.append_right_inj]

private theorem depth_append (base : String) {path : String}
    (rooted : isAbsolute path.toList = true) :
    depth (base ++ path) + 1 = depth base + depth path := by
  obtain ⟨rest, text⟩ := exists_eq_cons_of_isAbsolute rooted
  rw [depth, depth, depth, String.toList_append, text, segments_append_slash, segments, if_pos rfl,
    List.length_append, List.length_cons, Nat.add_assoc]

private theorem strictMono_append (base : String) : StrictMono (base ++ ·) := by
  intro a b less
  simp only [String.lt_iff_toList_lt, String.toList_append] at less ⊢
  exact List.append_left_lt less

/-- Paths stay in order when a directory is put in front of all of them. -/
theorem before_append (base : String) {a b : String} (rootedA : isAbsolute a.toList = true)
    (rootedB : isAbsolute b.toList = true) : before (base ++ a) (base ++ b) = before a b := by
  have depthA := depth_append base rootedA
  have depthB := depth_append base rootedB
  have less : depth (base ++ a) < depth (base ++ b) ↔ depth a < depth b := by omega
  have level : depth (base ++ a) = depth (base ++ b) ↔ depth a = depth b := by omega
  have text : base ++ a ≤ base ++ b ↔ a ≤ b := (strictMono_append base).le_iff_le
  rw [Bool.eq_iff_iff, before_iff, before_iff, less, level, text]

end Path

namespace Dependency

open SourceMetrics.Path

variable {R : Type} {base source target : String}

private theorem isAbsolute_withExtension {declared : List Char}
    (relative : isAbsolute declared = false) (target : List Char) :
    isAbsolute (withExtension declared target) = false := by
  unfold withExtension
  split
  · cases declared with
    | nil =>
      unfold extension
      simp only
      split
      · rfl
      · rfl
    | cons c rest => exact relative
  · exact relative

private theorem resolve_append_iff (resolved : IsResolved base.toList)
    (below : ¬ IsRoot base.toList) (normalSource : IsNormal source.toList)
    (normalTarget : IsNormal target.toList)
    {declared : String} (relative : isAbsolute declared.toList = false)
    (stays : Stays [] (segments
      (join (directory source.toList) (withExtension declared.toList target.toList))))
    (working other : String) :
    resolve other (base ++ source) declared (base ++ target) = base ++ target ↔
      resolve working source declared target = target := by
  have rooted : isAbsolute source.toList = true := normalSource.isAbsolute
  have rootedMoved : isAbsolute (base ++ source).toList = true := by
    rw [String.toList_append, isAbsolute_append (ne_nil_of_isAbsolute resolved.rooted)]
    exact resolved.rooted
  have lent : withExtension declared.toList (base ++ target).toList =
      withExtension declared.toList target.toList := by
    rw [withExtension, String.toList_append, extension_append _ normalTarget.isAbsolute,
      withExtension]
  have ofList (text : List Char) (path : String) :
      String.ofList text = path ↔ text = path.toList := by
    rw [← String.toList_inj, String.toList_ofList]
  rw [resolve_of_isAbsolute rooted, resolve_of_isAbsolute rootedMoved, lent, ofList, ofList,
    String.toList_append, String.toList_append]
  exact normalize_join_append_iff resolved below normalSource normalTarget
    (isAbsolute_withExtension relative _) stays

/-- A dependency leads below a directory where it leads below the root. -/
theorem leadsTo_append (resolved : IsResolved base.toList) (below : ¬ IsRoot base.toList)
    (normalSource : IsNormal source.toList) (normalTarget : IsNormal target.toList)
    {dependency : Value R}
    (inside : ∀ declared, dependency.field "path" = .text declared →
      isAbsolute declared.toList = false ∧ Stays [] (segments
        (join (directory source.toList) (withExtension declared.toList target.toList))))
    (working other : String) :
    leadsTo other (base ++ source) dependency (base ++ target) =
      leadsTo working source dependency target := by
  unfold leadsTo
  split
  · next declared path =>
    obtain ⟨relative, stays⟩ := inside declared path
    simp only [resolve_append_iff resolved below normalSource normalTarget relative stays working
      other]
  · rfl

end Dependency

namespace ModuleReport

open SourceMetrics.Path

variable {R : Type} {base : String} {source target : ModuleReport R}

/-- A module of a project that has been moved to a directory. -/
def moved (base : String) (m : ModuleReport R) : ModuleReport R :=
  { m with path := .text (base ++ m.pathText) }

private theorem hasPath_of_isAbsolute {m : ModuleReport R}
    (rooted : isAbsolute m.pathText.toList = true) : m.hasPath = true := by
  unfold pathText at rooted
  unfold hasPath
  split at rooted
  · rfl
  · cases rooted

private theorem sorted_moved (base : String) {reports : List (ModuleReport R)}
    (rooted : ∀ m ∈ reports, isAbsolute m.pathText.toList = true) :
    sorted (reports.map (moved base)) = (sorted reports).map (moved base) := by
  symm
  apply List.map_mergeSort
  intro a memberA b memberB
  exact (before_append base (rooted a memberA) (rooted b memberB)).symm

private theorem dependsOn_moved (resolved : IsResolved base.toList) (below : ¬ IsRoot base.toList)
    (normalSource : IsNormal source.pathText.toList)
    (normalTarget : IsNormal target.pathText.toList)
    (inside : ∀ dependency ∈ source.dependencies, ∀ declared,
      dependency.field "path" = .text declared → isAbsolute declared.toList = false ∧
        Stays [] (segments (join (directory source.pathText.toList)
          (Dependency.withExtension declared.toList target.pathText.toList))))
    (working other : String) :
    (source.moved base).dependsOn other (target.moved base) = source.dependsOn working target := by
  rw [Bool.eq_iff_iff, dependsOn, dependsOn, List.any_eq_true, List.any_eq_true]
  apply exists_congr
  intro dependency
  apply and_congr_right
  intro member
  rw [← Dependency.leadsTo_append resolved below normalSource normalTarget
    (inside dependency member) working other]
  rfl

end ModuleReport

namespace Graph

open SourceMetrics.Path SourceMetrics.ModuleReport

variable {R : Type} {base : String} {reports : List (ModuleReport R)}

/-- **Moving a project leaves its adjacency matrix alone.** Let the paths of modules be in normal
form, with one slash at the start and at least one name, and let no path that they declare start at
the root or go up from the root, as it is seen from its module and with the extension that any
module lends to it. When a directory other than the root is put in front of all paths of modules,
the adjacency matrix and the density are what they were, and so is what is logged about them. The
working directories before and after the move do not matter. -/
theorem relocation_keeps_adjacency [Arithmetic R] (working other : String)
    (resolved : IsResolved base.toList) (below : ¬ IsRoot base.toList)
    (normal : ∀ m ∈ reports, IsNormal m.pathText.toList)
    (inside : ∀ source ∈ reports, ∀ dependency ∈ source.dependencies, ∀ declared,
      dependency.field "path" = .text declared → isAbsolute declared.toList = false ∧
        ∀ target ∈ reports, Stays [] (segments (join (directory source.pathText.toList)
          (Dependency.withExtension declared.toList target.pathText.toList)))) :
    buildAdjacency other (reports.map (moved base)) = buildAdjacency working reports ∧
    ∃ matrix share, (buildAdjacency working reports).result = .ok (matrix, share) := by
  have rooted (m) (member : m ∈ reports) := (normal m member).isAbsolute
  have paths (m) (member : m ∈ reports) : m.hasPath = true :=
    hasPath_of_isAbsolute (rooted m member)
  have pathsMoved : ∀ m ∈ reports.map (moved base), m.hasPath = true := by
    intro m member
    obtain ⟨original, -, rfl⟩ := List.mem_map.mp member
    rfl
  have listed {m} (member : m ∈ sorted reports) : m ∈ reports :=
    (Path.sortBy_perm pathText reports).mem_iff.mp member
  refine ⟨?_, _, _, ProjectReport.buildAdjacency_result working paths⟩
  rw [buildAdjacency_eq other pathsMoved, buildAdjacency_eq working paths, sorted_moved base rooted]
  apply measureAdjacency_map
  intro source memberSource target memberTarget
  have sourceHere := listed memberSource
  have targetHere := listed memberTarget
  apply dependsOn_moved resolved below (normal source sourceHere) (normal target targetHere)
  intro dependency member declared path
  obtain ⟨relative, stays⟩ := inside source sourceHere dependency member declared path
  exact ⟨relative, stays target targetHere⟩

/-- A module, and another one that declares it as seen from a directory below. -/
def nested (base : String) : List (ModuleReport Binary64) :=
  [declaring (base ++ "/lib/b.js") [],
    declaring (base ++ "/lib/x/a.js") [Dependency.make (.text "CommonJS") (.text "../b") .null]]

/-- The edge between the two modules is there at the root and below `//srv`. -/
theorem relocation_keeps_adjacency_nested : ∃ share : Binary64,
    (buildAdjacency "/w" (nested "")).result = .ok ([[0, 0], [1, 0]], share) ∧
    buildAdjacency "/v" (nested "//srv") = buildAdjacency "/w" (nested "") := by
  have declares : ∀ source ∈ nested "", ∀ dependency ∈ source.dependencies,
      source.pathText = "/lib/x/a.js" ∧ dependency.field "path" = .text "../b" := by
    simp only [nested, List.forall_mem_cons]
    exact ⟨nofun, List.forall_mem_singleton.mpr ⟨rfl, rfl⟩, nofun⟩
  have stays : ∀ target ∈ nested "", Stays [] (segments (join (directory "/lib/x/a.js".toList)
      (Dependency.withExtension "../b".toList target.pathText.toList))) := by decide
  have moves := @relocation_keeps_adjacency Binary64 "//srv" (nested "") _ "/w" "/v" (by decide)
    (by decide) (by decide)
  obtain ⟨same, -⟩ := moves (by
    intro source member dependency inside declared path
    obtain ⟨isSource, isPath⟩ := declares source member dependency inside
    cases isPath.symm.trans path
    rw [isSource]
    exact ⟨rfl, stays⟩)
  have sorted : sorted (nested "") = nested "" := List.mergeSort_of_pairwise (by decide)
  rw [ProjectReport.buildAdjacency_result "/w" (by decide), sorted]
  exact ⟨_, rfl, same⟩

end Graph

end SourceMetrics
