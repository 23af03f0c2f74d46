import SourceMetrics.Proofs.AddedDependencies
import SourceMetrics.Proofs.AllOrNothing
import SourceMetrics.Proofs.PathNames

/-! # What a lent extension can make a path mean

A declared path without an extension is tried with the extension of each module in question, so each
module is compared with another text. Where the path ends with a name, the extension that is put
behind it goes through joining and normal forms unchanged (`Path.absolute_append`). So all modules
that the path can mean are one path with different extensions (`Dependency.eq_append_extension`).
-/

namespace SourceMetrics

namespace Path

variable {segment path more : List Char}

/-- A path without its extension. -/
def withoutExtension (path : List Char) : List Char :=
  path.take (path.length - (extension path).length)

private theorem withoutExtension_eq {stem : List Char} (split : path = stem ++ extension path) :
    withoutExtension path = stem := by
  have length : path.length - (extension path).length = stem.length := by
    have total := congrArg List.length split
    rw [List.length_append] at total
    omega
  rw [withoutExtension, length]
  conv_lhs => rw [split]
  exact List.take_left

private theorem slash_not_mem_lastSegment (path : List Char) : slash ∉ lastSegment path := by
  obtain ⟨row, split⟩ := exists_segments_eq path
  apply slash_not_mem_of_mem_segments
  rw [split]
  exact List.mem_append_right _ List.mem_cons_self

private theorem slash_not_mem_extension (path : List Char) : slash ∉ extension path := by
  by_cases extended : extension path = []
  · rw [extended]
    exact List.not_mem_nil
  · obtain ⟨stem, split, -⟩ := exists_stem extended
    intro member
    apply slash_not_mem_lastSegment path
    rw [split]
    exact List.mem_append_right _ member

private theorem IsName.append (name : IsName segment) (clean : slash ∉ more) :
    IsName (segment ++ more) where
  filled := List.append_ne_nil_of_left_ne_nil name.filled _
  notHere := by
    intro same
    have start : segment ∈ here.inits := (List.mem_inits _ _).mpr ⟨more, same⟩
    simp [here] at start
    exact start.elim name.filled name.notHere
  notAbove := by
    intro same
    have start : segment ∈ above.inits := (List.mem_inits _ _).mpr ⟨more, same⟩
    simp [above] at start
    exact start.elim name.filled fun rest => rest.elim name.notHere name.notAbove
  clean := by
    rw [List.mem_append, not_or]
    exact ⟨name.clean, clean⟩

/-- A path that is more than slashes tells how many of them it starts with. -/
theorem leading_append (mixed : ∃ c ∈ path, c ≠ slash) (more : List Char) :
    leading (path ++ more) = leading path := by
  obtain ⟨d, member, different⟩ := mixed
  have notSlash : d ≠ '/' := different
  match path with
  | [] => cases member
  | [a] =>
    have same : d = a := List.mem_singleton.mp member
    simp [leading, ← same, notSlash]
  | [a, b] =>
    by_cases first : a = '/'
    · have same : d = b := by simpa [first, notSlash] using member
      simp [leading, first, ← same, notSlash]
    · simp [leading, first]
  | a :: b :: c :: rest =>
    by_cases first : a = '/'
    · by_cases second : b = '/'
      · by_cases third : c = '/' <;> simp [leading, first, second, third]
      · simp [leading, first, second]
    · simp [leading, first]

private theorem normalize_of_segments {row : List (List Char)}
    (split : segments path = row ++ [segment]) (name : IsName segment) :
    normalize path = List.replicate (leading path) slash ++
      joinSegments ((row.foldl (follow (0 < leading path)) []).reverse ++ [segment]) := by
  have followed (rooted : Bool) :
      normalSegments rooted path = (row.foldl (follow rooted) []).reverse ++ [segment] := by
    rw [normalSegments, split, List.foldl_append, List.foldl_cons, List.foldl_nil,
      follow_name name, List.reverse_cons]
  have filled (others : List (List Char)) : joinSegments (others ++ [segment]) ≠ [] := by
    have shape : joinSegments (others ++ [segment]) = joinSegments (others ++ [[]]) ++ segment :=
      joinSegments_concat_append others [] segment
    rw [shape]
    exact List.append_ne_nil_of_right_ne_nil _ name.filled
  simp only [normalize, followed]
  rw [if_neg]
  simp [filled]

private theorem mem_of_mem_lastSegment {c : Char} (member : c ∈ lastSegment path) : c ∈ path := by
  obtain ⟨row, split⟩ := exists_segments_eq path
  have shape : path = joinSegments (row ++ [[]]) ++ lastSegment path := by
    rw [← joinSegments_concat_append row [] (lastSegment path), List.nil_append, ← split,
      joinSegments_segments]
  rw [shape]
  exact List.mem_append_right _ member

/-- What is appended to a name at the end of a path stays there. -/
theorem normalize_append (named : IsName (lastSegment path)) (clean : slash ∉ more) :
    normalize (path ++ more) = normalize path ++ more := by
  obtain ⟨row, split⟩ := exists_segments_eq path
  have longer : IsName (lastSegment path ++ more) := named.append clean
  have cleanRow : ∀ segment ∈ row ++ [lastSegment path ++ more], slash ∉ segment := by
    refine List.forall_mem_append.mpr ⟨?_, List.forall_mem_singleton.mpr longer.clean⟩
    intro segment member
    apply slash_not_mem_of_mem_segments
    rw [split]
    exact List.mem_append_left _ member
  have splitMore : segments (path ++ more) = row ++ [lastSegment path ++ more] := by
    have whole : path ++ more = joinSegments (row ++ [lastSegment path ++ more]) := by
      rw [joinSegments_concat_append, ← split, joinSegments_segments]
    rw [whole]
    exact segments_joinSegments (by simp) cleanRow
  have mixed : ∃ c ∈ path, c ≠ slash := by
    obtain ⟨c, member⟩ := List.exists_mem_of_ne_nil _ named.filled
    exact ⟨c, mem_of_mem_lastSegment member, ne_of_mem_of_not_mem member named.clean⟩
  rw [normalize_of_segments splitMore longer, normalize_of_segments split named,
    leading_append mixed, joinSegments_concat_append, List.append_assoc]

private theorem join_append (base : List Char) (filled : path ≠ []) (more : List Char) :
    join base (path ++ more) = join base path ++ more := by
  unfold join
  rw [isAbsolute_append filled]
  split
  · rfl
  · split <;> simp

private theorem lastSegment_join (base path : List Char) :
    lastSegment (join base path) = lastSegment path := by
  unfold join
  split
  · rfl
  · split
    · next ends =>
      rw [Bool.or_eq_true, List.isEmpty_iff, beq_iff_eq] at ends
      rcases ends with rfl | ends
      · rfl
      · obtain ⟨front, rfl⟩ := List.getLast?_eq_some_iff.mp ends
        rw [List.append_assoc]
        exact lastSegment_append front path
    · exact lastSegment_append base path

/-- What is appended to a name stays at the end of its absolute path. -/
theorem absolute_append {working : List Char} (named : IsName (lastSegment path))
    (clean : slash ∉ more) : absolute working (path ++ more) = absolute working path ++ more := by
  have filled : path ≠ [] := by
    rintro rfl
    exact named.filled rfl
  unfold absolute
  rw [isAbsolute_append filled, join_append working filled]
  split
  · exact normalize_append named clean
  · apply normalize_append _ clean
    rw [lastSegment_join]
    exact named

end Path

namespace Dependency

open SourceMetrics.Path

variable {R : Type} {working source declared target other : String} {dependency : Value R}

/-- A path that has an extension means the same for all modules. -/
theorem resolve_of_extension (extended : extension declared.toList ≠ []) (target other : String) :
    resolve working source declared target = resolve working source declared other := by
  rw [resolve, resolve, withExtension, withExtension, if_neg extended, if_neg extended]

/-- A module that is meant by a path without an extension is what the path means by itself, with an
extension. -/
theorem eq_append_extension (bare : extension declared.toList = [])
    (named : IsName (lastSegment declared.toList))
    (meant : resolve working source declared target = target) :
    target.toList = absolute working.toList (join (directory source.toList) declared.toList) ++
      extension target.toList := by
  have filled : declared.toList ≠ [] := by
    intro empty
    rw [empty] at named
    exact named.filled rfl
  have namedToo : IsName (lastSegment (join (directory source.toList) declared.toList)) := by
    rw [lastSegment_join]
    exact named
  conv_lhs => rw [← meant]
  rw [resolve, String.toList_ofList, withExtension, if_pos bare, join_append _ filled,
    absolute_append namedToo (slash_not_mem_extension _)]

private theorem withoutExtension_eq_of_resolve (named : IsName (lastSegment declared.toList))
    (first : resolve working source declared target = target)
    (second : resolve working source declared other = other) :
    (extension declared.toList ≠ [] → target = other) ∧
      withoutExtension target.toList = withoutExtension other.toList ∧
      (target ≠ other → extension target.toList ≠ extension other.toList) := by
  by_cases bare : extension declared.toList = []
  · have split := eq_append_extension bare named first
    have splitToo := eq_append_extension bare named second
    refine ⟨absurd bare, ?_, ?_⟩
    · rw [withoutExtension_eq split, withoutExtension_eq splitToo]
    · intro different same
      apply different
      rw [← String.toList_inj, split, splitToo, same]
  · have same : target = other := by
      rw [← first, resolve_of_extension bare target other, second]
    exact ⟨fun _ => same, by rw [same], absurd same⟩

end Dependency

namespace ModuleReport

variable {R : Type}

/-- Another report of the same module that has one dependency more. -/
structure Gains (dependency : Value R) (m more : ModuleReport R) : Prop extends Extends m more where
  only : more.dependencies ⊆ dependency :: m.dependencies

variable {dependency : Value R} {m more target other : ModuleReport R}

private theorem Gains.refl (dependency : Value R) (m : ModuleReport R) : m.Gains dependency m where
  toExtends := .refl m
  only := List.subset_cons_self _ _

/-- A module that is depended on only after a dependency is gained is named by it. -/
theorem Gains.names {working : String} (gains : m.Gains dependency more)
    (samePath : target.pathText = other.pathText) (after : more.dependsOn working other = true)
    (before : ¬ m.dependsOn working target = true) :
    Dependency.Names working m.pathText dependency target.pathText := by
  rw [dependsOn_iff] at after before
  obtain ⟨found, member, names⟩ := after
  rw [← gains.pathText, ← samePath] at names
  rcases List.mem_cons.mp (gains.only member) with rfl | old
  · exact names
  · exact absurd ⟨found, old, names⟩ before

/-- A module gains a dependency if it has a certain path, and otherwise stays as it is. -/
structure GainsAt (place : String) (dependency : Value R) (m more : ModuleReport R) : Prop
    extends Gains dependency m more where
  elsewhere : m.pathText ≠ place → m = more

/-- One module of a project gains a dependency. -/
theorem forall₂_gainsAt (gains : m.Gains dependency more) (front back : List (ModuleReport R)) :
    List.Forall₂ (GainsAt m.pathText dependency) (front ++ m :: back) (front ++ more :: back) := by
  have same (reports : List (ModuleReport R)) :
      List.Forall₂ (GainsAt m.pathText dependency) reports reports := by
    rw [List.forall₂_same]
    intro report _
    exact ⟨.refl dependency report, fun _ => rfl⟩
  exact List.rel_append (same front) (.cons ⟨gains, absurd rfl⟩ (same back))

end ModuleReport

namespace Graph

open SourceMetrics.Matrix SourceMetrics.Path SourceMetrics.ModuleReport

variable {R : Type} {n : Nat} {working place : String} {dependency : Value R}

/-- An edge that comes with a dependency starts at the module that gains it, and leads to a module
that it names. -/
theorem names_of_adjacentAt_ne {item other : Fin n → ModuleReport R}
    (each : ∀ i, (item i).GainsAt place dependency (other i)) {x y : Fin n}
    (new : adjacentAt working item x y ≠ adjacentAt working other x y) :
    (item x).pathText = place ∧
      Dependency.Names working (item x).pathText dependency (item y).pathText := by
  have samePath : (item y).pathText = (other y).pathText := (each y).pathText
  unfold adjacentAt at new
  by_cases after : x ≠ y ∧ (other x).dependsOn working (other y) = true
  · have before : ¬ (item x).dependsOn working (item y) = true := by
      intro depends
      rw [if_pos after, if_pos ⟨after.1, depends⟩] at new
      exact new rfl
    refine ⟨?_, (each x).names samePath after.2 before⟩
    by_contra elsewhere
    apply before
    rw [(each x).elsewhere elsewhere, dependsOn, samePath]
    exact after.2
  · have before : ¬ (x ≠ y ∧ (item x).dependsOn working (item y) = true) := by
      rintro ⟨different, depends⟩
      exact after ⟨different, (each x).dependsOn (each y).toExtends depends⟩
    rw [if_neg after, if_neg before] at new
    exact absurd rfl new

private theorem injective_pathText {reports : List (ModuleReport R)}
    (distinct : (reports.map pathText).Nodup) {item : Fin n → ModuleReport R}
    (listed : sorted reports = List.ofFn item) : Function.Injective fun i => (item i).pathText := by
  have perm := (Path.sortBy_perm pathText reports).map pathText
  have again : ((sorted reports).map pathText).Nodup := perm.nodup_iff.mpr distinct
  rw [listed, List.map_ofFn] at again
  exact List.nodup_ofFn.mp again

/-- **A dependency means one module, up to the extension.** Let the path of a dependency end with a
name. If the path has an extension, the dependency means at most one path as seen from a source, and
otherwise all paths that it means are the same without their extensions. So when a module of a
project with distinct paths gains the dependency, all new edges start at this module, and they lead
to several modules only if the path has no extension and these modules differ in their extensions
only. -/
theorem meaning_unique_up_to_extension [Arithmetic R] (working : String) {declared : String}
    (named : IsName (lastSegment declared.toList))
    (isPath : dependency.field "path" = .text declared) :
    (∀ source a b, Dependency.check working (.text source) dependency (.text a) = .ok true →
      Dependency.check working (.text source) dependency (.text b) = .ok true →
      (extension declared.toList ≠ [] → a = b) ∧
        withoutExtension a.toList = withoutExtension b.toList) ∧
    ∀ (front back : List (ModuleReport R)) (m more : ModuleReport R), m.Gains dependency more →
      let reports := front ++ m :: back
      (∀ report ∈ reports, report.hasPath = true) → (reports.map pathText).Nodup →
      ∃ (item : Fin reports.length → ModuleReport R)
        (entry gained : Fin reports.length → Fin reports.length → Nat) (share shareGained : R),
        sorted reports = List.ofFn item ∧
        (buildAdjacency working reports).result = .ok (tabulate entry, share) ∧
        (buildAdjacency working (front ++ more :: back)).result =
          .ok (tabulate gained, shareGained) ∧
        ∀ x y u v, entry x y ≠ gained x y → entry u v ≠ gained u v →
          x = u ∧ (item x).pathText = m.pathText ∧
          withoutExtension (item y).pathText.toList = withoutExtension (item v).pathText.toList ∧
          (y ≠ v → extension declared.toList = [] ∧
            extension (item y).pathText.toList ≠ extension (item v).pathText.toList) := by
  have meant {source target : String}
      (names : Dependency.Names working source dependency target) :
      Dependency.resolve working source declared target = target := by
    obtain ⟨text, found, -, resolved⟩ := names
    cases isPath.symm.trans found
    exact resolved
  constructor
  · intro source a b first second
    rw [Dependency.check_text, Except.ok.injEq, Dependency.leadsTo_iff] at first second
    obtain ⟨unique, same, -⟩ :=
      Dependency.withoutExtension_eq_of_resolve named (meant first) (meant second)
    exact ⟨unique, same⟩
  · intro front back m more gains reports paths distinct
    have related := forall₂_gainsAt gains front back
    obtain ⟨item, other, listed, listedToo, each⟩ :=
      exists_sorted_of_forall₂ (fun _ _ gains => gains.pathText) related
    have otherPaths := (forall_hasPath_iff (related.imp fun _ _ gains => gains.toExtends)).mp paths
    have injective := injective_pathText distinct listed
    refine ⟨item, adjacentAt working item, adjacentAt working other, _, _, listed,
      (isOf_surveyOf paths listed).adjacency, (isOf_surveyOf otherPaths listedToo).adjacency, ?_⟩
    intro x y u v first second
    obtain ⟨source, names⟩ := names_of_adjacentAt_ne each first
    obtain ⟨sourceToo, namesToo⟩ := names_of_adjacentAt_ne each second
    obtain rfl : x = u := injective (source.trans sourceToo.symm)
    obtain ⟨unique, same, apart⟩ :=
      Dependency.withoutExtension_eq_of_resolve named (meant names) (meant namesToo)
    refine ⟨rfl, source, same, ?_⟩
    intro different
    have differentPaths : (item y).pathText ≠ (item v).pathText := injective.ne different
    exact ⟨by_contra fun extended => differentPaths (unique extended), apart differentPaths⟩

/-- A dependency whose path has no extension. -/
def bare : Value Binary64 :=
  Dependency.make (.text "CommonJS") (.text "./b") .null

/-- A module with some dependencies, and two modules that differ in their extensions. -/
def withTwins (dependencies : List (Value Binary64)) : List (ModuleReport Binary64) :=
  [declaring "/lib/a.js" dependencies, declaring "/lib/b.js" [], declaring "/lib/b.ts" []]

/-- One dependency may add two edges. -/
theorem meaning_unique_up_to_extension_withTwins :
    ∃ (entry gained : Fin 3 → Fin 3 → Nat) (share shareGained : Binary64),
      (buildAdjacency "/" (withTwins [])).result = .ok (tabulate entry, share) ∧
      (buildAdjacency "/" (withTwins [bare])).result = .ok (tabulate gained, shareGained) ∧
      entry 0 1 ≠ gained 0 1 ∧ entry 0 2 ≠ gained 0 2 ∧
      withoutExtension "/lib/b.js".toList = withoutExtension "/lib/b.ts".toList ∧
      extension "/lib/b.js".toList ≠ extension "/lib/b.ts".toList := by
  have named : IsName (lastSegment "./b".toList) := ⟨by decide, by decide, by decide, by decide⟩
  have gains : (declaring "/lib/a.js" []).Gains bare (declaring "/lib/a.js" [bare]) :=
    ⟨⟨rfl, List.nil_subset _⟩, List.Subset.refl _⟩
  obtain ⟨item, entry, gained, share, shareGained, listed, built, builtToo, edges⟩ :=
    (meaning_unique_up_to_extension "/" named rfl).2 [] (withTwins []).tail _ _ gains
      (by decide) (by decide)
  change (buildAdjacency "/" (withTwins [])).result = _ at built
  change (buildAdjacency "/" (withTwins [bare])).result = _ at builtToo
  have inOrder : sorted (withTwins []) = withTwins [] := List.mergeSort_of_pairwise (by decide)
  have inOrderToo : sorted (withTwins [bare]) = withTwins [bare] :=
    List.mergeSort_of_pairwise (by decide)
  have matrix := built
  have matrixToo := builtToo
  rw [ProjectReport.buildAdjacency_result "/" (by decide), inOrder, Except.ok.injEq] at matrix
  rw [ProjectReport.buildAdjacency_result "/" (by decide), inOrderToo, Except.ok.injEq] at matrixToo
  have isEntry : ![![0, 0, 0], ![0, 0, 0], ![0, 0, 0]] = entry :=
    tabulate_injective (Eq.trans (by decide) (congrArg Prod.fst matrix))
  have isGained : ![![0, 1, 1], ![0, 0, 0], ![0, 0, 0]] = gained :=
    tabulate_injective (Eq.trans (by decide) (congrArg Prod.fst matrixToo))
  have isItem : item = (withTwins []).get :=
    List.ofFn_injective (listed.symm.trans (inOrder.trans (List.ofFn_get _).symm))
  subst isEntry isGained isItem
  obtain ⟨-, -, same, apart⟩ := edges (0 : Fin 3) (1 : Fin 3) (0 : Fin 3) (2 : Fin 3)
    (by decide) (by decide)
  have different : (1 : Fin 3) ≠ 2 := by decide
  exact ⟨_, _, share, shareGained, built, builtToo, by decide, by decide, same,
    (apart different).2⟩

end Graph

end SourceMetrics
