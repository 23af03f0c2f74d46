import SourceMetrics.Proofs.AllOrNothing
import SourceMetrics.Proofs.PathNames

/-! # Relative specifiers

A path that goes up some directories and then down a row of names leads from the directory of one
module to another module (`Path.normalize_join_specifier`). The extension of that module may be left
out of the path, as it is lent to a path that has none; but it is not lent to a path that still ends
with what looks like an extension.
-/

namespace SourceMetrics

namespace Path

variable {k : Nat} {segment : List Char} {row rest : List (List Char)}

/-- The segments that lead up from a directory by a number of directories. -/
def upward (k : Nat) : List (List Char) :=
  if k = 0 then [here] else List.replicate k above

/-- The path that leads up by a number of directories and then down a row of segments. -/
def specifier (k : Nat) (rest : List (List Char)) : List Char :=
  (if k = 0 then "./".toList else (List.replicate k "../".toList).flatten) ++ joinSegments rest

private theorem flatten_replicate_above (filled : rest ≠ []) (k : Nat) :
    (List.replicate k "../".toList).flatten ++ joinSegments rest =
      joinSegments (List.replicate k above ++ rest) := by
  induction k with
  | zero => rfl
  | succ k ih =>
    have someMore : List.replicate k above ++ rest ≠ [] := by simp [filled]
    rw [List.replicate_succ, List.replicate_succ, List.flatten_cons, List.append_assoc, ih,
      List.cons_append, joinSegments_cons above someMore]
    rfl

private theorem specifier_eq (k : Nat) (filled : rest ≠ []) :
    specifier k rest = joinSegments (upward k ++ rest) := by
  unfold specifier upward
  split
  · exact (joinSegments_cons here filled).symm
  · exact flatten_replicate_above filled k

private theorem isRelative_specifier (k : Nat) (rest : List (List Char)) :
    isRelative (String.ofList (specifier k rest)) = true := by
  cases k <;> simp [isRelative, specifier, List.replicate_succ]

private theorem isAbsolute_specifier (k : Nat) (rest : List (List Char)) :
    isAbsolute (specifier k rest) = false := by
  cases k <;> simp [isAbsolute, specifier, List.replicate_succ, slash]

private theorem arePlain_upward (k : Nat) : ArePlain (upward k) := by
  intro segment member
  unfold upward at member
  split at member
  · rw [List.mem_singleton.mp member]
    decide
  · rw [List.eq_of_mem_replicate member]
    decide

private theorem foldl_follow_upward (all : ∀ segment ∈ row, IsName segment) (k : Nat) :
    (upward k).foldl (follow true) row = row.drop k := by
  unfold upward
  split
  · next zero =>
    subst zero
    rfl
  · exact foldl_follow_above all k

/-- A specifier drops names from the directory where it starts, and adds its own. -/
theorem normalize_join_specifier (all : ∀ segment ∈ row, IsName segment)
    (allRest : ∀ segment ∈ rest, IsName segment) (filled : rest ≠ []) (k : Nat) :
    normalize (join (fromRoot row) (specifier k rest)) = fromRoot (row.rdrop k ++ rest) := by
  have plain : ArePlain row := arePlain_of_isName all
  have plainRest : ArePlain (upward k ++ rest) :=
    List.forall_mem_append.mpr ⟨arePlain_upward k, arePlain_of_isName allRest⟩
  have split : segments (specifier k rest) = upward k ++ rest := by
    rw [specifier_eq k filled]
    exact segments_joinSegments (by simp [filled])
      fun segment member => (plainRest segment member).2
  have plainAll : ArePlain (row ++ (upward k ++ rest)) :=
    List.forall_mem_append.mpr ⟨plain, plainRest⟩
  have allBack : ∀ segment ∈ row.reverse, IsName segment :=
    fun segment member => all segment (List.mem_reverse.mp member)
  rw [plain.join_fromRoot (isAbsolute_specifier k rest), split, plainAll.normalize_fromRoot,
    List.foldl_append, List.foldl_append, foldl_follow_names all, List.append_nil,
    foldl_follow_upward allBack, foldl_follow_names allRest, List.reverse_append,
    List.reverse_reverse, ← List.rdrop_eq_reverse_drop_reverse]

private theorem lastSegment_specifier (k : Nat) (row : List (List Char)) (clean : slash ∉ segment) :
    lastSegment (specifier k (row ++ [segment])) = segment := by
  rw [specifier_eq k (by simp), ← List.append_assoc]
  exact lastSegment_joinSegments _ clean

private theorem specifier_append (k : Nat) (row : List (List Char)) (last text : List Char) :
    specifier k (row ++ [last ++ text]) = specifier k (row ++ [last]) ++ text := by
  rw [specifier, joinSegments_concat_append, ← List.append_assoc]
  rfl

end Path

namespace Dependency

open SourceMetrics.Path

variable {R : Type} {working source target : String} {dependency : Value R}
variable {k : Nat} {front row rest : List (List Char)}

/-- A dependency with a specifier means the path that follows the specifier from the directory of
the source, once an extension has been lent to it. The type of the dependency does not matter. -/
theorem check_specifier (all : ∀ segment ∈ front, IsName segment)
    (allRest : ∀ segment ∈ rest, IsName segment) (filled : rest ≠ [])
    (base : directory source.toList = fromRoot front)
    (path : dependency.field "path" = .text (String.ofList (specifier k row)))
    (lent : withExtension (specifier k row) target.toList = specifier k rest) :
    check working (.text source) dependency (.text target) =
      .ok (decide (String.ofList (fromRoot (front.rdrop k ++ rest)) = target)) := by
  have rooted : isAbsolute (join (fromRoot front) (specifier k rest)) = true := by
    rw [(arePlain_of_isName all).join_fromRoot (isAbsolute_specifier k rest)]
    rfl
  have resolved : resolve working source (String.ofList (specifier k row)) target =
      String.ofList (fromRoot (front.rdrop k ++ rest)) := by
    rw [resolve, String.toList_ofList, lent, base, absolute, if_pos rooted,
      normalize_join_specifier all allRest filled]
  rw [check_text, leadsTo, path]
  simp [isRelative_specifier, resolved]

/-- No extension is lent to a path that has the one of the target. -/
theorem withExtension_of_lastSegment {declared target : List Char}
    (same : lastSegment declared = lastSegment target) :
    withExtension declared target = declared := by
  unfold withExtension
  split
  · next bare => rw [← extension_congr same, bare, List.append_nil]
  · rfl

private theorem lastSegment_target {name : List Char} (clean : slash ∉ name)
    (found : String.ofList (fromRoot (front ++ (row ++ [name]))) = target) :
    lastSegment target.toList = name := by
  rw [← found, String.toList_ofList, ← List.append_assoc]
  exact lastSegment_fromRoot _ clean

/-- The extension of a target is lent to what stands before it, unless that has an extension. -/
theorem check_stem {stem : List Char} (all : ∀ segment ∈ front, IsName segment)
    (base : directory source.toList = fromRoot front) (extended : extension target.toList ≠ [])
    (allRest : ∀ segment ∈ row ++ [stem ++ extension target.toList], IsName segment)
    (found : String.ofList
      (fromRoot (front.rdrop k ++ (row ++ [stem ++ extension target.toList]))) = target)
    (isName : IsName stem)
    (path : dependency.field "path" = .text (String.ofList (specifier k (row ++ [stem])))) :
    check working (.text source) dependency (.text target) =
      .ok (decide (extension stem = [])) := by
  have someRest (name : List Char) : row ++ [name] ≠ [] := by simp
  have own : extension (specifier k (row ++ [stem])) = extension stem := by
    apply extension_congr
    rw [lastSegment_specifier k row isName.clean, lastSegment_of_not_mem isName.clean]
  by_cases bare : extension stem = []
  · have lent : withExtension (specifier k (row ++ [stem])) target.toList =
        specifier k (row ++ [stem ++ extension target.toList]) := by
      rw [withExtension, if_pos (own.trans bare), specifier_append]
    rw [check_specifier all allRest (someRest _) base path lent, found, decide_eq_true rfl,
      decide_eq_true bare]
  · have lent : withExtension (specifier k (row ++ [stem])) target.toList =
        specifier k (row ++ [stem]) :=
      if_neg (own.trans_ne bare)
    have allStem : ∀ segment ∈ row ++ [stem], IsName segment := by
      rw [List.forall_mem_append] at allRest ⊢
      exact ⟨allRest.1, List.forall_mem_singleton.mpr isName⟩
    -- The path that is found ends with the stem, and the target ends with more than that.
    have elsewhere : String.ofList (fromRoot (front.rdrop k ++ (row ++ [stem]))) ≠ target := by
      intro same
      have clean := (allRest _ (List.mem_append_right _ List.mem_cons_self)).clean
      have last := lastSegment_target isName.clean same
      rw [lastSegment_target clean found] at last
      exact extended (List.self_eq_append_right.mp last.symm)
    rw [check_specifier all allStem (someRest _) base path lent, decide_eq_false elsewhere,
      decide_eq_false bare]

/-- **Relative specifiers lead back.** Let the directory of a source, without its last names, be on
the way to a target. The path that goes up by these names and down the rest of the way means the
target. If the target has an extension, the path without it means the target exactly if what is left
of the last name has no extension of its own. -/
theorem relative_specifier_leads_back (working : String) {source target : String}
    (normalSource : IsNormal source.toList) (normalTarget : IsNormal target.toList) {k : Nat}
    {rest : List (List Char)} (filled : rest ≠ [])
    (way : (names (directory source.toList)).rdrop k ++ rest = names target.toList) :
    (∀ dependency : Value R, dependency.field "path" = .text (String.ofList (specifier k rest)) →
      check working (.text source) dependency (.text target) = .ok true) ∧
    (extension target.toList ≠ [] → ∃ bare stem,
      specifier k rest = bare ++ extension target.toList ∧
      lastSegment target.toList = stem ++ extension target.toList ∧
      ∀ dependency : Value R, dependency.field "path" = .text (String.ofList bare) →
        check working (.text source) dependency (.text target) =
          .ok (decide (extension stem = []))) := by
  obtain ⟨front, all, base⟩ := normalSource.exists_directory
  obtain ⟨whole, -, allWhole, isTarget⟩ := normalTarget.exists_names
  rw [base, (arePlain_of_isName all).names_fromRoot, isTarget,
    (arePlain_of_isName allWhole).names_fromRoot] at way
  subst way
  have allRest := (List.forall_mem_append.mp allWhole).2
  have found : String.ofList (fromRoot (front.rdrop k ++ rest)) = target := by
    rw [← isTarget, String.ofList_toList]
  obtain ⟨row, name, rfl⟩ := (List.eq_nil_or_concat' rest).resolve_left filled
  have clean : slash ∉ name := (allRest name (List.mem_append_right _ List.mem_cons_self)).clean
  have last := lastSegment_target clean found
  refine ⟨?_, ?_⟩
  · intro dependency path
    have lent := withExtension_of_lastSegment ((lastSegment_specifier k row clean).trans last.symm)
    rw [check_specifier all allRest filled base path lent, found, decide_eq_true rfl]
  · intro extended
    obtain ⟨stem, split, c, member, different⟩ := exists_stem extended
    have parts : name = stem ++ extension target.toList := last.symm.trans split
    rw [parts] at allRest found clean ⊢
    have isName : IsName stem :=
      isName_of_mem member different fun inside => clean (List.mem_append_left _ inside)
    refine ⟨specifier k (row ++ [stem]), stem, specifier_append k row stem _, split, ?_⟩
    intro dependency path
    exact check_stem all base extended allRest found isName path

/-- A dependency whose path has to start at a directory. -/
def required (path : String) : Value Binary64 :=
  make (.text "CommonJS") (.text path) .null

/-- An extension is lent once: to `./b` but not to `./b.min`. -/
theorem relative_specifier_leads_back_siblings :
    check "/" (.text "/p/q/a.js") (required "../../b.js") (.text "/b.js") = .ok true ∧
    check "/" (.text "/p/a.js") (required "./b") (.text "/p/b.js") = .ok true ∧
    check "/" (.text "/p/a.js") (required "./b.min") (.text "/p/b.min.js") = .ok false := by
  refine ⟨?_, ?_, ?_⟩
  · have leads := @relative_specifier_leads_back Binary64 "/" "/p/q/a.js" "/b.js"
      (by decide) (by decide) 2 ["b.js".toList] (by decide) (by decide)
    exact leads.1 _ rfl
  · have leads := @relative_specifier_leads_back Binary64 "/" "/p/a.js" "/p/b.js"
      (by decide) (by decide) 0 ["b.js".toList] (by decide) (by decide)
    obtain ⟨bare, stem, split, last, lent⟩ := leads.2 (by decide)
    have isBare : bare = "./b".toList := List.append_cancel_right (split.symm.trans (by decide))
    have isStem : stem = "b".toList := List.append_cancel_right (last.symm.trans (by decide))
    subst isBare isStem
    exact lent _ rfl
  · have leads := @relative_specifier_leads_back Binary64 "/" "/p/a.js" "/p/b.min.js"
      (by decide) (by decide) 0 ["b.min.js".toList] (by decide) (by decide)
    obtain ⟨bare, stem, split, last, lent⟩ := leads.2 (by decide)
    have isBare : bare = "./b.min".toList := List.append_cancel_right (split.symm.trans (by decide))
    have isStem : stem = "b.min".toList := List.append_cancel_right (last.symm.trans (by decide))
    subst isBare isStem
    exact lent _ rfl

end Dependency

end SourceMetrics
