import Mathlib.Data.List.DropRight
import SourceMetrics.Path.Normal

/-! # Paths as rows of names

A normal path from the root is the row of names that lead to it (`IsNormal.exists_names`), so that
going to its directory drops the last name (`directory_anchored`), joining a path to it appends
segments (`join_anchored`), and taking the normal form follows the segments one by one
(`normalize_anchored`): a name is added, and `..` drops the name before it. This does not depend on
whether the path starts with one slash (`fromRoot`) or with two.
-/

namespace SourceMetrics.Path

variable {segment path : List Char} {row : List (List Char)}

private theorem segments_of_not_mem (clean : slash ∉ segment) : segments segment = [segment] := by
  induction segment with
  | nil => rfl
  | cons c rest ih =>
    rw [List.mem_cons, not_or] at clean
    rw [segments, if_neg (Ne.symm clean.1), ih clean.2]

/-- A slash separates the segments on its left from those on its right. -/
theorem segments_append_slash (first rest : List Char) :
    segments (first ++ slash :: rest) = segments first ++ segments rest := by
  induction first with
  | nil => simp [segments]
  | cons c first ih =>
    by_cases isSlash : c = slash
    · simp [segments, isSlash, ih]
    · cases found : segments first with
      | nil => exact absurd found (segments_ne_nil first)
      | cons segment others => simp [segments, isSlash, ih, found]

/-- Segments are joined with a slash between them. -/
theorem joinSegments_cons (segment : List Char) (filled : row ≠ []) :
    joinSegments (segment :: row) = segment ++ slash :: joinSegments row := by
  cases row with
  | nil => exact absurd rfl filled
  | cons second more => rfl

private theorem joinSegments_append {first rest : List (List Char)} (someFirst : first ≠ [])
    (someRest : rest ≠ []) :
    joinSegments (first ++ rest) = joinSegments first ++ slash :: joinSegments rest := by
  induction first with
  | nil => exact absurd rfl someFirst
  | cons segment others ih =>
    rw [List.cons_append]
    cases others with
    | nil => exact joinSegments_cons segment someRest
    | cons second more =>
      have someMore : second :: more ++ rest ≠ [] := List.cons_ne_nil _ _
      rw [joinSegments_cons segment someMore, ih (List.cons_ne_nil _ _),
        joinSegments_cons segment (List.cons_ne_nil _ _), List.append_assoc, List.cons_append]

/-- Segments can be told apart again after they have been joined. -/
theorem segments_joinSegments (filled : row ≠ []) (clean : ∀ segment ∈ row, slash ∉ segment) :
    segments (joinSegments row) = row := by
  induction row with
  | nil => exact absurd rfl filled
  | cons segment others ih =>
    rw [List.forall_mem_cons] at clean
    cases others with
    | nil => exact segments_of_not_mem clean.1
    | cons second more =>
      rw [joinSegments_cons segment (List.cons_ne_nil _ _), segments_append_slash,
        segments_of_not_mem clean.1, ih (List.cons_ne_nil _ _) clean.2, List.singleton_append]

/-- A text appended to joined segments goes to the last one. -/
theorem joinSegments_concat_append (row : List (List Char)) (last text : List Char) :
    joinSegments (row ++ [last ++ text]) = joinSegments (row ++ [last]) ++ text := by
  cases row with
  | nil => rfl
  | cons first others =>
    rw [joinSegments_append (List.cons_ne_nil _ _) (List.cons_ne_nil _ _),
      joinSegments_append (List.cons_ne_nil _ _) (List.cons_ne_nil _ _), List.append_assoc]
    rfl

/-- What follows a path does not make it absolute or relative. -/
theorem isAbsolute_append (filled : path ≠ []) (more : List Char) :
    isAbsolute (path ++ more) = isAbsolute path := by
  cases path with
  | nil => exact absurd rfl filled
  | cons c rest => rfl

section LastMark

variable {mark : Char} {after : List Char} (last : mark ∉ after)

include last

private theorem forall_ne_of_not_mem : ∀ c ∈ after.reverse, decide (c ≠ mark) = true := by
  intro c member
  exact decide_eq_true (ne_of_mem_of_not_mem (List.mem_reverse.mp member) last)

private theorem takeWhile_reverse (before : List Char) :
    (before ++ mark :: after).reverse.takeWhile (· ≠ mark) = after.reverse := by
  rw [List.reverse_append, List.reverse_cons, List.append_assoc,
    List.takeWhile_append_of_pos (forall_ne_of_not_mem last)]
  simp

private theorem dropWhile_reverse (before : List Char) :
    (before ++ mark :: after).reverse.dropWhile (· ≠ mark) = mark :: before.reverse := by
  rw [List.reverse_append, List.reverse_cons, List.append_assoc,
    List.dropWhile_append_of_pos (forall_ne_of_not_mem last)]
  simp

end LastMark

private theorem lastSegment_append_slash (first : List Char) (clean : slash ∉ segment) :
    lastSegment (first ++ slash :: segment) = segment := by
  rw [lastSegment, takeWhile_reverse clean, List.reverse_reverse]

private theorem upToSlash_append_slash (first : List Char) (clean : slash ∉ segment) :
    upToSlash (first ++ slash :: segment) = first ++ [slash] := by
  rw [upToSlash, dropWhile_reverse clean, List.reverse_cons, List.reverse_reverse]

/-- A path without a slash is its own last segment. -/
theorem lastSegment_of_not_mem (clean : slash ∉ segment) : lastSegment segment = segment := by
  rw [lastSegment, List.takeWhile_eq_self_iff.mpr (forall_ne_of_not_mem clean),
    List.reverse_reverse]

/-- The last one of the segments that are joined is the last segment of the path. -/
theorem lastSegment_joinSegments (row : List (List Char)) (clean : slash ∉ segment) :
    lastSegment (joinSegments (row ++ [segment])) = segment := by
  cases row with
  | nil => exact lastSegment_of_not_mem clean
  | cons first others =>
    rw [joinSegments_append (List.cons_ne_nil _ _) (List.cons_ne_nil _ _)]
    exact lastSegment_append_slash _ clean

/-- The last segment ends the segments of a path. -/
theorem exists_segments_eq (path : List Char) :
    ∃ row, segments path = row ++ [lastSegment path] := by
  obtain ⟨row, segment, split⟩ :=
    (List.eq_nil_or_concat' (segments path)).resolve_left (segments_ne_nil path)
  have clean : slash ∉ segment := by
    apply slash_not_mem_of_mem_segments
    rw [split]
    exact List.mem_append_right _ List.mem_cons_self
  have last : lastSegment path = segment := by
    rw [← joinSegments_segments path, split]
    exact lastSegment_joinSegments row clean
  exact ⟨row, by rw [last, split]⟩

/-- The last segment of a path does not depend on what stands before a slash. -/
theorem lastSegment_append (first rest : List Char) :
    lastSegment (first ++ slash :: rest) = lastSegment rest := by
  obtain ⟨row, split⟩ := exists_segments_eq (first ++ slash :: rest)
  obtain ⟨more, splitRest⟩ := exists_segments_eq rest
  rw [segments_append_slash, splitRest, ← List.append_assoc] at split
  exact (List.append_singleton_inj.mp split).2.symm

/-- The extension is a matter of the last segment. -/
theorem extension_congr {other : List Char} (same : lastSegment path = lastSegment other) :
    extension path = extension other := by
  rw [extension, extension, same]

/-- What stands before an extension is more than dots. -/
theorem exists_stem (extended : extension path ≠ []) :
    ∃ stem, lastSegment path = stem ++ extension path ∧ ∃ c ∈ stem, c ≠ '.' := by
  by_cases dotted : ((lastSegment path).contains '.' &&
      (beforeDot (lastSegment path)).any (· ≠ '.')) = true
  · have shape : extension path = '.' :: afterDot (lastSegment path) := if_pos dotted
    rw [Bool.and_eq_true, List.contains_iff_mem, List.any_eq_true] at dotted
    obtain ⟨dot, c, member, different⟩ := dotted
    obtain ⟨after, before, split, last⟩ := List.eq_append_cons_of_mem (List.mem_reverse.mpr dot)
    have whole : lastSegment path = before.reverse ++ '.' :: after.reverse := by
      rw [← List.reverse_reverse (lastSegment path), split]
      simp
    have clean : '.' ∉ after.reverse := fun member => last (List.mem_reverse.mp member)
    refine ⟨before.reverse, ?_, c, ?_, by simpa using different⟩
    · rw [shape, whole, afterDot, takeWhile_reverse clean, List.reverse_reverse]
    · rw [whole, beforeDot, dropWhile_reverse clean] at member
      simpa using member
  · exact absurd (if_neg dotted) extended

/-- A segment that is the name of something in a directory. -/
structure IsName (segment : List Char) : Prop where
  filled : segment ≠ []
  notHere : segment ≠ here
  notAbove : segment ≠ above
  clean : slash ∉ segment

section Follow

variable {rooted : Bool} {place : List (List Char)}

/-- A name leads one level down. -/
theorem follow_name (name : IsName segment) : follow rooted place segment = segment :: place := by
  simp [follow, name.filled, name.notHere, name.notAbove]

/-- Names lead down one after the other. -/
theorem foldl_follow_names (all : ∀ segment ∈ row, IsName segment) :
    row.foldl (follow rooted) place = row.reverse ++ place := by
  induction row generalizing place with
  | nil => rfl
  | cons segment rest ih =>
    rw [List.forall_mem_cons] at all
    rw [List.foldl_cons, follow_name all.1, ih all.2, List.reverse_cons, List.append_assoc,
      List.singleton_append]

/-- Steps up leave the innermost names, and end at the root. -/
theorem foldl_follow_above (all : ∀ segment ∈ place, IsName segment) (k : Nat) :
    (List.replicate k above).foldl (follow true) place = place.drop k := by
  induction k generalizing place with
  | zero => rfl
  | succ k ih =>
    rw [List.replicate_succ, List.foldl_cons]
    cases place with
    | nil => simpa [follow, above, here] using ih all
    | cons last rest =>
      rw [List.forall_mem_cons] at all
      have dropped : follow true (last :: rest) above = rest := by
        simp [follow, above, here, show last ≠ ['.', '.'] from all.1.notAbove]
      rw [dropped, ih all.2, List.drop_succ_cons]

private theorem isName_of_mem_follow (all : ∀ segment ∈ place, IsName segment)
    (clean : slash ∉ segment) : ∀ name ∈ follow true place segment, IsName name := by
  unfold follow
  split
  · exact all
  · next stays =>
    simp only [Bool.or_eq_true, decide_eq_true_eq, not_or] at stays
    split
    · next goes => exact List.forall_mem_cons.mpr ⟨⟨stays.1, stays.2, goes, clean⟩, all⟩
    · cases place with
      | nil => exact all
      | cons last rest =>
        rw [List.forall_mem_cons] at all
        simp only [if_neg all.1.notAbove]
        exact all.2

/-- From a place that is given by names, a row of segments leads to a place given by names. -/
theorem isName_of_mem_foldl (clean : ∀ segment ∈ row, slash ∉ segment)
    (all : ∀ segment ∈ place, IsName segment) :
    ∀ segment ∈ row.foldl (follow true) place, IsName segment := by
  induction row generalizing place with
  | nil => exact all
  | cons segment rest ih =>
    rw [List.forall_mem_cons] at clean
    exact ih clean.2 (isName_of_mem_follow all clean.1)

/-- Nothing but names is left of a path from the root. -/
theorem isName_of_mem_normalSegments (path : List Char) :
    ∀ segment ∈ normalSegments true path, IsName segment := by
  intro segment member
  exact isName_of_mem_foldl (fun _ => slash_not_mem_of_mem_segments) (List.forall_mem_nil _) segment
    (List.mem_reverse.mp member)

end Follow

/-- A segment that is more than dots is a name. -/
theorem isName_of_mem {c : Char} (member : c ∈ segment) (different : c ≠ '.')
    (clean : slash ∉ segment) : IsName segment where
  filled := List.ne_nil_of_mem member
  notHere := by
    rintro rfl
    exact different (List.mem_singleton.mp member)
  notAbove := by
    rintro rfl
    exact different (List.eq_of_mem_replicate (n := 2) member)
  clean := clean

/-- The path to which a row of segments leads from the root. -/
def fromRoot (row : List (List Char)) : List Char :=
  slash :: joinSegments row

/-- The names that a path goes through. -/
def names (path : List Char) : List (List Char) :=
  (segments path).filter (· ≠ [])

/-- The path to which a row of segments leads after a number of slashes. -/
def anchored (lead : Nat) (row : List (List Char)) : List Char :=
  List.replicate lead slash ++ joinSegments row

theorem anchored_one (row : List (List Char)) : anchored 1 row = fromRoot row := rfl

private theorem segments_replicate (lead : Nat) (text : List Char) :
    segments (List.replicate lead slash ++ text) = List.replicate lead [] ++ segments text := by
  induction lead with
  | zero => rfl
  | succ lead ih =>
    rw [List.replicate_succ, List.replicate_succ, List.cons_append, List.cons_append, segments,
      if_pos rfl, ih]

/-- Segments that are added to a path stand after a slash. -/
theorem anchored_append (lead : Nat) {rest : List (List Char)} (filled : row ≠ [])
    (someRest : rest ≠ []) :
    anchored lead (row ++ rest) = anchored lead row ++ slash :: joinSegments rest := by
  rw [anchored, joinSegments_append filled someRest, ← List.append_assoc]
  rfl

/-- The last segment of a path from the root. -/
theorem lastSegment_fromRoot (row : List (List Char)) (clean : slash ∉ segment) :
    lastSegment (fromRoot (row ++ [segment])) = segment := by
  have started : fromRoot (row ++ [segment]) = joinSegments ([] :: row ++ [segment]) :=
    (joinSegments_cons [] (List.append_ne_nil_of_right_ne_nil _ (List.cons_ne_nil _ _))).symm
  rw [started]
  exact lastSegment_joinSegments _ clean

/-- Segments that are neither empty nor divided by a slash. -/
def ArePlain (row : List (List Char)) : Prop :=
  ∀ segment ∈ row, segment ≠ [] ∧ slash ∉ segment

/-- Names are plain segments. -/
theorem arePlain_of_isName (all : ∀ segment ∈ row, IsName segment) : ArePlain row :=
  fun segment member => ⟨(all segment member).filled, (all segment member).clean⟩

namespace ArePlain

variable (plain : ArePlain row)

include plain

private theorem names_anchored (lead : Nat) : names (anchored lead row) = row := by
  have every : row.filter (· ≠ []) = row := by
    rw [List.filter_eq_self]
    intro segment member
    exact decide_eq_true (plain segment member).1
  have blanks : (List.replicate lead ([] : List Char)).filter (· ≠ []) = [] := by simp
  rw [names, anchored, segments_replicate, List.filter_append, blanks, List.nil_append]
  by_cases empty : row = []
  · subst empty
    rfl
  · rw [segments_joinSegments empty fun segment member => (plain segment member).2]
    exact every

/-- The names on a path from the root are its plain segments. -/
theorem names_fromRoot : names (fromRoot row) = row :=
  plain.names_anchored 1

/-- Plain segments are joined to a relative path. -/
theorem isAbsolute_joinSegments : isAbsolute (joinSegments row) = false := by
  cases row with
  | nil => rfl
  | cons segment others =>
    obtain ⟨filled, clean⟩ := plain segment List.mem_cons_self
    cases segment with
    | nil => exact absurd rfl filled
    | cons c rest =>
      rw [List.mem_cons, not_or] at clean
      cases others <;> simpa [isAbsolute, joinSegments] using Ne.symm clean.1

/-- Joined segments do not end with a slash. -/
theorem exists_joinSegments_concat (filled : row ≠ []) :
    ∃ front c, joinSegments row = front ++ [c] ∧ c ≠ slash := by
  obtain ⟨others, segment, rfl⟩ := (List.eq_nil_or_concat' row).resolve_left filled
  obtain ⟨someLast, clean⟩ := plain segment (List.mem_append_right _ List.mem_cons_self)
  obtain ⟨front, c, rfl⟩ := (List.eq_nil_or_concat' segment).resolve_left someLast
  refine ⟨joinSegments (others ++ [front]), c, joinSegments_concat_append others front [c], ?_⟩
  rintro rfl
  exact clean (List.mem_append_right _ List.mem_cons_self)

/-- Plain segments are joined with those of a relative path to a relative path. -/
theorem isAbsolute_joinSegments_append (relative : isAbsolute path = false) :
    isAbsolute (joinSegments (row ++ segments path)) = false := by
  by_cases empty : row = []
  · subst empty
    rw [List.nil_append, joinSegments_segments]
    exact relative
  · obtain ⟨front, c, ends, -⟩ := plain.exists_joinSegments_concat empty
    have someText : joinSegments row ≠ [] := by
      rw [ends]
      exact List.append_ne_nil_of_right_ne_nil _ (List.cons_ne_nil _ _)
    rw [joinSegments_append empty (segments_ne_nil path), isAbsolute_append someText]
    exact plain.isAbsolute_joinSegments

/-- Neither plain segments nor those of a path have slashes. -/
theorem slash_not_mem_append (path : List Char) :
    ∀ segment ∈ row ++ segments path, slash ∉ segment :=
  List.forall_mem_append.mpr
    ⟨fun segment member => (plain segment member).2, fun _ => slash_not_mem_of_mem_segments⟩

/-- A path from the root ends with a slash only if there is no segment. -/
theorem exists_anchored_concat (filled : row ≠ []) (lead : Nat) :
    ∃ front c, anchored lead row = front ++ [c] ∧ c ≠ slash := by
  obtain ⟨front, c, ends, different⟩ := plain.exists_joinSegments_concat filled
  refine ⟨List.replicate lead slash ++ front, c, ?_, different⟩
  rw [anchored, ends, List.append_assoc]

/-- Paths with the same slashes before them are equal only if their segments are. -/
theorem anchored_inj {others : List (List Char)} (plainToo : ArePlain others) (lead : Nat) :
    anchored lead row = anchored lead others ↔ row = others := by
  constructor
  · intro same
    rw [← plain.names_anchored lead, same, plainToo.names_anchored]
  · rintro rfl
    rfl

/-- A path that does not start at the root continues the row of segments. -/
theorem join_anchored {lead : Nat} (slashes : lead ≠ 0) (relative : isAbsolute path = false) :
    join (anchored lead row) path = anchored lead (row ++ segments path) := by
  by_cases empty : row = []
  · subst empty
    obtain ⟨count, rfl⟩ := Nat.exists_eq_succ_of_ne_zero slashes
    simp [join, relative, anchored, joinSegments, joinSegments_segments, List.replicate_succ']
  · obtain ⟨front, c, ends, different⟩ := plain.exists_anchored_concat empty lead
    rw [anchored_append lead empty (segments_ne_nil path), joinSegments_segments, ends]
    simp [join, relative, different]

/-- A relative path is joined to a path from the root by its segments. -/
theorem join_fromRoot (relative : isAbsolute path = false) :
    join (fromRoot row) path = fromRoot (row ++ segments path) :=
  plain.join_anchored Nat.one_ne_zero relative

end ArePlain

/-- One or two slashes before a relative path are the leading ones. -/
theorem leading_replicate {lead : Nat} (leads : lead = 1 ∨ lead = 2)
    (relative : isAbsolute path = false) : leading (List.replicate lead slash ++ path) = lead := by
  cases path with
  | nil => rcases leads with rfl | rfl <;> rfl
  | cons c rest =>
    have different : c ≠ slash := by simpa [isAbsolute] using relative
    rcases leads with rfl | rfl <;>
      simp [leading, slash, List.replicate_succ, show c ≠ '/' from different]

/-- An absolute path keeps its leading slashes in its normal form. -/
theorem normalize_of_leading {lead : Nat} (leads : leading path = lead + 1) :
    normalize path = anchored (lead + 1) (normalSegments true path) := by
  rw [normalize, leads]
  simp [anchored, List.replicate_succ]

/-- The normal form of a path from the root is found by following its segments. -/
theorem normalize_anchored {lead : Nat} (leads : lead = 1 ∨ lead = 2)
    (clean : ∀ segment ∈ row, slash ∉ segment) (relative : isAbsolute (joinSegments row) = false) :
    normalize (anchored lead row) = anchored lead (row.foldl (follow true) []).reverse := by
  have started : leading (anchored lead row) = lead := leading_replicate leads relative
  have stays (count : Nat) : (List.replicate count []).foldl (follow true) [] = [] := by
    induction count with
    | zero => rfl
    | succ count ih => exact ih
  have followed : normalSegments true (anchored lead row) =
      (row.foldl (follow true) []).reverse := by
    rw [normalSegments, anchored, segments_replicate, List.foldl_append, stays]
    by_cases empty : row = []
    · subst empty
      rfl
    · rw [segments_joinSegments empty clean]
  rcases leads with rfl | rfl
  · rw [normalize_of_leading started, followed]
  · rw [normalize_of_leading started, followed]

/-- The normal form of a path from the root is found by following its segments. -/
theorem ArePlain.normalize_fromRoot (plain : ArePlain row) :
    normalize (fromRoot row) = fromRoot (row.foldl (follow true) []).reverse :=
  normalize_anchored (.inl rfl) (fun segment member => (plain segment member).2)
    plain.isAbsolute_joinSegments

/-- The directory of a path is reached without the last segment. -/
theorem ArePlain.directory_anchored (plain : ArePlain (row ++ [segment])) {lead : Nat}
    (slashes : lead ≠ 0) : directory (anchored lead (row ++ [segment])) = anchored lead row := by
  have clean : slash ∉ segment := (plain segment (List.mem_append_right _ List.mem_cons_self)).2
  by_cases empty : row = []
  · subst empty
    obtain ⟨count, rfl⟩ := Nat.exists_eq_succ_of_ne_zero slashes
    have split : anchored (count + 1) ([] ++ [segment]) =
        List.replicate count slash ++ slash :: segment := by
      simp [anchored, joinSegments, List.replicate_succ']
    have head : upToSlash (anchored (count + 1) ([] ++ [segment])) = anchored (count + 1) [] := by
      rw [split, upToSlash_append_slash _ clean]
      simp [anchored, joinSegments, List.replicate_succ']
    rw [directory, head]
    simp [anchored, joinSegments]
  · have front : ArePlain row := fun segment member => plain segment (List.mem_append_left _ member)
    obtain ⟨start, c, ends, different⟩ := front.exists_anchored_concat empty lead
    have head : upToSlash (anchored lead (row ++ [segment])) = start ++ [c] ++ [slash] := by
      rw [anchored_append _ empty (List.cons_ne_nil _ _), joinSegments,
        upToSlash_append_slash _ clean, ends]
    rw [directory, head, ends]
    simp [dropSlashes, different]

/-- The directory of a path from the root is the path without its last segment. -/
theorem ArePlain.directory_fromRoot (plain : ArePlain (row ++ [segment])) :
    directory (fromRoot (row ++ [segment])) = fromRoot row :=
  plain.directory_anchored Nat.one_ne_zero

/-- A path from the root in its normal form, other than the root. -/
structure IsNormal (path : List Char) : Prop where
  leading : leading path = 1
  normal : normalize path = path
  below : path ≠ [slash]

instance (path : List Char) : Decidable (IsNormal path) :=
  decidable_of_iff (leading path = 1 ∧ normalize path = path ∧ path ≠ [slash])
    ⟨fun ⟨one, same, below⟩ => ⟨one, same, below⟩, fun normal => ⟨normal.1, normal.2, normal.3⟩⟩

/-- Names lead to a path in its normal form. -/
theorem IsNormal.exists_names (normal : IsNormal path) :
    ∃ row, row ≠ [] ∧ (∀ segment ∈ row, IsName segment) ∧ path = fromRoot row := by
  have same : path = fromRoot (normalSegments true path) :=
    normal.normal.symm.trans (normalize_of_leading normal.leading)
  refine ⟨normalSegments true path, ?_, isName_of_mem_normalSegments path, same⟩
  intro empty
  rw [empty] at same
  exact normal.below same

/-- A normal path is absolute. -/
theorem IsNormal.isAbsolute (normal : IsNormal path) : isAbsolute path = true := by
  obtain ⟨row, -, -, rfl⟩ := normal.exists_names
  rfl

/-- The directory of a normal path is a path from the root by names. -/
theorem IsNormal.exists_directory (normal : IsNormal path) :
    ∃ row, (∀ segment ∈ row, IsName segment) ∧ directory path = fromRoot row := by
  obtain ⟨whole, filled, all, rfl⟩ := normal.exists_names
  obtain ⟨row, segment, rfl⟩ := (List.eq_nil_or_concat' whole).resolve_left filled
  exact ⟨row, (List.forall_mem_append.mp all).1, (arePlain_of_isName all).directory_fromRoot⟩

end SourceMetrics.Path
