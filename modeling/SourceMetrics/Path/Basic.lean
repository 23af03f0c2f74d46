/-!
# Paths

A path is a text whose slashes divide it into segments. Nothing here asks whether a file exists:
these are operations on the text alone. They work on characters; the operations on texts that the
library offers are built from them.
-/

namespace SourceMetrics.Path

/-- The character between segments. -/
def slash : Char := '/'

/-- The segments of a path: what stands between its slashes, possibly nothing. There is always one
more segment than there are slashes. -/
def segments : List Char → List (List Char)
  | [] => [[]]
  | c :: rest =>
    if c = slash then [] :: segments rest
    else
      match segments rest with
      | [] => [[c]]
      | first :: others => (c :: first) :: others

/-- Segments with a slash between any two of them. -/
def joinSegments : List (List Char) → List Char
  | [] => []
  | [segment] => segment
  | segment :: rest => segment ++ slash :: joinSegments rest

/-- A path has at least one segment, which may be empty. -/
theorem segments_ne_nil (path : List Char) : segments path ≠ [] := by
  cases path with
  | nil => simp [segments]
  | cons c rest =>
    by_cases isSlash : c = slash
    · simp [segments, isSlash]
    · cases found : segments rest <;> simp [segments, isSlash, found]

/-- Nothing is lost between the segments of a path. -/
theorem joinSegments_segments (path : List Char) : joinSegments (segments path) = path := by
  induction path with
  | nil => rfl
  | cons c rest ih =>
    cases found : segments rest with
    | nil => exact absurd found (segments_ne_nil rest)
    | cons first others =>
      rw [found] at ih
      by_cases isSlash : c = slash
      · subst isSlash
        simp [segments, found, joinSegments, ih]
      · cases others with
        | nil => simpa [segments, isSlash, found, joinSegments] using ih
        | cons second more => simpa [segments, isSlash, found, joinSegments] using ih

/-- There is no slash in a segment. -/
theorem slash_not_mem_of_mem_segments {path segment : List Char}
    (member : segment ∈ segments path) : slash ∉ segment := by
  induction path generalizing segment with
  | nil =>
    have empty : segment = [] := by simpa [segments] using member
    simp [empty]
  | cons c rest ih =>
    cases found : segments rest with
    | nil => exact absurd found (segments_ne_nil rest)
    | cons first others =>
      rw [found] at ih
      by_cases isSlash : c = slash
      · rw [segments, if_pos isSlash, found] at member
        rcases List.mem_cons.mp member with rfl | member
        · simp
        · exact ih member
      · rw [segments, if_neg isSlash, found] at member
        rcases List.mem_cons.mp member with rfl | member
        · have clean := ih (List.mem_cons_self : first ∈ first :: others)
          simpa [Ne.symm isSlash] using clean
        · exact ih (List.mem_cons_of_mem _ member)

/-- Whether a path starts at the root. -/
def isAbsolute (path : List Char) : Bool :=
  path.head? == some slash

/-- The last segment of a path. -/
def lastSegment (path : List Char) : List Char :=
  (path.reverse.takeWhile (· ≠ slash)).reverse

/-- Everything up to the last slash, which is included. -/
def upToSlash (path : List Char) : List Char :=
  (path.reverse.dropWhile (· ≠ slash)).reverse

/-- Drop the slashes at the end. -/
def dropSlashes (path : List Char) : List Char :=
  (path.reverse.dropWhile (· = slash)).reverse

/-- The directory of a path: what stands before its last segment, without the slashes at its end
unless there is nothing else. -/
def directory (path : List Char) : List Char :=
  let head := upToSlash path
  if head.all (· = slash) then head else dropSlashes head

/-- A path below a directory. A path that starts at the root stands for itself. -/
def join (base path : List Char) : List Char :=
  if isAbsolute path then path
  else if base.isEmpty || base.getLast? == some slash then base ++ path
  else base ++ slash :: path

/-- What stands before the last dot of a segment. -/
def beforeDot (segment : List Char) : List Char :=
  ((segment.reverse.dropWhile (· ≠ '.')).drop 1).reverse

/-- What stands after the last dot of a segment. -/
def afterDot (segment : List Char) : List Char :=
  (segment.reverse.takeWhile (· ≠ '.')).reverse

/-- The extension of a path, with its dot: what follows the last dot of the last segment, unless
there are only dots before it. -/
def extension (path : List Char) : List Char :=
  let segment := lastSegment path
  if segment.contains '.' && (beforeDot segment).any (· ≠ '.') then '.' :: afterDot segment
  else []

/-- Whether a path starts at the directory of the module that it stands in, or above. -/
def isRelative (path : String) : Bool :=
  "./".toList.isPrefixOf path.toList || "../".toList.isPrefixOf path.toList

end SourceMetrics.Path
