import SourceMetrics.Path.Basic

/-!
# Normal paths

Two paths may differ only in empty segments, in segments `.` for the same directory, and in segments
`..` that take back the segment before them. The normal form leaves all of these out. Slashes at the
start are kept: one for the root, and two if there are exactly two.
-/

namespace SourceMetrics.Path

/-- The segment for the directory itself. -/
def here : List Char := ['.']

/-- The segment for the directory above. -/
def above : List Char := ['.', '.']

/-- The number of slashes that a normal path starts with. -/
def leading : List Char → Nat
  | '/' :: '/' :: '/' :: _ => 1
  | '/' :: '/' :: _ => 2
  | '/' :: _ => 1
  | _ => 0

/-- Follow a segment from a directory, which is given by its segments, the last one first. There is
nothing above the root; above the start of another path there is `..`. -/
def follow (rooted : Bool) (place : List (List Char)) (segment : List Char) : List (List Char) :=
  if segment = [] || segment = here then place
  else if segment ≠ above then segment :: place
  else
    match place with
    | [] => if rooted then [] else [above]
    | last :: rest => if last = above then above :: place else rest

/-- The segments of the normal form of a path. -/
def normalSegments (rooted : Bool) (path : List Char) : List (List Char) :=
  ((segments path).foldl (follow rooted) []).reverse

/-- The normal form of a path; the directory itself if nothing else is left. -/
def normalize (path : List Char) : List Char :=
  let lead := leading path
  let result := List.replicate lead slash ++ joinSegments (normalSegments (0 < lead) path)
  if result.isEmpty then here else result

/-- The normal form of a path from the root, when it is read in a working directory. -/
def absolute (working path : List Char) : List Char :=
  normalize (if isAbsolute path then path else join working path)

end SourceMetrics.Path
