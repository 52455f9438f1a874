import ApiContract.Text.Ascii
/-!
# Paths of files

A path is a text of segments between slashes.  Empty segments and segments
`.` say nothing, except a `.` that the path begins with.
-/

namespace ApiContract.Files

/-- The segments of a path, as they are written. -/
def segments (path : String) : List String :=
  (Ascii.splitOn '/' path.toList).map String.ofList

/-- Whether a segment says nothing where it stands. -/
def isIdle (first : Bool) (segment : String) : Bool :=
  segment = "" || (segment = "." && !first)

/-- The segments without the idle ones at the end; they are given in
reverse. -/
def dropIdle : List String → List String
  | [] => []
  | segment :: rest => if isIdle rest.isEmpty segment then dropIdle rest else segment :: rest

/-- The directory that a path lies in, as far as the path says. -/
def parent (path : String) : String :=
  let kept := (dropIdle ((dropIdle (segments path).reverse).drop 1)).reverse
  let text := "/".intercalate kept
  if path.startsWith "/" then
    if text.startsWith "/" then text else "/" ++ text
  else text

/-- The path of `name` in a directory. -/
def join (directory name : String) : String :=
  if directory = "" then name
  else if directory.endsWith "/" then directory ++ name
  else directory ++ "/" ++ name

/-- The ending of a file's name, from behind its last dot.  A name whose
only dot is its first character has none. -/
def extension? (name : String) : Option String :=
  let reversed := name.toList.reverse
  match reversed.dropWhile (· ≠ '.') with
  | [] => none
  | ['.'] => none
  | _ => some (String.ofList (reversed.takeWhile (· ≠ '.')).reverse)

end ApiContract.Files
