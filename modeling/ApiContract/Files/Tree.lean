import ApiContract.Files.Path
import ApiContract.Text.OsText
/-!
# Trees of files

The files that a run can see, held in memory: directories and files under
the names that lead to them from the root of the file system.  A path that
begins with a slash starts there, every other one in the working directory.
Names need not be text, though those in a path are.
-/

namespace ApiContract

/-- Why a file cannot be read or written. -/
inductive FileFault where
  | notFound
  | isDirectory
  | notDirectory
  | notText
deriving DecidableEq, Repr

/-- The wording of a fault. -/
def FileFault.message : FileFault → String
  | notFound => "No such file or directory (os error 2)"
  | isDirectory => "Is a directory (os error 21)"
  | notDirectory => "Not a directory (os error 20)"
  | notText => "stream did not contain valid UTF-8"

/-- What a path leads to. -/
inductive FileEntry where
  | directory
  | file (content : List UInt8)
deriving DecidableEq

/-- Directories and files, each under the names that lead to it from the root,
and the working directory. -/
structure FileTree where
  entries : List (List OsText × FileEntry)
  working : List OsText

namespace FileTree

/-- What is found under names.  The root is always there. -/
def at? (tree : FileTree) (names : List OsText) : Option FileEntry :=
  if names.isEmpty then some .directory else tree.entries.lookup names

/-- The tree with an entry under names, in place of the one that is there. -/
def put (tree : FileTree) (names : List OsText) (entry : FileEntry) : FileTree :=
  { tree with entries := (names, entry) :: tree.entries.filter fun (key, _) => key ≠ names }

/-- The tree with directories at the names and above them, where nothing is
yet. -/
def withDirectories (tree : FileTree) (names : List OsText) : FileTree :=
  ((List.range (names.length + 1)).map names.take).foldl
    (fun tree above => if (tree.at? above).isNone then tree.put above .directory else tree)
    tree

/-- The tree of an empty working directory. -/
def empty (working : List OsText) : FileTree := withDirectories ⟨[], working⟩ working

/-- The names that segments lead to, from the names of a directory.  Only
the last of them may lead to nothing.  Above the root is the root. -/
def descend (tree : FileTree) : List OsText → List String → Except FileFault (List OsText)
  | names, [] => .ok names
  | names, segment :: rest =>
    match tree.at? names with
    | none => .error .notFound
    | some (.file _) => .error .notDirectory
    | some .directory =>
      if segment = "" || segment = "." then descend tree names rest
      else if segment = ".." then descend tree names.dropLast rest
      else descend tree (names ++ [.text segment]) rest

/-- The names that a path leads to. -/
def names (tree : FileTree) (path : String) : Except FileFault (List OsText) :=
  if path = "" then .error .notFound
  else tree.descend (if path.startsWith "/" then [] else tree.working) (Files.segments path)

/-- What a path leads to. -/
def find (tree : FileTree) (path : String) : Except FileFault FileEntry := do
  match tree.at? (← tree.names path) with
  | some entry => .ok entry
  | none => .error .notFound

/-- Whether a path leads to a directory. -/
def isDirectory (tree : FileTree) (path : String) : Bool :=
  match tree.find path with
  | .ok .directory => true
  | _ => false

/-- The content of a file. -/
def read (tree : FileTree) (path : String) : Except FileFault (List UInt8) := do
  match ← tree.find path with
  | .file content => .ok content
  | .directory => .error .isDirectory

/-- The content of a file that is text. -/
def readText (tree : FileTree) (path : String) : Except FileFault String := do
  match Utf8.decode? (← tree.read path) with
  | some text => .ok text
  | none => .error .notText

/-- The names in a directory and what they lead to, in no order that matters. -/
def list (tree : FileTree) (path : String) : Except FileFault (List (OsText × FileEntry)) := do
  let names ← tree.names path
  match tree.at? names with
  | none => .error .notFound
  | some (.file _) => .error .notDirectory
  | some .directory =>
    .ok (tree.entries.filterMap fun (key, entry) =>
      match key.reverse with
      | name :: above => if above.reverse = names then some (name, entry) else none
      | [] => none)

/-- The tree with a file written at a path.  Its directory must be there. -/
def write (tree : FileTree) (path : String) (content : List UInt8) :
    Except FileFault FileTree := do
  let names ← tree.names path
  match tree.at? names, tree.at? names.dropLast with
  | some .directory, _ => .error .isDirectory
  | _, some .directory =>
    if path.endsWith "/" then .error .isDirectory
    else .ok (tree.put names (.file content))
  | _, some (.file _) => .error .notDirectory
  | _, none => .error .notFound

/-- The files of a tree that are not in another, or not the same there. -/
def filesBeyond (tree other : FileTree) : List (List OsText × List UInt8) :=
  tree.entries.filterMap fun (names, entry) =>
    match entry with
    | .directory => none
    | .file content =>
      if other.at? names = some entry then none else some (names, content)

/-- The tree with an entry put under names below the working directory, and
directories above it. -/
def add (tree : FileTree) (names : List OsText) (entry : FileEntry) : FileTree :=
  let place := tree.working ++ names
  let tree := tree.withDirectories place.dropLast
  match entry with
  | .directory => tree.withDirectories place
  | .file _ => tree.put place entry

end FileTree

end ApiContract
