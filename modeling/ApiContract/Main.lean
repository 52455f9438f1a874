import ApiContract.CommandLine.Program
/-!
# Entry point

Takes the files below the working directory and the variables of the
environment, runs the program, prints what is to be seen, and writes the
files that have changed.  No connection is opened: to a run, the service
drops every one.
-/

namespace ApiContract.Main

/-- How deep directories are searched. -/
def searchDepth : Nat := 64

/-- The names in a path. -/
def namesIn (path : String) : List OsText :=
  ((Files.segments path).filter (· ≠ "")).map .text

/-- The path of names from the root, if all of them are text. -/
def pathOf? (names : List OsText) : Option String :=
  (names.mapM OsText.text?).map fun texts => "/" ++ "/".intercalate texts

/-- The tree with the files below a place in the working directory. -/
def gather (tree : FileTree) (place : List String) : (depth : Nat) → IO FileTree
  | 0 => return tree
  | depth + 1 => do
    let directory := place.foldl (· / ·) (← IO.currentDir)
    (← directory.readDir).foldlM (fun tree entry => do
      let names := place ++ [entry.fileName]
      if ← entry.path.isDir then gather (tree.add (names.map .text) .directory) names depth
      else
        try
          let content ← IO.FS.readBinFile entry.path
          return tree.add (names.map .text) (.file content.toList)
        catch _ => return tree) tree

/-- The variables that are set. -/
def environment : IO Settings.Environment := do
  let values ← Settings.variableNames.mapM fun name => return (name, ← IO.getEnv name)
  return Entries.ofList
    (values.filterMap fun (name, value) => value.map fun text => (name, .text text))

/-- The exit code of a process that is stopped because its run has no end. -/
def exitAborted : Nat := 134

/-- Runs the program in its surroundings. -/
def run (arguments : List String) : IO UInt32 := do
  let files ← gather (.empty (namesIn (← IO.currentDir).toString)) [] searchDepth
  let session : Session := ⟨files, .answering [], [], fun _ => .asNoted⟩
  let result := Program.run arguments (← environment) session
  result.lines.forM IO.println
  (result.session.files.filesBeyond files).forM fun (names, content) =>
    match pathOf? names with
    | some path => IO.FS.writeBinFile path ⟨content.toArray⟩
    | none => pure ()
  return (result.code.getD exitAborted).toUInt32

end ApiContract.Main

def main (arguments : List String) : IO UInt32 := ApiContract.Main.run arguments
