import ApiContract.CommandLine.Arguments
import ApiContract.Settings.Sources
/-!
# The program

From arguments and environment to an exit code: the settings are resolved,
and the command runs with them.  The code is 0 if everything passed, 1 if
something failed, and 2 if there was nothing to run or the run was cut
short.  A run that has no end has no exit code.
-/

namespace ApiContract.Program

/-- The exit code of an outcome. -/
def exitCode : Outcome → Nat
  | .passed => 0
  | .failed => 1

/-- The exit code of a run that does not come to its end. -/
def exitCutShort : Nat := 2

/-- The session with the record of an error. -/
def withError (session : Session) (message : String) : Session :=
  session.withShown [.record ⟨.error, message, []⟩]

/-- The exit code of an invocation, and the session after it. -/
def runInvocation (invocation : Invocation) (environment : Settings.Environment)
    (session : Session) : Option Nat × Session :=
  match Settings.resolve session.files invocation.config environment with
  | .error fault => (some exitCutShort, withError session fault.message)
  | .ok settings =>
    let session := session.withShown
      [.record ⟨.debug, "resolved configuration", [("config", settings.description)]⟩]
    match (invocation.command.run settings).run.run.run session with
    | (some (.ok outcome), session) => (some (exitCode outcome), session)
    | (some (.error fault), session) => (some exitCutShort, withError session fault.message)
    | (none, session) => (none, session)

/-- The result of a program. -/
structure Result where
  /-- The exit code, if the program exits. -/
  code : Option Nat
  /-- The lines that are seen. -/
  lines : List String
  session : Session

/-- Runs the program.  With arguments that ask for nothing it shows
nothing. -/
def run (arguments : List String) (environment : Settings.Environment) (session : Session) :
    Result :=
  match Invocation.ofArguments arguments with
  | none => ⟨some exitCutShort, [], session⟩
  | some invocation =>
    let (code, session) := runInvocation invocation environment session
    ⟨code, session.visible invocation.verbosity, session⟩

end ApiContract.Program
