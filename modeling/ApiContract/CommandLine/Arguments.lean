import ApiContract.Command.Commands
/-!
# Command line arguments

Some options may stand before and after the name of the command, the others
only after it.  An option is written `--name value` or `--name=value`, and
may be given once at either place; the verbosity is a count.  After `--`
there are operands only.
-/

namespace ApiContract

/-- What an option takes. -/
inductive OptionKind where
  /-- Nothing; it is there or not. -/
  | flag
  /-- Nothing; it is counted. -/
  | count
  | text
  /-- A text that is not empty. -/
  | path
  /-- An integer of 64 bits. -/
  | number
deriving DecidableEq, Repr

/-- Options by name. -/
abbrev OptionTable : Type := List (String × OptionKind)

/-- The arguments at one place: the values of the options, flags with an
empty one, the verbosity, and the operands. -/
structure Arguments where
  values : List (String × String)
  verbosity : Nat
  operands : List String
deriving DecidableEq, Repr

namespace Arguments

/-- No arguments. -/
def empty : Arguments := ⟨[], 0, []⟩

/-- The value of an option. -/
def value? (arguments : Arguments) (name : String) : Option String :=
  arguments.values.lookup name

/-- Whether a flag is there. -/
def has (arguments : Arguments) (name : String) : Bool := (arguments.value? name).isSome

/-- Whether a text may be the value of an option. -/
def isFitting : OptionKind → String → Bool
  | .flag, _ => false
  | .count, _ => false
  | .text, _ => true
  | .path, value => !value.isEmpty
  | .number, value => (Unsigned.read (Unsigned.limit 64) value).toOption.isSome

/-- The arguments with the value of an option, which has none yet. -/
def give? (arguments : Arguments) (kind : OptionKind) (name value : String) : Option Arguments :=
  if arguments.has name || !isFitting kind value then none
  else some { arguments with values := (name, value) :: arguments.values }

/-- The arguments with a flag, which is not there yet, or one more count. -/
def mark? (arguments : Arguments) (kind : OptionKind) (name : String) : Option Arguments :=
  match kind with
  | .flag =>
    if arguments.has name then none
    else some { arguments with values := (name, "") :: arguments.values }
  | .count => some { arguments with verbosity := arguments.verbosity + 1 }
  | _ => none

/-- How an argument is written. -/
inductive Form where
  | operandsOnly
  | long (name : String) (value : Option String)
  | short (letters : List Char)
  | operand
deriving DecidableEq, Repr

/-- The form of an argument. -/
def form (argument : String) : Form :=
  match argument.toList with
  | ['-', '-'] => .operandsOnly
  | '-' :: '-' :: rest =>
    .long (String.ofList (rest.takeWhile (· ≠ '=')))
      (match rest.dropWhile (· ≠ '=') with
        | [] => none
        | _ :: value => some (String.ofList value))
  | '-' :: letter :: letters => .short (letter :: letters)
  | _ => .operand

/-- The count that short options stand for; `v` is the only one. -/
def shortCount? (letters : List Char) : Option Nat :=
  if letters.all (· = 'v') then some letters.length else none

/-- Reads the arguments of a place.  Those from the first operand on are left
if `stop`; otherwise operands are collected. -/
def read (table : OptionTable) (stop : Bool) (arguments : Arguments) :
    List String → Option (Arguments × List String)
  | [] => some (arguments, [])
  | argument :: rest =>
    match form argument with
    | .operandsOnly =>
      if stop then none
      else some ({ arguments with operands := arguments.operands ++ rest }, [])
    | .short letters => do
      let count ← shortCount? letters
      read table stop { arguments with verbosity := arguments.verbosity + count } rest
    | .operand =>
      if stop then some (arguments, argument :: rest)
      else read table stop { arguments with operands := arguments.operands ++ [argument] } rest
    | .long name attached =>
      match table.lookup name with
      | none => none
      | some kind =>
        if kind = .flag || kind = .count then
          if attached.isSome then none
          else do read table stop (← arguments.mark? kind name) rest
        else
          match attached, rest with
          | some value, rest => do read table stop (← arguments.give? kind name value) rest
          | none, [] => none
          | none, value :: rest =>
            if form value = .operand then do
              read table stop (← arguments.give? kind name value) rest
            else none

end Arguments

/-- What the command line asks for. -/
structure Invocation where
  verbosity : Nat
  config : Option String
  command : Command
deriving DecidableEq, Repr

namespace Invocation

/-- The options that may stand at both places. -/
def sharedOptions : OptionTable := [("verbose", .count), ("config", .path)]

/-- The options that select a specification. -/
def selectionOptions : OptionTable := [("openapi", .path), ("asyncapi", .path)]

/-- The options of a command, by its name. -/
def commandOptions : List (String × OptionTable) :=
  [("inspect", selectionOptions ++ [("json", .flag)]),
    ("validate", selectionOptions ++ [("schema", .text), ("channel", .text)]),
    ("events", [("asyncapi", .path), ("cases", .path), ("report", .path)]),
    ("probe", [("openapi", .path), ("base-url", .text), ("cases", .path),
      ("timeout-secs", .number), ("report", .path)])]

/-- The selection of a specification, of which there can be one. -/
def selection? (arguments : Arguments) : Option Selection :=
  if arguments.has "openapi" && arguments.has "asyncapi" then none
  else some ⟨arguments.value? "openapi", arguments.value? "asyncapi"⟩

/-- The command of a name with its arguments. -/
def command? (name : String) (arguments : Arguments) : Option Command :=
  if name = "validate" then do
    if arguments.operands.isEmpty || arguments.operands.any (·.isEmpty) then none
    else
      return .validate {
        selection := ← selection? arguments
        schema := ← arguments.value? "schema"
        channel := arguments.value? "channel"
        payloads := arguments.operands }
  else if !arguments.operands.isEmpty then none
  else if name = "inspect" then do
    return .inspect ⟨← selection? arguments, arguments.has "json"⟩
  else if name = "events" then do
    return .events {
      asyncapi := arguments.value? "asyncapi"
      cases := ← arguments.value? "cases"
      report := arguments.value? "report" }
  else if name = "probe" then do
    return .probe {
      openapi := arguments.value? "openapi"
      baseUrl := arguments.value? "base-url"
      cases := ← arguments.value? "cases"
      timeoutSeconds := (arguments.value? "timeout-secs").bind fun value =>
        (Unsigned.read (Unsigned.limit 64) value).toOption
      report := arguments.value? "report" }
  else none

/-- What arguments ask for, if they ask for something.  Behind the name of
the command, shared options replace those before it. -/
def ofArguments (arguments : List String) : Option Invocation := do
  let (before, rest) ← Arguments.read sharedOptions true .empty arguments
  match rest with
  | [] => none
  | name :: rest =>
    let options ← commandOptions.lookup name
    let (after, _) ← Arguments.read (sharedOptions ++ options) false .empty rest
    return {
      verbosity := if after.verbosity = 0 then before.verbosity else after.verbosity
      config := (after.value? "config").or (before.value? "config")
      command := ← command? name after }

end Invocation

end ApiContract
