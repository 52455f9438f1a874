import ApiContract.Text.Quoted
/-!
# Log records

What a run reports beside its results: records of a level, with a message
and named fields.
-/

namespace ApiContract

/-- How important a record is. -/
inductive LogLevel where
  | error
  | warn
  | info
  | debug
deriving DecidableEq, Repr

namespace LogLevel

/-- The name of a level. -/
def name : LogLevel → String
  | error => "ERROR"
  | warn => "WARN"
  | info => "INFO"
  | debug => "DEBUG"

/-- How many steps of verbosity show a level. -/
def verbosity : LogLevel → Nat
  | error => 0
  | warn => 0
  | info => 1
  | debug => 2

end LogLevel

/-- A record; the values of its fields are texts as they are shown. -/
structure LogRecord where
  level : LogLevel
  message : String
  fields : List (String × String)
deriving DecidableEq, Repr

/-- The line of a record. -/
def LogRecord.line (record : LogRecord) : String :=
  " ".intercalate ([record.level.name, record.message] ++
    record.fields.map fun (name, value) => name ++ "=" ++ value)

/-- Records in the order in which they were made. -/
abbrev Log : Type := List LogRecord

/-- A computation that makes records. -/
abbrev Logged : Type → Type := StateM Log

namespace Logged

/-- Makes a record. -/
def add (level : LogLevel) (message : String) (fields : List (String × String)) : Logged Unit :=
  modify (· ++ [⟨level, message, fields⟩])

end Logged

end ApiContract
