import ApiContract.Command.Run
import ApiContract.Settings.Basic
import ApiContract.Specification.Loading
/-!
# Selecting a specification

A command names a specification, or leaves it to the settings.  In either
case there has to be exactly one.
-/

namespace ApiContract

/-- The specifications that a command names. -/
structure Selection where
  openapi : Option String
  asyncapi : Option String
deriving DecidableEq, Repr

namespace Selection

/-- The selection, or that of the settings if it is empty. -/
def orConfigured (selection : Selection) (settings : Settings) : Selection :=
  match selection with
  | ⟨none, none⟩ => ⟨settings.openapiSpec, settings.asyncapiSpec⟩
  | selection => selection

/-- The one specification of a selection. -/
def single : Selection → Except CommandFault (Dialect × String)
  | ⟨some path, none⟩ => .ok (.openapi, path)
  | ⟨none, some path⟩ => .ok (.asyncapi, path)
  | ⟨some _, some _⟩ => .error .severalSpecifications
  | ⟨none, none⟩ => .error .noSpecification

/-- Loads the specification of a selection. -/
def load (selection : Selection) (settings : Settings) : Run Specification := do
  match (selection.orConfigured settings).single with
  | .error fault => throw fault
  | .ok (dialect, path) =>
    let session ← get
    let engine : Engine := ⟨settings.validateFormats, session.schedule⟩
    let loading := Specification.load dialect session.files path engine
    let (result, records) := loading.run.run []
    records.forM Run.record
    match result with
    | .ok specification => return specification
    | .error fault => throw (.unloadable dialect path fault)

end Selection

end ApiContract
