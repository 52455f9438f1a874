import ApiContract.Json.Basic
/-!
# Names of schemas and their resources

A schema is declared under a name and compiled as the resource
`root ++ name`, where the root belongs to the dialect of the contract.  A
reference is a pointer into some document; only its last segment counts,
which is the name of its target.  Names hold no `/` and no `#`, so every
name is the last segment of a reference to it.
-/

namespace ApiContract

/-- Why a text is no schema name. -/
inductive NameFault where
  | empty
  | separator
deriving DecidableEq, Repr

/-- The wording of a fault. -/
def NameFault.reason : NameFault → String
  | empty => "name is empty"
  | separator => "name must not contain '/' or '#'"

/-- A text that was refused as a schema name. -/
structure InvalidName where
  name : String
  fault : NameFault
deriving DecidableEq, Repr

/-- The wording of a refusal. -/
def InvalidName.message (e : InvalidName) : String :=
  "invalid schema name '" ++ e.name ++ "': " ++ e.fault.reason

/-- Whether a character may stand in a schema name. -/
def isNameChar (c : Char) : Bool := c ≠ '/' && c ≠ '#'

/-- The name of a declared schema. -/
structure SchemaName where
  text : String
  nonempty : text ≠ ""
  plain : text.toList.all isNameChar = true
deriving DecidableEq

namespace SchemaName

/-- The name that a text is, unless it is empty or holds a `/` or a `#`. -/
def ofText (text : String) : Except InvalidName SchemaName :=
  if nonempty : text = "" then .error ⟨text, .empty⟩
  else if plain : text.toList.all isNameChar = true then .ok ⟨text, nonempty, plain⟩
  else .error ⟨text, .separator⟩

theorem ofText_text (name : SchemaName) : ofText name.text = .ok name := by
  rw [ofText, dif_neg name.nonempty, dif_pos name.plain]

theorem text_of_ofText {text : String} {name : SchemaName} (h : ofText text = .ok name) :
    name.text = text := by
  unfold ofText at h
  split at h
  · cases h
  · split at h
    · cases h
      rfl
    · cases h

/-- The part of a text after its last `/`. -/
def lastSegment (text : String) : String :=
  String.ofList (text.toList.reverse.takeWhile (· ≠ '/')).reverse

/-- The name of the schema that a reference points to. -/
def ofReference (reference : String) : Except InvalidName SchemaName :=
  ofText (lastSegment reference)

end SchemaName

/-- The two dialects of contracts keep their resources apart. -/
inductive Namespace where
  | rest
  | event
deriving DecidableEq, Repr

namespace Namespace

/-- The text before the name in every resource of the namespace. -/
def root : Namespace → String
  | .rest => "synapse://schemas/"
  | .event => "synapse://asyncapi/"

/-- The resource of a declared schema. -/
def resourceId (ns : Namespace) (name : SchemaName) : String := ns.root ++ name.text

/-- The text behind a given beginning. -/
def stripStart? : List Char → List Char → Option (List Char)
  | [], text => some text
  | _ :: _, [] => none
  | c :: start, d :: text => if c = d then stripStart? start text else none

/-- The schema whose resource an id is, in this namespace. -/
def nameOf? (ns : Namespace) (id : String) : Option SchemaName :=
  (stripStart? ns.root.toList id.toList).bind fun rest =>
    (SchemaName.ofText (String.ofList rest)).toOption

/-- The resource that a reference points to. -/
def resourceOfReference (ns : Namespace) (reference : String) : Except InvalidName String :=
  (SchemaName.ofReference reference).map ns.resourceId

end Namespace

end ApiContract
