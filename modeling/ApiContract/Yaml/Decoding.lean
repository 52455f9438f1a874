import ApiContract.Yaml.Value
/-!
# Documents of a known shape

Where it is known what a node has to be, the shape decides how the node is
read: any scalar is a text, whatever it spells, and what is left out is an
empty record or list.
-/

namespace ApiContract.Yaml.Document

variable {α : Type}

/-- The root of a document; an empty document has an empty root. -/
def rootNode (document : Document) : Node := document.root.getD .empty

/-- The text of a scalar. -/
def text (document : Document) (node : Node) : Resolving String := do
  match ← document.follow node with
  | .scalar _ _ text => return text
  | _ => throw .unexpectedKind

/-- Whether a node stands for a value that is left out. -/
def isAbsent : Node → Except Fault Bool
  | .scalar none .plain text => .ok (text.isEmpty || Literal.isNull text)
  | .scalar (some tag) .plain text =>
    if tag ≠ "tag:yaml.org,2002:null" then .ok false
    else if Literal.isNull text then .ok true
    else .error .tagMismatch
  | _ => .ok false

/-- What is read from a node, unless its value is left out. -/
def optional (document : Document) (read : Node → Resolving α) (node : Node) :
    Resolving (Option α) := do
  let node ← document.follow node
  match isAbsent node with
  | .ok true => return none
  | .ok false => return some (← read node)
  | .error fault => throw fault

/-- The text of a scalar that may spell a value of the type with the given
standard tag: one without quotes, or a literal block with just this tag. -/
def spelling (document : Document) (type : String) (node : Node) : Resolving String := do
  match ← document.follow node with
  | .scalar _ .plain text => return text
  | .scalar (some tag) .literal text =>
    if tag = "tag:yaml.org,2002:" ++ type then return text else throw .unexpectedKind
  | _ => throw .unexpectedKind

/-- What a scalar spells, if it does. -/
def spelled (document : Document) (type : String) (value? : String → Option α) (node : Node) :
    Resolving α := do
  match value? (← document.spelling type node) with
  | some value => return value
  | none => throw .unexpectedKind

/-- The boolean that a scalar spells. -/
def boolean (document : Document) (node : Node) : Resolving Bool :=
  document.spelled "bool" Literal.bool? node

/-- The number below `limit` that a scalar spells. -/
def natural (document : Document) (limit : Nat) (node : Node) : Resolving Nat :=
  document.spelled "int" (fun text => Literal.natural? limit text.toList) node

/-- The items of a list. -/
def list (document : Document) (read : Node → Resolving α) (node : Node) :
    Resolving (List α) := do
  match ← document.follow node with
  | .sequence _ items => items.mapM read
  | .scalar _ .plain "" => return []
  | _ => throw .unexpectedKind

/-- The fields of a record, by name.  No field may be given twice; with
`closed`, there may be no others. -/
def fields (document : Document) (known : List String) (closed : Bool) (node : Node) :
    Resolving (List (String × Node)) := do
  match ← document.follow node with
  | .mapping _ pairs =>
    pairs.foldlM (fun (done : List (String × Node)) (key, value) => do
      let name ← document.text key
      if !known.contains name then
        if closed then throw .unknownField else return done
      else if (done.lookup name).isSome then throw .repeatedField
      else return (name, value) :: done) []
  | .scalar _ .plain "" => return []
  | _ => throw .unexpectedKind

/-- What is read from a field that has to be there. -/
def required (fields : List (String × Node)) (name : String) (read : Node → Resolving α) :
    Resolving α :=
  match fields.lookup name with
  | some node => read node
  | none => throw .missingField

/-- What is read from a field, or a value in its place. -/
def orElse (fields : List (String × Node)) (name : String) (other : α)
    (read : Node → Resolving α) : Resolving α :=
  match fields.lookup name with
  | some node => read node
  | none => return other

/-- The JSON value of a number; those that JSON does not have become
null. -/
def numberAsJson : Number → Json
  | .integer n => .number (.integer n)
  | .double d => .number (.double d)
  | .infinity _ => .null
  | .nan => .null

/-- The JSON value of an atom. -/
def atomAsJson : Atom → Json
  | .null => .null
  | .bool b => .bool b
  | .number n => numberAsJson n
  | .text s => .string s

/-- The JSON value of a node within so many collections.  Keys are texts,
of which the last counts; tags of the document's own are refused. -/
def json (document : Document) : (depth : Nat) → Node → Resolving Json
  | depth, node => do
    let node ← document.follow node
    if node.ownTag?.isSome then throw .unexpectedKind
    match depth, node with
    | _, .alias _ => throw .unknownAnchor
    | _, .scalar tag style text =>
      match Atom.ofScalar tag style text with
      | .ok atom => return atomAsJson atom
      | .error fault => throw fault
    | 0, _ => throw .tooDeep
    | depth + 1, .sequence _ items => return .array (← items.mapM (json document depth))
    | depth + 1, .mapping _ pairs => do
      let members ← pairs.mapM fun (key, value) => do
        return (← document.text key, ← json document depth value)
      return Json.ofMembers members

/-- What is read from the root of the document that a text is. -/
def decode (read : Document → Node → Resolving α) (text : String) : Except Fault α := do
  let document ← Document.ofText text
  (read document document.rootNode).run

end ApiContract.Yaml.Document
