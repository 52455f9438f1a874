import ApiContract.Text.Quoted
import ApiContract.Yaml.Literal
import ApiContract.Yaml.Node
/-!
# Values

What a document means once aliases are followed and scalars read.  The
pairs of a mapping stay in order, and no two of them have the same key.

Nesting is limited to `depthLimit` collections, and the number of aliases
that are followed to `aliasesPerMark` for each mark of the document.
-/

namespace ApiContract.Yaml

/-- The value of a document. -/
inductive Value where
  | null
  | bool (value : Bool)
  | number (value : Number)
  | string (value : String)
  | sequence (items : List Value)
  | mapping (pairs : List (Value × Value))
  | tagged (tag : String) (value : Value)
deriving Inhabited

namespace Value

mutual

/-- Whether two values count as one key.  The order of pairs does not
matter. -/
def same : Value → Value → Bool
  | .null, .null => true
  | .bool a, .bool b => a == b
  | .number a, .number b => a.same b
  | .string a, .string b => a == b
  | .sequence a, .sequence b => sameItems a b
  | .mapping a, .mapping b => a.length == b.length && eachPairIn b a
  | .tagged t a, .tagged u b => t == u && same a b
  | _, _ => false

/-- Item by item. -/
def sameItems : List Value → List Value → Bool
  | [], [] => true
  | a :: as, b :: bs => same a b && sameItems as bs
  | _, _ => false

/-- Whether each pair has its like among the given ones. -/
def eachPairIn (others : List (Value × Value)) : List (Value × Value) → Bool
  | [] => true
  | (key, value) :: rest =>
    others.any (fun (k, v) => same key k && same value v) && eachPairIn others rest

end

mutual

/-- The value with the names of its kinds, as it is shown to a reader. -/
def describe : Value → String
  | .null => "Null"
  | .bool b => "Bool(" ++ toString b ++ ")"
  | .number n => "Number(" ++ n.format ++ ")"
  | .string s => "String(" ++ Quoted.quote s ++ ")"
  | .sequence items => "Sequence [" ++ ", ".intercalate (describeItems items) ++ "]"
  | .mapping pairs => "Mapping \x7b" ++ ", ".intercalate (describePairs pairs) ++ "\x7d"
  | .tagged tag value => "TaggedValue \x7b tag: !" ++ tag ++ ", value: " ++ describe value ++ " \x7d"

/-- Item by item. -/
def describeItems : List Value → List String
  | [] => []
  | item :: rest => describe item :: describeItems rest

/-- Pair by pair, keys that are simple without the name of their kind. -/
def describePairs : List (Value × Value) → List String
  | [] => []
  | (key, value) :: rest =>
    let name := match key with
      | .bool b => toString b
      | .number n => n.format
      | .string s => Quoted.quote s
      | key => describe key
    (name ++ ": " ++ describe value) :: describePairs rest

end

/-- The value of an atom. -/
def ofAtom : Atom → Value
  | .null => .null
  | .bool b => .bool b
  | .number n => .number n
  | .text s => .string s

end Value

/-! ## Following aliases -/

/-- How deep collections may be nested. -/
def depthLimit : Nat := 128

/-- How many aliases are followed for each mark of a document. -/
def aliasesPerMark : Nat := 100

/-- The reading of a document, which counts the aliases it follows. -/
abbrev Resolving : Type → Type := StateT Nat (Except Fault)

namespace Resolving

/-- The result of a reading that starts with the root. -/
def run {α : Type} (reading : Resolving α) : Except Fault α := (StateT.run reading 0).map (·.1)

end Resolving

namespace Node

/-- The tag of a node, if it is one of the document's own, without its
mark. -/
def ownTag? (node : Node) : Option String :=
  let tag := match node with
    | .alias _ => none
    | .scalar tag _ _ => tag
    | .sequence tag _ => tag
    | .mapping tag _ => tag
  match tag.map (·.toList) with
  | some ['!'] => some "!"
  | some ('!' :: '!' :: []) => some "!"
  | some ('!' :: '!' :: name) => some (String.ofList name)
  | some ('!' :: name) => some (String.ofList name)
  | _ => none

/-- The node without its tag. -/
def untagged : Node → Node
  | .scalar _ style text => .scalar none style text
  | .sequence _ items => .sequence none items
  | .mapping _ pairs => .mapping none pairs
  | node => node

end Node

namespace Document

/-- The node itself, or the one that it is an alias of. -/
def follow (document : Document) (node : Node) : Resolving Node :=
  match node with
  | .alias number => do
    modify (· + 1)
    if aliasesPerMark * document.weight < (← get) then throw .tooManyAliases
    else
      match document.anchors.node? number with
      | some node => return node
      | none => throw .unknownAnchor
  | node => return node

/-- The pairs with one more, the last one first.  Its key must be a new one. -/
def addPair (read : Bool → Node → Resolving Value) (bare : Bool) (done : List (Value × Value))
    (pair : Node × Node) : Resolving (List (Value × Value)) := do
  let key ← read bare pair.1
  if done.any fun (k, _) => key.same k then throw .repeatedKey
  let value ← read false pair.2
  return (key, value) :: done

/-- What a node is without its tag, if its parts are read by `read`; without
that a collection is too deep.  If `bare`, the tags of keys do not count. -/
def contentWith (read : Option (Bool → Node → Resolving Value)) (bare : Bool) :
    Node → Resolving Value
  | .alias _ => throw .unknownAnchor
  | .scalar tag style text =>
    match Atom.ofScalar tag style text with
    | .ok atom => return Value.ofAtom atom
    | .error fault => throw fault
  | .sequence _ items =>
    match read with
    | none => throw .tooDeep
    | some read => return .sequence (← items.mapM (read false))
  | .mapping _ pairs =>
    match read with
    | none => throw .tooDeep
    | some read => return .mapping (← pairs.foldlM (addPair read bare) []).reverse

/-- The value of a node whose parts are read by `read`.  If `bare`, a tag of
the node has been seen and does not count any more; it then does not count
in the keys of a mapping either. -/
def valueWith (document : Document) (read : Option (Bool → Node → Resolving Value))
    (bare : Bool) (node : Node) : Resolving Value := do
  let bare := bare && !node matches .alias _
  let node ← document.follow node
  let tag := if bare then none else node.ownTag?
  let bare := bare || tag.isSome
  let content ← contentWith read bare (if bare then node.untagged else node)
  match tag with
  | some tag => return .tagged tag content
  | none => return content

/-- The value of a node within so many collections. -/
def valueWithin (document : Document) : (depth : Nat) → (bare : Bool) → Node → Resolving Value
  | 0 => document.valueWith none
  | depth + 1 => document.valueWith (some (valueWithin document depth))

/-- The value of a document; that of an empty text is null. -/
def value (document : Document) : Except Fault Value :=
  match document.root with
  | none => .ok .null
  | some node => (document.valueWithin depthLimit false node).run

end Document

namespace Value

/-- The value that a text is. -/
def ofText (text : String) : Except Fault Value := do
  (← Document.ofText text).value

end Value

end ApiContract.Yaml
