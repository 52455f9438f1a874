import ApiContract.JsonSchema.MetaSchema
import ApiContract.Text.Utf8
import ApiContract.Uri.Reference
/-!
# Libraries of schemas

A library holds schemas under their addresses and under their anchors.
From a `Site`, which is a place in one of them, a reference leads to a
schema in the library and to the site of that schema.

A dynamic anchor leads to the outermost schema with an anchor of that name
among those that were entered on the way.
-/

namespace ApiContract.JsonSchema

/-- Why a reference leads nowhere. -/
inductive ReferenceFault where
  | unknownDraft (address : String)
  | invalidAddress (text : String) (fault : UriFault)
  /-- No schema has this address. -/
  | unregistered (address : String)
  /-- An address that was not looked for when the library was gathered. -/
  | notGathered (address : String)
  | noSuchAnchor (name : String)
  | invalidAnchor (name : String)
  | noSuchPointer (pointer : String)
  | badIndex (pointer index : String)
  | badEncoding (pointer : String)
deriving DecidableEq, Repr

/-- The wording of a fault. -/
def ReferenceFault.message : ReferenceFault → String
  | unknownDraft address => "Unknown specification: " ++ address
  | invalidAddress text fault => "Invalid URI reference '" ++ text ++ "': " ++ fault.message
  | unregistered address =>
    absent address ++ "resource not registered: " ++ address
  | notGathered address =>
    absent address ++
      "Retrieving external resources is not supported once the registry is populated"
  | noSuchAnchor name => "Anchor '" ++ name ++ "' does not exist"
  | invalidAnchor name => "Anchor '" ++ name ++ "' is invalid"
  | noSuchPointer pointer => "Pointer '" ++ pointer ++ "' does not exist"
  | badIndex pointer index =>
    "Failed to parse array index '" ++ index ++ "' in pointer '" ++ pointer ++ "'"
  | badEncoding pointer =>
    "Invalid percent encoding in pointer '" ++ pointer ++
      "': the decoded bytes do not represent valid UTF-8"
where
  /-- What is said of an address that no schema has. -/
  absent (address : String) : String :=
    "Resource '" ++ address ++ "' is not present in a registry and retrieving it failed: "

/-! ## Addresses -/

/-- The text of an address. -/
def addressText (address : UriReference) : String := String.ofList address.write

/-- The address under which relative identifiers stand. -/
def defaultBase : UriReference := ⟨some "json-schema".toList, some [], ['/'], none, none⟩

/-- The address that a text is. -/
def readAddress (text : String) : Except ReferenceFault UriReference :=
  match UriReference.read false false text.toList with
  | .error fault => .error (.invalidAddress text fault)
  | .ok address =>
    let address := address.normalize
    .ok (if address.scheme.isSome then address else defaultBase.resolve address)

/-- The address that a text means seen from a base. -/
def resolveAddress (base : UriReference) (text : String) : Except ReferenceFault UriReference :=
  if text.toList.head? = some '#' && text.toList.isSuffixOf base.write then .ok base
  else
    match UriReference.read false false text.toList with
    | .error fault => .error (.invalidAddress text fault)
    | .ok reference => .ok (base.resolve reference).normalize

/-- An address and the fragment of it. -/
def splitFragment (text : String) : String × String :=
  let fragment := (text.toList.reverse.takeWhile (· ≠ '#')).reverse
  if fragment.length = text.length then (text, "")
  else
    (String.ofList (text.toList.take (text.length - fragment.length - 1)),
      String.ofList fragment)

/-! ## Libraries -/

/-- A schema with the draft by whose rules it is read. -/
structure Resource where
  contents : Json
  draft : Draft
deriving Inhabited

/-- The identifier of a schema. -/
def Resource.id? (resource : Resource) : Option String := resource.draft.idOf? resource.contents

/-- An anchor: its name, whether it is dynamic, and the schema it stands
in. -/
structure SchemaAnchor where
  name : String
  dynamic : Bool
  target : Resource

/-- Schemas by address, and anchors by the address of the schema around
them. -/
structure Library where
  resources : List (UriReference × Resource)
  anchors : List (UriReference × SchemaAnchor)

/-- The anchors of a schema at an address. -/
def Resource.anchors (resource : Resource) (address : UriReference) :
    List (UriReference × SchemaAnchor) :=
  (resource.draft.anchorsOf resource.contents).map fun (name, dynamic) =>
    (address, ⟨name, dynamic, resource⟩)

/-- A place in a library: the address there, those of the schemas entered on
the way, the latest first, and the draft. -/
structure Site where
  base : UriReference
  scopes : List UriReference
  draft : Draft
deriving DecidableEq

namespace Site

/-- The site inside the schema at an address.  A scope that was entered
before is not entered again. -/
def enter (site : Site) (address : UriReference) : Site :=
  let pushes := site.scopes.isEmpty || address ≠ site.base
  let scopes :=
    if pushes && !site.scopes.contains site.base then site.base :: site.scopes else site.scopes
  { site with base := address, scopes := scopes }

/-- The site of a schema found at a site, which may have an identifier of
its own. -/
def within (site : Site) (resource : Resource) : Except ReferenceFault Site :=
  match resource.id? with
  | some id => do return { site with base := ← resolveAddress site.base id, draft := resource.draft }
  | none => .ok { site with draft := resource.draft }

end Site

namespace Library

/-- The meta-schemas of a draft, by address. -/
def ofDraft (draft : Draft) : List (UriReference × Resource) :=
  (MetaSchema.names draft).zipWith
    (fun name contents =>
      (⟨some draft.scheme.toList, some Draft.host.toList, draft.directory.toList ++ name.toList, none,
        none⟩, ⟨contents, draft⟩))
    (MetaSchema.ofDraft draft)

/-- The library of the meta-schemas.  Their anchors stand at their roots. -/
def standard : Library :=
  let resources := Draft.all.flatMap ofDraft
  ⟨resources, resources.flatMap fun (address, resource) => resource.anchors address⟩

/-- The schema at an address. -/
def resource? (library : Library) (address : UriReference) : Option Resource :=
  library.resources.lookup address

/-- The anchor of a name in the schema at an address. -/
def anchorAt? (library : Library) (address : UriReference) (name : String) :
    Option SchemaAnchor :=
  (library.anchors.find? fun (base, anchor) => anchor.name = name && base = address).map (·.2)

/-- The anchor of a name in the schema at an address, or in the one that it
identifies itself as. -/
def anchor (library : Library) (address : UriReference) (name : String) :
    Except ReferenceFault SchemaAnchor :=
  let found := library.anchorAt? address name <|> do
    let id ← (← library.resource? address).id?
    let address ← (readAddress id).toOption
    library.anchorAt? address name
  match found with
  | some anchor => .ok anchor
  | none => .error (if name.toList.contains '/' then .invalidAnchor name else .noSuchAnchor name)

/-! ## Pointers -/

/-- The bytes of a text whose percent-encoded octets are decoded. -/
def decodeOctets : List Char → List UInt8
  | '%' :: a :: b :: rest =>
    match Ascii.hexValue? a, Ascii.hexValue? b with
    | some high, some low => (high * 16 + low).toUInt8 :: decodeOctets rest
    | _, _ => 0x25 :: decodeOctets (a :: b :: rest)
  | c :: rest => Utf8.encode (String.singleton c) ++ decodeOctets rest
  | [] => []
termination_by text => text.length

/-- The segments of a pointer, from behind its first slash. -/
def pointerSegments (pointer : String) : Except ReferenceFault (List String) :=
  match Utf8.decode? (decodeOctets (pointer.toList.drop 1)) with
  | some text => .ok ((Ascii.splitOn '/' text.toList).map String.ofList)
  | none => .error (.badEncoding pointer)

/-- The index that a segment is, leading zeros and a plus sign allowed. -/
def looseIndex? (segment : String) : Option Nat :=
  let digits := match segment.toList with
    | '+' :: digits => digits
    | digits => digits
  if digits.isEmpty || !digits.all Ascii.isDigit || Nat.pow 2 64 ≤ Ascii.decimalValue digits then none
  else some (Ascii.decimalValue digits)

/-- The part of a value under a segment, with the segment as a key or no
key for an index. -/
def step (pointer : String) (value : Json) (segment : String) :
    Except ReferenceFault (Option String × Json) :=
  match value with
  | .array items =>
    match looseIndex? segment with
    | none => .error (.badIndex pointer segment)
    | some index =>
      match items[index]? with
      | some item => .ok (none, item)
      | none => .error (.noSuchPointer pointer)
  | value =>
    let key := Path.unescape segment
    match value.get? key with
    | some member => .ok (some key, member)
    | none => .error (.noSuchPointer pointer)

/-- The part of a schema at the end of a pointer, and its site.  Schemas
with identifiers on the way move the site. -/
def follow (pointer : String) (site : Site) (passed : List (Option String)) (value : Json) :
    List String → Except ReferenceFault (Json × Site)
  | [] => .ok (value, site)
  | segment :: rest => do
    let (key, next) ← step pointer value segment
    let passed := passed ++ [key]
    let moved ←
      if site.draft.leadsToSchema passed then site.within ⟨next, site.draft⟩ else .ok site
    follow pointer moved (if moved = site then passed else []) next rest

/-! ## References -/

/-- The target of an anchor.  A dynamic one gives way to the anchors of the
same name in the scopes, the outermost coming last. -/
def followAnchor (library : Library) (site : Site) (anchor : SchemaAnchor) :
    Except ReferenceFault (Json × Site) := do
  if anchor.dynamic then
    let outermost := site.scopes.foldl
      (fun found address =>
        match library.anchor address anchor.name with
        | .ok other => if other.dynamic then other.target else found
        | .error _ => found)
      anchor.target
    return (outermost.contents, ← site.within outermost)
  else return (anchor.target.contents, { site with draft := anchor.target.draft })

/-- The address of the schema that a reference enters, and its fragment. -/
def entrance (site : Site) (reference : String) : Except ReferenceFault (UriReference × String) :=
  match reference.toList with
  | '#' :: fragment => .ok (site.base, String.ofList fragment)
  | _ => do
    let (text, fragment) := splitFragment reference
    return (← resolveAddress site.base text, fragment)

/-- The schema at an address, or the part of it that a fragment leads to, and
its site. -/
def lookupAt (library : Library) (site : Site) (address : UriReference) (fragment : String) :
    Except ReferenceFault (Json × Site) :=
  match library.resource? address with
  | none => .error (.notGathered (addressText address))
  | some resource =>
    let inside := { site.enter address with draft := resource.draft }
    if fragment.toList.head? = some '/' then do
      follow fragment inside [] resource.contents (← pointerSegments fragment)
    else if fragment = "" then .ok (resource.contents, inside)
    else do library.followAnchor inside (← library.anchor address fragment)

/-- The schema that a reference leads to, and its site. -/
def lookup (library : Library) (site : Site) (reference : String) :
    Except ReferenceFault (Json × Site) := do
  let (address, fragment) ← entrance site reference
  library.lookupAt site address fragment

/-- Whether a schema lets recursive references go on to outer schemas. -/
def isRecursive (schema : Json) : Bool :=
  match schema.get? "$recursiveAnchor" with
  | some (.bool b) => b
  | _ => false

/-- The schema that a recursive reference leads to: the outermost of the
scopes that are recursive without interruption. -/
def lookupRecursive (library : Library) (site : Site) : Except ReferenceFault (Json × Site) := do
  let start ← library.lookup site "#"
  if isRecursive start.1 then outermost start site.scopes else return start
where
  /-- Goes outwards as long as the schemas there are recursive. -/
  outermost (found : Json × Site) : List UriReference → Except ReferenceFault (Json × Site)
    | [] => .ok found
    | scope :: rest => do
      let next ← library.lookupAt site scope ""
      if isRecursive next.1 then outermost next rest else return found

end Library

end ApiContract.JsonSchema
