import ApiContract.JsonSchema.Gathering
import ApiContract.JsonSchema.MetaSchema.Compiled
/-!
# Compilation

Every keyword of a schema becomes a rule, in key order.  The schema that a
reference leads to is compiled in its place the first time that its address
comes up, which makes a session finite.  Further references to the address
are left to the table of shared nodes, each entry of which is compiled in a
session of its own.

A further reference to a schema that refers to itself by the same text asks
for nothing.
-/

namespace ApiContract.JsonSchema

/-- Why a schema cannot be compiled. -/
inductive SchemaFault where
  | misuse (misuse : Assertion.Misuse)
  | reference (fault : ReferenceFault)
  | gathering (fault : GatherFault)
  | tooDeep

/-- The wording of a fault. -/
def SchemaFault.message : SchemaFault → String
  | misuse ⟨value, cause⟩ => cause.message value
  | reference fault => fault.message
  | gathering fault => fault.message
  | tooDeep => "schemas are nested too deep"

/-- A schema that shared nodes are made for. -/
structure Target where
  site : Site
  contents : Json

/-- Whether two targets are the same. -/
def Target.same (a b : Target) : Bool := a.site = b.site && a.contents.identical b.contents

/-- What a compilation remembers: the addresses that came up in the session,
and the schemas of the shared nodes. -/
structure Session where
  seen : List UriReference
  targets : List Target

/-- A step of a compilation. -/
abbrev Compiling (α : Type) : Type := StateT Session (Except SchemaFault) α

namespace Compiling

/-- The conventions that a compilation follows. -/
structure Settings where
  library : Library
  formats : Bool

/-- Fails because a value is not as its keyword wants it. -/
def refuse {α : Type} (value : Json) (cause : Cause) : Compiling α :=
  throw (.misuse ⟨value, cause⟩)

/-- The outcome of following a reference. -/
def following {α : Type} : Except ReferenceFault α → Compiling α
  | .ok a => return a
  | .error fault => throw (.reference fault)

/-- The index of the shared node of a schema. -/
def share (target : Target) : Compiling Nat := do
  let session ← get
  match session.targets.findIdx? (·.same target) with
  | some index => return index
  | none =>
    set { session with targets := session.targets ++ [target] }
    return session.targets.length

/-- How schemas are compiled on the next level. -/
abbrev Descent : Type := Site → Json → Compiling Node

/-- The site of a schema inside the schema at a site. -/
def descend (site : Site) (schema : Json) : Compiling Site :=
  let draft := (site.draft.detect schema).toOption.getD .draft202012
  following (site.within ⟨schema, draft⟩)

/-- A schema inside the schema at a site. -/
def subschema (inner : Descent) (site : Site) (schema : Json) : Compiling Node := do
  inner (← descend site schema) schema

/-- The schemas of an array. -/
def subschemaList (inner : Descent) (site : Site) (value : Json) : Compiling (List Node) := do
  match value with
  | .array items => items.mapM (subschema inner site)
  | value => refuse value (.type [.array])

/-- The schemas of an object. -/
def subschemaMap (inner : Descent) (site : Site) (value : Json) :
    Compiling (List (String × Node)) := do
  match value with
  | .object members => members.mapM fun (name, schema) => do
      return (name, ← subschema inner site schema)
  | value => refuse value (.type [.object])

/-- A schema under a pattern. -/
def patternMember (inner : Descent) (site : Site) (member : String × Json) :
    Compiling (Pattern × Node) := do
  match Pattern.ofText? member.1 with
  | some pattern => return (pattern, ← subschema inner site member.2)
  | none => refuse member.2 (.format "regex")

/-- The schemas of an object whose keys are patterns. -/
def patternMap (inner : Descent) (site : Site) (value : Json) :
    Compiling (List (Pattern × Node)) := do
  match value with
  | .object members => members.mapM (patternMember inner site)
  | value => refuse value (.type [.object])

/-- The rule of a reference. -/
def reference (settings : Settings) (inner : Descent) (site : Site) (keyword : String)
    (value : Json) : Compiling (Option Rule) := do
  match value with
  | .string text =>
    let address ← following (resolveAddress site.base text)
    let (contents, there) ← following (settings.library.lookup site text)
    let there ← following (there.within ⟨contents, there.draft⟩)
    if (← get).seen.contains address then
      if (contents.get? keyword).bind Json.text? = some text then return none
      else return some (.shared keyword (← share ⟨there, contents⟩))
    else
      modify fun session => { session with seen := address :: session.seen }
      return some (.reference keyword (← inner there contents))
  | value => refuse value (.type [.string])

/-- The rule of a recursive reference, whose target is always shared. -/
def recursiveReference (settings : Settings) (site : Site) (keyword : String) :
    Compiling (Option Rule) := do
  let (contents, there) ← following (settings.library.lookupRecursive site)
  let there ← following (there.within ⟨contents, there.draft⟩)
  return some (.shared keyword (← share ⟨there, contents⟩))

/-- Whether `additionalProperties` speaks for all members of an object, so
that `properties` and `patternProperties` have no rules of their own. -/
def takesOver (schema : Json) : Bool :=
  match schema.get? "additionalProperties" with
  | some (.bool false) => true
  | some (.object _) => true
  | _ => false

/-- The rule of `additionalProperties` beside compiled properties and patterns,
which may both be absent. -/
def othersRule (inner : Descent) (site : Site) (absent : Bool) (value : Json)
    (patterns : List (Pattern × Node)) (properties : List (String × Node)) :
    Compiling (Option Rule) := do
  match value with
  | .bool false =>
    if absent then return some .noMembers
    else return some (.allMembers properties patterns none)
  | value =>
    return some (.allMembers properties patterns (some (← subschema inner site value)))

/-- The rule of `additionalProperties`. -/
def additionalProperties (inner : Descent) (site : Site) (schema value : Json) :
    Compiling (Option Rule) := do
  let patterns := schema.get? "patternProperties"
  let properties := schema.get? "properties"
  match value with
  | .bool true => return some .anyMembers
  | value =>
    let patternNodes ← patterns.elim (return []) (patternMap inner site)
    let propertyNodes ← properties.elim (return []) (subschemaMap inner site)
    othersRule inner site (patterns.isNone && properties.isNone) value patternNodes propertyNodes

/-- The rule of `items`. -/
def items (inner : Descent) (site : Site) (schema value : Json) : Compiling (Option Rule) := do
  match value with
  | .array _ =>
    if site.draft = .draft202012 then refuse value (.type [.boolean, .object])
    else return some (.firstItems "items" (← subschemaList inner site value))
  | .bool true => return some .anyItems
  | value =>
    let first := match site.draft, schema.get? "prefixItems" with
      | .draft202012, some (.array parts) => parts.length
      | _, _ => 0
    return some (.laterItems "items" first (← subschema inner site value))

/-- The rule of `additionalItems`, which needs a list of first items. -/
def additionalItems (inner : Descent) (site : Site) (schema value : Json) :
    Compiling (Option Rule) := do
  match schema.get? "items" with
  | some (.array parts) =>
    return some (.laterItems "additionalItems" parts.length (← subschema inner site value))
  | _ => return none

/-- A size, which may be absent. -/
def limit? (schema : Json) (keyword : String) : Compiling (Option Nat) := do
  match schema.get? keyword with
  | none => return none
  | some value =>
    match Assertion.readLimit value with
    | .ok n => return some n
    | .error misuse => throw (.misuse misuse)

/-- The rule of `contains`. -/
def contains (inner : Descent) (site : Site) (schema value : Json) : Compiling (Option Rule) := do
  if site.draft.before .draft201909 then
    return some (.contains (← subschema inner site value) none none)
  else
    let least ← limit? schema "minContains"
    let most ← limit? schema "maxContains"
    return some (.contains (← subschema inner site value) least most)

/-- The schema under a keyword, which may be absent. -/
def branch (inner : Descent) (site : Site) (schema : Json) (keyword : String) :
    Compiling (Option Node) :=
  (schema.get? keyword).mapM (subschema inner site)

/-- The rule of `if`. -/
def condition (inner : Descent) (site : Site) (schema value : Json) :
    Compiling (Option Rule) := do
  let test ← subschema inner site value
  let positive ← branch inner site schema "then"
  let negative ← branch inner site schema "else"
  return some (.condition test positive negative)

/-- What depends on a member: a list of names, or a schema. -/
def dependent (inner : Descent) (site : Site) (schema : Json) :
    Compiling (List String ⊕ Node) := do
  match schema with
  | .array _ =>
    match Assertion.readTexts schema with
    | .ok names => return .inl names
    | .error misuse => throw (.misuse misuse)
  | schema => return .inr (← subschema inner site schema)

/-- The rule of `dependencies` and of its two successors. -/
def dependencies (inner : Descent) (site : Site) (keyword : String) (value : Json) :
    Compiling (Option Rule) := do
  match value with
  | .object members =>
    let dependents ← members.mapM fun (key, schema) => do
      return (key, ← dependent inner site schema)
    return some (.dependencies keyword dependents)
  | value => refuse value (.type [.object])

/-- The assertion of a keyword, if it is one. -/
def assertion (settings : Settings) (site : Site) (schema : Json) (keyword : String)
    (value : Json) : Compiling (Option Rule) := do
  match Assertion.ofKeyword? site.draft settings.formats keyword value with
  | .error misuse => throw (.misuse misuse)
  | .ok claim =>
    let marked (mark : String) : Bool :=
      site.draft = .draft4 &&
        match schema.get? mark with
        | some (.bool b) => b
        | _ => false
    let excluded := (keyword = "minimum" && marked "exclusiveMinimum") ||
      (keyword = "maximum" && marked "exclusiveMaximum")
    return claim.map fun claim => .assertion keyword (claim.excluding excluded)

/-- The rule of a keyword, if it asks for anything. -/
def rule? (settings : Settings) (inner : Descent) (site : Site) (schema : Json)
    (keyword : String) (value : Json) : Compiling (Option Rule) := do
  let draft := site.draft
  let since (first : Draft) (rule : Compiling (Option Rule)) : Compiling (Option Rule) :=
    if draft.before first then return none else rule
  match keyword with
  | "$ref" => reference settings inner site keyword value
  | "$dynamicRef" => since .draft202012 (reference settings inner site keyword value)
  | "$recursiveRef" =>
    if draft = .draft201909 then recursiveReference settings site keyword else return none
  | "allOf" => return some (.allOf (← subschemaList inner site value))
  | "anyOf" => return some (.anyOf (← subschemaList inner site value))
  | "oneOf" => return some (.oneOf (← subschemaList inner site value))
  | "not" => return some (.not value (← subschema inner site value))
  | "if" => since .draft7 (condition inner site schema value)
  | "properties" =>
    if takesOver schema then return none
    else return some (.properties (← subschemaMap inner site value))
  | "patternProperties" =>
    if takesOver schema then return none
    else return some (.patternProperties (← patternMap inner site value))
  | "additionalProperties" => additionalProperties inner site schema value
  | "propertyNames" =>
    since .draft6 (do return some (.propertyNames (← subschema inner site value)))
  | "dependencies" => dependencies inner site keyword value
  | "dependentSchemas" => since .draft201909 (dependencies inner site keyword value)
  | "dependentRequired" => since .draft201909 (dependencies inner site keyword value)
  | "prefixItems" =>
    since .draft202012 (do return some (.firstItems keyword (← subschemaList inner site value)))
  | "items" => items inner site schema value
  | "additionalItems" =>
    if draft = .draft202012 then return none else additionalItems inner site schema value
  | "contains" => since .draft6 (contains inner site schema value)
  | "unevaluatedProperties" =>
    since .draft201909 (do return some (.unevaluatedProperties (← subschema inner site value)))
  | "unevaluatedItems" =>
    since .draft201909 (do return some (.unevaluatedItems (← subschema inner site value)))
  | keyword => assertion settings site schema keyword value

/-- The node of the schema at a site, compiled at most so many levels deep.
Before Draft 2019-09, nothing beside a reference counts. -/
def node (settings : Settings) : Nat → Site → Json → Compiling Node
  | 0, _, _ => throw .tooDeep
  | _ + 1, _, .bool true => return .anything
  | _ + 1, _, .bool false => return .nothing
  | depth + 1, site, .object members => do
    let schema := Json.object members
    let counting := match schema.get? "$ref" with
      | some value => if site.draft.before .draft201909 then [("$ref", value)] else members
      | none => members
    let rules ← counting.mapM fun (keyword, value) =>
      rule? settings (node settings depth) site schema keyword value
    return .rules (rules.filterMap id)
  | _ + 1, _, value => refuse value (.type [.boolean, .object])

/-- The most levels of a schema that are compiled, and the most sessions.  A
schema that takes more than that is refused as too deep. -/
def limit : Nat := 10000

/-- The shared nodes, compiled from the given index on as long as there are
schemas to compile. -/
def sharedNodes (settings : Settings) (index : Nat) (targets : List Target) :
    Nat → Except SchemaFault (List Node)
  | 0 => .error .tooDeep
  | bound + 1 =>
    match targets[index]? with
    | none => .ok []
    | some target => do
      let (compiled, session) ←
        (node settings limit target.site target.contents).run ⟨[], targets⟩
      return compiled :: (← sharedNodes settings (index + 1) session.targets bound)

end Compiling

/-- A compiled schema with the nodes that it shares. -/
structure Validator where
  root : Node
  shared : Array Node

namespace Validator

/-- How many nodes a validator is made of. -/
def size (validator : Validator) : Nat :=
  validator.root.size + sizeOfList validator.shared.toList

/-- The schema at a site, compiled. -/
def compile (library : Library) (formats : Bool) (site : Site) (contents : Json) :
    Except SchemaFault Validator := do
  let settings : Compiling.Settings := ⟨library, formats⟩
  let (root, session) ← (Compiling.node settings Compiling.limit site contents).run ⟨[], []⟩
  let shared ← Compiling.sharedNodes settings 0 session.targets Compiling.limit
  return ⟨root, shared.toArray⟩

/-- How many levels of nodes are enough to judge a value.  There are five
questions about each value inside it: what is wrong with it, whether it is
valid, whether it is looked at, and the first two about its name.  Each may be
asked of every node, and one that comes up again on the way to its answer has
none. -/
def levels (validator : Validator) (value : Json) : Nat :=
  validator.size * (5 * value.size)

/-- What is wrong with a value; `none` if there is no end to finding out. -/
def violations (validator : Validator) (value : Json) : Option (List Violation) :=
  validator.root.violations validator.shared (validator.levels value) [] [] value

/-- The validator of the schemas of Draft 2020-12. -/
def metaSchema : Validator := ⟨MetaSchema.Compiled.root, #[MetaSchema.Compiled.root]⟩

/-- The address of a schema of Draft 2020-12, and the library of what it can
reach with the help of `retrieve`. -/
def prepare (retrieve : String → Option Json) (schedule : Schedule) (schema : Json) :
    Except SchemaFault (UriReference × Library) :=
  let identifier := (Draft.draft202012.idOf? schema).getD "json-schema:///"
  match readAddress identifier with
  | .error fault => .error (.reference fault)
  | .ok address =>
    match Library.gather retrieve schedule .draft202012 address schema with
    | .error fault => .error (.gathering fault)
    | .ok library => .ok (address, library)

/-- The validator of a schema of Draft 2020-12 that can reach what
`retrieve` answers, asked by a schedule.  The schema has to satisfy the
meta-schema. -/
def ofSchema (retrieve : String → Option Json) (formats : Bool) (schedule : Schedule)
    (schema : Json) : Except SchemaFault Validator := do
  let (address, library) ← prepare retrieve schedule schema
  match metaSchema.violations schema with
  | none => .error .tooDeep
  | some (violation :: _) => .error (.misuse ⟨violation.value, violation.cause⟩)
  | some [] => compile library formats ⟨address, [], .draft202012⟩ schema

end Validator

end ApiContract.JsonSchema
