import ApiContract.JsonSchema.Assertion
/-!
# Rules

A compiled schema is a node: nothing is asked of a value, nothing pleases,
or some rules have to hold.  A rule applies further nodes to the value or
to parts of it.  Schemas that lead back to themselves are kept in a table,
and a rule refers to them by their index.

The evaluation of a node goes as many levels of nodes deep as it is allowed
to, and answers `none` if that does not suffice.  `violations` collects
everything that is wrong; `isValid` stops at the first thing.
-/

namespace ApiContract.JsonSchema

mutual

/-- A compiled schema. -/
inductive Node where
  | anything
  | nothing
  | rules (list : List Rule)

/-- What a keyword asks for. -/
inductive Rule where
  | assertion (keyword : String) (claim : Assertion)
  | reference (keyword : String) (target : Node)
  | shared (keyword : String) (index : Nat)
  | allOf (parts : List Node)
  | anyOf (parts : List Node)
  | oneOf (parts : List Node)
  | not (schema : Json) (part : Node)
  | condition (test : Node) (positive negative : Option Node)
  | properties (named : List (String × Node))
  | patternProperties (patterns : List (Pattern × Node))
  /-- The properties, those that match a pattern, and the others, of which
  there must be none if there is no node for them. -/
  | allMembers (properties : List (String × Node)) (patterns : List (Pattern × Node))
      (others : Option Node)
  | noMembers
  | anyMembers
  | propertyNames (part : Node)
  | dependencies (keyword : String) (dependents : List (String × (List String ⊕ Node)))
  | firstItems (keyword : String) (parts : List Node)
  | laterItems (keyword : String) (first : Nat) (part : Node)
  | anyItems
  | contains (part : Node) (least most : Option Nat)
  | unevaluatedProperties (part : Node)
  | unevaluatedItems (part : Node)

end

instance : Inhabited Node := ⟨.anything⟩

/-! ## Parts -/

/-- The nodes that a rule applies, in the order of its fields. -/
def Rule.parts : Rule → List Node
  | assertion _ _ | shared _ _ | noMembers | anyMembers | anyItems => []
  | reference _ part | not _ part | propertyNames part | laterItems _ _ part | contains part _ _
  | unevaluatedProperties part | unevaluatedItems part => [part]
  | allOf parts | anyOf parts | oneOf parts | firstItems _ parts => parts
  | condition test positive negative => test :: positive.toList ++ negative.toList
  | properties named => named.map (·.2)
  | patternProperties patterns => patterns.map (·.2)
  | allMembers named patterns others =>
    named.map (·.2) ++ patterns.map (·.2) ++ others.toList
  | dependencies _ dependents =>
    dependents.filterMap fun (_, dependent) =>
      match dependent with
      | .inl _ => none
      | .inr part => some part

mutual

/-- How many nodes a node is made of, itself included. -/
def Node.size : Node → Nat
  | .anything | .nothing => 1
  | .rules list => sizeOfRules list + 1

/-- The nodes that rules are made of, counted. -/
def sizeOfRules : List Rule → Nat
  | [] => 0
  | rule :: rest => rule.size + sizeOfRules rest

/-- The nodes that a rule is made of, counted. -/
def Rule.size : Rule → Nat
  | .assertion _ _ | .shared _ _ | .noMembers | .anyMembers | .anyItems => 0
  | .reference _ part | .not _ part | .propertyNames part | .laterItems _ _ part
  | .contains part _ _ | .unevaluatedProperties part | .unevaluatedItems part => part.size
  | .allOf parts | .anyOf parts | .oneOf parts | .firstItems _ parts => sizeOfList parts
  | .condition test positive negative =>
    test.size + (sizeOfChoice positive + sizeOfChoice negative)
  | .properties named => sizeOfNamed named
  | .patternProperties patterns => sizeOfPatterns patterns
  | .allMembers named patterns others =>
    sizeOfNamed named + (sizeOfPatterns patterns + sizeOfChoice others)
  | .dependencies _ dependents => sizeOfDependents dependents

/-- The nodes of a list, counted. -/
def sizeOfList : List Node → Nat
  | [] => 0
  | node :: rest => node.size + sizeOfList rest

/-- The nodes of a part that may be absent, counted. -/
def sizeOfChoice : Option Node → Nat
  | none => 0
  | some node => node.size

/-- The nodes under names, counted. -/
def sizeOfNamed : List (String × Node) → Nat
  | [] => 0
  | (_, node) :: rest => node.size + sizeOfNamed rest

/-- The nodes under patterns, counted. -/
def sizeOfPatterns : List (Pattern × Node) → Nat
  | [] => 0
  | (_, node) :: rest => node.size + sizeOfPatterns rest

/-- The nodes that depend on members, counted. -/
def sizeOfDependents : List (String × (List String ⊕ Node)) → Nat
  | [] => 0
  | (_, .inl _) :: rest => sizeOfDependents rest
  | (_, .inr node) :: rest => node.size + sizeOfDependents rest

end

/-- How nodes are evaluated on the next level: what is wrong with a value,
seen from a place in the schema and a place in the whole value; whether
anything is; and whether a member or an item of a value is looked at. -/
structure Level where
  violations : Node → Path → Path → Json → Option (List Violation)
  isValid : Node → Json → Option Bool
  looksAtMember : Node → Json → String → Json → Option Bool
  looksAtItem : Node → Json → Nat → Json → Option Bool

namespace Rule

/-! ## What is looked at -/

/-- Whether a node is made of rules. -/
def isRuled : Node → Bool
  | .rules _ => true
  | _ => false

/-- Whether a composition looks at something, given which of its parts are
valid and how a part looks at it. -/
def partsLook (valid looks : Node → Option Bool) : Rule → Option Bool
  | allOf parts => do
    let parts := parts.filter isRuled
    if ← parts.allM valid then parts.anyM looks else return false
  | oneOf parts => do
    match ← (parts.filter isRuled).filterM valid with
    | [part] => looks part
    | _ => return false
  | condition test positive negative => do
    if ← valid test then
      if ← looks test then return true
      else positive.elim (return false) looks
    else negative.elim (return false) looks
  | _ => return false

/-- Whether a rule looks at a member of a value, and is content with it. -/
def looksAtMember (table : Array Node) (level : Level) (value : Json) (name : String)
    (member : Json) (rule : Rule) : Option Bool :=
  let looks (node : Node) : Option Bool := level.looksAtMember node value name member
  let matching (patterns : List (Pattern × Node)) : List Node :=
    (patterns.filter fun (pattern, _) => pattern.isFoundIn name).map (·.2)
  match rule with
  | properties named =>
    match named.lookup name with
    | some node => level.isValid node member
    | none => return false
  | patternProperties patterns => (matching patterns).anyM (level.isValid · member)
  | allMembers named patterns others =>
    match named.lookup name, matching patterns, others with
    | some node, matched, _ => (node :: matched).anyM (level.isValid · member)
    | none, [], some node => level.isValid node member
    | none, matched, _ => matched.anyM (level.isValid · member)
  | anyMembers => return true
  | reference _ target => looks target
  | shared _ index => table[index]?.bind looks
  | anyOf parts =>
    (parts.filter isRuled).anyM fun part => do
      if ← level.isValid part value then looks part else return false
  | dependencies _ dependents =>
    dependents.anyM fun (key, dependent) =>
      match dependent, value.get? key with
      | .inr node, some _ => looks node
      | _, _ => return false
  | unevaluatedProperties part => level.isValid part member
  | rule => partsLook (level.isValid · value) looks rule

/-- Whether a rule looks at an item of a value.  Of alternatives, all must
be valid. -/
def looksAtItem (table : Array Node) (level : Level) (value : Json) (index : Nat) (item : Json)
    (rule : Rule) : Option Bool :=
  let looks (node : Node) : Option Bool := level.looksAtItem node value index item
  match rule with
  | firstItems _ parts => return index < parts.length
  | laterItems _ _ _ => return true
  | anyItems => return true
  | contains part _ _ => level.isValid part item
  | reference _ target => looks target
  | shared _ index => table[index]?.bind looks
  | anyOf parts => do
    let parts := parts.filter isRuled
    if ← parts.allM (level.isValid · value) then parts.anyM looks else return false
  | unevaluatedItems part => level.isValid part item
  | rule => partsLook (level.isValid · value) looks rule

/-- The members that none of the rules looks at. -/
def unseenMembers (table : Array Node) (level : Level) (rules : List Rule)
    (members : List (String × Json)) : Option (List String) := do
  let unseen ← members.filterM fun (name, member) => do
    return !(← rules.anyM (looksAtMember table level (.object members) name member))
  return unseen.map (·.1)

/-- The items that none of the rules looks at. -/
def unseenItems (table : Array Node) (level : Level) (rules : List Rule) (items : List Json) :
    Option (List Json) := do
  let unseen ← items.zipIdx.filterM fun (item, index) => do
    return !(← rules.anyM (looksAtItem table level (.array items) index item))
  return unseen.map (·.1)

/-! ## What is wrong -/

/-- The nodes that a rule for members applies to one of them, with their
places in the schema; `none` if there must be no such member. -/
def nodesFor (properties : List (String × Node)) (patterns : List (Pattern × Node))
    (others : Option Node) (name : String) : Option (List (Path × Node)) :=
  let matched := (patterns.filter fun (pattern, _) => pattern.isFoundIn name).map
    fun (pattern, node) => (["patternProperties", pattern.text], node)
  match properties.lookup name, matched, others with
  | some node, matched, _ => some ((["properties", name], node) :: matched)
  | none, [], some node => some [(["additionalProperties"], node)]
  | none, [], none => none
  | none, matched, _ => some matched

/-- The part of a composition that is valid first, as the parts after it. -/
def afterFirstValid (valid : Node → Option Bool) : List Node → Option (Option (List Node))
  | [] => some none
  | part :: rest => do if ← valid part then return some rest else afterFirstValid valid rest

/-- What is wrong with the number of items that a `contains` accepts: the
keyword that says so. -/
def containsFault (least most : Option Nat) (count : Nat) : Option String :=
  match least, most with
  | none, none => if count = 0 then some "contains" else none
  | some least, none => if count < least then some "minContains" else none
  | none, some most => if count = 0 || most < count then some "maxContains" else none
  | some least, some most =>
    if most < count then some "maxContains"
    else if count < least then some "minContains"
    else none

/-- The names that a dependency asks for and that are missing. -/
def missing (members : List (String × Json)) (names : List String) : List String :=
  names.filter fun name => !Entries.has members name

/-- What a rule among others finds wrong with a value.  `schemaPath` is the
place of the schema that the rules belong to. -/
def violations (table : Array Node) (level : Level) (rules : List Rule)
    (schemaPath instancePath : Path) (value : Json) (rule : Rule) : Option (List Violation) :=
  let found (keyword : String) (cause : Cause) : List Violation :=
    [⟨instancePath, schemaPath ++ [keyword], value, cause⟩]
  let inside (path : Path) (node : Node) : Option (List Violation) :=
    level.violations node (schemaPath ++ path) instancePath value
  let below (path : Path) (key : String) (part : Json) (node : Node) : Option (List Violation) :=
    level.violations node (schemaPath ++ path) (instancePath ++ [key]) part
  match rule, value with
  | assertion keyword claim, value => return (claim.check value).flatMap (found keyword)
  | reference keyword target, _ => inside [keyword] target
  | shared keyword index, _ => table[index]?.bind (inside [keyword])
  | allOf parts, _ => do
    let lists ← parts.zipIdx.mapM fun (part, index) => inside ["allOf", toString index] part
    return lists.flatten
  | anyOf parts, value => do
    if ← parts.anyM (level.isValid · value) then return [] else return found "anyOf" .anyOf
  | oneOf parts, value => do
    match ← afterFirstValid (level.isValid · value) parts with
    | none => return found "oneOf" .oneOfNone
    | some rest =>
      if ← rest.anyM (level.isValid · value) then return found "oneOf" .oneOfSeveral
      else return []
  | not schema part, value => do
    if ← level.isValid part value then return found "not" (.not schema) else return []
  | condition test positive negative, value =>
    if positive.isNone && negative.isNone then return []
    else do
      if ← level.isValid test value then positive.elim (return []) (inside ["then"])
      else negative.elim (return []) (inside ["else"])
  | properties named, .object members => do
    let lists ← named.mapM fun (name, node) =>
      match Entries.get? members name with
      | some member => below ["properties", name] name member node
      | none => return []
    return lists.flatten
  | patternProperties patterns, .object members => do
    let lists ← patterns.mapM fun (pattern, node) => do
      let matched := members.filter fun (name, _) => pattern.isFoundIn name
      let lists ← matched.mapM fun (name, member) =>
        below ["patternProperties", pattern.text] name member node
      return lists.flatten
    return lists.flatten
  | allMembers named patterns others, .object members => do
    let lists ← members.mapM fun (name, member) => do
      let nodes := (nodesFor named patterns others name).getD []
      let lists ← nodes.mapM fun (path, node) => below path name member node
      return lists.flatten
    let unexpected := (members.map (·.1)).filter fun name =>
      (nodesFor named patterns others name).isNone
    return lists.flatten ++
      (if unexpected.isEmpty then []
      else found "additionalProperties" (.additionalProperties unexpected))
  | noMembers, .object members =>
    return (members.take 1).map fun (_, member) =>
      ⟨instancePath, schemaPath ++ ["additionalProperties"], member, .falseSchema⟩
  | propertyNames .nothing, .object members =>
    return if members.isEmpty then [] else found "propertyNames" .falseSchema
  | propertyNames part, .object members => do
    let lists ← members.mapM fun (name, _) =>
      level.violations part (schemaPath ++ ["propertyNames"]) instancePath (.string name)
    return lists.flatten
  | dependencies keyword dependents, .object members => do
    let lists ← dependents.mapM fun (key, dependent) =>
      if !Entries.has members key then return []
      else
        match dependent with
        | .inl names =>
          return (missing members names).flatMap fun name => found keyword (.required name)
        | .inr node => inside [keyword, key] node
    return lists.flatten
  | firstItems keyword parts, .array items => do
    let lists ← (items.zip parts).zipIdx.mapM fun ((item, part), index) =>
      below [keyword, toString index] (toString index) item part
    return lists.flatten
  | laterItems keyword first part, .array items => do
    let lists ← (items.zipIdx.drop first).mapM fun (item, index) =>
      below [keyword] (toString index) item part
    return lists.flatten
  | contains part least most, .array items => do
    let count := (← items.filterM (level.isValid part)).length
    return match containsFault least most count with
      | some keyword => found keyword .contains
      | none => []
  | unevaluatedProperties _, .object members => do
    let names ← unseenMembers table level rules members
    return if names.isEmpty then []
      else found "unevaluatedProperties" (.unevaluatedProperties names)
  | unevaluatedItems _, .array items => do
    let unseen ← unseenItems table level rules items
    return if unseen.isEmpty then [] else found "unevaluatedItems" (.unevaluatedItems unseen)
  | _, _ => return []

/-- Whether a rule among others is content with a value. -/
def isValid (table : Array Node) (level : Level) (rules : List Rule) (value : Json)
    (rule : Rule) : Option Bool :=
  match rule, value with
  | assertion _ claim, value => return (claim.check value).isEmpty
  | reference _ target, value => level.isValid target value
  | shared _ index, value => table[index]?.bind (level.isValid · value)
  | allOf parts, value => parts.allM (level.isValid · value)
  | anyOf parts, value => parts.anyM (level.isValid · value)
  | oneOf parts, value => do
    match ← afterFirstValid (level.isValid · value) parts with
    | none => return false
    | some rest => return !(← rest.anyM (level.isValid · value))
  | not _ part, value => do return !(← level.isValid part value)
  | condition test positive negative, value =>
    if positive.isNone && negative.isNone then return true
    else do
      if ← level.isValid test value then positive.elim (return true) (level.isValid · value)
      else negative.elim (return true) (level.isValid · value)
  | properties named, .object members =>
    named.allM fun (name, node) =>
      match Entries.get? members name with
      | some member => level.isValid node member
      | none => return true
  | patternProperties patterns, .object members =>
    patterns.allM fun (pattern, node) =>
      (members.filter fun (name, _) => pattern.isFoundIn name).allM fun (_, member) =>
        level.isValid node member
  | allMembers named patterns others, .object members =>
    members.allM fun (name, member) =>
      match nodesFor named patterns others name with
      | some nodes => nodes.allM fun (_, node) => level.isValid node member
      | none => return false
  | noMembers, .object members => return members.isEmpty
  | propertyNames .nothing, .object members => return members.isEmpty
  | propertyNames part, .object members =>
    members.allM fun (name, _) => level.isValid part (.string name)
  | dependencies _ dependents, .object members =>
    dependents.allM fun (key, dependent) =>
      if !Entries.has members key then return true
      else
        match dependent with
        | .inl names => return (missing members names).isEmpty
        | .inr node => level.isValid node (.object members)
  | firstItems _ parts, .array items =>
    (items.zip parts).allM fun (item, part) => level.isValid part item
  | laterItems _ first part, .array items => (items.drop first).allM (level.isValid part)
  | contains part least most, .array items => do
    let count := (← items.filterM (level.isValid part)).length
    return (containsFault least most count).isNone
  | unevaluatedProperties _, .object members => do
    return (← unseenMembers table level rules members).isEmpty
  | unevaluatedItems _, .array items => do
    return (← unseenItems table level rules items).isEmpty
  | _, _ => return true

end Rule

namespace Node

mutual

/-- What a node, evaluated at most so many levels deep, finds wrong with a
value. -/
def violations (table : Array Node) : Nat → Node → Path → Path → Json → Option (List Violation)
  | 0, _, _, _, _ => none
  | _ + 1, anything, _, _, _ => some []
  | _ + 1, nothing, schemaPath, instancePath, value =>
    some [⟨instancePath, schemaPath, value, .falseSchema⟩]
  | depth + 1, rules list, schemaPath, instancePath, value => do
    let level : Level :=
      ⟨violations table depth, isValid table depth, looksAtMember table depth,
        looksAtItem table depth⟩
    let lists ← list.mapM (Rule.violations table level list schemaPath instancePath value)
    return lists.flatten

/-- Whether a node, evaluated at most so many levels deep, is content with a
value. -/
def isValid (table : Array Node) : Nat → Node → Json → Option Bool
  | 0, _, _ => none
  | _ + 1, anything, _ => some true
  | _ + 1, nothing, _ => some false
  | depth + 1, rules list, value =>
    let level : Level :=
      ⟨violations table depth, isValid table depth, looksAtMember table depth,
        looksAtItem table depth⟩
    list.allM (Rule.isValid table level list value)

/-- Whether a node, evaluated at most so many levels deep, looks at a member
of a value. -/
def looksAtMember (table : Array Node) : Nat → Node → Json → String → Json → Option Bool
  | 0, _, _, _, _ => none
  | depth + 1, rules list, value, name, member =>
    let level : Level :=
      ⟨violations table depth, isValid table depth, looksAtMember table depth,
        looksAtItem table depth⟩
    list.anyM (Rule.looksAtMember table level value name member)
  | _ + 1, _, _, _, _ => some false

/-- Whether a node, evaluated at most so many levels deep, looks at an item
of a value. -/
def looksAtItem (table : Array Node) : Nat → Node → Json → Nat → Json → Option Bool
  | 0, _, _, _, _ => none
  | depth + 1, rules list, value, index, item =>
    let level : Level :=
      ⟨violations table depth, isValid table depth, looksAtMember table depth,
        looksAtItem table depth⟩
    list.anyM (Rule.looksAtItem table level value index item)
  | _ + 1, _, _, _, _ => some false

end

end Node

end ApiContract.JsonSchema
