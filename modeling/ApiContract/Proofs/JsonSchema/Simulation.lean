import ApiContract.JsonSchema.Rule
import ApiContract.Proofs.Entries
import ApiContract.Proofs.JsonSchema.Answers
/-!
# Simulation of nodes

Two nodes that are built alike judge values alike.  A simulation is a relation
between the nodes of two validators that is kept from a node to the parts of
its rules; references may be followed on the one side by a node in their place
and on the other side by a shared node.

One level of evaluation preserves what is known of the level below
(`Level.Sim.next`), so whatever a node answers at some depth, a related node
answers at the same depth (`Level.sim_at`).
-/

namespace ApiContract.JsonSchema

/-! ## Levels -/

namespace Level

/-- The level that answers nothing. -/
def bottom : Level :=
  ⟨fun _ _ _ _ => none, fun _ _ => none, fun _ _ _ _ => none, fun _ _ _ _ => none⟩

/-- The level above a level. -/
def next (table : Array Node) (level : Level) : Level where
  violations node schemaPath instancePath value :=
    match node with
    | .anything => some []
    | .nothing => some [⟨instancePath, schemaPath, value, .falseSchema⟩]
    | .rules list => do
      let lists ← list.mapM (Rule.violations table level list schemaPath instancePath value)
      return lists.flatten
  isValid node value :=
    match node with
    | .anything => some true
    | .nothing => some false
    | .rules list => list.allM (Rule.isValid table level list value)
  looksAtMember node value name member :=
    match node with
    | .rules list => list.anyM (Rule.looksAtMember table level value name member)
    | _ => some false
  looksAtItem node value index item :=
    match node with
    | .rules list => list.anyM (Rule.looksAtItem table level value index item)
    | _ => some false

/-- What the nodes answer that are evaluated so many levels deep. -/
def at_ (table : Array Node) (depth : Nat) : Level :=
  ⟨Node.violations table depth, Node.isValid table depth, Node.looksAtMember table depth,
    Node.looksAtItem table depth⟩

theorem at_zero (table : Array Node) : at_ table 0 = bottom := by
  simp only [at_, bottom, mk.injEq]
  refine ⟨?_, ?_, ?_, ?_⟩
  · funext node schemaPath instancePath value
    rw [Node.violations]
  · funext node value
    rw [Node.isValid]
  · funext node value name member
    rw [Node.looksAtMember]
  · funext node value index item
    rw [Node.looksAtItem]

theorem at_succ (table : Array Node) (depth : Nat) :
    at_ table (depth + 1) = next table (at_ table depth) := by
  simp only [at_, next, mk.injEq]
  refine ⟨?_, ?_, ?_, ?_⟩
  · funext node schemaPath instancePath value
    cases node <;> rw [Node.violations]
  · funext node value
    cases node <;> rw [Node.isValid]
  · funext node value name member
    cases node <;> simp [Node.looksAtMember]
  · funext node value index item
    cases node <;> simp [Node.looksAtItem]

end Level

/-! ## Rules that are alike -/

/-- The rule applies the node to the same value, in the name of a keyword. -/
inductive Rule.LeadsTo (table : Array Node) : Rule → String → Option Node → Prop
  | reference (keyword : String) (node : Node) :
    LeadsTo table (.reference keyword node) keyword (some node)
  | shared (keyword : String) (index : Nat) :
    LeadsTo table (.shared keyword index) keyword table[index]?

/-- Rules with the same contents up to related nodes, and up to related schemas where a
rule keeps the schema that a value must not satisfy. -/
inductive Rule.Sim (E : Json → Json → Prop) (N : Node → Node → Prop) (table table' : Array Node) :
    Rule → Rule → Prop
  | follow {rule rule' : Rule} {keyword : String} {node node' : Option Node}
    (h : rule.LeadsTo table keyword node) (h' : rule'.LeadsTo table' keyword node')
    (hnode : Option.Rel N node node') : Sim E N table table' rule rule'
  | assertion (keyword : String) (claim : Assertion) :
    Sim E N table table' (.assertion keyword claim) (.assertion keyword claim)
  | allOf {parts parts' : List Node} (h : List.Forall₂ N parts parts') :
    Sim E N table table' (.allOf parts) (.allOf parts')
  | anyOf {parts parts' : List Node} (h : List.Forall₂ N parts parts') :
    Sim E N table table' (.anyOf parts) (.anyOf parts')
  | oneOf {parts parts' : List Node} (h : List.Forall₂ N parts parts') :
    Sim E N table table' (.oneOf parts) (.oneOf parts')
  | not {schema schema' : Json} {part part' : Node} (hschema : E schema schema') (h : N part part') :
    Sim E N table table' (.not schema part) (.not schema' part')
  | condition {test test' : Node} {positive positive' negative negative' : Option Node}
    (htest : N test test') (hpositive : Option.Rel N positive positive')
    (hnegative : Option.Rel N negative negative') :
    Sim E N table table' (.condition test positive negative) (.condition test' positive' negative')
  | properties {named named' : List (String × Node)}
    (h : List.Forall₂ (fun a b => a.1 = b.1 ∧ N a.2 b.2) named named') :
    Sim E N table table' (.properties named) (.properties named')
  | patternProperties {patterns patterns' : List (Pattern × Node)}
    (h : List.Forall₂ (fun a b => a.1 = b.1 ∧ N a.2 b.2) patterns patterns') :
    Sim E N table table' (.patternProperties patterns) (.patternProperties patterns')
  | allMembers {named named' : List (String × Node)} {patterns patterns' : List (Pattern × Node)}
    {others others' : Option Node}
    (hnamed : List.Forall₂ (fun a b => a.1 = b.1 ∧ N a.2 b.2) named named')
    (hpatterns : List.Forall₂ (fun a b => a.1 = b.1 ∧ N a.2 b.2) patterns patterns')
    (hothers : Option.Rel N others others') :
    Sim E N table table' (.allMembers named patterns others) (.allMembers named' patterns' others')
  | noMembers : Sim E N table table' .noMembers .noMembers
  | anyMembers : Sim E N table table' .anyMembers .anyMembers
  | propertyNames {part part' : Node} (h : N part part') :
    Sim E N table table' (.propertyNames part) (.propertyNames part')
  | dependencies (keyword : String) {dependents dependents' : List (String × (List String ⊕ Node))}
    (h : List.Forall₂ (fun a b => a.1 = b.1 ∧ Sum.LiftRel Eq N a.2 b.2) dependents dependents') :
    Sim E N table table' (.dependencies keyword dependents) (.dependencies keyword dependents')
  | firstItems (keyword : String) {parts parts' : List Node} (h : List.Forall₂ N parts parts') :
    Sim E N table table' (.firstItems keyword parts) (.firstItems keyword parts')
  | laterItems (keyword : String) (first : Nat) {part part' : Node} (h : N part part') :
    Sim E N table table' (.laterItems keyword first part) (.laterItems keyword first part')
  | anyItems : Sim E N table table' .anyItems .anyItems
  | contains {part part' : Node} (least most : Option Nat) (h : N part part') :
    Sim E N table table' (.contains part least most) (.contains part' least most)
  | unevaluatedProperties {part part' : Node} (h : N part part') :
    Sim E N table table' (.unevaluatedProperties part) (.unevaluatedProperties part')
  | unevaluatedItems {part part' : Node} (h : N part part') :
    Sim E N table table' (.unevaluatedItems part) (.unevaluatedItems part')

/-- Nodes with the same rules up to related nodes. -/
inductive Node.Sim (E : Json → Json → Prop) (N : Node → Node → Prop) (table table' : Array Node) :
    Node → Node → Prop
  | anything : Sim E N table table' .anything .anything
  | nothing : Sim E N table table' .nothing .nothing
  | rules {list list' : List Rule} (h : List.Forall₂ (Rule.Sim E N table table') list list') :
    Sim E N table table' (.rules list) (.rules list')

/-- Related nodes are alike, up to related nodes. -/
def IsSimulation (E : Json → Json → Prop) (N : Node → Node → Prop) (table table' : Array Node) :
    Prop :=
  ∀ node node', N node node' → node.Sim E N table table' node'

/-! ## Values -/

/-- The members of an object. -/
def membersOf : Json → List (String × Json)
  | .object members => members
  | _ => []

/-- The items of an array. -/
def itemsOf : Json → List Json
  | .array items => items
  | _ => []

/-- Going from a value to its items, its members and their names, one stays
among the values. -/
structure IsClosed (V : Json → Prop) : Prop where
  item : ∀ value item, V value → item ∈ itemsOf value → V item
  member : ∀ value name member, V value → (name, member) ∈ membersOf value → V member
  name : ∀ value name member, V value → (name, member) ∈ membersOf value → V (.string name)

/-- Two places in the schema and in the value, from which one goes on in the
same way, and how the schemas correspond that a value must not satisfy. -/
structure Move where
  schema : Path
  schema' : Path
  value : Path
  value' : Path
  negated : Json → Json → Prop
  negated_self : ∀ schema, negated schema schema

/-- Causes that are the same up to the schema that a value must not satisfy. -/
inductive Cause.Sim (E : Json → Json → Prop) : Cause → Cause → Prop
  | same (cause : Cause) : Sim E cause cause
  | not {schema schema' : Json} (h : E schema schema') : Sim E (.not schema) (.not schema')

/-- The same violation, found behind the first places of a move and behind the
second ones. -/
def Move.Moved (move : Move) (a b : Violation) : Prop :=
  ∃ schemaPath valuePath value cause cause', cause.Sim move.negated cause' ∧
    a = ⟨move.value ++ valuePath, move.schema ++ schemaPath, value, cause⟩ ∧
      b = ⟨move.value' ++ valuePath, move.schema' ++ schemaPath, value, cause'⟩

/-- On some values, a level answers whatever the other one answers of related
nodes. -/
structure Level.Sim (N : Node → Node → Prop) (V : Json → Prop) (move : Move)
    (level level' : Level) : Prop where
  violations : ∀ node node' value, N node node' → V value → ∀ schemaPath valuePath,
    Below (List.Forall₂ move.Moved)
      (level.violations node (move.schema ++ schemaPath) (move.value ++ valuePath) value)
      (level'.violations node' (move.schema' ++ schemaPath) (move.value' ++ valuePath) value)
  isValid : ∀ node node' value, N node node' → V value →
    Below Eq (level.isValid node value) (level'.isValid node' value)
  looksAtMember : ∀ node node' value name member, N node node' → V value →
    (name, member) ∈ membersOf value →
    Below Eq (level.looksAtMember node value name member)
      (level'.looksAtMember node' value name member)
  looksAtItem : ∀ node node' value index item, N node node' → V value →
    (item, index) ∈ (itemsOf value).zipIdx →
    Below Eq (level.looksAtItem node value index item) (level'.looksAtItem node' value index item)

/-! ## Parts of related rules -/

section Parts

variable {α : Type} {E : Json → Json → Prop} {N : Node → Node → Prop} {table table' : Array Node}

/-- Entries with the same keys and related nodes. -/
abbrev Named (N : Node → Node → Prop) (a b : α × Node) : Prop := a.1 = b.1 ∧ N a.2 b.2

theorem isRuled_eq (hN : IsSimulation E N table table') {node node' : Node} (h : N node node') :
    Rule.isRuled node = Rule.isRuled node' := by
  cases hN node node' h <;> rfl

theorem filter_isRuled (hN : IsSimulation E N table table') {parts parts' : List Node}
    (h : List.Forall₂ N parts parts') :
    List.Forall₂ N (parts.filter Rule.isRuled) (parts'.filter Rule.isRuled) := by
  induction h with
  | nil => exact .nil
  | cons hnode _ ih =>
    rw [List.filter_cons, List.filter_cons, isRuled_eq hN hnode]
    split
    · exact .cons hnode ih
    · exact ih

theorem lookup_rel {named named' : List (String × Node)}
    (h : List.Forall₂ (Named N) named named') (name : String) :
    Option.Rel N (named.lookup name) (named'.lookup name) := by
  induction h with
  | nil => exact .none
  | @cons a b _ _ hab _ ih =>
    obtain ⟨key, node⟩ := a
    obtain ⟨key', node'⟩ := b
    obtain ⟨rfl : key = key', hnode⟩ := hab
    simp only [List.lookup_cons]
    cases name == key with
    | true => exact .some hnode
    | false => exact ih

theorem matching_rel {patterns patterns' : List (Pattern × Node)}
    (h : List.Forall₂ (Named N) patterns patterns') (name : String) :
    List.Forall₂ (Named N) (patterns.filter fun (pattern, _) => pattern.isFoundIn name)
      (patterns'.filter fun (pattern, _) => pattern.isFoundIn name) := by
  induction h with
  | nil => exact .nil
  | @cons a b _ _ hab _ ih =>
    obtain ⟨pattern, node⟩ := a
    obtain ⟨pattern', node'⟩ := b
    obtain ⟨rfl : pattern = pattern', hnode⟩ := hab
    simp only [List.filter_cons]
    split
    · exact .cons ⟨rfl, hnode⟩ ih
    · exact ih

theorem map_snd_rel {patterns patterns' : List (α × Node)}
    (h : List.Forall₂ (Named N) patterns patterns') :
    List.Forall₂ N (patterns.map (·.2)) (patterns'.map (·.2)) :=
  List.forall₂_map_left_iff.2 (List.forall₂_map_right_iff.2 (h.imp fun _ _ hab => hab.2))

theorem nodesFor_rel {named named' : List (String × Node)}
    {patterns patterns' : List (Pattern × Node)} {others others' : Option Node}
    (hnamed : List.Forall₂ (Named N) named named')
    (hpatterns : List.Forall₂ (Named N) patterns patterns')
    (hothers : Option.Rel N others others') (name : String) :
    Option.Rel (List.Forall₂ (Named N)) (Rule.nodesFor named patterns others name)
      (Rule.nodesFor named' patterns' others' name) := by
  have hmatched : List.Forall₂ (Named N)
      ((patterns.filter fun (pattern, _) => pattern.isFoundIn name).map
        fun (pattern, node) => (["patternProperties", pattern.text], node))
      ((patterns'.filter fun (pattern, _) => pattern.isFoundIn name).map
        fun (pattern, node) => (["patternProperties", pattern.text], node)) := by
    refine List.forall₂_map_left_iff.2 (List.forall₂_map_right_iff.2
      ((matching_rel hpatterns name).imp ?_))
    rintro ⟨pattern, node⟩ ⟨pattern', node'⟩ ⟨rfl, hnode⟩
    exact ⟨rfl, hnode⟩
  unfold Rule.nodesFor
  dsimp only
  generalize (List.filter _ patterns).map _ = matched at hmatched ⊢
  generalize (List.filter _ patterns').map _ = matched' at hmatched ⊢
  have hfound := lookup_rel hnamed name
  generalize named.lookup name = found at hfound ⊢
  generalize named'.lookup name = found' at hfound ⊢
  cases hfound with
  | some hnode => exact .some (.cons ⟨rfl, hnode⟩ hmatched)
  | none =>
    cases hmatched with
    | cons hfirst hrest => exact .some (.cons hfirst hrest)
    | nil =>
      cases hothers with
      | some hnode => exact .some (.cons ⟨rfl, hnode⟩ .nil)
      | none => exact .none

theorem rel_bind {β : Type} {node node' : Option Node} (h : Option.Rel N node node')
    {f g : Node → Option β} (hstep : ∀ n n', N n n' → Below Eq (f n) (g n')) :
    Below Eq (node.bind f) (node'.bind g) := by
  cases h with
  | some hnode => exact hstep _ _ hnode
  | none => exact Below.none _

theorem rel_elim {β : Type} {node node' : Option Node} (h : Option.Rel N node node')
    {default : Option β} {f g : Node → Option β}
    (hstep : ∀ n n', N n n' → Below Eq (f n) (g n')) :
    Below Eq (node.elim default f) (node'.elim default g) := by
  cases h with
  | some hnode => exact hstep _ _ hnode
  | none => exact Below.refl _

theorem rel_isNone {β γ : Type} {R : β → γ → Prop} {x : Option β} {y : Option γ}
    (h : Option.Rel R x y) : x.isNone = y.isNone := by
  cases h <;> rfl

theorem afterFirstValid_rel {valid valid' : Node → Option Bool} {parts parts' : List Node}
    (h : List.Forall₂ N parts parts')
    (hvalid : ∀ n n', N n n' → Below Eq (valid n) (valid' n')) :
    Below (Option.Rel (List.Forall₂ N)) (Rule.afterFirstValid valid parts)
      (Rule.afterFirstValid valid' parts') := by
  induction h with
  | nil => exact Below.some .none
  | cons hnode hrest ih =>
    rw [Rule.afterFirstValid, Rule.afterFirstValid]
    refine Below.bind_eq (hvalid _ _ hnode) fun accepted => ?_
    cases accepted with
    | true => exact Below.pure (.some hrest)
    | false => exact ih

end Parts

/-! ## One level -/

namespace Rule

variable {E : Json → Json → Prop} {N : Node → Node → Prop} {V : Json → Prop} {move : Move}
  {table table' : Array Node} {level level' : Level} {rule rule' : Rule}

theorem Sim.partsLook (hN : IsSimulation E N table table') (h : rule.Sim E N table table' rule')
    {valid valid' looks looks' : Node → Option Bool}
    (hvalid : ∀ n n', N n n' → Below Eq (valid n) (valid' n'))
    (hlooks : ∀ n n', N n n' → Below Eq (looks n) (looks' n')) :
    Below Eq (Rule.partsLook valid looks rule) (Rule.partsLook valid' looks' rule') := by
  cases h with
  | follow h h' _ => cases h <;> cases h' <;> exact Below.pure rfl
  | allOf hparts =>
    have hruled := filter_isRuled hN hparts
    refine Below.bind_eq (Below.allM hruled fun n n' _ _ hn => hvalid n n' hn) fun accepted => ?_
    cases accepted with
    | true => exact Below.anyM hruled fun n n' _ _ hn => hlooks n n' hn
    | false => exact Below.pure rfl
  | oneOf hparts =>
    have hruled := filter_isRuled hN hparts
    refine Below.bind (Below.filterM hruled fun n n' _ _ hn => hvalid n n' hn) ?_
    intro kept kept' hkept
    cases hkept with
    | nil => exact Below.pure rfl
    | cons hn hrest =>
      cases hrest with
      | nil => exact hlooks _ _ hn
      | cons _ _ => exact Below.pure rfl
  | condition htest hpositive hnegative =>
    refine Below.bind_eq (hvalid _ _ htest) fun accepted => ?_
    cases accepted with
    | true =>
      refine Below.bind_eq (hlooks _ _ htest) fun looked => ?_
      cases looked with
      | true => exact Below.pure rfl
      | false => exact rel_elim hpositive hlooks
    | false => exact rel_elim hnegative hlooks
  | _ => exact Below.pure rfl

/-- What it comes to that a rule leads to a node. -/
theorem LeadsTo.looksAtMember {keyword : String} {node : Option Node}
    (h : rule.LeadsTo table keyword node) (value : Json) (name : String) (member : Json) :
    Rule.looksAtMember table level value name member rule =
      node.bind fun node => level.looksAtMember node value name member := by
  cases h <;> rfl

theorem LeadsTo.looksAtItem {keyword : String} {node : Option Node}
    (h : rule.LeadsTo table keyword node) (value : Json) (index : Nat) (item : Json) :
    Rule.looksAtItem table level value index item rule =
      node.bind fun node => level.looksAtItem node value index item := by
  cases h <;> rfl

theorem LeadsTo.violations {keyword : String} {node : Option Node}
    (h : rule.LeadsTo table keyword node) (rules : List Rule) (schemaPath instancePath : Path)
    (value : Json) :
    Rule.violations table level rules schemaPath instancePath value rule =
      node.bind fun node => level.violations node (schemaPath ++ [keyword]) instancePath value := by
  cases h <;> rfl

theorem LeadsTo.isValid {keyword : String} {node : Option Node}
    (h : rule.LeadsTo table keyword node) (rules : List Rule) (value : Json) :
    Rule.isValid table level rules value rule =
      node.bind fun node => level.isValid node value := by
  cases h <;> rfl

theorem Sim.looksAtMember (hN : IsSimulation E N table table') (hV : IsClosed V)
    (hl : Level.Sim N V move level level') (h : rule.Sim E N table table' rule') {value : Json}
    (hvalue : V value) {name : String} {member : Json} (hmem : (name, member) ∈ membersOf value) :
    Below Eq (Rule.looksAtMember table level value name member rule)
      (Rule.looksAtMember table' level' value name member rule') := by
  have hmember := hV.member value name member hvalue hmem
  have hvalid := fun n n' hn => hl.isValid n n' value hn hvalue
  have hvalid' := fun n n' hn => hl.isValid n n' member hn hmember
  have hlooks := fun n n' hn => hl.looksAtMember n n' value name member hn hvalue hmem
  have hmatched : ∀ {patterns patterns' : List (Pattern × Node)},
      List.Forall₂ (Named N) patterns patterns' →
      List.Forall₂ N ((patterns.filter fun (pattern, _) => pattern.isFoundIn name).map (·.2))
        ((patterns'.filter fun (pattern, _) => pattern.isFoundIn name).map (·.2)) :=
    fun h => map_snd_rel (matching_rel h name)
  cases h with
  | follow h h' hnode =>
    rw [h.looksAtMember, h'.looksAtMember]
    exact rel_bind hnode hlooks
  | @properties named named' hnamed =>
    simp only [Rule.looksAtMember]
    have hfound := lookup_rel hnamed name
    generalize named.lookup name = found at hfound ⊢
    generalize named'.lookup name = found' at hfound ⊢
    cases hfound with
    | some hnode => exact hvalid' _ _ hnode
    | none => exact Below.pure rfl
  | patternProperties hpatterns =>
    exact Below.anyM (hmatched hpatterns) fun n n' _ _ hn => hvalid' n n' hn
  | @allMembers named named' patterns patterns' others others' hnamed hpatterns hothers =>
    have hm := hmatched hpatterns
    simp only [Rule.looksAtMember]
    have hfound := lookup_rel hnamed name
    generalize named.lookup name = found at hfound ⊢
    generalize named'.lookup name = found' at hfound ⊢
    cases hfound with
    | some hnode => exact Below.anyM (.cons hnode hm) fun n n' _ _ hn => hvalid' n n' hn
    | none =>
      generalize (List.filter _ _).map _ = matched at hm ⊢
      generalize (List.filter _ _).map _ = matched' at hm ⊢
      cases hm with
      | cons hfirst hrest =>
        exact Below.anyM (.cons hfirst hrest) fun n n' _ _ hn => hvalid' n n' hn
      | nil =>
        cases hothers with
        | some hnode => exact hvalid' _ _ hnode
        | none => exact Below.pure rfl
  | anyOf hparts =>
    refine Below.anyM (filter_isRuled hN hparts) fun n n' _ _ hn => ?_
    refine Below.bind_eq (hvalid n n' hn) fun accepted => ?_
    cases accepted with
    | true => exact hlooks n n' hn
    | false => exact Below.pure rfl
  | dependencies keyword hdependents =>
    refine Below.anyM hdependents fun a b _ _ hab => ?_
    obtain ⟨key, dependent⟩ := a
    obtain ⟨key', dependent'⟩ := b
    obtain ⟨rfl : key = key', hdependent⟩ := hab
    cases hdependent with
    | inl _ => exact Below.pure rfl
    | inr hnode =>
      dsimp only
      cases value.get? key with
      | none => exact Below.pure rfl
      | some _ => exact hlooks _ _ hnode
  | unevaluatedProperties hpart => exact hvalid' _ _ hpart
  | allOf hparts => exact (Sim.allOf hparts).partsLook hN hvalid hlooks
  | oneOf hparts => exact (Sim.oneOf hparts).partsLook hN hvalid hlooks
  | condition htest hpositive hnegative =>
    exact (Sim.condition htest hpositive hnegative).partsLook hN hvalid hlooks
  | _ => exact Below.pure rfl

theorem Sim.looksAtItem (hN : IsSimulation E N table table') (hV : IsClosed V)
    (hl : Level.Sim N V move level level') (h : rule.Sim E N table table' rule') {value : Json}
    (hvalue : V value) {index : Nat} {item : Json} (hmem : (item, index) ∈ (itemsOf value).zipIdx) :
    Below Eq (Rule.looksAtItem table level value index item rule)
      (Rule.looksAtItem table' level' value index item rule') := by
  have hitem : V item := hV.item value item hvalue (List.fst_mem_of_mem_zipIdx hmem)
  have hvalid := fun n n' hn => hl.isValid n n' value hn hvalue
  have hvalid' := fun n n' hn => hl.isValid n n' item hn hitem
  have hlooks := fun n n' hn => hl.looksAtItem n n' value index item hn hvalue hmem
  cases h with
  | follow h h' hnode =>
    rw [h.looksAtItem, h'.looksAtItem]
    exact rel_bind hnode hlooks
  | firstItems keyword hparts =>
    simp only [Rule.looksAtItem, hparts.length_eq]
    exact Below.refl _
  | contains least most hpart => exact hvalid' _ _ hpart
  | anyOf hparts =>
    have hruled := filter_isRuled hN hparts
    refine Below.bind_eq (Below.allM hruled fun n n' _ _ hn => hvalid n n' hn) fun accepted => ?_
    cases accepted with
    | true => exact Below.anyM hruled fun n n' _ _ hn => hlooks n n' hn
    | false => exact Below.pure rfl
  | unevaluatedItems hpart => exact hvalid' _ _ hpart
  | allOf hparts => exact (Sim.allOf hparts).partsLook hN hvalid hlooks
  | oneOf hparts => exact (Sim.oneOf hparts).partsLook hN hvalid hlooks
  | condition htest hpositive hnegative =>
    exact (Sim.condition htest hpositive hnegative).partsLook hN hvalid hlooks
  | _ => exact Below.pure rfl

section Rules

variable {rules rules' : List Rule}

theorem unseenMembers_sim (hN : IsSimulation E N table table') (hV : IsClosed V)
    (hl : Level.Sim N V move level level') (h : List.Forall₂ (Rule.Sim E N table table') rules rules')
    {members : List (String × Json)} (hvalue : V (.object members)) :
    Below Eq (unseenMembers table level rules members)
      (unseenMembers table' level' rules' members) := by
  refine Below.bind (Below.filterM (Below.forall₂_eq members) ?_) ?_
  · rintro ⟨name, member⟩ _ hmem - rfl
    refine Below.bind_eq (Below.anyM h fun rule rule' _ _ hrule => ?_) fun _ => Below.pure rfl
    exact hrule.looksAtMember hN hV hl hvalue hmem
  · rintro unseen unseen' hunseen
    rw [List.forall₂_eq_eq_eq] at hunseen
    exact hunseen ▸ Below.pure rfl

theorem unseenItems_sim (hN : IsSimulation E N table table') (hV : IsClosed V)
    (hl : Level.Sim N V move level level') (h : List.Forall₂ (Rule.Sim E N table table') rules rules')
    {items : List Json} (hvalue : V (.array items)) :
    Below Eq (unseenItems table level rules items) (unseenItems table' level' rules' items) := by
  refine Below.bind (Below.filterM (Below.forall₂_eq items.zipIdx) ?_) ?_
  · rintro ⟨item, index⟩ _ hmem - rfl
    refine Below.bind_eq (Below.anyM h fun rule rule' _ _ hrule => ?_) fun _ => Below.pure rfl
    exact hrule.looksAtItem hN hV hl hvalue hmem
  · rintro unseen unseen' hunseen
    rw [List.forall₂_eq_eq_eq] at hunseen
    exact hunseen ▸ Below.pure rfl

/-- Lists of violations, one for each element, put together. -/
theorem flatten_mapM {α β : Type} {S : α → β → Prop} {f : α → Option (List Violation)}
    {g : β → Option (List Violation)} {as : List α} {bs : List β} (h : List.Forall₂ S as bs)
    {extra extra' : List Violation} (hextra : List.Forall₂ move.Moved extra extra')
    (hstep : ∀ a b, a ∈ as → b ∈ bs → S a b → Below (List.Forall₂ move.Moved) (f a) (g b)) :
    Below (List.Forall₂ move.Moved) (as.mapM f >>= fun lists => pure (lists.flatten ++ extra))
      (bs.mapM g >>= fun lists => pure (lists.flatten ++ extra')) := by
  refine Below.bind (Below.mapM h hstep) fun lists lists' hlists => Below.pure ?_
  exact List.rel_append (List.rel_flatten hlists) hextra

theorem flatten_mapM' {α β : Type} {S : α → β → Prop} {f : α → Option (List Violation)}
    {g : β → Option (List Violation)} {as : List α} {bs : List β} (h : List.Forall₂ S as bs)
    (hstep : ∀ a b, a ∈ as → b ∈ bs → S a b → Below (List.Forall₂ move.Moved) (f a) (g b)) :
    Below (List.Forall₂ move.Moved) (as.mapM f >>= fun lists => pure lists.flatten)
      (bs.mapM g >>= fun lists => pure lists.flatten) := by
  refine Below.bind (Below.mapM h hstep) fun lists lists' hlists => Below.pure ?_
  exact List.rel_flatten hlists

/-- What is found at the two places, cause by cause. -/
theorem moved_causes (schemaPath valuePath : Path) (value : Json) (causes : List Cause) :
    List.Forall₂ move.Moved
      (causes.map fun cause =>
        ⟨move.value ++ valuePath, move.schema ++ schemaPath, value, cause⟩)
      (causes.map fun cause =>
        ⟨move.value' ++ valuePath, move.schema' ++ schemaPath, value, cause⟩) := by
  refine List.forall₂_map_left_iff.2 (List.forall₂_map_right_iff.2 (List.forall₂_same.2 ?_))
  intro cause _
  exact ⟨schemaPath, valuePath, value, cause, cause, .same cause, rfl, rfl⟩

/-- What is found at the two places for one cause. -/
theorem moved_found (move : Move) (schemaPath valuePath : Path) (keyword : String) (value : Json)
    {cause cause' : Cause} (h : cause.Sim move.negated cause') :
    List.Forall₂ move.Moved
      [⟨move.value ++ valuePath, move.schema ++ schemaPath ++ [keyword], value, cause⟩]
      [⟨move.value' ++ valuePath, move.schema' ++ schemaPath ++ [keyword], value, cause'⟩] := by
  rw [List.append_assoc, List.append_assoc]
  exact .cons ⟨schemaPath ++ [keyword], valuePath, value, cause, cause', h, rfl, rfl⟩ .nil

theorem moved_flatMap {α : Type} (as : List α) {f g : α → List Violation}
    (h : ∀ a, List.Forall₂ move.Moved (f a) (g a)) :
    List.Forall₂ move.Moved (as.flatMap f) (as.flatMap g) := by
  induction as with
  | nil => exact .nil
  | cons a as ih => exact List.rel_append (h a) ih

theorem zipIdx_rel {α β : Type} {S : α → β → Prop} {as : List α} {bs : List β}
    (h : List.Forall₂ S as bs) (start : Nat) :
    List.Forall₂ (fun a b => S a.1 b.1 ∧ a.2 = b.2) (as.zipIdx start) (bs.zipIdx start) := by
  induction h generalizing start with
  | nil => exact .nil
  | cons hab _ ih => exact .cons ⟨hab, rfl⟩ (ih (start + 1))

theorem zip_rel {α : Type} {parts parts' : List Node} (h : List.Forall₂ N parts parts')
    (items : List α) :
    List.Forall₂ (fun a b => a.1 = b.1 ∧ N a.2 b.2) (items.zip parts) (items.zip parts') := by
  induction h generalizing items with
  | nil => simp
  | cons hn _ ih =>
    cases items with
    | nil => exact .nil
    | cons item items => exact .cons ⟨rfl, hn⟩ (ih items)

end Rules

/-! ## One rule at a time -/

/-- What a rule is evaluated with: the shared nodes, the level below and the rules beside it. -/
structure Context where
  table : Array Node
  level : Level
  rules : List Rule

/-- Related nodes are alike, the levels answer alike, and so do the rules beside. -/
structure Context.Sim (N : Node → Node → Prop) (V : Json → Prop) (move : Move)
    (context context' : Context) : Prop where
  nodes : IsSimulation move.negated N context.table context'.table
  closed : IsClosed V
  level : context.level.Sim N V move context'.level
  rules : List.Forall₂ (Rule.Sim move.negated N context.table context'.table) context.rules
    context'.rules

namespace Context

/-- What the one rule finds wrong with a value at the first places of a move, the other one finds
wrong with it at the second ones. -/
def FindAlike (move : Move) (context context' : Context) (value : Json) (rule rule' : Rule) : Prop :=
  ∀ schemaPath valuePath, Below (List.Forall₂ move.Moved)
    (rule.violations context.table context.level context.rules (move.schema ++ schemaPath)
      (move.value ++ valuePath) value)
    (rule'.violations context'.table context'.level context'.rules (move.schema' ++ schemaPath)
      (move.value' ++ valuePath) value)

/-- The one rule is content with a value if and only if the other one is. -/
def JudgeAlike (context context' : Context) (value : Json) (rule rule' : Rule) : Prop :=
  Below Eq (rule.isValid context.table context.level context.rules value)
    (rule'.isValid context'.table context'.level context'.rules value)

namespace Sim

variable {context context' : Context} {value part : Json} {node node' : Node}
  {parts parts' : List Node} {named named' : List (String × Node)}
  {patterns patterns' : List (Pattern × Node)} {others others' : Option Node}

section Parts

variable (h : Context.Sim N V move context context')
include h

theorem valid (hvalue : V value) (hnode : N node node') :
    Below Eq (context.level.isValid node value) (context'.level.isValid node' value) :=
  h.level.isValid node node' value hnode hvalue

/-- What is found wrong with the value itself. -/
theorem inside (hvalue : V value) (hnode : N node node') (schemaPath valuePath path : Path) :
    Below (List.Forall₂ move.Moved)
      (context.level.violations node (move.schema ++ schemaPath ++ path) (move.value ++ valuePath)
        value)
      (context'.level.violations node' (move.schema' ++ schemaPath ++ path)
        (move.value' ++ valuePath) value) := by
  rw [List.append_assoc, List.append_assoc]
  exact h.level.violations node node' value hnode hvalue _ _

/-- What is found wrong with a part of the value. -/
theorem below (hpart : V part) (hnode : N node node') (schemaPath valuePath path : Path) (key : String) :
    Below (List.Forall₂ move.Moved)
      (context.level.violations node (move.schema ++ schemaPath ++ path)
        (move.value ++ valuePath ++ [key]) part)
      (context'.level.violations node' (move.schema' ++ schemaPath ++ path)
        (move.value' ++ valuePath ++ [key]) part) := by
  simp only [List.append_assoc]
  exact h.level.violations node node' part hnode hpart _ _

theorem filterM_isValid {items : List Json} (hitems : ∀ item ∈ items, V item) (hnode : N node node') :
    Below Eq (items.filterM (context.level.isValid node))
      (items.filterM (context'.level.isValid node')) := by
  have hkept := Below.filterM (p := context.level.isValid node) (q := context'.level.isValid node')
    (Below.forall₂_eq items) (by
      rintro item _ hmem - rfl
      exact h.valid (hitems item hmem) hnode)
  rwa [List.forall₂_eq_eq_eq] at hkept

end Parts

/-! ### Rules about the value itself -/

section InPlace

variable (h : Context.Sim N V move context context') (hvalue : V value)
include h hvalue

theorem find_follow {keyword : String} {target target' : Option Node}
    (hrule : rule.LeadsTo context.table keyword target)
    (hrule' : rule'.LeadsTo context'.table keyword target') (htarget : Option.Rel N target target') :
    FindAlike move context context' value rule rule' := by
  intro schemaPath valuePath
  rw [hrule.violations, hrule'.violations]
  cases htarget with
  | some hnode => exact h.inside hvalue hnode _ _ _
  | none => exact Below.none _

theorem judge_follow {keyword : String} {target target' : Option Node}
    (hrule : rule.LeadsTo context.table keyword target)
    (hrule' : rule'.LeadsTo context'.table keyword target') (htarget : Option.Rel N target target') :
    JudgeAlike context context' value rule rule' := by
  rw [JudgeAlike, hrule.isValid, hrule'.isValid]
  exact rel_bind htarget fun n n' hn => h.valid hvalue hn

theorem find_allOf (hparts : List.Forall₂ N parts parts') :
    FindAlike move context context' value (.allOf parts) (.allOf parts') := by
  intro schemaPath valuePath
  refine flatten_mapM' (zipIdx_rel hparts 0) ?_
  rintro ⟨n, index⟩ ⟨n', index'⟩ - - ⟨hn, rfl⟩
  exact h.inside hvalue hn _ _ _

theorem find_anyOf (hparts : List.Forall₂ N parts parts') :
    FindAlike move context context' value (.anyOf parts) (.anyOf parts') := by
  intro schemaPath valuePath
  refine Below.bind_eq (Below.anyM hparts fun n n' _ _ hn => h.valid hvalue hn) fun accepted => ?_
  cases accepted with
  | true => exact Below.pure .nil
  | false => exact Below.pure (moved_found move schemaPath valuePath "anyOf" value (.same _))

theorem find_oneOf (hparts : List.Forall₂ N parts parts') :
    FindAlike move context context' value (.oneOf parts) (.oneOf parts') := by
  intro schemaPath valuePath
  have hfound := fun cause => moved_found move schemaPath valuePath "oneOf" value (.same cause)
  refine Below.bind (afterFirstValid_rel hparts fun n n' hn => h.valid hvalue hn) ?_
  intro rest rest' hrest
  cases hrest with
  | none => exact Below.pure (hfound _)
  | some hrest =>
    refine Below.bind_eq (Below.anyM hrest fun n n' _ _ hn => h.valid hvalue hn) fun accepted => ?_
    cases accepted with
    | true => exact Below.pure (hfound _)
    | false => exact Below.pure .nil

theorem judge_oneOf (hparts : List.Forall₂ N parts parts') :
    JudgeAlike context context' value (.oneOf parts) (.oneOf parts') := by
  refine Below.bind (afterFirstValid_rel hparts fun n n' hn => h.valid hvalue hn) ?_
  intro rest rest' hrest
  cases hrest with
  | none => exact Below.pure rfl
  | some hrest =>
    exact Below.bind_eq (Below.anyM hrest fun n n' _ _ hn => h.valid hvalue hn) fun _ => Below.refl _

theorem find_not {schema schema' : Json} (hschema : move.negated schema schema')
    (hnode : N node node') :
    FindAlike move context context' value (.not schema node) (.not schema' node') := by
  intro schemaPath valuePath
  refine Below.bind_eq (h.valid hvalue hnode) fun accepted => ?_
  cases accepted with
  | true => exact Below.pure (moved_found move schemaPath valuePath "not" value (.not hschema))
  | false => exact Below.pure .nil

theorem find_condition {test test' : Node} {positive positive' negative negative' : Option Node}
    (htest : N test test') (hpositive : Option.Rel N positive positive')
    (hnegative : Option.Rel N negative negative') :
    FindAlike move context context' value (.condition test positive negative)
      (.condition test' positive' negative') := by
  intro schemaPath valuePath
  simp only [Rule.violations, rel_isNone hpositive, rel_isNone hnegative]
  split
  · exact Below.pure .nil
  · refine Below.bind_eq (h.valid hvalue htest) fun accepted => ?_
    cases accepted with
    | true =>
      cases hpositive with
      | some hnode => exact h.inside hvalue hnode _ _ _
      | none => exact Below.pure .nil
    | false =>
      cases hnegative with
      | some hnode => exact h.inside hvalue hnode _ _ _
      | none => exact Below.pure .nil

theorem judge_condition {test test' : Node} {positive positive' negative negative' : Option Node}
    (htest : N test test') (hpositive : Option.Rel N positive positive')
    (hnegative : Option.Rel N negative negative') :
    JudgeAlike context context' value (.condition test positive negative)
      (.condition test' positive' negative') := by
  simp only [JudgeAlike, Rule.isValid, rel_isNone hpositive, rel_isNone hnegative]
  split
  · exact Below.pure rfl
  · refine Below.bind_eq (h.valid hvalue htest) fun accepted => ?_
    cases accepted with
    | true => exact rel_elim hpositive fun n n' hn => h.valid hvalue hn
    | false => exact rel_elim hnegative fun n n' hn => h.valid hvalue hn

theorem find_dependencies (keyword : String)
    {dependents dependents' : List (String × (List String ⊕ Node))}
    (hdependents : List.Forall₂ (fun a b => a.1 = b.1 ∧ Sum.LiftRel Eq N a.2 b.2) dependents
      dependents') :
    FindAlike move context context' value (.dependencies keyword dependents)
      (.dependencies keyword dependents') := by
  intro schemaPath valuePath
  cases value with
  | object members =>
    refine flatten_mapM' hdependents ?_
    rintro ⟨key, dependent⟩ ⟨key', dependent'⟩ - - ⟨hkey, hdependent⟩
    obtain rfl : key = key' := hkey
    dsimp only
    split
    · exact Below.pure .nil
    · cases hdependent with
      | inl hnames =>
        exact hnames ▸ Below.pure (moved_flatMap _ fun name =>
          moved_found move schemaPath valuePath keyword _ (.same _))
      | inr hnode => exact h.inside hvalue hnode _ _ _
  | _ => exact Below.pure .nil

theorem judge_dependencies (keyword : String)
    {dependents dependents' : List (String × (List String ⊕ Node))}
    (hdependents : List.Forall₂ (fun a b => a.1 = b.1 ∧ Sum.LiftRel Eq N a.2 b.2) dependents
      dependents') :
    JudgeAlike context context' value (.dependencies keyword dependents)
      (.dependencies keyword dependents') := by
  cases value with
  | object members =>
    refine Below.allM hdependents ?_
    rintro ⟨key, dependent⟩ ⟨key', dependent'⟩ - - ⟨hkey, hdependent⟩
    obtain rfl : key = key' := hkey
    dsimp only
    split
    · exact Below.refl _
    · cases hdependent with
      | inl hnames => exact hnames ▸ Below.refl _
      | inr hnode => exact h.valid hvalue hnode
  | _ => exact Below.pure rfl

/-! ### Rules about the members -/

theorem find_properties (hnamed : List.Forall₂ (Named N) named named') :
    FindAlike move context context' value (.properties named) (.properties named') := by
  intro schemaPath valuePath
  cases value with
  | object members =>
    refine flatten_mapM' hnamed ?_
    rintro ⟨name, n⟩ ⟨name', n'⟩ - - ⟨hname, hn⟩
    obtain rfl : name = name' := hname
    dsimp only
    cases hget : Entries.get? members name with
    | none => exact Below.pure .nil
    | some member =>
      have hmember := h.closed.member _ name member hvalue (Entries.mem_of_get?_eq_some hget)
      exact h.below hmember hn _ _ _ name
  | _ => exact Below.pure .nil

theorem judge_properties (hnamed : List.Forall₂ (Named N) named named') :
    JudgeAlike context context' value (.properties named) (.properties named') := by
  cases value with
  | object members =>
    refine Below.allM hnamed ?_
    rintro ⟨name, n⟩ ⟨name', n'⟩ - - ⟨hname, hn⟩
    obtain rfl : name = name' := hname
    dsimp only
    cases hget : Entries.get? members name with
    | none => exact Below.refl _
    | some member =>
      exact h.valid (h.closed.member _ name member hvalue (Entries.mem_of_get?_eq_some hget)) hn
  | _ => exact Below.pure rfl

theorem find_patternProperties (hpatterns : List.Forall₂ (Named N) patterns patterns') :
    FindAlike move context context' value (.patternProperties patterns)
      (.patternProperties patterns') := by
  intro schemaPath valuePath
  cases value with
  | object members =>
    refine flatten_mapM' hpatterns ?_
    rintro ⟨pattern, n⟩ ⟨pattern', n'⟩ - - ⟨hpattern, hn⟩
    obtain rfl : pattern = pattern' := hpattern
    refine flatten_mapM' (Below.forall₂_eq _) ?_
    rintro ⟨name, member⟩ _ hmem - rfl
    have hmember := h.closed.member _ name member hvalue (List.mem_of_mem_filter hmem)
    exact h.below hmember hn _ _ _ name
  | _ => exact Below.pure .nil

theorem judge_patternProperties (hpatterns : List.Forall₂ (Named N) patterns patterns') :
    JudgeAlike context context' value (.patternProperties patterns)
      (.patternProperties patterns') := by
  cases value with
  | object members =>
    refine Below.allM hpatterns ?_
    rintro ⟨pattern, n⟩ ⟨pattern', n'⟩ - - ⟨hpattern, hn⟩
    obtain rfl : pattern = pattern' := hpattern
    refine Below.allM (Below.forall₂_eq _) ?_
    rintro ⟨name, member⟩ _ hmem - rfl
    exact h.valid (h.closed.member _ name member hvalue (List.mem_of_mem_filter hmem)) hn
  | _ => exact Below.pure rfl

theorem find_allMembers (hnamed : List.Forall₂ (Named N) named named')
    (hpatterns : List.Forall₂ (Named N) patterns patterns') (hothers : Option.Rel N others others') :
    FindAlike move context context' value (.allMembers named patterns others)
      (.allMembers named' patterns' others') := by
  intro schemaPath valuePath
  cases value with
  | object members =>
    have hnodes := nodesFor_rel hnamed hpatterns hothers
    simp only [Rule.violations, fun name => rel_isNone (hnodes name)]
    refine flatten_mapM (Below.forall₂_eq members) ?_ ?_
    · split
      · exact .nil
      · exact moved_found move schemaPath valuePath _ _ (.same _)
    · rintro ⟨name, member⟩ _ hmem - rfl
      have hfor := hnodes name
      dsimp only
      generalize Rule.nodesFor _ _ _ name = nodes at hfor ⊢
      generalize Rule.nodesFor _ _ _ name = nodes' at hfor ⊢
      cases hfor with
      | none => exact Below.pure .nil
      | some hlist =>
        refine flatten_mapM' hlist ?_
        rintro ⟨path, n⟩ ⟨path', n'⟩ - - ⟨hpath, hn⟩
        obtain rfl : path = path' := hpath
        exact h.below (h.closed.member _ name member hvalue hmem) hn _ _ path name
  | _ => exact Below.pure .nil

theorem judge_allMembers (hnamed : List.Forall₂ (Named N) named named')
    (hpatterns : List.Forall₂ (Named N) patterns patterns') (hothers : Option.Rel N others others') :
    JudgeAlike context context' value (.allMembers named patterns others)
      (.allMembers named' patterns' others') := by
  cases value with
  | object members =>
    refine Below.allM (Below.forall₂_eq members) ?_
    rintro ⟨name, member⟩ _ hmem - rfl
    have hfor := nodesFor_rel hnamed hpatterns hothers name
    dsimp only
    generalize Rule.nodesFor _ _ _ name = nodes at hfor ⊢
    generalize Rule.nodesFor _ _ _ name = nodes' at hfor ⊢
    cases hfor with
    | none => exact Below.refl _
    | some hlist =>
      refine Below.allM hlist ?_
      rintro ⟨path, n⟩ ⟨path', n'⟩ - - ⟨-, hn⟩
      exact h.valid (h.closed.member _ name member hvalue hmem) hn
  | _ => exact Below.pure rfl

theorem find_propertyNames (hnode : N node node') :
    FindAlike move context context' value (.propertyNames node) (.propertyNames node') := by
  intro schemaPath valuePath
  cases value with
  | object members =>
    have hnames : ∀ a b : String × Json, a ∈ members → b ∈ members → a = b →
        Below (List.Forall₂ move.Moved)
          (context.level.violations node (move.schema ++ schemaPath ++ ["propertyNames"])
            (move.value ++ valuePath) (.string a.1))
          (context'.level.violations node' (move.schema' ++ schemaPath ++ ["propertyNames"])
            (move.value' ++ valuePath) (.string b.1)) := by
      rintro ⟨name, member⟩ _ hmem - rfl
      exact h.inside (h.closed.name _ name member hvalue hmem) hnode _ _ _
    cases h.nodes _ _ hnode with
    | nothing =>
      simp only [Rule.violations]
      split
      · exact Below.pure .nil
      · exact Below.pure (moved_found move schemaPath valuePath _ _ (.same _))
    | anything => exact flatten_mapM' (Below.forall₂_eq members) hnames
    | rules _ => exact flatten_mapM' (Below.forall₂_eq members) hnames
  | _ => cases h.nodes _ _ hnode <;> exact Below.pure .nil

theorem judge_propertyNames (hnode : N node node') :
    JudgeAlike context context' value (.propertyNames node) (.propertyNames node') := by
  cases value with
  | object members =>
    have hnames : ∀ a b : String × Json, a ∈ members → b ∈ members → a = b →
        Below Eq (context.level.isValid node (.string a.1))
          (context'.level.isValid node' (.string b.1)) := by
      rintro ⟨name, member⟩ _ hmem - rfl
      exact h.valid (h.closed.name _ name member hvalue hmem) hnode
    cases h.nodes _ _ hnode with
    | nothing => exact Below.refl _
    | anything => exact Below.allM (Below.forall₂_eq members) hnames
    | rules _ => exact Below.allM (Below.forall₂_eq members) hnames
  | _ => cases h.nodes _ _ hnode <;> exact Below.refl _

theorem find_unevaluatedProperties (node node' : Node) :
    FindAlike move context context' value (.unevaluatedProperties node)
      (.unevaluatedProperties node') := by
  intro schemaPath valuePath
  cases value with
  | object members =>
    refine Below.bind_eq (unseenMembers_sim h.nodes h.closed h.level h.rules hvalue) fun names => ?_
    refine Below.pure ?_
    split
    · exact .nil
    · exact moved_found move schemaPath valuePath _ _ (.same _)
  | _ => exact Below.pure .nil

theorem judge_unevaluatedProperties (node node' : Node) :
    JudgeAlike context context' value (.unevaluatedProperties node)
      (.unevaluatedProperties node') := by
  cases value with
  | object members =>
    exact Below.bind_eq (unseenMembers_sim h.nodes h.closed h.level h.rules hvalue) fun _ =>
      Below.refl _
  | _ => exact Below.pure rfl

/-! ### Rules about the items -/

theorem find_firstItems (keyword : String) (hparts : List.Forall₂ N parts parts') :
    FindAlike move context context' value (.firstItems keyword parts) (.firstItems keyword parts') := by
  intro schemaPath valuePath
  cases value with
  | array items =>
    refine flatten_mapM' (zipIdx_rel (zip_rel hparts items) 0) ?_
    rintro ⟨⟨item, n⟩, index⟩ ⟨⟨item', n'⟩, index'⟩ hmem - ⟨⟨hitem, hn⟩, hindex⟩
    obtain rfl : item = item' := hitem
    obtain rfl : index = index' := hindex
    have hmem := (List.of_mem_zip (List.fst_mem_of_mem_zipIdx hmem)).1
    exact h.below (h.closed.item _ item hvalue hmem) hn _ _ _ _
  | _ => exact Below.pure .nil

theorem judge_firstItems (keyword : String) (hparts : List.Forall₂ N parts parts') :
    JudgeAlike context context' value (.firstItems keyword parts) (.firstItems keyword parts') := by
  cases value with
  | array items =>
    refine Below.allM (zip_rel hparts items) ?_
    rintro ⟨item, n⟩ ⟨item', n'⟩ hmem - ⟨hitem, hn⟩
    obtain rfl : item = item' := hitem
    exact h.valid (h.closed.item _ item hvalue (List.of_mem_zip hmem).1) hn
  | _ => exact Below.pure rfl

theorem find_laterItems (keyword : String) (first : Nat) (hnode : N node node') :
    FindAlike move context context' value (.laterItems keyword first node)
      (.laterItems keyword first node') := by
  intro schemaPath valuePath
  cases value with
  | array items =>
    refine flatten_mapM' (Below.forall₂_eq _) ?_
    rintro ⟨item, index⟩ _ hmem - rfl
    have hmem := List.fst_mem_of_mem_zipIdx (List.mem_of_mem_drop hmem)
    exact h.below (h.closed.item _ item hvalue hmem) hnode _ _ _ _
  | _ => exact Below.pure .nil

theorem judge_laterItems (keyword : String) (first : Nat) (hnode : N node node') :
    JudgeAlike context context' value (.laterItems keyword first node)
      (.laterItems keyword first node') := by
  cases value with
  | array items =>
    refine Below.allM (Below.forall₂_eq _) ?_
    rintro item _ hmem - rfl
    exact h.valid (h.closed.item _ item hvalue (List.mem_of_mem_drop hmem)) hnode
  | _ => exact Below.pure rfl

theorem find_contains (least most : Option Nat) (hnode : N node node') :
    FindAlike move context context' value (.contains node least most)
      (.contains node' least most) := by
  intro schemaPath valuePath
  cases value with
  | array items =>
    have hitems := fun item hmem => h.closed.item _ item hvalue hmem
    refine Below.bind_eq (h.filterM_isValid hitems hnode) fun kept => Below.pure ?_
    split
    · exact moved_found move schemaPath valuePath _ _ (.same _)
    · exact .nil
  | _ => exact Below.pure .nil

theorem judge_contains (least most : Option Nat) (hnode : N node node') :
    JudgeAlike context context' value (.contains node least most) (.contains node' least most) := by
  cases value with
  | array items =>
    have hitems := fun item hmem => h.closed.item _ item hvalue hmem
    exact Below.bind_eq (h.filterM_isValid hitems hnode) fun _ => Below.refl _
  | _ => exact Below.pure rfl

theorem find_unevaluatedItems (node node' : Node) :
    FindAlike move context context' value (.unevaluatedItems node) (.unevaluatedItems node') := by
  intro schemaPath valuePath
  cases value with
  | array items =>
    refine Below.bind_eq (unseenItems_sim h.nodes h.closed h.level h.rules hvalue) fun unseen => ?_
    refine Below.pure ?_
    split
    · exact .nil
    · exact moved_found move schemaPath valuePath _ _ (.same _)
  | _ => exact Below.pure .nil

theorem judge_unevaluatedItems (node node' : Node) :
    JudgeAlike context context' value (.unevaluatedItems node) (.unevaluatedItems node') := by
  cases value with
  | array items =>
    exact Below.bind_eq (unseenItems_sim h.nodes h.closed h.level h.rules hvalue) fun _ =>
      Below.refl _
  | _ => exact Below.pure rfl

end InPlace

/-! ### All rules -/

section All

variable (h : Context.Sim N V move context context')
  (hrule : rule.Sim move.negated N context.table context'.table rule') (hvalue : V value)
include h hrule hvalue

theorem find : FindAlike move context context' value rule rule' := by
  cases hrule with
  | follow hleads hleads' htarget => exact h.find_follow hvalue hleads hleads' htarget
  | assertion keyword claim =>
    intro schemaPath valuePath
    exact Below.pure (moved_flatMap _ fun cause =>
      moved_found move schemaPath valuePath keyword value (.same cause))
  | allOf hparts => exact h.find_allOf hvalue hparts
  | anyOf hparts => exact h.find_anyOf hvalue hparts
  | oneOf hparts => exact h.find_oneOf hvalue hparts
  | not hschema hnode => exact h.find_not hvalue hschema hnode
  | condition htest hpositive hnegative => exact h.find_condition hvalue htest hpositive hnegative
  | properties hnamed => exact h.find_properties hvalue hnamed
  | patternProperties hpatterns => exact h.find_patternProperties hvalue hpatterns
  | allMembers hnamed hpatterns hothers => exact h.find_allMembers hvalue hnamed hpatterns hothers
  | noMembers =>
    intro schemaPath valuePath
    cases value with
    | object members =>
      refine Below.pure ?_
      cases members with
      | nil => exact .nil
      | cons member members => exact moved_found move schemaPath valuePath _ member.2 (.same _)
    | _ => exact Below.pure .nil
  | propertyNames hnode => exact h.find_propertyNames hvalue hnode
  | dependencies keyword hdependents => exact h.find_dependencies hvalue keyword hdependents
  | firstItems keyword hparts => exact h.find_firstItems hvalue keyword hparts
  | laterItems keyword first hnode => exact h.find_laterItems hvalue keyword first hnode
  | contains least most hnode => exact h.find_contains hvalue least most hnode
  | unevaluatedProperties _ => exact h.find_unevaluatedProperties hvalue _ _
  | unevaluatedItems _ => exact h.find_unevaluatedItems hvalue _ _
  | anyMembers | anyItems =>
    intro schemaPath valuePath
    cases value <;> exact Below.pure .nil

theorem judge : JudgeAlike context context' value rule rule' := by
  cases hrule with
  | follow hleads hleads' htarget => exact h.judge_follow hvalue hleads hleads' htarget
  | assertion keyword claim => exact Below.refl _
  | allOf hparts => exact Below.allM hparts fun n n' _ _ hn => h.valid hvalue hn
  | anyOf hparts => exact Below.anyM hparts fun n n' _ _ hn => h.valid hvalue hn
  | oneOf hparts => exact h.judge_oneOf hvalue hparts
  | not _ hnode => exact Below.bind_eq (h.valid hvalue hnode) fun _ => Below.refl _
  | condition htest hpositive hnegative => exact h.judge_condition hvalue htest hpositive hnegative
  | properties hnamed => exact h.judge_properties hvalue hnamed
  | patternProperties hpatterns => exact h.judge_patternProperties hvalue hpatterns
  | allMembers hnamed hpatterns hothers => exact h.judge_allMembers hvalue hnamed hpatterns hothers
  | propertyNames hnode => exact h.judge_propertyNames hvalue hnode
  | dependencies keyword hdependents => exact h.judge_dependencies hvalue keyword hdependents
  | firstItems keyword hparts => exact h.judge_firstItems hvalue keyword hparts
  | laterItems keyword first hnode => exact h.judge_laterItems hvalue keyword first hnode
  | contains least most hnode => exact h.judge_contains hvalue least most hnode
  | unevaluatedProperties _ => exact h.judge_unevaluatedProperties hvalue _ _
  | unevaluatedItems _ => exact h.judge_unevaluatedItems hvalue _ _
  | noMembers | anyMembers | anyItems => cases value <;> exact Below.refl _

end All

end Sim

end Context

end Rule

namespace Level

variable {N : Node → Node → Prop} {V : Json → Prop} {move : Move} {table table' : Array Node}

/-- What is known of two levels holds of the levels above them. -/
theorem Sim.next {level level' : Level} (hN : IsSimulation move.negated N table table') (hV : IsClosed V)
    (hl : Level.Sim N V move level level') :
    Level.Sim N V move (level.next table) (level'.next table') := by
  constructor
  · intro node node' value hnode hvalue schemaPath valuePath
    cases hN node node' hnode with
    | anything => exact Below.some .nil
    | nothing => exact Below.some (Rule.moved_causes schemaPath valuePath value [.falseSchema])
    | rules hrules =>
      have hcontext : Rule.Context.Sim N V move ⟨table, level, _⟩ ⟨table', level', _⟩ :=
        ⟨hN, hV, hl, hrules⟩
      refine Rule.flatten_mapM' hrules fun rule rule' _ _ hrule => ?_
      exact hcontext.find hrule hvalue schemaPath valuePath
  · intro node node' value hnode hvalue
    cases hN node node' hnode with
    | rules hrules =>
      have hcontext : Rule.Context.Sim N V move ⟨table, level, _⟩ ⟨table', level', _⟩ :=
        ⟨hN, hV, hl, hrules⟩
      exact Below.allM hrules fun rule rule' _ _ hrule => hcontext.judge hrule hvalue
    | _ => exact Below.refl _
  · intro node node' value name member hnode hvalue hmem
    cases hN node node' hnode with
    | rules hrules =>
      exact Below.anyM hrules fun rule rule' _ _ hrule => hrule.looksAtMember hN hV hl hvalue hmem
    | _ => exact Below.refl _
  · intro node node' value index item hnode hvalue hmem
    cases hN node node' hnode with
    | rules hrules =>
      exact Below.anyM hrules fun rule rule' _ _ hrule => hrule.looksAtItem hN hV hl hvalue hmem
    | _ => exact Below.refl _

theorem sim_bottom (level : Level) : Level.Sim N V move bottom level :=
  ⟨fun _ _ _ _ _ _ _ => Below.none _, fun _ _ _ _ _ => Below.none _,
    fun _ _ _ _ _ _ _ _ => Below.none _, fun _ _ _ _ _ _ _ _ => Below.none _⟩

/-- Whatever a node answers at some depth, a related node answers at the same
depth. -/
theorem sim_at (hN : IsSimulation move.negated N table table') (hV : IsClosed V) (depth : Nat) :
    Level.Sim N V move (at_ table depth) (at_ table' depth) := by
  induction depth with
  | zero =>
    rw [at_zero]
    exact sim_bottom _
  | succ depth ih =>
    rw [at_succ, at_succ]
    exact ih.next hN hV

end Level

end ApiContract.JsonSchema
