import ApiContract.Proofs.Dialect.Values
import ApiContract.Proofs.JsonSchema.Verdicts
import ApiContract.Proofs.Pattern.Repetition
/-!
# The meta-schema in two dialects

The meta-schema finds nothing wrong with a schema of one dialect exactly if it finds
nothing wrong with the same schema of the other one (`violations_exchange`).

Its nodes are steady: they judge a value as they judge it in the other dialect.  Those
that look at a resource itself also do so of texts.
-/

namespace ApiContract.Json

open JsonSchema (Reading)

/-! ## Equality -/

mutual

/-- Values are equal in both dialects or in neither. -/
theorem equalBy_exchange (reading : Reading) (same : Number → Number → Bool) :
    ∀ a b : Json, equalBy same (a.exchange reading) (b.exchange reading) = equalBy same a b
  | array items, b => by
    cases b with
    | array others => exact equalItems_exchange _ same items others
    | _ => rfl
  | object members, b => by
    cases b with
    | object others => exact equalMembers_exchange _ same members others
    | _ => rfl
  | null, b | bool _, b | number _, b | string _, b => by cases b <;> rfl
termination_by structural a => a

theorem equalItems_exchange (reading : Reading) (same : Number → Number → Bool) : ∀ items others : List Json,
    equalItems same (exchangeItems reading items) (exchangeItems reading others) = equalItems same items others
  | [], [] | [], _ :: _ | _ :: _, [] => rfl
  | item :: items, other :: others => by
    rw [exchangeItems, exchangeItems, equalItems, equalItems, equalBy_exchange _ same item other,
      equalItems_exchange _ same items others]
termination_by structural items => items

theorem equalMembers_exchange (reading : Reading) (same : Number → Number → Bool) :
    ∀ members others : List (String × Json),
      equalMembers same (exchangeMembers reading members) (exchangeMembers reading others) =
        equalMembers same members others
  | [], [] | [], _ :: _ | _ :: _, [] => rfl
  | (key, value) :: members, (key', value') :: others => by
    rw [exchangeMembers, exchangeMembers, equalMembers, equalMembers,
      equalMembers_exchange _ same members others]
    by_cases hkey : key = key'
    · rw [← hkey, equalUnder_exchange _ same key value value']
    · simp only [beq_eq_false_iff_ne.2 hkey, Bool.false_and]
termination_by structural members => members

theorem equalUnder_exchange (reading : Reading) (same : Number → Number → Bool) (key : String) :
    ∀ a b : Json,
    equalBy same (exchangeUnder reading key a) (exchangeUnder reading key b) = equalBy same a b
  | string text, b => by
    cases b with
    | string text' =>
      rw [exchangeUnder, exchangeUnder, equalBy, equalBy]
      split_ifs
      · rw [Bool.eq_iff_iff, beq_iff_eq, beq_iff_eq, Namespace.exchangeText_injective.eq_iff]
      · rfl
    | _ => rfl
  | array items, b => by
    cases b with
    | array others => exact equalItems_exchange _ same items others
    | _ => rfl
  | object members, b => by
    cases b with
    | object others => exact equalMembers_exchange _ same members others
    | _ => rfl
  | null, b | bool _, b | number _, b => by cases b <;> rfl
termination_by structural a => a

end

end ApiContract.Json

namespace ApiContract.JsonSchema

open Json
open Namespace (exchangeText)

/-! ## Assertions -/

/-- The value in the other dialect; or, where texts count as well, a text that is
exchanged. -/
inductive Turns (reading : Reading) : Bool → Json → Json → Prop
  | value {texts : Bool} (value : Json) : Turns reading texts value (value.exchange reading)
  | text (text : String) : Turns reading true (.string text) (.string (exchangeText text))

/-- Whether what stands under a key can be a text that is exchanged. -/
def Reading.names (reading : Reading) (key : String) : Bool := reading.isSchema && namesResource key

theorem turns_exchangeUnder (reading : Reading) (key : String) (value : Json) :
    Turns (reading.below key) (reading.names key) value (exchangeUnder reading key value) := by
  cases value with
  | string text =>
    rw [exchangeUnder]
    cases hkey : reading.names key with
    | true =>
      rw [if_pos (show (reading.isSchema && namesResource key) = true from hkey)]
      exact .text text
    | false =>
      rw [if_neg (show ¬ (reading.isSchema && namesResource key) = true by rw [← Reading.names, hkey]; simp)]
      exact .value _
  | _ => exact .value _

/-- The assertion holds of a value exactly if it does in the other dialect. -/
def Assertion.Steady (texts : Bool) (claim : Assertion) : Prop :=
  ∀ (reading : Reading) (value value' : Json), Turns reading texts value value' →
    (claim.check value').isEmpty = (claim.check value).isEmpty

namespace Assertion

variable {texts : Bool} {reading : Reading}

theorem accepts_turns {value value' : Json} (h : Turns reading texts value value') (type : TypeName) :
    type.accepts value' = type.accepts value := by
  cases h with
  | text text => cases type <;> rfl
  | value => cases value <;> cases type <;> rfl

theorem steady_type (allowed : List TypeName) : (Assertion.type allowed).Steady texts := by
  intro reading value value' h
  rw [check, check, funext fun type => accepts_turns h type]

theorem steady_minItems (least : Nat) : (minItems least).Steady texts := by
  intro reading value value' h
  cases h with
  | text text => rfl
  | value =>
    cases value with
    | array items => rw [exchange, check, check, exchangeItems_eq_map, List.length_map]
    | _ => rfl

theorem steady_minimum (least : Number) : (minimum least).Steady texts := by
  intro reading value value' h
  cases h with
  | text text => rfl
  | value => cases value <;> rfl

theorem steady_exclusiveMinimum (least : Number) : (exclusiveMinimum least).Steady texts := by
  intro reading value value' h
  cases h with
  | text text => rfl
  | value => cases value <;> rfl

theorem distinct_exchange (reading : Reading) (same : Number → Number → Bool) (items : List Json) :
    areUnique.distinct (equalBy same) (items.map (exchange reading)) =
      areUnique.distinct (equalBy same) items := by
  induction items with
  | nil => rfl
  | cons item rest ih =>
    rw [List.map_cons, areUnique.distinct, areUnique.distinct, ih, List.any_map]
    simp only [Function.comp_def, equalBy_exchange]

theorem steady_uniqueItems : uniqueItems.Steady texts := by
  intro reading value value' h
  cases h with
  | text text => rfl
  | value =>
    cases value with
    | array items =>
      rw [exchange, check, check, exchangeItems_eq_map, areUnique, areUnique, List.length_map]
      rw [distinct_exchange]
    | _ => rfl

/-- Only texts are among the options. -/
theorem steady_enum (options : List String) : (enum (options.map .string)).Steady false := by
  intro reading value value' h
  cases h with
  | value =>
    have hsame : (fun option => Json.equal (value.exchange reading) (.string option)) =
        fun option => Json.equal value (.string option) := by
      funext option
      cases value <;> rfl
    rw [check, check, List.any_map, List.any_map, Function.comp_def, Function.comp_def, hsame]

theorem steady_pattern (p : Pattern) : (pattern p).Steady false := by
  intro reading value value' h
  cases h with
  | value => cases value <;> rfl

/-- A pattern that is found in every text that can be exchanged. -/
theorem steady_pattern_of {p : Pattern}
    (h : ∀ text, '#' ∉ text.toList → p.isFoundIn text = true) : (pattern p).Steady true := by
  intro reading value value' hturns
  cases hturns with
  | value => cases value <;> rfl
  | text text =>
    rcases Namespace.exchangeText_cases text with ⟨ns, name, rfl⟩ | hsame
    · rw [Namespace.exchangeText_resourceId, check, check,
        h _ (Namespace.mark_resourceId ns name), h _ (Namespace.mark_resourceId ns.other name)]
    · rw [hsame]

end Assertion

/-! ## Nodes -/

mutual

/-- The node judges a value of a reading as it judges it in the other dialect, if the shared
nodes judge schemas so. -/
inductive Node.Steady (top : Reading) : Reading → Bool → Node → Prop
  | anything {reading : Reading} {texts : Bool} : Node.Steady top reading texts .anything
  | rules {reading : Reading} {texts : Bool} {list : List Rule}
    (h : ∀ rule ∈ list, Rule.Steady top reading texts rule) :
    Node.Steady top reading texts (.rules list)

/-- The rule judges a value of a reading as it judges it in the other dialect. -/
inductive Rule.Steady (top : Reading) : Reading → Bool → Rule → Prop
  | assertion {reading : Reading} {texts : Bool} (keyword : String) {claim : Assertion}
    (h : claim.Steady texts) : Rule.Steady top reading texts (.assertion keyword claim)
  | reference {reading : Reading} {texts : Bool} (keyword : String) {part : Node}
    (h : Node.Steady top reading texts part) : Rule.Steady top reading texts (.reference keyword part)
  | shared {texts : Bool} (keyword : String) (index : Nat) :
    Rule.Steady top top texts (.shared keyword index)
  | allOf {reading : Reading} {texts : Bool} {parts : List Node}
    (h : ∀ part ∈ parts, Node.Steady top reading texts part) :
    Rule.Steady top reading texts (.allOf parts)
  | anyOf {reading : Reading} {texts : Bool} {parts : List Node}
    (h : ∀ part ∈ parts, Node.Steady top reading texts part) :
    Rule.Steady top reading texts (.anyOf parts)
  | properties {reading : Reading} {texts : Bool} {named : List (String × Node)}
    (h : ∀ entry ∈ named, Node.Steady top (reading.below entry.1) (reading.names entry.1) entry.2) :
    Rule.Steady top reading texts (.properties named)
  | allMembers {reading : Reading} {texts : Bool} {part : Node}
    (h : ∀ key, Node.Steady top (reading.below key) (reading.names key) part) :
    Rule.Steady top reading texts (.allMembers [] [] (some part))
  | propertyNames {reading : Reading} {texts : Bool} (part : Node) :
    Rule.Steady top reading texts (.propertyNames part)
  | laterItems {reading : Reading} {texts : Bool} (keyword : String) (first : Nat) {part : Node}
    (h : Node.Steady top reading.item false part) :
    Rule.Steady top reading texts (.laterItems keyword first part)
  | anyItems {reading : Reading} {texts : Bool} : Rule.Steady top reading texts .anyItems

end

theorem allM_rel {α β : Type} {S : α → β → Prop} {f : β → Option Bool} {g : α → Option Bool}
    {as : List α} {bs : List β} (h : List.Forall₂ S as bs) (hstep : ∀ a b, a ∈ as → S a b → f b = g a) :
    bs.allM f = as.allM g := by
  induction h with
  | nil => rfl
  | cons hab _ ih =>
    rw [List.allM_cons, List.allM_cons, hstep _ _ List.mem_cons_self hab,
      ih fun a b ha => hstep a b (List.mem_cons_of_mem _ ha)]

theorem anyM_congr {α : Type} {f g : α → Option Bool} {as : List α} (h : ∀ a ∈ as, f a = g a) :
    as.anyM f = as.anyM g := by
  induction as with
  | nil => rfl
  | cons a as ih =>
    rw [List.anyM_cons, List.anyM_cons, h a List.mem_cons_self,
      ih fun a ha => h a (List.mem_cons_of_mem _ ha)]

theorem forall₂_exchangeMembers (reading : Reading) (members : List (String × Json)) :
    List.Forall₂ (fun member member' : String × Json =>
      member' = (member.1, exchangeUnder reading member.1 member.2)) members
        (exchangeMembers reading members) := by
  rw [exchangeMembers_eq_map]
  exact List.forall₂_map_right_iff.2 (List.forall₂_same.2 fun _ _ => rfl)

theorem forall₂_exchangeItems (reading : Reading) (items : List Json) :
    List.Forall₂ (fun item item' => item' = item.exchange reading) items
      (exchangeItems reading items) := by
  rw [exchangeItems_eq_map]
  exact List.forall₂_map_right_iff.2 (List.forall₂_same.2 fun _ _ => rfl)

theorem Turns.weaken {reading : Reading} {texts : Bool} {value value' : Json}
    (h : Turns reading texts value value') : Turns reading true value value' := by
  cases h with
  | value => exact .value _
  | text text => exact .text text

/-- The level judges values alike in both dialects by steady nodes. -/
def Level.Steady (top : Reading) (level : Level) : Prop :=
  ∀ reading texts (node : Node), node.Steady top reading texts →
    ∀ value value', Turns reading texts value value' → level.isValid node value' = level.isValid node value

variable {top reading : Reading} {table : Array Node} {level : Level} {texts : Bool}

/-- One level up, a steady rule judges values alike in both dialects. -/
theorem Rule.Steady.isValid (htable : ∀ (index : Nat) (node : Node), table[index]? = some node →
      node.Steady top top true) (hlevel : level.Steady top) {rule : Rule} (h : rule.Steady top reading texts)
    (rules : List Rule) {value value' : Json} (hturns : Turns reading texts value value') :
    Rule.isValid table level rules value' rule = Rule.isValid table level rules value rule := by
  cases h with
  | assertion keyword h => exact congrArg some (h reading value value' hturns)
  | reference keyword h => exact hlevel reading texts _ h value value' hturns
  | shared keyword index =>
    show table[index]?.bind (level.isValid · value') = table[index]?.bind (level.isValid · value)
    cases hnode : table[index]? with
    | none => rfl
    | some node => exact hlevel _ true node (htable index node hnode) value value' hturns.weaken
  | allOf h =>
    exact allM_rel (List.forall₂_same.2 fun _ _ => rfl) fun part _ hpart heq =>
      heq ▸ hlevel reading texts part (h part hpart) value value' hturns
  | anyOf h =>
    exact anyM_congr fun part hpart => hlevel reading texts part (h part hpart) value value' hturns
  | properties h =>
    cases hturns with
    | text text => rfl
    | value =>
      cases value with
      | object members =>
        refine allM_rel (List.forall₂_same.2 fun _ _ => rfl) ?_
        rintro ⟨name, node⟩ _ hentry rfl
        have hget := get?_exchange reading (object members) name
        rw [exchange, Json.get?, Json.get?] at hget
        dsimp only
        rw [hget]
        cases Entries.get? members name with
        | none => rfl
        | some member =>
          exact hlevel _ _ node (h _ hentry) member _ (turns_exchangeUnder reading name member)
      | _ => rfl
  | allMembers h =>
    cases hturns with
    | text text => rfl
    | value =>
      cases value with
      | object members =>
        refine allM_rel (forall₂_exchangeMembers reading members) ?_
        rintro ⟨name, member⟩ _ - rfl
        have hsame := hlevel _ _ _ (h name) member _ (turns_exchangeUnder reading name member)
        simp [nodesFor, hsame]
      | _ => rfl
  | propertyNames part =>
    cases hturns with
    | text text => cases part <;> rfl
    | value =>
      cases value with
      | object members =>
        have hnames : (exchangeMembers reading members).allM
              (fun member => level.isValid part (.string member.1)) =
            members.allM fun member => level.isValid part (.string member.1) := by
          refine allM_rel (forall₂_exchangeMembers reading members) ?_
          rintro member _ - rfl
          rfl
        cases part with
        | nothing => cases members <;> rfl
        | _ => exact hnames
      | _ => cases part <;> rfl
  | laterItems keyword first h =>
    cases hturns with
    | text text => rfl
    | value =>
      cases value with
      | array items =>
        refine allM_rel (List.forall₂_drop first (forall₂_exchangeItems reading.item items)) ?_
        rintro item _ - rfl
        exact hlevel _ false _ h item _ (.value item)
      | _ => rfl
  | anyItems => cases hturns <;> rfl

/-- A steady node judges values alike in both dialects. -/
theorem Node.Steady.isValid (htable : ∀ (index : Nat) (node : Node), table[index]? = some node →
      node.Steady top top true) (depth : Nat) : (Level.at_ table depth).Steady top := by
  induction depth with
  | zero =>
    rw [Level.at_zero]
    exact fun _ _ _ _ _ _ _ => rfl
  | succ depth ih =>
    rw [Level.at_succ]
    intro reading texts node hnode value value' hturns
    cases hnode with
    | anything => rfl
    | rules h =>
      exact allM_rel (List.forall₂_same.2 fun _ _ => rfl) fun rule _ hrule heq =>
        heq ▸ (h rule hrule).isValid htable ih _ hturns

/-! ## The meta-schema -/

namespace MetaSchema.Compiled

variable {part : Node}

@[simp] theorem steady_rules {list : List Rule} : Node.Steady top reading texts (.rules list) ↔
    ∀ rule ∈ list, rule.Steady top reading texts :=
  ⟨fun h => by cases h; assumption, .rules⟩

attribute [simp] Node.Steady.anything Rule.Steady.reference Rule.Steady.shared Rule.Steady.allOf
  Rule.Steady.anyOf Rule.Steady.properties Rule.Steady.allMembers Rule.Steady.propertyNames
  Rule.Steady.laterItems Rule.Steady.anyItems Rule.Steady.assertion Assertion.steady_minItems
  Assertion.steady_minimum Assertion.steady_exclusiveMinimum Assertion.steady_uniqueItems

@[simp] theorem steady_hasType (types : List TypeName) : (hasType types).Steady top reading texts :=
  .assertion "type" (Assertion.steady_type types)

@[simp] theorem steady_ofType (type : TypeName) : (ofType type).Steady top reading texts := by
  simp [ofType]

@[simp] theorem steady_referTo (h : part.Steady top reading texts) :
    (referTo part).Steady top reading texts := by
  simp [referTo, h]

theorem mem_matching {text : String} {rule : Rule} : rule ∈ matching text ↔
    ∃ p, Pattern.ofText? text = some p ∧ rule = .assertion "pattern" (.pattern p) := by
  simp [matching, eq_comm]

@[simp] theorem steady_anchorString : anchorString.Steady top reading false := by
  refine .rules fun rule hrule => ?_
  rcases List.mem_append.1 hrule with hrule | hrule
  · obtain ⟨p, -, rfl⟩ := mem_matching.1 hrule
    exact .assertion "pattern" (Assertion.steady_pattern p)
  · exact List.mem_singleton.1 hrule ▸ steady_hasType _

@[simp] theorem steady_nonNegativeInteger : nonNegativeInteger.Steady top reading texts := by
  simp [nonNegativeInteger]

@[simp] theorem steady_stringArray : stringArray.Steady top reading texts := by simp [stringArray]

@[simp] theorem steady_simpleTypes : simpleTypes.Steady top reading false := by
  have henum := Assertion.steady_enum (TypeName.all.map TypeName.name)
  rw [List.map_map] at henum
  exact steady_rules.2 (List.forall_mem_singleton.2 (.assertion "enum" henum))

/-- What an identifier is matched with is found in every text without number signs. -/
theorem identifierPattern : Pattern.ofText? "^[^#]*#?$" = some ⟨"^[^#]*#?$",
    .sequence (.anchor .textStart) (.sequence
      (.repetition (.char (.complement (.union .none (.range '#' '#')))) 0 none true)
      (.sequence (.repetition (.char (.range '#' '#')) 0 (some 1) true) (.anchor .textEnd)))⟩ := by
  with_unfolding_all rfl

theorem steady_identifier {rule : Rule} (h : rule ∈ matching "^[^#]*#?$") :
    rule.Steady top reading true := by
  obtain ⟨p, hp, rfl⟩ := mem_matching.1 h
  obtain rfl := Option.some.inj (identifierPattern.symm.trans hp)
  refine .assertion "pattern" (Assertion.steady_pattern_of fun text htext => ?_)
  refine Pattern.Tree.isFoundIn_whole fun c hc => ?_
  have hne : c ≠ '#' := fun heq => htext (heq ▸ hc)
  simpa [Pattern.CharSet.contains] using hne

/-! ### Schemas in the meta-schema -/

theorem steady_schema : schema.Steady top top texts := by simp [schema]

variable (htop : top.isSchema = true) {keyword : String}

include htop

theorem steady_schema_below (h : Reading.ofKeyword keyword = .schema) :
    schema.Steady top (top.below keyword) texts := by
  rw [Reading.below_schema htop h]
  exact steady_schema

theorem steady_member_below (h : Reading.ofKeyword keyword = .schemas) (key : String) :
    schema.Steady top ((top.below keyword).below key) texts := by
  rw [Reading.below_below_schemas htop h]
  exact steady_schema

theorem steady_schemaMap_below (h : Reading.ofKeyword keyword = .schemas) :
    schemaMap.Steady top (top.below keyword) texts := by
  simp [schemaMap, steady_member_below htop h]

theorem steady_schemaArray_below (h : Reading.ofKeyword keyword = .schemas) :
    schemaArray.Steady top (top.below keyword) texts := by
  simp [schemaArray, Reading.item_below_schemas htop h, steady_schema]

omit htop in
theorem steady_vocabulary {keywords : List (String × Node)}
    (h : ∀ entry ∈ keywords, entry.2.Steady top (top.below entry.1) (top.names entry.1)) :
    (vocabulary keywords).Steady top top texts :=
  steady_rules.2 (List.forall_mem_cons.2 ⟨.properties h, List.forall_mem_singleton.2 (steady_hasType _)⟩)

theorem steady_core : core.Steady top top texts := by
  refine steady_vocabulary ?_
  have hmap : schemaMap.Steady top (top.below "$defs") false := steady_schemaMap_below htop rfl
  simpa [Reading.names, htop, namesResource, hmap] using fun rule => steady_identifier

theorem steady_applicator : applicator.Steady top top texts := by
  refine steady_vocabulary ?_
  simp [steady_schema_below htop, steady_schemaMap_below htop, steady_schemaArray_below htop,
    steady_member_below htop, Reading.ofKeyword, Reading.schemaKeywords, Reading.schemasKeywords]

theorem steady_unevaluated : unevaluated.Steady top top texts := by
  refine steady_vocabulary ?_
  simp [steady_schema_below htop, Reading.ofKeyword, Reading.schemaKeywords]

omit htop in
theorem steady_validation : validation.Steady top top texts := by
  have hparts : ∀ part ∈ [referTo simpleTypes, .rules [.laterItems "items" 0 (referTo simpleTypes),
      .assertion "minItems" (.minItems 1), hasType [.array], .assertion "uniqueItems" .uniqueItems]],
      part.Steady top (top.below "type") false := by
    simp
  exact steady_vocabulary (by simp [Reading.names, namesResource, Rule.Steady.anyOf hparts])

omit htop in
theorem steady_metaData : metaData.Steady top top texts :=
  steady_vocabulary (by simp)

omit htop in
theorem steady_formatAnnotation : formatAnnotation.Steady top top texts :=
  steady_vocabulary (by simp)

theorem steady_content : content.Steady top top texts := by
  refine steady_vocabulary ?_
  simp [steady_schema_below htop, Reading.ofKeyword, Reading.schemaKeywords]

theorem steady_root : root.Steady top top texts := by
  have hdependency (key : String) : Node.Steady top ((top.below "dependencies").below key)
      ((top.below "dependencies").names key) (.rules [.anyOf [schema, referTo stringArray]]) := by
    simp [steady_member_below htop (show Reading.ofKeyword "dependencies" = .schemas from rfl)]
  refine steady_rules.2 (List.forall_mem_cons.2 ⟨.allOf ?_, List.forall_mem_cons.2 ⟨.properties ?_,
    List.forall_mem_singleton.2 (steady_hasType _)⟩⟩)
  · simp [steady_core htop, steady_applicator htop, steady_unevaluated htop, steady_validation,
      steady_metaData, steady_formatAnnotation, steady_content htop]
  · simp [Reading.names, namesResource, Rule.Steady.allMembers hdependency,
      steady_schemaMap_below htop (show Reading.ofKeyword "definitions" = .schemas from rfl)]

/-- A schema satisfies the meta-schema exactly if it does in the other dialect. -/
theorem violations_exchange (schema : Json) :
    Validator.metaSchema.violations (schema.exchange top) = some [] ↔
      Validator.metaSchema.violations schema = some [] := by
  have htable : ∀ (index : Nat) (node : Node), Validator.metaSchema.shared[index]? = some node →
      node.Steady top top true := by
    intro index node hnode
    obtain rfl := List.mem_singleton.1 (Array.mem_toList_iff.2 (Array.mem_of_getElem? hnode))
    exact steady_root htop
  have hsame (depth : Nat) :=
    Node.Steady.isValid htable depth top true root (steady_root htop) schema _ (.value schema)
  rw [Validator.violations_eq_nil_iff, Validator.violations_eq_nil_iff]
  exact exists_congr fun depth => Eq.congr_left (hsame depth)

end MetaSchema.Compiled

end ApiContract.JsonSchema
