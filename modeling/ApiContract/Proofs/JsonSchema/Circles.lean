import ApiContract.Proofs.JsonSchema.Links
import ApiContract.Proofs.JsonSchema.Verdicts
/-!
# Staying at a value

An evaluation goes on to a part of the value, or it stays at the value and goes
to another node (`Node.Stays`).  A node can be evaluated one level above a level
that has the answers about the nodes it stays with, and those of all nodes about
the parts of the value (`Level.settles_at_succ`).
-/

namespace ApiContract.JsonSchema

/-! ## Staying at a value -/

/-- The nodes that a rule applies to the value itself. -/
def Rule.inPlace (table : Array Node) : Rule → List Node
  | shared _ index => table[index]?.toList
  | properties _ | patternProperties _ | allMembers _ _ _ | propertyNames _ | firstItems _ _
  | laterItems _ _ _ | contains _ _ _ | unevaluatedProperties _ | unevaluatedItems _ => []
  | rule => rule.parts

/-- A node applies another one to the value itself. -/
def Node.Stays (table : Array Node) (node part : Node) : Prop :=
  ∃ list rule, node = .rules list ∧ rule ∈ list ∧ part ∈ rule.inPlace table

/-- What a value consists of: its items, its members and their names. -/
inductive PartOf (value : Json) : Json → Prop
  | item {item : Json} (h : item ∈ itemsOf value) : PartOf value item
  | member {name : String} {member : Json} (h : (name, member) ∈ membersOf value) :
    PartOf value member
  | name {name : String} {member : Json} (h : (name, member) ∈ membersOf value) :
    PartOf value (.string name)

/-- The level has all answers of a node about a value. -/
structure Level.Settles (level : Level) (node : Node) (value : Json) : Prop where
  violations : ∀ schemaPath valuePath, (level.violations node schemaPath valuePath value).isSome
  isValid : (level.isValid node value).isSome
  looksAtMember : ∀ name member, (name, member) ∈ membersOf value →
    (level.looksAtMember node value name member).isSome
  looksAtItem : ∀ index item, (item, index) ∈ (itemsOf value).zipIdx →
    (level.looksAtItem node value index item).isSome

namespace Rule

/-- The level has all answers that a rule asks for about a value. -/
structure Ready (table : Array Node) (level : Level) (value : Json) (rule : Rule) : Prop where
  stays : ∀ node ∈ rule.inPlace table, level.Settles node value
  goes : ∀ node ∈ rule.parts, ∀ part, PartOf value part → level.Settles node part
  linked : ∀ keyword index, rule = .shared keyword index → ∃ node, table[index]? = some node

variable {table : Array Node} {level : Level} {value : Json} {rule : Rule}

theorem mem_matching {patterns : List (Pattern × Node)} {name : String} {node : Node}
    (h : node ∈ (patterns.filter fun (pattern, _) => pattern.isFoundIn name).map (·.2)) :
    node ∈ patterns.map (·.2) := by
  obtain ⟨entry, hentry, rfl⟩ := List.mem_map.1 h
  exact List.mem_map_of_mem (List.mem_filter.1 hentry).1

theorem mem_of_lookup {named : List (String × Node)} {name : String} {node : Node}
    (h : named.lookup name = some node) : node ∈ named.map (·.2) := by
  induction named with
  | nil => cases h
  | cons entry named ih =>
    obtain ⟨key, first⟩ := entry
    rw [List.lookup_cons] at h
    split at h
    · cases h
      exact List.mem_cons_self
    · exact List.mem_cons_of_mem _ (ih h)

theorem partsLook_isSome {valid looks : Node → Option Bool}
    (hvalid : ∀ node ∈ rule.inPlace table, (valid node).isSome)
    (hlooks : ∀ node ∈ rule.inPlace table, (looks node).isSome) :
    (rule.partsLook valid looks).isSome := by
  cases rule with
  | allOf parts =>
    have hparts (node : Node) (h : node ∈ parts.filter isRuled) : node ∈ parts :=
      (List.mem_filter.1 h).1
    refine isSome_bind (isSome_allM fun node h => hvalid node (hparts node h)) fun all _ => ?_
    cases all with
    | true => exact isSome_anyM fun node h => hlooks node (hparts node h)
    | false => rfl
  | oneOf parts =>
    have hparts (node : Node) (h : node ∈ parts.filter isRuled) : node ∈ parts :=
      (List.mem_filter.1 h).1
    refine isSome_bind (isSome_filterM fun node h => hvalid node (hparts node h))
      fun found hfound => ?_
    split
    · next part => exact hlooks part (hparts part (mem_of_filterM hfound List.mem_cons_self))
    · rfl
  | condition test positive negative =>
    refine isSome_bind (hvalid test List.mem_cons_self) fun valid _ => ?_
    cases valid with
    | true =>
      refine isSome_bind (hlooks test List.mem_cons_self) fun look _ => ?_
      cases look with
      | true => rfl
      | false =>
        cases positive with
        | none => rfl
        | some part => exact hlooks part (by simp [inPlace, parts])
    | false =>
      cases negative with
      | none => rfl
      | some part => exact hlooks part (by simp [inPlace, parts])
  | _ => rfl

theorem looksAtMember_isSome (h : rule.Ready table level value) {name : String} {member : Json}
    (hmember : (name, member) ∈ membersOf value) :
    (rule.looksAtMember table level value name member).isSome := by
  have hlooks (node : Node) (hnode : node ∈ rule.inPlace table) :
      (level.looksAtMember node value name member).isSome :=
    (h.stays node hnode).looksAtMember name member hmember
  have hvalid (node : Node) (hnode : node ∈ rule.inPlace table) :
      (level.isValid node value).isSome :=
    (h.stays node hnode).isValid
  have hbelow (node : Node) (hnode : node ∈ rule.parts) : (level.isValid node member).isSome :=
    (h.goes node hnode member (.member hmember)).isValid
  cases rule with
  | properties named =>
    simp only [Rule.looksAtMember]
    split
    · next node hnode => exact hbelow node (mem_of_lookup hnode)
    · rfl
  | patternProperties patterns => exact isSome_anyM fun node hnode => hbelow node (mem_matching hnode)
  | allMembers named patterns others =>
    have hmatching (node : Node)
        (hnode : node ∈ (patterns.filter fun (pattern, _) => pattern.isFoundIn name).map (·.2)) :
        (level.isValid node member).isSome :=
      hbelow node (List.mem_append_left _ (List.mem_append_right _ (mem_matching hnode)))
    simp only [Rule.looksAtMember]
    split
    · next node _ _ hnode =>
      refine isSome_anyM fun other hother => ?_
      rcases List.mem_cons.1 hother with rfl | hother
      · exact hbelow _ (List.mem_append_left _ (List.mem_append_left _ (mem_of_lookup hnode)))
      · exact hmatching other hother
    · next node _ _ => exact hbelow node (List.mem_append_right _ (by simp))
    · exact isSome_anyM hmatching
  | reference keyword target => exact hlooks target List.mem_cons_self
  | shared keyword index =>
    obtain ⟨node, hnode⟩ := h.linked keyword index rfl
    simp only [Rule.looksAtMember, hnode]
    exact hlooks node (by simp [inPlace, hnode])
  | anyOf parts =>
    refine isSome_anyM fun part hpart => ?_
    have hpart : part ∈ parts := (List.mem_filter.1 hpart).1
    refine isSome_bind (hvalid part hpart) fun valid _ => ?_
    cases valid with
    | true => exact hlooks part hpart
    | false => rfl
  | dependencies keyword dependents =>
    refine isSome_anyM ?_
    rintro ⟨key, names | node⟩ hdependent
    · rfl
    · have hlook := hlooks node (List.mem_filterMap.2 ⟨_, hdependent, rfl⟩)
      dsimp only
      cases value.get? key with
      | none => rfl
      | some found => exact hlook
  | unevaluatedProperties part => exact hbelow part List.mem_cons_self
  | allOf parts | oneOf parts => exact partsLook_isSome hvalid hlooks
  | condition test positive negative => exact partsLook_isSome hvalid hlooks
  | _ => rfl

theorem looksAtItem_isSome (h : rule.Ready table level value) {index : Nat} {item : Json}
    (hitem : (item, index) ∈ (itemsOf value).zipIdx) :
    (rule.looksAtItem table level value index item).isSome := by
  have hlooks (node : Node) (hnode : node ∈ rule.inPlace table) :
      (level.looksAtItem node value index item).isSome :=
    (h.stays node hnode).looksAtItem index item hitem
  have hvalid (node : Node) (hnode : node ∈ rule.inPlace table) :
      (level.isValid node value).isSome :=
    (h.stays node hnode).isValid
  have hbelow (node : Node) (hnode : node ∈ rule.parts) : (level.isValid node item).isSome :=
    (h.goes node hnode item (.item (List.fst_mem_of_mem_zipIdx hitem))).isValid
  cases rule with
  | contains part least most => exact hbelow part List.mem_cons_self
  | reference keyword target => exact hlooks target List.mem_cons_self
  | shared keyword index =>
    obtain ⟨node, hnode⟩ := h.linked keyword index rfl
    simp only [Rule.looksAtItem, hnode]
    exact hlooks node (by simp [inPlace, hnode])
  | anyOf parts =>
    have hparts (node : Node) (h : node ∈ parts.filter isRuled) : node ∈ parts :=
      (List.mem_filter.1 h).1
    refine isSome_bind (isSome_allM fun node h => hvalid node (hparts node h)) fun all _ => ?_
    cases all with
    | true => exact isSome_anyM fun node h => hlooks node (hparts node h)
    | false => rfl
  | unevaluatedItems part => exact hbelow part List.mem_cons_self
  | allOf parts | oneOf parts => exact partsLook_isSome hvalid hlooks
  | condition test positive negative => exact partsLook_isSome hvalid hlooks
  | _ => rfl

theorem unseenMembers_isSome {rules : List Rule} {members : List (String × Json)}
    (h : ∀ rule ∈ rules, rule.Ready table level (.object members)) :
    (unseenMembers table level rules members).isSome := by
  refine isSome_bind (isSome_filterM ?_) fun _ _ => rfl
  rintro ⟨name, member⟩ hmember
  refine isSome_bind (isSome_anyM fun rule hrule => ?_) fun _ _ => rfl
  exact looksAtMember_isSome (h rule hrule) hmember

theorem unseenItems_isSome {rules : List Rule} {items : List Json}
    (h : ∀ rule ∈ rules, rule.Ready table level (.array items)) :
    (unseenItems table level rules items).isSome := by
  refine isSome_bind (isSome_filterM ?_) fun _ _ => rfl
  rintro ⟨item, index⟩ hitem
  refine isSome_bind (isSome_anyM fun rule hrule => ?_) fun _ _ => rfl
  exact looksAtItem_isSome (h rule hrule) hitem

theorem afterFirstValid_isSome {valid : Node → Option Bool} {parts : List Node}
    (h : ∀ part ∈ parts, (valid part).isSome) : (afterFirstValid valid parts).isSome := by
  induction parts with
  | nil => rfl
  | cons part rest ih =>
    rw [afterFirstValid]
    refine isSome_bind (h part List.mem_cons_self) fun found _ => ?_
    cases found with
    | true => rfl
    | false => exact ih fun part hpart => h part (List.mem_cons_of_mem _ hpart)

theorem mem_of_afterFirstValid {valid : Node → Option Bool} {parts rest : List Node}
    (h : afterFirstValid valid parts = some (some rest)) {part : Node} (hpart : part ∈ rest) :
    part ∈ parts := by
  induction parts with
  | nil => cases h
  | cons first parts ih =>
    rw [afterFirstValid] at h
    obtain ⟨found, -, h⟩ := Option.bind_eq_some_iff.1 h
    refine List.mem_cons_of_mem _ ?_
    cases found with
    | true =>
      cases h
      exact hpart
    | false => exact ih h

theorem mem_parts_of_nodesFor {named : List (String × Node)} {patterns : List (Pattern × Node)}
    {others : Option Node} {name : String} {nodes : List (Path × Node)}
    (h : nodesFor named patterns others name = some nodes) {entry : Path × Node}
    (hentry : entry ∈ nodes) : entry.2 ∈ (allMembers named patterns others).parts := by
  have hmatched (entry : Path × Node)
      (hentry : entry ∈ (patterns.filter fun (pattern, _) => pattern.isFoundIn name).map
        fun (pattern, node) => (["patternProperties", pattern.text], node)) :
      entry.2 ∈ (allMembers named patterns others).parts := by
    obtain ⟨found, hfound, rfl⟩ := List.mem_map.1 hentry
    exact List.mem_append_left _ (List.mem_append_right _
      (List.mem_map_of_mem (List.mem_filter.1 hfound).1))
  unfold nodesFor at h
  dsimp only at h
  split at h
  · next node _ _ hnode =>
    cases h
    rcases List.mem_cons.1 hentry with rfl | hentry
    · exact List.mem_append_left _ (List.mem_append_left _ (mem_of_lookup hnode))
    · exact hmatched entry hentry
  · next node _ _ =>
    cases h
    obtain rfl := List.mem_singleton.1 hentry
    exact List.mem_append_right _ (by simp)
  · cases h
  · cases h
    exact hmatched entry hentry

/-! ## Rules that have an answer -/

/-- A rule among others finds out what is wrong with a value. -/
def Finds (table : Array Node) (level : Level) (rules : List Rule) (value : Json) (rule : Rule) : Prop :=
  ∀ schemaPath instancePath, (rule.violations table level rules schemaPath instancePath value).isSome

namespace Ready

variable {rules : List Rule} {node : Node} {part : Json}

theorem inside (h : rule.Ready table level value) (hnode : node ∈ rule.inPlace table)
    (schemaPath instancePath : Path) :
    (level.violations node schemaPath instancePath value).isSome :=
  (h.stays node hnode).violations schemaPath instancePath

theorem valid (h : rule.Ready table level value) (hnode : node ∈ rule.inPlace table) :
    (level.isValid node value).isSome :=
  (h.stays node hnode).isValid

theorem below (h : rule.Ready table level value) (hnode : node ∈ rule.parts)
    (hpart : PartOf value part) (schemaPath instancePath : Path) :
    (level.violations node schemaPath instancePath part).isSome :=
  (h.goes node hnode part hpart).violations schemaPath instancePath

theorem finds_shared {keyword : String} {index : Nat}
    (h : (Rule.shared keyword index).Ready table level value) :
    (Rule.shared keyword index).Finds table level rules value := by
  intro schemaPath instancePath
  obtain ⟨node, hnode⟩ := h.linked keyword index rfl
  simp only [Rule.violations, hnode]
  exact h.inside (by simp [inPlace, hnode]) _ _

theorem finds_allOf {parts : List Node} (h : (Rule.allOf parts).Ready table level value) :
    (Rule.allOf parts).Finds table level rules value := by
  intro schemaPath instancePath
  refine isSome_bind (isSome_mapM ?_) fun _ _ => rfl
  rintro ⟨part, index⟩ hpart
  exact h.inside (List.fst_mem_of_mem_zipIdx hpart) _ _

theorem finds_anyOf {parts : List Node} (h : (Rule.anyOf parts).Ready table level value) :
    (Rule.anyOf parts).Finds table level rules value := by
  intro schemaPath instancePath
  refine isSome_bind (isSome_anyM fun part hpart => h.valid hpart) fun valid _ => ?_
  cases valid <;> rfl

theorem finds_oneOf {parts : List Node} (h : (Rule.oneOf parts).Ready table level value) :
    (Rule.oneOf parts).Finds table level rules value := by
  intro schemaPath instancePath
  refine isSome_bind (afterFirstValid_isSome fun part hpart => h.valid hpart) fun found hfound => ?_
  cases found with
  | none => rfl
  | some rest =>
    refine isSome_bind (isSome_anyM fun part hpart =>
      h.valid (mem_of_afterFirstValid hfound hpart)) fun several _ => ?_
    cases several <;> rfl

theorem finds_not {schema : Json} {part : Node} (h : (Rule.not schema part).Ready table level value) :
    (Rule.not schema part).Finds table level rules value := by
  intro schemaPath instancePath
  refine isSome_bind (h.valid List.mem_cons_self) fun valid _ => ?_
  cases valid <;> rfl

theorem finds_condition {test : Node} {positive negative : Option Node}
    (h : (Rule.condition test positive negative).Ready table level value) :
    (Rule.condition test positive negative).Finds table level rules value := by
  intro schemaPath instancePath
  simp only [Rule.violations]
  split
  · rfl
  · refine isSome_bind (h.valid List.mem_cons_self) fun valid _ => ?_
    cases valid with
    | true =>
      cases positive with
      | none => rfl
      | some part => exact h.inside (by simp [inPlace, parts]) _ _
    | false =>
      cases negative with
      | none => rfl
      | some part => exact h.inside (by simp [inPlace, parts]) _ _

theorem finds_properties {named : List (String × Node)}
    (h : (Rule.properties named).Ready table level value) :
    (Rule.properties named).Finds table level rules value := by
  intro schemaPath instancePath
  cases value with
  | object members =>
    refine isSome_bind (isSome_mapM ?_) fun _ _ => rfl
    rintro ⟨name, node⟩ hnode
    dsimp only
    split
    · next member hmember =>
      exact h.below (List.mem_map_of_mem hnode) (.member (Entries.mem_of_get?_eq_some hmember)) _ _
    · rfl
  | _ => rfl

theorem finds_patternProperties {patterns : List (Pattern × Node)}
    (h : (Rule.patternProperties patterns).Ready table level value) :
    (Rule.patternProperties patterns).Finds table level rules value := by
  intro schemaPath instancePath
  cases value with
  | object members =>
    refine isSome_bind (isSome_mapM ?_) fun _ _ => rfl
    rintro ⟨pattern, node⟩ hnode
    refine isSome_bind (isSome_mapM ?_) fun _ _ => rfl
    rintro ⟨name, member⟩ hmember
    exact h.below (List.mem_map_of_mem hnode) (.member (List.mem_filter.1 hmember).1) _ _
  | _ => rfl

theorem finds_allMembers {named : List (String × Node)} {patterns : List (Pattern × Node)}
    {others : Option Node} (h : (Rule.allMembers named patterns others).Ready table level value) :
    (Rule.allMembers named patterns others).Finds table level rules value := by
  intro schemaPath instancePath
  cases value with
  | object members =>
    refine isSome_bind (isSome_mapM ?_) fun _ _ => rfl
    rintro ⟨name, member⟩ hmember
    refine isSome_bind (isSome_mapM ?_) fun _ _ => rfl
    rintro ⟨path, node⟩ hnode
    cases hnodes : nodesFor named patterns others name with
    | none => simp [hnodes] at hnode
    | some nodes =>
      rw [hnodes, Option.getD_some] at hnode
      exact h.below (mem_parts_of_nodesFor hnodes hnode) (.member hmember) _ _
  | _ => rfl

theorem finds_propertyNames {part : Node} (h : (Rule.propertyNames part).Ready table level value) :
    (Rule.propertyNames part).Finds table level rules value := by
  intro schemaPath instancePath
  cases value with
  | object members =>
    cases part with
    | nothing => rfl
    | _ =>
      refine isSome_bind (isSome_mapM ?_) fun _ _ => rfl
      rintro ⟨name, member⟩ hmember
      exact h.below List.mem_cons_self (.name hmember) _ _
  | _ => cases part <;> rfl

theorem finds_dependencies {keyword : String} {dependents : List (String × (List String ⊕ Node))}
    (h : (Rule.dependencies keyword dependents).Ready table level value) :
    (Rule.dependencies keyword dependents).Finds table level rules value := by
  intro schemaPath instancePath
  cases value with
  | object members =>
    refine isSome_bind (isSome_mapM ?_) fun _ _ => rfl
    rintro ⟨key, names | node⟩ hdependent
    · dsimp only
      split <;> rfl
    · dsimp only
      split
      · rfl
      · exact h.inside (List.mem_filterMap.2 ⟨_, hdependent, rfl⟩) _ _
  | _ => rfl

theorem finds_firstItems {keyword : String} {parts : List Node}
    (h : (Rule.firstItems keyword parts).Ready table level value) :
    (Rule.firstItems keyword parts).Finds table level rules value := by
  intro schemaPath instancePath
  cases value with
  | array items =>
    refine isSome_bind (isSome_mapM ?_) fun _ _ => rfl
    rintro ⟨⟨item, part⟩, index⟩ hpart
    have hpair := List.of_mem_zip (List.fst_mem_of_mem_zipIdx hpart)
    exact h.below hpair.2 (.item hpair.1) _ _
  | _ => rfl

theorem finds_laterItems {keyword : String} {first : Nat} {part : Node}
    (h : (Rule.laterItems keyword first part).Ready table level value) :
    (Rule.laterItems keyword first part).Finds table level rules value := by
  intro schemaPath instancePath
  cases value with
  | array items =>
    refine isSome_bind (isSome_mapM ?_) fun _ _ => rfl
    rintro ⟨item, index⟩ hitem
    have hitem := List.fst_mem_of_mem_zipIdx (List.mem_of_mem_drop hitem)
    exact h.below List.mem_cons_self (.item hitem) _ _
  | _ => rfl

theorem finds_contains {part : Node} {least most : Option Nat}
    (h : (Rule.contains part least most).Ready table level value) :
    (Rule.contains part least most).Finds table level rules value := by
  intro schemaPath instancePath
  cases value with
  | array items =>
    refine isSome_bind (isSome_filterM fun item hitem => ?_) fun _ _ => rfl
    exact (h.goes part List.mem_cons_self item (.item hitem)).isValid
  | _ => rfl

end Ready

/-- What is not looked at yet can be told if all rules can be evaluated. -/
theorem finds_unevaluatedProperties {rules : List Rule} {part : Node}
    (h : ∀ rule ∈ rules, rule.Ready table level value) :
    (Rule.unevaluatedProperties part).Finds table level rules value := by
  intro schemaPath instancePath
  cases value with
  | object members => exact isSome_bind (unseenMembers_isSome h) fun _ _ => rfl
  | _ => rfl

theorem finds_unevaluatedItems {rules : List Rule} {part : Node}
    (h : ∀ rule ∈ rules, rule.Ready table level value) :
    (Rule.unevaluatedItems part).Finds table level rules value := by
  intro schemaPath instancePath
  cases value with
  | array items => exact isSome_bind (unseenItems_isSome h) fun _ _ => rfl
  | _ => rfl

/-- A rule finds what is wrong if all rules beside it can be evaluated. -/
theorem finds {rules : List Rule} (h : ∀ rule ∈ rules, rule.Ready table level value)
    (hrule : rule ∈ rules) : rule.Finds table level rules value := by
  have hready := h rule hrule
  cases rule with
  | assertion keyword claim => exact fun _ _ => rfl
  | reference keyword target => exact fun _ _ => hready.inside List.mem_cons_self _ _
  | shared keyword index => exact hready.finds_shared
  | allOf parts => exact hready.finds_allOf
  | anyOf parts => exact hready.finds_anyOf
  | oneOf parts => exact hready.finds_oneOf
  | not schema part => exact hready.finds_not
  | condition test positive negative => exact hready.finds_condition
  | properties named => exact hready.finds_properties
  | patternProperties patterns => exact hready.finds_patternProperties
  | allMembers named patterns others => exact hready.finds_allMembers
  | propertyNames part => exact hready.finds_propertyNames
  | dependencies keyword dependents => exact hready.finds_dependencies
  | firstItems keyword parts => exact hready.finds_firstItems
  | laterItems keyword first part => exact hready.finds_laterItems
  | contains part least most => exact hready.finds_contains
  | unevaluatedProperties part => exact finds_unevaluatedProperties h
  | unevaluatedItems part => exact finds_unevaluatedItems h
  | noMembers | anyMembers | anyItems =>
    intro schemaPath instancePath
    cases value <;> rfl

end Rule

/-! ## One level -/

theorem Level.settles_at_succ {table : Array Node} {depth : Nat} {node : Node} {value : Json}
    (h : ∀ list rule, node = .rules list → rule ∈ list →
      rule.Ready table (Level.at_ table depth) value) :
    (Level.at_ table (depth + 1)).Settles node value := by
  have hviolations (schemaPath valuePath : Path) :
      ((Level.at_ table (depth + 1)).violations node schemaPath valuePath value).isSome := by
    rw [Level.at_succ]
    cases node with
    | anything | nothing => rfl
    | rules list =>
      refine isSome_bind (isSome_mapM fun rule hrule => ?_) fun _ _ => rfl
      exact Rule.finds (fun other hother => h list other rfl hother) hrule _ _
  refine ⟨hviolations, ?_, ?_, ?_⟩
  · obtain ⟨list, hlist⟩ := Option.isSome_iff_exists.1 (hviolations [] [])
    rw [(Level.consistent_at table (depth + 1) node [] [] value).verdict_eq list hlist]
    rfl
  · intro name member hmember
    rw [Level.at_succ]
    cases node with
    | anything | nothing => rfl
    | rules list =>
      exact isSome_anyM fun rule hrule => Rule.looksAtMember_isSome (h list rule rfl hrule) hmember
  · intro index item hitem
    rw [Level.at_succ]
    cases node with
    | anything | nothing => rfl
    | rules list =>
      exact isSome_anyM fun rule hrule => Rule.looksAtItem_isSome (h list rule rfl hrule) hitem

end ApiContract.JsonSchema
