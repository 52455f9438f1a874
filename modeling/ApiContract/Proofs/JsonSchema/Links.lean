import ApiContract.Proofs.JsonSchema.Depth
import ApiContract.Proofs.JsonSchema.Sessions
/-!
# References to shared nodes

A compiled rule refers to a shared node by its index among the targets of the
session.  The targets are never fewer than the session counts (`Grows`), so all
indices belong to nodes of the finished validator (`linked_of_compile`).
-/

namespace ApiContract.JsonSchema

namespace Compiling

/-! ## One run -/

variable {α β γ : Type} {targets : List Target}

/-- Whenever the step ends within the given targets, its result has the
property. -/
def Ensures (targets : List Target) (P : α → Prop) (x : Compiling α) : Prop :=
  ∀ before a after, x.Yields before a after → after.targets <+: targets → P a

namespace Ensures

variable {P : α → Prop} {Q : β → Prop} {x : Compiling α} {f : α → Compiling β}

theorem pure {a : α} (h : P a) : Ensures targets P (pure a) := by
  intro before b after hb _
  obtain ⟨rfl, -⟩ := yields_pure.1 hb
  exact h

theorem throw (fault : SchemaFault) : Ensures targets P (throw fault) :=
  fun _ _ _ h => absurd h (not_yields_throw fault)

theorem refuse (value : Json) (cause : Cause) : Ensures targets P (refuse value cause) := .throw _

/-- What comes last has the property. -/
theorem last (h : ∀ a, Ensures targets Q (f a)) : Ensures targets Q (x >>= f) := by
  intro before b after hb hafter
  obtain ⟨a, between, -, hb⟩ := yields_bind.1 hb
  exact h a between b after hb hafter

theorem bind (hx : Ensures targets P x) (hgrows : ∀ a, (f a).Grows)
    (hnext : ∀ a, P a → Ensures targets Q (f a)) : Ensures targets Q (x >>= f) := by
  intro before b after hb hafter
  obtain ⟨a, between, ha, hb⟩ := yields_bind.1 hb
  exact hnext a (hx _ _ _ ha ((hgrows a _ _ _ hb).trans hafter)) _ _ _ hb hafter

theorem map {f : α → β} (hx : Ensures targets P x) (h : ∀ a, P a → Q (f a)) :
    Ensures targets Q (x >>= fun a => Pure.pure (f a)) :=
  hx.bind (fun _ => .pure _) fun a ha => .pure (h a ha)

theorem mapM {f : γ → Compiling α} {list : List γ} (hgrows : ∀ c ∈ list, (f c).Grows)
    (h : ∀ c ∈ list, Ensures targets P (f c)) :
    Ensures targets (fun as => ∀ a ∈ as, P a) (list.mapM f) := by
  induction list with
  | nil =>
    rw [List.mapM_nil]
    exact .pure fun _ ha => absurd ha List.not_mem_nil
  | cons c list ih =>
    have hgrows' := fun c hc => hgrows c (List.mem_cons_of_mem _ hc)
    rw [List.mapM_cons]
    refine (h c List.mem_cons_self).bind (fun _ => Grows.map (.mapM hgrows')) fun a ha => ?_
    refine (ih hgrows' fun c hc => h c (List.mem_cons_of_mem _ hc)).map fun as has => ?_
    exact List.forall_mem_cons.2 ⟨ha, has⟩

theorem mapM_option {f : γ → Compiling α} {choice : Option γ} (h : ∀ c, Ensures targets P (f c)) :
    Ensures targets (fun found => ∀ a ∈ found.toList, P a) (choice.mapM f) := by
  cases choice with
  | none => exact .pure fun _ ha => absurd ha List.not_mem_nil
  | some c =>
    rw [Option.mapM_some]
    exact (h c).map fun a ha => by simpa using ha

theorem elim {f : γ → Compiling α} {choice : Option γ} {a : α} (hnone : P a)
    (h : ∀ c, Ensures targets P (f c)) : Ensures targets P (choice.elim (Pure.pure a) f) := by
  cases choice with
  | none => exact .pure hnone
  | some c => exact h c

end Ensures

/-! ## Rules -/

/-- The parts of a rule have the property, and what the rule shares is below the
bound. -/
structure LinkedRule (P : Node → Prop) (bound : Nat) (rule : Rule) : Prop where
  parts : ∀ part ∈ rule.parts, P part
  shared : ∀ keyword index, rule = .shared keyword index → index < bound

/-- A rule, if there is one, is linked. -/
def LinkedChoice (P : Node → Prop) (bound : Nat) (rule : Option Rule) : Prop :=
  ∀ found ∈ rule.toList, LinkedRule P bound found

section Steps

variable {P : Node → Prop} {inner : Descent} {settings : Settings}

theorem LinkedChoice.none {bound : Nat} : LinkedChoice P bound none :=
  fun _ h => absurd h List.not_mem_nil

theorem LinkedChoice.of_parts {bound : Nat} {rule : Rule} (hparts : ∀ part ∈ rule.parts, P part)
    (hshared : ∀ keyword index, rule ≠ .shared keyword index) :
    LinkedChoice P bound (some rule) := by
  intro found hfound
  obtain rfl : found = rule := by simpa using hfound
  exact ⟨hparts, fun keyword index heq => absurd heq (hshared keyword index)⟩

theorem ensures_share_rule (keyword : String) (target : Target) :
    Ensures targets (LinkedChoice P targets.length)
      (share target >>= fun index => pure (some (.shared keyword index))) := by
  intro before rule after hyields hafter
  obtain ⟨index, between, hindex, hyields⟩ := yields_bind.1 hyields
  obtain ⟨rfl, rfl⟩ := yields_pure.1 hyields
  intro found hfound
  obtain rfl : found = .shared keyword index := by simpa using hfound
  refine ⟨fun part hpart => absurd hpart List.not_mem_nil, ?_⟩
  rintro _ _ ⟨⟩
  exact (List.getElem?_eq_some_iff.1 (getElem?_mono hafter (targets_of_share hindex).2)).1

variable (hgrows : ∀ site schema, (inner site schema).Grows)
  (h : ∀ site schema, Ensures targets P (inner site schema))

include h

theorem ensures_subschema (site : Site) (schema : Json) :
    Ensures targets P (subschema inner site schema) :=
  .last fun _ => h _ _

theorem ensures_reference (site : Site) (keyword : String) (value : Json) :
    Ensures targets (LinkedChoice P targets.length)
      (reference settings inner site keyword value) := by
  intro before rule after hyields hafter
  obtain ⟨text, found, there, -, -, -, hcases⟩ := reference_cases hyields
  rcases hcases with ⟨rfl, -, -⟩ | ⟨index, rfl, hindex⟩ | ⟨made, between, rfl, -, hmade⟩
  · exact .none
  · exact ensures_share_rule keyword ⟨there, found.1⟩ before _ after
      (yields_bind.2 ⟨index, after, hindex, yields_pure.2 ⟨rfl, rfl⟩⟩) hafter
  · refine .of_parts ?_ (by simp)
    exact List.forall_mem_singleton.2 (h there found.1 _ _ _ hmade hafter)

omit h in
theorem ensures_recursiveReference (site : Site) (keyword : String) :
    Ensures targets (LinkedChoice P targets.length) (recursiveReference settings site keyword) :=
  .last fun _ => .last fun _ => ensures_share_rule _ _

include hgrows

theorem ensures_subschemaList (site : Site) (value : Json) :
    Ensures targets (fun nodes => ∀ node ∈ nodes, P node) (subschemaList inner site value) := by
  unfold subschemaList
  split
  · exact .mapM (fun schema _ => grows_subschema hgrows site schema)
      fun schema _ => ensures_subschema h site schema
  · exact .refuse _ _

theorem ensures_subschemaMap (site : Site) (value : Json) :
    Ensures targets (fun named : List (String × Node) => ∀ entry ∈ named, P entry.2)
      (subschemaMap inner site value) := by
  unfold subschemaMap
  split
  · exact .mapM (fun member _ => (grows_subschema hgrows site member.2).map)
      fun member _ => (ensures_subschema h site member.2).map fun _ hnode => hnode
  · exact .refuse _ _

theorem ensures_patternMap (site : Site) (value : Json) :
    Ensures targets (fun patterns : List (Pattern × Node) => ∀ entry ∈ patterns, P entry.2)
      (patternMap inner site value) := by
  unfold patternMap
  split
  · refine .mapM (fun member _ => grows_patternMember hgrows site member) fun member _ => ?_
    unfold patternMember
    split
    · exact (ensures_subschema h site member.2).map fun _ hnode => hnode
    · exact .refuse _ _
  · exact .refuse _ _

omit hgrows in
theorem ensures_part (site : Site) (schema : Json) {make : Node → Rule}
    (hparts : ∀ node, P node → ∀ part ∈ (make node).parts, P part)
    (hshared : ∀ node keyword index, make node ≠ .shared keyword index) :
    Ensures targets (LinkedChoice P targets.length)
      (subschema inner site schema >>= fun node => pure (some (make node))) :=
  (ensures_subschema h site schema).map fun node hnode => .of_parts (hparts node hnode) (hshared node)

theorem ensures_list (site : Site) (value : Json) {make : List Node → Rule}
    (hparts : ∀ nodes, (∀ node ∈ nodes, P node) → ∀ part ∈ (make nodes).parts, P part)
    (hshared : ∀ nodes keyword index, make nodes ≠ .shared keyword index) :
    Ensures targets (LinkedChoice P targets.length)
      (subschemaList inner site value >>= fun nodes => pure (some (make nodes))) :=
  (ensures_subschemaList hgrows h site value).map fun nodes hnodes =>
    .of_parts (hparts nodes hnodes) (hshared nodes)

omit hgrows in
theorem ensures_othersRule (site : Site) (absent : Bool) (value : Json)
    {patterns : List (Pattern × Node)} {properties : List (String × Node)}
    (hpatterns : ∀ entry ∈ patterns, P entry.2) (hproperties : ∀ entry ∈ properties, P entry.2) :
    Ensures targets (LinkedChoice P targets.length)
      (othersRule inner site absent value patterns properties) := by
  have hparts (others : Option Node) (hothers : ∀ node ∈ others.toList, P node) :
      ∀ part ∈ (Rule.allMembers properties patterns others).parts, P part := by
    intro part hpart
    rcases List.mem_append.1 hpart with hpart | hpart
    · rcases List.mem_append.1 hpart with hpart | hpart
      · obtain ⟨entry, hentry, rfl⟩ := List.mem_map.1 hpart
        exact hproperties entry hentry
      · obtain ⟨entry, hentry, rfl⟩ := List.mem_map.1 hpart
        exact hpatterns entry hentry
    · exact hothers part hpart
  unfold othersRule
  split
  · split
    · exact .pure (.of_parts (fun _ hpart => absurd hpart List.not_mem_nil) (by simp))
    · exact .pure (.of_parts (hparts none fun _ hpart => absurd hpart List.not_mem_nil) (by simp))
  · refine ensures_part h site _ (fun node hnode => hparts (some node) ?_) (by simp)
    exact List.forall_mem_singleton.2 hnode

theorem ensures_additionalProperties (site : Site) (schema value : Json) :
    Ensures targets (LinkedChoice P targets.length)
      (additionalProperties inner site schema value) := by
  unfold additionalProperties
  dsimp only
  split
  · exact .pure (.of_parts (fun _ hpart => absurd hpart List.not_mem_nil) (by simp))
  · refine Ensures.bind (Ensures.elim (fun _ hentry => absurd hentry List.not_mem_nil) fun value =>
        ensures_patternMap hgrows h site value)
      (fun _ => (Grows.elim fun value => grows_subschemaMap hgrows site value).bind fun _ =>
        grows_othersRule hgrows _ _ _ _ _) fun patterns hpatterns => ?_
    refine Ensures.bind (Ensures.elim (fun _ hentry => absurd hentry List.not_mem_nil) fun value =>
        ensures_subschemaMap hgrows h site value)
      (fun _ => grows_othersRule hgrows _ _ _ _ _) fun properties hproperties => ?_
    exact ensures_othersRule h site _ value hpatterns hproperties

theorem ensures_items (site : Site) (schema value : Json) :
    Ensures targets (LinkedChoice P targets.length) (items inner site schema value) := by
  unfold items
  split
  · split
    · exact .refuse _ _
    · exact ensures_list hgrows h site _ (fun _ hnodes => hnodes) (by simp)
  · exact .pure (.of_parts (fun _ hpart => absurd hpart List.not_mem_nil) (by simp))
  · exact ensures_part h site _ (fun _ hnode => List.forall_mem_singleton.2 hnode) (by simp)

omit hgrows in
theorem ensures_additionalItems (site : Site) (schema value : Json) :
    Ensures targets (LinkedChoice P targets.length) (additionalItems inner site schema value) := by
  unfold additionalItems
  split
  · exact ensures_part h site _ (fun _ hnode => List.forall_mem_singleton.2 hnode) (by simp)
  · exact .pure .none

omit hgrows in
theorem ensures_contains (site : Site) (schema value : Json) :
    Ensures targets (LinkedChoice P targets.length) (contains inner site schema value) := by
  unfold contains
  split
  · exact ensures_part h site _ (fun _ hnode => List.forall_mem_singleton.2 hnode) (by simp)
  · refine .last fun _ => .last fun _ => ?_
    exact ensures_part h site _ (fun _ hnode => List.forall_mem_singleton.2 hnode) (by simp)

theorem ensures_condition (site : Site) (schema value : Json) :
    Ensures targets (LinkedChoice P targets.length) (condition inner site schema value) := by
  have hbranch (keyword : String) : Ensures targets (fun found => ∀ node ∈ found.toList, P node)
      (branch inner site schema keyword) :=
    .mapM_option fun value => ensures_subschema h site value
  refine (ensures_subschema h site value).bind (fun _ => (grows_branch hgrows site schema _).bind
    fun _ => (grows_branch hgrows site schema _).map) fun test htest => ?_
  refine (hbranch "then").bind (fun _ => (grows_branch hgrows site schema _).map)
    fun positive hpositive => ?_
  refine (hbranch "else").map fun negative hnegative => .of_parts ?_ (by simp)
  refine List.forall_mem_cons.2 ⟨htest, fun part hpart => ?_⟩
  exact (List.mem_append.1 hpart).elim (hpositive part) (hnegative part)

theorem ensures_dependencies (site : Site) (keyword : String) (value : Json) :
    Ensures targets (LinkedChoice P targets.length) (dependencies inner site keyword value) := by
  have hdependent (schema : Json) : Ensures targets (fun found => ∀ node, found = .inr node → P node)
      (dependent inner site schema) := by
    unfold dependent
    split
    · split
      · exact .pure (by simp)
      · exact .throw _
    · exact (ensures_subschema h site _).map fun node hnode => by simpa using hnode
  unfold dependencies
  split
  · refine (Ensures.mapM (fun member _ => (grows_dependent hgrows site member.2).map)
      (P := fun entry : String × (List String ⊕ Node) => ∀ node, entry.2 = .inr node → P node)
      fun member _ => (hdependent member.2).map fun _ hfound => hfound).map
        fun dependents hdependents => .of_parts ?_ (by simp)
    intro part hpart
    obtain ⟨⟨key, names | node⟩, hentry, hpart⟩ := List.mem_filterMap.1 hpart
    · cases hpart
    · cases hpart
      exact hdependents _ hentry part rfl
  · exact .refuse _ _

omit hgrows h in
theorem ensures_assertion (site : Site) (schema : Json) (keyword : String) (value : Json) :
    Ensures targets (LinkedChoice P targets.length)
      (assertion settings site schema keyword value) := by
  unfold assertion
  split
  · exact .throw _
  · next claim _ =>
    refine .pure ?_
    cases claim with
    | none => exact .none
    | some claim => exact .of_parts (fun _ hpart => absurd hpart List.not_mem_nil) (by simp)

theorem ensures_rule? (site : Site) (schema : Json) (keyword : String) (value : Json) :
    Ensures targets (LinkedChoice P targets.length)
      (rule? settings inner site schema keyword value) := by
  have hchoice (skip : Bool) {rule : Compiling (Option Rule)}
      (hrule : Ensures targets (LinkedChoice P targets.length) rule) :
      Ensures targets (LinkedChoice P targets.length) (if skip then return none else rule) := by
    split
    · exact .pure .none
    · exact hrule
  have hone (node : Node) (hnode : P node) : ∀ part ∈ [node], P part :=
    List.forall_mem_singleton.2 hnode
  unfold rule?
  dsimp only
  split
  case h_1 => exact ensures_reference h site _ value
  case h_2 => exact hchoice _ (ensures_reference h site _ value)
  case h_3 =>
    split
    · exact ensures_recursiveReference site _
    · exact .pure .none
  case h_4 | h_5 | h_6 => exact ensures_list hgrows h site value (fun _ hnodes => hnodes) (by simp)
  case h_7 => exact ensures_part h site value hone (by simp)
  case h_8 => exact hchoice _ (ensures_condition hgrows h site schema value)
  case h_9 =>
    refine hchoice _ ((ensures_subschemaMap hgrows h site value).map fun named hnamed =>
      .of_parts ?_ (by simp))
    exact List.forall_mem_map.2 hnamed
  case h_10 =>
    refine hchoice _ ((ensures_patternMap hgrows h site value).map fun patterns hpatterns =>
      .of_parts ?_ (by simp))
    exact List.forall_mem_map.2 hpatterns
  case h_11 => exact ensures_additionalProperties hgrows h site schema value
  case h_12 => exact hchoice _ (ensures_part h site value hone (by simp))
  case h_13 => exact ensures_dependencies hgrows h site _ value
  case h_14 | h_15 => exact hchoice _ (ensures_dependencies hgrows h site _ value)
  case h_16 => exact hchoice _ (ensures_list hgrows h site value (fun _ hnodes => hnodes) (by simp))
  case h_17 => exact ensures_items hgrows h site schema value
  case h_18 =>
    split
    · exact .pure .none
    · exact ensures_additionalItems h site schema value
  case h_19 => exact hchoice _ (ensures_contains h site schema value)
  case h_20 | h_21 => exact hchoice _ (ensures_part h site value hone (by simp))
  case h_22 => exact ensures_assertion site schema _ value

end Steps

/-! ## Nodes -/

/-- All indices of shared nodes in a node are below the bound. -/
def LinkedNode (bound : Nat) (node : Node) : Prop :=
  ∀ list rule keyword index, .rules list ∈ node.within → rule ∈ list →
    rule = .shared keyword index → index < bound

theorem linkedNode_rules {bound : Nat} {list : List Rule}
    (h : ∀ rule ∈ list, LinkedRule (LinkedNode bound) bound rule) :
    LinkedNode bound (.rules list) := by
  intro list' rule keyword index hmem hrule heq
  rw [Node.within_rules] at hmem
  rcases List.mem_cons.1 hmem with hsame | hmem
  · cases hsame
    exact (h rule hrule).shared keyword index heq
  · obtain ⟨outer, houter, hmem⟩ := List.mem_flatMap.1 hmem
    obtain ⟨part, hpart, hmem⟩ := List.mem_flatMap.1 hmem
    exact (h outer houter).parts part hpart list' rule keyword index hmem hrule heq

theorem ensures_node (settings : Settings) (depth : Nat) (site : Site) (schema : Json) :
    Ensures targets (LinkedNode targets.length) (node settings depth site schema) := by
  induction depth generalizing site schema with
  | zero => exact .throw _
  | succ depth ih =>
    cases schema with
    | bool b => cases b <;> exact .pure (by simp [LinkedNode, Node.within])
    | object members =>
      refine (Ensures.mapM (fun member _ => grows_rule? settings (grows_node settings depth) _ _ _ _)
        fun member _ => ensures_rule? (grows_node settings depth) ih _ _ _ _).map
          fun rules hrules => linkedNode_rules fun rule hrule => ?_
      obtain ⟨choice, hchoice, heq⟩ := List.mem_filterMap.1 hrule
      exact hrules choice hchoice rule (by simpa using heq)
    | _ => exact .refuse _ _

end Compiling

namespace Validator

open Compiling

/-- All references to shared nodes have nodes. -/
def Linked (validator : Validator) : Prop :=
  ∀ list rule keyword index, .rules list ∈ validator.nodes → rule ∈ list →
    rule = .shared keyword index → ∃ node, validator.shared[index]? = some node

theorem linked_of_compile {library : Library} {formats : Bool} {site : Site} {schema : Json}
    {validator : Validator} (h : compile library formats site schema = .ok validator) :
    validator.Linked := by
  obtain ⟨targets, htargets, depth, before, after, hroot, hafter⟩ := targets_of_compile h
  have hlinked : ∀ node ∈ validator.root :: validator.shared.toList,
      LinkedNode targets.length node := by
    refine List.forall_mem_cons.2 ⟨ensures_node _ _ _ _ _ _ _ hroot hafter, fun node hnode => ?_⟩
    obtain ⟨target, -, depth, before, after, hmade, hafter⟩ := exists_mem_of_forall₂ htargets hnode
    exact ensures_node _ _ _ _ _ _ _ hmade hafter
  intro list rule keyword index hmem hrule heq
  have hindex : index < targets.length := by
    rcases List.mem_append.1 hmem with hmem | hmem
    · exact hlinked _ List.mem_cons_self list rule keyword index hmem hrule heq
    · obtain ⟨node, hnode, hmem⟩ := List.mem_flatMap.1 hmem
      exact hlinked node (List.mem_cons_of_mem _ hnode) list rule keyword index hmem hrule heq
  rw [htargets.length_eq, Array.length_toList] at hindex
  exact ⟨_, Array.getElem?_eq_getElem hindex⟩

theorem linked_of_ofSchema {retrieve : String → Option Json} {formats : Bool} {schedule : Schedule}
    {schema : Json} {validator : Validator}
    (h : ofSchema retrieve formats schedule schema = .ok validator) :
    validator.Linked := by
  obtain ⟨⟨address, library⟩, -, h⟩ := bind_eq_ok.1 h
  dsimp only at h
  split at h
  · cases h
  · cases h
  · exact linked_of_compile h

end Validator

end ApiContract.JsonSchema
