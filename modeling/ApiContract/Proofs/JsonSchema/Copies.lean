import ApiContract.Proofs.Json.Parts
import ApiContract.Proofs.JsonSchema.Depth
import ApiContract.Proofs.JsonSchema.Sessions
/-!
# Copies of a schema

One schema may be compiled several times: in its own validator and in those of
the schemas that refer to it, in place or as a shared node.  If the sites
correspond, so that references lead to corresponding places (`Corresponds`),
the nodes are alike (`isSimulation_copied`) and give the same verdicts.
-/

namespace ApiContract.JsonSchema

namespace Compiling

/-! ## Two runs -/

section Runs

variable {α β γ δ : Type} {targets targets' : List Target}

/-- Whenever two steps end within the given targets, their results are
related. -/
def Pairs (targets targets' : List Target) (R : α → β → Prop) (x : Compiling α)
    (y : Compiling β) : Prop :=
  ∀ before a after before' b after', x.Yields before a after → y.Yields before' b after' →
    after.targets <+: targets → after'.targets <+: targets' → R a b

variable {R : α → β → Prop} {Q : γ → δ → Prop} {x : Compiling α} {y : Compiling β}

theorem Pairs.pure {a : α} {b : β} (h : R a b) : Pairs targets targets' R (pure a) (pure b) := by
  intro before a' after before' b' after' ha hb _ _
  obtain ⟨rfl, -⟩ := yields_pure.1 ha
  obtain ⟨rfl, -⟩ := yields_pure.1 hb
  exact h

theorem Pairs.throw_left (fault : SchemaFault) : Pairs targets targets' R (throw fault) y :=
  fun _ _ _ _ _ _ h => absurd h (not_yields_throw fault)

theorem Pairs.refuse_left (value : Json) (cause : Cause) :
    Pairs targets targets' R (refuse value cause) y :=
  .throw_left _

theorem Pairs.bind {f : α → Compiling γ} {g : β → Compiling δ}
    (h : Pairs targets targets' R x y) (hf : ∀ a, (f a).Grows) (hg : ∀ b, (g b).Grows)
    (hnext : ∀ a b, R a b → Pairs targets targets' Q (f a) (g b)) :
    Pairs targets targets' Q (x >>= f) (y >>= g) := by
  intro before c after before' d after' hc hd hafter hafter'
  obtain ⟨a, between, ha, hc⟩ := yields_bind.1 hc
  obtain ⟨b, between', hb, hd⟩ := yields_bind.1 hd
  have hab := h before a between before' b between' ha hb ((hf a _ _ _ hc).trans hafter)
    ((hg b _ _ _ hd).trans hafter')
  exact hnext a b hab _ _ _ _ _ _ hc hd hafter hafter'

theorem Pairs.map {f : α → γ} {g : β → δ} (h : Pairs targets targets' R x y)
    (hnext : ∀ a b, R a b → Q (f a) (g b)) :
    Pairs targets targets' Q (x >>= fun a => Pure.pure (f a)) (y >>= fun b => Pure.pure (g b)) :=
  h.bind (fun _ => .pure _) (fun _ => .pure _) fun a b hab => .pure (hnext a b hab)

theorem Pairs.mapM {list : List γ} {f : γ → Compiling α} {g : γ → Compiling β}
    (hf : ∀ c ∈ list, (f c).Grows) (hg : ∀ c ∈ list, (g c).Grows)
    (h : ∀ c ∈ list, Pairs targets targets' R (f c) (g c)) :
    Pairs targets targets' (List.Forall₂ R) (list.mapM f) (list.mapM g) := by
  induction list with
  | nil =>
    rw [List.mapM_nil, List.mapM_nil]
    exact .pure .nil
  | cons c list ih =>
    have hf' := fun c hc => hf c (List.mem_cons_of_mem _ hc)
    have hg' := fun c hc => hg c (List.mem_cons_of_mem _ hc)
    rw [List.mapM_cons, List.mapM_cons]
    refine (h c List.mem_cons_self).bind (fun _ => Grows.map (.mapM hf'))
      (fun _ => Grows.map (.mapM hg')) fun a b hab => ?_
    refine (ih hf' hg' fun c hc => h c (List.mem_cons_of_mem _ hc)).map fun as bs hrest => ?_
    exact .cons hab hrest

theorem Pairs.mapM_option {choice : Option γ} {f : γ → Compiling α} {g : γ → Compiling β}
    (h : ∀ c, choice = some c → Pairs targets targets' R (f c) (g c)) :
    Pairs targets targets' (Option.Rel R) (choice.mapM f) (choice.mapM g) := by
  cases choice with
  | none => exact .pure .none
  | some c =>
    rw [Option.mapM_some, Option.mapM_some]
    exact (h c rfl).map fun a b hab => .some hab

theorem Pairs.elim {choice : Option γ} {f : γ → Compiling α} {g : γ → Compiling β} {a : α} {b : β}
    (hnone : R a b) (h : ∀ c, choice = some c → Pairs targets targets' R (f c) (g c)) :
    Pairs targets targets' R (choice.elim (Pure.pure a) f) (choice.elim (Pure.pure b) g) := by
  cases choice with
  | none => exact .pure hnone
  | some c => exact h c rfl

end Runs

/-! ## Corresponding places -/

/-- A relation between places, which are sites and schemas there, that is kept
from a schema to the schemas inside it and to those that its references lead
to.  No reference leads to a schema with that very reference. -/
structure Corresponds (settings settings' : Settings) (Near : Site → Site → Json → Prop) :
    Prop where
  formats : settings'.formats = settings.formats
  draft : ∀ {site site' : Site} {schema : Json}, Near site site' schema → site'.draft = site.draft
  descend : ∀ {site site' inside inside' : Site} {schema part : Json}, Near site site' schema →
    Json.Below schema part →
    site.within ⟨part, (site.draft.detect part).toOption.getD .draft202012⟩ = .ok inside →
    site'.within ⟨part, (site'.draft.detect part).toOption.getD .draft202012⟩ = .ok inside' →
    Near inside inside' part
  reference : ∀ {site site' there there' : Site} {schema : Json} {keyword text : String}
    {found found' : Json × Site}, Near site site' schema →
    keyword = "$ref" ∨ keyword = "$dynamicRef" → (keyword, .string text) ∈ membersOf schema →
    settings.library.lookup site text = .ok found →
    found.2.within ⟨found.1, found.2.draft⟩ = .ok there →
    settings'.library.lookup site' text = .ok found' →
    found'.2.within ⟨found'.1, found'.2.draft⟩ = .ok there' →
    found'.1 = found.1 ∧ Near there there' found.1 ∧
      (found.1.get? keyword).bind Json.text? ≠ some text
  recursive : ∀ {site site' there there' : Site} {schema : Json} {found found' : Json × Site},
    Near site site' schema → settings.library.lookupRecursive site = .ok found →
    found.2.within ⟨found.1, found.2.draft⟩ = .ok there →
    settings'.library.lookupRecursive site' = .ok found' →
    found'.2.within ⟨found'.1, found'.2.draft⟩ = .ok there' →
    found'.1 = found.1 ∧ Near there there' found.1

/-- The nodes are made from one schema at corresponding sites. -/
def Copied (settings settings' : Settings) (targets targets' : List Target)
    (Near : Site → Site → Json → Prop) (made made' : Node) : Prop :=
  ∃ site site' schema, Near site site' schema ∧ Made settings targets site schema made ∧
    Made settings' targets' site' schema made'

section Steps

variable {settings settings' : Settings} {targets targets' : List Target}
  {Near : Site → Site → Json → Prop} {depth depth' : Nat} {site site' : Site} {schema : Json}

theorem yields_descend {part : Json} {inside : Site} {before after : Session} :
    (descend site part).Yields before inside after ↔
      site.within ⟨part, (site.draft.detect part).toOption.getD .draft202012⟩ = .ok inside ∧
        before = after :=
  yields_following

variable (h : Corresponds settings settings' Near) (hnear : Near site site' schema)

include h hnear

theorem pairs_subschema {part : Json} (hpart : Json.Below schema part) :
    Pairs targets targets' (Copied settings settings' targets targets' Near)
      (subschema (node settings depth) site part) (subschema (node settings' depth') site' part) := by
  intro before made after before' made' after' hmade hmade' hafter hafter'
  obtain ⟨inside, between, hinside, hmade⟩ := yields_bind.1 hmade
  obtain ⟨inside', between', hinside', hmade'⟩ := yields_bind.1 hmade'
  exact ⟨inside, inside', part,
    h.descend hnear hpart (yields_descend.1 hinside).1 (yields_descend.1 hinside').1,
    ⟨depth, between, after, hmade, hafter⟩, ⟨depth', between', after', hmade', hafter'⟩⟩

theorem pairs_subschemaList {value : Json} (hvalue : Json.Below schema value) :
    Pairs targets targets' (List.Forall₂ (Copied settings settings' targets targets' Near))
      (subschemaList (node settings depth) site value)
      (subschemaList (node settings' depth') site' value) := by
  cases value with
  | array items =>
    exact .mapM (fun part _ => grows_subschema (grows_node _ _) _ part)
      (fun part _ => grows_subschema (grows_node _ _) _ part)
      fun part hpart => pairs_subschema h hnear (hvalue.item hpart)
  | _ => exact .refuse_left _ _

theorem pairs_subschemaMap {value : Json} (hvalue : Json.Below schema value) :
    Pairs targets targets' (List.Forall₂ (Named (Copied settings settings' targets targets' Near)))
      (subschemaMap (node settings depth) site value)
      (subschemaMap (node settings' depth') site' value) := by
  cases value with
  | object members =>
    refine .mapM (fun member _ => Grows.map (grows_subschema (grows_node _ _) _ _))
      (fun member _ => Grows.map (grows_subschema (grows_node _ _) _ _)) ?_
    rintro ⟨name, part⟩ hpart
    exact (pairs_subschema h hnear (hvalue.member hpart)).map fun _ _ hcopied => ⟨rfl, hcopied⟩
  | _ => exact .refuse_left _ _

theorem pairs_patternMap {value : Json} (hvalue : Json.Below schema value) :
    Pairs targets targets' (List.Forall₂ (Named (Copied settings settings' targets targets' Near)))
      (patternMap (node settings depth) site value)
      (patternMap (node settings' depth') site' value) := by
  cases value with
  | object members =>
    refine .mapM (fun member _ => grows_patternMember (grows_node _ _) _ member)
      (fun member _ => grows_patternMember (grows_node _ _) _ member) ?_
    rintro ⟨text, part⟩ hpart
    unfold patternMember
    split
    · exact (pairs_subschema h hnear (hvalue.member hpart)).map fun _ _ hcopied => ⟨rfl, hcopied⟩
    · exact .refuse_left _ _
  | _ => exact .refuse_left _ _

end Steps

/-! ## Rules of copies -/

theorem below_of_mem_membersOf {schema value : Json} {keyword : String}
    (h : (keyword, value) ∈ membersOf schema) : Json.Below schema value := by
  cases schema with
  | object members => exact Json.Within.self.below (.member h)
  | _ => cases h

section Rules

variable {settings settings' : Settings} {targets targets' : List Target}
  {Near : Site → Site → Json → Prop} {validator validator' : Validator} {depth depth' : Nat}
  {site site' : Site} {schema : Json}

/-- A shared node of a validator is the schema of its target, compiled. -/
theorem made_of_share (hshares : validator.Shares settings targets) {target : Target}
    {index : Nat} {before after : Session} (hshare : (share target).Yields before index after)
    (hafter : after.targets <+: targets) :
    ∃ made, validator.shared[index]? = some made ∧
      Made settings targets target.site target.contents made :=
  hshares index target (getElem?_mono hafter (targets_of_share hshare).2)

theorem leadsTo_shared {table : Array Node} {index : Nat} {made : Node}
    (h : table[index]? = some made) (keyword : String) :
    (Rule.shared keyword index).LeadsTo table keyword (some made) :=
  h ▸ .shared keyword index

/-- A reference that asks for something leads to a node made from its target. -/
theorem made_of_reference (hshares : validator.Shares settings targets) {keyword text : String}
    {rule : Option Rule} {before after : Session}
    (hyields : (reference settings (node settings depth) site keyword (.string text)).Yields before
      rule after) (hafter : after.targets <+: targets) :
    ∃ found there, settings.library.lookup site text = .ok found ∧
      found.2.within ⟨found.1, found.2.draft⟩ = .ok there ∧
      ((found.1.get? keyword).bind Json.text? ≠ some text →
        ∃ followed made, rule = some followed ∧
          followed.LeadsTo validator.shared keyword (some made) ∧
          Made settings targets there found.1 made) := by
  obtain ⟨other, found, there, heq, hfound, hthere, hcases⟩ := reference_cases hyields
  cases heq
  refine ⟨found, there, hfound, hthere, fun hecho => ?_⟩
  rcases hcases with ⟨-, -, hsame⟩ | ⟨index, rfl, hshare⟩ | ⟨made, between, rfl, -, hmade⟩
  · exact absurd hsame hecho
  · obtain ⟨made, hnode, hmade⟩ := made_of_share hshares hshare hafter
    exact ⟨_, made, rfl, leadsTo_shared hnode keyword, hmade⟩
  · exact ⟨_, made, rfl, .reference keyword made, depth, between, after, hmade, hafter⟩

variable (h : Corresponds settings settings' Near) (hnear : Near site site' schema)
  (hshares : validator.Shares settings targets) (hshares' : validator'.Shares settings' targets')

include h hnear hshares hshares'

theorem pairs_reference {keyword : String} (hkeyword : keyword = "$ref" ∨ keyword = "$dynamicRef")
    {value : Json} (hvalue : (keyword, value) ∈ membersOf schema) :
    Pairs targets targets'
      (Option.Rel (Rule.Sim Eq (Copied settings settings' targets targets' Near) validator.shared
        validator'.shared))
      (reference settings (node settings depth) site keyword value)
      (reference settings' (node settings' depth') site' keyword value) := by
  cases value with
  | string text =>
    intro before rule after before' rule' after' hyields hyields' hafter hafter'
    obtain ⟨found, there, hfound, hthere, hmade⟩ := made_of_reference hshares hyields hafter
    obtain ⟨found', there', hfound', hthere', hmade'⟩ := made_of_reference hshares' hyields' hafter'
    obtain ⟨hsame, hnext, hecho⟩ :=
      h.reference hnear hkeyword hvalue hfound hthere hfound' hthere'
    obtain ⟨followed, made, rfl, hleads, hmade⟩ := hmade hecho
    obtain ⟨followed', made', rfl, hleads', hmade'⟩ := hmade' (hsame ▸ hecho)
    exact .some (.follow hleads hleads' (.some ⟨there, there', found.1, hnext, hmade,
      hsame ▸ hmade'⟩))
  | _ => exact .refuse_left _ _

theorem pairs_recursiveReference (keyword : String) :
    Pairs targets targets'
      (Option.Rel (Rule.Sim Eq (Copied settings settings' targets targets' Near) validator.shared
        validator'.shared))
      (recursiveReference settings site keyword) (recursiveReference settings' site' keyword) := by
  intro before rule after before' rule' after' hyields hyields' hafter hafter'
  obtain ⟨found, there, index, hfound, hthere, rfl, hshare⟩ := recursiveReference_cases hyields
  obtain ⟨found', there', index', hfound', hthere', rfl, hshare'⟩ :=
    recursiveReference_cases hyields'
  obtain ⟨hsame, hnext⟩ := h.recursive hnear hfound hthere hfound' hthere'
  obtain ⟨made, hnode, hmade⟩ := made_of_share hshares hshare hafter
  obtain ⟨made', hnode', hmade'⟩ := made_of_share hshares' hshare' hafter'
  exact .some (.follow (leadsTo_shared hnode keyword) (leadsTo_shared hnode' keyword)
    (.some ⟨there, there', found.1, hnext, hmade, hsame ▸ hmade'⟩))

end Rules

section OtherRules

variable {settings settings' : Settings} {targets targets' : List Target}
  {Near : Site → Site → Json → Prop} {table table' : Array Node} {depth depth' : Nat}
  {site site' : Site} {schema : Json} (h : Corresponds settings settings' Near)
  (hnear : Near site site' schema)

include h hnear

theorem pairs_othersRule {value : Json} (hvalue : Json.Below schema value) (absent : Bool)
    {patterns patterns' : List (Pattern × Node)} {properties properties' : List (String × Node)}
    (hpatterns : List.Forall₂ (Named (Copied settings settings' targets targets' Near)) patterns
      patterns')
    (hproperties : List.Forall₂ (Named (Copied settings settings' targets targets' Near)) properties
      properties') :
    Pairs targets targets'
      (Option.Rel (Rule.Sim Eq (Copied settings settings' targets targets' Near) table table'))
      (othersRule (node settings depth) site absent value patterns properties)
      (othersRule (node settings' depth') site' absent value patterns' properties') := by
  unfold othersRule
  split
  · split
    · exact .pure (.some .noMembers)
    · exact .pure (.some (.allMembers hproperties hpatterns .none))
  · exact (pairs_subschema h hnear hvalue).map fun _ _ hcopied =>
      .some (.allMembers hproperties hpatterns (.some hcopied))

theorem pairs_additionalProperties {value : Json} (hvalue : Json.Below schema value) :
    Pairs targets targets'
      (Option.Rel (Rule.Sim Eq (Copied settings settings' targets targets' Near) table table'))
      (additionalProperties (node settings depth) site schema value)
      (additionalProperties (node settings' depth') site' schema value) := by
  have hgrows (settings : Settings) (depth : Nat) (site : Site) (absent : Bool) (value : Json)
      (patterns : List (Pattern × Node)) :
      (((schema.get? "properties").elim (return []) (subschemaMap (node settings depth) site)) >>=
        othersRule (node settings depth) site absent value patterns).Grows :=
    (Grows.elim fun _ => grows_subschemaMap (grows_node _ _) _ _).bind fun _ =>
      grows_othersRule (grows_node _ _) _ _ _ _ _
  unfold additionalProperties
  dsimp only
  split
  · exact .pure (.some .anyMembers)
  · refine Pairs.bind (Pairs.elim .nil fun patterns hget =>
      pairs_patternMap h hnear (Json.below_of_get? hget)) (fun _ => hgrows _ _ _ _ _ _)
      (fun _ => hgrows _ _ _ _ _ _) fun patterns patterns' hpatterns => ?_
    refine Pairs.bind (Pairs.elim .nil fun properties hget =>
      pairs_subschemaMap h hnear (Json.below_of_get? hget))
      (fun _ => grows_othersRule (grows_node _ _) _ _ _ _ _)
      (fun _ => grows_othersRule (grows_node _ _) _ _ _ _ _) fun properties properties' hproperties =>
        pairs_othersRule h hnear hvalue _ hpatterns hproperties

theorem pairs_items {value : Json} (hvalue : Json.Below schema value) :
    Pairs targets targets'
      (Option.Rel (Rule.Sim Eq (Copied settings settings' targets targets' Near) table table'))
      (items (node settings depth) site schema value)
      (items (node settings' depth') site' schema value) := by
  unfold items
  rw [h.draft hnear]
  split
  · split
    · exact .refuse_left _ _
    · exact (pairs_subschemaList h hnear hvalue).map fun _ _ hparts => .some (.firstItems _ hparts)
  · exact .pure (.some .anyItems)
  · exact (pairs_subschema h hnear hvalue).map fun _ _ hcopied => .some (.laterItems _ _ hcopied)

theorem pairs_additionalItems {value : Json} (hvalue : Json.Below schema value) :
    Pairs targets targets'
      (Option.Rel (Rule.Sim Eq (Copied settings settings' targets targets' Near) table table'))
      (additionalItems (node settings depth) site schema value)
      (additionalItems (node settings' depth') site' schema value) := by
  unfold additionalItems
  split
  · exact (pairs_subschema h hnear hvalue).map fun _ _ hcopied => .some (.laterItems _ _ hcopied)
  · exact .pure .none

omit h hnear in
theorem pairs_limit? (schema : Json) (keyword : String) :
    Pairs targets targets' Eq (limit? schema keyword) (limit? schema keyword) := by
  unfold limit?
  split
  · exact .pure rfl
  · split
    · exact .pure rfl
    · exact .throw_left _

theorem pairs_contains {value : Json} (hvalue : Json.Below schema value) :
    Pairs targets targets'
      (Option.Rel (Rule.Sim Eq (Copied settings settings' targets targets' Near) table table'))
      (contains (node settings depth) site schema value)
      (contains (node settings' depth') site' schema value) := by
  unfold contains
  rw [h.draft hnear]
  split
  · exact (pairs_subschema h hnear hvalue).map fun _ _ hcopied => .some (.contains _ _ hcopied)
  · have hgrows (settings : Settings) (depth : Nat) (site : Site) {make : Node → Option Rule} :
        Grows (subschema (node settings depth) site value >>= fun part => Pure.pure (make part)) :=
      (grows_subschema (grows_node _ _) _ _).map
    refine (pairs_limit? _ _).bind (fun _ => (grows_limit? _ _).bind fun _ => hgrows _ _ _)
      (fun _ => (grows_limit? _ _).bind fun _ => hgrows _ _ _) ?_
    rintro least _ rfl
    refine (pairs_limit? _ _).bind (fun _ => hgrows _ _ _) (fun _ => hgrows _ _ _) ?_
    rintro most _ rfl
    exact (pairs_subschema h hnear hvalue).map fun _ _ hcopied => .some (.contains _ _ hcopied)

theorem pairs_branch (keyword : String) :
    Pairs targets targets' (Option.Rel (Copied settings settings' targets targets' Near))
      (branch (node settings depth) site schema keyword)
      (branch (node settings' depth') site' schema keyword) :=
  .mapM_option fun _ hget => pairs_subschema h hnear (Json.below_of_get? hget)

theorem pairs_condition {value : Json} (hvalue : Json.Below schema value) :
    Pairs targets targets'
      (Option.Rel (Rule.Sim Eq (Copied settings settings' targets targets' Near) table table'))
      (condition (node settings depth) site schema value)
      (condition (node settings' depth') site' schema value) := by
  have hgrows (settings : Settings) (depth : Nat) (site : Site) (keyword : String)
      {make : Option Node → Option Rule} :
      Grows (branch (node settings depth) site schema keyword >>= fun part =>
        Pure.pure (make part)) :=
    (grows_branch (grows_node _ _) _ _ _).map
  refine (pairs_subschema h hnear hvalue).bind
    (fun _ => (grows_branch (grows_node _ _) _ _ _).bind fun _ => hgrows _ _ _ _)
    (fun _ => (grows_branch (grows_node _ _) _ _ _).bind fun _ => hgrows _ _ _ _)
    fun test test' htest => ?_
  refine (pairs_branch h hnear "then").bind (fun _ => hgrows _ _ _ _) (fun _ => hgrows _ _ _ _)
    fun positive positive' hpositive => ?_
  exact (pairs_branch h hnear "else").map fun negative negative' hnegative =>
    .some (.condition htest hpositive hnegative)

theorem pairs_dependent {value : Json} (hvalue : Json.Below schema value) :
    Pairs targets targets' (Sum.LiftRel Eq (Copied settings settings' targets targets' Near))
      (dependent (node settings depth) site value)
      (dependent (node settings' depth') site' value) := by
  unfold dependent
  split
  · split
    · exact .pure (.inl rfl)
    · exact .throw_left _
  · exact (pairs_subschema h hnear hvalue).map fun _ _ hcopied => .inr hcopied

theorem pairs_dependencies (keyword : String) {value : Json} (hvalue : Json.Below schema value) :
    Pairs targets targets'
      (Option.Rel (Rule.Sim Eq (Copied settings settings' targets targets' Near) table table'))
      (dependencies (node settings depth) site keyword value)
      (dependencies (node settings' depth') site' keyword value) := by
  unfold dependencies
  split
  · have hgrows (settings : Settings) (depth : Nat) (site : Site) (member : String × Json) :
        Grows (dependent (node settings depth) site member.2 >>= fun found =>
          Pure.pure (member.1, found)) :=
      (grows_dependent (grows_node _ _) _ _).map
    refine (Pairs.mapM (fun member _ => hgrows _ _ _ member) (fun member _ => hgrows _ _ _ member)
      ?_).map fun _ _ hdependents => .some (.dependencies keyword hdependents)
    rintro ⟨key, part⟩ hpart
    exact (pairs_dependent h hnear (hvalue.member hpart)).map fun _ _ hdependent =>
      ⟨rfl, hdependent⟩
  · exact .refuse_left _ _

theorem pairs_assertion (keyword : String) (value : Json) :
    Pairs targets targets'
      (Option.Rel (Rule.Sim Eq (Copied settings settings' targets targets' Near) table table'))
      (assertion settings site schema keyword value)
      (assertion settings' site' schema keyword value) := by
  unfold assertion
  rw [h.draft hnear, h.formats]
  split
  · exact .throw_left _
  · next claim _ =>
    refine .pure ?_
    cases claim with
    | none => exact .none
    | some claim => exact .some (.assertion keyword _)

end OtherRules

/-! ## Nodes of copies -/

theorem forall₂_filterMap {α β : Type} {R : α → β → Prop} {as : List (Option α)}
    {bs : List (Option β)} (hrel : List.Forall₂ (Option.Rel R) as bs) :
    List.Forall₂ R (as.filterMap id) (bs.filterMap id) := by
  induction hrel with
  | nil => exact .nil
  | cons hab _ ih =>
    cases hab with
    | none => exact ih
    | some hab => exact .cons hab ih

section Nodes

variable {settings settings' : Settings} {targets targets' : List Target}
  {Near : Site → Site → Json → Prop} {validator validator' : Validator} {depth depth' : Nat}
  {site site' : Site} {schema : Json} (h : Corresponds settings settings' Near)
  (hshares : validator.Shares settings targets) (hshares' : validator'.Shares settings' targets')

include h hshares hshares'

theorem pairs_rule? (hnear : Near site site' schema) {keyword : String} {value : Json}
    (hvalue : (keyword, value) ∈ membersOf schema) :
    Pairs targets targets'
      (Option.Rel (Rule.Sim Eq (Copied settings settings' targets targets' Near) validator.shared
        validator'.shared))
      (rule? settings (node settings depth) site schema keyword value)
      (rule? settings' (node settings' depth') site' schema keyword value) := by
  have hinside : Json.Below schema value := below_of_mem_membersOf hvalue
  have hdraft := h.draft hnear
  have hchoice (skip : Bool) {x y : Compiling (Option Rule)}
      (hpairs : Pairs targets targets' (Option.Rel (Rule.Sim Eq
        (Copied settings settings' targets targets' Near) validator.shared validator'.shared)) x y) :
      Pairs targets targets' (Option.Rel (Rule.Sim Eq
        (Copied settings settings' targets targets' Near) validator.shared validator'.shared))
        (if skip then return none else x) (if skip then return none else y) := by
    split
    · exact .pure .none
    · exact hpairs
  unfold rule?
  dsimp only
  rw [hdraft]
  split
  case h_1 => exact pairs_reference h hnear hshares hshares' (.inl rfl) hvalue
  case h_2 => exact hchoice _ (pairs_reference h hnear hshares hshares' (.inr rfl) hvalue)
  case h_3 =>
    split
    · exact pairs_recursiveReference h hnear hshares hshares' _
    · exact .pure .none
  case h_4 => exact (pairs_subschemaList h hnear hinside).map fun _ _ hparts => .some (.allOf hparts)
  case h_5 => exact (pairs_subschemaList h hnear hinside).map fun _ _ hparts => .some (.anyOf hparts)
  case h_6 => exact (pairs_subschemaList h hnear hinside).map fun _ _ hparts => .some (.oneOf hparts)
  case h_7 => exact (pairs_subschema h hnear hinside).map fun _ _ hpart => .some (.not rfl hpart)
  case h_8 => exact hchoice _ (pairs_condition h hnear hinside)
  case h_9 =>
    exact hchoice _ ((pairs_subschemaMap h hnear hinside).map fun _ _ hnamed =>
      .some (.properties hnamed))
  case h_10 =>
    exact hchoice _ ((pairs_patternMap h hnear hinside).map fun _ _ hpatterns =>
      .some (.patternProperties hpatterns))
  case h_11 => exact pairs_additionalProperties h hnear hinside
  case h_12 =>
    exact hchoice _ ((pairs_subschema h hnear hinside).map fun _ _ hpart =>
      .some (.propertyNames hpart))
  case h_13 => exact pairs_dependencies h hnear _ hinside
  case h_14 | h_15 => exact hchoice _ (pairs_dependencies h hnear _ hinside)
  case h_16 =>
    exact hchoice _ ((pairs_subschemaList h hnear hinside).map fun _ _ hparts =>
      .some (.firstItems _ hparts))
  case h_17 => exact pairs_items h hnear hinside
  case h_18 =>
    split
    · exact .pure .none
    · exact pairs_additionalItems h hnear hinside
  case h_19 => exact hchoice _ (pairs_contains h hnear hinside)
  case h_20 =>
    exact hchoice _ ((pairs_subschema h hnear hinside).map fun _ _ hpart =>
      .some (.unevaluatedProperties hpart))
  case h_21 =>
    exact hchoice _ ((pairs_subschema h hnear hinside).map fun _ _ hpart =>
      .some (.unevaluatedItems hpart))
  case h_22 => exact pairs_assertion h hnear _ _

theorem pairs_node (hnear : Near site site' schema) :
    Pairs targets targets'
      (Node.Sim Eq (Copied settings settings' targets targets' Near) validator.shared validator'.shared)
      (node settings depth site schema) (node settings' depth' site' schema) := by
  cases depth with
  | zero => exact .throw_left _
  | succ depth =>
    cases depth' with
    | zero =>
      intro _ _ _ _ _ _ _ hyields
      exact absurd hyields (not_yields_throw _)
    | succ depth' =>
      cases schema with
      | bool b =>
        cases b with
        | true => exact .pure .anything
        | false => exact .pure .nothing
      | object members =>
        unfold node
        rw [h.draft hnear]
        refine (Pairs.mapM (fun _ _ => grows_rule? _ (grows_node _ _) _ _ _ _)
          (fun _ _ => grows_rule? _ (grows_node _ _) _ _ _ _) ?_).map fun _ _ hrules =>
            .rules (forall₂_filterMap hrules)
        rintro ⟨keyword, value⟩ hmember
        refine pairs_rule? h hshares hshares' hnear ?_
        -- In older drafts a reference hides all other members.
        split at hmember
        · next reference hget =>
          split at hmember
          · cases List.mem_singleton.1 hmember
            exact Entries.mem_of_get?_eq_some hget
          · exact hmember
        · exact hmember
      | _ => exact .refuse_left _ _

/-- Copies are alike. -/
theorem isSimulation_copied :
    IsSimulation Eq (Copied settings settings' targets targets' Near) validator.shared
      validator'.shared := by
  rintro made made' ⟨site, site', schema, hnear, ⟨depth, before, after, hmade, hafter⟩,
    ⟨depth', before', after', hmade', hafter'⟩⟩
  exact pairs_node h hshares hshares' hnear _ _ _ _ _ _ hmade hmade' hafter hafter'

/-- A verdict on a value by a copy is the verdict of every other copy. -/
theorem isValid_of_copied {made made' : Node}
    (hcopied : Copied settings settings' targets targets' Near made made') {levels : Nat}
    {value : Json} {b : Bool} (hvalid : made.isValid validator.shared levels value = some b) :
    made'.isValid validator'.shared levels value = some b :=
  have hsim : Level.Sim (Copied settings settings' targets targets' Near) (fun _ => True) Move.stay
      (Level.at_ validator.shared levels) (Level.at_ validator'.shared levels) :=
    Level.sim_at (isSimulation_copied h hshares hshares') Level.isClosed_true levels
  (hsim.isValid made made' value hcopied trivial).eq_some hvalid

end Nodes

end Compiling

end ApiContract.JsonSchema
