import ApiContract.Proofs.JsonSchema.Addresses
import ApiContract.Proofs.JsonSchema.Decisions
import ApiContract.Proofs.JsonSchema.Sessions
/-!
# Schemas that combine other schemas

A combination consists of references and of one keyword around them.  If its
references are answered by nodes that decide something, the compiled combination
decides the combination of it (`decides_of_made`).
-/

namespace ApiContract.JsonSchema

/-! ## Combinations -/

/-- The schema that refers to another one. -/
def refersTo (text : String) : Json := .object [("$ref", .string text)]

/-- A keyword and the references that it is about. -/
inductive Combination where
  | reference (text : String)
  | allOf (texts : List String)
  | anyOf (texts : List String)
  | oneOf (texts : List String)
  | not (text : String)
  | items (text : String)
  | additionalProperties (text : String)
  | properties (named : List (String × String))

namespace Combination

/-- The references. -/
def texts : Combination → List String
  | reference text | not text | items text | additionalProperties text => [text]
  | allOf texts | anyOf texts | oneOf texts => texts
  | properties named => named.map (·.2)

/-- The combination of other references. -/
def map (f : String → String) : Combination → Combination
  | reference text => reference (f text)
  | allOf texts => allOf (texts.map f)
  | anyOf texts => anyOf (texts.map f)
  | oneOf texts => oneOf (texts.map f)
  | not text => not (f text)
  | items text => items (f text)
  | additionalProperties text => additionalProperties (f text)
  | properties named => properties (named.map fun property => (property.1, f property.2))

/-- The keyword. -/
def keyword : Combination → String
  | reference _ => "$ref"
  | allOf _ => "allOf"
  | anyOf _ => "anyOf"
  | oneOf _ => "oneOf"
  | not _ => "not"
  | items _ => "items"
  | additionalProperties _ => "additionalProperties"
  | properties _ => "properties"

/-- The value of the keyword. -/
def value : Combination → Json
  | reference text => .string text
  | allOf texts | anyOf texts | oneOf texts => .array (texts.map refersTo)
  | not text | items text | additionalProperties text => refersTo text
  | properties named => .object (named.map fun property => (property.1, refersTo property.2))

/-- What the combination asks of a value if its references ask for what
`accepts` says. -/
def Holds (accepts : String → Json → Prop) : Combination → Json → Prop
  | reference text, value => accepts text value
  | allOf texts, value => ∀ text ∈ texts, accepts text value
  | anyOf texts, value => ∃ text ∈ texts, accepts text value
  | oneOf texts, value => ExactlyOne (fun text => accepts text value) texts
  | not text, value => ¬ accepts text value
  | items text, .array list => ∀ item ∈ list, accepts text item
  | additionalProperties text, .object members => ∀ member ∈ members, accepts text member.2
  | properties named, .object members => ∀ property ∈ named, ∀ member,
      Entries.get? members property.1 = some member → accepts property.2 member
  | _, _ => True

@[simp] theorem keyword_map (f : String → String) (combination : Combination) :
    (combination.map f).keyword = combination.keyword := by
  cases combination <;> rfl

theorem texts_map (f : String → String) (combination : Combination) :
    (combination.map f).texts = combination.texts.map f := by
  cases combination <;> simp [map, texts]

theorem holds_map (f : String → String) (accepts : String → Json → Prop)
    (combination : Combination) (value : Json) :
    (combination.map f).Holds accepts value ↔
      combination.Holds (fun text => accepts (f text)) value := by
  cases combination with
  | oneOf texts => exact exactlyOne_map (fun text => accepts text value) f texts
  | properties named =>
    cases value with
    | object members => simp only [map, Holds, List.forall_mem_map]
    | _ => exact Iff.rfl
  | _ => cases value <;> simp [map, Holds]

end Combination

/-- Besides the member there is nothing but `$id` and `$schema`. -/
def Sole (members : List (String × Json)) (keyword : String) (value : Json) : Prop :=
  ∃ before after, members = before ++ (keyword, value) :: after ∧
    ∀ other ∈ before ++ after, other.1 = "$id" ∨ other.1 = "$schema"

theorem Sole.get?_eq_none {members : List (String × Json)} {keyword : String} {value : Json}
    (h : Sole members keyword value) {key : String} (hkey : key ≠ keyword) (hid : key ≠ "$id")
    (hschema : key ≠ "$schema") : (Json.object members).get? key = none := by
  obtain ⟨before, after, rfl, hothers⟩ := h
  refine Entries.get?_eq_none_of_forall_ne ?_
  rintro entry hentry rfl
  have hcases : entry = (keyword, value) ∨ entry ∈ before ++ after := by
    simp only [List.mem_append, List.mem_cons] at hentry ⊢
    tauto
  rcases hcases with rfl | hother
  · exact hkey rfl
  · exact (hothers entry hother).elim hid hschema

namespace Compiling

/-! ## Results within the targets -/

section Ends

variable {α β γ : Type} {targets : List Target} {x : Compiling α}

/-- Begun in some session, the step ends with a result, within the targets. -/
def Ends (x : Compiling α) (targets : List Target) (a : α) : Prop :=
  ∃ before after, x.Yields before a after ∧ after.targets <+: targets

theorem ends_pure {a b : α} : (pure a : Compiling α).Ends targets b → a = b := by
  rintro ⟨before, after, h, -⟩
  exact (yields_pure.1 h).1

theorem Ends.bind {f : α → Compiling β} {b : β} (h : (x >>= f).Ends targets b)
    (hgrows : ∀ a, (f a).Grows) : ∃ a, x.Ends targets a ∧ (f a).Ends targets b := by
  obtain ⟨before, after, h, hafter⟩ := h
  obtain ⟨a, between, ha, hb⟩ := yields_bind.1 h
  exact ⟨a, ⟨before, between, ha, (hgrows a between b after hb).trans hafter⟩,
    between, after, hb, hafter⟩

theorem Ends.map {f : α → β} {b : β} (h : (x >>= fun a => pure (f a)).Ends targets b) :
    ∃ a, x.Ends targets a ∧ b = f a := by
  obtain ⟨a, ha, hb⟩ := h.bind fun _ => .pure _
  exact ⟨a, ha, (ends_pure hb).symm⟩

theorem Ends.mapM {f : γ → Compiling α} {list : List γ} {as : List α}
    (h : (list.mapM f).Ends targets as) (hgrows : ∀ c ∈ list, (f c).Grows) :
    List.Forall₂ (fun c a => (f c).Ends targets a) list as := by
  induction list generalizing as with
  | nil =>
    rw [List.mapM_nil] at h
    exact ends_pure h ▸ .nil
  | cons c list ih =>
    rw [List.mapM_cons] at h
    have hrest := fun c hc => hgrows c (List.mem_cons_of_mem _ hc)
    obtain ⟨a, ha, h⟩ := h.bind fun _ => Grows.map (.mapM hrest)
    obtain ⟨as, has, rfl⟩ := h.map
    exact .cons ha (ih has hrest)

end Ends

/-! ## Compiled combinations -/

variable {settings : Settings} {targets : List Target} {table : Array Node} {site : Site}
  {accepts : String → Json → Prop} {depth : Nat}

/-- The reference at a site is answered by a rule that decides what the text
accepts. -/
def Answered (settings : Settings) (targets : List Target) (table : Array Node) (site : Site)
    (accepts : String → Json → Prop) (text : String) : Prop :=
  ∀ depth rule, (reference settings (node settings depth) site "$ref" (.string text)).Ends targets
    rule → ∃ followed, rule = some followed ∧ followed.Decides table (accepts text)

/-- The rules of a schema of Draft 2020-12, member by member. -/
theorem rules_of_ends {members : List (String × Json)} {made : Node}
    (h : (node settings (depth + 1) site (.object members)).Ends targets made)
    (hdraft : site.draft = .draft202012) :
    ∃ rules, made = .rules (rules.filterMap id) ∧
      List.Forall₂ (fun member rule => (rule? settings (node settings depth) site (.object members)
        member.1 member.2).Ends targets rule) members rules := by
  have hlater : Draft.before .draft202012 .draft201909 = false := rfl
  unfold node at h
  dsimp only at h
  rw [hdraft, hlater] at h
  obtain ⟨rules, hrules, rfl⟩ := h.map
  refine ⟨rules, rfl, ?_⟩
  have hrules := hrules.mapM fun _ _ => grows_rule? _ (grows_node _ _) _ _ _ _
  split at hrules <;> exact hrules

/-- Identifiers and draft markers ask for nothing. -/
theorem rule?_of_identity {inner : Descent} {schema value : Json} {keyword : String}
    (hkeyword : keyword = "$id" ∨ keyword = "$schema") {rule : Option Rule}
    (h : (rule? settings inner site schema keyword value).Ends targets rule) : rule = none := by
  rcases hkeyword with rfl | rfl <;> exact (ends_pure h).symm

theorem filterMap_of_sole {S : String × Json → Option Rule → Prop}
    {before after : List (String × Json)} {member : String × Json} {rules : List (Option Rule)}
    (h : List.Forall₂ S (before ++ member :: after) rules)
    (hnone : ∀ other ∈ before ++ after, ∀ rule, S other rule → rule = none) :
    ∃ rule, S member rule ∧ rules.filterMap id = rule.toList := by
  induction before generalizing rules with
  | nil =>
    cases h with
    | @cons _ rule _ rest hrule hrest =>
      refine ⟨rule, hrule, ?_⟩
      have hempty : ∀ other ∈ rest, other = none := by
        intro other hother
        obtain ⟨hlength, hget⟩ := List.forall₂_iff_get.1 hrest
        obtain ⟨i, rfl⟩ := List.mem_iff_get.1 hother
        exact hnone _ (List.get_mem after (i.cast hlength.symm)) _ (hget i (hlength.symm ▸ i.2) i.2)
      cases rule <;> simpa using hempty
  | cons first before ih =>
    cases h with
    | @cons _ rule _ rest hrule hrest =>
      obtain rfl := hnone first List.mem_cons_self rule hrule
      obtain ⟨found, hfound, hfilter⟩ :=
        ih hrest fun other hother => hnone other (List.mem_cons_of_mem _ hother)
      exact ⟨found, hfound, by simpa using hfilter⟩

theorem rules_of_sole {members : List (String × Json)} {keyword : String} {value : Json}
    {made : Node} (h : (node settings (depth + 1) site (.object members)).Ends targets made)
    (hdraft : site.draft = .draft202012) (hsole : Sole members keyword value) :
    ∃ rule, made = .rules rule.toList ∧ (rule? settings (node settings depth) site (.object members)
      keyword value).Ends targets rule := by
  obtain ⟨rules, rfl, hrules⟩ := rules_of_ends h hdraft
  obtain ⟨before, after, heq, hothers⟩ := hsole
  have hsplit : List.Forall₂ (fun member rule => (rule? settings (node settings depth) site
      (.object members) member.1 member.2).Ends targets rule) (before ++ (keyword, value) :: after)
      rules := by
    rw [← heq]
    exact hrules
  obtain ⟨rule, hrule, hfilter⟩ := filterMap_of_sole hsplit
    fun member hmember rule hrule => rule?_of_identity (hothers member hmember) hrule
  exact ⟨rule, by rw [hfilter], hrule⟩

section Parts

variable {text : String} {made : Node}

theorem decides_of_answered (h : Answered settings targets table site accepts text)
    (hdraft : site.draft = .draft202012)
    (hmade : (node settings depth site (refersTo text)).Ends targets made) :
    made.Decides table (accepts text) := by
  cases depth with
  | zero =>
    obtain ⟨before, after, hyields, -⟩ := hmade
    exact absurd hyields (not_yields_throw _)
  | succ depth =>
    obtain ⟨rule, rfl, hrule⟩ := rules_of_sole hmade hdraft ⟨[], [], rfl, by simp⟩
    obtain ⟨followed, rfl, hfollowed⟩ := h depth rule hrule
    exact Node.decides_rules hfollowed

theorem decides_subschema (h : Answered settings targets table site accepts text)
    (hdraft : site.draft = .draft202012)
    (hmade : (subschema (node settings depth) site (refersTo text)).Ends targets made) :
    made.Decides table (accepts text) := by
  obtain ⟨inside, hinside, hmade⟩ := hmade.bind fun _ => grows_node _ _ _ _
  obtain ⟨before, after, hyields, -⟩ := hinside
  have hsite : site.within ⟨refersTo text, site.draft⟩ = .ok inside := (yields_following.1 hyields).1
  have hnone : site.draft.idOf? (refersTo text) = none := by rw [hdraft]; rfl
  rw [Site.within_of_idOf?_eq_none hnone] at hsite
  cases hsite
  exact decides_of_answered h hdraft hmade

end Parts

section Lists

variable {texts : List String} {parts : List Node}

theorem decides_subschemaList (h : ∀ text ∈ texts, Answered settings targets table site accepts text)
    (hdraft : site.draft = .draft202012)
    (hparts : (subschemaList (node settings depth) site (.array (texts.map refersTo))).Ends targets
      parts) : List.Forall₂ (Node.Decides table) parts (texts.map accepts) := by
  have hall := Ends.mapM hparts fun _ _ => grows_subschema (grows_node _ _) _ _
  rw [List.forall₂_map_left_iff] at hall
  rw [List.forall₂_map_right_iff]
  clear hparts
  induction hall with
  | nil => exact .nil
  | cons hmade _ ih =>
    exact .cons (decides_subschema (h _ List.mem_cons_self) hdraft hmade)
      (ih fun text htext => h text (List.mem_cons_of_mem _ htext))

theorem decides_subschemaMap {named : List (String × String)} {properties : List (String × Node)}
    (h : ∀ property ∈ named, Answered settings targets table site accepts property.2)
    (hdraft : site.draft = .draft202012)
    (hproperties : (subschemaMap (node settings depth) site
      (.object (named.map fun property => (property.1, refersTo property.2)))).Ends targets
        properties) :
    List.Forall₂ (fun property claim => property.1 = claim.1 ∧ property.2.Decides table claim.2)
      properties (named.map fun property => (property.1, accepts property.2)) := by
  have hall := Ends.mapM hproperties fun _ _ => Grows.map (grows_subschema (grows_node _ _) _ _)
  rw [List.forall₂_map_left_iff] at hall
  rw [List.forall₂_map_right_iff]
  clear hproperties
  induction hall with
  | nil => exact .nil
  | cons hmade _ ih =>
    obtain ⟨part, hpart, rfl⟩ := Ends.map hmade
    exact .cons ⟨rfl, decides_subschema (h _ List.mem_cons_self) hdraft hpart⟩
      (ih fun property hproperty => h property (List.mem_cons_of_mem _ hproperty))

end Lists

/-- The rule of a combination decides the combination of what its references
accept. -/
theorem decides_rule? {combination : Combination} {members : List (String × Json)}
    {rule : Option Rule} (hdraft : site.draft = .draft202012)
    (hsole : Sole members combination.keyword combination.value)
    (h : ∀ text ∈ combination.texts, Answered settings targets table site accepts text)
    (hrule : (rule? settings (node settings depth) site (.object members) combination.keyword
      combination.value).Ends targets rule) :
    ∃ followed, rule = some followed ∧ followed.Decides table (combination.Holds accepts) := by
  cases combination with
  | reference text => exact h text List.mem_cons_self depth rule hrule
  | allOf texts =>
    obtain ⟨parts, hparts, rfl⟩ := Ends.map hrule
    refine ⟨_, rfl, (Rule.decides_allOf (decides_subschemaList h hdraft hparts)).congr ?_⟩
    simp [Combination.Holds, Combination.texts]
  | anyOf texts =>
    obtain ⟨parts, hparts, rfl⟩ := Ends.map hrule
    refine ⟨_, rfl, (Rule.decides_anyOf (decides_subschemaList h hdraft hparts)).congr ?_⟩
    simp [Combination.Holds, Combination.texts]
  | oneOf texts =>
    obtain ⟨parts, hparts, rfl⟩ := Ends.map hrule
    refine ⟨_, rfl, (Rule.decides_oneOf (decides_subschemaList h hdraft hparts)).congr ?_⟩
    intro value
    exact exactlyOne_map (fun claim => claim value) accepts texts
  | not text =>
    obtain ⟨part, hpart, rfl⟩ := Ends.map hrule
    exact ⟨_, rfl, Rule.decides_not _ (decides_subschema (h text List.mem_cons_self) hdraft hpart)⟩
  | items text =>
    have hprefix : (Json.object members).get? "prefixItems" = none :=
      hsole.get?_eq_none (show "prefixItems" ≠ "items" by decide) (by decide) (by decide)
    have hitems : (items (node settings depth) site (.object members) (refersTo text)).Ends targets
        rule := hrule
    simp only [items, refersTo, hprefix, hdraft] at hitems
    obtain ⟨part, hpart, rfl⟩ := Ends.map hitems
    refine ⟨_, rfl, (Rule.decides_laterItems _
      (decides_subschema (h text List.mem_cons_self) hdraft hpart)).congr ?_⟩
    intro value
    cases value <;> simp [Combination.Holds]
  | additionalProperties text =>
    have hpatterns : (Json.object members).get? "patternProperties" = none :=
      hsole.get?_eq_none (show "patternProperties" ≠ "additionalProperties" by decide) (by decide) (by decide)
    have hproperties : (Json.object members).get? "properties" = none :=
      hsole.get?_eq_none (show "properties" ≠ "additionalProperties" by decide) (by decide) (by decide)
    have hothers : (additionalProperties (node settings depth) site (.object members)
        (refersTo text)).Ends targets rule := hrule
    simp only [additionalProperties, refersTo, hpatterns, hproperties, Option.elim_none, pure_bind,
      othersRule] at hothers
    obtain ⟨part, hpart, rfl⟩ := Ends.map hothers
    refine ⟨_, rfl, (Rule.decides_allMembers
      (decides_subschema (h text List.mem_cons_self) hdraft hpart)).congr ?_⟩
    intro value
    cases value <;> simp [Combination.Holds]
  | properties named =>
    have hadditional : (Json.object members).get? "additionalProperties" = none :=
      hsole.get?_eq_none (show "additionalProperties" ≠ "properties" by decide) (by decide) (by decide)
    have htakes : takesOver (.object members) = false := by rw [takesOver, hadditional]
    have hnamed : (do return some (Rule.properties (← subschemaMap (node settings depth) site
        (Combination.properties named).value)) : Compiling (Option Rule)).Ends targets rule := by
      have hrule' : (if takesOver (.object members) then return none else return some (Rule.properties
          (← subschemaMap (node settings depth) site (Combination.properties named).value)) :
            Compiling (Option Rule)).Ends targets rule := hrule
      rwa [htakes] at hrule'
    obtain ⟨properties, hproperties, rfl⟩ := Ends.map hnamed
    have hanswered : ∀ property ∈ named, Answered settings targets table site accepts property.2 :=
      fun property hproperty => h property.2 (List.mem_map_of_mem hproperty)
    refine ⟨_, rfl, (Rule.decides_properties
      (decides_subschemaMap hanswered hdraft hproperties)).congr ?_⟩
    intro value
    cases value with
    | object members => simp only [Combination.Holds, List.forall_mem_map, Json.object.injEq, forall_eq']
    | _ => simp [Combination.Holds]

/-- A compiled combination decides the combination of what its references
accept. -/
theorem decides_of_made {combination : Combination} {members : List (String × Json)} {made : Node}
    (hdraft : site.draft = .draft202012)
    (hsole : Sole members combination.keyword combination.value)
    (h : ∀ text ∈ combination.texts, Answered settings targets table site accepts text)
    (hmade : Made settings targets site (.object members) made) :
    made.Decides table (combination.Holds accepts) := by
  obtain ⟨depth, before, after, hyields, hafter⟩ := hmade
  cases depth with
  | zero => exact absurd hyields (not_yields_throw _)
  | succ depth =>
    obtain ⟨rule, rfl, hrule⟩ := rules_of_sole ⟨before, after, hyields, hafter⟩ hdraft hsole
    obtain ⟨followed, rfl, hfollowed⟩ := decides_rule? hdraft hsole h hrule
    exact Node.decides_rules hfollowed

end Compiling

end ApiContract.JsonSchema
