import ApiContract.Proofs.JsonSchema.Links
import ApiContract.Proofs.JsonSchema.Verdicts
/-!
# Required members

A schema requires a member if it lists it under `required` itself, or if a part of its
`allOf` requires it (`Requires`).  The compiled schema demands what the schema requires
(`ensures_demands`), and a node finds every member missing that it demands, whatever
else is wrong with the value (`missing_of_demands`).
-/

namespace ApiContract.JsonSchema

/-! ## What a schema requires -/

/-- The draft that a schema inside a schema of a draft is read by: the one that it names,
or else the same. -/
def Draft.inside (outer : Draft) (schema : Json) : Draft :=
  (outer.detect schema).toOption.getD .draft202012

theorem Draft.inside_congr {schema schema' : Json} (h : schema.get? "$schema" = schema'.get? "$schema")
    (outer : Draft) : outer.inside schema = outer.inside schema' := by
  rw [inside, inside, detect, detect, h]

/-- The keywords of the schema count: there is no reference beside them, or the draft
does not ignore what stands beside a reference. -/
def Draft.Counts (draft : Draft) (schema : Json) : Prop :=
  schema.get? "$ref" = none ∨ draft.before .draft201909 = false

/-- A schema, read by a draft, requires a member. -/
inductive Requires (field : String) : Draft → Json → Prop
  /-- The schema lists the member. -/
  | listed {draft : Draft} {schema : Json} {names : List Json} (hcounts : draft.Counts schema)
    (hnames : schema.get? "required" = some (.array names)) (hfield : .string field ∈ names) :
    Requires field draft schema
  /-- A part of the schema requires the member. -/
  | part {draft : Draft} {schema part : Json} {parts : List Json} (hcounts : draft.Counts schema)
    (hparts : schema.get? "allOf" = some (.array parts)) (hpart : part ∈ parts)
    (h : Requires field (draft.inside part) part) : Requires field draft schema

/-- Other keywords have no say in what a schema requires. -/
theorem Requires.congr {field : String} {draft : Draft} {schema schema' : Json}
    (h : Requires field draft schema)
    (hsame : ∀ key ∈ ["$ref", "required", "allOf"], schema'.get? key = schema.get? key) :
    Requires field draft schema' := by
  have hcounts : draft.Counts schema → draft.Counts schema' := by
    intro hcounts
    rwa [Draft.Counts, hsame "$ref" (by decide)]
  cases h with
  | listed hsiblings hnames hfield =>
    exact .listed (hcounts hsiblings) ((hsame "required" (by decide)).trans hnames) hfield
  | part hsiblings hparts hpart hinner =>
    exact .part (hcounts hsiblings) ((hsame "allOf" (by decide)).trans hparts) hpart hinner

theorem Site.draft_of_within {site inside : Site} {resource : Resource}
    (h : site.within resource = .ok inside) : inside.draft = resource.draft := by
  unfold within at h
  split at h
  · obtain ⟨base, -, h⟩ := bind_eq_ok.1 h
    cases h
    rfl
  · cases h
    rfl

/-! ## What a node demands -/

/-- A node demands a member. -/
inductive Node.Demands (field : String) : Node → Prop
  /-- A rule of the node asks for it. -/
  | listed {list : List Rule} {keyword : String} {names : List String}
    (hrule : .assertion keyword (.required names) ∈ list) (hfield : field ∈ names) :
    Demands field (.rules list)
  /-- One of the nodes that all have to be content demands it. -/
  | part {list : List Rule} {parts : List Node} {part : Node} (hrule : .allOf parts ∈ list)
    (hpart : part ∈ parts) (h : part.Demands field) : Demands field (.rules list)

/-- Among others, a rule makes a node demand a member. -/
def Rule.Demands (field : String) (rule : Rule) : Prop :=
  ∀ list, rule ∈ list → Node.Demands field (.rules list)

/-- It is found wrong with the value at a place that it does not have the member. -/
def Missing (field : String) (instancePath : Path) (found : List Violation) : Prop :=
  ∃ violation ∈ found, violation.instancePath = instancePath ∧ violation.cause = .required field

theorem Missing.mono {field : String} {instancePath : Path} {own found : List Violation}
    (h : Missing field instancePath own) (hsubset : own ⊆ found) :
    Missing field instancePath found := by
  obtain ⟨violation, hmem, hviolation⟩ := h
  exact ⟨violation, hsubset hmem, hviolation⟩

/-- What a node demands is found to be missing, at every depth at which anything is
found out. -/
theorem Node.missing_of_demands {table : Array Node} {node : Node} {field : String}
    (h : node.Demands field) {members : List (String × Json)}
    (hmissing : Entries.get? members field = none) {depth : Nat} {schemaPath instancePath : Path}
    {found : List Violation}
    (hfound : node.violations table depth schemaPath instancePath (.object members) = some found) :
    Missing field instancePath found := by
  induction h generalizing depth schemaPath found with
  | @listed list keyword names hrule hfield =>
    cases depth with
    | zero => cases hfound
    | succ depth =>
      obtain ⟨own, hown, hsubset⟩ := Node.found_of_rule hfound hrule
      refine Missing.mono ?_ hsubset
      cases hown
      have hname : field ∈ names.filter fun name => !Entries.has members name :=
        List.mem_filter.2 ⟨hfield, by simp [Entries.has, hmissing]⟩
      have hcause : Cause.required field ∈ (Assertion.required names).check (.object members) :=
        List.mem_map_of_mem hname
      exact ⟨⟨instancePath, schemaPath ++ [keyword], .object members, .required field⟩,
        List.mem_flatMap.2 ⟨_, hcause, List.mem_singleton_self _⟩, rfl, rfl⟩
  | @part list parts part hrule hpart _ ih =>
    cases depth with
    | zero => cases hfound
    | succ depth =>
      obtain ⟨own, hown, hsubset⟩ := Node.found_of_rule hfound hrule
      obtain ⟨partPath, inner, hinner, hinnerSubset⟩ := Rule.found_of_allOf hown hpart
      exact ((ih hinner).mono hinnerSubset).mono hsubset

/-! ## Compilation -/

namespace Compiling

variable {α γ : Type} {targets : List Target} {settings : Settings} {field : String}

/-- What one step of several ensures holds of one of the results. -/
theorem Ensures.exists_mapM {P : α → Prop} {f : γ → Compiling α} {list : List γ} {c : γ}
    (hgrows : ∀ c ∈ list, (f c).Grows) (hc : c ∈ list) (h : Ensures targets P (f c)) :
    Ensures targets (fun as => ∃ a ∈ as, P a) (list.mapM f) := by
  induction list with
  | nil => cases hc
  | cons first list ih =>
    have hgrows' := fun c hc => hgrows c (List.mem_cons_of_mem _ hc)
    rw [List.mapM_cons]
    rcases List.mem_cons.1 hc with rfl | hc
    · refine h.bind (fun _ => Grows.map (.mapM hgrows')) fun a ha => ?_
      exact .last fun as => .pure ⟨a, List.mem_cons_self, ha⟩
    · refine .last fun a => (ih hgrows' hc).map fun as has => ?_
      obtain ⟨b, hb, hP⟩ := has
      exact ⟨b, List.mem_cons_of_mem _ hb, hP⟩

theorem readTexts_mem {names : List Json} {texts : List String}
    (h : Assertion.readTexts (.array names) = .ok texts) (hfield : .string field ∈ names) :
    field ∈ texts := by
  obtain ⟨list, hlist, htexts⟩ := bind_eq_ok.1 h
  cases hlist
  obtain ⟨text, htext, hread⟩ := exists_mem_of_forall₂_left (forall₂_of_mapM_eq_ok htexts) hfield
  cases hread
  exact htext

/-- The rule of a list of names demands each of them. -/
theorem ensures_required (inner : Descent) (site : Site) (schema : Json) {names : List Json}
    (hfield : .string field ∈ names) :
    Ensures targets (fun choice => ∃ rule, choice = some rule ∧ rule.Demands field)
      (rule? settings inner site schema "required" (.array names)) := by
  show Ensures targets _ (assertion settings site schema "required" (.array names))
  have hclaim : Assertion.ofKeyword? site.draft settings.formats "required" (.array names) =
      (Assertion.readTexts (.array names)).map (some ∘ Assertion.required) := rfl
  unfold assertion
  rw [hclaim]
  cases htexts : Assertion.readTexts (.array names) with
  | error misuse => exact .throw _
  | ok texts => exact .pure ⟨_, rfl, fun list hrule => .listed hrule (readTexts_mem htexts hfield)⟩

/-- The rule of `allOf` demands what one of its parts demands. -/
theorem ensures_allOf {inner : Descent} (hgrows : ∀ site schema, (inner site schema).Grows)
    (site : Site) (schema : Json) {parts : List Json} {part : Json} (hpart : part ∈ parts)
    (h : ∀ inside : Site, inside.draft = site.draft.inside part →
      Ensures targets (Node.Demands field) (inner inside part)) :
    Ensures targets (fun choice => ∃ rule, choice = some rule ∧ rule.Demands field)
      (rule? settings inner site schema "allOf" (.array parts)) := by
  have hsubschema : Ensures targets (Node.Demands field) (subschema inner site part) := by
    intro before made after hmade hafter
    obtain ⟨inside, between, hinside, hmade⟩ := yields_bind.1 hmade
    obtain ⟨hwithin, rfl⟩ := yields_following.1 hinside
    exact h inside (Site.draft_of_within hwithin) _ _ _ hmade hafter
  refine Ensures.map (P := fun nodes => ∃ node ∈ nodes, node.Demands field) ?_ ?_
  · exact .exists_mapM (fun part _ => grows_subschema hgrows site part) hpart hsubschema
  · rintro nodes ⟨node, hnode, hdemands⟩
    exact ⟨_, rfl, fun list hrule => .part hrule hnode hdemands⟩

/-- Every keyword of a schema has its rule, if the keywords count. -/
theorem node_of_counts {depth : Nat} {site : Site} {members : List (String × Json)}
    (hcounts : site.draft.Counts (.object members)) :
    node settings (depth + 1) site (.object members) =
      (members.mapM fun member =>
        rule? settings (node settings depth) site (.object members) member.1 member.2) >>=
          fun rules => pure (.rules (rules.filterMap id)) := by
  unfold node
  dsimp only
  rcases hcounts with hnone | hlater
  · rw [hnone]
  · rw [hlater]
    split <;> rfl

/-- A node demands what the rule of one of its keywords demands. -/
theorem ensures_of_get? {depth : Nat} {site : Site} {schema value : Json} {keyword : String}
    (hcounts : site.draft.Counts schema) (hvalue : schema.get? keyword = some value)
    (h : Ensures targets (fun choice => ∃ rule, choice = some rule ∧ rule.Demands field)
      (rule? settings (node settings depth) site schema keyword value)) :
    Ensures targets (Node.Demands field) (node settings (depth + 1) site schema) := by
  obtain ⟨members, rfl, hmember⟩ := Json.get?_eq_some hvalue
  rw [node_of_counts hcounts]
  refine Ensures.map (.exists_mapM (fun _ _ => grows_rule? settings (grows_node _ _) _ _ _ _)
    (Entries.mem_of_get?_eq_some hmember) h) ?_
  rintro rules ⟨choice, hchoice, rule, rfl, hdemands⟩
  exact hdemands _ (List.mem_filterMap.2 ⟨some rule, hchoice, rfl⟩)

/-- The compiled schema demands what the schema requires. -/
theorem ensures_demands {draft : Draft} {schema : Json} (h : Requires field draft schema)
    (depth : Nat) {site : Site} (hdraft : site.draft = draft) :
    Ensures targets (Node.Demands field) (node settings depth site schema) := by
  induction h generalizing depth site with
  | listed hcounts hnames hfield =>
    subst hdraft
    cases depth with
    | zero => exact .throw _
    | succ depth => exact ensures_of_get? hcounts hnames (ensures_required _ site _ hfield)
  | part hcounts hparts hpart _ ih =>
    subst hdraft
    cases depth with
    | zero => exact .throw _
    | succ depth =>
      exact ensures_of_get? hcounts hparts (ensures_allOf (grows_node settings depth) site _ hpart
        fun inside hinside => ih depth hinside)

end Compiling

namespace Validator

/-- What a schema requires is found to be missing in an object that does not have it. -/
theorem missing_of_compile {library : Library} {formats : Bool} {site : Site} {schema : Json}
    {validator : Validator} (h : compile library formats site schema = .ok validator)
    {field : String} (hrequires : Requires field site.draft schema) {members : List (String × Json)}
    (hmissing : Entries.get? members field = none) {found : List Violation}
    (hfound : validator.violations (.object members) = some found) : Missing field [] found := by
  obtain ⟨targets, -, depth, before, after, hmade, hafter⟩ := made_of_compile h
  have hdemands : validator.root.Demands field :=
    Compiling.ensures_demands hrequires depth rfl before _ after hmade hafter
  exact Node.missing_of_demands hdemands hmissing hfound

theorem missing_of_ofSchema {retrieve : String → Option Json} {formats : Bool} {schedule : Schedule}
    {schema : Json} {validator : Validator}
    (h : ofSchema retrieve formats schedule schema = .ok validator) {field : String}
    (hrequires : Requires field .draft202012 schema) {members : List (String × Json)}
    (hmissing : Entries.get? members field = none) {found : List Violation}
    (hfound : validator.violations (.object members) = some found) : Missing field [] found := by
  obtain ⟨⟨address, library⟩, -, h⟩ := bind_eq_ok.1 h
  dsimp only at h
  split at h
  · cases h
  · cases h
  · exact missing_of_compile h hrequires hmissing hfound

end Validator

end ApiContract.JsonSchema
