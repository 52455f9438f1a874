import ApiContract.JsonSchema.Compilation
import ApiContract.Proofs.Json.Order
import ApiContract.Proofs.Outcome
import Mathlib.Data.List.Infix
/-!
# Sessions

The steps of a compilation, taken apart.  A step only ever adds to the targets
of a session (`Grows`), so what it says of a target stays true to the end, when
the node of each target is made.
-/

namespace ApiContract.JsonSchema.Compiling

variable {α β : Type}

/-- Begun in a session, the step ends in another one with a result. -/
def Yields (x : Compiling α) (before : Session) (a : α) (after : Session) : Prop :=
  x.run before = .ok (a, after)

variable {x : Compiling α} {f : α → Compiling β} {before after : Session} {a b : α} {c : β}

theorem yields_pure : (pure a : Compiling α).Yields before b after ↔ a = b ∧ before = after := by
  rw [Yields, StateT.run_pure, pure_eq_ok, Prod.mk.injEq]

theorem yields_bind : (x >>= f).Yields before c after ↔
    ∃ a between, x.Yields before a between ∧ (f a).Yields between c after := by
  simp only [Yields, StateT.run_bind, bind_eq_ok, Prod.exists]

theorem not_yields_throw (fault : SchemaFault) :
    ¬ (throw fault : Compiling α).Yields before a after := by
  intro h
  cases h

theorem yields_following {outcome : Except ReferenceFault α} :
    (following outcome).Yields before a after ↔ outcome = .ok a ∧ before = after := by
  cases outcome with
  | ok found => simp [following, yields_pure]
  | error fault => simpa [following] using not_yields_throw (.reference fault)

theorem yields_get {found : Session} :
    (get : Compiling Session).Yields before found after ↔ before = found ∧ before = after := by
  rw [Yields, StateT.run_get, pure_eq_ok, Prod.mk.injEq]

theorem yields_set {session : Session} {done : PUnit} :
    (set session : Compiling PUnit).Yields before done after ↔ session = after := by
  rw [Yields, StateT.run_set, pure_eq_ok, Prod.mk.injEq]
  simp

theorem yields_modify {change : Session → Session} {done : PUnit} :
    (modify change : Compiling PUnit).Yields before done after ↔ change before = after := by
  rw [Yields, StateT.run_modify, pure_eq_ok, Prod.mk.injEq]
  simp

/-! ## Targets -/

/-- Whatever the step does, it keeps the targets and their indices. -/
def Grows (x : Compiling α) : Prop :=
  ∀ before a after, x.Yields before a after → before.targets <+: after.targets

theorem Grows.pure (a : α) : Grows (pure a : Compiling α) := by
  intro before b after h
  obtain ⟨-, rfl⟩ := yields_pure.1 h
  exact List.prefix_rfl

theorem Grows.bind (hx : x.Grows) (hf : ∀ a, (f a).Grows) : (x >>= f).Grows := by
  intro before c after h
  obtain ⟨a, between, ha, hc⟩ := yields_bind.1 h
  exact (hx before a between ha).trans (hf a between c after hc)

theorem Grows.throw (fault : SchemaFault) : Grows (throw fault : Compiling α) :=
  fun _ _ _ h => absurd h (not_yields_throw fault)

theorem Grows.refuse (value : Json) (cause : Cause) : Grows (refuse value cause : Compiling α) :=
  .throw _

theorem Grows.following (outcome : Except ReferenceFault α) : Grows (following outcome) := by
  intro before a after h
  obtain ⟨-, rfl⟩ := yields_following.1 h
  exact List.prefix_rfl

theorem Grows.mapM {γ : Type} {f : γ → Compiling α} {list : List γ}
    (h : ∀ c ∈ list, (f c).Grows) : (list.mapM f).Grows := by
  induction list with
  | nil =>
    rw [List.mapM_nil]
    exact .pure _
  | cons c list ih =>
    rw [List.mapM_cons]
    refine (h c List.mem_cons_self).bind fun _ => ?_
    exact (ih fun c hc => h c (List.mem_cons_of_mem _ hc)).bind fun _ => .pure _

theorem same_iff {a b : Target} : a.same b = true ↔ a = b := by
  obtain ⟨site, contents⟩ := a
  obtain ⟨site', contents'⟩ := b
  simp [Target.same, Json.identical_iff]

/-- A shared target stands under its index. -/
theorem targets_of_share {target : Target} {index : Nat}
    (h : (share target).Yields before index after) :
    before.targets <+: after.targets ∧ after.targets[index]? = some target := by
  obtain ⟨session, between, hget, h⟩ := yields_bind.1 h
  obtain ⟨rfl, rfl⟩ := yields_get.1 hget
  split at h
  · next known hknown =>
    obtain ⟨rfl, rfl⟩ := yields_pure.1 h
    obtain ⟨hlt, hsame, -⟩ := List.findIdx?_eq_some_iff_getElem.1 hknown
    refine ⟨List.prefix_rfl, ?_⟩
    rw [List.getElem?_eq_getElem hlt, same_iff.1 hsame]
  · obtain ⟨_, between, hset, h⟩ := yields_bind.1 h
    obtain ⟨rfl, rfl⟩ := yields_pure.1 h
    obtain rfl := yields_set.1 hset
    exact ⟨List.prefix_append _ _, by simp⟩

/-- A step before a result that depends on nothing else. -/
theorem Grows.map {f : α → β} (hx : x.Grows) : (x >>= fun a => Pure.pure (f a)).Grows :=
  hx.bind fun _ => .pure _

theorem Grows.mapM_option {γ : Type} {f : γ → Compiling α} {choice : Option γ}
    (h : ∀ c, (f c).Grows) : (choice.mapM f).Grows := by
  cases choice with
  | none => exact .pure _
  | some c =>
    rw [Option.mapM_some]
    exact (h c).map

theorem Grows.elim {γ : Type} {f : γ → Compiling α} {choice : Option γ} (h : ∀ c, (f c).Grows) :
    (choice.elim (Pure.pure a) f).Grows := by
  cases choice with
  | none => exact .pure a
  | some c => exact h c

/-! ## The steps of a compilation -/

section Steps

variable {inner : Descent} (h : ∀ site schema, (inner site schema).Grows)

include h

theorem grows_subschema (site : Site) (schema : Json) : (subschema inner site schema).Grows :=
  (Grows.following _).bind fun _ => h _ _

theorem grows_subschemaList (site : Site) (value : Json) :
    (subschemaList inner site value).Grows := by
  unfold subschemaList
  split
  · exact .mapM fun schema _ => grows_subschema h site schema
  · exact .refuse _ _

theorem grows_subschemaMap (site : Site) (value : Json) :
    (subschemaMap inner site value).Grows := by
  unfold subschemaMap
  split
  · exact .mapM fun member _ => (grows_subschema h site member.2).map
  · exact .refuse _ _

theorem grows_patternMember (site : Site) (member : String × Json) :
    (patternMember inner site member).Grows := by
  unfold patternMember
  split
  · exact (grows_subschema h site member.2).map
  · exact .refuse _ _

theorem grows_patternMap (site : Site) (value : Json) : (patternMap inner site value).Grows := by
  unfold patternMap
  split
  · exact .mapM fun member _ => grows_patternMember h site member
  · exact .refuse _ _

omit h in
/-- What a reference comes to: nothing, because the schema that it leads to has
the same reference; a shared node; or a node in its place. -/
theorem reference_cases {settings : Settings} {site : Site} {keyword : String} {value : Json}
    {rule : Option Rule} {before after : Session}
    (hyields : (reference settings inner site keyword value).Yields before rule after) :
    ∃ text found there, value = .string text ∧ settings.library.lookup site text = .ok found ∧
      found.2.within ⟨found.1, found.2.draft⟩ = .ok there ∧
      ((rule = none ∧ before = after ∧ (found.1.get? keyword).bind Json.text? = some text) ∨
        (∃ index, rule = some (.shared keyword index) ∧
          (share ⟨there, found.1⟩).Yields before index after) ∨
        (∃ made between, rule = some (.reference keyword made) ∧
          between.targets = before.targets ∧
          (inner there found.1).Yields between made after)) := by
  unfold reference at hyields
  split at hyields
  · next text =>
    obtain ⟨address, between, hstep, hyields⟩ := yields_bind.1 hyields
    obtain ⟨-, rfl⟩ := yields_following.1 hstep
    obtain ⟨found, between, hlookup, hyields⟩ := yields_bind.1 hyields
    obtain ⟨hfound, rfl⟩ := yields_following.1 hlookup
    obtain ⟨there, between, hwithin, hyields⟩ := yields_bind.1 hyields
    obtain ⟨hthere, rfl⟩ := yields_following.1 hwithin
    obtain ⟨session, between, hget, hyields⟩ := yields_bind.1 hyields
    obtain ⟨rfl, rfl⟩ := yields_get.1 hget
    refine ⟨text, found, there, rfl, hfound, hthere, ?_⟩
    split at hyields
    · split at hyields
      · next hecho =>
        obtain ⟨rfl, rfl⟩ := yields_pure.1 hyields
        exact .inl ⟨rfl, rfl, hecho⟩
      · obtain ⟨index, between, hindex, hyields⟩ := yields_bind.1 hyields
        obtain ⟨rfl, rfl⟩ := yields_pure.1 hyields
        exact .inr (.inl ⟨index, rfl, hindex⟩)
    · obtain ⟨_, between, hmodify, hyields⟩ := yields_bind.1 hyields
      obtain rfl := yields_modify.1 hmodify
      obtain ⟨made, between, hmade, hyields⟩ := yields_bind.1 hyields
      obtain ⟨rfl, rfl⟩ := yields_pure.1 hyields
      exact .inr (.inr ⟨made, ⟨address :: before.seen, before.targets⟩, rfl, rfl, hmade⟩)
  · exact absurd hyields (not_yields_throw _)

theorem grows_reference (settings : Settings) (site : Site) (keyword : String) (value : Json) :
    (reference settings inner site keyword value).Grows := by
  intro before rule after hyields
  obtain ⟨text, found, there, -, -, -, hcases⟩ := reference_cases hyields
  rcases hcases with ⟨-, rfl, -⟩ | ⟨index, -, hindex⟩ | ⟨made, between, -, htargets, hmade⟩
  · exact List.prefix_rfl
  · exact (targets_of_share hindex).1
  · exact htargets ▸ h there found.1 between made after hmade

theorem grows_othersRule (site : Site) (absent : Bool) (value : Json)
    (patterns : List (Pattern × Node)) (properties : List (String × Node)) :
    (othersRule inner site absent value patterns properties).Grows := by
  unfold othersRule
  split
  · split
    · exact .pure _
    · exact .pure _
  · exact (grows_subschema h site _).map

theorem grows_additionalProperties (site : Site) (schema value : Json) :
    (additionalProperties inner site schema value).Grows := by
  unfold additionalProperties
  dsimp only
  split
  · exact .pure _
  · exact (Grows.elim fun value => grows_patternMap h site value).bind fun _ =>
      (Grows.elim fun value => grows_subschemaMap h site value).bind fun _ =>
        grows_othersRule h _ _ _ _ _

theorem grows_items (site : Site) (schema value : Json) :
    (items inner site schema value).Grows := by
  unfold items
  split
  · split
    · exact .refuse _ _
    · exact (grows_subschemaList h site _).map
  · exact .pure _
  · exact (grows_subschema h site _).map

theorem grows_additionalItems (site : Site) (schema value : Json) :
    (additionalItems inner site schema value).Grows := by
  unfold additionalItems
  split
  · exact (grows_subschema h site _).map
  · exact .pure _

omit h in
theorem grows_limit? (schema : Json) (keyword : String) : (limit? schema keyword).Grows := by
  unfold limit?
  split
  · exact .pure _
  · split
    · exact .pure _
    · exact .throw _

theorem grows_contains (site : Site) (schema value : Json) :
    (contains inner site schema value).Grows := by
  unfold contains
  split
  · exact (grows_subschema h site _).map
  · refine (grows_limit? _ _).bind fun _ => (grows_limit? _ _).bind fun _ => ?_
    exact (grows_subschema h site _).map

theorem grows_branch (site : Site) (schema : Json) (keyword : String) :
    (branch inner site schema keyword).Grows :=
  .mapM_option fun value => grows_subschema h site value

theorem grows_condition (site : Site) (schema value : Json) :
    (condition inner site schema value).Grows :=
  (grows_subschema h site _).bind fun _ =>
    (grows_branch h site schema _).bind fun _ => (grows_branch h site schema _).map

theorem grows_dependent (site : Site) (schema : Json) : (dependent inner site schema).Grows := by
  unfold dependent
  split
  · split
    · exact .pure _
    · exact .throw _
  · exact (grows_subschema h site _).map

theorem grows_dependencies (site : Site) (keyword : String) (value : Json) :
    (dependencies inner site keyword value).Grows := by
  unfold dependencies
  split
  · exact (Grows.mapM fun member _ => (grows_dependent h site member.2).map).map
  · exact .refuse _ _

end Steps

/-- What a recursive reference comes to: a shared node. -/
theorem recursiveReference_cases {settings : Settings} {site : Site} {keyword : String}
    {rule : Option Rule} {before after : Session}
    (hyields : (recursiveReference settings site keyword).Yields before rule after) :
    ∃ found there index, settings.library.lookupRecursive site = .ok found ∧
      found.2.within ⟨found.1, found.2.draft⟩ = .ok there ∧
      rule = some (.shared keyword index) ∧
      (share ⟨there, found.1⟩).Yields before index after := by
  obtain ⟨found, between, hlookup, hyields⟩ := yields_bind.1 hyields
  obtain ⟨hfound, rfl⟩ := yields_following.1 hlookup
  obtain ⟨there, between, hwithin, hyields⟩ := yields_bind.1 hyields
  obtain ⟨hthere, rfl⟩ := yields_following.1 hwithin
  obtain ⟨index, between, hindex, hyields⟩ := yields_bind.1 hyields
  obtain ⟨rfl, rfl⟩ := yields_pure.1 hyields
  exact ⟨found, there, index, hfound, hthere, rfl, hindex⟩

theorem grows_recursiveReference (settings : Settings) (site : Site) (keyword : String) :
    (recursiveReference settings site keyword).Grows := by
  intro before rule after hyields
  obtain ⟨found, there, index, -, -, -, hindex⟩ := recursiveReference_cases hyields
  exact (targets_of_share hindex).1

theorem grows_assertion (settings : Settings) (site : Site) (schema : Json) (keyword : String)
    (value : Json) : (assertion settings site schema keyword value).Grows := by
  unfold assertion
  split
  · exact .throw _
  · exact .pure _

theorem grows_rule? (settings : Settings) {inner : Descent}
    (h : ∀ site schema, (inner site schema).Grows) (site : Site) (schema : Json) (keyword : String)
    (value : Json) : (rule? settings inner site schema keyword value).Grows := by
  have hsince (first : Draft) {rule : Compiling (Option Rule)} (hrule : rule.Grows) :
      (if site.draft.before first then return none else rule : Compiling (Option Rule)).Grows := by
    split
    · exact .pure _
    · exact hrule
  have hchoice (skip : Bool) {rule : Compiling (Option Rule)} (hrule : rule.Grows) :
      (if skip then return none else rule : Compiling (Option Rule)).Grows := by
    split
    · exact .pure _
    · exact hrule
  unfold rule?
  dsimp only
  split
  case h_1 => exact grows_reference h settings site _ value
  case h_2 => exact hsince _ (grows_reference h settings site _ value)
  case h_3 =>
    split
    · exact grows_recursiveReference settings site _
    · exact .pure _
  case h_4 | h_5 | h_6 => exact (grows_subschemaList h site value).map
  case h_7 => exact (grows_subschema h site value).map
  case h_8 => exact hsince _ (grows_condition h site schema value)
  case h_9 => exact hchoice _ (grows_subschemaMap h site value).map
  case h_10 => exact hchoice _ (grows_patternMap h site value).map
  case h_11 => exact grows_additionalProperties h site schema value
  case h_12 => exact hsince _ (grows_subschema h site value).map
  case h_13 => exact grows_dependencies h site _ value
  case h_14 | h_15 => exact hsince _ (grows_dependencies h site _ value)
  case h_16 => exact hsince _ (grows_subschemaList h site value).map
  case h_17 => exact grows_items h site schema value
  case h_18 =>
    split
    · exact .pure _
    · exact grows_additionalItems h site schema value
  case h_19 => exact hsince _ (grows_contains h site schema value)
  case h_20 | h_21 => exact hsince _ (grows_subschema h site value).map
  case h_22 => exact grows_assertion settings site schema _ value

theorem grows_node (settings : Settings) (depth : Nat) (site : Site) (schema : Json) :
    (node settings depth site schema).Grows := by
  induction depth generalizing site schema with
  | zero => exact .throw _
  | succ depth ih =>
    cases schema with
    | bool b => cases b <;> exact .pure _
    | object members => exact (Grows.mapM fun member _ => grows_rule? settings ih _ _ _ _).map
    | _ => exact .refuse _ _

/-! ## The nodes of a validator -/

/-- The node is the schema at a site, compiled in a session whose targets are
among the first ones of the list. -/
def Made (settings : Settings) (targets : List Target) (site : Site) (schema : Json)
    (made : Node) : Prop :=
  ∃ depth before after, (node settings depth site schema).Yields before made after ∧
    after.targets <+: targets

theorem getElem?_mono {list all : List α} (h : list <+: all) {i : Nat}
    (hi : list[i]? = some a) : all[i]? = some a := by
  obtain ⟨hlt, rfl⟩ := List.getElem?_eq_some_iff.1 hi
  exact List.prefix_iff_getElem?.1 h i hlt

theorem made_of_sharedNodes {settings : Settings} {index bound : Nat} {targets : List Target}
    {nodes : List Node} (hindex : index ≤ targets.length)
    (h : sharedNodes settings index targets bound = .ok nodes) :
    ∃ all, targets <+: all ∧ List.Forall₂
      (fun target made => Made settings all target.site target.contents made) (all.drop index)
        nodes := by
  induction bound generalizing index targets nodes with
  | zero => cases h
  | succ bound ih =>
    unfold sharedNodes at h
    split at h
    · next hnone =>
      cases h
      refine ⟨targets, List.prefix_rfl, ?_⟩
      rw [List.drop_eq_nil_of_le (List.getElem?_eq_none_iff.1 hnone)]
      exact .nil
    · next target htarget =>
      obtain ⟨⟨made, after⟩, hmade, h⟩ := bind_eq_ok.1 h
      obtain ⟨others, hothers, h⟩ := bind_eq_ok.1 h
      obtain rfl := pure_eq_ok.1 h
      have hgrows : targets <+: after.targets := grows_node settings _ _ _ ⟨[], targets⟩ _ _ hmade
      have hlt := (List.getElem?_eq_some_iff.1 htarget).1
      obtain ⟨all, hall, hrest⟩ := ih (hlt.trans_le hgrows.length_le) hothers
      refine ⟨all, hgrows.trans hall, ?_⟩
      obtain ⟨hlt', hget⟩ := List.getElem?_eq_some_iff.1 (getElem?_mono (hgrows.trans hall) htarget)
      rw [List.drop_eq_getElem_cons hlt', hget]
      exact .cons ⟨_, _, _, hmade, hall⟩ hrest

end ApiContract.JsonSchema.Compiling

namespace ApiContract.JsonSchema.Validator

open Compiling

/-- The shared nodes of a validator are the targets of its compilation,
compiled. -/
def Shares (validator : Validator) (settings : Settings) (targets : List Target) : Prop :=
  ∀ (index : Nat) (target : Target), targets[index]? = some target →
    ∃ made, validator.shared[index]? = some made ∧
      Made settings targets target.site target.contents made

theorem targets_of_compile {library : Library} {formats : Bool} {site : Site} {schema : Json}
    {validator : Validator} (h : compile library formats site schema = .ok validator) :
    ∃ targets, List.Forall₂
        (fun target made => Made ⟨library, formats⟩ targets target.site target.contents made) targets
        validator.shared.toList ∧
      Made ⟨library, formats⟩ targets site schema validator.root := by
  obtain ⟨⟨root, after⟩, hroot, h⟩ := bind_eq_ok.1 h
  obtain ⟨shared, hshared, h⟩ := bind_eq_ok.1 h
  obtain rfl := pure_eq_ok.1 h
  obtain ⟨targets, hprefix, hmade⟩ := made_of_sharedNodes (Nat.zero_le _) hshared
  exact ⟨targets, hmade, _, _, _, hroot, hprefix⟩

theorem made_of_compile {library : Library} {formats : Bool} {site : Site} {schema : Json}
    {validator : Validator} (h : compile library formats site schema = .ok validator) :
    ∃ targets, validator.Shares ⟨library, formats⟩ targets ∧
      Made ⟨library, formats⟩ targets site schema validator.root := by
  obtain ⟨targets, htargets, hroot⟩ := targets_of_compile h
  refine ⟨targets, ?_, hroot⟩
  intro index target htarget
  obtain ⟨hlt, rfl⟩ := List.getElem?_eq_some_iff.1 htarget
  have hlt' : index < validator.shared.toList.length := htargets.length_eq ▸ hlt
  refine ⟨validator.shared.toList[index], ?_, htargets.get hlt hlt'⟩
  rw [← Array.getElem?_toList, List.getElem?_eq_getElem hlt']

end ApiContract.JsonSchema.Validator
