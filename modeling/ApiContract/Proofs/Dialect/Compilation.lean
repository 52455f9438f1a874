import ApiContract.Proofs.Dialect.Gathering
import ApiContract.Proofs.JsonSchema.Copies
import ApiContract.Proofs.JsonSchema.Verdicts
/-!
# Compiling in two dialects

Compiling the same schema in two dialects takes the same steps.  Whenever a step of the
one dialect ends, the step of the other one ends as well, in the same session but for
the dialect (`Compiling.Mirrors`).

So a schema that can be compiled in one dialect can be compiled in the other one
(`Validator.compile_exchanged`), and the two validators find the same places in a value
wanting.
-/

namespace ApiContract.JsonSchema

open Json
open Namespace (exchangeText)

variable {ns : Namespace} {reading : Reading}

/-! ## Assertions -/

namespace Assertion

theorem exchange_of_mapM {α : Type} {f : Json → Except Misuse α} {items : List Json} {as : List α}
    (hf : ∀ item a, f item = .ok a → ∀ reading : Reading, item.exchange reading = item) (h : items.mapM f = .ok as) :
    (array items).exchange reading = array items := by
  rw [exchange, exchangeItems_eq_map]
  refine congrArg array ((List.map_congr_left fun item hitem => ?_).trans (List.map_id _))
  obtain ⟨a, -, ha⟩ := exists_mem_of_forall₂_left (forall₂_of_mapM_eq_ok h) hitem
  exact hf item a ha reading.item

theorem exchange_of_readText {value : Json} {text : String} (h : readText value = .ok text) :
    value.exchange reading = value := by
  cases value with
  | string s => rfl
  | _ => cases h

/-- A list of texts says nothing of a dialect. -/
theorem exchange_of_readTexts {value : Json} {texts : List String} (h : readTexts value = .ok texts) :
    value.exchange reading = value := by
  cases value with
  | array items => exact exchange_of_mapM (fun _ _ h _ => exchange_of_readText h) h
  | _ => cases h

theorem exchange_of_readTypes {value : Json} {types : List TypeName} (h : readTypes value = .ok types) :
    value.exchange reading = value := by
  unfold readTypes at h
  split at h
  · rfl
  · next item =>
    obtain ⟨text, htext, -⟩ := bind_eq_ok.1 h
    rw [exchange, exchangeItems, exchangeItems, exchange_of_readText htext]
  · next items =>
    obtain ⟨found, hfound, -⟩ := bind_eq_ok.1 h
    refine exchange_of_mapM (fun item type hitem _ => ?_) hfound
    obtain ⟨text, htext, -⟩ := bind_eq_ok.1 hitem
    exact exchange_of_readText htext
  · cases h

theorem exchange_of_readLimit {value : Json} {size : Nat} (h : readLimit value = .ok size) :
    value.exchange reading = value := by
  cases value with
  | number n => rfl
  | _ => cases h

theorem exchange_of_readNumber {value : Json} {n : Number} (h : readNumber value = .ok n) :
    value.exchange reading = value := by
  cases value with
  | number n => rfl
  | _ => cases h

/-- What an assertion is made from is the same in both dialects, or it does not
matter. -/
theorem exchangeUnder_of_ofKeyword? {draft : Draft} {formats : Bool} {keyword : String} {value : Json}
    {claim : Option Assertion} (hfits : FitsUnder ns reading keyword value)
    (h : ofKeyword? draft formats keyword value = .ok claim) :
    exchangeUnder reading keyword value = value ∨
      ∀ other, ofKeyword? draft formats keyword other = .ok claim := by
  have hlimit {make : Nat → Assertion}
      (h : (readLimit value).map (fun n => some (make n)) = .ok claim) : value.exchange (reading.below keyword) = value := by
    obtain ⟨size, hsize, -⟩ := map_eq_ok.1 h
    exact exchange_of_readLimit hsize
  have hbound {make : Number → Assertion}
      (h : (readNumber value).map (fun n => some (make n)) = .ok claim) : value.exchange (reading.below keyword) = value := by
    obtain ⟨n, hn, -⟩ := map_eq_ok.1 h
    exact exchange_of_readNumber hn
  have hplain (hkeyword : namesResource keyword = false) (hvalue : value.exchange (reading.below keyword) = value) :
      exchangeUnder reading keyword value = value ∨ ∀ other, ofKeyword? draft formats keyword other = .ok claim :=
    .inl ((exchangeUnder_of_plain hkeyword value).trans hvalue)
  unfold ofKeyword? at h
  split at h
  case h_1 =>
    obtain ⟨types, htypes, -⟩ := map_eq_ok.1 h
    exact hplain rfl (exchange_of_readTypes htypes)
  case h_2 =>
    obtain ⟨items, hitems, -⟩ := map_eq_ok.1 h
    cases value with
    | array items => exact hplain rfl (hfits.constant (.inr ⟨rfl, rfl⟩))
    | _ => cases hitems
  case h_3 => exact hplain rfl (hfits.constant (.inl rfl))
  case h_4 | h_5 => exact hplain rfl (hbound h)
  case h_6 | h_7 =>
    split at h
    · next hdraft => exact .inr fun other => by rw [← h]; exact if_pos hdraft
    · exact hplain rfl (hbound h)
  case h_8 =>
    obtain ⟨n, hn, -⟩ := map_eq_ok.1 h
    exact hplain rfl (exchange_of_readNumber hn)
  case h_9 | h_10 | h_11 | h_12 | h_13 | h_14 => exact hplain rfl (hlimit h)
  case h_15 =>
    cases value with
    | bool unique => exact .inl rfl
    | _ => cases h
  case h_16 =>
    obtain ⟨names, hnames, -⟩ := map_eq_ok.1 h
    exact hplain rfl (exchange_of_readTexts hnames)
  case h_17 =>
    obtain ⟨text, htext, -⟩ := bind_eq_ok.1 h
    exact hplain rfl (exchange_of_readText htext)
  case h_18 =>
    split at h
    · obtain ⟨text, htext, -⟩ := bind_eq_ok.1 h
      exact hplain rfl (exchange_of_readText htext)
    · next hformats => exact .inr fun other => by rw [← h]; exact if_neg hformats
  case h_19 =>
    refine .inr fun other => ?_
    unfold ofKeyword?
    split <;> first | contradiction | exact h

/-- The assertion of a keyword is the same in both dialects. -/
theorem ofKeyword?_exchanged {draft : Draft} {formats : Bool} {keyword : String} {value : Json}
    {claim : Option Assertion} (hfits : FitsUnder ns reading keyword value)
    (h : ofKeyword? draft formats keyword value = .ok claim) :
    ofKeyword? draft formats keyword (exchangeUnder reading keyword value) = .ok claim := by
  rcases exchangeUnder_of_ofKeyword? hfits h with hsame | hany
  · rw [hsame, h]
  · exact hany _

end Assertion

/-! ## Sessions -/

/-- The target with the resources of the other dialect. -/
def Target.exchanged (reading : Reading) (target : Target) : Target :=
  ⟨target.site.exchanged, target.contents.exchange reading⟩

/-- A dialect can deal with the target. -/
structure Target.Fits (ns : Namespace) (reading : Reading) (target : Target) : Prop where
  site : target.site.IsOf ns
  contents : target.contents.Fits ns reading

theorem Target.exchanged_injective (reading : Reading) :
    Function.Injective (Target.exchanged reading) := by
  rintro ⟨site, contents⟩ ⟨site', contents'⟩ heq
  simp only [Target.exchanged, Target.mk.injEq] at heq
  rw [Site.exchanged_injective heq.1, Json.exchange_injective reading heq.2]

/-- The session with the resources of the other dialect. -/
def Session.exchanged (reading : Reading) (session : Session) : Session :=
  ⟨session.seen.map UriReference.exchanged, session.targets.map (Target.exchanged reading)⟩

/-- A dialect can deal with what the session remembers. -/
structure Session.Fits (ns : Namespace) (reading : Reading) (session : Session) : Prop where
  seen : ∀ address ∈ session.seen, address.IsOf ns
  targets : ∀ target ∈ session.targets, target.Fits ns reading

namespace Compiling

/-- The settings with the resources of the other dialect. -/
def Settings.exchanged (reading : Reading) (settings : Settings) : Settings :=
  ⟨settings.library.exchanged reading, settings.formats⟩

/-! ## Steps in two dialects -/

section Runs

variable {α β γ δ : Type} {targets : List Target}

/-- Whenever the step of one dialect ends within the given targets, the step of the
other one ends in the same session but for the dialect, with a related result. -/
def Mirrors (ns : Namespace) (reading : Reading) (targets : List Target) (R : α → β → Prop) (x : Compiling α)
    (y : Compiling β) : Prop :=
  ∀ before a after, before.Fits ns reading → x.Yields before a after → after.targets <+: targets →
    ∃ b, y.Yields (before.exchanged reading) b (after.exchanged reading) ∧ after.Fits ns reading ∧
      R a b

variable {R : α → β → Prop} {Q : γ → δ → Prop} {x : Compiling α} {y : Compiling β}

theorem Mirrors.pure {a : α} {b : β} (h : R a b) : Mirrors ns reading targets R (pure a) (pure b) := by
  intro before a' after hfits hyields _
  obtain ⟨rfl, rfl⟩ := yields_pure.1 hyields
  exact ⟨b, yields_pure.2 ⟨rfl, rfl⟩, hfits, h⟩

theorem Mirrors.throw_left (fault : SchemaFault) : Mirrors ns reading targets R (throw fault) y :=
  fun _ _ _ _ h => absurd h (not_yields_throw fault)

theorem Mirrors.refuse_left (value : Json) (cause : Cause) :
    Mirrors ns reading targets R (refuse value cause) y :=
  .throw_left _

theorem Mirrors.following {found : Except ReferenceFault α} {found' : Except ReferenceFault β}
    (h : ∀ a, found = .ok a → ∃ b, found' = .ok b ∧ R a b) :
    Mirrors ns reading targets R (following found) (following found') := by
  intro before a after hfits hyields _
  obtain ⟨hfound, rfl⟩ := yields_following.1 hyields
  obtain ⟨b, hfound', hab⟩ := h a hfound
  exact ⟨b, yields_following.2 ⟨hfound', rfl⟩, hfits, hab⟩

theorem Mirrors.bind {f : α → Compiling γ} {g : β → Compiling δ} (h : Mirrors ns reading targets R x y)
    (hf : ∀ a, (f a).Grows) (hnext : ∀ a b, R a b → Mirrors ns reading targets Q (f a) (g b)) :
    Mirrors ns reading targets Q (x >>= f) (y >>= g) := by
  intro before c after hfits hyields hafter
  obtain ⟨a, between, ha, hc⟩ := yields_bind.1 hyields
  obtain ⟨b, hb, hbetween, hab⟩ := h before a between hfits ha ((hf a _ _ _ hc).trans hafter)
  obtain ⟨d, hd, hafterFits, hcd⟩ := hnext a b hab between c after hbetween hc hafter
  exact ⟨d, yields_bind.2 ⟨b, _, hb, hd⟩, hafterFits, hcd⟩

theorem Mirrors.map {f : α → γ} {g : β → δ} (h : Mirrors ns reading targets R x y)
    (hnext : ∀ a b, R a b → Q (f a) (g b)) :
    Mirrors ns reading targets Q (x >>= fun a => Pure.pure (f a)) (y >>= fun b => Pure.pure (g b)) :=
  h.bind (fun _ => .pure _) fun a b hab => .pure (hnext a b hab)

theorem Mirrors.mapM {S : γ → δ → Prop} {list : List γ} {list' : List δ} {f : γ → Compiling α}
    {g : δ → Compiling β} (hlist : List.Forall₂ S list list') (hf : ∀ c ∈ list, (f c).Grows)
    (h : ∀ c d, c ∈ list → S c d → Mirrors ns reading targets R (f c) (g d)) :
    Mirrors ns reading targets (List.Forall₂ R) (list.mapM f) (list'.mapM g) := by
  induction hlist with
  | nil =>
    rw [List.mapM_nil, List.mapM_nil]
    exact .pure .nil
  | @cons c d list list' hcd _ ih =>
    have hf' := fun c hc => hf c (List.mem_cons_of_mem _ hc)
    rw [List.mapM_cons, List.mapM_cons]
    refine (h c d List.mem_cons_self hcd).bind (fun _ => Grows.map (.mapM hf')) fun a b hab => ?_
    refine (ih hf' fun c d hc => h c d (List.mem_cons_of_mem _ hc)).map fun as bs hrest => ?_
    exact .cons hab hrest

theorem Mirrors.mapM_option {S : γ → δ → Prop} {choice : Option γ} {choice' : Option δ}
    {f : γ → Compiling α} {g : δ → Compiling β} (hchoice : Option.Rel S choice choice')
    (h : ∀ c d, S c d → Mirrors ns reading targets R (f c) (g d)) :
    Mirrors ns reading targets (Option.Rel R) (choice.mapM f) (choice'.mapM g) := by
  cases hchoice with
  | none => exact .pure .none
  | some hcd =>
    rw [Option.mapM_some, Option.mapM_some]
    exact (h _ _ hcd).map fun a b hab => .some hab

theorem Mirrors.elim {S : γ → δ → Prop} {choice : Option γ} {choice' : Option δ}
    {f : γ → Compiling α} {g : δ → Compiling β} {a : α} {b : β} (hchoice : Option.Rel S choice choice')
    (hnone : R a b) (h : ∀ c d, S c d → Mirrors ns reading targets R (f c) (g d)) :
    Mirrors ns reading targets R (choice.elim (Pure.pure a) f) (choice'.elim (Pure.pure b) g) := by
  cases hchoice with
  | none => exact .pure hnone
  | some hcd => exact h _ _ hcd

/-- A step that is left out in both dialects or in neither. -/
theorem Mirrors.choice {a : α} {b : β} (skip : Bool) (hskip : R a b) (h : Mirrors ns reading targets R x y) :
    Mirrors ns reading targets R (if skip then Pure.pure a else x) (if skip then Pure.pure b else y) := by
  split
  · exact .pure hskip
  · exact h

/-- A target is found, or it is put behind the others. -/
theorem yields_share {target : Target} {before after : Session} {index : Nat} :
    (share target).Yields before index after ↔
      (before.targets.findIdx? (·.same target) = some index ∧ before = after) ∨
        (before.targets.findIdx? (·.same target) = none ∧ before.targets.length = index ∧
          { before with targets := before.targets ++ [target] } = after) := by
  have hget {step : Session → Compiling Nat} : (get >>= step).Yields before index after ↔
      (step before).Yields before index after := by
    simp [yields_bind, yields_get]
  rw [share, hget]
  cases before.targets.findIdx? (·.same target) with
  | some found => simp [yields_pure]
  | none => simp [yields_bind, yields_set, yields_pure, and_comm, -bind_pure_comp]

/-- A target has the same index in both dialects. -/
theorem mirrors_share {target : Target} (htarget : target.Fits ns reading) :
    Mirrors ns reading targets (fun index index' => index' = index ∧ targets[index]? = some target)
      (share target) (share (target.exchanged reading)) := by
  intro before index after hfits hyields hafter
  have hindex := getElem?_mono hafter (targets_of_share hyields).2
  have hsame : (before.exchanged reading).targets.findIdx? (·.same (target.exchanged reading)) =
      before.targets.findIdx? (·.same target) := by
    rw [Session.exchanged, List.findIdx?_map]
    refine congrArg (List.findIdx? · _) (funext fun other => ?_)
    rw [Function.comp_apply, Bool.eq_iff_iff, same_iff, same_iff, (Target.exchanged_injective reading).eq_iff]
  refine ⟨index, ?_, ?_, rfl, hindex⟩
  · rw [yields_share, hsame]
    rcases yields_share.1 hyields with ⟨hfound, rfl⟩ | ⟨hnone, rfl, rfl⟩
    · exact .inl ⟨hfound, rfl⟩
    · exact .inr ⟨hnone, List.length_map _, by simp [Session.exchanged]⟩
  · rcases yields_share.1 hyields with ⟨-, rfl⟩ | ⟨-, -, rfl⟩
    · exact hfits
    · refine ⟨hfits.seen, fun other hother => ?_⟩
      rcases List.mem_append.1 hother with hother | hother
      · exact hfits.targets other hother
      · exact List.mem_singleton.1 hother ▸ htarget

end Runs

/-! ## Schemas inside a schema -/

/-- Schemas on the next level are compiled in the same way in both dialects. -/
structure Descends (ns : Namespace) (reading : Reading) (targets : List Target) (N : Node → Node → Prop)
    (inner inner' : Descent) : Prop where
  grows : ∀ site schema, (inner site schema).Grows
  mirrors : ∀ site schema schema', site.IsOf ns → Counterpart ns reading schema schema' →
    Mirrors ns reading targets N (inner site schema) (inner' site.exchanged schema')

section Steps

variable {targets : List Target} {N : Node → Node → Prop} {inner inner' : Descent} {site : Site}
  {value value' : Json}

theorem mirrors_descend (hread : reading.isSchema = true) (hsite : site.IsOf ns)
    (h : Counterpart ns reading value value') :
    Mirrors ns reading targets (fun inside inside' => inside.IsOf ns ∧ inside' = inside.exchanged)
      (descend site value) (descend site.exchanged value') := by
  have hdraft : (site.exchanged.draft.detect value').toOption.getD .draft202012 =
      (site.draft.detect value).toOption.getD .draft202012 :=
    congrArg (fun found => found.toOption.getD .draft202012) (Draft.detect_alike h.alike site.draft)
  rw [descend, descend, hdraft]
  refine .following fun inside hinside => ?_
  obtain ⟨hof, hinside'⟩ := Site.within_exchanged hsite h hread hinside
  exact ⟨inside.exchanged, hinside', hof, rfl⟩

variable (hread : reading.isSchema = true) (hinner : Descends ns reading targets N inner inner')
  (hsite : site.IsOf ns)

include hread hinner hsite

theorem mirrors_subschema (h : Counterpart ns reading value value') :
    Mirrors ns reading targets N (subschema inner site value) (subschema inner' site.exchanged value') := by
  refine (mirrors_descend hread hsite h).bind (fun _ => hinner.grows _ _) ?_
  rintro inside _ ⟨hinside, rfl⟩
  exact hinner.mirrors inside value value' hinside h

variable {around : Reading} (h : Counterpart ns around value value')

include h

theorem mirrors_subschemaList (haround : around.item = reading) :
    Mirrors ns reading targets (List.Forall₂ N) (subschemaList inner site value)
      (subschemaList inner' site.exchanged value') := by
  obtain ⟨hfits, halike⟩ := h
  cases halike with
  | text s t => exact .refuse_left _ _
  | exchanged =>
    cases value with
    | array items =>
      exact .mapM (Counterpart.items hfits) (fun part _ => grows_subschema hinner.grows site part)
        fun part part' _ hpart => mirrors_subschema hread hinner hsite (hpart.congr haround)
    | _ => exact .refuse_left _ _

theorem mirrors_subschemaMap (haround : ∀ key, around.below key = reading) :
    Mirrors ns reading targets (List.Forall₂ (Named N)) (subschemaMap inner site value)
      (subschemaMap inner' site.exchanged value') := by
  obtain ⟨hfits, halike⟩ := h
  cases halike with
  | text s t => exact .refuse_left _ _
  | exchanged =>
    cases value with
    | object members =>
      refine .mapM (Counterpart.members hfits)
        (fun member _ => Grows.map (grows_subschema hinner.grows site member.2)) ?_
      rintro ⟨name, part⟩ ⟨name', part'⟩ - ⟨hname, hpart⟩
      obtain rfl : name' = name := hname
      exact (mirrors_subschema hread hinner hsite (hpart.congr (haround _))).map
          fun _ _ hnode => ⟨rfl, hnode⟩
    | _ => exact .refuse_left _ _

theorem mirrors_patternMap (haround : ∀ key, around.below key = reading) :
    Mirrors ns reading targets (List.Forall₂ (Named N)) (patternMap inner site value)
      (patternMap inner' site.exchanged value') := by
  obtain ⟨hfits, halike⟩ := h
  cases halike with
  | text s t => exact .refuse_left _ _
  | exchanged =>
    cases value with
    | object members =>
      refine .mapM (Counterpart.members hfits)
        (fun member _ => grows_patternMember hinner.grows site member) ?_
      rintro ⟨text, part⟩ ⟨text', part'⟩ - ⟨htext, hpart⟩
      obtain rfl : text' = text := htext
      unfold patternMember
      dsimp only
      cases Pattern.ofText? text' with
      | some pattern =>
        exact (mirrors_subschema hread hinner hsite (hpart.congr (haround _))).map
          fun _ _ hnode => ⟨rfl, hnode⟩
      | none => exact .refuse_left _ _
    | _ => exact .refuse_left _ _

end Steps

/-! ## Rules -/

/-- Whatever the schemas are. -/
abbrev AnySchemas : Json → Json → Prop := fun _ _ => True

/-- Two tables have related nodes for the targets. -/
def Tabulates (targets : List Target) (N : Node → Node → Prop) (table table' : Array Node) : Prop :=
  ∀ (index : Nat) (target : Target), targets[index]? = some target →
    ∃ made made', table[index]? = some made ∧ table'[index]? = some made' ∧ N made made'

/-- Rules that are alike once the shared nodes are there. -/
def RuleAlike (targets : List Target) (N : Node → Node → Prop) (rule rule' : Option Rule) : Prop :=
  ∀ table table', Tabulates targets N table table' →
    Option.Rel (Rule.Sim AnySchemas N table table') rule rule'

/-- How many items have schemas of their own before `items`. -/
def skipped (draft : Draft) (schema : Json) : Nat :=
  match draft, schema.get? "prefixItems" with
  | .draft202012, some (.array parts) => parts.length
  | _, _ => 0

theorem skipped_counterpart {schema schema' : Json} (h : Counterpart ns reading schema schema')
    (draft : Draft) : skipped draft schema' = skipped draft schema := by
  have hplain : namesResource "prefixItems" = false := rfl
  unfold skipped
  rw [h.alike.get?]
  cases schema.get? "prefixItems" with
  | none => rfl
  | some part =>
    rw [Option.map_some, exchangeUnder_of_plain hplain]
    cases part with
    | array parts => cases draft <;> simp [exchange, exchangeItems_eq_map]
    | _ => cases draft <;> rfl

section Rules

variable {targets : List Target} {N : Node → Node → Prop}

theorem RuleAlike.none : RuleAlike targets N none none := fun _ _ _ => .none

theorem RuleAlike.some {rule rule' : Rule}
    (h : ∀ table table', Rule.Sim AnySchemas N table table' rule rule') :
    RuleAlike targets N (some rule) (some rule') :=
  fun table table' _ => .some (h table table')

theorem RuleAlike.shared (keyword : String) {index : Nat} {target : Target}
    (hindex : targets[index]? = Option.some target) :
    RuleAlike targets N (Option.some (.shared keyword index)) (Option.some (.shared keyword index)) := by
  intro table table' htables
  obtain ⟨made, made', hmade, hmade', hnode⟩ := htables index target hindex
  exact .some (.follow (leadsTo_shared hmade keyword) (leadsTo_shared hmade' keyword) (.some hnode))

variable {inner inner' : Descent} {site : Site} {schema schema' value value' : Json}
  (hread : reading.isSchema = true) (hinner : Descends ns reading targets N inner inner')
  (hsite : site.IsOf ns) (hschema : Counterpart ns reading schema schema')
  (h : Counterpart ns reading value value')

include hread hinner hsite h

theorem mirrors_othersRule (absent : Bool) {patterns patterns' : List (Pattern × Node)}
    {properties properties' : List (String × Node)}
    (hpatterns : List.Forall₂ (Named N) patterns patterns')
    (hproperties : List.Forall₂ (Named N) properties properties') :
    Mirrors ns reading targets (RuleAlike targets N)
      (othersRule inner site absent value patterns properties)
      (othersRule inner' site.exchanged absent value' patterns' properties') := by
  have hsub : Mirrors ns reading targets (RuleAlike targets N)
      (subschema inner site value >>= fun others =>
        pure (some (.allMembers properties patterns (some others))))
      (subschema inner' site.exchanged value' >>= fun others =>
        pure (some (.allMembers properties' patterns' (some others)))) :=
    (mirrors_subschema hread hinner hsite h).map fun _ _ hnode =>
      .some fun _ _ => .allMembers hproperties hpatterns (.some hnode)
  obtain ⟨hfits, halike⟩ := h
  cases halike with
  | text s t => exact hsub
  | exchanged =>
    cases value with
    | bool b =>
      cases b with
      | true => exact hsub
      | false =>
        unfold othersRule
        dsimp only [exchange]
        split
        · exact .pure (.some fun _ _ => .noMembers)
        · exact .pure (.some fun _ _ => .allMembers hproperties hpatterns .none)
    | _ => exact hsub

include hschema

theorem mirrors_additionalProperties :
    Mirrors ns reading targets (RuleAlike targets N) (additionalProperties inner site schema value)
      (additionalProperties inner' site.exchanged schema' value') := by
  have hpatterns := hschema.get? "patternProperties"
  have hproperties := hschema.get? "properties"
  have hsub : Mirrors ns reading targets (RuleAlike targets N)
      (do
        let patterns ← (schema.get? "patternProperties").elim (return []) (patternMap inner site)
        let properties ← (schema.get? "properties").elim (return []) (subschemaMap inner site)
        othersRule inner site
          ((schema.get? "patternProperties").isNone && (schema.get? "properties").isNone) value patterns
          properties)
      (do
        let patterns ← (schema'.get? "patternProperties").elim (return [])
          (patternMap inner' site.exchanged)
        let properties ← (schema'.get? "properties").elim (return [])
          (subschemaMap inner' site.exchanged)
        othersRule inner' site.exchanged
          ((schema'.get? "patternProperties").isNone && (schema'.get? "properties").isNone) value'
          patterns properties) := by
    rw [← rel_isNone hpatterns, ← rel_isNone hproperties]
    refine Mirrors.bind (.elim hpatterns .nil fun _ _ hpart => mirrors_patternMap hread hinner hsite
        hpart (Reading.below_below_schemas hread rfl))
      (fun _ => (Grows.elim fun _ => grows_subschemaMap hinner.grows _ _).bind fun _ =>
        grows_othersRule hinner.grows _ _ _ _ _) fun patterns patterns' hpatterns => ?_
    refine Mirrors.bind (.elim hproperties .nil fun _ _ hpart => mirrors_subschemaMap hread hinner hsite
        hpart (Reading.below_below_schemas hread rfl))
      (fun _ => grows_othersRule hinner.grows _ _ _ _ _) fun properties properties' hproperties => ?_
    exact mirrors_othersRule hread hinner hsite h _ hpatterns hproperties
  obtain ⟨hfits, halike⟩ := h
  cases halike with
  | text s t => exact hsub
  | exchanged =>
    cases value with
    | bool b =>
      cases b with
      | true => exact .pure (.some fun _ _ => .anyMembers)
      | false => exact hsub
    | _ => exact hsub

theorem mirrors_items :
    Mirrors ns reading targets (RuleAlike targets N) (items inner site schema value)
      (items inner' site.exchanged schema' value') := by
  have hsub : Mirrors ns reading targets (RuleAlike targets N)
      (subschema inner site value >>= fun part =>
        pure (some (.laterItems "items" (skipped site.draft schema) part)))
      (subschema inner' site.exchanged value' >>= fun part =>
        pure (some (.laterItems "items" (skipped site.draft schema') part))) := by
    rw [skipped_counterpart hschema]
    exact (mirrors_subschema hread hinner hsite h).map fun _ _ hnode => .some fun _ _ => .laterItems _ _ hnode
  have hlist := mirrors_subschemaList hread hinner hsite h (Reading.item_of_isSchema hread)
  obtain ⟨hfits, halike⟩ := h
  cases halike with
  | text s t => exact hsub
  | exchanged =>
    cases value with
    | array parts =>
      unfold items
      dsimp only [exchange]
      split
      · exact .refuse_left _ _
      · next hdraft =>
        rw [if_neg (c := site.exchanged.draft = .draft202012) hdraft]
        exact hlist.map fun _ _ hparts => .some fun _ _ => .firstItems _ hparts
    | bool b =>
      cases b with
      | true => exact .pure (.some fun _ _ => .anyItems)
      | false => exact hsub
    | _ => exact hsub

theorem mirrors_additionalItems :
    Mirrors ns reading targets (RuleAlike targets N) (additionalItems inner site schema value)
      (additionalItems inner' site.exchanged schema' value') := by
  have hitems := hschema.get? "items"
  unfold additionalItems
  generalize schema.get? "items" = first at hitems ⊢
  generalize schema'.get? "items" = first' at hitems ⊢
  cases hitems with
  | none => exact .pure .none
  | @some first _ hfirst =>
    obtain ⟨-, halike⟩ := hfirst
    cases halike with
    | text s t => exact .pure .none
    | exchanged =>
      cases first with
      | array parts =>
        have hlength (around : Reading) : (exchangeItems around parts).length = parts.length := by
          rw [exchangeItems_eq_map, List.length_map]
        dsimp only [exchange]
        rw [hlength]
        exact (mirrors_subschema hread hinner hsite h).map fun _ _ hnode =>
          .some fun _ _ => .laterItems _ _ hnode
      | _ => exact .pure .none

omit hread hinner hsite h in
theorem mirrors_limit? (keyword : String) (hkeyword : namesResource keyword = false) :
    Mirrors ns reading targets (fun size size' => size' = size) (limit? schema keyword)
      (limit? schema' keyword) := by
  unfold limit?
  rw [hschema.alike.get?, funext (exchangeUnder_of_plain hkeyword)]
  cases schema.get? keyword with
  | none => exact .pure rfl
  | some value =>
    cases value with
    | number n =>
      dsimp only [Option.map_some, exchange]
      cases Assertion.readLimit (number n) with
      | ok size => exact .pure rfl
      | error misuse => exact .throw_left _
    | _ => exact .throw_left _

theorem mirrors_contains :
    Mirrors ns reading targets (RuleAlike targets N) (contains inner site schema value)
      (contains inner' site.exchanged schema' value') := by
  have hgrows {make : Node → Option Rule} :
      Grows (subschema inner site value >>= fun part => pure (make part)) :=
    (grows_subschema hinner.grows _ _).map
  unfold contains
  rw [Site.draft_exchanged]
  split
  · exact (mirrors_subschema hread hinner hsite h).map fun _ _ hnode => .some fun _ _ => .contains _ _ hnode
  · refine (mirrors_limit? hschema "minContains" rfl).bind
      (fun _ => (grows_limit? _ _).bind fun _ => hgrows) ?_
    rintro least _ rfl
    refine (mirrors_limit? hschema "maxContains" rfl).bind (fun _ => hgrows) ?_
    rintro most _ rfl
    exact (mirrors_subschema hread hinner hsite h).map fun _ _ hnode => .some fun _ _ => .contains _ _ hnode

omit h in
theorem mirrors_branch {keyword : String} (hkeyword : Reading.ofKeyword keyword = .schema) :
    Mirrors ns reading targets (Option.Rel N) (branch inner site schema keyword)
      (branch inner' site.exchanged schema' keyword) :=
  .mapM_option (hschema.get? keyword) fun _ _ hpart =>
    mirrors_subschema hread hinner hsite (hpart.congr (Reading.below_schema hread hkeyword))

theorem mirrors_condition :
    Mirrors ns reading targets (RuleAlike targets N) (condition inner site schema value)
      (condition inner' site.exchanged schema' value') := by
  have hgrows (keyword : String) {make : Option Node → Option Rule} :
      Grows (branch inner site schema keyword >>= fun part => pure (make part)) :=
    (grows_branch hinner.grows _ _ _).map
  refine (mirrors_subschema hread hinner hsite h).bind
    (fun _ => (grows_branch hinner.grows _ _ _).bind fun _ => hgrows _) fun test test' htest => ?_
  refine (mirrors_branch hread hinner hsite hschema (show Reading.ofKeyword "then" = .schema from rfl)).bind (fun _ => hgrows _)
    fun positive positive' hpositive => ?_
  exact (mirrors_branch hread hinner hsite hschema (show Reading.ofKeyword "else" = .schema from rfl)).map fun negative negative' hnegative =>
    .some fun _ _ => .condition htest hpositive hnegative

omit hschema in
theorem mirrors_dependent :
    Mirrors ns reading targets (Sum.LiftRel Eq N) (dependent inner site value)
      (dependent inner' site.exchanged value') := by
  have hsub : Mirrors ns reading targets (Sum.LiftRel (α := List String) Eq N)
      (subschema inner site value >>= fun part => pure (.inr part))
      (subschema inner' site.exchanged value' >>= fun part => pure (.inr part)) :=
    (mirrors_subschema hread hinner hsite h).map fun _ _ hnode => .inr hnode
  obtain ⟨hfits, halike⟩ := h
  cases halike with
  | text s t => exact hsub
  | exchanged =>
    cases value with
    | array items =>
      unfold dependent
      dsimp only [exchange]
      split
      · next names hnames =>
        have hsame : (Json.array items).exchange reading = .array items :=
          Assertion.exchange_of_readTexts hnames
        rw [exchange] at hsame
        rw [hsame, hnames]
        exact .pure (.inl rfl)
      · exact .throw_left _
    | _ => exact hsub

omit hschema h in
theorem mirrors_dependencies (keyword : String) {around : Reading}
    (h : Counterpart ns around value value') (haround : ∀ key, around.below key = reading) :
    Mirrors ns reading targets (RuleAlike targets N) (dependencies inner site keyword value)
      (dependencies inner' site.exchanged keyword value') := by
  obtain ⟨hfits, halike⟩ := h
  cases halike with
  | text s t => exact .refuse_left _ _
  | exchanged =>
    cases value with
    | object members =>
      have hmembers : Mirrors ns reading targets
          (List.Forall₂ fun a b => a.1 = b.1 ∧ Sum.LiftRel Eq N a.2 b.2)
          (members.mapM fun member => do return (member.1, ← dependent inner site member.2))
          ((exchangeMembers around members).mapM fun member => do
            return (member.1, ← dependent inner' site.exchanged member.2)) := by
        refine .mapM (Counterpart.members hfits)
          (fun member _ => Grows.map (grows_dependent hinner.grows site member.2)) ?_
        rintro ⟨key, part⟩ ⟨key', part'⟩ - ⟨hkey, hpart⟩
        obtain rfl : key' = key := hkey
        exact (mirrors_dependent hread hinner hsite (hpart.congr (haround _))).map
          fun _ _ hdependent => ⟨rfl, hdependent⟩
      exact hmembers.map fun _ _ hdependents => .some fun _ _ => .dependencies keyword hdependents
    | _ => exact .refuse_left _ _

/-- Whether the limit of a keyword is excluded by the mark of Draft 4. -/
def excluded (draft : Draft) (schema : Json) (keyword : String) : Bool :=
  (keyword = "minimum" && (draft = .draft4 && marked "exclusiveMinimum")) ||
    (keyword = "maximum" && (draft = .draft4 && marked "exclusiveMaximum"))
where
  /-- Whether a keyword is there and true. -/
  marked (mark : String) : Bool :=
    match schema.get? mark with
    | some (.bool b) => b
    | _ => false

omit hread hinner hsite h in
theorem excluded_counterpart (draft : Draft) (keyword : String) :
    excluded draft schema' keyword = excluded draft schema keyword := by
  have hmarked (mark : String) (hmark : namesResource mark = false) :
      excluded.marked schema' mark = excluded.marked schema mark := by
    unfold excluded.marked
    rw [hschema.alike.get?, funext (exchangeUnder_of_plain hmark)]
    cases schema.get? mark with
    | none => rfl
    | some part => cases part <;> rfl
  rw [excluded, excluded, hmarked _ rfl, hmarked _ rfl]

omit hread hinner hsite h in
theorem mirrors_assertion (settings : Settings) {keyword : String} (hvalue : FitsUnder ns reading keyword value) :
    Mirrors ns reading targets (RuleAlike targets N) (assertion settings site schema keyword value)
      (assertion (settings.exchanged reading) site.exchanged schema' keyword (exchangeUnder reading keyword value)) := by
  have hmade {settings : Settings} {site : Site} {schema value : Json} {claim : Option Assertion}
      (hclaim : Assertion.ofKeyword? site.draft settings.formats keyword value = .ok claim) :
      assertion settings site schema keyword value = pure (claim.map fun claim =>
        .assertion keyword (claim.excluding (excluded site.draft schema keyword))) := by
    rw [assertion, hclaim]
    rfl
  cases hclaim : Assertion.ofKeyword? site.draft settings.formats keyword value with
  | error misuse =>
    rw [assertion, hclaim]
    exact .throw_left _
  | ok claim =>
    have hclaim' : Assertion.ofKeyword? site.exchanged.draft (settings.exchanged reading).formats keyword
        (exchangeUnder reading keyword value) = .ok claim := Assertion.ofKeyword?_exchanged hvalue hclaim
    rw [hmade hclaim, hmade hclaim', Site.draft_exchanged, excluded_counterpart hschema]
    refine .pure ?_
    cases claim with
    | none => exact .none
    | some claim => exact .some fun _ _ => .assertion keyword _

end Rules

/-! ## References -/

/-- The rule of a reference whose target was found. -/
def settle (inner : Descent) (keyword text : String) (address : UriReference) (there : Site)
    (contents : Json) : Compiling (Option Rule) := do
  if (← get).seen.contains address then
    if (contents.get? keyword).bind Json.text? = some text then return none
    else return some (.shared keyword (← share ⟨there, contents⟩))
  else
    modify fun session => { session with seen := address :: session.seen }
    return some (.reference keyword (← inner there contents))

/-- No target is a text. -/
def Wordless (targets : List Target) : Prop :=
  ∀ (index : Nat) (target : Target), targets[index]? = some target → target.contents.text? = none

section References

variable {targets : List Target} {N : Node → Node → Prop} {inner inner' : Descent}
  {settings : Settings} {site : Site} (hread : reading.isSchema = true)
  (hinner : Descends ns reading targets N inner inner') (hwordless : Wordless targets)

include hwordless

theorem mirrors_sharedRule {site : Site} (hsite : site.IsOf ns) {contents contents' : Json}
    (h : Counterpart ns reading contents contents') (keyword : String) :
    Mirrors ns reading targets (RuleAlike targets N)
      (share ⟨site, contents⟩ >>= fun index => pure (some (.shared keyword index)))
      (share ⟨site.exchanged, contents'⟩ >>= fun index => pure (some (.shared keyword index))) := by
  obtain ⟨hfits, halike⟩ := h
  cases halike with
  | text s t =>
    -- No text is shared.
    intro before rule after _ hyields hafter
    obtain ⟨index, between, hindex, hyields⟩ := yields_bind.1 hyields
    obtain ⟨-, rfl⟩ := yields_pure.1 hyields
    cases hwordless index _ (getElem?_mono hafter (targets_of_share hindex).2)
  | exchanged =>
    have htarget : Target.Fits ns reading ⟨site, contents⟩ := ⟨hsite, hfits⟩
    refine (mirrors_share htarget).map ?_
    rintro index _ ⟨rfl, hindex⟩
    exact .shared keyword hindex

include hread hinner

theorem mirrors_settle {keyword text : String} (hkeyword : holdsAddress keyword = true)
    {address : UriReference} (haddress : address.IsOf ns)
    (hsite : site.IsOf ns) {contents contents' : Json} (h : Counterpart ns reading contents contents') :
    Mirrors ns reading targets (RuleAlike targets N) (settle inner keyword text address site contents)
      (settle inner' keyword (exchangeText text) address.exchanged site.exchanged contents') := by
  intro before rule after hbefore hyields hafter
  obtain ⟨session, between, hget, hyields⟩ := yields_bind.1 hyields
  obtain ⟨rfl, rfl⟩ := yields_get.1 hget
  have hseen : (before.exchanged reading).seen.contains address.exchanged = before.seen.contains address :=
    Site.contains_exchanged before.seen address
  have hecho : (contents'.get? keyword).bind Json.text? = some (exchangeText text) ↔
      (contents.get? keyword).bind Json.text? = some text := by
    have hreference := (Gathering.referenceOf?_counterpart h hread hkeyword).2
    rw [Gathering.referenceOf?, Gathering.referenceOf?] at hreference
    rw [hreference, Option.map_eq_some_iff]
    constructor
    · rintro ⟨other, hother, heq⟩
      exact Namespace.exchangeText_injective heq ▸ hother
    · exact fun heq => ⟨text, heq, rfl⟩
  suffices hrest : ∃ rule', (if (before.exchanged reading).seen.contains address.exchanged then
      if (contents'.get? keyword).bind Json.text? = some (exchangeText text) then pure none
      else share ⟨site.exchanged, contents'⟩ >>= fun index => pure (some (.shared keyword index))
    else do
      modify fun session => { session with seen := address.exchanged :: session.seen }
      let made ← inner' site.exchanged contents'
      pure (some (.reference keyword made)) : Compiling (Option Rule)).Yields (before.exchanged reading) rule'
        (after.exchanged reading) ∧ after.Fits ns reading ∧ RuleAlike targets N rule rule' by
    obtain ⟨rule', hyields', hrest⟩ := hrest
    exact ⟨rule', yields_bind.2 ⟨_, _, yields_get.2 ⟨rfl, rfl⟩, hyields'⟩, hrest⟩
  rw [hseen]
  simp only [hecho]
  split_ifs at hyields ⊢
  · obtain ⟨rfl, rfl⟩ := yields_pure.1 hyields
    exact ⟨none, yields_pure.2 ⟨rfl, rfl⟩, hbefore, .none⟩
  · exact mirrors_sharedRule hwordless hsite h keyword before rule after hbefore hyields hafter
  · obtain ⟨_, between, hmodify, hyields⟩ := yields_bind.1 hyields
    obtain rfl := yields_modify.1 hmodify
    obtain ⟨made, between, hmade, hyields⟩ := yields_bind.1 hyields
    obtain ⟨rfl, rfl⟩ := yields_pure.1 hyields
    have hentered : Session.Fits ns reading { before with seen := address :: before.seen } := by
      refine ⟨fun other hother => ?_, hbefore.targets⟩
      rcases List.mem_cons.1 hother with rfl | hother
      · exact haddress
      · exact hbefore.seen other hother
    obtain ⟨made', hmade', hafterFits, hnode⟩ :=
      hinner.mirrors site contents contents' hsite h _ made _ hentered hmade hafter
    refine ⟨some (.reference keyword made'), yields_bind.2 ⟨⟨⟩, _, yields_modify.2 rfl,
      yields_bind.2 ⟨made', _, hmade', yields_pure.2 ⟨rfl, rfl⟩⟩⟩, hafterFits, .some fun _ _ => ?_⟩
    exact .follow (.reference keyword made) (.reference keyword made') (.some hnode)

theorem mirrors_reference (hlibrary : settings.library.Fits ns reading) (hsite : site.IsOf ns)
    {keyword : String} (hkeyword : holdsAddress keyword = true) {value : Json}
    (hvalue : FitsUnder ns reading keyword value) :
    Mirrors ns reading targets (RuleAlike targets N) (reference settings inner site keyword value)
      (reference (settings.exchanged reading) inner' site.exchanged keyword (exchangeUnder reading keyword value)) := by
  cases value with
  | string text =>
    obtain ⟨hknows, hadmits, hunder⟩ := hvalue.known hkeyword text rfl
    rw [hunder]
    intro before rule after hbefore hyields hafter
    obtain ⟨address, between, hstep, hyields⟩ := yields_bind.1 hyields
    obtain ⟨haddress, rfl⟩ := yields_following.1 hstep
    obtain ⟨⟨contents, place⟩, between, hstep, hyields⟩ := yields_bind.1 hyields
    obtain ⟨hfound, rfl⟩ := yields_following.1 hstep
    obtain ⟨there, between, hstep, hyields⟩ := yields_bind.1 hyields
    obtain ⟨hthere, rfl⟩ := yields_following.1 hstep
    obtain ⟨hof, haddress'⟩ := resolveAddress_exchanged hsite.base hknows haddress
    obtain ⟨⟨contents', place'⟩, hreaches, hfound'⟩ :=
      Library.lookup_exchanged hlibrary hsite hknows hadmits hfound
    obtain ⟨hinside, hthere'⟩ :=
      Site.within_exchanged hreaches.site hreaches.contents hread hthere
    obtain rfl : place' = place.exchanged := hreaches.eq_exchanged
    obtain ⟨rule', hyields', hrest⟩ := mirrors_settle hread hinner hwordless hkeyword hof hinside
      hreaches.contents before rule after hbefore hyields hafter
    exact ⟨rule', yields_bind.2 ⟨_, _, yields_following.2 ⟨haddress', rfl⟩,
      yields_bind.2 ⟨_, _, yields_following.2 ⟨hfound', rfl⟩,
        yields_bind.2 ⟨_, _, yields_following.2 ⟨hthere', rfl⟩, hyields'⟩⟩⟩, hrest⟩
  | _ => exact .refuse_left _ _

omit hinner in
theorem mirrors_recursiveReference (hlibrary : settings.library.Fits ns reading) (hsite : site.IsOf ns)
    (keyword : String) :
    Mirrors ns reading targets (RuleAlike targets N) (recursiveReference settings site keyword)
      (recursiveReference (settings.exchanged reading) site.exchanged keyword) := by
  intro before rule after hbefore hyields hafter
  obtain ⟨⟨contents, place⟩, between, hstep, hyields⟩ := yields_bind.1 hyields
  obtain ⟨hfound, rfl⟩ := yields_following.1 hstep
  obtain ⟨there, between, hstep, hyields⟩ := yields_bind.1 hyields
  obtain ⟨hthere, rfl⟩ := yields_following.1 hstep
  obtain ⟨⟨contents', place'⟩, hreaches, hfound'⟩ :=
    Library.lookupRecursive_exchanged hlibrary hsite hfound
  obtain ⟨hinside, hthere'⟩ := Site.within_exchanged hreaches.site hreaches.contents hread hthere
  obtain rfl : place' = place.exchanged := hreaches.eq_exchanged
  obtain ⟨rule', hyields', hrest⟩ := mirrors_sharedRule hwordless hinside
    hreaches.contents keyword before rule after hbefore hyields hafter
  exact ⟨rule', yields_bind.2 ⟨_, _, yields_following.2 ⟨hfound', rfl⟩,
    yields_bind.2 ⟨_, _, yields_following.2 ⟨hthere', rfl⟩, hyields'⟩⟩, hrest⟩

end References

/-! ## Nodes -/

section Nodes

variable {targets : List Target} {N : Node → Node → Prop} {inner inner' : Descent}
  {settings : Settings} {site : Site} (hread : reading.isSchema = true) (hwordless : Wordless targets)
  (hlibrary : settings.library.Fits ns reading)

theorem takesOver_counterpart {schema schema' : Json} (h : Counterpart ns reading schema schema') :
    takesOver schema' = takesOver schema := by
  have hplain : namesResource "additionalProperties" = false := rfl
  unfold takesOver
  rw [h.alike.get?, funext (exchangeUnder_of_plain hplain)]
  cases schema.get? "additionalProperties" with
  | none => rfl
  | some part => cases part <;> rfl

include hread hwordless hlibrary

theorem mirrors_rule? (hinner : Descends ns reading targets N inner inner') (hsite : site.IsOf ns)
    {schema schema' : Json} (hschema : Counterpart ns reading schema schema') {keyword : String}
    {value : Json} (hvalue : FitsUnder ns reading keyword value)
    (h : Counterpart ns (reading.below keyword) value (exchangeUnder reading keyword value)) :
    Mirrors ns reading targets (RuleAlike targets N) (rule? settings inner site schema keyword value)
      (rule? (settings.exchanged reading) inner' site.exchanged schema' keyword (exchangeUnder reading keyword value)) := by
  unfold rule?
  dsimp only
  rw [Site.draft_exchanged, takesOver_counterpart hschema]
  split
  case h_1 => exact mirrors_reference hread hinner hwordless hlibrary hsite rfl hvalue
  case h_2 => exact .choice _ .none (mirrors_reference hread hinner hwordless hlibrary hsite rfl hvalue)
  case h_3 =>
    split
    · exact mirrors_recursiveReference hread hwordless hlibrary hsite _
    · exact .pure .none
  case h_4 =>
    exact (mirrors_subschemaList hread hinner hsite h
      (Reading.item_below_schemas hread rfl)).map fun _ _ hparts => .some fun _ _ => .allOf hparts
  case h_5 =>
    exact (mirrors_subschemaList hread hinner hsite h
      (Reading.item_below_schemas hread rfl)).map fun _ _ hparts => .some fun _ _ => .anyOf hparts
  case h_6 =>
    exact (mirrors_subschemaList hread hinner hsite h
      (Reading.item_below_schemas hread rfl)).map fun _ _ hparts => .some fun _ _ => .oneOf hparts
  case h_7 =>
    exact (mirrors_subschema hread hinner hsite
      (h.congr (Reading.below_schema hread rfl))).map fun _ _ hpart => .some fun _ _ => .not trivial hpart
  case h_8 => exact .choice _ .none (mirrors_condition hread hinner hsite hschema
      (h.congr (Reading.below_schema hread rfl)))
  case h_9 =>
    exact .choice _ .none ((mirrors_subschemaMap hread hinner hsite h
      (Reading.below_below_schemas hread rfl)).map fun _ _ hnamed =>
      .some fun _ _ => .properties hnamed)
  case h_10 =>
    exact .choice _ .none ((mirrors_patternMap hread hinner hsite h
      (Reading.below_below_schemas hread rfl)).map fun _ _ hpatterns =>
      .some fun _ _ => .patternProperties hpatterns)
  case h_11 =>
    exact mirrors_additionalProperties hread hinner hsite hschema
      (h.congr (Reading.below_schema hread rfl))
  case h_12 =>
    exact .choice _ .none ((mirrors_subschema hread hinner hsite
      (h.congr (Reading.below_schema hread rfl))).map fun _ _ hpart =>
      .some fun _ _ => .propertyNames hpart)
  case h_13 =>
    exact mirrors_dependencies hread hinner hsite _ h
      (Reading.below_below_schemas hread rfl)
  case h_14 | h_15 => exact .choice _ .none (mirrors_dependencies hread hinner hsite _ h
      (Reading.below_below_schemas hread rfl))
  case h_16 =>
    exact .choice _ .none ((mirrors_subschemaList hread hinner hsite h
      (Reading.item_below_schemas hread rfl)).map fun _ _ hparts =>
      .some fun _ _ => .firstItems _ hparts)
  case h_17 =>
    exact mirrors_items hread hinner hsite hschema
      (h.congr (Reading.below_schema hread rfl))
  case h_18 =>
    split
    · exact .pure .none
    · exact mirrors_additionalItems hread hinner hsite hschema
        (h.congr (Reading.below_schema hread rfl))
  case h_19 => exact .choice _ .none (mirrors_contains hread hinner hsite hschema
      (h.congr (Reading.below_schema hread rfl)))
  case h_20 =>
    exact .choice _ .none ((mirrors_subschema hread hinner hsite
      (h.congr (Reading.below_schema hread rfl))).map fun _ _ hpart =>
      .some fun _ _ => .unevaluatedProperties hpart)
  case h_21 =>
    exact .choice _ .none ((mirrors_subschema hread hinner hsite
      (h.congr (Reading.below_schema hread rfl))).map fun _ _ hpart =>
      .some fun _ _ => .unevaluatedItems hpart)
  case h_22 => exact mirrors_assertion hschema settings hvalue

/-- Nodes that are alike once the shared nodes are there. -/
def NodeAlike (targets : List Target) (N : Node → Node → Prop) (made made' : Node) : Prop :=
  ∀ table table', Tabulates targets N table table' → Node.Sim AnySchemas N table table' made made'

omit hread hwordless hlibrary in
theorem nodeAlike_rules {rules rules' : List (Option Rule)}
    (h : List.Forall₂ (RuleAlike targets N) rules rules') :
    NodeAlike targets N (.rules (rules.filterMap id)) (.rules (rules'.filterMap id)) :=
  fun table table' htables =>
    .rules (forall₂_filterMap (h.imp fun _ _ hrule => hrule table table' htables))

/-- The rules of members that count. -/
theorem mirrors_rules (hinner : Descends ns reading targets N inner inner') (hsite : site.IsOf ns)
    {members counting : List (String × Json)} (hfits : (object members).Fits ns reading)
    (hcounting : ∀ member ∈ counting, member ∈ members) :
    Mirrors ns reading targets (NodeAlike targets N)
      (counting.mapM (fun (keyword, value) =>
        rule? settings inner site (object members) keyword value) >>= fun rules =>
          pure (.rules (rules.filterMap id)))
      ((exchangeMembers reading counting).mapM (fun (keyword, value) =>
        rule? (settings.exchanged reading) inner' site.exchanged (object (exchangeMembers reading members)) keyword
          value) >>= fun rules => pure (.rules (rules.filterMap id))) := by
  refine Mirrors.map (.mapM (S := fun member member' : String × Json =>
    member' = (member.1, exchangeUnder reading member.1 member.2)) ?_
    (fun member _ => grows_rule? settings hinner.grows site _ member.1 member.2) ?_)
    fun _ _ => nodeAlike_rules
  · rw [exchangeMembers_eq_map]
    exact List.forall₂_map_right_iff.2 (List.forall₂_same.2 fun _ _ => rfl)
  · rintro ⟨keyword, value⟩ _ hmember rfl
    have hmember' := hcounting _ hmember
    exact mirrors_rule? hread hwordless hlibrary hinner hsite (.exchanged hfits)
      (hfits.under hread hmember') (.under (hfits.member hmember'))

theorem mirrors_node_succ {depth : Nat}
    (hinner : Descends ns reading targets N (node settings depth) (node (settings.exchanged reading) depth))
    (hsite : site.IsOf ns) {schema schema' : Json} (h : Counterpart ns reading schema schema') :
    Mirrors ns reading targets (NodeAlike targets N) (node settings (depth + 1) site schema)
      (node (settings.exchanged reading) (depth + 1) site.exchanged schema') := by
  obtain ⟨hfits, halike⟩ := h
  cases halike with
  | text s t => exact .refuse_left _ _
  | exchanged =>
    cases schema with
    | bool b =>
      cases b with
      | true => exact .pure fun _ _ _ => .anything
      | false => exact .pure fun _ _ _ => .nothing
    | object members =>
      have hreference := get?_exchange reading (object members) "$ref"
      have hall := mirrors_rules hread hwordless hlibrary hinner hsite hfits fun _ hmember => hmember
      rw [exchange] at hreference ⊢
      unfold node
      dsimp only
      rw [hreference, Site.draft_exchanged]
      cases hget : (object members).get? "$ref" with
      | none => exact hall
      | some value =>
        dsimp only [Option.map_some]
        split
        · have hcounting : ∀ member ∈ [("$ref", value)], member ∈ members := fun member hmember =>
            List.mem_singleton.1 hmember ▸ Entries.mem_of_get?_eq_some hget
          exact mirrors_rules hread hwordless hlibrary hinner hsite hfits hcounting
        · exact hall
    | _ => exact .refuse_left _ _

/-- The nodes are made from the same schema, each in its dialect. -/
inductive Mirrored (ns : Namespace) (reading : Reading) (settings : Settings) (targets : List Target) :
    Node → Node → Prop
  | intro {depth : Nat} {site : Site} {schema schema' : Json} {before after : Session}
    {made made' : Node} (hsite : site.IsOf ns) (h : Counterpart ns reading schema schema')
    (hbefore : before.Fits ns reading) (hafter : after.targets <+: targets)
    (hmade : (node settings depth site schema).Yields before made after)
    (hmade' : (node (settings.exchanged reading) depth site.exchanged schema').Yields (before.exchanged reading)
      made' (after.exchanged reading)) : Mirrored ns reading settings targets made made'

/-- A schema is compiled in the same way in both dialects. -/
theorem descends_node (depth : Nat) :
    Descends ns reading targets (Mirrored ns reading settings targets) (node settings depth)
      (node (settings.exchanged reading) depth) := by
  refine ⟨fun site schema => grows_node settings depth site schema, ?_⟩
  induction depth with
  | zero => exact fun _ _ _ _ _ => .throw_left _
  | succ depth ih =>
    intro site schema schema' hsite h before made after hbefore hmade hafter
    obtain ⟨made', hmade', hfits, -⟩ := mirrors_node_succ hread hwordless hlibrary
      ⟨fun site schema => grows_node settings depth site schema, ih⟩ hsite h before made after hbefore
      hmade hafter
    exact ⟨made', hmade', hfits, .intro hsite h hbefore hafter hmade hmade'⟩

theorem isSimulation_mirrored {table table' : Array Node}
    (htables : Tabulates targets (Mirrored ns reading settings targets) table table') :
    IsSimulation AnySchemas (Mirrored ns reading settings targets) table table' := by
  rintro made made' ⟨hsite, h, hbefore, hafter, hmade, hmade'⟩
  next depth site schema schema' before after =>
  cases depth with
  | zero => exact absurd hmade (not_yields_throw _)
  | succ depth =>
    obtain ⟨other, hother, -, halike⟩ := mirrors_node_succ hread hwordless hlibrary
      (descends_node hread hwordless hlibrary depth) hsite h before made after hbefore hmade hafter
    obtain rfl : other = made' := (Prod.mk.inj (Except.ok.inj (hother.symm.trans hmade'))).1
    exact halike table table' htables

omit hread hwordless hlibrary in
theorem text?_of_yields {depth : Nat} {schema : Json} {before after : Session} {made : Node}
    (h : (node settings depth site schema).Yields before made after) : schema.text? = none := by
  cases schema with
  | string s => cases depth <;> exact absurd h (not_yields_throw _)
  | _ => rfl

omit hwordless in
/-- The shared nodes of a compilation: their schemas are no texts, and they are made in
the same way in both dialects. -/
theorem sharedNodes_exchanged {index bound : Nat} {targets : List Target} {nodes : List Node}
    (hindex : index ≤ targets.length) (h : sharedNodes settings index targets bound = .ok nodes) :
    ∃ all, targets <+: all ∧ nodes.length = all.length - index ∧
      (∀ (i : Nat) (target : Target), index ≤ i → all[i]? = some target →
        target.contents.text? = none) ∧
      (Wordless all → (∀ target ∈ targets, target.Fits ns reading) →
        ∃ nodes', sharedNodes (settings.exchanged reading) index (targets.map (Target.exchanged reading)) bound = .ok nodes' ∧
          List.Forall₂ (Mirrored ns reading settings all) nodes nodes') := by
  induction bound generalizing index targets nodes with
  | zero => cases h
  | succ bound ih =>
    unfold sharedNodes at h
    split at h
    · next hnone =>
      cases h
      have hlength := List.getElem?_eq_none_iff.1 hnone
      refine ⟨targets, List.prefix_rfl, (Nat.sub_eq_zero_of_le hlength).symm, ?_, fun _ _ => ⟨[], ?_, .nil⟩⟩
      · intro i target hi htarget
        rw [List.getElem?_eq_none (hlength.trans hi)] at htarget
        cases htarget
      · rw [sharedNodes, List.getElem?_map, hnone]
        rfl
    · next target htarget =>
      obtain ⟨⟨made, after⟩, hmade, h⟩ := bind_eq_ok.1 h
      obtain ⟨others, hothers, h⟩ := bind_eq_ok.1 h
      obtain rfl := pure_eq_ok.1 h
      have hgrows : targets <+: after.targets := grows_node settings _ _ _ ⟨[], targets⟩ _ _ hmade
      have hlt := (List.getElem?_eq_some_iff.1 htarget).1
      obtain ⟨all, hall, hlength, htexts, hrest⟩ := ih (hlt.trans_le hgrows.length_le) hothers
      have hbound := hlt.trans_le (hgrows.trans hall).length_le
      refine ⟨all, hgrows.trans hall, ?_, fun i other hi hother => ?_, fun hwordless hfits => ?_⟩
      · rw [List.length_cons, hlength]
        omega
      · rcases Nat.lt_or_eq_of_le hi with hlater | rfl
        · exact htexts i other hlater hother
        · obtain rfl := Option.some.inj ((getElem?_mono (hgrows.trans hall) htarget).symm.trans hother)
          exact text?_of_yields hmade
      · have htargetFits := hfits target (List.mem_of_getElem? htarget)
        obtain ⟨made', hmade', hafter, hnode⟩ := (descends_node hread hwordless hlibrary limit).mirrors
          target.site target.contents (target.contents.exchange reading) htargetFits.site
          (.exchanged htargetFits.contents) ⟨[], targets⟩ made after
          ⟨(fun _ hnone => by cases hnone), hfits⟩ hmade hall
        obtain ⟨others', hothers', hnodes⟩ := hrest hwordless hafter.targets
        refine ⟨made' :: others', ?_, .cons hnode hnodes⟩
        rw [sharedNodes, List.getElem?_map, htarget]
        exact bind_eq_ok.2 ⟨_, hmade', bind_eq_ok.2 ⟨others', hothers', rfl⟩⟩

end Nodes

end Compiling

/-! ## Validators -/

namespace Validator

open Compiling

/-- What the one validator finds wanting in a value, the other one finds wanting at the
same places. -/
def Follows (validator validator' : Validator) : Prop :=
  ∀ value, ApiContract.Below
    (fun found found' => found'.map (·.instancePath) = found.map (·.instancePath))
    (validator.violations value) (validator'.violations value)

variable {settings : Compiling.Settings} {targets : List Target} {validator validator' : Validator}

theorem map_instancePath_of_moved {move : Move} (hmove : move.value' = move.value)
    {found found' : List Violation} (h : List.Forall₂ move.Moved found found') :
    found'.map (·.instancePath) = found.map (·.instancePath) := by
  induction h with
  | nil => rfl
  | cons hmoved _ ih =>
    obtain ⟨schemaPath, valuePath, value, cause, cause', -, rfl, rfl⟩ := hmoved
    rw [List.map_cons, List.map_cons, ih, hmove]

/-- Validators whose nodes are made in the same way find the same places wanting. -/
theorem follows_of_mirrored (hread : reading.isSchema = true) (hwordless : Wordless targets)
    (hlibrary : settings.library.Fits ns reading)
    (htables : Tabulates targets (Mirrored ns reading settings targets) validator.shared validator'.shared)
    (hroot : Mirrored ns reading settings targets validator.root validator'.root) :
    validator.Follows validator' := by
  intro value found hfound
  let move : Move := ⟨[], [], [], [], AnySchemas, fun _ => trivial⟩
  have hsim : Level.Sim (Mirrored ns reading settings targets) (fun _ => True) move
      (Level.at_ validator.shared (validator.levels value))
      (Level.at_ validator'.shared (validator.levels value)) :=
    Level.sim_at (isSimulation_mirrored hread hwordless hlibrary htables) Level.isClosed_true _
  obtain ⟨found', hfound', hmoved⟩ := hsim.violations _ _ value hroot trivial [] [] found hfound
  exact ⟨found', violations_of_depth hfound', map_instancePath_of_moved rfl hmoved⟩

/-- A schema that can be compiled in one dialect can be compiled in the other one, and
the validators find the same places wanting. -/
theorem compile_exchanged {library : Library} (hlibrary : library.Fits ns reading) {formats : Bool} {site : Site}
    (hsite : site.IsOf ns) {schema : Json} (hschema : schema.Fits ns reading)
    (h : compile library formats site schema = .ok validator) :
    ∃ validator', compile (library.exchanged reading) formats site.exchanged (schema.exchange reading) = .ok validator' ∧
      validator.Follows validator' := by
  obtain ⟨⟨root, after⟩, hroot, h⟩ := bind_eq_ok.1 h
  obtain ⟨nodes, hnodes, h⟩ := bind_eq_ok.1 h
  obtain rfl := pure_eq_ok.1 h
  have hsettings : (Compiling.Settings.library ⟨library, formats⟩).Fits ns reading := hlibrary
  obtain ⟨targets, hprefix, hlength, htexts, hmirrored⟩ :=
    sharedNodes_exchanged hlibrary.isSchema hsettings (Nat.zero_le _) hnodes
  have hwordless : Wordless targets := fun index target => htexts index target (Nat.zero_le _)
  obtain ⟨root', hroot', hafter, hrootNode⟩ := (descends_node hlibrary.isSchema hwordless hsettings limit).mirrors site
    schema (schema.exchange reading) hsite (.exchanged hschema) ⟨[], []⟩ root after ⟨nofun, nofun⟩ hroot hprefix
  obtain ⟨nodes', hnodes', hall⟩ := hmirrored hwordless hafter.targets
  refine ⟨⟨root', nodes'.toArray⟩, bind_eq_ok.2 ⟨_, hroot', bind_eq_ok.2 ⟨nodes', hnodes', rfl⟩⟩,
    follows_of_mirrored hlibrary.isSchema hwordless hsettings ?_ hrootNode⟩
  intro index target htarget
  obtain ⟨hlt, -⟩ := List.getElem?_eq_some_iff.1 htarget
  have hlt' : index < nodes.length := by omega
  have hmirror : index < nodes'.length := hall.length_eq ▸ hlt'
  exact ⟨nodes[index], nodes'[index], by simp, by simp, hall.get hlt' hmirror⟩

end Validator

end ApiContract.JsonSchema
