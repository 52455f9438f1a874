import ApiContract.Proofs.JsonSchema.Combination
import ApiContract.Proofs.JsonSchema.Places
import ApiContract.Proofs.JsonSchema.Verdicts
import Mathlib.Data.List.TakeWhile
/-!
# Verdicts compose through references

Each schema of a plain source is compiled on its own, into a validator with its
own copies of the schemas that it refers to.  The verdict of a combination is
still the combination of the verdicts of those schemas
(`accepts_iff_of_combination`).
-/

namespace ApiContract.JsonSchema

open Library

/-- Nothing is wrong with the value. -/
def Validator.Accepts (validator : Validator) (value : Json) : Prop :=
  validator.violations value = some []

namespace Validator

variable {validator validator' : Validator} {value : Json}

/-- A verdict at any depth says whether the value is accepted. -/
theorem accepts_iff_of_isValid {depth : Nat} {b : Bool}
    (h : validator.root.isValid validator.shared depth value = some b) :
    b = true ↔ validator.Accepts value := by
  rw [Accepts, violations_eq_nil_iff]
  constructor
  · rintro rfl
    exact ⟨depth, h⟩
  · rintro ⟨depth', h'⟩
    rcases le_total depth depth' with hle | hle
    · exact Option.some.inj ((Level.isValid_mono hle h).symm.trans h')
    · exact Option.some.inj (h.symm.trans (Level.isValid_mono hle h'))

/-- A copy of the root of a validator decides what the validator accepts. -/
theorem decides_of_copied {settings settings' : Compiling.Settings} {targets targets' : List Target}
    {Near : Site → Site → Json → Prop} (h : Compiling.Corresponds settings settings' Near)
    (hshares : validator.Shares settings targets) (hshares' : validator'.Shares settings' targets')
    {made : Node} (hcopied : Compiling.Copied settings settings' targets targets' Near made
      validator'.root) : made.Decides validator.shared validator'.Accepts :=
  fun _ _ _ hb => accepts_iff_of_isValid (Compiling.isValid_of_copied h hshares hshares' hcopied hb)

end Validator

section Composition

variable {retrieve : String → Option Json} {formats : Bool}

/-- A schema of a plain source is compiled at its own address, with a library
that serves the source. -/
theorem compile_of_ofSchema (hplain : Plain retrieve) {contents : Json} {id : String}
    {own : UriReference} (howns : Owns retrieve contents id own) {schedule : Schedule}
    {validator : Validator}
    (h : Validator.ofSchema retrieve formats schedule contents = .ok validator) :
    ∃ library, Serves retrieve library ∧
      Validator.compile library formats ⟨own, [], .draft202012⟩ contents = .ok validator := by
  obtain ⟨⟨address, library⟩, hprepare, h⟩ := bind_eq_ok.1 h
  unfold Validator.prepare at hprepare
  rw [howns.idOf?, Option.getD_some] at hprepare
  dsimp only at hprepare h
  rw [howns.read] at hprepare
  dsimp only at hprepare
  split at hprepare
  · cases hprepare
  · next gathered hgathered =>
    cases hprepare
    refine ⟨library, serves_gather hplain howns.nonstandard howns.retrieve hgathered, ?_⟩
    split at h
    · cases h
    · cases h
    · exact h

theorem entrance_of_whole {site : Site} {text : String} {address : UriReference}
    (hwhole : '#' ∉ text.toList) (h : meansEverywhere text.toList address = true) :
    entrance site text = .ok (address, "") := by
  have hall : text.toList.reverse.takeWhile (· ≠ '#') = text.toList.reverse := by
    rw [List.takeWhile_eq_self_iff]
    intro c hc
    have hne : c ≠ '#' := fun heq => hwhole (heq ▸ List.mem_reverse.1 hc)
    simpa using hne
  have hsplit : splitFragment text = (text, "") := by
    simp only [splitFragment, hall, List.reverse_reverse, String.length_toList, if_true]
  unfold entrance
  split
  · next fragment hfragment => exact absurd (hfragment ▸ List.mem_cons_self) hwhole
  · rw [hsplit]
    dsimp only
    rw [resolveAddress_of_meansEverywhere h]
    rfl

/-- A reference by the identifier of a schema is answered by a rule that decides
what the validator of the schema accepts. -/
theorem answered_of_owns (hplain : Plain retrieve) (hdirect : Direct retrieve) {library : Library}
    (h : Serves retrieve library) {validator : Validator} {targets : List Target}
    (hshares : validator.Shares ⟨library, formats⟩ targets) {contents part : Json} {id : String}
    {own : UriReference} (howns : Owns retrieve contents id own) (hpart : Json.Within contents part)
    {text : String} (hrefers : RefersBy part "$ref" text) {contents' : Json} {own' : UriReference}
    (howns' : Owns retrieve contents' text own') {schedule' : Schedule} {validator' : Validator}
    (h' : Validator.ofSchema retrieve formats schedule' contents' = .ok validator')
    {accepts : String → Json → Prop} (haccepts : accepts text = validator'.Accepts) :
    Compiling.Answered ⟨library, formats⟩ targets validator.shared ⟨own, [], .draft202012⟩ accepts
      text := by
  rintro depth rule ⟨before, after, hyields, hafter⟩
  obtain ⟨found, there, hfound, hthere, hmade⟩ :=
    Compiling.made_of_reference hshares hyields hafter
  have hentrance : entrance ⟨own, [], .draft202012⟩ text = .ok (own', "") :=
    entrance_of_whole howns'.whole howns'.means
  have hlookup : library.lookupAt ⟨own, [], .draft202012⟩ own' "" = .ok found := by
    rw [lookup, hentrance] at hfound
    exact hfound
  -- What is found is the schema at its own address.
  obtain ⟨resource, hresource, hcases⟩ := lookupAt_cases h hplain hlookup
  obtain ⟨hreached, hsite⟩ := hcases.resolve_right (by simp)
  obtain ⟨hdraft, hcontents⟩ := h.declared own' resource hresource howns'.nonstandard
  obtain rfl := Option.some.inj (howns'.retrieve.symm.trans hcontents)
  simp only [reached?, if_true, Option.some.injEq] at hreached
  have hid : Resource.id? ⟨resource.contents, .draft202012⟩ = some text := howns'.idOf?
  rw [hsite, ← hreached, hdraft, Site.within_of_id? hid howns'.means] at hthere
  cases hthere
  -- It does not refer to itself.
  have hown : contentsAt? retrieve own = some contents :=
    (contentsAt?_of_not_isStandard howns.nonstandard).trans howns.retrieve
  have hother : hasReference found.1 "$ref" text = false :=
    hdirect ⟨own, [], .draft202012⟩ contents part resource.contents found.1 "$ref" text "" own' hown
      hpart hrefers hentrance (h.contents_eq hresource) (by simp [reached?, hreached])
  obtain ⟨followed, made, rfl, hleads, hmade⟩ := hmade (of_decide_eq_false hother)
  refine ⟨followed, rfl, ?_⟩
  rw [haccepts]
  -- Its node here is a copy of the root of its own validator.
  have hnear : Near retrieve ⟨own', (Site.enter ⟨own, [], .draft202012⟩ own').scopes, .draft202012⟩
      ⟨own', [], .draft202012⟩ found.1 := by
    refine ⟨rfl, rfl, .declared howns'.nonstandard (hreached ▸ hcontents) .self .own,
      [], (Site.enter ⟨own, [], .draft202012⟩ own').scopes, [], rfl, rfl, by simp,
      fun scope hscope => ?_, by simp, fun hstandard => ?_, fun _ => rfl⟩
    · rcases mem_scopes_enter hscope with rfl | hscope
      · exact howns.nonstandard
      · cases hscope
    · exact absurd hstandard howns'.nonstandard
  obtain ⟨library', hserves', hcompile⟩ := compile_of_ofSchema hplain howns' h'
  obtain ⟨targets', hshares', hroot⟩ := Validator.made_of_compile hcompile
  exact hleads.decides (Validator.decides_of_copied
    (corresponds_near hplain hdirect h hserves' formats) hshares hshares'
    ⟨_, _, _, hnear, hmade, hreached ▸ hroot⟩)

/-- Every reference of a combination stands in some part of it. -/
theorem refersBy_of_mem_texts {combination : Combination} {members : List (String × Json)}
    (hsole : Sole members combination.keyword combination.value) {text : String}
    (htext : text ∈ combination.texts) :
    ∃ part, Json.Within (.object members) part ∧ RefersBy part "$ref" text := by
  obtain ⟨before, after, heq, -⟩ := hsole
  have hmember : (combination.keyword, combination.value) ∈ members := by simp [heq]
  have hvalue : Json.Within (.object members) combination.value := .member .self hmember
  have hrefers (text : String) : RefersBy (refersTo text) "$ref" text :=
    ⟨.inl rfl, _, rfl, List.mem_cons_self⟩
  cases combination with
  | reference other =>
    obtain rfl := List.mem_singleton.1 htext
    exact ⟨_, .self, .inl rfl, members, rfl, hmember⟩
  | allOf texts | anyOf texts | oneOf texts =>
    exact ⟨_, hvalue.item (List.mem_map_of_mem htext), hrefers text⟩
  | not other | items other | additionalProperties other =>
    obtain rfl := List.mem_singleton.1 htext
    exact ⟨_, hvalue, hrefers text⟩
  | properties named =>
    obtain ⟨property, hproperty, rfl⟩ := List.mem_map.1 htext
    exact ⟨_, hvalue.member (List.mem_map_of_mem hproperty), hrefers property.2⟩

/-- If its evaluation ends, a combination accepts a value exactly if the schemas
that it refers to accept what they have to. -/
theorem accepts_iff_of_combination (hplain : Plain retrieve) (hdirect : Direct retrieve)
    {combination : Combination} {members : List (String × Json)}
    (hsole : Sole members combination.keyword combination.value) {id : String} {own : UriReference}
    (howns : Owns retrieve (.object members) id own) {schedule : Schedule} {validator : Validator}
    (h : Validator.ofSchema retrieve formats schedule (.object members) = .ok validator)
    {accepts : String → Json → Prop}
    (htexts : ∀ text ∈ combination.texts, ∃ contents own' schedule' validator',
      Owns retrieve contents text own' ∧
        Validator.ofSchema retrieve formats schedule' contents = .ok validator' ∧
        accepts text = validator'.Accepts) {value : Json} (hends : validator.violations value ≠ none) :
    validator.Accepts value ↔ combination.Holds accepts value := by
  obtain ⟨library, hserves, hcompile⟩ := compile_of_ofSchema hplain howns h
  obtain ⟨targets, hshares, hroot⟩ := Validator.made_of_compile hcompile
  have hanswered : ∀ text ∈ combination.texts, Compiling.Answered ⟨library, formats⟩ targets
      validator.shared ⟨own, [], .draft202012⟩ accepts text := by
    intro text htext
    obtain ⟨part, hpart, hrefers⟩ := refersBy_of_mem_texts hsole htext
    obtain ⟨contents, own', schedule', validator', howns', h', haccepts⟩ := htexts text htext
    exact answered_of_owns hplain hdirect hserves hshares howns hpart hrefers howns' h' haccepts
  have hdecides := Compiling.decides_of_made rfl hsole hanswered hroot
  obtain ⟨depth, b, hb⟩ := Validator.exists_isValid hends
  rw [← Validator.accepts_iff_of_isValid hb]
  exact hdecides depth value b hb

end Composition

end ApiContract.JsonSchema
