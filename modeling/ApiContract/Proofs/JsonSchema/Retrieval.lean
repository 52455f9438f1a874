import ApiContract.JsonSchema.Compilation
import ApiContract.Proofs.Outcome
import Mathlib.Data.List.Induction
/-!
# Schemas that are asked for

Gathering asks for the schemas that are missing, and fails if one cannot be
had.  So if it succeeds, a source with more to offer gives the same answers to
the same questions, and the schema is compiled to the same validator by the same
schedule (`ofSchema_of_extends`).
-/

namespace ApiContract.JsonSchema

/-! ## Schedules -/

namespace Schedule

variable {α β : Type} {schedule : Schedule} {round : Nat} {items : List α}

theorem filterMap_range (items : List α) :
    (List.range items.length).filterMap (items[·]?) = items := by
  induction items using List.reverseRecOn with
  | nil => rfl
  | append_singleton items item ih =>
    rw [List.length_append, List.length_singleton, List.range_succ, List.filterMap_append]
    have hbefore : (List.range items.length).filterMap ((items ++ [item])[·]?) =
        (List.range items.length).filterMap (items[·]?) := by
      refine List.filterMap_congr fun index hindex => ?_
      exact List.getElem?_append_left (List.mem_range.1 hindex)
    rw [hbefore, ih]
    simp

/-- Every element has its turn. -/
theorem perm_arrange (schedule : Schedule) (round : Nat) (items : List α) :
    (schedule.arrange round items).Perm items := by
  have hperm := (schedule.perm round items.length).filterMap (items[·]?)
  rwa [filterMap_range] at hperm

@[simp] theorem mem_arrange {item : α} : item ∈ schedule.arrange round items ↔ item ∈ items :=
  (perm_arrange schedule round items).mem_iff

theorem arrange_map (f : α → β) (items : List α) :
    schedule.arrange round (items.map f) = (schedule.arrange round items).map f := by
  rw [arrange, arrange, List.length_map, List.map_filterMap]
  exact List.filterMap_congr fun index _ => List.getElem?_map

end Schedule

/-! ## Sources with more to offer -/

/-- The second source gives every answer that the first one gives. -/
def Extends (retrieve retrieve' : String → Option Json) : Prop :=
  ∀ address contents, retrieve address = some contents → retrieve' address = some contents

variable {retrieve retrieve' : String → Option Json} {schedule : Schedule}

namespace Gathering

theorem ask_of_extends (h : Extends retrieve retrieve') {draft : Draft} {library : Library}
    {wanted : UriReference} {found : Library × List (UriReference × Resource)}
    (hask : ask retrieve draft library wanted = .ok found) :
    ask retrieve' draft library wanted = .ok found := by
  unfold ask at hask ⊢
  dsimp only at hask ⊢
  split at hask
  · next hthere => rw [if_pos hthere, hask]
  · next hmissing =>
    rw [if_neg hmissing]
    split at hask
    · cases hask
    · next contents hcontents =>
      simp only [h _ _ hcontents]
      exact hask

theorem askAlso_of_extends (h : Extends retrieve retrieve') {draft : Draft}
    {asked after : Library × List (UriReference × Resource)} {wanted : UriReference}
    (hasked : askAlso retrieve draft asked wanted = .ok after) :
    askAlso retrieve' draft asked wanted = .ok after := by
  obtain ⟨found, hfound, hafter⟩ := bind_eq_ok.1 hasked
  exact bind_eq_ok.2 ⟨found, ask_of_extends h hfound, hafter⟩

theorem complete_of_extends (h : Extends retrieve retrieve') {draft : Draft}
    {gathering : Gathering} {level : List (UriReference × Resource)} {round bound : Nat}
    {library : Library}
    (hcomplete : complete retrieve schedule draft gathering level round bound = .ok library) :
    complete retrieve' schedule draft gathering level round bound = .ok library := by
  induction bound generalizing gathering level round with
  | zero => cases hcomplete
  | succ bound ih =>
    unfold complete at hcomplete ⊢
    split at hcomplete
    · cases hcomplete
    · next visited hvisited =>
      split at hcomplete
      · next hnone => rw [if_pos hnone, hcomplete]
      · next hsome =>
        rw [if_neg hsome]
        split at hcomplete
        · cases hcomplete
        · next asked next hasked =>
          rw [foldlM_eq_ok_of_imp (fun _ _ _ => askAlso_of_extends h) hasked]
          exact ih hcomplete

end Gathering

namespace Validator

/-- A schema that can be compiled is compiled to the same validator if there is
more to ask for. -/
theorem ofSchema_of_extends (h : Extends retrieve retrieve') {formats : Bool} {schema : Json}
    {validator : Validator} (hvalidator : ofSchema retrieve formats schedule schema = .ok validator) :
    ofSchema retrieve' formats schedule schema = .ok validator := by
  obtain ⟨⟨address, library⟩, hprepare, hvalidator⟩ := bind_eq_ok.1 hvalidator
  refine bind_eq_ok.2 ⟨⟨address, library⟩, ?_, hvalidator⟩
  unfold prepare at hprepare ⊢
  dsimp only at hprepare ⊢
  split at hprepare
  · cases hprepare
  · next address haddress =>
    split at hprepare
    · cases hprepare
    · next library hlibrary =>
      have hsame : Library.gather retrieve' schedule .draft202012 address schema = .ok library :=
        Gathering.complete_of_extends h hlibrary
      rw [hsame]
      exact hprepare

end Validator

end ApiContract.JsonSchema
