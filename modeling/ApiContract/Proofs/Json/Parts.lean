import ApiContract.Json.Pointer
import ApiContract.Proofs.Entries
import Mathlib.Logic.Relation
/-!
# Parts of a value

The parts of a value are the value itself and what its items and members are
made of.  What a test finds everywhere in a value holds of all parts
(`test_of_within`).
-/

namespace ApiContract.Json

/-- The items of an array and the values of the members of an object. -/
inductive Child : Json → Json → Prop
  | item {items : List Json} {item : Json} (h : item ∈ items) : Child (.array items) item
  | member {members : List (String × Json)} {name : String} {value : Json}
    (h : (name, value) ∈ members) : Child (.object members) value

/-- The value itself or a part of it. -/
def Within (whole part : Json) : Prop := Relation.ReflTransGen Child whole part

/-- A part of the value, which is not the value itself. -/
def Below (whole part : Json) : Prop := Relation.TransGen Child whole part

variable {whole value part : Json}

theorem Within.self : Within value value := .refl

theorem Within.trans (h : Within whole value) (h' : Within value part) : Within whole part :=
  Relation.ReflTransGen.trans h h'

theorem Within.child (h : Within whole value) (h' : Child value part) : Within whole part :=
  Relation.ReflTransGen.tail h h'

theorem Within.item {items : List Json} (h : Within whole (.array items)) (hitem : part ∈ items) :
    Within whole part :=
  h.child (.item hitem)

theorem Within.member {members : List (String × Json)} {name : String}
    (h : Within whole (.object members)) (hmember : (name, part) ∈ members) : Within whole part :=
  h.child (.member hmember)

theorem within_iff : Within whole part ↔ part = whole ∨ Below whole part :=
  Relation.reflTransGen_iff_eq_or_transGen

theorem Below.within (h : Below whole part) : Within whole part := within_iff.2 (.inr h)

theorem Within.below (h : Within whole value) (h' : Child value part) : Below whole part :=
  Relation.TransGen.tail' h h'

theorem Below.item {items : List Json} (h : Below whole (.array items)) (hitem : part ∈ items) :
    Below whole part :=
  Relation.TransGen.tail h (.item hitem)

theorem Below.member {members : List (String × Json)} {name : String}
    (h : Below whole (.object members)) (hmember : (name, part) ∈ members) : Below whole part :=
  Relation.TransGen.tail h (.member hmember)

theorem below_of_get? {key : String} (hget : value.get? key = some part) : Below value part := by
  cases value with
  | object members => exact Within.self.below (.member (Entries.mem_of_get?_eq_some hget))
  | _ => cases hget

theorem Below.trans_within (h : Below whole value) (h' : Within value part) : Below whole part :=
  Relation.TransGen.trans_left h h'

theorem Within.trans_below (h : Within whole value) (h' : Below value part) : Below whole part :=
  Relation.TransGen.trans_right h h'

/-! ## Tests -/

mutual

/-- Whether a test holds of all parts of a value. -/
def everywhere (test : Json → Bool) : Json → Bool
  | .array items => test (.array items) && everywhereItems test items
  | .object members => test (.object members) && everywhereMembers test members
  | value => test value

/-- Whether a test holds of all parts of items. -/
def everywhereItems (test : Json → Bool) : List Json → Bool
  | [] => true
  | item :: rest => everywhere test item && everywhereItems test rest

/-- Whether a test holds of all parts of members. -/
def everywhereMembers (test : Json → Bool) : List (String × Json) → Bool
  | [] => true
  | (_, value) :: rest => everywhere test value && everywhereMembers test rest

end

/-- Whether a test holds of all parts of a value but the value itself. -/
def everyBelow (test : Json → Bool) : Json → Bool
  | .array items => everywhereItems test items
  | .object members => everywhereMembers test members
  | _ => true

variable {test : Json → Bool}

theorem everywhereItems_eq_all (items : List Json) :
    everywhereItems test items = items.all (everywhere test) := by
  induction items with
  | nil => rfl
  | cons item rest ih => rw [everywhereItems, ih, List.all_cons]

theorem everywhereMembers_eq_all (members : List (String × Json)) :
    everywhereMembers test members = members.all fun member => everywhere test member.2 := by
  induction members with
  | nil => rfl
  | cons member rest ih => rw [everywhereMembers, ih, List.all_cons]

theorem everywhere_eq (value : Json) :
    everywhere test value = (test value && everyBelow test value) := by
  cases value <;> simp [everywhere, everyBelow]

theorem everywhere_of_child (h : everyBelow test value = true) (hchild : Child value part) :
    everywhere test part = true := by
  cases hchild with
  | item hitem =>
    rw [everyBelow, everywhereItems_eq_all] at h
    exact List.all_eq_true.1 h _ hitem
  | member hmember =>
    rw [everyBelow, everywhereMembers_eq_all] at h
    exact List.all_eq_true.1 h _ hmember

theorem everywhere_of_within (h : everywhere test whole = true) (hpart : Within whole part) :
    everywhere test part = true := by
  induction hpart with
  | refl => exact h
  | tail _ hchild ih =>
    rw [everywhere_eq, Bool.and_eq_true] at ih
    exact everywhere_of_child ih.2 hchild

theorem test_of_within (h : everywhere test whole = true) (hpart : Within whole part) :
    test part = true := by
  have hall := everywhere_of_within h hpart
  rw [everywhere_eq, Bool.and_eq_true] at hall
  exact hall.1

theorem test_of_below (h : everyBelow test whole = true) (hpart : Below whole part) :
    test part = true := by
  obtain ⟨child, hchild, hwithin⟩ := Relation.TransGen.head'_iff.1 hpart
  exact test_of_within (everywhere_of_child h hchild) hwithin

end ApiContract.Json
