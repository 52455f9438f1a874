import ApiContract.Proofs.Json.Order
import ApiContract.Proofs.Json.Parts
import ApiContract.Proofs.Outcome
import ApiContract.Yaml.Conversion
import Mathlib.Data.List.Nodup
/-!
# What becomes of the pairs of a mapping

A pair becomes a member under the text of its key.  Keys of different kinds may
have the same text, and then the later pair takes the place of the earlier one:
an object holds a member for each pair exactly if no two keys of the mapping have
the same text (`perm_members_iff`).

The main statement, `readJson_members`, says so of all mappings of a document.
What is read is in key order throughout (`ordered_of_readJson`).
-/

namespace ApiContract.Yaml

namespace Value

/-! ## Parts -/

/-- The items of a sequence, the values of the pairs of a mapping, and what
stands behind a tag. -/
inductive Child : Value → Value → Prop
  | item {items : List Value} {item : Value} (h : item ∈ items) : Child (.sequence items) item
  | pair {pairs : List (Value × Value)} {key value : Value} (h : (key, value) ∈ pairs) :
    Child (.mapping pairs) value
  | behind (tag : String) (value : Value) : Child (.tagged tag value) value

/-- The value itself or a part of it. -/
def Within (whole part : Value) : Prop := Relation.ReflTransGen Child whole part

/-- The member that a pair becomes. -/
def BecomesMember (pair : Value × Value) (member : String × Json) : Prop :=
  keyText pair.1 = .ok member.1 ∧ pair.2.toJson = .ok member.2

/-- No two keys have the same text. -/
def DistinctTexts (pairs : List (Value × Value)) : Prop :=
  (pairs.map fun pair => keyText pair.1).Nodup

variable {whole value part : Value} {json : Json}

theorem toJsonItems_eq_ok {items : List Value} {images : List Json} :
    toJsonItems items = .ok images ↔
      List.Forall₂ (fun item image => item.toJson = .ok image) items images := by
  induction items generalizing images with
  | nil =>
    constructor
    · intro h
      cases h
      exact .nil
    · intro h
      cases h
      rfl
  | cons item items ih =>
    rw [toJsonItems, bind_eq_ok]
    constructor
    · rintro ⟨image, himage, h⟩
      obtain ⟨later, hlater, heq⟩ := bind_eq_ok.1 h
      cases heq
      exact .cons himage (ih.1 hlater)
    · rintro (_ | ⟨himage, hlater⟩)
      exact ⟨_, himage, bind_eq_ok.2 ⟨_, ih.2 hlater, rfl⟩⟩

theorem toJsonMembers_eq_ok {pairs : List (Value × Value)} {images : List (String × Json)} :
    toJsonMembers pairs = .ok images ↔ List.Forall₂ BecomesMember pairs images := by
  induction pairs generalizing images with
  | nil =>
    constructor
    · intro h
      cases h
      exact .nil
    · intro h
      cases h
      rfl
  | cons pair pairs ih =>
    obtain ⟨key, value⟩ := pair
    rw [toJsonMembers, bind_eq_ok]
    constructor
    · rintro ⟨text, htext, h⟩
      obtain ⟨image, himage, h⟩ := bind_eq_ok.1 h
      obtain ⟨later, hlater, heq⟩ := bind_eq_ok.1 h
      cases heq
      exact .cons ⟨htext, himage⟩ (ih.1 hlater)
    · rintro (_ | ⟨⟨htext, himage⟩, hlater⟩)
      exact ⟨_, htext, bind_eq_ok.2 ⟨_, himage, bind_eq_ok.2 ⟨_, ih.2 hlater, rfl⟩⟩⟩

theorem toJson_sequence {items : List Value} :
    toJson (.sequence items) = .ok json ↔
      ∃ images, List.Forall₂ (fun item image => item.toJson = .ok image) items images ∧
        json = .array images := by
  rw [toJson, bind_eq_ok]
  refine exists_congr fun images => and_congr toJsonItems_eq_ok ?_
  rw [Except.ok.injEq]
  exact eq_comm

theorem toJson_mapping {pairs : List (Value × Value)} :
    toJson (.mapping pairs) = .ok json ↔
      ∃ images, List.Forall₂ BecomesMember pairs images ∧
        json = .object (Entries.ofList images) := by
  rw [toJson, bind_eq_ok]
  refine exists_congr fun images => and_congr toJsonMembers_eq_ok ?_
  rw [Except.ok.injEq]
  exact eq_comm

/-- What converts does so in all its parts. -/
theorem exists_toJson_of_child (h : whole.toJson = .ok json) (hpart : Child whole part) :
    ∃ image, part.toJson = .ok image := by
  cases hpart with
  | item hitem =>
    obtain ⟨images, himages, -⟩ := toJson_sequence.1 h
    obtain ⟨image, -, himage⟩ := exists_mem_of_forall₂_left himages hitem
    exact ⟨image, himage⟩
  | pair hpair =>
    obtain ⟨images, himages, -⟩ := toJson_mapping.1 h
    obtain ⟨member, -, hmember⟩ := exists_mem_of_forall₂_left himages hpair
    exact ⟨member.2, hmember.2⟩
  | behind tag part => exact ⟨json, h⟩

theorem exists_toJson_of_within (h : whole.toJson = .ok json) (hpart : Within whole part) :
    ∃ image, part.toJson = .ok image := by
  induction hpart with
  | refl => exact ⟨json, h⟩
  | tail _ hchild ih =>
    obtain ⟨image, himage⟩ := ih
    exact exists_toJson_of_child himage hchild

/-! ## Members and pairs -/

theorem distinctTexts_iff {pairs : List (Value × Value)} {images : List (String × Json)}
    (h : List.Forall₂ BecomesMember pairs images) :
    DistinctTexts pairs ↔ (images.map (·.1)).Nodup := by
  have htexts : pairs.map (fun pair => keyText pair.1) =
      (images.map (·.1)).map Except.ok := by
    induction h with
    | nil => rfl
    | cons hmember _ ih => rw [List.map_cons, hmember.1, ih, List.map_cons, List.map_cons]
  rw [DistinctTexts, htexts]
  exact List.nodup_map_iff fun a b heq => Except.ok.inj heq

/-- Each pair has its member exactly if no two keys have the same text. -/
theorem perm_members_iff {pairs : List (Value × Value)} {images : List (String × Json)}
    (h : List.Forall₂ BecomesMember pairs images) :
    (Entries.ofList images).Perm images ↔ DistinctTexts pairs := by
  rw [distinctTexts_iff h, Entries.perm_ofList_iff]

/-- The counterpart of a part is a part of the counterpart, as long as no pair
takes the place of another. -/
theorem within_of_child (h : whole.toJson = .ok json) (hpart : Child whole part)
    (hdistinct : ∀ pairs, whole = .mapping pairs → DistinctTexts pairs) :
    ∃ image, part.toJson = .ok image ∧ json.Within image := by
  cases hpart with
  | item hitem =>
    obtain ⟨images, himages, rfl⟩ := toJson_sequence.1 h
    obtain ⟨image, hmem, himage⟩ := exists_mem_of_forall₂_left himages hitem
    exact ⟨image, himage, Json.Within.self.item hmem⟩
  | pair hpair =>
    obtain ⟨images, himages, rfl⟩ := toJson_mapping.1 h
    obtain ⟨member, hmem, hmember⟩ := exists_mem_of_forall₂_left himages hpair
    have hkept := (perm_members_iff himages).2 (hdistinct _ rfl)
    exact ⟨member.2, hmember.2, Json.Within.self.member (hkept.mem_iff.2 hmem)⟩
  | behind tag part => exact ⟨json, h, Json.Within.self⟩

theorem within_of_within (h : whole.toJson = .ok json) (hpart : Within whole part)
    (hdistinct : ∀ pairs, Within whole (.mapping pairs) → DistinctTexts pairs) :
    ∃ image, part.toJson = .ok image ∧ json.Within image := by
  induction hpart with
  | refl => exact ⟨json, h, Json.Within.self⟩
  | tail hvalue hchild ih =>
    obtain ⟨image, himage, hwithin⟩ := ih
    obtain ⟨inner, hinner, hbelow⟩ := within_of_child himage hchild fun pairs heq =>
      hdistinct pairs (heq ▸ hvalue)
    exact ⟨inner, hinner, hwithin.trans hbelow⟩

/-! ## Key order -/

mutual

/-- Objects are made in key order. -/
theorem ordered_of_toJson {value : Value} {json : Json} (h : value.toJson = .ok json) :
    json.Ordered := by
  cases value with
  | null => cases h; trivial
  | bool b => cases h; trivial
  | number n =>
    cases n with
    | integer n => cases h; trivial
    | double d => cases h; trivial
    | infinity negative => cases h
    | nan => cases h
  | string s => cases h; trivial
  | sequence items =>
    rw [toJson] at h
    obtain ⟨images, himages, heq⟩ := bind_eq_ok.1 h
    cases heq
    exact Json.ordered_array.2 (ordered_of_toJsonItems himages)
  | mapping pairs =>
    rw [toJson] at h
    obtain ⟨images, himages, heq⟩ := bind_eq_ok.1 h
    cases heq
    refine Json.ordered_object.2 ⟨Entries.ordered_ofList images, ?_⟩
    intro key image hmem
    exact ordered_of_toJsonMembers himages (key, image) (Entries.mem_of_mem_ofList hmem)
  | tagged tag value => exact @ordered_of_toJson value json h

theorem ordered_of_toJsonItems {items : List Value} {images : List Json}
    (h : toJsonItems items = .ok images) : ∀ image ∈ images, image.Ordered := by
  cases items with
  | nil => cases h; simp
  | cons item items =>
    rw [toJsonItems] at h
    obtain ⟨image, himage, h⟩ := bind_eq_ok.1 h
    obtain ⟨images, himages, heq⟩ := bind_eq_ok.1 h
    cases heq
    exact List.forall_mem_cons.2 ⟨ordered_of_toJson himage, ordered_of_toJsonItems himages⟩

theorem ordered_of_toJsonMembers {pairs : List (Value × Value)} {images : List (String × Json)}
    (h : toJsonMembers pairs = .ok images) : ∀ member ∈ images, member.2.Ordered := by
  cases pairs with
  | nil => cases h; simp
  | cons pair pairs =>
    obtain ⟨key, value⟩ := pair
    rw [toJsonMembers] at h
    obtain ⟨text, htext, h⟩ := bind_eq_ok.1 h
    obtain ⟨image, himage, h⟩ := bind_eq_ok.1 h
    obtain ⟨images, himages, heq⟩ := bind_eq_ok.1 h
    cases heq
    exact List.forall_mem_cons.2 ⟨ordered_of_toJson himage, ordered_of_toJsonMembers himages⟩

end

end Value

/-! ## Documents -/

theorem readJson_eq_ok {text : String} {json : Json} :
    readJson text = .ok json ↔ ∃ value, Value.ofText text = .ok value ∧ value.toJson = .ok json := by
  cases hvalue : Value.ofText text with
  | error fault =>
    simp only [readJson, hvalue]
    exact ⟨nofun, fun ⟨_, heq, _⟩ => nomatch heq⟩
  | ok value =>
    cases hjson : value.toJson with
    | error fault =>
      simp only [readJson, hvalue, hjson]
      constructor
      · nofun
      · rintro ⟨_, heq, h⟩
        cases heq
        rw [hjson] at h
        cases h
    | ok image =>
      simp only [readJson, hvalue, hjson]
      constructor
      · intro h
        cases h
        exact ⟨value, rfl, hjson⟩
      · rintro ⟨_, heq, h⟩
        cases heq
        rw [hjson] at h
        cases h
        rfl

/-- What is read is in key order. -/
theorem ordered_of_readJson {text : String} {json : Json} (h : readJson text = .ok json) :
    json.Ordered := by
  obtain ⟨value, -, hjson⟩ := readJson_eq_ok.1 h
  exact Value.ordered_of_toJson hjson

/-- A mapping keeps all its pairs exactly if no two of its keys have the same
text, and the later of two such pairs counts. -/
theorem readJson_members {text : String} {json : Json} (h : readJson text = .ok json) :
    ∃ value : Value, Value.ofText text = .ok value ∧ value.toJson = .ok json ∧
      (∀ pairs, value.Within (.mapping pairs) →
        ∃ images members, List.Forall₂ Value.BecomesMember pairs images ∧
          (Value.mapping pairs).toJson = .ok (.object members) ∧
          (members.Perm images ↔ Value.DistinctTexts pairs) ∧
          ∀ text, Entries.get? members text = Entries.get? images.reverse text) ∧
      ((∀ pairs, value.Within (.mapping pairs) → Value.DistinctTexts pairs) →
        ∀ part, value.Within part → ∃ image, part.toJson = .ok image ∧ json.Within image) := by
  obtain ⟨value, hvalue, hjson⟩ := readJson_eq_ok.1 h
  refine ⟨value, hvalue, hjson, ?_, ?_⟩
  · intro pairs hwithin
    obtain ⟨image, himage⟩ := Value.exists_toJson_of_within hjson hwithin
    obtain ⟨images, himages, rfl⟩ := Value.toJson_mapping.1 himage
    exact ⟨images, Entries.ofList images, himages, himage, Value.perm_members_iff himages,
      Entries.get?_ofList images⟩
  · intro hdistinct part hpart
    exact Value.within_of_within hjson hpart hdistinct

/-- Answers by their status. -/
def statuses : String := "200: fine\n404:\n  true: missing\n"

theorem readJson_statuses : ∃ (json : Json) (value : Value), readJson statuses = .ok json ∧
    Value.ofText statuses = .ok value ∧ value.toJson = .ok json ∧
      ∀ pairs, value.Within (.mapping pairs) →
        ∃ images members, List.Forall₂ Value.BecomesMember pairs images ∧
          (Value.mapping pairs).toJson = .ok (.object members) ∧
          (members.Perm images ↔ Value.DistinctTexts pairs) := by
  obtain ⟨json, hjson, -⟩ := exists_of_any (x := readJson statuses) (p := fun _ => true)
    (by decide +kernel)
  obtain ⟨value, hvalue, hsame, hmembers, -⟩ := readJson_members hjson
  refine ⟨json, value, hjson, hvalue, hsame, ?_⟩
  intro pairs hwithin
  obtain ⟨images, members, himages, hobject, hkept, -⟩ := hmembers pairs hwithin
  exact ⟨images, members, himages, hobject, hkept⟩

/-- The pairs of a mapping. -/
def Value.pairs? : Value → Option (List (Value × Value))
  | .mapping pairs => some pairs
  | _ => none

/-- Two schemas whose names are a number and its text. -/
def oneTwice : String := "1:\n  type: integer\n\"1\":\n  type: string\n"

/-- The first of them is lost. -/
theorem readJson_oneTwice : ∃ pairs : List (Value × Value),
    Value.ofText oneTwice = .ok (.mapping pairs) ∧ pairs.length = 2 ∧
      readJson oneTwice = .ok (.object [("1", .object [("type", .string "string")])]) := by
  obtain ⟨value, hvalue, hpairs⟩ := exists_of_any (x := Value.ofText oneTwice)
    (p := fun value => value.pairs?.any (·.length = 2)) (by decide +kernel)
  obtain ⟨json, hjson, hobject⟩ := exists_of_any (x := readJson oneTwice)
    (p := (Json.object [("1", .object [("type", .string "string")])]).identical)
    (by decide +kernel)
  rw [Json.identical_iff.1 hobject]
  cases value with
  | mapping pairs => exact ⟨pairs, hvalue, of_decide_eq_true hpairs, hjson⟩
  | _ => cases hpairs

end ApiContract.Yaml
