import ApiContract.Proofs.Dialect.Addresses
import ApiContract.Proofs.Dialect.Readings
import ApiContract.Proofs.Json.Order
/-!
# Values in two dialects

A resource names itself and the resources that it refers to.  To exchange the
dialects in a value (`Json.exchange`) changes these texts, where the value is read as a
schema, and no others.  So it keeps all that a draft reads off a schema
(`subschemas_exchange`, `idOf?_exchange`).

A pointer may lead to one of the changed texts.  No schema is a text, so it is enough
that the ends of a pointer are alike (`Json.Alike`).
-/

namespace ApiContract

open JsonSchema (Reading)
open Namespace (exchangeText)

namespace Json

/-- The keywords under which a resource of a dialect is named. -/
def namesResource (key : String) : Bool := ["$id", "$ref"].contains key

mutual

/-- The value with the resources of the other dialect. -/
def exchange (reading : Reading) : Json → Json
  | array items => array (exchangeItems reading.item items)
  | object members => object (exchangeMembers reading members)
  | value => value

/-- The items with the resources of the other dialect. -/
def exchangeItems (reading : Reading) : List Json → List Json
  | [] => []
  | item :: rest => exchange reading item :: exchangeItems reading rest

/-- The members with the resources of the other dialect. -/
def exchangeMembers (reading : Reading) : List (String × Json) → List (String × Json)
  | [] => []
  | (key, value) :: rest => (key, exchangeUnder reading key value) :: exchangeMembers reading rest

/-- The value of a member with the resources of the other dialect. -/
def exchangeUnder (reading : Reading) (key : String) : Json → Json
  | string text =>
    string (if reading.isSchema && namesResource key then exchangeText text else text)
  | array items => array (exchangeItems (reading.below key).item items)
  | object members => object (exchangeMembers (reading.below key) members)
  | value => value

end

variable {reading : Reading}

theorem exchangeItems_eq_map (reading : Reading) (items : List Json) :
    exchangeItems reading items = items.map (exchange reading) := by
  induction items with
  | nil => rfl
  | cons item rest ih => rw [exchangeItems, ih, List.map_cons]

theorem exchangeMembers_eq_map (reading : Reading) (members : List (String × Json)) :
    exchangeMembers reading members =
      members.map fun member => (member.1, exchangeUnder reading member.1 member.2) := by
  induction members with
  | nil => rfl
  | cons member rest ih => rw [exchangeMembers, ih, List.map_cons]

theorem exchangeUnder_of_plain {key : String} (h : namesResource key = false) (value : Json) :
    exchangeUnder reading key value = value.exchange (reading.below key) := by
  cases value with
  | string text =>
    rw [exchangeUnder, h, Bool.and_false]
    rfl
  | _ => rfl

theorem exchangeUnder_of_names {key : String} (hschema : reading.isSchema = true)
    (h : namesResource key = true) (text : String) :
    exchangeUnder reading key (string text) = string (exchangeText text) := by
  rw [exchangeUnder, hschema, h, Bool.and_self, if_pos rfl]

theorem get?_exchange (reading : Reading) (value : Json) (key : String) :
    (value.exchange reading).get? key = (value.get? key).map (exchangeUnder reading key) := by
  cases value with
  | object members =>
    rw [exchange, get?, get?, exchangeMembers_eq_map,
      Entries.get?_map_snd members (exchangeUnder reading)]
  | _ => rfl

mutual

theorem exchange_exchange (reading : Reading) : ∀ value : Json,
    (value.exchange reading).exchange reading = value
  | array items => by rw [exchange, exchange, exchangeItems_exchangeItems _ items]
  | object members => by rw [exchange, exchange, exchangeMembers_exchangeMembers _ members]
  | null | bool _ | number _ | string _ => rfl

theorem exchangeItems_exchangeItems (reading : Reading) : ∀ items : List Json,
    exchangeItems reading (exchangeItems reading items) = items
  | [] => rfl
  | item :: rest => by
    rw [exchangeItems, exchangeItems, exchange_exchange _ item, exchangeItems_exchangeItems _ rest]

theorem exchangeMembers_exchangeMembers (reading : Reading) : ∀ members : List (String × Json),
    exchangeMembers reading (exchangeMembers reading members) = members
  | [] => rfl
  | (key, value) :: rest => by
    rw [exchangeMembers, exchangeMembers, exchangeUnder_exchangeUnder _ key value,
      exchangeMembers_exchangeMembers _ rest]

theorem exchangeUnder_exchangeUnder (reading : Reading) (key : String) : ∀ value : Json,
    exchangeUnder reading key (exchangeUnder reading key value) = value
  | string text => by
    rw [exchangeUnder, exchangeUnder]
    split_ifs
    · rw [Namespace.exchangeText_exchangeText]
    · rfl
  | array items => by rw [exchangeUnder, exchangeUnder, exchangeItems_exchangeItems _ items]
  | object members => by rw [exchangeUnder, exchangeUnder, exchangeMembers_exchangeMembers _ members]
  | null | bool _ | number _ => rfl

end

theorem exchange_injective (reading : Reading) : Function.Injective (exchange reading) :=
  Function.LeftInverse.injective (exchange_exchange reading)

/-! ## Alike values -/

/-- The values are the same but for the dialect, or both are texts. -/
inductive Alike (reading : Reading) : Json → Json → Prop
  | exchanged (value : Json) : Alike reading value (value.exchange reading)
  | text (s t : String) : Alike reading (.string s) (.string t)

theorem alike_exchangeUnder (reading : Reading) (key : String) (value : Json) :
    Alike (reading.below key) value (exchangeUnder reading key value) := by
  cases value with
  | string text => exact .text _ _
  | _ => exact .exchanged _

variable {value value' : Json}

theorem Alike.get? (h : Alike reading value value') (key : String) :
    value'.get? key = (value.get? key).map (exchangeUnder reading key) := by
  cases h with
  | exchanged => exact get?_exchange reading value key
  | text s t => rfl

/-! ## Values that a dialect can deal with -/

/-- The keywords under which a draft expects an address. -/
def holdsAddress (key : String) : Bool :=
  ["$dynamicRef", "$id", "$ref", "$schema", "id"].contains key

/-- What a dialect can deal with as a member of a schema: an address that it knows, that is
in keeping with the reading, and that is exchanged if it is one of its own; and a value to
compare with that is the same in both dialects. -/
structure FitsUnder (ns : Namespace) (reading : Reading) (key : String) (value : Json) : Prop where
  known : holdsAddress key = true → ∀ text, value = string text →
    ns.Knows text ∧ reading.admits text = true ∧
      exchangeUnder reading key value = string (exchangeText text)
  constant : key = "const" ∨ key = "enum" ∧ value.items?.isSome = true →
    value.exchange (reading.below key) = value

/-- A dialect can deal with all members of all schemas in the value. -/
inductive Fits (ns : Namespace) : Reading → Json → Prop
  | array {reading : Reading} {items : List Json} (h : ∀ item ∈ items, Fits ns reading.item item) :
    Fits ns reading (.array items)
  | object {reading : Reading} {members : List (String × Json)}
    (here : reading.isSchema = true → ∀ key value, (key, value) ∈ members →
      FitsUnder ns reading key value)
    (below : ∀ key value, (key, value) ∈ members → Fits ns (reading.below key) value) :
    Fits ns reading (.object members)
  | null {reading : Reading} : Fits ns reading .null
  | bool {reading : Reading} (b : Bool) : Fits ns reading (.bool b)
  | number {reading : Reading} (n : Number) : Fits ns reading (.number n)
  | string {reading : Reading} (text : String) : Fits ns reading (.string text)

variable {ns : Namespace}

theorem Fits.item {items : List Json} (h : Fits ns reading (.array items)) {item : Json}
    (hitem : item ∈ items) : item.Fits ns reading.item := by
  cases h with
  | array h => exact h item hitem

theorem Fits.member {members : List (String × Json)} (h : Fits ns reading (.object members))
    {key : String} (hmember : (key, value) ∈ members) : value.Fits ns (reading.below key) := by
  cases h with
  | object _ below => exact below key value hmember

theorem Fits.under {members : List (String × Json)} (h : Fits ns reading (.object members))
    (hschema : reading.isSchema = true) {key : String} (hmember : (key, value) ∈ members) :
    FitsUnder ns reading key value := by
  cases h with
  | object here _ => exact here hschema key value hmember

theorem Fits.get? (h : value.Fits ns reading) (hschema : reading.isSchema = true) {key : String}
    {part : Json} (hget : value.get? key = some part) : FitsUnder ns reading key part := by
  cases value with
  | object members => exact h.under hschema (Entries.mem_of_get?_eq_some hget)
  | _ => cases hget

theorem fitsUnder_of_names {key text : String} (hschema : reading.isSchema = true)
    (h : namesResource key = true) (hknows : ns.Knows text) (hadmits : reading.admits text = true) :
    FitsUnder ns reading key (.string text) := by
  refine ⟨fun _ text' heq => ?_, ?_⟩
  · obtain rfl := string.inj heq
    exact ⟨hknows, hadmits, exchangeUnder_of_names hschema h text⟩
  · rintro (rfl | ⟨-, hitems⟩)
    · cases h
    · cases hitems

/-- What stands under a keyword for addresses is exchanged as a text. -/
theorem Fits.text (h : value.Fits ns reading) (hschema : reading.isSchema = true) {key text : String}
    (hkey : holdsAddress key = true) (hget : value.get? key = some (.string text)) :
    ns.Knows text ∧ (value.exchange reading).get? key = some (.string (exchangeText text)) := by
  obtain ⟨hknows, -, hunder⟩ := (h.get? hschema hget).known hkey text rfl
  exact ⟨hknows, by rw [get?_exchange, hget, Option.map_some, hunder]⟩

/-! ## Values and their counterparts -/

/-- A value that a dialect can deal with, and the same value or another text in the
other dialect. -/
structure Counterpart (ns : Namespace) (reading : Reading) (value value' : Json) : Prop where
  fits : value.Fits ns reading
  alike : Alike reading value value'

namespace Counterpart

theorem exchanged (h : value.Fits ns reading) : Counterpart ns reading value (value.exchange reading) :=
  ⟨h, .exchanged value⟩

theorem congr (h : Counterpart ns reading value value') {other : Reading} (heq : reading = other) :
    Counterpart ns other value value' :=
  heq ▸ h

theorem under {key : String} (h : value.Fits ns (reading.below key)) :
    Counterpart ns (reading.below key) value (exchangeUnder reading key value) :=
  ⟨h, alike_exchangeUnder reading key value⟩

theorem items {items : List Json} (h : (array items).Fits ns reading) :
    List.Forall₂ (Counterpart ns reading.item) items (exchangeItems reading.item items) := by
  rw [exchangeItems_eq_map]
  exact List.forall₂_map_right_iff.2 (List.forall₂_same.2 fun item hitem => .exchanged (h.item hitem))

theorem members {members : List (String × Json)} (h : (object members).Fits ns reading) :
    List.Forall₂ (fun member member' => member'.1 = member.1 ∧
        Counterpart ns (reading.below member.1) member.2 member'.2)
      members (exchangeMembers reading members) := by
  rw [exchangeMembers_eq_map]
  exact List.forall₂_map_right_iff.2 (List.forall₂_same.2 fun member hmember =>
    ⟨rfl, .under (h.member hmember)⟩)

/-- What two schemas have under a keyword corresponds. -/
theorem get? (h : Counterpart ns reading value value') (key : String) :
    Option.Rel (Counterpart ns (reading.below key)) (value.get? key) (value'.get? key) := by
  obtain ⟨hfits, halike⟩ := h
  rw [halike.get?]
  cases value with
  | object members =>
    cases hget : (object members).get? key with
    | none => exact .none
    | some part => exact .some (.under (hfits.member (Entries.mem_of_get?_eq_some hget)))
  | _ => exact .none

/-- Whatever a segment of a path means, it leads to counterparts. -/
theorem child? (h : Counterpart ns reading value value') {finish : Reading} {segment : String}
    {rest : List String} (hleads : reading.leadsTo finish (segment :: rest) = true) :
    Option.Rel (fun part part' => ∃ next : Reading, Counterpart ns next part part' ∧
        next.leadsTo finish rest = true)
      (value.child? (Path.unescape segment)) (value'.child? (Path.unescape segment)) := by
  rw [Reading.leadsTo, Bool.and_eq_true, Bool.or_eq_true] at hleads
  obtain ⟨hfits, halike⟩ := h
  cases halike with
  | text s t => exact .none
  | exchanged =>
    cases value with
    | object members =>
      have hget := (Counterpart.exchanged hfits).get? (Path.unescape segment)
      rw [exchange, Json.get?, Json.get?] at hget
      rw [exchange, Json.child?, Json.child?]
      generalize Entries.get? members _ = part at hget ⊢
      generalize Entries.get? (exchangeMembers reading members) _ = part' at hget ⊢
      cases hget with
      | none => exact .none
      | some hpart => exact .some ⟨_, hpart, hleads.2⟩
    | array items =>
      rw [exchange, Json.child?, Json.child?, exchangeItems_eq_map]
      cases hindex : Path.index? (Path.unescape segment) with
      | none => exact .none
      | some index =>
        rw [Option.bind_some, Option.bind_some, List.getElem?_map]
        cases hitem : items[index]? with
        | none => exact .none
        | some item =>
          have hsegment : Reading.isIndex segment = true := by simp [Reading.isIndex, hindex]
          refine .some ⟨_, .exchanged (hfits.item (List.mem_of_getElem? hitem)), ?_⟩
          simpa [hsegment] using hleads.1
    | _ => exact .none

/-- A pointer that leads from a schema to a schema leads to counterparts. -/
theorem at? (h : Counterpart ns reading value value') {finish : Reading} {segments : List String}
    (hleads : reading.leadsTo finish segments = true) :
    Option.Rel (Counterpart ns finish) (value.at? (segments.map Path.unescape))
      (value'.at? (segments.map Path.unescape)) := by
  induction segments generalizing reading value value' with
  | nil =>
    obtain rfl := of_decide_eq_true hleads
    exact .some h
  | cons segment rest ih =>
    have hchild := h.child? hleads
    rw [List.map_cons, Json.at?, Json.at?]
    generalize value.child? (Path.unescape segment) = part at hchild ⊢
    generalize value'.child? (Path.unescape segment) = part' at hchild ⊢
    cases hchild with
    | none => exact .none
    | some hpart =>
      obtain ⟨next, hcounterpart, hrest⟩ := hpart
      exact ih hcounterpart hrest

end Counterpart

/-! ## Values that say nothing of a dialect -/

/-- Whether a member of a schema says nothing of the hosts of the dialects if it is an address,
and is in keeping with the reading. -/
def isNeutralUnder (reading : Reading) (key : String) (value : Json) : Bool :=
  !holdsAddress key ||
    value.text?.all fun text => Namespace.isNeutral text.toList && reading.admits text

mutual

/-- Whether no schema in a value says anything of the hosts of the dialects. -/
def isForeign (reading : Reading) : Json → Bool
  | array items => areForeign reading.item items
  | object members => haveForeign reading members
  | _ => true

/-- Whether no schema among the items says anything of the hosts of the dialects. -/
def areForeign (reading : Reading) : List Json → Bool
  | [] => true
  | item :: rest => isForeign reading item && areForeign reading rest

/-- Whether no schema in the members of an object says anything of the hosts of the dialects,
nor the object itself if it is one. -/
def haveForeign (reading : Reading) : List (String × Json) → Bool
  | [] => true
  | (key, value) :: rest => (!reading.isSchema || isNeutralUnder reading key value) &&
    isForeign (reading.below key) value && haveForeign reading rest

end

theorem haveForeign_eq_all (members : List (String × Json)) :
    haveForeign reading members = members.all fun member =>
      (!reading.isSchema || isNeutralUnder reading member.1 member.2) &&
        isForeign (reading.below member.1) member.2 := by
  induction members with
  | nil => rfl
  | cons member rest ih => rw [haveForeign, ih, List.all_cons]

theorem isNeutral_of_isNeutralUnder {key text : String} (hkey : holdsAddress key = true)
    (h : isNeutralUnder reading key (.string text) = true) :
    Namespace.isNeutral text.toList = true ∧ reading.admits text = true := by
  rw [isNeutralUnder, hkey] at h
  simpa [text?] using h

theorem holdsAddress_of_namesResource {key : String} (h : namesResource key = true) :
    holdsAddress key = true := by
  simp only [namesResource, holdsAddress, List.contains_eq_mem, decide_eq_true_eq, List.mem_cons,
    List.not_mem_nil, or_false] at h ⊢
  tauto

theorem exchangeUnder_of_neutral {key text : String}
    (h : (!reading.isSchema || isNeutralUnder reading key (.string text)) = true) :
    exchangeUnder reading key (.string text) = .string text := by
  rw [exchangeUnder]
  split_ifs with hnames
  · rw [Bool.and_eq_true] at hnames
    rw [hnames.1, Bool.not_true, Bool.false_or] at h
    have hneutral := isNeutral_of_isNeutralUnder (holdsAddress_of_namesResource hnames.2) h
    rw [Namespace.exchangeText_of_isNeutral hneutral.1]
  · rfl

mutual

theorem exchange_of_foreign (reading : Reading) : ∀ value : Json, value.isForeign reading = true →
    value.exchange reading = value
  | array items, h => by
    rw [isForeign] at h
    rw [exchange, exchangeItems_of_foreign _ items h]
  | object members, h => by
    rw [isForeign] at h
    rw [exchange, exchangeMembers_of_foreign _ members h]
  | null, _ | bool _, _ | number _, _ | string _, _ => rfl

theorem exchangeItems_of_foreign (reading : Reading) : ∀ items : List Json,
    areForeign reading items = true → exchangeItems reading items = items
  | [], _ => rfl
  | item :: rest, h => by
    rw [areForeign, Bool.and_eq_true] at h
    rw [exchangeItems, exchange_of_foreign _ item h.1, exchangeItems_of_foreign _ rest h.2]

theorem exchangeMembers_of_foreign (reading : Reading) : ∀ members : List (String × Json),
    haveForeign reading members = true → exchangeMembers reading members = members
  | [], _ => rfl
  | (key, value) :: rest, h => by
    rw [haveForeign, Bool.and_eq_true, Bool.and_eq_true] at h
    rw [exchangeMembers, exchangeMembers_of_foreign _ rest h.2]
    cases value with
    | string text => rw [exchangeUnder_of_neutral h.1.1]
    | array items =>
      have hsame := exchange_of_foreign _ (array items) h.1.2
      rw [exchange] at hsame
      rw [exchangeUnder, hsame]
    | object members =>
      have hsame := exchange_of_foreign _ (object members) h.1.2
      rw [exchange] at hsame
      rw [exchangeUnder, hsame]
    | _ => rfl

end

mutual

/-- A dialect can deal with what says nothing of it. -/
theorem fits_of_foreign (reading : Reading) : ∀ value : Json, value.isForeign reading = true →
    value.Fits ns reading
  | array items, h => .array (fits_of_areForeign _ items h)
  | object members, h => by
    have hall := h
    rw [isForeign, haveForeign_eq_all, List.all_eq_true] at hall
    refine .object (fun hschema key value hmem => ?_) (fits_of_haveForeign _ members h)
    have hmember := hall _ hmem
    rw [Bool.and_eq_true] at hmember
    refine ⟨fun hkey text heq => ?_, fun _ => exchange_of_foreign _ value hmember.2⟩
    obtain rfl := heq
    have hunder := exchangeUnder_of_neutral hmember.1
    rw [hschema, Bool.not_true, Bool.false_or] at hmember
    obtain ⟨hneutral, hadmits⟩ := isNeutral_of_isNeutralUnder hkey hmember.1
    rw [Namespace.exchangeText_of_isNeutral hneutral]
    exact ⟨.neutral hneutral, hadmits, hunder⟩
  | null, _ => .null
  | bool b, _ => .bool b
  | number n, _ => .number n
  | string text, _ => .string text

theorem fits_of_areForeign (reading : Reading) : ∀ items : List Json, areForeign reading items = true →
    ∀ item ∈ items, item.Fits ns reading
  | [], _ => nofun
  | first :: rest, h => by
    rw [areForeign, Bool.and_eq_true] at h
    exact List.forall_mem_cons.2 ⟨fits_of_foreign _ first h.1, fits_of_areForeign _ rest h.2⟩

theorem fits_of_haveForeign (reading : Reading) : ∀ members : List (String × Json),
    haveForeign reading members = true →
      ∀ key value, (key, value) ∈ members → value.Fits ns (reading.below key)
  | [], _ => nofun
  | (first, part) :: rest, h => by
    rw [haveForeign, Bool.and_eq_true, Bool.and_eq_true] at h
    intro key value hmem
    rcases List.mem_cons.1 hmem with heq | hmem
    · cases heq
      exact fits_of_foreign _ part h.1.2
    · exact fits_of_haveForeign _ rest h.2 key value hmem

end

end Json

namespace JsonSchema.Draft

open Json

variable {ns : Namespace} {reading : Reading} {value value' : Json}

/-! ## What drafts read off a value -/

theorem detect_alike (h : Alike reading value value') (draft : Draft) :
    draft.detect value' = draft.detect value := by
  have hplain : namesResource "$schema" = false := rfl
  rw [detect, detect, h.get?]
  cases value.get? "$schema" with
  | none => rfl
  | some part =>
    rw [Option.map_some, exchangeUnder_of_plain hplain]
    cases part <;> rfl

theorem holdsAddress_idKeyword (draft : Draft) : holdsAddress draft.idKeyword = true := by
  cases draft <;> rfl

theorem head?_exchangeText {text : String} (h : ns.Knows text) :
    ((exchangeText text).toList.head? = some '#' ↔ text.toList.head? = some '#') ∧
      (text.toList.head? = some '#' → exchangeText text = text) := by
  cases h with
  | own name =>
    rw [Namespace.exchangeText_resourceId, Namespace.head?_resourceId, Namespace.head?_resourceId]
    exact ⟨Iff.rfl, fun heq => absurd heq (by decide)⟩
  | neutral h =>
    rw [Namespace.exchangeText_of_isNeutral h]
    exact ⟨Iff.rfl, fun _ => rfl⟩

/-- Number signs at the end say nothing of a dialect. -/
theorem trimMarks_exchangeText {text : String} (h : ns.Knows text) :
    ns.Knows (trimMarks text) ∧ trimMarks (exchangeText text) = exchangeText (trimMarks text) := by
  cases h with
  | own name =>
    have hsame (ns : Namespace) : trimMarks (ns.resourceId name) = ns.resourceId name := by
      have hkept : (ns.resourceId name).toList.rdropWhile (· = '#') = (ns.resourceId name).toList :=
        List.rdropWhile_eq_self_iff.2 fun hne hlast => by
          have hmark := Namespace.mark_resourceId ns name
          exact hmark (of_decide_eq_true hlast ▸ List.getLast_mem hne)
      rw [trimMarks]
      exact (congrArg String.ofList hkept).trans String.ofList_toList
    rw [Namespace.exchangeText_resourceId, hsame, hsame, Namespace.exchangeText_resourceId]
    exact ⟨.own name, rfl⟩
  | neutral h =>
    have hneutral : Namespace.isNeutral (trimMarks text).toList = true := by
      obtain ⟨more, hmore⟩ := List.rdropWhile_prefix (· = '#') text.toList
      rw [trimMarks, String.toList_ofList]
      rw [← hmore] at h
      exact Namespace.isNeutral_of_append h
    rw [Namespace.exchangeText_of_isNeutral h, Namespace.exchangeText_of_isNeutral hneutral]
    exact ⟨.neutral hneutral, rfl⟩

theorem idOf?_exchange (h : value.Fits ns reading) (hschema : reading.isSchema = true) (draft : Draft) :
    (∀ id, draft.idOf? value = some id → ns.Knows id) ∧
      draft.idOf? (value.exchange reading) = (draft.idOf? value).map exchangeText := by
  have hhas : ((value.exchange reading).get? "$ref").isSome = (value.get? "$ref").isSome := by
    rw [get?_exchange, Option.isSome_map]
  rw [idOf?, idOf?, hhas]
  cases hget : value.get? draft.idKeyword with
  | none =>
    rw [get?_exchange, hget]
    exact ⟨nofun, rfl⟩
  | some part =>
    cases part with
    | string text =>
      obtain ⟨hknows, hother⟩ := h.text hschema (holdsAddress_idKeyword draft) hget
      obtain ⟨hknows', htrim⟩ := trimMarks_exchangeText hknows
      simp only [hother, (head?_exchangeText hknows).1, htrim]
      split_ifs
      · exact ⟨nofun, rfl⟩
      · exact ⟨fun id hid => Option.some.inj hid ▸ hknows', rfl⟩
      · exact ⟨fun id hid => Option.some.inj hid ▸ hknows', rfl⟩
    | _ =>
      rw [get?_exchange, hget]
      exact ⟨nofun, rfl⟩

theorem anchorsOf_exchange (h : value.Fits ns reading) (hschema : reading.isSchema = true)
    (draft : Draft) : draft.anchorsOf (value.exchange reading) = draft.anchorsOf value := by
  have hplain (keyword : String) (hkeyword : namesResource keyword = false) :
      (value.exchange reading).get? keyword =
        (value.get? keyword).map (exchange (reading.below keyword)) := by
    rw [get?_exchange, funext (exchangeUnder_of_plain hkeyword)]
  unfold anchorsOf
  dsimp only
  rw [hplain "$anchor" rfl, hplain "$dynamicAnchor" rfl]
  refine if_congr Iff.rfl ?_ (if_congr Iff.rfl ?_ (congrArg₂ _ ?_ ?_))
  · cases hget : value.get? draft.idKeyword with
    | none => rw [get?_exchange, hget, Option.map_none]
    | some part =>
      cases part with
      | string text =>
        obtain ⟨hknows, hother⟩ := h.text hschema (holdsAddress_idKeyword draft) hget
        obtain ⟨hiff, hsame⟩ := head?_exchangeText hknows
        simp only [hother]
        by_cases hmark : text.toList.head? = some '#'
        · rw [hsame hmark]
        · split
          · next heq => exact absurd (hiff.1 (by rw [heq]; rfl)) hmark
          · split
            · next heq => exact absurd (by rw [heq]; rfl) hmark
            · rfl
      | _ =>
        rw [get?_exchange, hget]
        rfl
  · cases value.get? "$anchor" with
    | none => rfl
    | some part => cases part <;> rfl
  · cases value.get? "$anchor" with
    | none => rfl
    | some part => cases part <;> rfl
  · cases value.get? "$dynamicAnchor" with
    | none => rfl
    | some part => cases part <;> rfl

/-- What is held in a value, if the schemas there are read as the schema around it is. -/
theorem heldBy_counterpart {around : Reading} {holding : Holding}
    (hholds : reading.Holds around holding)
    (hitem : around.item = around) (h : value.Fits ns reading) :
    List.Forall₂ (Counterpart ns around) (heldBy holding value) (heldBy holding (value.exchange reading)) := by
  have hitems {items : List Json} (hfits : (array items).Fits ns reading)
      (heq : reading.item = around) :
      List.Forall₂ (Counterpart ns around) items (exchangeItems reading.item items) := by
    have hparts := Counterpart.items hfits
    rwa [heq] at hparts ⊢
  have hmembers {members : List (String × Json)} (hfits : (object members).Fits ns reading)
      (heq : ∀ key, reading.below key = around) :
      List.Forall₂ (Counterpart ns around) (members.map (·.2))
        ((exchangeMembers reading members).map (·.2)) := by
    rw [List.forall₂_map_left_iff, List.forall₂_map_right_iff]
    exact (Counterpart.members hfits).imp fun member member' hmember => heq member.1 ▸ hmember.2
  cases holding with
  | schema =>
    obtain rfl : reading = around := hholds
    exact .cons (.exchanged h) .nil
  | schemaArray =>
    cases value with
    | array items => exact hitems h hholds.1
    | _ => exact .nil
  | schemaMap =>
    cases value with
    | object members => exact hmembers h hholds.2
    | _ => exact .nil
  | schemaOrArray =>
    obtain rfl : reading = around := hholds
    cases value with
    | array items => exact hitems h hitem
    | _ => exact .cons (.exchanged h) .nil
  | mixedMap =>
    cases value with
    | object members =>
      have hparts := hmembers h hholds.2
      rw [exchange, heldBy, heldBy]
      generalize members.map (·.2) = parts at hparts ⊢
      generalize (exchangeMembers reading members).map (·.2) = parts' at hparts ⊢
      induction hparts with
      | nil => exact .nil
      | @cons part part' _ _ hpart _ ih =>
        obtain ⟨hfits, halike⟩ := hpart
        cases halike with
        | text s t => exact ih
        | exchanged =>
          cases part with
          | object members => exact .cons (.exchanged hfits) ih
          | _ => exact ih
    | _ => exact .nil

theorem namesResource_of_holding? {draft : Draft} {keyword : String} {holding : Holding}
    (h : draft.holding? keyword = some holding) : namesResource keyword = false := by
  by_contra hnames
  simp only [namesResource, Bool.not_eq_false, List.contains_eq_mem, List.mem_cons,
    List.not_mem_nil, or_false, decide_eq_true_eq] at hnames
  rcases hnames with rfl | rfl
  · cases draft <;> cases h
  · cases draft <;> cases h

/-- The schemas inside a schema have their counterparts in the other dialect. -/
theorem subschemas_counterpart (h : Counterpart ns reading value value')
    (hschema : reading.isSchema = true) (draft : Draft) :
    List.Forall₂ (Counterpart ns reading) (draft.subschemas value) (draft.subschemas value') := by
  have hitem : reading.item = reading := Reading.item_of_isSchema hschema
  obtain ⟨hfits, halike⟩ := h
  cases halike with
  | text s t => exact .nil
  | exchanged =>
    cases value with
    | object members =>
      have hmembers : ∀ member ∈ members, member.2.Fits ns (reading.below member.1) :=
        fun member hmember => hfits.member hmember
      rw [exchange, subschemas, subschemas]
      clear hfits
      induction members with
      | nil => exact .nil
      | cons member rest ih =>
        obtain ⟨keyword, value⟩ := member
        rw [exchangeMembers, List.flatMap_cons, List.flatMap_cons]
        refine List.rel_append ?_ (ih fun member hmember => hmembers member (List.mem_cons_of_mem _ hmember))
        dsimp only
        cases hholding : draft.holding? keyword with
        | none => exact .nil
        | some holding =>
          rw [exchangeUnder_of_plain (namesResource_of_holding? hholding)]
          exact heldBy_counterpart (Reading.holds_of_holding? hschema hholding) hitem
            (hmembers _ List.mem_cons_self)
    | _ => exact .nil

end JsonSchema.Draft

end ApiContract
