import ApiContract.Proofs.Yaml.Conversion
import ApiContract.Proofs.Yaml.Readings
import Mathlib
/-!
# What values convert to

A value converts exactly if its numbers are finite and the keys of its mappings are scalars
other than null (`Convertible`).  What it converts to is its image, node by node (`IsImage`):
scalars and the order of items stay, the pair of a mapping becomes the member under the text of
its key, and tags are dropped.

A tree that is JSON already is its own image (`IsJson`, `toJson_ofJson`).  JSON objects have no
order of their own, so the pairs of its mappings may end up in another order (`Reordered`).

The main statement is `toJson_faithful`.
-/

namespace ApiContract.Yaml

/-- The number is neither infinite nor undefined. -/
def Number.IsFinite : Number → Prop
  | .integer _ => True
  | .double _ => True
  | .infinity _ => False
  | .nan => False

/-- The number of JSON is the same one: an integer stays an integer, and a double a double. -/
inductive Number.IsImage : Number → ApiContract.Number → Prop
  | integer (n : Int) : IsImage (.integer n) (.integer n)
  | double (d : Double) : IsImage (.double d) (.double d)

namespace Value

/-- The key of a mapping is a text, a number or a boolean. -/
def IsPlainKey : Value → Prop
  | .string _ => True
  | .number _ => True
  | .bool _ => True
  | _ => False

/-- The numbers in a value are finite, and the keys of its mappings are plain.  This does not
look into keys, so a number that is a key may be infinite. -/
structure Convertible (value : Value) : Prop where
  finite : ∀ n, value.Within (.number n) → n.IsFinite
  plain : ∀ pairs key part, value.Within (.mapping pairs) → (key, part) ∈ pairs → key.IsPlainKey

/-- The image of a value, node by node. -/
inductive IsImage : Value → Json → Prop
  | null : IsImage .null .null
  | bool (b : Bool) : IsImage (.bool b) (.bool b)
  | number {n : Number} {m : ApiContract.Number} (h : n.IsImage m) : IsImage (.number n) (.number m)
  | string (s : String) : IsImage (.string s) (.string s)
  | sequence {items : List Value} {images : List Json} (h : List.Forall₂ IsImage items images) :
    IsImage (.sequence items) (.array images)
  | mapping {pairs : List (Value × Value)} {images members : List (String × Json)}
    (hkeys : List.Forall₂ (fun pair image => keyText pair.1 = .ok image.1) pairs images)
    (hvalues : List.Forall₂ (fun pair image => IsImage pair.2 image.2) pairs images)
    (hperm : members.Perm images) (hordered : Entries.Ordered members) :
    IsImage (.mapping pairs) (.object members)
  | tagged (tag : String) {value : Value} {json : Json} (h : IsImage value json) :
    IsImage (.tagged tag value) json

/-- The same tree, but for the order of the pairs in its mappings. -/
inductive Reordered : Value → Value → Prop
  | refl (value : Value) : Reordered value value
  | sequence {items others : List Value} (h : List.Forall₂ Reordered items others) :
    Reordered (.sequence items) (.sequence others)
  | mapping {pairs images others : List (Value × Value)}
    (hkeys : List.Forall₂ (fun pair image => pair.1 = image.1) pairs images)
    (hvalues : List.Forall₂ (fun pair image => Reordered pair.2 image.2) pairs images)
    (hperm : images.Perm others) : Reordered (.mapping pairs) (.mapping others)

/-- The pairs of every mapping in a value have a property. -/
def EveryMapping (P : List (Value × Value) → Prop) (value : Value) : Prop :=
  ∀ pairs, value.Within (.mapping pairs) → P pairs

/-- No two keys of a mapping are the same. -/
def DistinctKeys (pairs : List (Value × Value)) : Prop :=
  pairs.Pairwise fun pair later => later.1.same pair.1 = false

/-- The value is a tree of JSON: its numbers are finite, its keys are texts, and it has no tags. -/
structure IsJson (value : Value) : Prop where
  finite : ∀ n, value.Within (.number n) → n.IsFinite
  keys : ∀ pairs key part, value.Within (.mapping pairs) → (key, part) ∈ pairs →
    ∃ text, key = .string text
  untagged : ∀ tag part, ¬ value.Within (.tagged tag part)

mutual

/-- A tree of JSON as a value. -/
def ofJson : Json → Value
  | .null => .null
  | .bool b => .bool b
  | .number (.integer n) => .number (.integer n)
  | .number (.double d) => .number (.double d)
  | .string s => .string s
  | .array items => .sequence (ofJsonItems items)
  | .object members => .mapping (ofJsonMembers members)

/-- Item by item. -/
def ofJsonItems : List Json → List Value
  | [] => []
  | item :: rest => ofJson item :: ofJsonItems rest

/-- Member by member. -/
def ofJsonMembers : List (String × Json) → List (Value × Value)
  | [] => []
  | (name, value) :: rest => (.string name, ofJson value) :: ofJsonMembers rest

end

variable {whole value part : Value} {json : Json}

/-! ## Parts -/

theorem sizeOf_lt_of_child (h : Child whole part) : sizeOf part < sizeOf whole := by
  cases h with
  | item hitem =>
    have hlt := List.sizeOf_lt_of_mem hitem
    simp only [sequence.sizeOf_spec]
    omega
  | pair hpair =>
    have hlt := List.sizeOf_lt_of_mem hpair
    simp only [mapping.sizeOf_spec]
    simp only [Prod.mk.sizeOf_spec] at hlt
    omega
  | behind tag part =>
    simp only [tagged.sizeOf_spec]
    omega

/-- What passes from the parts of a value to the value holds of all values. -/
theorem induction_child {P : Value → Prop}
    (h : ∀ value, (∀ part, Child value part → P part) → P value) (value : Value) : P value :=
  h value fun part _ => induction_child h part
termination_by sizeOf value
decreasing_by exact sizeOf_lt_of_child ‹_›

theorem Within.of_child (hchild : Child whole value) (h : value.Within part) :
    whole.Within part :=
  Relation.ReflTransGen.head hchild h

theorem Convertible.of_child (h : whole.Convertible) (hchild : Child whole value) :
    value.Convertible where
  finite := fun n hn => h.finite n (Within.of_child hchild hn)
  plain := fun pairs key part hpairs => h.plain pairs key part (Within.of_child hchild hpairs)

theorem IsJson.of_child (h : whole.IsJson) (hchild : Child whole value) : value.IsJson where
  finite := fun n hn => h.finite n (Within.of_child hchild hn)
  keys := fun pairs key part hpairs => h.keys pairs key part (Within.of_child hchild hpairs)
  untagged := fun tag part htag => h.untagged tag part (Within.of_child hchild htag)

variable {P : List (Value × Value) → Prop}

theorem EveryMapping.of_child (h : whole.EveryMapping P) (hchild : Child whole value) :
    value.EveryMapping P :=
  fun pairs hpairs => h pairs (Within.of_child hchild hpairs)

/-- It is enough to look at the value itself and at its parts. -/
theorem everyMapping_of_children (hself : ∀ pairs, value = .mapping pairs → P pairs)
    (hparts : ∀ part, Child value part → part.EveryMapping P) : value.EveryMapping P := by
  intro pairs hpairs
  rcases Relation.ReflTransGen.cases_head hpairs with heq | ⟨part, hchild, hwithin⟩
  · exact hself pairs heq
  · exact hparts part hchild pairs hwithin

theorem everyMapping_of_atom (atom : Atom) : (ofAtom atom).EveryMapping P := by
  apply everyMapping_of_children
  · intro pairs heq
    cases atom <;> cases heq
  · intro part hchild
    cases atom <;> cases hchild

theorem everyMapping_sequence {items : List Value} (h : ∀ item ∈ items, item.EveryMapping P) :
    (sequence items).EveryMapping P := by
  refine everyMapping_of_children nofun ?_
  rintro part (⟨hitem⟩ | _ | _)
  exact h part hitem

theorem everyMapping_mapping {pairs : List (Value × Value)} (hself : P pairs)
    (h : ∀ pair ∈ pairs, pair.2.EveryMapping P) : (mapping pairs).EveryMapping P := by
  apply everyMapping_of_children
  · rintro _ ⟨⟩
    exact hself
  · rintro part (_ | ⟨hpair⟩ | _)
    exact h _ hpair

theorem everyMapping_tagged {tag : String} (h : value.EveryMapping P) :
    (tagged tag value).EveryMapping P := by
  refine everyMapping_of_children nofun ?_
  rintro part (_ | _ | _)
  exact h

theorem IsJson.convertible (h : value.IsJson) : value.Convertible where
  finite := h.finite
  plain := by
    intro pairs key part hpairs hmem
    obtain ⟨text, rfl⟩ := h.keys pairs key part hpairs hmem
    trivial

/-! ## Success -/

theorem isPlainKey_iff {key : Value} : key.IsPlainKey ↔ ∃ text, keyText key = .ok text := by
  cases key <;> simp [IsPlainKey, keyText]

theorem exists_toJson (h : value.Convertible) : ∃ json, value.toJson = .ok json := by
  induction value using induction_child with
  | h value ih =>
  cases value with
  | null => exact ⟨.null, rfl⟩
  | bool b => exact ⟨.bool b, rfl⟩
  | number n =>
    have hfinite := h.finite n .refl
    cases n with
    | integer n => exact ⟨.number (.integer n), rfl⟩
    | double d => exact ⟨.number (.double d), rfl⟩
    | infinity negative => exact hfinite.elim
    | nan => exact hfinite.elim
  | string s => exact ⟨.string s, rfl⟩
  | sequence items =>
    have hitems : ∀ item ∈ items, ∃ image, item.toJson = .ok image := fun item hitem =>
      ih item (.item hitem) (h.of_child (.item hitem))
    obtain ⟨images, himages⟩ := exists_forall₂ hitems
    exact ⟨.array images, toJson_sequence.2 ⟨images, himages, rfl⟩⟩
  | mapping pairs =>
    have hpairs : ∀ pair ∈ pairs, ∃ member, BecomesMember pair member := by
      rintro ⟨key, part⟩ hpair
      obtain ⟨text, htext⟩ := isPlainKey_iff.1 (h.plain pairs key part .refl hpair)
      obtain ⟨image, himage⟩ := ih part (.pair hpair) (h.of_child (.pair hpair))
      exact ⟨(text, image), htext, himage⟩
    obtain ⟨images, himages⟩ := exists_forall₂ hpairs
    exact ⟨.object (Entries.ofList images), toJson_mapping.2 ⟨images, himages, rfl⟩⟩
  | tagged tag part => exact ih part (.behind tag part) (h.of_child (.behind tag part))

/-- The values that convert are those with finite numbers and plain keys. -/
theorem exists_toJson_iff : (∃ json, value.toJson = .ok json) ↔ value.Convertible := by
  constructor
  · rintro ⟨json, hjson⟩
    constructor
    · intro n hn
      obtain ⟨image, himage⟩ := exists_toJson_of_within hjson hn
      cases n with
      | integer n => trivial
      | double d => trivial
      | infinity negative => cases himage
      | nan => cases himage
    · intro pairs key part hpairs hmem
      obtain ⟨image, himage⟩ := exists_toJson_of_within hjson hpairs
      obtain ⟨images, himages, -⟩ := toJson_mapping.1 himage
      obtain ⟨member, -, hmember⟩ := exists_mem_of_forall₂_left himages hmem
      exact isPlainKey_iff.2 ⟨member.1, hmember.1⟩
  · exact exists_toJson

/-! ## Images -/

/-- What a value converts to is its image, as long as no pair takes the place of another. -/
theorem isImage_of_toJson (h : value.toJson = .ok json)
    (hdistinct : value.EveryMapping DistinctTexts) :
    value.IsImage json := by
  induction value using induction_child generalizing json with
  | h value ih =>
  have hpart {part : Value} {image : Json} (hchild : Child value part)
      (himage : part.toJson = .ok image) : part.IsImage image :=
    ih part hchild himage fun pairs hpairs => hdistinct pairs (Within.of_child hchild hpairs)
  cases value with
  | null =>
    cases h
    exact .null
  | bool b =>
    cases h
    exact .bool b
  | number n =>
    cases n with
    | integer n =>
      cases h
      exact .number (.integer n)
    | double d =>
      cases h
      exact .number (.double d)
    | infinity negative => cases h
    | nan => cases h
  | string s =>
    cases h
    exact .string s
  | sequence items =>
    obtain ⟨images, himages, rfl⟩ := toJson_sequence.1 h
    exact .sequence (forall₂_imp_of_mem himages fun item hitem image => hpart (.item hitem))
  | mapping pairs =>
    obtain ⟨images, himages, rfl⟩ := toJson_mapping.1 h
    have hvalues : List.Forall₂ (fun pair image => IsImage pair.2 image.2) pairs images :=
      forall₂_imp_of_mem himages fun pair hpair image hmember => hpart (.pair hpair) hmember.2
    have hkept := (perm_members_iff himages).2 (hdistinct pairs .refl)
    exact .mapping (himages.imp fun pair image hmember => hmember.1) hvalues hkept
      (Entries.ordered_ofList images)
  | tagged tag part => exact .tagged tag (hpart (.behind tag part) h)

/-! ## Trees of JSON -/

theorem ofJsonItems_eq_map (items : List Json) : ofJsonItems items = items.map ofJson := by
  induction items with
  | nil => rfl
  | cons item rest ih => rw [ofJsonItems, ih, List.map_cons]

theorem ofJsonMembers_eq_map (members : List (String × Json)) :
    ofJsonMembers members = members.map fun member => (.string member.1, ofJson member.2) := by
  induction members with
  | nil => rfl
  | cons member rest ih => rw [ofJsonMembers, ih, List.map_cons]

/-- A tree of JSON in key order converts to itself. -/
theorem toJson_ofJson (h : json.Ordered) : (ofJson json).toJson = .ok json := by
  induction json using Json.induction_size with
  | h json ih =>
  cases json with
  | number n => cases n <;> rfl
  | array items =>
    rw [ofJson, ofJsonItems_eq_map, toJson_sequence]
    refine ⟨items, ?_, rfl⟩
    rw [List.forall₂_map_left_iff, List.forall₂_same]
    intro item hitem
    exact ih item (Json.size_lt_of_mem_items hitem) (Json.ordered_array.1 h item hitem)
  | object members =>
    obtain ⟨hordered, hvalues⟩ := Json.ordered_object.1 h
    rw [ofJson, ofJsonMembers_eq_map, toJson_mapping]
    refine ⟨members, ?_, by rw [hordered.ofList_eq]⟩
    rw [List.forall₂_map_left_iff, List.forall₂_same]
    rintro ⟨name, part⟩ hmember
    exact ⟨rfl, ih part (Json.size_lt_of_mem_members hmember) (hvalues name part hmember)⟩
  | _ => rfl

/-- Different texts as keys are different texts. -/
theorem distinctTexts_of_distinctKeys {pairs : List (Value × Value)} (h : DistinctKeys pairs)
    (hkeys : ∀ key part, (key, part) ∈ pairs → ∃ text, key = .string text) :
    DistinctTexts pairs := by
  rw [DistinctTexts, List.Nodup, List.pairwise_map]
  refine List.Pairwise.imp_of_mem ?_ h
  rintro ⟨key, part⟩ ⟨other, part'⟩ hmem hmem' hdistinct heq
  obtain ⟨text, rfl⟩ := hkeys key part hmem
  obtain ⟨text', rfl⟩ := hkeys other part' hmem'
  simp only [same, beq_eq_false_iff_ne] at hdistinct
  exact hdistinct (Except.ok.inj heq).symm

/-- A tree of JSON converts to the same tree, but for the order of pairs. -/
theorem reordered_of_toJson (hjson : value.IsJson) (hkeyed : value.EveryMapping DistinctKeys)
    (h : value.toJson = .ok json) : value.Reordered (ofJson json) := by
  induction value using induction_child generalizing json with
  | h value ih =>
  have hpart {part : Value} {image : Json} (hchild : Child value part)
      (himage : part.toJson = .ok image) : part.Reordered (ofJson image) :=
    ih part hchild (hjson.of_child hchild) (hkeyed.of_child hchild) himage
  cases value with
  | number n => cases n <;> cases h <;> exact .refl _
  | sequence items =>
    obtain ⟨images, himages, rfl⟩ := toJson_sequence.1 h
    rw [ofJson, ofJsonItems_eq_map]
    apply Reordered.sequence
    rw [List.forall₂_map_right_iff]
    exact forall₂_imp_of_mem himages fun item hitem image => hpart (.item hitem)
  | mapping pairs =>
    obtain ⟨images, himages, rfl⟩ := toJson_mapping.1 h
    have hkeys := hjson.keys pairs
    have hdistinct := distinctTexts_of_distinctKeys (hkeyed pairs .refl)
      (fun key part => hkeys key part .refl)
    have hkept := (perm_members_iff himages).2 hdistinct
    rw [ofJson, ofJsonMembers_eq_map]
    have hnames : List.Forall₂ (fun pair image => pair.1 = image.1) pairs
        (images.map fun member => (string member.1, ofJson member.2)) := by
      rw [List.forall₂_map_right_iff]
      refine forall₂_imp_of_mem himages ?_
      rintro ⟨key, part⟩ hpair image hmember
      obtain ⟨text, rfl⟩ := hkeys key part .refl hpair
      rw [← Except.ok.inj hmember.1]
    have hvalues : List.Forall₂ (fun pair image => Reordered pair.2 image.2) pairs
        (images.map fun member => (string member.1, ofJson member.2)) := by
      rw [List.forall₂_map_right_iff]
      exact forall₂_imp_of_mem himages fun pair hpair image hmember => hpart (.pair hpair) hmember.2
    exact .mapping hnames hvalues (hkept.map _).symm
  | tagged tag part => exact absurd .refl (hjson.untagged tag part)
  | _ =>
    cases h
    exact .refl _

end Value

/-! ## Documents -/

namespace Document

open Value Resolving

variable {document : Document} {value : Value}

theorem distinctKeys_of_addPair {read : Bool → Node → Resolving Value} {bare : Bool}
    {nodes : List (Node × Node)} {done pairs : List (Value × Value)}
    (hread : ∀ bare node value, (read bare node).Gives value → value.EveryMapping DistinctKeys)
    (h : Gives (nodes.foldlM (addPair read bare) done) pairs)
    (hdone : DistinctKeys done.reverse) (hparts : ∀ pair ∈ done, pair.2.EveryMapping DistinctKeys) :
    DistinctKeys pairs.reverse ∧ ∀ pair ∈ pairs, pair.2.EveryMapping DistinctKeys := by
  induction nodes generalizing done with
  | nil =>
    rw [List.foldlM_nil, gives_pure] at h
    exact h ▸ ⟨hdone, hparts⟩
  | cons pair nodes ih =>
    rw [List.foldlM_cons] at h
    obtain ⟨next, hstep, hrest⟩ := gives_bind h
    obtain ⟨key, -, hstep⟩ := gives_bind hstep
    dsimp only at hstep
    split at hstep
    · obtain ⟨_, hthrow, -⟩ := gives_bind hstep
      exact absurd hthrow not_gives_throw
    · next hnew =>
      obtain ⟨value, hvalue, hstep⟩ := gives_bind hstep
      rw [gives_pure] at hstep
      subst hstep
      have hkey : ∀ pair ∈ done, key.same pair.1 = false := by
        simpa [List.any_eq_true] using hnew
      have hdistinct : DistinctKeys ((key, value) :: done).reverse := by
        rw [DistinctKeys, List.pairwise_reverse] at hdone ⊢
        exact List.pairwise_cons.2 ⟨hkey, hdone⟩
      exact ih hrest hdistinct (List.forall_mem_cons.2 ⟨hread _ _ value hvalue, hparts⟩)

theorem distinctKeys_of_contentWith {read : Option (Bool → Node → Resolving Value)} {bare : Bool}
    {node : Node} (hread : ∀ reader, read = some reader → ∀ bare node value,
      (reader bare node).Gives value → value.EveryMapping DistinctKeys)
    (h : (contentWith read bare node).Gives value) : value.EveryMapping DistinctKeys := by
  unfold contentWith at h
  split at h
  · exact absurd h not_gives_throw
  · split at h
    · next atom _ =>
      rw [gives_pure] at h
      exact h ▸ everyMapping_of_atom atom
    · exact absurd h not_gives_throw
  · next items =>
    split at h
    · exact absurd h not_gives_throw
    · next reader =>
      obtain ⟨values, hvalues, h⟩ := gives_bind h
      rw [gives_pure] at h
      have hitems : ∀ item ∈ values, item.EveryMapping DistinctKeys := by
        intro item hitem
        obtain ⟨node, hnode⟩ := exists_of_mem_mapM hvalues hitem
        exact hread reader rfl false node item hnode
      exact h ▸ everyMapping_sequence hitems
  · next nodes =>
    split at h
    · exact absurd h not_gives_throw
    · next reader =>
      obtain ⟨pairs, hpairs, h⟩ := gives_bind h
      rw [gives_pure] at h
      obtain ⟨hdistinct, hparts⟩ := distinctKeys_of_addPair (hread reader rfl) hpairs
        List.Pairwise.nil (by simp)
      refine h ▸ everyMapping_mapping hdistinct ?_
      intro pair hpair
      exact hparts pair (List.mem_reverse.1 hpair)

theorem distinctKeys_of_valueWith {read : Option (Bool → Node → Resolving Value)} {bare : Bool}
    {node : Node} (hread : ∀ reader, read = some reader → ∀ bare node value,
      (reader bare node).Gives value → value.EveryMapping DistinctKeys)
    (h : (document.valueWith read bare node).Gives value) : value.EveryMapping DistinctKeys := by
  obtain ⟨found, -, h⟩ := gives_bind h
  dsimp only at h
  obtain ⟨content, hcontent, htag⟩ := gives_bind h
  have hkeyed := distinctKeys_of_contentWith hread hcontent
  split at htag
  · rw [gives_pure] at htag
    exact htag ▸ everyMapping_tagged hkeyed
  · rw [gives_pure] at htag
    exact htag ▸ hkeyed

theorem distinctKeys_of_valueWithin {depth : Nat} {bare : Bool} {node : Node}
    (h : (document.valueWithin depth bare node).Gives value) : value.EveryMapping DistinctKeys := by
  induction depth generalizing bare node value with
  | zero =>
    refine distinctKeys_of_valueWith ?_ h
    intro reader heq
    cases heq
  | succ depth ih =>
    refine distinctKeys_of_valueWith ?_ h
    rintro _ ⟨⟩ bare node value hvalue
    exact ih hvalue

/-- No mapping in the value of a text has a key twice. -/
theorem distinctKeys_of_ofText {text : String} (h : Value.ofText text = .ok value) :
    value.EveryMapping DistinctKeys := by
  obtain ⟨document, -, h⟩ := bind_eq_ok.1 h
  unfold Document.value at h
  split at h
  · cases h
    exact everyMapping_of_atom .null
  · exact distinctKeys_of_valueWithin (gives_of_run h)

end Document

/-! ## Conversion -/

namespace Value

/-- A value converts if its numbers are finite and its keys plain, and only then.  It converts
to its image unless two keys of a mapping have the same text, and a tree of JSON to itself. -/
theorem toJson_faithful :
    (∀ value : Value, (∃ json, value.toJson = .ok json) ↔ value.Convertible) ∧
    (∀ (value : Value) (json : Json), value.toJson = .ok json →
      value.EveryMapping DistinctTexts → value.IsImage json) ∧
    (∀ value : Value, value.IsJson → value.EveryMapping DistinctKeys →
      ∃ json, value.toJson = .ok json ∧ value.Reordered (ofJson json)) ∧
    (∀ json : Json, json.Ordered → (ofJson json).toJson = .ok json) ∧
    ∀ (text : String) (value : Value), ofText text = .ok value →
      value.EveryMapping DistinctKeys := by
  refine ⟨fun value => exists_toJson_iff, ?_, ?_, ?_, ?_⟩
  · intro value json hjson hdistinct
    exact isImage_of_toJson hjson hdistinct
  · intro value htree hkeys
    obtain ⟨json, hjson⟩ := exists_toJson htree.convertible
    exact ⟨json, hjson, reordered_of_toJson htree hkeys hjson⟩
  · intro json hordered
    exact toJson_ofJson hordered
  · intro text value htext
    exact Document.distinctKeys_of_ofText htext

/-- A value with tags, numbers of both kinds and a key of each kind. -/
def mixed : Value :=
  .tagged "a" (.mapping [
    (.number (.integer 1), .sequence [.null, .tagged "b" (.number (.integer (2 ^ 64 - 1)))]),
    (.bool true, .number (.double (Double.zero true))),
    (.string "1.0", .mapping [])])

/-- What it converts to. -/
def mixedJson : Json :=
  .object [("1", .array [.null, .number (.integer (2 ^ 64 - 1))]), ("1.0", .object []),
    ("true", .number (.double (Double.zero true)))]

theorem isImage_mixed : mixed.toJson = .ok mixedJson ∧ mixed.Convertible ∧
    mixed.IsImage mixedJson := by
  have hjson : mixed.toJson = .ok mixedJson := by rfl
  have hdistinct : mixed.EveryMapping DistinctTexts := by
    have hatom (atom : Atom) : (ofAtom atom).EveryMapping DistinctTexts :=
      everyMapping_of_atom atom
    apply everyMapping_tagged
    apply everyMapping_mapping
    · simp [DistinctTexts, keyText, Number.format]
      decide
    · simp only [List.forall_mem_cons]
      refine ⟨everyMapping_sequence ?_, hatom (.number _), everyMapping_mapping ?_ ?_, ?_⟩
      · simp only [List.forall_mem_cons]
        exact ⟨hatom .null, everyMapping_tagged (hatom (.number _)), by simp⟩
      · exact List.nodup_nil
      · simp
      · simp
  exact ⟨hjson, (toJson_faithful.1 mixed).1 ⟨mixedJson, hjson⟩,
    toJson_faithful.2.1 mixed mixedJson hjson hdistinct⟩

end Value

end ApiContract.Yaml
