import ApiContract.Json.Pointer
import ApiContract.Proofs.Entries
/-!
# Values in key order

Every reader of the project builds the members of an object in key order.
`Json.Ordered` says so of a value and of everything inside it.

`Json.induction_size` is the induction that the proofs about values use; the
items of an array and the members of an object are smaller than the whole.
-/

namespace ApiContract.Json

/-! ## Going through a value -/

theorem size_lt_of_mem_items {item : Json} {items : List Json} (h : item ∈ items) :
    item.size < (array items).size := by
  have hsum : item.size ≤ sizeItems items := by
    induction items with
    | nil => simp at h
    | cons head rest ih =>
      rw [sizeItems]
      rcases List.mem_cons.1 h with rfl | h
      · omega
      · have := ih h
        omega
  rw [size]
  omega

theorem size_lt_of_mem_members {key : String} {value : Json} {members : List (String × Json)}
    (h : (key, value) ∈ members) : value.size < (object members).size := by
  have hsum : value.size ≤ sizeMembers members := by
    induction members with
    | nil => simp at h
    | cons head rest ih =>
      obtain ⟨k, v⟩ := head
      rw [sizeMembers]
      rcases List.mem_cons.1 h with heq | h
      · cases heq
        omega
      · have := ih h
        omega
  rw [size]
  omega

/-- What passes from the smaller values to a value holds of all values. -/
theorem induction_size {P : Json → Prop}
    (h : ∀ value, (∀ part, part.size < value.size → P part) → P value) (value : Json) : P value :=
  h value fun part _ => induction_size h part
termination_by value.size

/-! ## Identity -/

theorem equalItems_iff {items : List Json}
    (h : ∀ item ∈ items, ∀ other, item.identical other = true ↔ item = other) (others : List Json) :
    equalItems (fun m n => m = n) items others = true ↔ items = others := by
  induction items generalizing others with
  | nil => cases others <;> simp [equalItems]
  | cons item items ih =>
    have hfirst := h item List.mem_cons_self
    simp only [identical] at hfirst
    cases others with
    | nil => simp [equalItems]
    | cons other others =>
      simp [equalItems, hfirst, ih (fun item hitem => h item (List.mem_cons_of_mem _ hitem))]

theorem equalMembers_iff {members : List (String × Json)}
    (h : ∀ key value, (key, value) ∈ members → ∀ other, value.identical other = true ↔ value = other)
    (others : List (String × Json)) :
    equalMembers (fun m n => m = n) members others = true ↔ members = others := by
  induction members generalizing others with
  | nil => cases others <;> simp [equalMembers]
  | cons member members ih =>
    obtain ⟨key, value⟩ := member
    have hfirst := h key value List.mem_cons_self
    simp only [identical] at hfirst
    cases others with
    | nil => simp [equalMembers]
    | cons other others =>
      simp [equalMembers, hfirst, Prod.ext_iff,
        ih (fun key value hmember => h key value (List.mem_cons_of_mem _ hmember))]

theorem identical_iff {a b : Json} : a.identical b = true ↔ a = b := by
  induction a using induction_size generalizing b with
  | h a ih =>
  cases a with
  | array items =>
    cases b with
    | array others =>
      have := equalItems_iff (fun item hitem other => @ih item (size_lt_of_mem_items hitem) other)
        others
      simpa [identical, equalBy] using this
    | _ => simp [identical, equalBy]
  | object members =>
    cases b with
    | object others =>
      have := equalMembers_iff
        (fun key value hmember other => @ih value (size_lt_of_mem_members hmember) other) others
      simpa [identical, equalBy] using this
    | _ => simp [identical, equalBy]
  | _ => cases b <;> simp [identical, equalBy]

/-! ## Key order -/

mutual

/-- The members of the value, and of all values inside it, are in key
order. -/
def Ordered : Json → Prop
  | array items => OrderedItems items
  | object members => Entries.Ordered members ∧ OrderedMembers members
  | _ => True

/-- Every item is in key order. -/
def OrderedItems : List Json → Prop
  | [] => True
  | item :: rest => Ordered item ∧ OrderedItems rest

/-- The values of the members are in key order. -/
def OrderedMembers : List (String × Json) → Prop
  | [] => True
  | (_, value) :: rest => Ordered value ∧ OrderedMembers rest

end

mutual

/-- Key order can be checked. -/
def decideOrdered : (value : Json) → Decidable value.Ordered
  | null => isTrue trivial
  | bool _ => isTrue trivial
  | number _ => isTrue trivial
  | string _ => isTrue trivial
  | array items => decideOrderedItems items
  | object members =>
    have := decideOrderedMembers members
    inferInstanceAs (Decidable (List.Pairwise _ members ∧ OrderedMembers members))

/-- Key order can be checked of items. -/
def decideOrderedItems : (items : List Json) → Decidable (OrderedItems items)
  | [] => isTrue trivial
  | item :: rest =>
    have := decideOrdered item
    have := decideOrderedItems rest
    inferInstanceAs (Decidable (Ordered item ∧ OrderedItems rest))

/-- Key order can be checked of the values of members. -/
def decideOrderedMembers : (members : List (String × Json)) → Decidable (OrderedMembers members)
  | [] => isTrue trivial
  | (_, value) :: rest =>
    have := decideOrdered value
    have := decideOrderedMembers rest
    inferInstanceAs (Decidable (Ordered value ∧ OrderedMembers rest))

end

instance : DecidablePred Ordered := decideOrdered

theorem orderedItems_iff {items : List Json} :
    OrderedItems items ↔ ∀ item ∈ items, Ordered item := by
  induction items with
  | nil => simp [OrderedItems]
  | cons item rest ih => simp [OrderedItems, ih]

theorem orderedMembers_iff {members : List (String × Json)} :
    OrderedMembers members ↔ ∀ key value, (key, value) ∈ members → Ordered value := by
  induction members with
  | nil => simp [OrderedMembers]
  | cons member rest ih =>
    obtain ⟨k, v⟩ := member
    rw [OrderedMembers, ih]
    constructor
    · rintro ⟨hv, hrest⟩ key value hmem
      rcases List.mem_cons.1 hmem with heq | hmem
      · cases heq
        exact hv
      · exact hrest key value hmem
    · intro h
      exact ⟨h k v List.mem_cons_self, fun key value hmem =>
        h key value (List.mem_cons_of_mem _ hmem)⟩

theorem ordered_array {items : List Json} :
    Ordered (array items) ↔ ∀ item ∈ items, Ordered item := by
  rw [Ordered, orderedItems_iff]

theorem ordered_object {members : List (String × Json)} :
    Ordered (object members) ↔
      Entries.Ordered members ∧ ∀ key value, (key, value) ∈ members → Ordered value := by
  rw [Ordered, orderedMembers_iff]

/-! ## Members -/

theorem get?_eq_some {value part : Json} {key : String} (h : value.get? key = some part) :
    ∃ members, value = object members ∧ Entries.get? members key = some part := by
  cases value with
  | object members => exact ⟨members, rfl, h⟩
  | _ => cases h

theorem Ordered.of_get? {value part : Json} {key : String} (h : value.Ordered)
    (hget : value.get? key = some part) : part.Ordered := by
  obtain ⟨members, rfl, hmem⟩ := get?_eq_some hget
  exact (ordered_object.1 h).2 key part (Entries.mem_of_get?_eq_some hmem)

theorem Ordered.of_child? {value part : Json} {segment : String} (h : value.Ordered)
    (hchild : value.child? segment = some part) : part.Ordered := by
  cases value with
  | object members =>
    exact (ordered_object.1 h).2 segment part (Entries.mem_of_get?_eq_some hchild)
  | array items =>
    obtain ⟨index, -, hitem⟩ := Option.bind_eq_some_iff.1 hchild
    exact ordered_array.1 h part (List.mem_of_getElem? hitem)
  | _ => cases hchild

theorem Ordered.of_at? {value part : Json} {path : Path} (h : value.Ordered)
    (hpart : value.at? path = some part) : part.Ordered := by
  induction path generalizing value with
  | nil =>
    cases hpart
    exact h
  | cons segment rest ih =>
    obtain ⟨next, hnext, hrest⟩ := Option.bind_eq_some_iff.1 hpart
    exact ih (h.of_child? hnext) hrest

end ApiContract.Json
