/-!
# Maps in key order

A map from text to values is the list of its entries in the byte order of
the keys, which is the order of `String`, each key once.  `insert` keeps
that order, and `ofList` builds such a list from entries in any order, a
later entry replacing an earlier one of the same key.
-/

namespace ApiContract

/-- A map from text to values, as its entries in key order. -/
abbrev Entries (α : Type) : Type := List (String × α)

namespace Entries

variable {α β : Type}

/-- The value under a key. -/
def get? (entries : Entries α) (key : String) : Option α := entries.lookup key

/-- Whether a key has a value. -/
def has (entries : Entries α) (key : String) : Bool := (entries.get? key).isSome

/-- The keys, in order. -/
def keys (entries : Entries α) : List String := entries.map (·.1)

/-- The map with `value` under `key`, whatever was there before. -/
def insert (entries : Entries α) (key : String) (value : α) : Entries α :=
  match entries with
  | [] => [(key, value)]
  | (k, v) :: rest =>
    if key < k then (key, value) :: (k, v) :: rest
    else if key = k then (key, value) :: rest
    else (k, v) :: insert rest key value

/-- The map of the given entries; of two with one key the later counts. -/
def ofList (entries : List (String × α)) : Entries α :=
  entries.foldl (fun built entry => built.insert entry.1 entry.2) []

/-- The keys are in strictly ascending order. -/
def Ordered (entries : Entries α) : Prop := entries.Pairwise fun a b => a.1 < b.1

@[simp] theorem get?_nil (key : String) : get? ([] : Entries α) key = none := rfl

theorem get?_cons (key k : String) (v : α) (rest : Entries α) :
    get? ((k, v) :: rest) key = if key = k then some v else get? rest key := by
  by_cases h : key = k
  · simp [get?, h]
  · simp [get?, List.lookup_cons, h, beq_eq_false_iff_ne.2 h]

theorem get?_insert_self (entries : Entries α) (key : String) (value : α) :
    (insert entries key value).get? key = some value := by
  induction entries with
  | nil => simp [insert, get?_cons]
  | cons entry rest ih =>
    obtain ⟨k, v⟩ := entry
    unfold insert
    split
    · simp [get?_cons]
    · split
      · simp [get?_cons]
      · next hne => simp [get?_cons, hne, ih]

theorem get?_insert_of_ne (entries : Entries α) {key other : String} (value : α)
    (h : other ≠ key) : (insert entries key value).get? other = entries.get? other := by
  induction entries with
  | nil => simp [insert, get?_cons, h]
  | cons entry rest ih =>
    obtain ⟨k, v⟩ := entry
    unfold insert
    split
    · simp [get?_cons, h]
    · split
      · next heq => simp [get?_cons, ← heq, h]
      · simp [get?_cons, ih]

end Entries

end ApiContract
