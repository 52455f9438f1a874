import ApiContract.Entries
import Mathlib.Data.List.Induction
import Mathlib.Data.String.Basic
/-!
# Maps in key order

Lists of entries whose keys ascend.  A key occurs once in such a list, so
looking it up is the same as finding its entry (`get?_eq_some_iff`), and two
such lists with the same values under all keys are the same list
(`Ordered.ext`).  `insert` keeps the order, and so do filtering and changing
the values.
-/

namespace ApiContract.Entries

variable {α β : Type}

/-! ## Ascending keys -/

@[simp] theorem ordered_nil : Ordered ([] : Entries α) := List.Pairwise.nil

theorem ordered_cons {key : String} {value : α} {rest : Entries α} :
    Ordered ((key, value) :: rest) ↔ (∀ entry ∈ rest, key < entry.1) ∧ Ordered rest :=
  List.pairwise_cons

theorem Ordered.filter {entries : Entries α} (h : Ordered entries) (p : String × α → Bool) :
    Ordered (entries.filter p) :=
  List.Pairwise.filter p h

theorem Ordered.map_snd {entries : Entries α} (h : Ordered entries) (f : String × α → β) :
    Ordered (entries.map fun entry => (entry.1, f entry)) := by
  rw [Ordered, List.pairwise_map]
  exact h

theorem mem_insert {entries : Entries α} {key : String} {value : α} {entry : String × α}
    (h : entry ∈ insert entries key value) : entry = (key, value) ∨ entry ∈ entries := by
  induction entries with
  | nil => simpa [insert] using h
  | cons head rest ih =>
    obtain ⟨k, v⟩ := head
    unfold insert at h
    split at h
    · simpa using h
    · split at h
      · rcases List.mem_cons.1 h with h | h
        · exact Or.inl h
        · exact Or.inr (List.mem_cons_of_mem _ h)
      · rcases List.mem_cons.1 h with h | h
        · exact Or.inr (h ▸ List.mem_cons_self)
        · exact (ih h).imp_right (List.mem_cons_of_mem _)

theorem Ordered.insert {entries : Entries α} (h : Ordered entries) (key : String) (value : α) :
    Ordered (entries.insert key value) := by
  induction entries with
  | nil => exact List.pairwise_singleton _ _
  | cons head rest ih =>
    obtain ⟨k, v⟩ := head
    obtain ⟨hk, hrest⟩ := ordered_cons.1 h
    unfold Entries.insert
    split
    · next hlt =>
      refine ordered_cons.2 ⟨?_, h⟩
      intro entry hentry
      rcases List.mem_cons.1 hentry with rfl | hentry
      · exact hlt
      · exact lt_trans hlt (hk entry hentry)
    · next hge =>
      split
      · next heq => exact ordered_cons.2 ⟨heq ▸ hk, hrest⟩
      · next hne =>
        refine ordered_cons.2 ⟨?_, ih hrest⟩
        intro entry hentry
        rcases mem_insert hentry with rfl | hentry
        · exact lt_of_le_of_ne (not_lt.1 hge) (Ne.symm hne)
        · exact hk entry hentry

/-! ## Looking up -/

theorem mem_of_get?_eq_some {entries : Entries α} {key : String} {value : α}
    (h : entries.get? key = some value) : (key, value) ∈ entries := by
  induction entries with
  | nil => simp at h
  | cons head rest ih =>
    obtain ⟨k, v⟩ := head
    rw [get?_cons] at h
    split at h
    · next heq =>
      cases h
      rw [heq]
      exact List.mem_cons_self
    · exact List.mem_cons_of_mem _ (ih h)

theorem get?_eq_none_of_forall_ne {entries : Entries α} {key : String}
    (h : ∀ entry ∈ entries, entry.1 ≠ key) : entries.get? key = none := by
  cases hget : entries.get? key with
  | none => rfl
  | some value => exact absurd rfl (h _ (mem_of_get?_eq_some hget))

/-- A key that comes before all others is not among them. -/
theorem get?_eq_none_of_lt {entries : Entries α} {key : String}
    (h : ∀ entry ∈ entries, key < entry.1) : entries.get? key = none :=
  get?_eq_none_of_forall_ne fun entry hentry => (ne_of_lt (h entry hentry)).symm

theorem get?_eq_some_iff {entries : Entries α} (h : Ordered entries) {key : String} {value : α} :
    entries.get? key = some value ↔ (key, value) ∈ entries := by
  refine ⟨mem_of_get?_eq_some, ?_⟩
  intro hmem
  induction entries with
  | nil => simp at hmem
  | cons head rest ih =>
    obtain ⟨k, v⟩ := head
    obtain ⟨hk, hrest⟩ := ordered_cons.1 h
    rw [get?_cons]
    rcases List.mem_cons.1 hmem with heq | hmem
    · cases heq
      exact if_pos rfl
    · rw [if_neg (ne_of_gt (hk _ hmem))]
      exact ih hrest hmem

theorem get?_map_snd (entries : Entries α) (f : String → α → β) (key : String) :
    get? (entries.map fun entry => (entry.1, f entry.1 entry.2)) key =
      (entries.get? key).map (f key) := by
  induction entries with
  | nil => rfl
  | cons head rest ih =>
    obtain ⟨k, v⟩ := head
    simp only [List.map_cons, get?_cons, ih]
    split
    · next heq => simp [heq]
    · rfl

theorem insert_map_snd (entries : Entries α) (f : String → α → β) (key : String) (value : α) :
    (entries.insert key value).map (fun entry => (entry.1, f entry.1 entry.2)) =
      Entries.insert (entries.map fun entry => (entry.1, f entry.1 entry.2)) key (f key value) := by
  induction entries with
  | nil => rfl
  | cons entry rest ih =>
    obtain ⟨other, found⟩ := entry
    rw [List.map_cons, Entries.insert, Entries.insert]
    split_ifs
    · rfl
    · rfl
    · rw [List.map_cons, ih]

/-- Filtering keeps a value exactly if it passes the test. -/
theorem get?_filter {entries : Entries α} (h : Ordered entries) (p : String × α → Bool)
    (key : String) :
    get? (entries.filter p) key = (entries.get? key).filter fun value => p (key, value) := by
  cases hget : entries.get? key with
  | none =>
    refine get?_eq_none_of_forall_ne ?_
    intro entry hentry heq
    have hmem : (key, entry.2) ∈ entries := heq ▸ (List.mem_filter.1 hentry).1
    rw [(get?_eq_some_iff h).2 hmem] at hget
    cases hget
  | some value =>
    cases hp : p (key, value) with
    | true =>
      rw [Option.filter_some, if_pos hp]
      exact (get?_eq_some_iff (h.filter p)).2
        (List.mem_filter.2 ⟨mem_of_get?_eq_some hget, hp⟩)
    | false =>
      rw [Option.filter_some, if_neg (by simp [hp])]
      refine get?_eq_none_of_forall_ne ?_
      intro entry hentry heq
      obtain ⟨hmem, hpass⟩ := List.mem_filter.1 hentry
      have hsame : entries.get? key = some entry.2 := (get?_eq_some_iff h).2 (heq ▸ hmem)
      rw [hget] at hsame
      cases hsame
      rw [← heq] at hp
      simp [hp] at hpass

/-- What is kept of a map and changed value by value. -/
theorem get?_filterMap_snd {entries : Entries α} (h : Ordered entries) (f : α → Option β)
    (key : String) :
    get? (entries.filterMap fun entry => (f entry.2).map (entry.1, ·)) key =
      (entries.get? key).bind f := by
  induction entries with
  | nil => rfl
  | cons head rest ih =>
    obtain ⟨k, v⟩ := head
    obtain ⟨hk, hrest⟩ := ordered_cons.1 h
    rw [List.filterMap_cons, get?_cons]
    cases hf : f v with
    | none =>
      show get? (rest.filterMap _) key = _
      rw [ih hrest]
      split
      · next heq =>
        rw [get?_eq_none_of_lt (heq ▸ hk), Option.bind_some, hf]
        rfl
      · rfl
    | some b =>
      show get? ((k, b) :: rest.filterMap _) key = _
      rw [get?_cons, ih hrest]
      split
      · rw [Option.bind_some, hf]
      · rfl

theorem Ordered.filterMap_snd {entries : Entries α} (h : Ordered entries) (f : α → Option β) :
    Ordered (entries.filterMap fun entry => (f entry.2).map (entry.1, ·)) := by
  refine List.Pairwise.filterMap _ ?_ h
  intro entry entry' hlt b hb b' hb'
  obtain ⟨-, -, rfl⟩ := Option.map_eq_some_iff.1 hb
  obtain ⟨-, -, rfl⟩ := Option.map_eq_some_iff.1 hb'
  exact hlt

theorem get?_insert (entries : Entries α) (key other : String) (value : α) :
    (insert entries key value).get? other =
      if other = key then some value else entries.get? other := by
  split
  · next heq => rw [heq, get?_insert_self]
  · next hne => exact get?_insert_of_ne entries value hne

/-- Values under different keys can be put in in either order. -/
theorem insert_comm {key key' : String} (h : key ≠ key') (entries : Entries α) (value value' : α) :
    (insert entries key value).insert key' value' =
      (insert entries key' value').insert key value := by
  induction entries with
  | nil => grind [insert]
  | cons head rest ih =>
    obtain ⟨k, v⟩ := head
    grind [insert]

theorem mem_keys_iff {entries : Entries α} {key : String} :
    key ∈ entries.keys ↔ ∃ value, entries.get? key = some value := by
  induction entries with
  | nil => simp [keys]
  | cons head rest ih =>
    obtain ⟨k, v⟩ := head
    rw [keys, List.map_cons, List.mem_cons, get?_cons]
    split
    · next heq => simp [heq]
    · next hne =>
      rw [← ih, keys]
      simp [hne]

/-! ## One list for one map -/

/-- Entries in key order are determined by the values under the keys. -/
theorem Ordered.ext {a b : Entries α} (ha : Ordered a) (hb : Ordered b)
    (h : ∀ key, a.get? key = b.get? key) : a = b := by
  induction a generalizing b with
  | nil =>
    cases b with
    | nil => rfl
    | cons head' rest' =>
      obtain ⟨k', v'⟩ := head'
      have hhead := h k'
      simp [get?_cons] at hhead
  | cons head rest ih =>
    obtain ⟨k, v⟩ := head
    cases b with
    | nil =>
      have hhead := h k
      simp [get?_cons] at hhead
    | cons head' rest' =>
      obtain ⟨k', v'⟩ := head'
      obtain ⟨hk, hrest⟩ := ordered_cons.1 ha
      obtain ⟨hk', hrest'⟩ := ordered_cons.1 hb
      have hkey : k = k' := by
        rcases lt_trichotomy k k' with hlt | heq | hgt
        · have hnone := get?_eq_none_of_lt fun entry hentry => lt_trans hlt (hk' entry hentry)
          have := h k
          rw [get?_cons, get?_cons, if_pos rfl, if_neg (ne_of_lt hlt), hnone] at this
          cases this
        · exact heq
        · have hnone := get?_eq_none_of_lt fun entry hentry => lt_trans hgt (hk entry hentry)
          have := h k'
          rw [get?_cons, get?_cons, if_pos rfl, if_neg (ne_of_lt hgt), hnone] at this
          cases this
      subst hkey
      have hvalue : v = v' := by simpa [get?_cons] using h k
      subst hvalue
      congr 1
      refine ih hrest hrest' ?_
      intro key
      by_cases hkey : key = k
      · rw [hkey, get?_eq_none_of_lt hk, get?_eq_none_of_lt hk']
      · simpa [get?_cons, hkey] using h key

/-! ## Lists of entries in any order -/

theorem insert_of_forall_lt {entries : Entries α} {key : String} (value : α)
    (h : ∀ entry ∈ entries, entry.1 < key) : insert entries key value = entries ++ [(key, value)] := by
  induction entries with
  | nil => rfl
  | cons head rest ih =>
    obtain ⟨k, v⟩ := head
    have hlt : k < key := h (k, v) List.mem_cons_self
    have hrest := ih fun entry hentry => h entry (List.mem_cons_of_mem _ hentry)
    rw [Entries.insert, if_neg (lt_asymm hlt), if_neg (ne_of_gt hlt), hrest, List.cons_append]

theorem ordered_ofList (entries : List (String × α)) : Ordered (ofList entries) := by
  have hfold (built : Entries α) (h : Ordered built) :
      Ordered (entries.foldl (fun built entry => built.insert entry.1 entry.2) built) := by
    induction entries generalizing built with
    | nil => exact h
    | cons entry rest ih => exact ih _ (h.insert entry.1 entry.2)
  exact hfold [] ordered_nil

theorem foldl_insert_of_ordered (built entries : Entries α) (h : Ordered (built ++ entries)) :
    entries.foldl (fun built entry => built.insert entry.1 entry.2) built = built ++ entries := by
  induction entries generalizing built with
  | nil => exact (List.append_nil built).symm
  | cons entry rest ih =>
    obtain ⟨key, value⟩ := entry
    have hbefore : ∀ other ∈ built, other.1 < key := fun other hother =>
      (List.pairwise_append.1 h).2.2 other hother (key, value) List.mem_cons_self
    have hnext : (built ++ [(key, value)]) ++ rest = built ++ (key, value) :: rest := by
      rw [List.append_assoc, List.singleton_append]
    rw [List.foldl_cons, insert_of_forall_lt value hbefore, ih _ (hnext ▸ h), hnext]

/-- Entries in key order are all kept. -/
theorem Ordered.ofList_eq {entries : Entries α} (h : Ordered entries) : ofList entries = entries :=
  foldl_insert_of_ordered [] entries h

theorem ofList_concat (entries : List (String × α)) (key : String) (value : α) :
    ofList (entries ++ [(key, value)]) = insert (ofList entries) key value :=
  List.foldl_append

/-- Of two entries with one key the later counts. -/
theorem get?_ofList (entries : List (String × α)) (key : String) :
    get? (ofList entries) key = get? entries.reverse key := by
  induction entries using List.reverseRecOn with
  | nil => rfl
  | append_singleton entries entry ih =>
    obtain ⟨k, v⟩ := entry
    rw [ofList_concat, get?_insert, List.reverse_append, ih]
    exact (get?_cons key k v entries.reverse).symm

/-- Of two lists of entries, the later one counts. -/
theorem get?_ofList_append (entries later : List (String × α)) (key : String) :
    get? (ofList (entries ++ later)) key =
      (get? (ofList later) key).or (get? (ofList entries) key) := by
  rw [get?_ofList, get?_ofList, get?_ofList, List.reverse_append]
  exact List.lookup_append

theorem mem_keys_ofList {entries : List (String × α)} {key : String} :
    key ∈ (ofList entries).keys ↔ ∃ value, (key, value) ∈ entries := by
  rw [mem_keys_iff]
  simp only [get?_ofList]
  rw [← mem_keys_iff, keys, List.map_reverse, List.mem_reverse, List.mem_map]
  constructor
  · rintro ⟨⟨_, value⟩, hmem, rfl⟩
    exact ⟨value, hmem⟩
  · rintro ⟨value, hmem⟩
    exact ⟨(key, value), hmem, rfl⟩

/-- What a map says whose entries come in an order: of those under one key, the last
one. -/
theorem get?_ofList_iff_of_pairwise {entries : List (String × α)} {before : α → α → Prop}
    (h : entries.Pairwise fun entry entry' => before entry.2 entry'.2)
    (hasymm : ∀ a b, before a b → ¬ before b a) {key : String} {value : α} :
    get? (ofList entries) key = some value ↔ (key, value) ∈ entries ∧
      ∀ other, (key, other) ∈ entries → other = value ∨ before other value := by
  induction entries using List.reverseRecOn with
  | nil => simp [ofList]
  | append_singleton entries entry ih =>
    obtain ⟨k, last⟩ := entry
    obtain ⟨hentries, -, hlast⟩ := List.pairwise_append.1 h
    have hbefore (other : α) (hother : (key, other) ∈ entries) : before other last :=
      hlast (key, other) hother (k, last) List.mem_cons_self
    rw [ofList_concat, get?_insert]
    simp only [List.mem_append, List.mem_singleton, Prod.mk.injEq]
    by_cases heq : key = k
    · rw [if_pos heq, Option.some_inj]
      constructor
      · rintro rfl
        refine ⟨.inr ⟨heq, rfl⟩, ?_⟩
        rintro other (hother | ⟨-, hother⟩)
        · exact .inr (hbefore other hother)
        · exact .inl hother
      · rintro ⟨hmem | ⟨-, hvalue⟩, hall⟩
        · rcases hall last (.inr ⟨heq, rfl⟩) with hsame | hafter
          · exact hsame
          · exact absurd (hbefore value hmem) (hasymm _ _ hafter)
        · exact hvalue.symm
    · rw [if_neg heq, ih hentries]
      simp [heq]

theorem mem_of_mem_ofList {entries : List (String × α)} {entry : String × α}
    (h : entry ∈ ofList entries) : entry ∈ entries := by
  have hget : get? (ofList entries) entry.1 = some entry.2 :=
    (get?_eq_some_iff (ordered_ofList entries)).2 h
  rw [get?_ofList] at hget
  exact List.mem_reverse.1 (mem_of_get?_eq_some hget)

theorem perm_insert {entries : Entries α} {key : String} (value : α)
    (h : ∀ entry ∈ entries, entry.1 ≠ key) :
    (insert entries key value).Perm ((key, value) :: entries) := by
  induction entries with
  | nil => exact .refl _
  | cons head rest ih =>
    obtain ⟨k, v⟩ := head
    have hne : key ≠ k := (h (k, v) List.mem_cons_self).symm
    have hrest := ih fun entry hentry => h entry (List.mem_cons_of_mem _ hentry)
    rw [Entries.insert, if_neg hne]
    split
    · exact .refl _
    · exact (hrest.cons (k, v)).trans (.swap _ _ rest)

theorem Ordered.nodup {entries : Entries α} (h : Ordered entries) :
    (entries.map (·.1)).Nodup :=
  List.pairwise_map.2 (h.imp fun hlt => ne_of_lt hlt)

/-- All entries are kept exactly if no two have one key. -/
theorem perm_ofList_iff {entries : List (String × α)} :
    (ofList entries).Perm entries ↔ (entries.map (·.1)).Nodup := by
  constructor
  · intro h
    exact (h.map (·.1)).nodup_iff.1 (ordered_ofList entries).nodup
  · intro h
    induction entries using List.reverseRecOn with
    | nil => exact .refl _
    | append_singleton entries entry ih =>
      obtain ⟨key, value⟩ := entry
      rw [List.map_append, List.nodup_append] at h
      obtain ⟨hbefore, -, hdisjoint⟩ := h
      have hperm := ih hbefore
      have hnew : ∀ other ∈ ofList entries, other.1 ≠ key := by
        intro other hother
        exact hdisjoint other.1 (List.mem_map_of_mem (hperm.mem_iff.1 hother)) key
          List.mem_cons_self
      rw [ofList_concat]
      exact (perm_insert value hnew).trans ((hperm.cons _).trans
        (List.perm_append_singleton _ entries).symm)

end ApiContract.Entries
