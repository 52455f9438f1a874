import Mathlib.Data.List.Forall2
/-!
# Opening computations that succeeded

A chain of steps in `Except` succeeds exactly if each step does.  The lemmas
take such a chain apart.
-/

namespace ApiContract

variable {ε α β : Type}

theorem bind_eq_ok {x : Except ε α} {f : α → Except ε β} {b : β} :
    (x >>= f) = .ok b ↔ ∃ a, x = .ok a ∧ f a = .ok b := by
  cases x <;> simp [bind, Except.bind]

theorem pure_eq_ok {a b : α} : (pure a : Except ε α) = .ok b ↔ a = b := by
  simp [pure, Except.pure]

theorem map_eq_ok {x : Except ε α} {f : α → β} {b : β} :
    x.map f = .ok b ↔ ∃ a, x = .ok a ∧ f a = b := by
  cases x <;> simp [Except.map]

theorem exists_map_eq_ok {x : Except ε α} {f : α → β} :
    (∃ b, x.map f = .ok b) ↔ ∃ a, x = .ok a := by
  cases x <;> simp [Except.map]

theorem exists_bind_eq_ok {x : Except ε α} {f : α → Except ε β} {P : Prop}
    (h : ∀ a, (∃ b, f a = .ok b) ↔ P) :
    (∃ b, (x >>= f) = .ok b) ↔ (∃ a, x = .ok a) ∧ P := by
  cases x with
  | error e => simp [bind, Except.bind]
  | ok a => simpa [bind, Except.bind] using h a

theorem bind_eq_error {x : Except ε α} {f : α → Except ε β} {e : ε} :
    (x >>= f) = .error e ↔ x = .error e ∨ ∃ a, x = .ok a ∧ f a = .error e := by
  cases x <;> simp [bind, Except.bind]

theorem exists_bind_eq_error {x : Except ε α} {f : α → Except ε β} (h : ∀ a, ∃ e, f a = .error e) :
    ∃ e, (x >>= f) = .error e := by
  cases x with
  | error e => exact ⟨e, rfl⟩
  | ok a => exact h a

theorem mapError_eq_ok {ε' : Type} {x : Except ε α} {f : ε → ε'} {a : α} :
    x.mapError f = .ok a ↔ x = .ok a := by
  cases x <;> simp [Except.mapError]

theorem mapError_eq_error {ε' : Type} {x : Except ε α} {f : ε → ε'} {e : ε'} :
    x.mapError f = .error e ↔ ∃ fault, x = .error fault ∧ f fault = e := by
  cases x <;> simp [Except.mapError]

/-- A test of what a computation yields passes only if it yields something. -/
theorem exists_of_any {x : Except ε α} {p : α → Bool} (h : x.toOption.any p = true) :
    ∃ a, x = .ok a ∧ p a = true := by
  cases x with
  | error e => cases h
  | ok a => exact ⟨a, rfl, h⟩

theorem eq_ok_of_any {x : Option (Except ε Unit)} (h : x.any (·.isOk) = true) :
    x = some (.ok ()) := by
  match x, h with
  | some (.ok ()), _ => rfl

theorem exists_error_of_any {x : Option (Except ε Unit)} (h : x.any (!·.isOk) = true) :
    ∃ e, x = some (.error e) := by
  match x, h with
  | some (.error e), _ => exact ⟨e, rfl⟩

/-- A step for each element of a list. -/
theorem forall₂_of_mapM_eq_ok {f : α → Except ε β} {as : List α} {bs : List β}
    (h : as.mapM f = .ok bs) : List.Forall₂ (fun a b => f a = .ok b) as bs := by
  induction as generalizing bs with
  | nil =>
    rw [List.mapM_nil, pure_eq_ok] at h
    exact h ▸ .nil
  | cons a as ih =>
    rw [List.mapM_cons] at h
    obtain ⟨b, hb, h⟩ := bind_eq_ok.1 h
    obtain ⟨rest, hrest, h⟩ := bind_eq_ok.1 h
    exact pure_eq_ok.1 h ▸ .cons hb (ih hrest)

theorem exists_mem_of_forall₂ {R : α → β → Prop} {as : List α} {bs : List β}
    (h : List.Forall₂ R as bs) {b : β} (hb : b ∈ bs) : ∃ a ∈ as, R a b := by
  obtain ⟨hlength, hget⟩ := List.forall₂_iff_get.1 h
  obtain ⟨i, rfl⟩ := List.mem_iff_get.1 hb
  exact ⟨as.get (i.cast hlength.symm), List.get_mem _ _, hget i (hlength.symm ▸ i.2) i.2⟩

theorem exists_mem_of_forall₂_left {R : α → β → Prop} {as : List α} {bs : List β}
    (h : List.Forall₂ R as bs) {a : α} (ha : a ∈ as) : ∃ b ∈ bs, R a b :=
  exists_mem_of_forall₂ (List.Forall₂.flip h) ha

theorem exists_forall₂ {R : α → β → Prop} {as : List α} (h : ∀ a ∈ as, ∃ b, R a b) :
    ∃ bs, List.Forall₂ R as bs := by
  induction as with
  | nil => exact ⟨[], .nil⟩
  | cons a as ih =>
    obtain ⟨hfirst, hrest⟩ := List.forall_mem_cons.1 h
    obtain ⟨b, hb⟩ := hfirst
    obtain ⟨bs, hbs⟩ := ih hrest
    exact ⟨b :: bs, .cons hb hbs⟩

theorem forall₂_imp_of_mem {R S : α → β → Prop} {as : List α} {bs : List β}
    (h : List.Forall₂ R as bs) (himp : ∀ a ∈ as, ∀ b, R a b → S a b) : List.Forall₂ S as bs := by
  have hboth : List.Forall₂ (fun a b => a ∈ as ∧ R a b) as bs :=
    (List.forall₂_and_left _ _).2 ⟨fun _ ha => ha, h⟩
  exact hboth.imp fun a b hab => himp a hab.1 b hab.2

theorem exists_mem_of_mapM_eq_ok {f : α → Except ε β} {as : List α} {bs : List β}
    (h : as.mapM f = .ok bs) {b : β} (hb : b ∈ bs) : ∃ a ∈ as, f a = .ok b :=
  exists_mem_of_forall₂ (forall₂_of_mapM_eq_ok h) hb

/-- A step for each element of a list that may not be possible. -/
theorem exists_mem_of_mapM_eq_some {f : α → Option β} {as : List α} {bs : List β}
    (h : as.mapM f = some bs) {a : α} (ha : a ∈ as) : ∃ b ∈ bs, f a = some b := by
  induction as generalizing bs with
  | nil => cases ha
  | cons first rest ih =>
    rw [List.mapM_cons] at h
    obtain ⟨b, hb, h⟩ := Option.bind_eq_some_iff.1 h
    obtain ⟨later, hlater, h⟩ := Option.bind_eq_some_iff.1 h
    cases h
    rcases List.mem_cons.1 ha with rfl | ha
    · exact ⟨b, List.mem_cons_self, hb⟩
    · obtain ⟨b', hb', hf⟩ := ih hlater ha
      exact ⟨b', List.mem_cons_of_mem _ hb', hf⟩

/-- A loop whose steps succeed goes the same way with steps that succeed
whenever these do. -/
theorem foldlM_eq_ok_of_imp {f g : β → α → Except ε β} {as : List α} {b b' : β}
    (hstep : ∀ b a b', f b a = .ok b' → g b a = .ok b') (h : as.foldlM f b = .ok b') :
    as.foldlM g b = .ok b' := by
  induction as generalizing b with
  | nil => exact h
  | cons a as ih =>
    rw [List.foldlM_cons] at h ⊢
    obtain ⟨c, hc, h⟩ := bind_eq_ok.1 h
    exact bind_eq_ok.2 ⟨c, hstep b a c hc, ih h⟩

/-- What every step of a loop keeps holds at its end. -/
theorem foldlM_induction {f : β → α → Except ε β} {P : β → Prop} {as : List α} {b b' : β}
    (hstep : ∀ b a b', a ∈ as → P b → f b a = .ok b' → P b') (hb : P b)
    (h : as.foldlM f b = .ok b') : P b' := by
  induction as generalizing b with
  | nil => exact pure_eq_ok.1 h ▸ hb
  | cons a as ih =>
    rw [List.foldlM_cons] at h
    obtain ⟨c, hc, h⟩ := bind_eq_ok.1 h
    exact ih (fun b a' b' ha' => hstep b a' b' (List.mem_cons_of_mem _ ha'))
      (hstep b a c List.mem_cons_self hb hc) h

/-- Two loops over related lists whose steps keep a relation: the second one succeeds
if the first one does. -/
theorem foldlM_related {ε' α' β' : Type} {f : β → α → Except ε β} {g : β' → α' → Except ε' β'}
    {R : β → β' → Prop} {S : α → α' → Prop} {as : List α} {as' : List α'} {b c : β} {b' : β'}
    (has : List.Forall₂ S as as')
    (hstep : ∀ b b' a a' c, a ∈ as → S a a' → R b b' → f b a = .ok c → ∃ c', g b' a' = .ok c' ∧ R c c')
    (hb : R b b') (h : as.foldlM f b = .ok c) : ∃ c', as'.foldlM g b' = .ok c' ∧ R c c' := by
  induction has generalizing b b' with
  | nil => exact ⟨b', rfl, pure_eq_ok.1 h ▸ hb⟩
  | @cons a a' as as' haa' _ ih =>
    rw [List.foldlM_cons] at h
    obtain ⟨d, hd, h⟩ := bind_eq_ok.1 h
    obtain ⟨d', hd', hdd'⟩ := hstep b b' a a' d List.mem_cons_self haa' hb hd
    obtain ⟨c', hc', hcc'⟩ :=
      ih (fun b b' a a' c ha => hstep b b' a a' c (List.mem_cons_of_mem _ ha)) hdd' h
    exact ⟨c', by rw [List.foldlM_cons]; exact bind_eq_ok.2 ⟨d', hd', hc'⟩, hcc'⟩

end ApiContract
