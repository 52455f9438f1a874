import Mathlib.Data.List.Forall2
import Mathlib.Data.Option.Basic
/-!
# Answers that may be missing

An evaluation that is cut off has no answer.  `Below R x y` says that `y` has
an answer whenever `x` has one, and that the two are related.  Everything an
evaluation is put together from preserves this: sequences, loops over lists,
and loops that stop early.  None of them comes without an answer if all its
steps have one.
-/

namespace ApiContract

variable {α β γ δ : Type}

/-- Whenever the first has an answer, the second has a related one. -/
def Below (R : α → β → Prop) (x : Option α) (y : Option β) : Prop :=
  ∀ a, x = some a → ∃ b, y = some b ∧ R a b

namespace Below

variable {R : α → β → Prop} {Q : γ → δ → Prop}

theorem none (y : Option β) : Below R Option.none y := by
  intro a h
  cases h

theorem some {a : α} {b : β} (h : R a b) : Below R (Option.some a) (Option.some b) := by
  intro a' heq
  cases heq
  exact ⟨b, rfl, h⟩

theorem pure {a : α} {b : β} (h : R a b) :
    Below R (Pure.pure a : Option α) (Pure.pure b : Option β) :=
  some h

theorem refl (x : Option α) : Below Eq x x := fun a h => ⟨a, h, rfl⟩

/-- Answers under equality are the same. -/
theorem eq_some {x y : Option α} (h : Below Eq x y) {a : α} (hx : x = Option.some a) :
    y = Option.some a := by
  obtain ⟨b, hy, rfl⟩ := h a hx
  exact hy

theorem bind {x : Option α} {y : Option β} {f : α → Option γ} {g : β → Option δ}
    (h : Below R x y) (hnext : ∀ a b, R a b → Below Q (f a) (g b)) :
    Below Q (x >>= f) (y >>= g) := by
  intro c hc
  obtain ⟨a, ha, hc⟩ := Option.bind_eq_some_iff.1 hc
  obtain ⟨b, hb, hab⟩ := h a ha
  obtain ⟨d, hd, hcd⟩ := hnext a b hab c hc
  exact ⟨d, by rw [hb]; exact hd, hcd⟩

/-- The case of a sequence whose first step has the same answer on both
sides. -/
theorem bind_eq {x y : Option α} {f : α → Option γ} {g : α → Option δ} (h : Below Eq x y)
    (hnext : ∀ a, Below Q (f a) (g a)) : Below Q (x >>= f) (y >>= g) :=
  h.bind fun a _ hab => hab ▸ hnext a

/-! ## Loops -/

theorem mapM {S : α → β → Prop} {f : α → Option γ} {g : β → Option δ} {as : List α} {bs : List β}
    (h : List.Forall₂ S as bs)
    (hstep : ∀ a b, a ∈ as → b ∈ bs → S a b → Below Q (f a) (g b)) :
    Below (List.Forall₂ Q) (as.mapM f) (bs.mapM g) := by
  induction h with
  | nil => exact some .nil
  | @cons a b as bs hab _ ih =>
    rw [List.mapM_cons, List.mapM_cons]
    refine bind (hstep a b List.mem_cons_self List.mem_cons_self hab) fun c d hcd => ?_
    refine bind (ih fun a b ha hb => hstep a b (List.mem_cons_of_mem _ ha)
      (List.mem_cons_of_mem _ hb)) fun cs ds hrest => ?_
    exact pure (.cons hcd hrest)

theorem allM {S : α → β → Prop} {p : α → Option Bool} {q : β → Option Bool} {as : List α}
    {bs : List β} (h : List.Forall₂ S as bs)
    (hstep : ∀ a b, a ∈ as → b ∈ bs → S a b → Below Eq (p a) (q b)) :
    Below Eq (as.allM p) (bs.allM q) := by
  induction h with
  | nil => exact some rfl
  | @cons a b as bs hab _ ih =>
    rw [List.allM_cons, List.allM_cons]
    refine bind_eq (hstep a b List.mem_cons_self List.mem_cons_self hab) fun c => ?_
    cases c with
    | false => exact pure rfl
    | true =>
      exact ih fun a b ha hb => hstep a b (List.mem_cons_of_mem _ ha) (List.mem_cons_of_mem _ hb)

theorem anyM {S : α → β → Prop} {p : α → Option Bool} {q : β → Option Bool} {as : List α}
    {bs : List β} (h : List.Forall₂ S as bs)
    (hstep : ∀ a b, a ∈ as → b ∈ bs → S a b → Below Eq (p a) (q b)) :
    Below Eq (as.anyM p) (bs.anyM q) := by
  induction h with
  | nil => exact some rfl
  | @cons a b as bs hab _ ih =>
    rw [List.anyM_cons, List.anyM_cons]
    refine bind_eq (hstep a b List.mem_cons_self List.mem_cons_self hab) fun c => ?_
    cases c with
    | true => exact pure rfl
    | false =>
      exact ih fun a b ha hb => hstep a b (List.mem_cons_of_mem _ ha) (List.mem_cons_of_mem _ hb)

theorem filterAuxM {p : α → Option Bool} {q : β → Option Bool} {as : List α} {bs : List β}
    (h : List.Forall₂ R as bs) (hstep : ∀ a b, a ∈ as → b ∈ bs → R a b → Below Eq (p a) (q b))
    {cs : List α} {ds : List β} (hkept : List.Forall₂ R cs ds) :
    Below (List.Forall₂ R) (as.filterAuxM p cs) (bs.filterAuxM q ds) := by
  induction h generalizing cs ds with
  | nil => exact some hkept
  | @cons a b as bs hab _ ih =>
    rw [List.filterAuxM, List.filterAuxM]
    refine bind_eq (hstep a b List.mem_cons_self List.mem_cons_self hab) fun c => ?_
    refine ih (fun a b ha hb => hstep a b (List.mem_cons_of_mem _ ha) (List.mem_cons_of_mem _ hb)) ?_
    cases c with
    | false => exact hkept
    | true => exact .cons hab hkept

theorem filterM {p : α → Option Bool} {q : β → Option Bool} {as : List α} {bs : List β}
    (h : List.Forall₂ R as bs)
    (hstep : ∀ a b, a ∈ as → b ∈ bs → R a b → Below Eq (p a) (q b)) :
    Below (List.Forall₂ R) (as.filterM p) (bs.filterM q) := by
  rw [List.filterM, List.filterM]
  refine bind (filterAuxM h hstep .nil) fun cs ds hkept => ?_
  exact pure (List.forall₂_reverse_iff.2 hkept)

/-- Over one list on both sides. -/
theorem forall₂_eq (as : List α) : List.Forall₂ Eq as as := List.forall₂_same.2 fun _ _ => rfl

end Below

/-! ## Evaluations that have an answer -/

section Answered

variable {x : Option α} {f : α → Option β} {p : α → Option Bool} {as : List α}

theorem isSome_bind (h : x.isSome) (hnext : ∀ a, x = some a → (f a).isSome) : (x >>= f).isSome := by
  obtain ⟨a, ha⟩ := Option.isSome_iff_exists.1 h
  rw [ha]
  exact hnext a ha

theorem isSome_mapM (h : ∀ a ∈ as, (f a).isSome) : (as.mapM f).isSome := by
  induction as with
  | nil => rfl
  | cons a as ih =>
    rw [List.mapM_cons]
    refine isSome_bind (h a List.mem_cons_self) fun b _ => ?_
    exact isSome_bind (ih fun a ha => h a (List.mem_cons_of_mem _ ha)) fun _ _ => rfl

theorem isSome_allM (h : ∀ a ∈ as, (p a).isSome) : (as.allM p).isSome := by
  induction as with
  | nil => rfl
  | cons a as ih =>
    rw [List.allM_cons]
    refine isSome_bind (h a List.mem_cons_self) fun b _ => ?_
    cases b with
    | false => rfl
    | true => exact ih fun a ha => h a (List.mem_cons_of_mem _ ha)

theorem isSome_anyM (h : ∀ a ∈ as, (p a).isSome) : (as.anyM p).isSome := by
  induction as with
  | nil => rfl
  | cons a as ih =>
    rw [List.anyM_cons]
    refine isSome_bind (h a List.mem_cons_self) fun b _ => ?_
    cases b with
    | true => rfl
    | false => exact ih fun a ha => h a (List.mem_cons_of_mem _ ha)

theorem isSome_filterM (h : ∀ a ∈ as, (p a).isSome) : (as.filterM p).isSome := by
  have haux (kept : List α) : (as.filterAuxM p kept).isSome := by
    induction as generalizing kept with
    | nil => rfl
    | cons a as ih =>
      rw [List.filterAuxM]
      refine isSome_bind (h a List.mem_cons_self) fun b _ => ?_
      exact ih (fun a ha => h a (List.mem_cons_of_mem _ ha)) _
  exact isSome_bind (haux []) fun _ _ => rfl

theorem mem_of_filterAuxM {before kept : List α} (h : as.filterAuxM p before = some kept) {a : α}
    (ha : a ∈ kept) : a ∈ as ∨ a ∈ before := by
  induction as generalizing before with
  | nil =>
    cases h
    exact .inr ha
  | cons first as ih =>
    rw [List.filterAuxM] at h
    obtain ⟨b, -, h⟩ := Option.bind_eq_some_iff.1 h
    rcases ih h with hmem | hmem
    · exact .inl (List.mem_cons_of_mem _ hmem)
    · cases b with
      | false => exact .inr hmem
      | true =>
        rcases List.mem_cons.1 hmem with rfl | hmem
        · exact .inl List.mem_cons_self
        · exact .inr hmem

theorem mem_of_filterM {kept : List α} (h : as.filterM p = some kept) {a : α} (ha : a ∈ kept) :
    a ∈ as := by
  obtain ⟨found, hfound, h⟩ := Option.bind_eq_some_iff.1 h
  cases h
  exact (mem_of_filterAuxM hfound (List.mem_reverse.1 ha)).resolve_right List.not_mem_nil

end Answered

end ApiContract
