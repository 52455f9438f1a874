import ApiContract.Proofs.Outcome
import Mathlib.Data.List.Perm.Basic
/-!
# Steps in another order

Steps of a loop that do not get in each other's way may change places
(`Shuffled`).  If two neighbours of this kind come to the same either way, up to
what is told apart, then so do loops over lists that are shuffled
(`foldlM_shuffled`).
-/

namespace ApiContract

/-! ## Results that agree -/

/-- Both fail, or both come to results that are related. -/
inductive Agree {ε ε' α β : Type} (R : α → β → Prop) : Except ε α → Except ε' β → Prop
  | ok {a : α} {b : β} (h : R a b) : Agree R (.ok a) (.ok b)
  | error (fault : ε) (fault' : ε') : Agree R (.error fault) (.error fault')

namespace Agree

variable {ε ε' α β α' β' : Type} {R : α → α → Prop} {x y z : Except ε α}

theorem refl (h : ∀ a, R a a) (x : Except ε α) : Agree R x x := by
  cases x with
  | error fault => exact .error fault fault
  | ok a => exact .ok (h a)

theorem of_errors {x : Except ε α} {y : Except ε' β} {R : α → β → Prop}
    (hx : ∃ fault, x = .error fault) (hy : ∃ fault, y = .error fault) : Agree R x y := by
  obtain ⟨fault, rfl⟩ := hx
  obtain ⟨fault', rfl⟩ := hy
  exact .error fault fault'

theorem trans (htrans : ∀ a b c, R a b → R b c → R a c) (hxy : Agree R x y) (hyz : Agree R y z) :
    Agree R x z := by
  cases hxy with
  | error fault _ =>
    cases hyz with
    | error _ fault => exact .error _ _
  | ok h =>
    cases hyz with
    | ok h' => exact .ok (htrans _ _ _ h h')

theorem bind {S : α → β → Prop} {T : α' → β' → Prop} {x : Except ε α} {y : Except ε β}
    {f : α → Except ε α'} {g : β → Except ε β'} (h : Agree S x y)
    (hnext : ∀ a b, S a b → Agree T (f a) (g b)) : Agree T (x >>= f) (y >>= g) := by
  cases h with
  | error fault fault' => exact .error fault fault'
  | ok h => exact hnext _ _ h

end Agree

/-! ## Shuffled lists -/

/-- The second list comes from the first one when neighbours that are apart change places. -/
inductive Shuffled {α : Type} (Apart : α → α → Prop) : List α → List α → Prop
  | nil : Shuffled Apart [] []
  | cons (a : α) {as bs : List α} (h : Shuffled Apart as bs) : Shuffled Apart (a :: as) (a :: bs)
  | swap {a b : α} (h : Apart a b) (as : List α) : Shuffled Apart (a :: b :: as) (b :: a :: as)
  | trans {as bs cs : List α} (h : Shuffled Apart as bs) (h' : Shuffled Apart bs cs) :
    Shuffled Apart as cs

namespace Shuffled

variable {α : Type} {Apart : α → α → Prop} {as bs cs : List α}

theorem refl (as : List α) : Shuffled Apart as as := by
  induction as with
  | nil => exact .nil
  | cons a as ih => exact .cons a ih

theorem perm (h : Shuffled Apart as bs) : as.Perm bs := by
  induction h with
  | nil => exact .nil
  | cons a _ ih => exact ih.cons a
  | swap _ as => exact .swap _ _ as
  | trans _ _ ih ih' => exact ih.trans ih'

/-- Where all elements are apart, the order does not count. -/
theorem of_perm (hapart : ∀ a b, Apart a b) (h : as.Perm bs) : Shuffled Apart as bs := by
  induction h with
  | nil => exact .nil
  | cons a _ ih => exact .cons a ih
  | swap a b as => exact .swap (hapart b a) as
  | trans _ _ ih ih' => exact .trans ih ih'

theorem append_left (as : List α) (h : Shuffled Apart bs cs) :
    Shuffled Apart (as ++ bs) (as ++ cs) := by
  induction as with
  | nil => exact h
  | cons a as ih => exact .cons a ih

theorem append_right (h : Shuffled Apart as bs) (cs : List α) :
    Shuffled Apart (as ++ cs) (bs ++ cs) := by
  induction h with
  | nil => exact .refl cs
  | cons a _ ih => exact .cons a ih
  | swap h as => exact .swap h (as ++ cs)
  | trans _ _ ih ih' => exact .trans ih ih'

theorem cons_append (a : α) (bs cs : List α) (h : ∀ b ∈ bs, Apart a b) :
    Shuffled Apart (a :: bs ++ cs) (bs ++ a :: cs) := by
  induction bs with
  | nil => exact .refl _
  | cons b bs ih =>
    obtain ⟨hfirst, hrest⟩ := List.forall_mem_cons.1 h
    exact .trans (.swap hfirst (bs ++ cs)) (.cons b (ih hrest))

/-- Blocks that are apart change places. -/
theorem append_comm (as bs : List α) (h : ∀ a ∈ as, ∀ b ∈ bs, Apart a b) :
    Shuffled Apart (as ++ bs) (bs ++ as) := by
  induction as with
  | nil =>
    rw [List.append_nil]
    exact .refl bs
  | cons a as ih =>
    obtain ⟨hfirst, hrest⟩ := List.forall_mem_cons.1 h
    exact .trans (.cons a (ih hrest)) (cons_append a bs as hfirst)

end Shuffled

/-! ## Loops -/

section Loops

variable {ε α σ : Type} {Apart : α → α → Prop} {P : α → Prop} {R : σ → σ → Prop}
  {step : σ → α → Except ε σ}

theorem foldlM_agree (hstep : ∀ s s' a, P a → R s s' → Agree R (step s a) (step s' a))
    {as : List α} (has : ∀ a ∈ as, P a) {s s' : σ} (h : R s s') :
    Agree R (as.foldlM step s) (as.foldlM step s') := by
  induction as generalizing s s' with
  | nil => exact .ok h
  | cons a as ih =>
    obtain ⟨hfirst, hrest⟩ := List.forall_mem_cons.1 has
    rw [List.foldlM_cons, List.foldlM_cons]
    exact (hstep s s' a hfirst h).bind fun _ _ hnext => ih hrest hnext

/-- Loops over shuffled lists agree if steps that are apart agree in either order. -/
theorem foldlM_shuffled (hright : ∀ s s', R s s' → R s' s')
    (htrans : ∀ s t u, R s t → R t u → R s u)
    (hstep : ∀ s s' a, P a → R s s' → Agree R (step s a) (step s' a))
    (hswap : ∀ s a b, P a → P b → Apart a b → R s s →
      Agree R (step s a >>= (step · b)) (step s b >>= (step · a)))
    {as bs : List α} (hshuffled : Shuffled Apart as bs) (has : ∀ a ∈ as, P a) {s s' : σ}
    (h : R s s') : Agree R (as.foldlM step s) (bs.foldlM step s') := by
  induction hshuffled generalizing s s' with
  | nil => exact .ok h
  | cons a _ ih =>
    obtain ⟨hfirst, hrest⟩ := List.forall_mem_cons.1 has
    rw [List.foldlM_cons, List.foldlM_cons]
    exact (hstep s s' a hfirst h).bind fun _ _ hnext => ih hrest hnext
  | @swap a b hapart as =>
    obtain ⟨ha, hrest⟩ := List.forall_mem_cons.1 has
    obtain ⟨hb, hrest⟩ := List.forall_mem_cons.1 hrest
    simp only [List.foldlM_cons, ← bind_assoc]
    have hfirst : Agree R (step s a >>= (step · b)) (step s' a >>= (step · b)) :=
      (hstep s s' a ha h).bind fun t t' => hstep t t' b hb
    exact (hfirst.trans htrans (hswap s' a b ha hb hapart (hright s s' h))).bind fun _ _ =>
      foldlM_agree hstep hrest
  | trans hab _ ih ih' =>
    have hbs : ∀ b ∈ _, P b := fun b hb => has b (hab.perm.mem_iff.2 hb)
    have hfirst : Agree R _ (List.foldlM step s' _) := ih has h
    exact hfirst.trans htrans (ih' hbs (hright s s' h))

end Loops

end ApiContract
