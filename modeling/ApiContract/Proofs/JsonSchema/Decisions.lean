import ApiContract.Proofs.JsonSchema.Verdicts
/-!
# Nodes that decide

A node decides a property of values if its verdicts, wherever it has one, say
whether the property holds (`Node.Decides`).  Rules that put nodes together decide
the matching combination of what the nodes decide.
-/

namespace ApiContract.JsonSchema

variable {α β : Type}

/-- The answer, if there is one, says whether something holds. -/
def Tells (answer : Option Bool) (p : Prop) : Prop := ∀ b, answer = some b → (b = true ↔ p)

/-- Exactly one of the elements has a property. -/
def ExactlyOne (p : α → Prop) (as : List α) : Prop :=
  ∃ before a after, as = before ++ a :: after ∧ p a ∧ ∀ other ∈ before ++ after, ¬ p other

theorem not_exactlyOne_nil (p : α → Prop) : ¬ ExactlyOne p [] := by
  rintro ⟨before, a, after, heq, -⟩
  cases before <;> cases heq

theorem exactlyOne_cons (p : α → Prop) (a : α) (as : List α) :
    ExactlyOne p (a :: as) ↔ (p a ∧ ∀ other ∈ as, ¬ p other) ∨ (¬ p a ∧ ExactlyOne p as) := by
  constructor
  · rintro ⟨before, found, after, heq, hfound, hothers⟩
    cases before with
    | nil =>
      cases heq
      exact .inl ⟨hfound, hothers⟩
    | cons _ before =>
      cases heq
      exact .inr ⟨hothers a List.mem_cons_self, before, found, after, rfl, hfound,
        fun other hother => hothers other (List.mem_cons_of_mem _ hother)⟩
  · rintro (⟨ha, hothers⟩ | ⟨ha, before, found, after, rfl, hfound, hothers⟩)
    · exact ⟨[], a, as, rfl, ha, hothers⟩
    · refine ⟨a :: before, found, after, rfl, hfound, ?_⟩
      intro other hother
      rcases List.mem_cons.1 hother with rfl | hother
      · exact ha
      · exact hothers other hother

theorem exactlyOne_map (p : β → Prop) (f : α → β) (as : List α) :
    ExactlyOne p (as.map f) ↔ ExactlyOne (fun a => p (f a)) as := by
  induction as with
  | nil => simp [not_exactlyOne_nil]
  | cons a as ih => simp [exactlyOne_cons, ih]

namespace Tells

variable {answer : Option Bool} {p q : Prop}

theorem congr (h : Tells answer p) (hpq : p ↔ q) : Tells answer q :=
  fun b hb => (h b hb).trans hpq

theorem pure {b : Bool} (h : b = true ↔ p) : Tells (Pure.pure b) p := by
  intro other heq
  cases heq
  exact h

theorem not (h : Tells answer p) : Tells (do return !(← answer)) (¬ p) := by
  intro b hb
  obtain ⟨c, hc, hb⟩ := Option.bind_eq_some_iff.1 hb
  cases hb
  rw [← h c hc]
  simp

section Lists

variable {S : α → β → Prop} {f : α → Option Bool} {P : β → Prop} {as : List α} {bs : List β}

theorem allM (h : List.Forall₂ S as bs) (hstep : ∀ a b, S a b → Tells (f a) (P b)) :
    Tells (as.allM f) (∀ b ∈ bs, P b) := by
  induction h with
  | nil => exact pure (by simp)
  | @cons a b as bs hab _ ih =>
    intro c hc
    rw [List.allM_cons] at hc
    obtain ⟨first, hfirst, hc⟩ := Option.bind_eq_some_iff.1 hc
    have hb := hstep a b hab first hfirst
    cases first with
    | false =>
      cases hc
      simpa using fun hall => absurd hall (by simpa using hb)
    | true =>
      rw [List.forall_mem_cons, ← ih c hc]
      simp [hb.1 rfl]

theorem anyM (h : List.Forall₂ S as bs) (hstep : ∀ a b, S a b → Tells (f a) (P b)) :
    Tells (as.anyM f) (∃ b ∈ bs, P b) := by
  induction h with
  | nil => exact pure (by simp)
  | @cons a b as bs hab _ ih =>
    intro c hc
    rw [List.anyM_cons] at hc
    obtain ⟨first, hfirst, hc⟩ := Option.bind_eq_some_iff.1 hc
    have hb := hstep a b hab first hfirst
    cases first with
    | true =>
      cases hc
      simp [hb.1 rfl]
    | false =>
      have hnot : ¬ P b := by simpa using hb
      rw [ih c hc]
      simp [hnot]

end Lists

/-- The first part that is valid, and no part after it. -/
theorem afterFirstValid {S : Node → β → Prop} {f : Node → Option Bool} {P : β → Prop}
    {parts : List Node} {bs : List β} (h : List.Forall₂ S parts bs)
    (hstep : ∀ a b, S a b → Tells (f a) (P b)) :
    Tells (do
      match ← Rule.afterFirstValid f parts with
      | none => return false
      | some rest => return !(← rest.anyM f)) (ExactlyOne P bs) := by
  induction h with
  | nil => exact pure (by simp [not_exactlyOne_nil])
  | @cons a b as bs hab hrest ih =>
    intro c hc
    rw [exactlyOne_cons]
    obtain ⟨valid, hvalid, hc⟩ := Option.bind_eq_some_iff.1 hc
    obtain ⟨first, hfirst, hvalid⟩ := Option.bind_eq_some_iff.1 hvalid
    have hb := hstep a b hab first hfirst
    cases first with
    | true =>
      cases hvalid
      rw [not (anyM hrest hstep) c hc]
      simp [hb.1 rfl]
    | false =>
      have hnot : ¬ P b := by simpa using hb
      rw [ih c (Option.bind_eq_some_iff.2 ⟨valid, hvalid, hc⟩)]
      simp [hnot]

end Tells

/-- Wherever the node has a verdict on a value, it says whether the value is
accepted. -/
def Node.Decides (table : Array Node) (node : Node) (accepts : Json → Prop) : Prop :=
  ∀ depth value, Tells (node.isValid table depth value) (accepts value)

/-- The same for a rule. -/
def Rule.Decides (table : Array Node) (rule : Rule) (accepts : Json → Prop) : Prop :=
  ∀ depth rules value, Tells (rule.isValid table (Level.at_ table depth) rules value) (accepts value)

section Decides

variable {table : Array Node} {accepts : Json → Prop} {node : Node} {rule : Rule}

theorem Rule.Decides.congr {accepts' : Json → Prop} (h : rule.Decides table accepts)
    (hsame : ∀ value, accepts value ↔ accepts' value) : rule.Decides table accepts' :=
  fun depth rules value => (h depth rules value).congr (hsame value)

theorem Node.decides_rules (h : rule.Decides table accepts) :
    (Node.rules [rule]).Decides table accepts := by
  intro depth value b hb
  cases depth with
  | zero => cases hb
  | succ depth =>
    have hlevel : (Node.rules [rule]).isValid table (depth + 1) value =
        [rule].allM (Rule.isValid table (Level.at_ table depth) [rule] value) := rfl
    rw [hlevel, List.allM_cons] at hb
    obtain ⟨c, hc, hb⟩ := Option.bind_eq_some_iff.1 hb
    have hdecided := h depth [rule] value c hc
    cases c <;> cases hb <;> exact hdecided

/-- A list of one node. -/
theorem Node.decides_single (h : node.Decides table accepts) (depth : Nat) (value : Json) :
    Tells ([node].allM fun part => part.isValid table depth value) (accepts value) := by
  have hall : Tells ([node].allM fun part => part.isValid table depth value)
      (∀ claim ∈ [accepts], claim value) :=
    Tells.allM (.cons h .nil) fun _ _ hpart => hpart depth value
  exact hall.congr (by simp)

theorem Rule.LeadsTo.decides {keyword : String} (h : rule.LeadsTo table keyword (some node))
    (hnode : node.Decides table accepts) : rule.Decides table accepts := by
  intro depth rules value b hb
  rw [h.isValid] at hb
  exact hnode depth value b hb

namespace Rule

variable {parts : List Node} {properties : List (String × Node)} {claims : List (Json → Prop)}

theorem decides_allOf (h : List.Forall₂ (Node.Decides table) parts claims) :
    (Rule.allOf parts).Decides table fun value => ∀ claim ∈ claims, claim value :=
  fun depth _ value => Tells.allM h fun _ _ hpart => hpart depth value

theorem decides_anyOf (h : List.Forall₂ (Node.Decides table) parts claims) :
    (Rule.anyOf parts).Decides table fun value => ∃ claim ∈ claims, claim value :=
  fun depth _ value => Tells.anyM h fun _ _ hpart => hpart depth value

theorem decides_oneOf (h : List.Forall₂ (Node.Decides table) parts claims) :
    (Rule.oneOf parts).Decides table fun value => ExactlyOne (fun claim => claim value) claims :=
  fun depth _ value => Tells.afterFirstValid h fun _ _ hpart => hpart depth value

theorem decides_not (schema : Json) (h : node.Decides table accepts) :
    (Rule.not schema node).Decides table fun value => ¬ accepts value :=
  fun depth _ value => (h depth value).not

theorem decides_laterItems (keyword : String) (h : node.Decides table accepts) :
    (Rule.laterItems keyword 0 node).Decides table fun value =>
      ∀ items, value = .array items → ∀ item ∈ items, accepts item := by
  intro depth rules value
  cases value with
  | array items =>
    have hall : Tells (items.allM (node.isValid table depth)) (∀ item ∈ items, accepts item) := by
      refine Tells.allM (Below.forall₂_eq items) ?_
      rintro item _ rfl
      exact h depth item
    exact hall.congr (by simp)
  | _ => exact Tells.pure (by simp)

theorem decides_allMembers (h : node.Decides table accepts) :
    (Rule.allMembers [] [] (some node)).Decides table fun value =>
      ∀ members, value = .object members → ∀ member ∈ members, accepts member.2 := by
  intro depth rules value
  cases value with
  | object members =>
    have hall : Tells ((Rule.allMembers [] [] (some node)).isValid table (Level.at_ table depth) rules
        (.object members)) (∀ member ∈ members, accepts member.2) := by
      refine Tells.allM (Below.forall₂_eq members) ?_
      rintro ⟨name, member⟩ _ rfl
      exact Node.decides_single h depth member
    exact hall.congr (by simp)
  | _ => exact Tells.pure (by simp)

theorem decides_properties {named : List (String × (Json → Prop))}
    (h : List.Forall₂ (fun property claim => property.1 = claim.1 ∧ property.2.Decides table claim.2)
      properties named) :
    (Rule.properties properties).Decides table fun value => ∀ members, value = .object members →
      ∀ claim ∈ named, ∀ member, Entries.get? members claim.1 = some member → claim.2 member := by
  intro depth rules value
  cases value with
  | object members =>
    have hall : Tells ((Rule.properties properties).isValid table (Level.at_ table depth) rules
        (.object members)) (∀ claim ∈ named, ∀ member, Entries.get? members claim.1 = some member →
          claim.2 member) := by
      refine Tells.allM h ?_
      rintro ⟨name, node⟩ ⟨_, claim⟩ ⟨rfl, hnode⟩
      dsimp only
      cases Entries.get? members name with
      | none => exact Tells.pure (by simp)
      | some member => exact (hnode depth member).congr (by simp)
    exact hall.congr (by simp)
  | _ => exact Tells.pure (by simp)

end Rule

end Decides

end ApiContract.JsonSchema
