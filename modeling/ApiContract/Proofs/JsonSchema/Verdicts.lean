import ApiContract.Proofs.JsonSchema.Depth
import ApiContract.Proofs.Outcome
/-!
# Violations and validity

A node is asked in two ways: what is wrong with a value, and whether anything
is.  The second question may have an answer where the first has none, since it
stops at the first thing that is wrong; otherwise the two answers agree
(`Agrees`).  So a value without violations is the same as a value that is valid
at some depth (`violations_eq_nil_iff`).
-/

namespace ApiContract.JsonSchema

/-- A list of violations and a verdict do not contradict each other.  The
verdict is there if the list is, and the list is there if the verdict is that
the value is valid. -/
structure Agrees (found : Option (List Violation)) (verdict : Option Bool) : Prop where
  verdict_eq : ∀ list, found = some list → verdict = some list.isEmpty
  found_eq : verdict = some true → found = some []

namespace Agrees

variable {α β : Type} {found : Option (List Violation)} {verdict : Option Bool}

theorem none : Agrees none none := ⟨by simp, by simp⟩

theorem pure (list : List Violation) : Agrees (some list) (some list.isEmpty) := by
  refine ⟨?_, ?_⟩
  · intro other heq
    cases heq
    rfl
  · intro hempty
    simpa using hempty

theorem nil : Agrees (some []) (some true) := pure []

theorem cons (violation : Violation) : Agrees (some [violation]) (some false) := pure [violation]

/-- A step that both questions begin with. -/
theorem bind {x : Option α} {f : α → Option (List Violation)} {g : α → Option Bool}
    (h : ∀ a, Agrees (f a) (g a)) : Agrees (x >>= f) (x >>= g) := by
  cases x with
  | none => exact none
  | some a => exact h a

/-- Violations that are made from the verdict. -/
theorem of_verdict {x : Option Bool} {f : Bool → Option (List Violation)}
    (h : ∀ b, Agrees (f b) (some b)) : Agrees (x >>= f) x := by
  cases x with
  | none => exact none
  | some b => exact h b

/-- All violations of a list of parts and those that are found beside them,
because of the parts that are bad, and whether all parts are valid. -/
theorem all_append {S : α → β → Prop} {f : α → Option (List Violation)} {g : β → Option Bool}
    (bad : α → Bool) (extra : List Violation) {as : List α} {bs : List β}
    (h : List.Forall₂ S as bs) (hextra : extra.isEmpty = as.all (!bad ·))
    (hgood : ∀ a b, S a b → bad a = false → Agrees (f a) (g b))
    (hbad : ∀ a b, S a b → bad a = true → g b = some false) :
    Agrees (as.mapM f >>= fun lists => Pure.pure (lists.flatten ++ extra)) (bs.allM g) := by
  induction h with
  | nil =>
    obtain rfl := List.isEmpty_iff.1 hextra
    exact nil
  | @cons a b as bs hab _ ih =>
    rw [List.mapM_cons, List.allM_cons]
    cases hkind : bad a with
    | true =>
      have hsome : extra.isEmpty = false := by simpa [hkind] using hextra
      rw [hbad a b hab hkind]
      refine ⟨?_, fun hvalid => by cases hvalid⟩
      intro list hlist
      obtain ⟨lists, -, hlist⟩ := Option.bind_eq_some_iff.1 hlist
      cases hlist
      have : (lists.flatten ++ extra).isEmpty = false := by simp_all
      rw [this]
      rfl
    | false =>
      have hfirst := hgood a b hab hkind
      have hrest := ih (by simpa [hkind] using hextra)
      constructor
      · intro list hlist
        obtain ⟨lists, hlists, hlist⟩ := Option.bind_eq_some_iff.1 hlist
        obtain ⟨first, hfound, hlists⟩ := Option.bind_eq_some_iff.1 hlists
        obtain ⟨others, hothers, hlists⟩ := Option.bind_eq_some_iff.1 hlists
        cases hlists
        cases hlist
        rw [hfirst.verdict_eq _ hfound]
        cases first with
        | cons violation violations => simp
        | nil => simpa using hrest.verdict_eq (others.flatten ++ extra) (by rw [hothers]; rfl)
      · intro hvalid
        obtain ⟨valid, hb, hvalid⟩ := Option.bind_eq_some_iff.1 hvalid
        cases valid with
        | false => cases hvalid
        | true =>
          obtain ⟨lists, hlists, hflatten⟩ := Option.bind_eq_some_iff.1 (hrest.found_eq hvalid)
          rw [hfirst.found_eq hb, hlists]
          exact hflatten

/-- All violations of a list of parts, and whether all parts are valid. -/
theorem all {S : α → β → Prop} {f : α → Option (List Violation)} {g : β → Option Bool}
    {as : List α} {bs : List β} (h : List.Forall₂ S as bs)
    (hstep : ∀ a b, S a b → Agrees (f a) (g b)) :
    Agrees (as.mapM f >>= fun lists => Pure.pure lists.flatten) (bs.allM g) := by
  have hall := all_append (fun _ => false) [] h (by simp)
    (fun a b hab _ => hstep a b hab) (by simp)
  simpa using hall

/-- The same over one list. -/
theorem all_eq {f : α → Option (List Violation)} {g : α → Option Bool} (as : List α)
    (hstep : ∀ a ∈ as, Agrees (f a) (g a)) :
    Agrees (as.mapM f >>= fun lists => Pure.pure lists.flatten) (as.allM g) := by
  refine all (S := fun a b => a = b ∧ a ∈ as) ?_ ?_
  · exact List.forall₂_same.2 fun a ha => ⟨rfl, ha⟩
  · rintro a _ ⟨rfl, ha⟩
    exact hstep a ha

end Agrees

/-- On every node and every value, a level answers the two questions in
agreement. -/
def Level.Consistent (level : Level) : Prop :=
  ∀ node schemaPath instancePath value,
    Agrees (level.violations node schemaPath instancePath value) (level.isValid node value)

namespace Rule

variable {table : Array Node} {level : Level} {rules : List Rule}

theorem forall₂_zipIdx {α : Type} (parts : List α) (start : Nat) :
    List.Forall₂ (fun a b => a.1 = b) (parts.zipIdx start) parts := by
  induction parts generalizing start with
  | nil => exact .nil
  | cons part parts ih => exact .cons rfl (ih (start + 1))

theorem agrees_flatMap {α : Type} (as : List α) (make : α → Violation) :
    Agrees (some (as.flatMap fun a => [make a])) (some as.isEmpty) := by
  cases as with
  | nil => exact Agrees.nil
  | cons a as => exact Agrees.pure _

/-- A rule among others answers the two questions about a value in agreement. -/
def Agrees (table : Array Node) (level : Level) (rules : List Rule) (value : Json) (rule : Rule) : Prop :=
  ∀ schemaPath instancePath,
    JsonSchema.Agrees (rule.violations table level rules schemaPath instancePath value)
      (rule.isValid table level rules value)

section Consistent

variable {value : Json} (h : level.Consistent)
include h

theorem agrees_allOf (parts : List Node) : (allOf parts).Agrees table level rules value := by
  intro schemaPath instancePath
  refine Agrees.all (forall₂_zipIdx parts 0) ?_
  rintro ⟨part, index⟩ _ rfl
  exact h _ _ _ _

theorem agrees_condition (test : Node) (positive negative : Option Node) :
    (condition test positive negative).Agrees table level rules value := by
  intro schemaPath instancePath
  simp only [Rule.violations, Rule.isValid]
  split
  · exact Agrees.nil
  · refine Agrees.bind fun valid => ?_
    cases valid with
    | true =>
      cases positive with
      | none => exact Agrees.nil
      | some node => exact h _ _ _ _
    | false =>
      cases negative with
      | none => exact Agrees.nil
      | some node => exact h _ _ _ _

theorem agrees_properties (named : List (String × Node)) :
    (properties named).Agrees table level rules value := by
  intro schemaPath instancePath
  cases value with
  | object members =>
    refine Agrees.all_eq named ?_
    rintro ⟨name, node⟩ -
    dsimp only
    cases Entries.get? members name with
    | none => exact Agrees.nil
    | some member => exact h _ _ _ _
  | _ => exact Agrees.nil

theorem agrees_patternProperties (patterns : List (Pattern × Node)) :
    (patternProperties patterns).Agrees table level rules value := by
  intro schemaPath instancePath
  cases value with
  | object members =>
    refine Agrees.all_eq patterns ?_
    rintro ⟨pattern, node⟩ -
    exact Agrees.all_eq _ fun _ _ => h _ _ _ _
  | _ => exact Agrees.nil

/-- Members that there must not be count beside the violations of the others. -/
theorem agrees_allMembers (named : List (String × Node)) (patterns : List (Pattern × Node))
    (others : Option Node) : (allMembers named patterns others).Agrees table level rules value := by
  intro schemaPath instancePath
  cases value with
  | object members =>
    simp only [Rule.violations, Rule.isValid]
    refine Agrees.all_append (fun member => (nodesFor named patterns others member.1).isNone) _
      (Below.forall₂_eq members) ?_ ?_ ?_
    · have hempty : ((members.map (·.1)).filter fun name =>
          (nodesFor named patterns others name).isNone).isEmpty =
            members.all fun member => !(nodesFor named patterns others member.1).isNone := by
        rw [Bool.eq_iff_iff]
        simp [Option.isSome_iff_ne_none]
      rw [← hempty]
      split
      · next hnone => rw [hnone]; rfl
      · next hsome => rw [Bool.eq_false_iff.2 hsome]; rfl
    · rintro ⟨name, member⟩ _ rfl hsome
      dsimp only at hsome ⊢
      cases hnodes : nodesFor named patterns others name with
      | none => simp [hnodes] at hsome
      | some nodes => exact Agrees.all_eq nodes fun _ _ => h _ _ _ _
    · rintro ⟨name, member⟩ _ rfl hnone
      rw [Option.isNone_iff_eq_none] at hnone
      simp [hnone]
  | _ => exact Agrees.nil

theorem agrees_propertyNames (part : Node) :
    (propertyNames part).Agrees table level rules value := by
  intro schemaPath instancePath
  cases value with
  | object members =>
    cases part with
    | nothing =>
      simp only [Rule.violations, Rule.isValid]
      split
      · next hempty => exact hempty ▸ Agrees.nil
      · next hsome => exact (Bool.not_eq_true _).mp hsome ▸ Agrees.cons _
    | anything => exact Agrees.all_eq _ fun _ _ => h _ _ _ _
    | rules list => exact Agrees.all_eq _ fun _ _ => h _ _ _ _
  | _ => cases part <;> exact Agrees.nil

theorem agrees_dependencies (keyword : String) (dependents : List (String × (List String ⊕ Node))) :
    (dependencies keyword dependents).Agrees table level rules value := by
  intro schemaPath instancePath
  cases value with
  | object members =>
    refine Agrees.all_eq dependents ?_
    rintro ⟨key, dependent⟩ -
    dsimp only
    split
    · exact Agrees.nil
    · cases dependent with
      | inl names => exact agrees_flatMap _ _
      | inr node => exact h _ _ _ _
  | _ => exact Agrees.nil

theorem agrees_firstItems (keyword : String) (parts : List Node) :
    (firstItems keyword parts).Agrees table level rules value := by
  intro schemaPath instancePath
  cases value with
  | array items =>
    refine Agrees.all (forall₂_zipIdx (items.zip parts) 0) ?_
    rintro ⟨⟨item, part⟩, index⟩ _ rfl
    exact h _ _ _ _
  | _ => exact Agrees.nil

theorem agrees_laterItems (keyword : String) (first : Nat) (part : Node) :
    (laterItems keyword first part).Agrees table level rules value := by
  intro schemaPath instancePath
  cases value with
  | array items =>
    have hitems : List.Forall₂ (fun (a : Json × Nat) b => a.1 = b) (items.zipIdx.drop first)
        (items.drop first) :=
      List.forall₂_drop first (forall₂_zipIdx items 0)
    refine Agrees.all hitems ?_
    rintro ⟨item, index⟩ _ rfl
    exact h _ _ _ _
  | _ => exact Agrees.nil

end Consistent

section Verdicts

variable {value : Json}

theorem agrees_anyOf (parts : List Node) : (anyOf parts).Agrees table level rules value := by
  intro schemaPath instancePath
  refine Agrees.of_verdict fun valid => ?_
  cases valid with
  | true => exact Agrees.nil
  | false => exact Agrees.cons _

theorem agrees_oneOf (parts : List Node) : (oneOf parts).Agrees table level rules value := by
  intro schemaPath instancePath
  refine Agrees.bind fun rest => ?_
  cases rest with
  | none => exact Agrees.cons _
  | some rest =>
    refine Agrees.bind fun several => ?_
    cases several with
    | true => exact Agrees.cons _
    | false => exact Agrees.nil

theorem agrees_not (schema : Json) (part : Node) :
    (Rule.not schema part).Agrees table level rules value := by
  intro schemaPath instancePath
  refine Agrees.bind fun valid => ?_
  cases valid with
  | true => exact Agrees.cons _
  | false => exact Agrees.nil

theorem agrees_noMembers : noMembers.Agrees table level rules value := by
  intro schemaPath instancePath
  cases value with
  | object members =>
    cases members with
    | nil => exact Agrees.nil
    | cons member members => exact Agrees.cons _
  | _ => exact Agrees.nil

theorem agrees_contains (part : Node) (least most : Option Nat) :
    (contains part least most).Agrees table level rules value := by
  intro schemaPath instancePath
  cases value with
  | array items =>
    refine Agrees.bind fun kept => ?_
    dsimp only
    cases containsFault least most kept.length with
    | none => exact Agrees.nil
    | some keyword => exact Agrees.cons _
  | _ => exact Agrees.nil

theorem agrees_unevaluatedProperties (part : Node) :
    (unevaluatedProperties part).Agrees table level rules value := by
  intro schemaPath instancePath
  cases value with
  | object members =>
    refine Agrees.bind fun names => ?_
    cases names with
    | nil => exact Agrees.nil
    | cons name names => exact Agrees.cons _
  | _ => exact Agrees.nil

theorem agrees_unevaluatedItems (part : Node) :
    (unevaluatedItems part).Agrees table level rules value := by
  intro schemaPath instancePath
  cases value with
  | array items =>
    refine Agrees.bind fun unseen => ?_
    cases unseen with
    | nil => exact Agrees.nil
    | cons item unseen => exact Agrees.cons _
  | _ => exact Agrees.nil

end Verdicts

/-- One level up, a rule answers the two questions in agreement. -/
theorem agrees (h : level.Consistent) (value : Json) (rule : Rule) :
    rule.Agrees table level rules value := by
  cases rule with
  | assertion keyword claim => exact fun _ _ => agrees_flatMap _ _
  | reference keyword target => exact fun _ _ => h _ _ _ _
  | shared keyword index => exact fun _ _ => Agrees.bind fun node => h _ _ _ _
  | allOf parts => exact agrees_allOf h parts
  | anyOf parts => exact agrees_anyOf parts
  | oneOf parts => exact agrees_oneOf parts
  | not schema part => exact agrees_not schema part
  | condition test positive negative => exact agrees_condition h test positive negative
  | properties named => exact agrees_properties h named
  | patternProperties patterns => exact agrees_patternProperties h patterns
  | allMembers named patterns others => exact agrees_allMembers h named patterns others
  | noMembers => exact agrees_noMembers
  | propertyNames part => exact agrees_propertyNames h part
  | dependencies keyword dependents => exact agrees_dependencies h keyword dependents
  | firstItems keyword parts => exact agrees_firstItems h keyword parts
  | laterItems keyword first part => exact agrees_laterItems h keyword first part
  | contains part least most => exact agrees_contains part least most
  | unevaluatedProperties part => exact agrees_unevaluatedProperties part
  | unevaluatedItems part => exact agrees_unevaluatedItems part
  | anyMembers | anyItems =>
    intro schemaPath instancePath
    cases value <;> exact Agrees.nil

end Rule

namespace Level

variable {table : Array Node} {depth depth' : Nat} {node : Node} {value : Json}

theorem consistent_at (table : Array Node) (depth : Nat) : (at_ table depth).Consistent := by
  induction depth with
  | zero =>
    rw [at_zero]
    exact fun _ _ _ _ => Agrees.none
  | succ depth ih =>
    rw [at_succ]
    intro node schemaPath instancePath value
    cases node with
    | anything => exact Agrees.nil
    | nothing => exact Agrees.cons _
    | rules list => exact Agrees.all_eq list fun rule _ => rule.agrees ih _ _ _

/-- Going deeper keeps a verdict. -/
theorem isValid_mono (hle : depth ≤ depth') {b : Bool}
    (h : node.isValid table depth value = some b) : node.isValid table depth' value = some b := by
  induction hle with
  | refl => exact h
  | step _ ih => exact ((sim_succ table Move.stay _).isValid node node value rfl trivial).eq_some ih

/-- Going deeper keeps a list of violations. -/
theorem violations_mono (hle : depth ≤ depth') {list : List Violation}
    (h : node.violations table depth [] [] value = some list) :
    node.violations table depth' [] [] value = some list := by
  induction hle with
  | refl => exact h
  | step _ ih =>
    obtain ⟨list', hlist', hmoved⟩ :=
      (sim_succ table Move.stay _).violations node node value rfl trivial [] [] _ ih
    rw [Move.forall₂_moved_stay.1 hmoved]
    exact hlist'

end Level

section Found

variable {table : Array Node} {list : List Rule} {schemaPath instancePath : Path} {value : Json}
  {found : List Violation}

/-- What is found with one of its rules is found with a node. -/
theorem Node.found_of_rule {depth : Nat}
    (h : (Node.rules list).violations table (depth + 1) schemaPath instancePath value = some found)
    {rule : Rule} (hrule : rule ∈ list) :
    ∃ own, rule.violations table (Level.at_ table depth) list schemaPath instancePath value =
      some own ∧ own ⊆ found := by
  obtain ⟨lists, hlists, hflatten⟩ := Option.bind_eq_some_iff.1 h
  cases hflatten
  obtain ⟨own, hmem, hown⟩ := exists_mem_of_mapM_eq_some hlists hrule
  exact ⟨own, hown, fun _ hviolation => List.mem_flatten_of_mem hmem hviolation⟩

/-- What is found with one of the nodes that all have to be content is found with all
of them. -/
theorem Rule.found_of_allOf {level : Level} {parts : List Node}
    (h : (Rule.allOf parts).violations table level list schemaPath instancePath value = some found)
    {part : Node} (hpart : part ∈ parts) :
    ∃ partPath own, level.violations part partPath instancePath value = some own ∧
      own ⊆ found := by
  obtain ⟨lists, hlists, hflatten⟩ := Option.bind_eq_some_iff.1 h
  cases hflatten
  obtain ⟨index, hindex⟩ := List.mem_iff_getElem?.1 hpart
  have hplaced : (part, index) ∈ parts.zipIdx := List.mem_zipIdx_iff_getElem?.2 hindex
  obtain ⟨own, hmem, hown⟩ := exists_mem_of_mapM_eq_some hlists hplaced
  exact ⟨_, own, hown, fun _ hviolation => List.mem_flatten_of_mem hmem hviolation⟩

end Found

namespace Validator

variable {validator : Validator} {value : Json} {depth : Nat}

/-- What is found at any depth is found. -/
theorem violations_of_depth {list : List Violation}
    (h : validator.root.violations validator.shared depth [] [] value = some list) :
    validator.violations value = some list := by
  cases hfound : validator.violations value with
  | none =>
    rw [violations_eq_none_iff.1 hfound depth] at h
    cases h
  | some found =>
    rcases le_total depth (validator.levels value) with hle | hle
    · exact hfound.symm.trans (Level.violations_mono hle h)
    · exact (Level.violations_mono hle hfound).symm.trans h

/-- A value has no violations exactly if it is valid at some depth. -/
theorem violations_eq_nil_iff :
    validator.violations value = some [] ↔
      ∃ depth, validator.root.isValid validator.shared depth value = some true := by
  constructor
  · intro h
    exact ⟨_, (Level.consistent_at validator.shared _ validator.root [] [] value).verdict_eq [] h⟩
  · rintro ⟨depth, h⟩
    exact violations_of_depth
      ((Level.consistent_at validator.shared depth validator.root [] [] value).found_eq h)

/-- A value with an end to its violations has a verdict. -/
theorem exists_isValid (h : validator.violations value ≠ none) :
    ∃ depth b, validator.root.isValid validator.shared depth value = some b := by
  obtain ⟨list, hlist⟩ := Option.ne_none_iff_exists'.1 h
  exact ⟨_, _, (Level.consistent_at validator.shared _ validator.root [] [] value).verdict_eq list
    hlist⟩

end Validator

end ApiContract.JsonSchema
