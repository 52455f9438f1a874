import ApiContract.Proofs.Json.RoundTrip
import ApiContract.Proofs.JsonSchema.Circles
import Mathlib.Data.Finset.Card
import Mathlib.Logic.Relation
/-!
# How deep an evaluation without circles goes

A validator is acyclic if no node leads back to itself while the evaluation stays
at one value.  All that is asked about a value then has an answer at a depth that
grows with the number of nodes and with the nesting of the value alone
(`violations_of_acyclic`).  On the other hand, a circle that no node on it can pass
by has no answer at any depth (`violations_of_circle`).
-/

namespace ApiContract.JsonSchema

/-- A step that uses up some of a finite amount leads nowhere back. -/
theorem not_transGen_of_descends {α : Type} {step : α → α → Prop} {P : Nat → α → Prop}
    (h : ∀ n a b, P n a → step a b → ∃ m < n, P m b) {n : Nat} {a : α} (ha : P n a) :
    ¬ Relation.TransGen step a a := by
  have hdescends : ∀ n b, P n a → Relation.TransGen step a b → ∃ m < n, P m b := by
    intro n b hn hsteps
    induction hsteps with
    | single hstep => exact h n a _ hn hstep
    | tail _ hstep ih =>
      obtain ⟨m, hm, hmid⟩ := ih
      obtain ⟨k, hk, hlast⟩ := h m _ _ hmid hstep
      exact ⟨k, hk.trans hm, hlast⟩
  intro hcircle
  induction n using Nat.strong_induction_on with
  | h n ih =>
    obtain ⟨m, hm, hback⟩ := hdescends n a ha hcircle
    exact ih m hm hback

/-! ## Parts of values -/

theorem nesting_le_of_mem_items {items : List Json} {item : Json} (h : item ∈ items) :
    item.nesting ≤ Json.nestingOfItems items := by
  induction items with
  | nil => cases h
  | cons first rest ih =>
    rw [Json.nestingOfItems]
    rcases List.mem_cons.1 h with rfl | h
    · exact Nat.le_max_left _ _
    · exact (ih h).trans (Nat.le_max_right _ _)

theorem nesting_le_of_mem_members {members : List (String × Json)} {name : String} {member : Json}
    (h : (name, member) ∈ members) : member.nesting ≤ Json.nestingOfMembers members := by
  induction members with
  | nil => cases h
  | cons first rest ih =>
    obtain ⟨key, value⟩ := first
    rw [Json.nestingOfMembers]
    rcases List.mem_cons.1 h with heq | h
    · cases heq
      exact Nat.le_max_left _ _
    · exact (ih h).trans (Nat.le_max_right _ _)

theorem PartOf.nesting_lt {value part : Json} (h : PartOf value part) :
    part.nesting < value.nesting := by
  cases value with
  | array items =>
    cases h with
    | item h => exact Nat.lt_succ_of_le (nesting_le_of_mem_items h)
    | member h | name h => cases h
  | object members =>
    cases h with
    | item h => cases h
    | member h => exact Nat.lt_succ_of_le (nesting_le_of_mem_members h)
    | name h => exact Nat.succ_pos _
  | _ => cases h with
    | item h | member h | name h => cases h

/-! ## Without circles -/

theorem Level.Settles.mono {table : Array Node} {depth depth' : Nat} {node : Node} {value : Json}
    (h : (Level.at_ table depth).Settles node value) (hle : depth ≤ depth') :
    (Level.at_ table depth').Settles node value := by
  have hanswers (question : Question) (habout : question.About value)
      (hanswer : (Level.at_ table depth).Answers node question) :
      (Level.at_ table depth').Answers node question :=
    answers_mono habout hle hanswer
  refine ⟨fun schemaPath valuePath => ?_, ?_, fun name member hmember => ?_,
    fun index item hitem => ?_⟩
  · rw [Level.violations_isSome]
    exact hanswers (.violations value) .self (h.violations [] [])
  · exact hanswers (.isValid value) .self h.isValid
  · exact hanswers (.looksAtMember value name member) ⟨.self, hmember⟩
      (h.looksAtMember name member hmember)
  · exact hanswers (.looksAtItem value index item) ⟨.self, hitem⟩ (h.looksAtItem index item hitem)

namespace Validator

variable {validator : Validator} {value : Json} {node part : Node}

/-- No node leads back to itself without going on to a part of the value. -/
def Acyclic (validator : Validator) : Prop :=
  ∀ node ∈ validator.nodes, ¬ Relation.TransGen (Node.Stays validator.shared) node node

theorem mem_nodes_of_inPlace {list : List Rule} {rule : Rule} (h : .rules list ∈ validator.nodes)
    (hrule : rule ∈ list) (hpart : part ∈ rule.inPlace validator.shared) :
    part ∈ validator.nodes := by
  cases rule with
  | shared keyword index =>
    exact shared_mem_nodes (by simpa [Rule.inPlace] using hpart)
  | reference | allOf | anyOf | oneOf | not | condition | dependencies =>
    exact part_mem_nodes h hrule hpart
  | _ => cases hpart

open Classical in
/-- The nodes that an evaluation may come to from a node while it stays at a
value. -/
noncomputable def later (validator : Validator) (node : Node) : Finset Node :=
  validator.nodes.toFinset.filter (Relation.TransGen (Node.Stays validator.shared) node)

theorem mem_later : part ∈ validator.later node ↔
    part ∈ validator.nodes ∧ Relation.TransGen (Node.Stays validator.shared) node part := by
  classical
  rw [later, Finset.mem_filter, List.mem_toFinset]

/-- Each step leaves fewer nodes to come to. -/
theorem card_later_lt (hacyclic : validator.Acyclic) (hpart : part ∈ validator.nodes)
    (hstays : node.Stays validator.shared part) :
    (validator.later part).card < (validator.later node).card := by
  refine Finset.card_lt_card (Finset.ssubset_iff_subset_ne.2 ⟨?_, ?_⟩)
  · intro next hnext
    obtain ⟨hmem, hsteps⟩ := mem_later.1 hnext
    exact mem_later.2 ⟨hmem, .head hstays hsteps⟩
  · intro heq
    have hself : part ∈ validator.later part := heq ▸ mem_later.2 ⟨hpart, .single hstays⟩
    exact hacyclic part hpart (mem_later.1 hself).2

theorem card_later_lt_size (hacyclic : validator.Acyclic) (hnode : node ∈ validator.nodes) :
    (validator.later node).card < validator.size := by
  classical
  have hproper : validator.later node ⊂ validator.nodes.toFinset := by
    refine Finset.ssubset_iff_subset_ne.2 ⟨Finset.filter_subset _ _, fun heq => ?_⟩
    have hself : node ∈ validator.later node := heq ▸ List.mem_toFinset.2 hnode
    exact hacyclic node hnode (mem_later.1 hself).2
  calc (validator.later node).card
      < validator.nodes.toFinset.card := Finset.card_lt_card hproper
    _ ≤ validator.nodes.length := List.toFinset_card_le _
    _ = validator.size := validator.length_nodes

/-- A node settles everything about a value at a depth that leaves room for all
nodes at each part of the value, and for those that the node comes to at the value
itself. -/
theorem settles_of_acyclic (hlinked : validator.Linked) (hacyclic : validator.Acyclic)
    (hnode : node ∈ validator.nodes) :
    (Level.at_ validator.shared
      (validator.size * value.nesting + (validator.later node).card + 1)).Settles node value := by
  -- First down the value, and at each part of it along the nodes that stay there.
  induction hdeep : value.nesting using Nat.strong_induction_on generalizing value node with
  | h deep hbelow =>
  subst hdeep
  induction hcount : (validator.later node).card using Nat.strong_induction_on generalizing node with
  | h count hfewer =>
    subst hcount
    refine Level.settles_at_succ fun list rule heq hrule => ?_
    subst heq
    constructor
    · intro next hnext
      have hmem := mem_nodes_of_inPlace hnode hrule hnext
      have hlt := card_later_lt hacyclic hmem ⟨list, rule, rfl, hrule, hnext⟩
      exact (hfewer _ hlt hmem rfl).mono (by omega)
    · intro next hnext part hpart
      have hmem := part_mem_nodes hnode hrule hnext
      have hcard := card_later_lt_size hacyclic hmem
      have hroom : validator.size * (part.nesting + 1) ≤ validator.size * value.nesting :=
        Nat.mul_le_mul_left _ hpart.nesting_lt
      rw [Nat.mul_add, Nat.mul_one] at hroom
      exact (hbelow _ hpart.nesting_lt hmem rfl).mono (by omega)
    · exact fun keyword index => hlinked list rule keyword index hnode hrule

/-- Without circles, an evaluation comes to an end no deeper than once through all
nodes for the value and for each level of its nesting. -/
theorem violations_of_acyclic (hlinked : validator.Linked) (hacyclic : validator.Acyclic)
    (value : Json) : ∃ found,
      validator.root.violations validator.shared (validator.size * (value.nesting + 1)) [] [] value =
        some found ∧ validator.violations value = some found := by
  have hcard := card_later_lt_size hacyclic validator.root_mem_nodes
  have hsettles : (Level.at_ validator.shared
      (validator.size * (value.nesting + 1))).Settles validator.root value :=
    (settles_of_acyclic hlinked hacyclic validator.root_mem_nodes).mono (by rw [Nat.mul_add]; omega)
  obtain ⟨found, hfound⟩ := Option.isSome_iff_exists.1 (hsettles.violations [] [])
  exact ⟨found, hfound, violations_of_depth hfound⟩

end Validator

/-! ## Circles that nothing passes by -/

/-- The nodes that a rule applies to the value itself, whatever the value is and
whatever else is found out about it. -/
def Rule.always (table : Array Node) : Rule → List Node
  | reference _ target => [target]
  | shared _ index => table[index]?.toList
  | allOf parts => parts
  | _ => []

/-- A node asks another one about each value that it is asked about. -/
def Node.Insists (table : Array Node) (node part : Node) : Prop :=
  ∃ list rule, node = .rules list ∧ rule ∈ list ∧ part ∈ rule.always table

/-- What is found with a node takes what is found, one level deeper, with each node
that it insists on. -/
theorem Node.Insists.violations {table : Array Node} {node part : Node} {value : Json}
    {instancePath : Path} (h : node.Insists table part) {depth : Nat} {schemaPath : Path}
    {found : List Violation}
    (hfound : node.violations table depth schemaPath instancePath value = some found) :
    ∃ lower < depth, ∃ schemaPath' found',
      part.violations table lower schemaPath' instancePath value = some found' := by
  obtain ⟨list, rule, rfl, hrule, hpart⟩ := h
  cases depth with
  | zero => cases hfound
  | succ depth =>
    refine ⟨depth, Nat.lt_succ_self depth, ?_⟩
    obtain ⟨own, hown, -⟩ := Node.found_of_rule hfound hrule
    cases rule with
    | reference keyword target =>
      obtain rfl := List.mem_singleton.1 hpart
      exact ⟨_, own, hown⟩
    | shared keyword index =>
      have hget : table[index]? = some part := by simpa [Rule.always] using hpart
      simp only [Rule.violations, hget] at hown
      exact ⟨_, own, hown⟩
    | allOf parts =>
      obtain ⟨partPath, inner, hinner, -⟩ := Rule.found_of_allOf hown hpart
      exact ⟨partPath, inner, hinner⟩
    | _ => cases hpart

/-- A validator that cannot but enter a circle has no answer, whatever the value and
however deep it goes. -/
theorem Validator.violations_of_circle {validator : Validator} {node : Node}
    (hroot : Relation.ReflTransGen (Node.Insists validator.shared) validator.root node)
    (hcircle : Relation.TransGen (Node.Insists validator.shared) node node) (value : Json)
    (depth : Nat) :
    validator.root.violations validator.shared depth [] [] value = none := by
  by_contra hsome
  obtain ⟨found, hfound⟩ := Option.ne_none_iff_exists'.1 hsome
  let answers (depth : Nat) (node : Node) : Prop := ∃ schemaPath found,
    node.violations validator.shared depth schemaPath [] value = some found
  have hdescends (n : Nat) (a b : Node) (ha : answers n a) (hstep : a.Insists validator.shared b) :
      ∃ m < n, answers m b := by
    obtain ⟨schemaPath, found, hfound⟩ := ha
    exact hstep.violations hfound
  have hnode : ∃ depth, answers depth node := by
    clear hcircle
    induction hroot with
    | refl => exact ⟨depth, [], found, hfound⟩
    | tail _ hstep ih =>
      obtain ⟨n, hn⟩ := ih
      obtain ⟨m, -, hm⟩ := hdescends n _ _ hn hstep
      exact ⟨m, hm⟩
  obtain ⟨n, hn⟩ := hnode
  exact not_transGen_of_descends hdescends hn hcircle

/-! ## Looking for circles -/

/-- The nodes that a node stays with, and those that they stay with, run out after
so many steps. -/
def Node.runsOut (table : Array Node) : Nat → Node → Bool
  | 0, _ => false
  | steps + 1, .rules list => list.all fun rule => (rule.inPlace table).all (runsOut table steps)
  | _ + 1, _ => true

theorem Node.not_circle_of_runsOut {table : Array Node} {steps : Nat} {node : Node}
    (h : node.runsOut table steps = true) : ¬ Relation.TransGen (Node.Stays table) node node := by
  refine not_transGen_of_descends (P := fun steps node => node.runsOut table steps = true) ?_ h
  rintro steps _ part h ⟨list, rule, rfl, hrule, hpart⟩
  cases steps with
  | zero => cases h
  | succ steps =>
    rw [runsOut, List.all_eq_true] at h
    exact ⟨steps, Nat.lt_succ_self steps, List.all_eq_true.1 (h rule hrule) part hpart⟩

/-- All nodes that a node is made of pass a test, and it is made of no more than so
many levels of nodes. -/
def Node.everywhere (test : Node → Bool) : Nat → Node → Bool
  | 0, _ => false
  | depth + 1, .rules list =>
    test (.rules list) && list.all fun rule => rule.parts.all (everywhere test depth)
  | _ + 1, node => test node

theorem Node.test_of_everywhere {test : Node → Bool} {depth : Nat} {node : Node}
    (h : node.everywhere test depth = true) : ∀ part ∈ node.within, test part = true := by
  induction depth generalizing node with
  | zero => cases h
  | succ depth ih =>
    intro part hpart
    cases node with
    | rules list =>
      rw [everywhere, Bool.and_eq_true, List.all_eq_true] at h
      rw [within_rules] at hpart
      rcases List.mem_cons.1 hpart with rfl | hpart
      · exact h.1
      · obtain ⟨rule, hrule, hpart⟩ := List.mem_flatMap.1 hpart
        obtain ⟨inner, hinner, hpart⟩ := List.mem_flatMap.1 hpart
        exact ih (List.all_eq_true.1 (h.2 rule hrule) inner hinner) part hpart
    | anything | nothing =>
      rw [within, List.mem_singleton] at hpart
      subst hpart
      exact h

/-- Whether the nodes of a validator are seen to have no circle. -/
def Validator.isAcyclic (validator : Validator) : Bool :=
  (validator.root :: validator.shared.toList).all
    (Node.everywhere (Node.runsOut validator.shared validator.size) validator.size)

theorem Validator.acyclic_of_isAcyclic {validator : Validator} (h : validator.isAcyclic = true) :
    validator.Acyclic := by
  rw [isAcyclic, List.all_eq_true] at h
  intro node hnode
  suffices hruns : node.runsOut validator.shared validator.size = true from
    Node.not_circle_of_runsOut hruns
  rcases List.mem_append.1 hnode with hnode | hnode
  · exact Node.test_of_everywhere (h _ List.mem_cons_self) node hnode
  · obtain ⟨top, htop, hnode⟩ := List.mem_flatMap.1 hnode
    exact Node.test_of_everywhere (h top (List.mem_cons_of_mem _ htop)) node hnode

end ApiContract.JsonSchema
