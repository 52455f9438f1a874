import ApiContract.JsonSchema.Compilation
import ApiContract.Proofs.Json.Order
import ApiContract.Proofs.JsonSchema.Simulation
import Mathlib.Algebra.GroupWithZero.Nat
import Mathlib.Algebra.Order.BigOperators.Group.List
import Mathlib.Data.Finset.Card
import Mathlib.Data.List.ProdSigma
import Mathlib.Order.Monotone.Basic
/-!
# How deep an evaluation goes

Going deeper never changes an answer (`answers_mono`).  The questions that
judging a value gives rise to are finitely many: each is about a node of the
validator and about something in the value.  Once one more level answers none
of them that was not answered before, no level ever will, so as many levels as
there are questions are enough (`violations_eq_none_iff`).
-/

namespace ApiContract.JsonSchema

/-! ## The nodes of a validator -/

theorem sizeOfRules_eq (list : List Rule) : sizeOfRules list = (list.map Rule.size).sum := by
  induction list with
  | nil => rfl
  | cons rule rest ih => rw [sizeOfRules, ih, List.map_cons, List.sum_cons]

theorem sizeOfList_eq (nodes : List Node) : sizeOfList nodes = (nodes.map Node.size).sum := by
  induction nodes with
  | nil => rfl
  | cons node rest ih => rw [sizeOfList, ih, List.map_cons, List.sum_cons]

theorem sizeOfChoice_eq (node : Option Node) :
    sizeOfChoice node = (node.toList.map Node.size).sum := by
  cases node with
  | none => rfl
  | some node => simp [sizeOfChoice]

theorem sizeOfNamed_eq (named : List (String × Node)) :
    sizeOfNamed named = ((named.map (·.2)).map Node.size).sum := by
  induction named with
  | nil => rfl
  | cons entry rest ih => simp [sizeOfNamed, ih]

theorem sizeOfPatterns_eq (patterns : List (Pattern × Node)) :
    sizeOfPatterns patterns = ((patterns.map (·.2)).map Node.size).sum := by
  induction patterns with
  | nil => rfl
  | cons entry rest ih => simp [sizeOfPatterns, ih]

theorem sizeOfDependents_eq (dependents : List (String × (List String ⊕ Node))) :
    sizeOfDependents dependents = ((Rule.dependencies "" dependents).parts.map Node.size).sum := by
  induction dependents with
  | nil => rfl
  | cons entry rest ih =>
    obtain ⟨key, names | node⟩ := entry
    · simpa [sizeOfDependents, Rule.parts] using ih
    · simpa [sizeOfDependents, Rule.parts] using ih

/-- A rule is as large as the nodes that it applies. -/
theorem Rule.size_eq (rule : Rule) : rule.size = (rule.parts.map Node.size).sum := by
  cases rule with
  | allOf parts | anyOf parts | oneOf parts | firstItems _ parts => exact sizeOfList_eq parts
  | condition test positive negative =>
    simp [Rule.size, Rule.parts, sizeOfChoice_eq]
  | properties named => exact sizeOfNamed_eq named
  | patternProperties patterns => exact sizeOfPatterns_eq patterns
  | allMembers named patterns others =>
    simp [Rule.size, Rule.parts, sizeOfChoice_eq, sizeOfNamed_eq, sizeOfPatterns_eq]
  | dependencies keyword dependents => exact sizeOfDependents_eq dependents
  | _ => simp [Rule.size, Rule.parts]

theorem Node.size_lt_of_mem_parts {list : List Rule} {rule : Rule} {part : Node} (hrule : rule ∈ list)
    (hpart : part ∈ rule.parts) : part.size < (Node.rules list).size := by
  have hle : part.size ≤ rule.size :=
    rule.size_eq ▸ List.le_sum_of_mem (List.mem_map_of_mem hpart)
  have hle' : rule.size ≤ sizeOfRules list :=
    sizeOfRules_eq list ▸ List.le_sum_of_mem (List.mem_map_of_mem hrule)
  rw [Node.size]
  omega

/-- What passes from the parts of its rules to a node holds of all nodes. -/
theorem Node.induction_size {P : Node → Prop}
    (h : ∀ node, (∀ list, node = .rules list → ∀ rule ∈ list, ∀ part ∈ rule.parts, P part) → P node)
    (node : Node) : P node :=
  h node fun list heq rule hrule part hpart =>
    have := heq ▸ Node.size_lt_of_mem_parts hrule hpart
    Node.induction_size h part
termination_by node.size

/-- The nodes that a node is made of, itself included. -/
def Node.within : Node → List Node
  | .anything => [.anything]
  | .nothing => [.nothing]
  | .rules list =>
    .rules list :: list.attach.flatMap fun ⟨rule, hrule⟩ =>
      rule.parts.attach.flatMap fun ⟨part, hpart⟩ =>
        have := Node.size_lt_of_mem_parts hrule hpart
        part.within
termination_by node => node.size

theorem Node.within_rules (list : List Rule) :
    (Node.rules list).within =
      .rules list :: list.flatMap fun rule => rule.parts.flatMap Node.within := by
  rw [Node.within]
  simp

theorem Node.mem_within_self (node : Node) : node ∈ node.within := by
  cases node with
  | rules list =>
    rw [Node.within_rules]
    exact List.mem_cons_self
  | _ => simp [Node.within]

theorem Node.length_within (node : Node) : node.within.length = node.size := by
  induction node using Node.induction_size with
  | h node ih =>
  cases node with
  | rules list =>
    have hlist : ∀ rule ∈ list, (rule.parts.flatMap Node.within).length = rule.size := by
      intro rule hrule
      rw [List.length_flatMap, rule.size_eq]
      exact congrArg List.sum (List.map_congr_left fun part hpart => ih list rfl rule hrule part hpart)
    rw [Node.within_rules, Node.size, List.length_cons, List.length_flatMap, sizeOfRules_eq]
    exact congrArg (·.sum + 1) (List.map_congr_left hlist)
  | _ => simp [Node.within, Node.size]

/-- With a node, the parts of its rules are among the nodes of a node. -/
theorem Node.mem_within_of_part {node : Node} {list : List Rule} {rule : Rule} {part : Node}
    (h : .rules list ∈ node.within) (hrule : rule ∈ list) (hpart : part ∈ rule.parts) :
    part ∈ node.within := by
  induction node using Node.induction_size with
  | h node ih =>
  cases node with
  | rules list' =>
    rw [Node.within_rules] at h ⊢
    rcases List.mem_cons.1 h with heq | hmem
    · cases heq
      exact List.mem_cons_of_mem _ (List.mem_flatMap.2 ⟨rule, hrule,
        List.mem_flatMap.2 ⟨part, hpart, part.mem_within_self⟩⟩)
    · obtain ⟨rule', hrule', hmem⟩ := List.mem_flatMap.1 hmem
      obtain ⟨part', hpart', hmem⟩ := List.mem_flatMap.1 hmem
      exact List.mem_cons_of_mem _ (List.mem_flatMap.2 ⟨rule', hrule',
        List.mem_flatMap.2 ⟨part', hpart', ih list' rfl rule' hrule' part' hpart' hmem⟩⟩)
  | _ => simp [Node.within] at h

/-- The nodes that a validator is made of. -/
def Validator.nodes (validator : Validator) : List Node :=
  validator.root.within ++ validator.shared.toList.flatMap Node.within

theorem Validator.length_nodes (validator : Validator) :
    validator.nodes.length = validator.size := by
  rw [nodes, size, List.length_append, Node.length_within, List.length_flatMap, sizeOfList_eq]
  simp only [Node.length_within]

theorem Validator.root_mem_nodes (validator : Validator) : validator.root ∈ validator.nodes :=
  List.mem_append_left _ validator.root.mem_within_self

theorem Validator.shared_mem_nodes {validator : Validator} {index : Nat} {node : Node}
    (h : validator.shared[index]? = some node) : node ∈ validator.nodes := by
  have hmem : node ∈ validator.shared.toList := by
    rw [← Array.getElem?_toList] at h
    exact List.mem_of_getElem? h
  exact List.mem_append_right _ (List.mem_flatMap.2 ⟨node, hmem, node.mem_within_self⟩)

theorem Validator.part_mem_nodes {validator : Validator} {list : List Rule} {rule : Rule}
    {part : Node} (h : .rules list ∈ validator.nodes) (hrule : rule ∈ list)
    (hpart : part ∈ rule.parts) : part ∈ validator.nodes := by
  rcases List.mem_append.1 h with h | h
  · exact List.mem_append_left _ (Node.mem_within_of_part h hrule hpart)
  · obtain ⟨node, hnode, h⟩ := List.mem_flatMap.1 h
    exact List.mem_append_right _ (List.mem_flatMap.2
      ⟨node, hnode, Node.mem_within_of_part h hrule hpart⟩)

/-! ## Nodes as they are -/

/-- A rule is like itself if its parts and what it shares are related to
themselves. -/
theorem Rule.sim_self {E : Json → Json → Prop} {N : Node → Node → Prop} {table : Array Node}
    {rule : Rule} (hschemas : ∀ schema, E schema schema)
    (hparts : ∀ part ∈ rule.parts, N part part)
    (hshared : ∀ keyword index node, rule = .shared keyword index → table[index]? = some node →
      N node node) : rule.Sim E N table table rule := by
  have hlist : ∀ nodes : List Node, (∀ node ∈ nodes, N node node) → List.Forall₂ N nodes nodes :=
    fun nodes h => List.forall₂_same.2 h
  have hchoice : ∀ node : Option Node, (∀ n ∈ node.toList, N n n) → Option.Rel N node node := by
    rintro (_ | node) h
    · exact .none
    · exact .some (h node (by simp))
  cases rule with
  | assertion keyword claim => exact .assertion keyword claim
  | reference keyword target =>
    exact .follow (.reference keyword target) (.reference keyword target)
      (.some (hparts target List.mem_cons_self))
  | shared keyword index =>
    refine .follow (.shared keyword index) (.shared keyword index) ?_
    cases hget : table[index]? with
    | none => exact .none
    | some node => exact .some (hshared keyword index node rfl hget)
  | allOf parts => exact .allOf (hlist parts hparts)
  | anyOf parts => exact .anyOf (hlist parts hparts)
  | oneOf parts => exact .oneOf (hlist parts hparts)
  | not schema part => exact .not (hschemas schema) (hparts part List.mem_cons_self)
  | condition test positive negative =>
    refine .condition (hparts test List.mem_cons_self) (hchoice positive fun n hn => ?_)
      (hchoice negative fun n hn => ?_)
    · exact hparts n (List.mem_append_left _ (List.mem_cons_of_mem _ hn))
    · exact hparts n (List.mem_append_right _ hn)
  | properties named =>
    exact .properties (List.forall₂_same.2 fun entry hentry =>
      ⟨rfl, hparts entry.2 (List.mem_map_of_mem hentry)⟩)
  | patternProperties patterns =>
    exact .patternProperties (List.forall₂_same.2 fun entry hentry =>
      ⟨rfl, hparts entry.2 (List.mem_map_of_mem hentry)⟩)
  | allMembers named patterns others =>
    refine .allMembers (List.forall₂_same.2 fun entry hentry => ⟨rfl, hparts entry.2 ?_⟩)
      (List.forall₂_same.2 fun entry hentry => ⟨rfl, hparts entry.2 ?_⟩)
      (hchoice others fun n hn => hparts n ?_)
    · exact List.mem_append_left _ (List.mem_append_left _ (List.mem_map_of_mem hentry))
    · exact List.mem_append_left _ (List.mem_append_right _ (List.mem_map_of_mem hentry))
    · exact List.mem_append_right _ hn
  | noMembers => exact .noMembers
  | anyMembers => exact .anyMembers
  | propertyNames part => exact .propertyNames (hparts part List.mem_cons_self)
  | dependencies keyword dependents =>
    refine .dependencies keyword (List.forall₂_same.2 ?_)
    rintro ⟨key, names | node⟩ hentry
    · exact ⟨rfl, .inl rfl⟩
    · exact ⟨rfl, .inr (hparts node (List.mem_filterMap.2 ⟨_, hentry, rfl⟩))⟩
  | firstItems keyword parts => exact .firstItems keyword (hlist parts hparts)
  | laterItems keyword first part =>
    exact .laterItems keyword first (hparts part List.mem_cons_self)
  | anyItems => exact .anyItems
  | contains part least most => exact .contains least most (hparts part List.mem_cons_self)
  | unevaluatedProperties part => exact .unevaluatedProperties (hparts part List.mem_cons_self)
  | unevaluatedItems part => exact .unevaluatedItems (hparts part List.mem_cons_self)

/-- Being one and the same node of a validator. -/
def Validator.Same (validator : Validator) (node node' : Node) : Prop :=
  node = node' ∧ node ∈ validator.nodes

theorem Validator.isSimulation_same (validator : Validator) {E : Json → Json → Prop}
    (hschemas : ∀ schema, E schema schema) :
    IsSimulation E validator.Same validator.shared validator.shared := by
  rintro node _ ⟨rfl, hmem⟩
  cases node with
  | anything => exact .anything
  | nothing => exact .nothing
  | rules list =>
    refine .rules (List.forall₂_same.2 fun rule hrule => ?_)
    refine Rule.sim_self hschemas (fun part hpart => ⟨rfl, part_mem_nodes hmem hrule hpart⟩) ?_
    intro keyword index node _ hget
    exact ⟨rfl, shared_mem_nodes hget⟩

/-! ## Questions -/

/-- What can be asked of a node. -/
inductive Question where
  | violations (value : Json)
  | isValid (value : Json)
  | looksAtMember (value : Json) (name : String) (member : Json)
  | looksAtItem (value : Json) (index : Nat) (item : Json)

mutual

/-- The questions that judging a value may come to. -/
def questions : Json → List Question
  | .array items =>
    [.violations (.array items), .isValid (.array items)] ++
      questionsOfItems (.array items) 0 items
  | .object members =>
    [.violations (.object members), .isValid (.object members)] ++
      questionsOfMembers (.object members) members
  | value => [.violations value, .isValid value]

/-- The questions about items of a value. -/
def questionsOfItems (value : Json) (index : Nat) : List Json → List Question
  | [] => []
  | item :: rest =>
    .looksAtItem value index item :: (questions item ++ questionsOfItems value (index + 1) rest)

/-- The questions about members of a value, and about their names. -/
def questionsOfMembers (value : Json) : List (String × Json) → List Question
  | [] => []
  | (name, member) :: rest =>
    [.looksAtMember value name member, .violations (.string name), .isValid (.string name)] ++
      (questions member ++ questionsOfMembers value rest)

end

mutual

theorem length_questions : ∀ value : Json, (questions value).length + 3 ≤ 5 * value.size
  | .array items => by
    have := length_questionsOfItems (.array items) 0 items
    simp only [questions, List.length_append, List.length_cons, List.length_nil, Json.size]
    omega
  | .object members => by
    have := length_questionsOfMembers (.object members) members
    simp only [questions, List.length_append, List.length_cons, List.length_nil, Json.size]
    omega
  | .null | .bool _ | .number _ | .string _ => by simp [questions, Json.size]

theorem length_questionsOfItems (value : Json) (index : Nat) : ∀ items : List Json,
    (questionsOfItems value index items).length ≤ 5 * Json.sizeItems items
  | [] => by simp [questionsOfItems]
  | item :: rest => by
    have := length_questions item
    have := length_questionsOfItems value (index + 1) rest
    simp only [questionsOfItems, List.length_cons, List.length_append, Json.sizeItems]
    omega

theorem length_questionsOfMembers (value : Json) : ∀ members : List (String × Json),
    (questionsOfMembers value members).length ≤ 5 * Json.sizeMembers members
  | [] => by simp [questionsOfMembers]
  | (name, member) :: rest => by
    have := length_questions member
    have := length_questionsOfMembers value rest
    simp only [questionsOfMembers, List.length_append, List.length_cons, List.length_nil,
      Json.sizeMembers]
    omega

end

/-- What one comes to from a value, going to items, members and names. -/
inductive Inside (value : Json) : Json → Prop
  | self : Inside value value
  | item {part item : Json} (h : Inside value part) (hitem : item ∈ itemsOf part) : Inside value item
  | member {part member : Json} {name : String} (h : Inside value part)
    (hmember : (name, member) ∈ membersOf part) : Inside value member
  | name {part member : Json} {name : String} (h : Inside value part)
    (hmember : (name, member) ∈ membersOf part) : Inside value (.string name)

theorem isClosed_inside (value : Json) : IsClosed (Inside value) :=
  ⟨fun _ _ h hitem => h.item hitem, fun _ _ _ h hmember => h.member hmember,
    fun _ _ _ h hmember => h.name hmember⟩

theorem mem_questionsOfItems {value item : Json} {items : List Json} {start index : Nat}
    (h : (item, index) ∈ items.zipIdx start) :
    .looksAtItem value index item ∈ questionsOfItems value start items ∧
      questions item ⊆ questionsOfItems value start items := by
  induction items generalizing start with
  | nil => simp at h
  | cons head rest ih =>
    rw [questionsOfItems]
    rcases List.mem_cons.1 h with heq | h
    · cases heq
      exact ⟨List.mem_cons_self, fun _ hq => List.mem_cons_of_mem _ (List.mem_append_left _ hq)⟩
    · obtain ⟨hlooks, hinside⟩ := ih h
      exact ⟨List.mem_cons_of_mem _ (List.mem_append_right _ hlooks),
        fun _ hq => List.mem_cons_of_mem _ (List.mem_append_right _ (hinside hq))⟩

theorem mem_questionsOfMembers {value member : Json} {name : String}
    {members : List (String × Json)} (h : (name, member) ∈ members) :
    .looksAtMember value name member ∈ questionsOfMembers value members ∧
      questions (.string name) ⊆ questionsOfMembers value members ∧
      questions member ⊆ questionsOfMembers value members := by
  induction members with
  | nil => simp at h
  | cons head rest ih =>
    obtain ⟨key, part⟩ := head
    rw [questionsOfMembers]
    rcases List.mem_cons.1 h with heq | h
    · cases heq
      refine ⟨by simp, ?_, ?_⟩
      · intro question hq
        simp only [questions, List.mem_cons, List.not_mem_nil, or_false] at hq
        rcases hq with rfl | rfl <;> simp
      · intro question hq
        exact List.mem_append_right _ (List.mem_append_left _ hq)
    · obtain ⟨hlooks, hname, hinside⟩ := ih h
      exact ⟨List.mem_append_right _ (List.mem_append_right _ hlooks),
        fun _ hq => List.mem_append_right _ (List.mem_append_right _ (hname hq)),
        fun _ hq => List.mem_append_right _ (List.mem_append_right _ (hinside hq))⟩

theorem violations_mem_questions (value : Json) : .violations value ∈ questions value := by
  cases value <;> simp [questions]

theorem isValid_mem_questions (value : Json) : .isValid value ∈ questions value := by
  cases value <;> simp [questions]

theorem looksAtMember_mem_questions {value member : Json} {name : String}
    (h : (name, member) ∈ membersOf value) : .looksAtMember value name member ∈ questions value := by
  cases value with
  | object members => exact List.mem_append_right _ (mem_questionsOfMembers h).1
  | _ => cases h

theorem looksAtItem_mem_questions {value item : Json} {index : Nat}
    (h : (item, index) ∈ (itemsOf value).zipIdx) : .looksAtItem value index item ∈ questions value := by
  cases value with
  | array items => exact List.mem_append_right _ (mem_questionsOfItems h).1
  | _ => cases h

/-- What is asked about something inside a value may be asked when the value is
judged. -/
theorem questions_subset {value part : Json} (h : Inside value part) :
    questions part ⊆ questions value := by
  induction h with
  | self => exact List.Subset.refl _
  | @item part item _ hitem ih =>
    refine List.Subset.trans ?_ ih
    cases part with
    | array items =>
      obtain ⟨index, hindex⟩ := List.mem_iff_getElem?.1 hitem
      exact List.subset_append_of_subset_right _ (mem_questionsOfItems
        (List.mem_zipIdx_iff_getElem?.2 hindex)).2
    | _ => cases hitem
  | @member part member name _ hmember ih =>
    refine List.Subset.trans ?_ ih
    cases part with
    | object members =>
      exact List.subset_append_of_subset_right _ (mem_questionsOfMembers hmember).2.2
    | _ => cases hmember
  | @name part member name _ hmember ih =>
    refine List.Subset.trans ?_ ih
    cases part with
    | object members =>
      exact List.subset_append_of_subset_right _ (mem_questionsOfMembers hmember).2.1
    | _ => cases hmember

/-- The question is about something inside the value. -/
def Question.About (value : Json) : Question → Prop
  | .violations part | .isValid part => Inside value part
  | .looksAtMember part name member => Inside value part ∧ (name, member) ∈ membersOf part
  | .looksAtItem part index item => Inside value part ∧ (item, index) ∈ (itemsOf part).zipIdx

theorem Question.About.mem_questions {value : Json} {question : Question}
    (h : question.About value) : question ∈ questions value := by
  cases question with
  | violations part => exact questions_subset h (violations_mem_questions part)
  | isValid part => exact questions_subset h (isValid_mem_questions part)
  | looksAtMember part name member =>
    exact questions_subset h.1 (looksAtMember_mem_questions h.2)
  | looksAtItem part index item => exact questions_subset h.1 (looksAtItem_mem_questions h.2)

/-- The level has an answer to the question about the node. -/
def Level.Answers (level : Level) (node : Node) : Question → Prop
  | .violations value => (level.violations node [] [] value).isSome = true
  | .isValid value => (level.isValid node value).isSome = true
  | .looksAtMember value name member => (level.looksAtMember node value name member).isSome = true
  | .looksAtItem value index item => (level.looksAtItem node value index item).isSome = true

/-! ## Going deeper -/

/-- Staying where one is. -/
def Move.stay : Move := ⟨[], [], [], [], Eq, fun _ => rfl⟩

theorem Move.forall₂_moved_stay {a b : List Violation} :
    List.Forall₂ Move.stay.Moved a b ↔ a = b := by
  constructor
  · intro h
    induction h with
    | nil => rfl
    | cons hab _ ih =>
      obtain ⟨schemaPath, valuePath, value, cause, cause', hcause, rfl, rfl⟩ := hab
      obtain rfl : cause = cause' := by
        cases hcause with
        | same => rfl
        | not hschema => exact congrArg Cause.not hschema
      rw [ih]
      rfl
  · rintro rfl
    refine List.forall₂_same.2 fun violation _ => ?_
    exact ⟨violation.schemaPath, violation.instancePath, violation.value, violation.cause, _, .same _,
      rfl, rfl⟩

namespace Level

variable {table : Array Node}

theorem isSimulation_eq (move : Move) (table : Array Node) :
    IsSimulation move.negated Eq table table := by
  rintro node _ rfl
  cases node with
  | anything => exact .anything
  | nothing => exact .nothing
  | rules list =>
    exact .rules (List.forall₂_same.2 fun rule _ =>
      Rule.sim_self move.negated_self (fun _ _ => rfl) fun _ _ _ _ _ => rfl)

theorem isClosed_true : IsClosed fun _ => True :=
  ⟨fun _ _ _ _ => trivial, fun _ _ _ _ _ => trivial, fun _ _ _ _ _ => trivial⟩

/-- One level more keeps all answers, wherever they are asked for. -/
theorem sim_succ (table : Array Node) (move : Move) (depth : Nat) :
    Level.Sim Eq (fun _ => True) move (at_ table depth) (at_ table (depth + 1)) := by
  induction depth with
  | zero =>
    rw [at_zero]
    exact sim_bottom _
  | succ depth ih =>
    rw [at_succ, at_succ table (depth + 1)]
    exact ih.next (isSimulation_eq move table) isClosed_true

/-- Where in a schema and in a value a violation is looked for does not matter
for whether there is an end to it. -/
theorem violations_isSome (table : Array Node) (depth : Nat) (node : Node) (value : Json)
    (schemaPath valuePath : Path) :
    ((at_ table depth).violations node schemaPath valuePath value).isSome =
      ((at_ table depth).violations node [] [] value).isSome := by
  have hsim (move : Move) : Level.Sim Eq (fun _ => True) move (at_ table depth) (at_ table depth) :=
    sim_at (isSimulation_eq move table) isClosed_true depth
  have hto := (hsim ⟨schemaPath, [], valuePath, [], Eq, fun _ => rfl⟩).violations node node value rfl
    trivial [] []
  have hfrom := (hsim ⟨[], schemaPath, [], valuePath, Eq, fun _ => rfl⟩).violations node node value rfl
    trivial [] []
  simp only [List.append_nil] at hto hfrom
  rw [Bool.eq_iff_iff, Option.isSome_iff_exists, Option.isSome_iff_exists]
  constructor
  · rintro ⟨list, hlist⟩
    obtain ⟨list', hlist', -⟩ := hto list hlist
    exact ⟨list', hlist'⟩
  · rintro ⟨list, hlist⟩
    obtain ⟨list', hlist', -⟩ := hfrom list hlist
    exact ⟨list', hlist'⟩

theorem answers_of_sim {N : Node → Node → Prop} {level level' : Level} {value : Json}
    (h : Level.Sim N (Inside value) Move.stay level level') {node node' : Node}
    (hnode : N node node') {question : Question} (habout : question.About value)
    (hanswer : level.Answers node question) : level'.Answers node' question := by
  cases question with
  | violations part =>
    obtain ⟨list, hlist⟩ := Option.isSome_iff_exists.1 hanswer
    obtain ⟨list', hlist', -⟩ := h.violations node node' part hnode habout [] [] list hlist
    exact Option.isSome_iff_exists.2 ⟨list', hlist'⟩
  | isValid part =>
    obtain ⟨b, hb⟩ := Option.isSome_iff_exists.1 hanswer
    exact Option.isSome_iff_exists.2 ⟨b, (h.isValid node node' part hnode habout).eq_some hb⟩
  | looksAtMember part name member =>
    obtain ⟨b, hb⟩ := Option.isSome_iff_exists.1 hanswer
    exact Option.isSome_iff_exists.2
      ⟨b, (h.looksAtMember node node' part name member hnode habout.1 habout.2).eq_some hb⟩
  | looksAtItem part index item =>
    obtain ⟨b, hb⟩ := Option.isSome_iff_exists.1 hanswer
    exact Option.isSome_iff_exists.2
      ⟨b, (h.looksAtItem node node' part index item hnode habout.1 habout.2).eq_some hb⟩

theorem Sim.restrict {N N' : Node → Node → Prop} {V V' : Json → Prop} {move : Move}
    {level level' : Level} (h : Level.Sim N V move level level')
    (hN : ∀ node node', N' node node' → N node node') (hV : ∀ value, V' value → V value) :
    Level.Sim N' V' move level level' :=
  ⟨fun node node' value hnode hvalue =>
      h.violations node node' value (hN node node' hnode) (hV value hvalue),
    fun node node' value hnode hvalue =>
      h.isValid node node' value (hN node node' hnode) (hV value hvalue),
    fun node node' value name member hnode hvalue =>
      h.looksAtMember node node' value name member (hN node node' hnode) (hV value hvalue),
    fun node node' value index item hnode hvalue =>
      h.looksAtItem node node' value index item (hN node node' hnode) (hV value hvalue)⟩

theorem answers_succ {value : Json} {node : Node} {question : Question} {depth : Nat}
    (habout : question.About value) (h : (at_ table depth).Answers node question) :
    (at_ table (depth + 1)).Answers node question :=
  answers_of_sim ((sim_succ table Move.stay depth).restrict (fun _ _ h => h) fun _ _ => trivial) rfl
    habout h

theorem answers_mono {value : Json} {node : Node} {question : Question} {depth depth' : Nat}
    (habout : question.About value) (hle : depth ≤ depth')
    (h : (at_ table depth).Answers node question) : (at_ table depth').Answers node question := by
  induction hle with
  | refl => exact h
  | step _ ih => exact answers_succ habout ih

/-- A level that answers the same questions as the one above it answers them
in the same way. -/
theorem sim_of_answers {N : Node → Node → Prop} {value : Json} {depth : Nat}
    (hN : ∀ node node', N node node' → node = node')
    (h : ∀ node question, N node node → question.About value →
      (at_ table (depth + 1)).Answers node question → (at_ table depth).Answers node question) :
    Level.Sim N (Inside value) Move.stay (at_ table (depth + 1)) (at_ table depth) := by
  have hsim := sim_succ table Move.stay depth
  constructor
  · intro node node' part hnode hpart schemaPath valuePath list hlist
    obtain rfl := hN node node' hnode
    have hsome : ((at_ table (depth + 1)).violations node [] [] part).isSome = true :=
      violations_isSome table _ node part (Move.stay.schema ++ schemaPath)
        (Move.stay.value ++ valuePath) ▸ Option.isSome_iff_exists.2 ⟨list, hlist⟩
    have hlow := h node (.violations part) hnode hpart hsome
    rw [Answers, ← violations_isSome table _ node part (Move.stay.schema' ++ schemaPath)
      (Move.stay.value' ++ valuePath)] at hlow
    obtain ⟨list', hlist'⟩ := Option.isSome_iff_exists.1 hlow
    obtain ⟨list'', hlist'', hmoved⟩ :=
      hsim.violations node node part rfl trivial schemaPath valuePath list' hlist'
    obtain rfl : list = list'' := Option.some.inj (hlist.symm.trans hlist'')
    obtain rfl := Move.forall₂_moved_stay.1 hmoved
    exact ⟨list', hlist', Move.forall₂_moved_stay.2 rfl⟩
  · intro node node' part hnode hpart b hb
    obtain rfl := hN node node' hnode
    obtain ⟨b', hb'⟩ := Option.isSome_iff_exists.1
      (h node (.isValid part) hnode hpart (Option.isSome_iff_exists.2 ⟨b, hb⟩))
    have heq := (hsim.isValid node node part rfl trivial).eq_some hb'
    exact ⟨b', hb', Option.some.inj (hb.symm.trans heq)⟩
  · intro node node' part name member hnode hpart hmem b hb
    obtain rfl := hN node node' hnode
    obtain ⟨b', hb'⟩ := Option.isSome_iff_exists.1
      (h node (.looksAtMember part name member) hnode ⟨hpart, hmem⟩
        (Option.isSome_iff_exists.2 ⟨b, hb⟩))
    have heq := (hsim.looksAtMember node node part name member rfl trivial hmem).eq_some hb'
    exact ⟨b', hb', Option.some.inj (hb.symm.trans heq)⟩
  · intro node node' part index item hnode hpart hmem b hb
    obtain rfl := hN node node' hnode
    obtain ⟨b', hb'⟩ := Option.isSome_iff_exists.1
      (h node (.looksAtItem part index item) hnode ⟨hpart, hmem⟩
        (Option.isSome_iff_exists.2 ⟨b, hb⟩))
    have heq := (hsim.looksAtItem node node part index item rfl trivial hmem).eq_some hb'
    exact ⟨b', hb', Option.some.inj (hb.symm.trans heq)⟩

end Level

/-! ## How deep is deep enough -/

namespace Validator

open Classical in
/-- The questions about things in the value that the nodes of a validator
answer at a depth. -/
noncomputable def answered (validator : Validator) (value : Json) (depth : Nat) :
    Finset (Node × Question) :=
  (validator.nodes ×ˢ questions value).toFinset.filter fun (node, question) =>
    question.About value ∧ (Level.at_ validator.shared depth).Answers node question

variable {validator : Validator} {value : Json} {node : Node} {question : Question} {depth : Nat}

theorem mem_answered :
    (node, question) ∈ validator.answered value depth ↔
      node ∈ validator.nodes ∧ question.About value ∧
        (Level.at_ validator.shared depth).Answers node question := by
  classical
  rw [answered, Finset.mem_filter, List.mem_toFinset, List.mem_product]
  constructor
  · rintro ⟨⟨hnode, -⟩, habout, hanswer⟩
    exact ⟨hnode, habout, hanswer⟩
  · rintro ⟨hnode, habout, hanswer⟩
    exact ⟨⟨hnode, habout.mem_questions⟩, habout, hanswer⟩

theorem answered_mono (validator : Validator) (value : Json) :
    Monotone (validator.answered value) := by
  rintro depth depth' hle ⟨node, question⟩ h
  obtain ⟨hnode, habout, hanswer⟩ := mem_answered.1 h
  exact mem_answered.2 ⟨hnode, habout, Level.answers_mono habout hle hanswer⟩

theorem card_answered_le (validator : Validator) (value : Json) (depth : Nat) :
    (validator.answered value depth).card ≤ validator.levels value := by
  classical
  have hquestions : (questions value).length ≤ 5 * value.size := by
    have := length_questions value
    omega
  calc (validator.answered value depth).card
      ≤ (validator.nodes ×ˢ questions value).toFinset.card := Finset.card_filter_le _ _
    _ ≤ (validator.nodes ×ˢ questions value).length := List.toFinset_card_le _
    _ = validator.size * (questions value).length := by
      rw [List.length_product, length_nodes]
    _ ≤ validator.levels value := Nat.mul_le_mul_left _ hquestions

/-- Once a level more brings no answer, the next one brings none either. -/
theorem answered_step (h : validator.answered value depth = validator.answered value (depth + 1)) :
    validator.answered value (depth + 1) = validator.answered value (depth + 2) := by
  refine Finset.Subset.antisymm (answered_mono validator value (Nat.le_succ _)) ?_
  have hsim : Level.Sim validator.Same (Inside value) Move.stay
      (Level.at_ validator.shared (depth + 1)) (Level.at_ validator.shared depth) := by
    refine Level.sim_of_answers (fun _ _ hnode => hnode.1) fun node question hnode habout hanswer => ?_
    have hmem := mem_answered.2 ⟨hnode.2, habout, hanswer⟩
    rw [← h] at hmem
    exact (mem_answered.1 hmem).2.2
  have hnext := hsim.next (validator.isSimulation_same fun _ => rfl) (isClosed_inside value)
  rw [← Level.at_succ, ← Level.at_succ] at hnext
  rintro ⟨node, question⟩ hmem
  obtain ⟨hnode, habout, hanswer⟩ := mem_answered.1 hmem
  exact mem_answered.2 ⟨hnode, habout, Level.answers_of_sim hnext ⟨rfl, hnode⟩ habout hanswer⟩

/-- What has an answer at any depth has one at the depth that a validator
goes to. -/
theorem answered_subset_levels (validator : Validator) (value : Json) (depth : Nat) :
    validator.answered value depth ⊆ validator.answered value (validator.levels value) := by
  rcases le_total depth (validator.levels value) with hle | hle
  · exact answered_mono validator value hle
  have hcard : (validator.answered value depth).card =
      (validator.answered value (validator.levels value)).card := by
    refine Nat.stabilises_of_monotone
      (fun _ _ hle => Finset.card_le_card (answered_mono validator value hle))
      (card_answered_le validator value) (fun depth hcard => ?_) hle
    exact congrArg Finset.card (answered_step (Finset.eq_of_subset_of_card_le
      (answered_mono validator value (Nat.le_succ _)) hcard.ge))
  exact (Finset.eq_of_subset_of_card_le (answered_mono validator value hle) hcard.le).ge

theorem answers_levels {part : Node} (hpart : part ∈ validator.nodes)
    (habout : question.About value) (h : (Level.at_ validator.shared depth).Answers part question) :
    (Level.at_ validator.shared (validator.levels value)).Answers part question :=
  (mem_answered.1 (answered_subset_levels validator value depth
    (mem_answered.2 ⟨hpart, habout, h⟩))).2.2

/-- A validator gives up on a value exactly if no depth is enough to judge
it. -/
theorem violations_eq_none_iff :
    validator.violations value = none ↔
      ∀ depth, validator.root.violations validator.shared depth [] [] value = none := by
  constructor
  · intro h depth
    by_contra hsome
    have hanswer : (Level.at_ validator.shared depth).Answers validator.root (.violations value) :=
      Option.isSome_iff_ne_none.2 hsome
    have habout : (Question.violations value).About value := Inside.self
    exact Option.isSome_iff_ne_none.1 (answers_levels validator.root_mem_nodes habout hanswer) h
  · intro h
    exact h _

end Validator

end ApiContract.JsonSchema
