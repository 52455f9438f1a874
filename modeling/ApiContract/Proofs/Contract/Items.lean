import ApiContract.Proofs.Contract.Arrangement
import Mathlib.Data.List.Nodup
/-!
# The first problem

A registry is filled from a list of items: schemas, and whatever keeps a
document from being had.  Going through the list ends at the first item that has
a problem, which is what is reported (`fill_eq_error`).  If no item has one, the
registry declares what the items declare, and nothing else (`fill_eq_ok`).

Both follow from what one item does to a registry (`take_eq_error`,
`holds_of_take`).  No item has a problem exactly if everything can be had, every
schema can be declared, and no name occurs twice (`clear_iff`).
-/

namespace ApiContract

open Entries

/-- What is met on the way through the documents of a contract. -/
inductive Item where
  /-- Something that cannot be had. -/
  | fault (fault : LoadFault)
  /-- A schema declared in a document. -/
  | schema (name : String) (value : Json) (source : String)

/-- The name that an item declares. -/
def Item.name? : Item → Option String
  | .fault _ => none
  | .schema name _ _ => some name

/-- What is wrong with an item after the items before it. -/
inductive Problem (ns : Namespace) (before : List Item) : Item → LoadFault → Prop
  | fault (fault : LoadFault) : Problem ns before (.fault fault) fault
  | name {text : String} {value : Json} {source : String} {invalid : InvalidName}
    (h : SchemaName.ofText text = .error invalid) :
    Problem ns before (.schema text value source) (.invalidName source invalid)
  | node {text : String} {value : Json} {source : String} {name : SchemaName} {error : NodeError}
    (hname : SchemaName.ofText text = .ok name) (h : SchemaNode.parse value = .error error) :
    Problem ns before (.schema text value source) (.invalidSchema name source error)
  | duplicate {text : String} {value other : Json} {source first : String} {name : SchemaName}
    {node : SchemaNode} (hname : SchemaName.ofText text = .ok name)
    (hnode : SchemaNode.parse value = .ok node) (h : .schema text other first ∈ before) :
    Problem ns before (.schema text value source) (.duplicateSchema name first source)
  | target {text : String} {value : Json} {source : String} {name : SchemaName}
    {node : SchemaNode} {invalid : InvalidName} (hname : SchemaName.ofText text = .ok name)
    (hnode : SchemaNode.parse value = .ok node)
    (hnew : ∀ other first, .schema text other first ∉ before)
    (h : node.resource ns (ns.resourceId name) = .error invalid) :
    Problem ns before (.schema text value source) (.invalidName source invalid)

/-- No item has a problem after those before it. -/
def ClearAfter (ns : Namespace) (before : List Item) : List Item → Prop
  | [] => True
  | item :: rest =>
    (∀ fault, ¬ Problem ns before item fault) ∧ ClearAfter ns (before ++ [item]) rest

/-- The first problem in a list of items. -/
def FirstProblem (ns : Namespace) (items : List Item) (fault : LoadFault) : Prop :=
  ∃ before item after, items = before ++ item :: after ∧ ClearAfter ns [] before ∧
    Problem ns before item fault

namespace Registry

/-- The registry with an item. -/
def take (registry : Registry) : Item → Except LoadFault Registry
  | .fault fault => .error fault
  | .schema name value source => registry.registerValue name value source

/-- The registry declares what the items declare, and nothing else. -/
structure Holds (registry : Registry) (ns : Namespace) (items : List Item) : Prop where
  ns_eq : registry.ns = ns
  ordered : Entries.Ordered registry.declarations
  made : ∀ text value source, .schema text value source ∈ items →
    ∃ made, MadeFrom ns (text, value, source) made
  declared : ∀ text declaration, (text, declaration) ∈ registry.declarations ↔
    ∃ value source, .schema text value source ∈ items ∧
      MadeFrom ns (text, value, source) declaration

variable {registry after : Registry} {ns : Namespace} {before items : List Item} {item : Item}
  {fault : LoadFault}

theorem holds_empty (ns : Namespace) : (empty ns).Holds ns [] where
  ns_eq := rfl
  ordered := ordered_nil
  made := by simp
  declared := by simp [empty]

/-- What is made from a schema is made under its name. -/
theorem MadeFrom.text {text : String} {value : Json} {source : String} {made : Declaration}
    (h : MadeFrom ns (text, value, source) made) : made.name.text = text :=
  SchemaName.text_of_ofText h.name

/-- A schema makes one declaration at most. -/
theorem MadeFrom.unique {declaration : String × Json × String} {made other : Declaration}
    (h : MadeFrom ns declaration made) (h' : MadeFrom ns declaration other) : made = other := by
  obtain ⟨name, node, schema, source⟩ := made
  obtain ⟨name', node', schema', source'⟩ := other
  obtain rfl : name = name' := Except.ok.inj (h.name.symm.trans h'.name)
  obtain rfl : node = node' := Except.ok.inj (h.node.symm.trans h'.node)
  obtain rfl : schema = schema' := Except.ok.inj (h.schema.symm.trans h'.schema)
  obtain rfl : source = source' := h.source.symm.trans h'.source
  rfl

theorem Holds.get?_eq_some_iff (h : registry.Holds ns items) {name : SchemaName}
    {declaration : Declaration} : registry.get? name = some declaration ↔
      ∃ value source, .schema name.text value source ∈ items ∧
        MadeFrom ns (name.text, value, source) declaration := by
  rw [get?, Entries.get?_eq_some_iff h.ordered, h.declared]

theorem Holds.get?_eq_none_iff (h : registry.Holds ns items) {name : SchemaName} :
    registry.get? name = none ↔ ∀ value source, .schema name.text value source ∉ items := by
  constructor
  · intro hnone value source hmem
    obtain ⟨made, hmade⟩ := h.made _ _ _ hmem
    rw [h.get?_eq_some_iff.2 ⟨value, source, hmem, hmade⟩] at hnone
    cases hnone
  · intro hnew
    rw [Option.eq_none_iff_forall_ne_some]
    intro declaration hdeclaration
    obtain ⟨value, source, hmem, -⟩ := h.get?_eq_some_iff.1 hdeclaration
    exact hnew value source hmem

/-! ## One item -/

/-- An item is refused for its problem. -/
theorem take_of_problem (h : registry.Holds ns before) (hproblem : Problem ns before item fault) :
    registry.take item = .error fault := by
  cases hproblem with
  | fault fault => rfl
  | name hname => simp only [take, registerValue, hname]
  | node hname hnode => simp only [take, registerValue, hname, hnode]
  | @duplicate text value other source first name node hname hnode hmem =>
    obtain ⟨made, hmade⟩ := h.made _ _ _ hmem
    obtain rfl := SchemaName.text_of_ofText hname
    have hfirst := h.get?_eq_some_iff.2 ⟨other, first, hmem, hmade⟩
    have hsource : first = made.source := hmade.source
    rw [take, registerValue_of_get? hfirst hnode, hsource]
  | target hname hnode hnew htarget =>
    obtain rfl := SchemaName.text_of_ofText hname
    have hfree := h.get?_eq_none_iff.2 hnew
    rw [← h.ns_eq] at htarget
    simp only [take, registerValue, hname, hnode, register, hfree, htarget]

/-- What is not refused is declared beside what was declared before. -/
theorem holds_of_take (h : registry.Holds ns before) (htake : registry.take item = .ok after) :
    after.Holds ns (before ++ [item]) := by
  cases item with
  | fault fault => cases htake
  | schema text value source =>
    obtain ⟨made, hmade, hnew, rfl⟩ := registerValue_eq_ok_iff.1 htake
    rw [h.ns_eq] at hmade
    have htext := hmade.text
    rw [h.get?_eq_none_iff, htext] at hnew
    refine ⟨h.ns_eq, h.ordered.insert _ _, ?_, ?_⟩
    · intro other part document hmem
      rw [List.mem_append, List.mem_singleton] at hmem
      rcases hmem with hmem | heq
      · exact h.made other part document hmem
      · cases heq
        exact ⟨made, hmade⟩
    · intro other declaration
      rw [put, ← Entries.get?_eq_some_iff (h.ordered.insert _ _), get?_insert, htext]
      split
      · next heq =>
        subst heq
        constructor
        · intro hsome
          cases hsome
          exact ⟨value, source, by simp, hmade⟩
        · rintro ⟨part, document, hmem, hother⟩
          rw [List.mem_append, List.mem_singleton] at hmem
          rcases hmem with hmem | heq
          · exact absurd hmem (hnew part document)
          · cases heq
            rw [hmade.unique hother]
      · next hne =>
        rw [Entries.get?_eq_some_iff h.ordered, h.declared]
        constructor
        · rintro ⟨part, document, hmem, hother⟩
          exact ⟨part, document, List.mem_append_left _ hmem, hother⟩
        · rintro ⟨part, document, hmem, hother⟩
          rw [List.mem_append, List.mem_singleton] at hmem
          rcases hmem with hmem | heq
          · exact ⟨part, document, hmem, hother⟩
          · cases heq
            exact absurd rfl hne

/-- An item that has no problem is declared. -/
theorem exists_problem_of_take (h : registry.Holds ns before)
    (htake : registry.take item = .error fault) : Problem ns before item fault := by
  cases item with
  | fault other =>
    cases htake
    exact .fault _
  | schema text value source =>
    rw [take, registerValue] at htake
    cases hname : SchemaName.ofText text with
    | error invalid =>
      rw [hname] at htake
      cases htake
      exact .name hname
    | ok name =>
      cases hnode : SchemaNode.parse value with
      | error error =>
        simp only [hname, hnode] at htake
        cases htake
        exact .node hname hnode
      | ok node =>
        simp only [hname, hnode, register] at htake
        obtain rfl := SchemaName.text_of_ofText hname
        cases hget : registry.get? name with
        | some first =>
          obtain ⟨other, document, hmem, hmade⟩ := h.get?_eq_some_iff.1 hget
          have hsource : document = first.source := hmade.source
          rw [hget] at htake
          cases htake
          rw [← hsource]
          exact .duplicate hname hnode hmem
        | none =>
          cases htarget : node.resource ns (ns.resourceId name) with
          | error invalid =>
            simp only [hget, h.ns_eq, htarget] at htake
            cases htake
            exact .target hname hnode (h.get?_eq_none_iff.1 hget) htarget
          | ok schema =>
            simp only [hget, h.ns_eq, htarget] at htake
            cases htake

theorem take_eq_error (h : registry.Holds ns before) :
    registry.take item = .error fault ↔ Problem ns before item fault :=
  ⟨exists_problem_of_take h, take_of_problem h⟩

/-! ## All items -/

/-- Items without a problem are declared one after the other. -/
theorem exists_foldlM_of_clear (h : registry.Holds ns before) (hclear : ClearAfter ns before items) :
    ∃ after, items.foldlM take registry = .ok after ∧ after.Holds ns (before ++ items) := by
  induction items generalizing registry before with
  | nil => exact ⟨registry, rfl, (List.append_nil before).symm ▸ h⟩
  | cons item rest ih =>
    obtain ⟨hitem, hrest⟩ := hclear
    cases htake : registry.take item with
    | error fault => exact absurd ((take_eq_error h).1 htake) (hitem fault)
    | ok next =>
      obtain ⟨after, hafter, hholds⟩ := ih (holds_of_take h htake) hrest
      refine ⟨after, ?_, ?_⟩
      · rw [List.foldlM_cons]
        exact bind_eq_ok.2 ⟨next, htake, hafter⟩
      · rw [List.append_assoc] at hholds
        exact hholds

/-- What is declared to the end had no problem. -/
theorem clear_of_foldlM (h : registry.Holds ns before)
    (hfold : items.foldlM take registry = .ok after) : ClearAfter ns before items := by
  induction items generalizing registry before with
  | nil => trivial
  | cons item rest ih =>
    rw [List.foldlM_cons] at hfold
    obtain ⟨next, htake, hrest⟩ := bind_eq_ok.1 hfold
    refine ⟨?_, ih (holds_of_take h htake) hrest⟩
    intro fault hproblem
    rw [take_of_problem h hproblem] at htake
    cases htake

/-- What ends early ends at the first problem. -/
theorem exists_problem_of_foldlM (h : registry.Holds ns before)
    (hfold : items.foldlM take registry = .error fault) :
    ∃ done item rest, items = done ++ item :: rest ∧ ClearAfter ns before done ∧
      Problem ns (before ++ done) item fault := by
  induction items generalizing registry before with
  | nil => cases hfold
  | cons item rest ih =>
    rw [List.foldlM_cons] at hfold
    cases htake : registry.take item with
    | error other =>
      rw [htake] at hfold
      cases hfold
      refine ⟨[], item, rest, rfl, trivial, ?_⟩
      rw [List.append_nil]
      exact (take_eq_error h).1 htake
    | ok next =>
      rw [htake] at hfold
      obtain ⟨done, other, later, rfl, hclear, hproblem⟩ := ih (holds_of_take h htake) hfold
      refine ⟨item :: done, other, later, rfl, ⟨?_, hclear⟩, ?_⟩
      · intro fault hitem
        rw [take_of_problem h hitem] at htake
        cases htake
      · rw [List.append_assoc] at hproblem
        exact hproblem

/-- The registry that items fill. -/
def fill (ns : Namespace) (items : List Item) : Except LoadFault Registry :=
  items.foldlM take (empty ns)

theorem fill_eq_error : fill ns items = .error fault ↔ FirstProblem ns items fault := by
  constructor
  · intro h
    obtain ⟨before, item, rest, hitems, hclear, hproblem⟩ :=
      exists_problem_of_foldlM (holds_empty ns) h
    exact ⟨before, item, rest, hitems, hclear, hproblem⟩
  · rintro ⟨before, item, rest, rfl, hclear, hproblem⟩
    obtain ⟨registry, hregistry, hholds⟩ := exists_foldlM_of_clear (holds_empty ns) hclear
    rw [fill, List.foldlM_append, hregistry]
    show (item :: rest).foldlM take registry = .error fault
    rw [List.foldlM_cons, take_of_problem hholds hproblem]
    rfl

/-- Two registries that declare the same are the same. -/
theorem Holds.unique {other : Registry} (h : registry.Holds ns items) (h' : other.Holds ns items) :
    registry = other := by
  have hdeclarations : registry.declarations = other.declarations := by
    refine h.ordered.ext h'.ordered ?_
    intro text
    refine Option.ext ?_
    intro declaration
    rw [Entries.get?_eq_some_iff h.ordered, Entries.get?_eq_some_iff h'.ordered, h.declared,
      h'.declared]
  obtain ⟨space, declarations⟩ := registry
  obtain ⟨space', declarations'⟩ := other
  obtain rfl : declarations = declarations' := hdeclarations
  obtain rfl : space = space' := h.ns_eq.trans h'.ns_eq.symm
  rfl

theorem fill_eq_ok : fill ns items = .ok registry ↔
    ClearAfter ns [] items ∧ registry.Holds ns items := by
  constructor
  · intro h
    have hclear := clear_of_foldlM (holds_empty ns) h
    obtain ⟨after, hafter, hholds⟩ := exists_foldlM_of_clear (holds_empty ns) hclear
    rw [fill, hafter] at h
    cases h
    exact ⟨hclear, hholds⟩
  · rintro ⟨hclear, hholds⟩
    obtain ⟨after, hafter, hholds'⟩ := exists_foldlM_of_clear (holds_empty ns) hclear
    rw [hholds.unique hholds']
    exact hafter

end Registry

/-! ## Items without a problem -/

variable {ns : Namespace} {before items : List Item}

theorem forall_not_problem_iff {text : String} {value : Json} {source : String} :
    (∀ fault, ¬ Problem ns before (.schema text value source) fault) ↔
      (∃ made, Registry.MadeFrom ns (text, value, source) made) ∧
        text ∉ before.filterMap Item.name? := by
  have hnames : text ∈ before.filterMap Item.name? ↔
      ∃ other first, .schema text other first ∈ before := by
    rw [List.mem_filterMap]
    constructor
    · rintro ⟨item, hmem, hname⟩
      cases item with
      | fault fault => cases hname
      | schema name other first =>
        cases hname
        exact ⟨other, first, hmem⟩
    · rintro ⟨other, first, hmem⟩
      exact ⟨_, hmem, rfl⟩
  rw [hnames]
  constructor
  · intro hclear
    cases hname : SchemaName.ofText text with
    | error invalid => exact absurd (.name hname) (hclear _)
    | ok name =>
      cases hnode : SchemaNode.parse value with
      | error error => exact absurd (.node hname hnode) (hclear _)
      | ok node =>
        have hnew : ¬ ∃ other first, .schema text other first ∈ before := by
          rintro ⟨other, first, hmem⟩
          exact hclear _ (.duplicate hname hnode hmem)
        cases hschema : node.resource ns (ns.resourceId name) with
        | error invalid =>
          refine absurd (.target hname hnode ?_ hschema) (hclear _)
          intro other first hmem
          exact hnew ⟨other, first, hmem⟩
        | ok schema => exact ⟨⟨⟨name, node, schema, source⟩, hname, hnode, hschema, rfl⟩, hnew⟩
  · rintro ⟨⟨made, hmade⟩, hnew⟩ fault hproblem
    cases hproblem with
    | name hname => exact nomatch hname.symm.trans hmade.name
    | node _ hnode => exact nomatch hnode.symm.trans hmade.node
    | duplicate _ _ hmem => exact hnew ⟨_, _, hmem⟩
    | target hname hnode _ hschema =>
      cases hname.symm.trans hmade.name
      cases hnode.symm.trans hmade.node
      exact nomatch hschema.symm.trans hmade.schema

theorem clearAfter_iff (hbefore : (before.filterMap Item.name?).Nodup) :
    ClearAfter ns before items ↔ (∀ fault, .fault fault ∉ items) ∧
      (∀ text value source, .schema text value source ∈ items →
        ∃ made, Registry.MadeFrom ns (text, value, source) made) ∧
      ((before ++ items).filterMap Item.name?).Nodup := by
  induction items generalizing before with
  | nil => simpa [ClearAfter] using hbefore
  | cons item rest ih =>
    cases item with
    | fault fault =>
      constructor
      · rintro ⟨hitem, -⟩
        exact absurd (.fault fault) (hitem fault)
      · rintro ⟨hnone, -⟩
        exact absurd List.mem_cons_self (hnone fault)
    | schema text value source =>
      have hassoc : before ++ Item.schema text value source :: rest =
          (before ++ [Item.schema text value source]) ++ rest := by
        rw [List.append_assoc, List.singleton_append]
      have hnext : ((before ++ [Item.schema text value source]).filterMap Item.name?).Nodup ↔
          text ∉ before.filterMap Item.name? := by
        rw [List.filterMap_append, List.nodup_append]
        constructor
        · rintro ⟨-, -, hdisjoint⟩ hmem
          exact hdisjoint text hmem text List.mem_cons_self rfl
        · intro hnew
          refine ⟨hbefore, List.nodup_singleton text, ?_⟩
          rintro name hname other hother rfl
          cases List.mem_singleton.1 hother
          exact hnew hname
      rw [ClearAfter, forall_not_problem_iff, hassoc]
      constructor
      · rintro ⟨⟨hmade, hnew⟩, hrest⟩
        obtain ⟨hfaults, hschemas, hnames⟩ := (ih (hnext.2 hnew)).1 hrest
        refine ⟨?_, ?_, hnames⟩
        · intro fault hmem
          rcases List.mem_cons.1 hmem with heq | hmem
          · cases heq
          · exact hfaults fault hmem
        · intro other part document hmem
          rcases List.mem_cons.1 hmem with heq | hmem
          · cases heq
            exact hmade
          · exact hschemas other part document hmem
      · rintro ⟨hfaults, hschemas, hnames⟩
        have hkept : ((before ++ [Item.schema text value source]).filterMap Item.name?).Nodup := by
          rw [List.filterMap_append] at hnames
          exact (List.nodup_append.1 hnames).1
        refine ⟨⟨hschemas _ _ _ List.mem_cons_self, hnext.1 hkept⟩, (ih hkept).2 ⟨?_, ?_, hnames⟩⟩
        · intro fault hmem
          exact hfaults fault (List.mem_cons_of_mem _ hmem)
        · intro other part document hmem
          exact hschemas other part document (List.mem_cons_of_mem _ hmem)

theorem clear_iff : ClearAfter ns [] items ↔ (∀ fault, .fault fault ∉ items) ∧
    (∀ text value source, .schema text value source ∈ items →
      ∃ made, Registry.MadeFrom ns (text, value, source) made) ∧
    (items.filterMap Item.name?).Nodup :=
  clearAfter_iff List.nodup_nil

end ApiContract
