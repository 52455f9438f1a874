import ApiContract.Proofs.Contract.Runs
/-!
# Declarations in any order

Schemas can be declared one by one or in sections, and in any order.  Whether
a declaration is accepted depends on its schema and on whether its name is
new, so two declarations can change places (`accept_comm`).  Hence all
arrangements of some declarations are accepted or none is, and they lead to one
registry (`run_eq_of_arrangement`).
-/

namespace ApiContract

open Entries

namespace DeclarationCall

/-- The names, the schemas and the documents that a call wants to declare. -/
def declared : DeclarationCall → List (String × Json × String)
  | value name schema source => [(name, schema, source)]
  | schemas (.object members) source =>
    members.map fun member => (member.1, member.2, source)
  | _ => []

/-- The call is for a schema given as a value, or for a section of them. -/
inductive OfValues : DeclarationCall → Prop
  | value (name : String) (schema : Json) (source : String) : OfValues (.value name schema source)
  | schemas (members : List (String × Json)) (source : String) :
    OfValues (.schemas (.object members) source)

/-- The calls are for the declarations, in any order, one by one and in
sections. -/
structure Arranges (calls : List DeclarationCall) (declarations : List (String × Json × String)) :
    Prop where
  ofValues : ∀ call ∈ calls, call.OfValues
  perm : (calls.flatMap declared).Perm declarations

end DeclarationCall

namespace Registry

open DeclarationCall

/-- The registry with one more declaration, if that is accepted. -/
def accept (registry : Option Registry) (declaration : String × Json × String) : Option Registry :=
  registry.bind fun registry =>
    (registry.registerValue declaration.1 declaration.2.1 declaration.2.2).toOption

/-- The registry with a declaration, whether its name is new or not. -/
def put (registry : Registry) (declaration : Declaration) : Registry :=
  { registry with
    declarations := registry.declarations.insert declaration.name.text declaration }

/-- What is to be declared by a schema under a name, whatever was declared
before. -/
structure MadeFrom (ns : Namespace) (declaration : String × Json × String) (made : Declaration) :
    Prop where
  name : SchemaName.ofText declaration.1 = .ok made.name
  node : SchemaNode.parse declaration.2.1 = .ok made.node
  schema : made.node.resource ns (ns.resourceId made.name) = .ok made.schema
  source : declaration.2.2 = made.source

/-- A schema can be declared if what is to be declared can be made and its name
is new. -/
theorem registerValue_eq_ok_iff {registry after : Registry} {text : String} {value : Json}
    {source : String} : registry.registerValue text value source = .ok after ↔
      ∃ made, MadeFrom registry.ns (text, value, source) made ∧ registry.get? made.name = none ∧
        after = registry.put made := by
  constructor
  · intro h
    obtain ⟨name, node, hname, hnode, h⟩ := registerValue_eq_ok h
    obtain ⟨hnew, schema, hschema, rfl⟩ := register_eq_ok h
    exact ⟨⟨name, node, schema, source⟩, ⟨hname, hnode, hschema, rfl⟩, hnew, rfl⟩
  · rintro ⟨made, ⟨hname, hnode, hschema, rfl : source = made.source⟩, hnew, rfl⟩
    simp only [registerValue, hname, hnode, register, hnew, hschema]
    rfl

theorem accept_eq_some {registry after : Registry} {declaration : String × Json × String} :
    accept (some registry) declaration = some after ↔
      ∃ made, MadeFrom registry.ns declaration made ∧ registry.get? made.name = none ∧
        after = registry.put made := by
  rw [← registerValue_eq_ok_iff, accept, Option.bind_some]
  cases registry.registerValue declaration.1 declaration.2.1 declaration.2.2 <;>
    simp [Except.toOption]

theorem get?_put (registry : Registry) (made : Declaration) (name : SchemaName) :
    (registry.put made).get? name =
      if name.text = made.name.text then some made else registry.get? name := by
  rw [put, get?, get?_insert, get?]

theorem accept_swap {registry : Option Registry} {first second : String × Json × String}
    {after : Registry} (h : accept (accept registry first) second = some after) :
    accept (accept registry second) first = some after := by
  cases registry with
  | none => cases h
  | some registry =>
    cases hnext : accept (some registry) first with
    | none =>
      rw [hnext] at h
      cases h
    | some next =>
      rw [hnext] at h
      obtain ⟨made, hmade, hnew, rfl⟩ := accept_eq_some.1 hnext
      obtain ⟨made', hmade', hnew', rfl⟩ := accept_eq_some.1 h
      rw [get?_put] at hnew'
      split at hnew'
      · cases hnew'
      next hne =>
      have hsecond : accept (some registry) second = some (registry.put made') :=
        accept_eq_some.2 ⟨made', hmade', hnew', rfl⟩
      rw [hsecond]
      refine accept_eq_some.2 ⟨made, hmade, ?_, ?_⟩
      · rw [get?_put, if_neg (Ne.symm hne), hnew]
      · simp only [put, insert_comm (Ne.symm hne)]

/-- Two declarations can change places. -/
theorem accept_comm (registry : Option Registry) (first second : String × Json × String) :
    accept (accept registry first) second = accept (accept registry second) first :=
  Option.ext fun _ => ⟨accept_swap, accept_swap⟩

/-! ## Calls and their declarations -/

theorem foldl_accept_none (declarations : List (String × Json × String)) :
    declarations.foldl accept none = none := by
  induction declarations with
  | nil => rfl
  | cons declaration rest ih => exact ih

theorem foldl_accept_members (registry : Registry) (source : String)
    (members : List (String × Json)) :
    (members.map fun member => (member.1, member.2, source)).foldl accept (some registry) =
      (registry.registerAll source members).2.toOption.map fun _ =>
        (registry.registerAll source members).1 := by
  induction members generalizing registry with
  | nil => rfl
  | cons member rest ih =>
    obtain ⟨name, value⟩ := member
    rw [List.map_cons, List.foldl_cons, registerAll]
    have hfirst : accept (some registry) (name, value, source) =
        (registry.registerValue name value source).toOption := rfl
    rw [hfirst]
    cases registry.registerValue name value source with
    | ok next => exact ih next
    | error fault => exact foldl_accept_none _

/-- A call is accepted exactly if its declarations are, and does what they do. -/
theorem foldl_accept_declared (registry : Registry) {call : DeclarationCall} (h : call.OfValues) :
    call.declared.foldl accept (some registry) =
      (registry.answer call).toOption.map fun _ => registry.perform call := by
  cases h with
  | value name value source =>
    show (registry.registerValue name value source).toOption = _
    rw [answer, perform]
    cases registry.registerValue name value source <;> rfl
  | schemas members source =>
    rw [declared, foldl_accept_members]
    show _ = ((registry.registerAll source members).2.map fun _ => members.length).toOption.map _
    cases (registry.registerAll source members).2 <;> rfl

/-- Calls are accepted exactly if their declarations are, one after the other,
and lead to the same registry. -/
theorem foldl_accept_eq_some {registry after : Registry} {calls : List DeclarationCall}
    (h : ∀ call ∈ calls, call.OfValues) :
    (calls.flatMap declared).foldl accept (some registry) = some after ↔
      registry.Accepts calls ∧ registry.run calls = after := by
  induction calls generalizing registry with
  | nil => simp [Accepts, run]
  | cons call calls ih =>
    have hrest : ∀ other ∈ calls, other.OfValues :=
      fun other hmem => h other (List.mem_cons_of_mem _ hmem)
    rw [List.flatMap_cons, List.foldl_append,
      foldl_accept_declared registry (h call List.mem_cons_self), Accepts, run_cons]
    cases hanswer : registry.answer call with
    | ok count =>
      show (calls.flatMap declared).foldl accept (some (registry.perform call)) = some after ↔ _
      rw [ih hrest]
      simp
    | error fault =>
      show (calls.flatMap declared).foldl accept none = some after ↔ _
      rw [foldl_accept_none]
      simp

/-- Of two arrangements of some declarations, none of whose calls is refused is
the one if and only if the other is.  They then lead to the same registry. -/
theorem run_eq_of_arrangement {ns : Namespace} {calls calls' : List DeclarationCall}
    {declarations : List (String × Json × String)} (h : Arranges calls declarations)
    (h' : Arranges calls' declarations) :
    ((empty ns).Accepts calls ↔ (empty ns).Accepts calls') ∧
      ((empty ns).Accepts calls → (empty ns).run calls = (empty ns).run calls') := by
  have hsame : (calls.flatMap declared).foldl accept (some (empty ns)) =
      (calls'.flatMap declared).foldl accept (some (empty ns)) :=
    (h.perm.trans h'.perm.symm).foldl_eq'
      (fun first _ second _ registry => accept_comm registry first second) _
  have hiff : ∀ after, ((empty ns).Accepts calls ∧ (empty ns).run calls = after) ↔
      ((empty ns).Accepts calls' ∧ (empty ns).run calls' = after) := by
    intro after
    rw [← foldl_accept_eq_some h.ofValues, ← foldl_accept_eq_some h'.ofValues, hsame]
  constructor
  · exact ⟨fun haccepts => ((hiff _).1 ⟨haccepts, rfl⟩).1,
      fun haccepts => ((hiff _).2 ⟨haccepts, rfl⟩).1⟩
  · intro haccepts
    exact ((hiff _).1 ⟨haccepts, rfl⟩).2.symm

end Registry

end ApiContract
