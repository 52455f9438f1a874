import ApiContract.Proofs.Contract.Registration
import ApiContract.Proofs.Outcome
/-!
# What calls do to a registry

A call is answered with the number of schemas that it declared, or it is
refused.  All that a call can do to a registry is to let `Registry.register`
accept declarations from the document of the call, so what one accepted
declaration preserves holds after every call (`perform_induction`) and after
every run of calls (`run_induction`).

A section is a sequence of calls for its members, which ends at the first
member that is refused (`registerAll_eq_ok`, `registerAll_eq_error`).

The main statement, `registry_of_run`, says what is declared after any calls,
refused ones included, and what one more call does.
-/

namespace ApiContract

open Entries

namespace DeclarationCall

/-- The document that a call comes from. -/
def source : DeclarationCall → String
  | node _ _ source | value _ _ source | schemas _ source => source

/-- The calls that declare the members of a section one by one. -/
def each (source : String) (members : List (String × Json)) : List DeclarationCall :=
  members.map fun member => .value member.1 member.2 source

end DeclarationCall

namespace Registry

/-- The answer to a call: how many schemas it declared. -/
def answer (registry : Registry) : DeclarationCall → Except LoadFault Nat
  | .node name node source => (registry.register name node source).map fun _ => 1
  | .value name value source => (registry.registerValue name value source).map fun _ => 1
  | .schemas members source => (registry.registerSection members source).2

/-- None of the calls, one after the other, is refused. -/
def Accepts (registry : Registry) : List DeclarationCall → Prop
  | [] => True
  | call :: calls => (∃ count, registry.answer call = .ok count) ∧ (registry.perform call).Accepts calls

instance decidableAccepts (registry : Registry) :
    (calls : List DeclarationCall) → Decidable (registry.Accepts calls)
  | [] => .isTrue trivial
  | call :: calls =>
    have := decidableAccepts (registry.perform call) calls
    have hanswer : (registry.answer call).isOk = true ↔ ∃ count, registry.answer call = .ok count := by
      cases registry.answer call <;> simp [Except.isOk, Except.toBool]
    decidable_of_iff ((registry.answer call).isOk = true ∧ (registry.perform call).Accepts calls)
      (and_congr_left' hanswer)

theorem run_cons (registry : Registry) (call : DeclarationCall) (calls : List DeclarationCall) :
    registry.run (call :: calls) = (registry.perform call).run calls := rfl

theorem run_append (registry : Registry) (calls later : List DeclarationCall) :
    registry.run (calls ++ later) = (registry.run calls).run later :=
  List.foldl_append

/-! ## One call -/

theorem registerAll_induction {P : Registry → Prop} {source : String}
    (hstep : ∀ registry name node after, P registry →
      registry.register name node source = .ok after → P after)
    (members : List (String × Json)) {registry : Registry} (h : P registry) :
    P (registry.registerAll source members).1 := by
  induction members generalizing registry with
  | nil => exact h
  | cons member rest ih =>
    obtain ⟨text, value⟩ := member
    rw [registerAll]
    split
    · next after hafter =>
      obtain ⟨name, node, -, -, hregister⟩ := registerValue_eq_ok hafter
      exact ih (hstep registry name node after h hregister)
    · exact h

/-- What an accepted declaration preserves holds after a call. -/
theorem perform_induction {P : Registry → Prop} {call : DeclarationCall}
    (hstep : ∀ registry name node after, P registry →
      registry.register name node call.source = .ok after → P after)
    {registry : Registry} (h : P registry) : P (registry.perform call) := by
  cases call with
  | node name node source =>
    rw [perform]
    cases hafter : registry.register name node source with
    | error fault => exact h
    | ok after => exact hstep registry name node after h hafter
  | value text value source =>
    rw [perform]
    cases hafter : registry.registerValue text value source with
    | error fault => exact h
    | ok after =>
      obtain ⟨name, node, -, -, hregister⟩ := registerValue_eq_ok hafter
      exact hstep registry name node after h hregister
  | schemas members source =>
    cases members with
    | object members => exact registerAll_induction hstep members h
    | _ => exact h

theorem run_induction {P : Registry → Prop}
    (hstep : ∀ registry name node source after, P registry →
      registry.register name node source = .ok after → P after)
    {registry : Registry} (h : P registry) (calls : List DeclarationCall) :
    P (registry.run calls) := by
  induction calls generalizing registry with
  | nil => exact h
  | cons call calls ih =>
    refine ih (perform_induction ?_ h)
    intro registry name node after hbefore hafter
    exact hstep registry name node call.source after hbefore hafter

/-- A declared schema stays as it is. -/
theorem get?_register_of_get? {registry after : Registry} {name other : SchemaName}
    {node : SchemaNode} {source : String} {declaration : Declaration}
    (hafter : registry.register other node source = .ok after)
    (h : registry.get? name = some declaration) : after.get? name = some declaration := by
  obtain ⟨hnew, schema, -, rfl⟩ := register_eq_ok hafter
  have hne : name.text ≠ other.text := by
    intro heq
    rw [get?, heq] at h
    rw [get?, h] at hnew
    cases hnew
  rw [get?] at h ⊢
  rw [get?_insert_of_ne _ _ hne, h]

/-- No call changes or removes what is declared. -/
theorem get?_run_of_get? {registry : Registry} {name : SchemaName} {declaration : Declaration}
    (h : registry.get? name = some declaration) (calls : List DeclarationCall) :
    (registry.run calls).get? name = some declaration :=
  run_induction (fun _ _ _ _ _ hbefore hafter => get?_register_of_get? hafter hbefore) h calls

/-- What a call declares comes from the document of the call. -/
theorem source_of_perform {registry : Registry} {call : DeclarationCall} {name : SchemaName}
    {declaration : Declaration} (hnew : registry.get? name = none)
    (h : (registry.perform call).get? name = some declaration) : declaration.source = call.source := by
  have hall : ∀ declared, (registry.perform call).get? name = some declared →
      declared.source = call.source := by
    refine perform_induction (P := fun registry => ∀ declared,
      registry.get? name = some declared → declared.source = call.source) ?_ (by simp [hnew])
    intro registry other node after hbefore hafter declared hdeclared
    obtain ⟨-, schema, -, rfl⟩ := register_eq_ok hafter
    rw [get?, get?_insert] at hdeclared
    split at hdeclared
    · cases hdeclared
      rfl
    · exact hbefore declared hdeclared
  exact hall declaration h

/-! ## Refusals -/

/-- A name that is declared is refused, with the documents of the declaration
and of the new one. -/
theorem register_of_get? {registry : Registry} {name : SchemaName} {first : Declaration}
    (h : registry.get? name = some first) (node : SchemaNode) (source : String) :
    registry.register name node source = .error (.duplicateSchema name first.source source) := by
  rw [register, h]

theorem registerValue_of_get? {registry : Registry} {name : SchemaName} {first : Declaration}
    (h : registry.get? name = some first) {value : Json} {node : SchemaNode}
    (hnode : SchemaNode.parse value = .ok node) (source : String) :
    registry.registerValue name.text value source =
      .error (.duplicateSchema name first.source source) := by
  rw [registerValue, SchemaName.ofText_text]
  dsimp only
  rw [hnode]
  exact register_of_get? h node source

/-- Some call was the first to declare what is declared. -/
theorem exists_first_call {registry : Registry} {name : SchemaName} {first : Declaration}
    (hnew : registry.get? name = none) {calls : List DeclarationCall}
    (h : (registry.run calls).get? name = some first) :
    ∃ before call after, calls = before ++ call :: after ∧
      (registry.run before).get? name = none ∧
      ((registry.run before).perform call).get? name = some first ∧
      first.source = call.source := by
  induction calls generalizing registry with
  | nil =>
    rw [show registry.run [] = registry from rfl, hnew] at h
    cases h
  | cons call calls ih =>
    cases hcall : (registry.perform call).get? name with
    | none =>
      obtain ⟨before, next, after, rfl, hbefore, hnext, hsource⟩ := ih hcall h
      exact ⟨call :: before, next, after, rfl, hbefore, hnext, hsource⟩
    | some declaration =>
      have hkept := get?_run_of_get? hcall calls
      rw [← run_cons, h] at hkept
      cases hkept
      exact ⟨[], call, calls, rfl, hnew, hcall, source_of_perform hnew hcall⟩

/-! ## Sections -/

theorem run_each_cons {registry next : Registry} {source name : String} {value : Json}
    (h : registry.registerValue name value source = .ok next) (rest : List (String × Json)) :
    registry.run (DeclarationCall.each source ((name, value) :: rest)) =
      next.run (DeclarationCall.each source rest) := by
  have hperform : registry.perform (.value name value source) = next := by
    rw [perform, h]
    rfl
  rw [← hperform]
  rfl

theorem accepts_each_cons {registry next : Registry} {source name : String} {value : Json}
    (h : registry.registerValue name value source = .ok next) (rest : List (String × Json)) :
    registry.Accepts (DeclarationCall.each source ((name, value) :: rest)) ↔
      next.Accepts (DeclarationCall.each source rest) := by
  have hperform : registry.perform (.value name value source) = next := by
    rw [perform, h]
    rfl
  have hanswer : registry.answer (.value name value source) = .ok 1 := by
    rw [answer, h]
    rfl
  rw [← hperform]
  exact and_iff_right ⟨1, hanswer⟩

/-- A section that is accepted comes to the calls for its members, none of
which is refused. -/
theorem registerAll_eq_ok {registry : Registry} {source : String} {members : List (String × Json)}
    (h : (registry.registerAll source members).2 = .ok ()) :
    registry.Accepts (DeclarationCall.each source members) ∧
      (registry.registerAll source members).1 =
        registry.run (DeclarationCall.each source members) := by
  induction members generalizing registry with
  | nil => exact ⟨trivial, rfl⟩
  | cons member rest ih =>
    obtain ⟨name, value⟩ := member
    rw [registerAll] at h ⊢
    split at h
    · next next hnext =>
      rw [accepts_each_cons hnext, run_each_cons hnext]
      exact ih h
    · cases h

/-- A section that is refused comes to the calls for the members before the
first one that is refused. -/
theorem registerAll_eq_error {registry : Registry} {source : String}
    {members : List (String × Json)} {fault : LoadFault}
    (h : (registry.registerAll source members).2 = .error fault) :
    ∃ before name value after, members = before ++ (name, value) :: after ∧
      registry.Accepts (DeclarationCall.each source before) ∧
      (registry.run (DeclarationCall.each source before)).registerValue name value source =
        .error fault ∧
      (registry.registerAll source members).1 =
        registry.run (DeclarationCall.each source before) := by
  induction members generalizing registry with
  | nil => cases h
  | cons member rest ih =>
    obtain ⟨name, value⟩ := member
    rw [registerAll] at h ⊢
    split at h
    · next next hnext =>
      obtain ⟨before, refused, part, after, rfl, haccepts, hrefused, hrun⟩ := ih h
      refine ⟨(name, value) :: before, refused, part, after, rfl, ?_, ?_, ?_⟩
      · exact (accepts_each_cons hnext before).2 haccepts
      · rw [run_each_cons hnext]
        exact hrefused
      · rw [run_each_cons hnext]
        exact hrun
    · next refused hrefused =>
      cases h
      exact ⟨[], name, value, rest, rfl, trivial, hrefused, rfl⟩

theorem length_insert_of_get?_eq_none {entries : Entries Declaration} {key : String}
    (h : entries.get? key = none) (value : Declaration) :
    (entries.insert key value).length = entries.length + 1 := by
  induction entries with
  | nil => rfl
  | cons head rest ih =>
    obtain ⟨k, v⟩ := head
    rw [get?_cons] at h
    unfold Entries.insert
    split
    · rfl
    · split
      · next heq => simp [heq] at h
      · next hne =>
        rw [if_neg hne] at h
        rw [List.length_cons, ih h, List.length_cons]

/-- One registry has the members of a section from a document in addition to
what the other one declares. -/
structure Adds (registry after : Registry) (source : String) (members : List (String × Json)) :
    Prop where
  size : after.size = registry.size + members.length
  new : ∀ text value, (text, value) ∈ members → ∃ declaration : Declaration,
    declaration.name.text = text ∧ SchemaNode.parse value = .ok declaration.node ∧
      declaration.source = source ∧ registry.get? declaration.name = none ∧
      after.get? declaration.name = some declaration
  others : ∀ name : SchemaName, name.text ∉ members.map (·.1) →
    after.get? name = registry.get? name

theorem adds_of_accepts {registry : Registry} {source : String} {members : List (String × Json)}
    (h : registry.Accepts (DeclarationCall.each source members)) :
    registry.Adds (registry.run (DeclarationCall.each source members)) source members := by
  induction members generalizing registry with
  | nil => exact ⟨rfl, by simp, fun _ _ => rfl⟩
  | cons member rest ih =>
    obtain ⟨text, value⟩ := member
    obtain ⟨⟨count, hcount⟩, -⟩ := id h
    obtain ⟨next, hnext, -⟩ : ∃ next, registry.registerValue text value source = .ok next ∧ _ :=
      map_eq_ok.1 hcount
    have hrest := ih ((accepts_each_cons hnext rest).1 h)
    rw [run_each_cons hnext]
    obtain ⟨name, node, hname, hnode, hregister⟩ := registerValue_eq_ok hnext
    obtain ⟨hnew, schema, -, hafter⟩ := register_eq_ok hregister
    have htext := SchemaName.text_of_ofText hname
    have hself : next.get? name = some ⟨name, node, schema, source⟩ := by
      rw [hafter, get?, get?_insert_self]
    have hothers : ∀ other : SchemaName, other.text ≠ text → next.get? other = registry.get? other := by
      intro other hne
      rw [hafter, get?, get?_insert_of_ne _ _ (htext ▸ hne), get?]
    constructor
    · have hsize : next.size = registry.size + 1 := by
        rw [hafter]
        exact length_insert_of_get?_eq_none hnew _
      rw [hrest.size, hsize, List.length_cons, Nat.add_assoc, Nat.add_comm 1]
    · intro other part hmem
      rcases List.mem_cons.1 hmem with heq | hmem
      · cases heq
        exact ⟨⟨name, node, schema, source⟩, htext, hnode, rfl, hnew, get?_run_of_get? hself _⟩
      · obtain ⟨declaration, hother, hpart, hsource, hfresh, hget⟩ := hrest.new other part hmem
        refine ⟨declaration, hother, hpart, hsource, ?_, hget⟩
        rw [← hothers, hfresh]
        rintro heq
        rw [get?, heq, ← htext] at hfresh
        rw [get?, hfresh] at hself
        cases hself
    · intro other hother
      rw [List.map_cons, List.mem_cons, not_or] at hother
      rw [hrest.others other hother.2, hothers other hother.1]

/-! ## After any calls -/

/-- A declaration stands under its own name, and its schema is the resource of
its node. -/
structure Stored (ns : Namespace) (key : String) (declaration : Declaration) : Prop where
  name : SchemaName.ofText key = .ok declaration.name
  resource : declaration.node.resource ns (ns.root ++ key) = .ok declaration.schema

theorem stored_run (ns : Namespace) (calls : List DeclarationCall) :
    Entries.Ordered ((empty ns).run calls).declarations ∧
      ∀ key declaration, (key, declaration) ∈ ((empty ns).run calls).declarations →
        Stored ns key declaration := by
  have hall : ((empty ns).run calls).ns = ns ∧
      Entries.Ordered ((empty ns).run calls).declarations ∧
      ∀ key declaration, (key, declaration) ∈ ((empty ns).run calls).declarations →
        Stored ns key declaration := by
    refine run_induction (P := fun registry => registry.ns = ns ∧
      Entries.Ordered registry.declarations ∧ ∀ key declaration,
        (key, declaration) ∈ registry.declarations → Stored ns key declaration) ?_ ?_ calls
    · rintro registry name node source after ⟨rfl, hordered, hstored⟩ hafter
      obtain ⟨-, schema, hschema, rfl⟩ := register_eq_ok hafter
      refine ⟨rfl, hordered.insert _ _, ?_⟩
      intro key declaration hmem
      rcases mem_insert hmem with heq | hmem
      · cases heq
        exact ⟨name.ofText_text, hschema⟩
      · exact hstored key declaration hmem
    · exact ⟨rfl, ordered_nil, by simp [empty]⟩
  exact hall.2

/-- The declarations are in the order of their names, each under its own. -/
structure Filed (registry : Registry) : Prop where
  ordered : Entries.Ordered registry.declarations
  stored : ∀ key declaration, (key, declaration) ∈ registry.declarations →
    Stored registry.ns key declaration

theorem filed_run (ns : Namespace) (calls : List DeclarationCall) : ((empty ns).run calls).Filed := by
  obtain ⟨hordered, hstored⟩ := stored_run ns calls
  exact ⟨hordered, by rwa [ns_run]⟩

theorem Sound.filed {registry : Registry} (h : registry.Sound) : registry.Filed where
  ordered := h.ordered
  stored key declaration hmem := by
    obtain ⟨rfl, -, hresource⟩ := h.declares key declaration hmem
    exact ⟨declaration.name.ofText_text, hresource⟩

/-- No two declarations have one id. -/
theorem nodup_ids (ns : Namespace) (calls : List DeclarationCall) :
    (((empty ns).run calls).declarations.map fun entry =>
      ((empty ns).run calls).idOf entry.2).Nodup := by
  obtain ⟨hordered, hstored⟩ := stored_run ns calls
  rw [List.nodup_iff_pairwise_ne, List.pairwise_map]
  refine hordered.imp_of_mem ?_
  rintro ⟨key, first⟩ ⟨key', second⟩ hfirst hsecond hlt heq
  have hkey := SchemaName.text_of_ofText (hstored key first hfirst).name
  have hkey' := SchemaName.text_of_ofText (hstored key' second hsecond).name
  have htext : first.name.text = second.name.text := (String.append_right_inj _).1 heq
  exact absurd (hkey.symm.trans (htext.trans hkey')) (ne_of_lt hlt)

/-- What a refused call leaves: the registry as it was, and in the case of a
section the schemas before the one that is refused. -/
def LeftBy (registry : Registry) (fault : LoadFault) : DeclarationCall → Prop
  | .schemas (.object members) source =>
    ∃ before name value after, members = before ++ (name, value) :: after ∧
      (Entries.Ordered members → ∀ entry ∈ members, entry ∈ before ↔ entry.1 < name) ∧
      registry.Accepts (DeclarationCall.each source before) ∧
      (registry.run (DeclarationCall.each source before)).registerValue name value source =
        .error fault ∧
      registry.perform (.schemas (.object members) source) =
        registry.run (DeclarationCall.each source before)
  | call => registry.perform call = registry

/-- In key order, what stands before an entry is what has a smaller key. -/
theorem mem_before_iff {before after : List (String × Json)} {entry : String × Json}
    (h : Entries.Ordered (before ++ entry :: after)) :
    ∀ other ∈ before ++ entry :: after, other ∈ before ↔ other.1 < entry.1 := by
  obtain ⟨-, hafter, hbefore⟩ := List.pairwise_append.1 h
  intro other hother
  refine ⟨fun hmem => hbefore other hmem entry List.mem_cons_self, fun hlt => ?_⟩
  rcases List.mem_append.1 hother with hmem | hmem
  · exact hmem
  · rcases List.mem_cons.1 hmem with rfl | hmem
    · exact absurd hlt (lt_irrefl _)
    · exact absurd hlt (lt_asymm ((List.pairwise_cons.1 hafter).1 other hmem))

theorem leftBy_of_answer {registry : Registry} {call : DeclarationCall} {fault : LoadFault}
    (h : registry.answer call = .error fault) : registry.LeftBy fault call := by
  cases call with
  | node name node source =>
    cases hregister : registry.register name node source with
    | ok after => simp [answer, hregister, Except.map] at h
    | error fault => simp [LeftBy, perform, hregister, Except.toOption]
  | value name value source =>
    cases hregister : registry.registerValue name value source with
    | ok after => simp [answer, hregister, Except.map] at h
    | error fault => simp [LeftBy, perform, hregister, Except.toOption]
  | schemas members source =>
    cases members with
    | object members =>
      have hall : (registry.registerAll source members).2 = .error fault := by
        cases hall : (registry.registerAll source members).2 with
        | ok done => simp [answer, registerSection, hall, Except.map] at h
        | error fault => simpa [answer, registerSection, hall, Except.map] using h
      obtain ⟨before, name, value, after, rfl, haccepts, hrefused, hrun⟩ := registerAll_eq_error hall
      exact ⟨before, name, value, after, rfl, mem_before_iff, haccepts, hrefused, hrun⟩
    | _ => rfl

theorem adds_of_answer {registry : Registry} {members : Json} {source : String} {count : Nat}
    (h : registry.answer (.schemas members source) = .ok count) :
    ∃ parts, members = .object parts ∧ count = parts.length ∧
      registry.Adds (registry.perform (.schemas members source)) source parts := by
  cases members with
  | object parts =>
    obtain ⟨⟨⟩, hall, rfl⟩ := map_eq_ok.1 (h : Except.map _ _ = _)
    obtain ⟨haccepts, hrun⟩ := registerAll_eq_ok hall
    refine ⟨parts, rfl, rfl, ?_⟩
    show registry.Adds (registry.registerAll source parts).1 source parts
    rw [hrun]
    exact adds_of_accepts haccepts
  | _ => cases h

/-- After any calls, each declaration stands under an accepted name and holds
the resource of its node, and no two have one id.  Some call was the first to
declare its name; later calls keep it as it is, and refuse a schema of the
name, with the documents of that call and of the new one.  A call that is
refused leaves the registry as it was; if it is a section, those of its schemas
are declared that come before the refused one.  A section that is accepted
declares its schemas and nothing else. -/
theorem registry_of_run (ns : Namespace) (calls : List DeclarationCall) :
    (∀ key declaration, (key, declaration) ∈ ((empty ns).run calls).declarations →
      Stored ns key declaration) ∧
    (((empty ns).run calls).declarations.map fun entry =>
      ((empty ns).run calls).idOf entry.2).Nodup ∧
    (∀ name declaration, ((empty ns).run calls).get? name = some declaration →
      (∀ later, ((empty ns).run (calls ++ later)).get? name = some declaration) ∧
      ∃ before call after, calls = before ++ call :: after ∧
        ((empty ns).run before).get? name = none ∧
        ((empty ns).run (before ++ [call])).get? name = some declaration ∧
        (∀ node source, ((empty ns).run calls).register name node source =
          .error (.duplicateSchema name call.source source)) ∧
        ∀ value node source, SchemaNode.parse value = .ok node →
          ((empty ns).run calls).registerValue name.text value source =
            .error (.duplicateSchema name call.source source)) ∧
    (∀ call fault, ((empty ns).run calls).answer call = .error fault →
      ((empty ns).run calls).LeftBy fault call) ∧
    ∀ members source count, ((empty ns).run calls).answer (.schemas members source) = .ok count →
      ∃ parts, members = .object parts ∧ count = parts.length ∧
        ((empty ns).run calls).Adds (((empty ns).run calls).perform (.schemas members source))
          source parts := by
  refine ⟨(stored_run ns calls).2, nodup_ids ns calls, ?_, fun _ _ => leftBy_of_answer,
    fun _ _ _ => adds_of_answer⟩
  intro name declaration hdeclared
  constructor
  · intro later
    rw [run_append]
    exact get?_run_of_get? hdeclared later
  · obtain ⟨before, call, after, hcalls, hnew, hfirst, hsource⟩ := exists_first_call rfl hdeclared
    refine ⟨before, call, after, hcalls, hnew, ?_, ?_, ?_⟩
    · rw [run_append]
      exact hfirst
    · intro node source
      rw [register_of_get? hdeclared, hsource]
    · intro value node source hnode
      rw [registerValue_of_get? hdeclared hnode, hsource]

/-- A section of which the second schema is refused. -/
def halfSound : Json :=
  .object [("A", .object []), ("B", .null), ("C", .object [])]

/-- The name of its first schema. -/
def nameA : SchemaName := ⟨"A", by decide, by decide⟩

/-- What its first schema is compiled as. -/
def anythingA : Json :=
  .object [("$id", .string "synapse://schemas/A"), ("$schema", .string SchemaNode.draftMarker)]

theorem run_halfSound : (empty .rest).run [.schemas halfSound "first.yaml"] =
    ⟨.rest, [("A", ⟨nameA, SchemaNode.empty, anythingA, "first.yaml"⟩)]⟩ := by
  have hname : SchemaName.ofText "A" = .ok nameA := nameA.ofText_text
  have hname' : SchemaName.ofText "B" = .ok ⟨"B", by decide, by decide⟩ := by decide
  have hnode : SchemaNode.parse (.object []) = .ok SchemaNode.empty := by rfl
  have hnode' : SchemaNode.parse .null = .error ⟨[], .notMapping .null⟩ := by rfl
  have hresource : SchemaNode.empty.resource .rest (Namespace.rest.resourceId nameA) =
      .ok anythingA := by
    simp only [SchemaNode.resource, SchemaNode.empty, SchemaNode.rewritten]
    rfl
  have hregister : (empty .rest).register nameA SchemaNode.empty "first.yaml" =
      .ok ⟨.rest, [("A", ⟨nameA, SchemaNode.empty, anythingA, "first.yaml"⟩)]⟩ := by
    have hnew : (empty .rest).get? nameA = none := rfl
    have hns : (empty .rest).ns = .rest := rfl
    simp only [register, hnew, hns, hresource]
    rfl
  simp only [run, List.foldl_cons, List.foldl_nil, perform, registerSection, halfSound, registerAll,
    registerValue, hname, hnode, hregister, hname', hnode']

theorem registry_of_halfSound :
    ((empty .rest).run [.schemas halfSound "first.yaml"]).registerValue "A" (.object [])
        "second.yaml" = .error (.duplicateSchema nameA "first.yaml" "second.yaml") ∧
      ((empty .rest).run ([.schemas halfSound "first.yaml"] ++
        [.schemas halfSound "second.yaml"])).get? nameA =
          some ⟨nameA, SchemaNode.empty, anythingA, "first.yaml"⟩ := by
  obtain ⟨-, -, hdeclared, -⟩ := registry_of_run .rest [.schemas halfSound "first.yaml"]
  obtain ⟨hkept, before, call, after, hcalls, -, -, -, hvalue⟩ :=
    hdeclared nameA ⟨nameA, SchemaNode.empty, anythingA, "first.yaml"⟩ (by rw [run_halfSound]; rfl)
  obtain ⟨rfl, rfl⟩ : before = [] ∧ .schemas halfSound "first.yaml" = call := by
    cases before with
    | nil => exact ⟨rfl, (List.cons.inj hcalls).1⟩
    | cons first rest => simp at hcalls
  exact ⟨hvalue (.object []) SchemaNode.empty "second.yaml" rfl, hkept _⟩

end Registry

end ApiContract
