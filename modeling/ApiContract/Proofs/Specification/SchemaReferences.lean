import ApiContract.Proofs.Contract.Composition
import ApiContract.Proofs.Contract.Targets
import ApiContract.Proofs.Schema.Identity
import ApiContract.Proofs.Specification.ChannelReferences
/-!
# References to schemas

The place of a declared schema in its document is written as a pointer, with each `~` of the name
escaped (`SchemaName.pointer`).  A reference to a schema is taken as it stands, so the pointer
names the schema that is spelt with the escapes (`SchemaName.ofReference_pointer`), which is
another one if there are any.  A reference to a channel is read with its escapes undone.

So the pointer of a name leads to its schema exactly if the name holds no `~`, and the two kinds of
references are read alike exactly if they hold no escape (`pointer_leads_to_escaped`).
-/

namespace ApiContract

namespace Path

/-! ## Texts without escapes -/

theorem escapeChar_ne_nil (c : Char) : escapeChar c ≠ [] := by
  unfold escapeChar
  split_ifs <;> exact List.cons_ne_nil _ _

theorem flatMap_escapeChar_eq_self_iff {segment : List Char} :
    segment.flatMap escapeChar = segment ↔ '~' ∉ segment ∧ '/' ∉ segment := by
  induction segment with
  | nil => simp
  | cons c segment ih =>
    -- what is written for `~` and `/` is longer than they are, and nothing behind them is shorter
    have hlonger (d : Char) : d :: segment.flatMap escapeChar ≠ segment := by
      intro heq
      have hlength := congrArg List.length heq
      have hle := Json.Reader.length_le_length_flatMap escapeChar_ne_nil segment
      rw [List.length_cons] at hlength
      omega
    rw [List.flatMap_cons, escapeChar]
    split_ifs with htilde hslash
    · simp [htilde, hlonger]
    · simp [hslash]
    · simp [ih, Ne.symm htilde, Ne.symm hslash]

/-- A segment is written as it is exactly if it holds nothing that is escaped. -/
theorem escape_eq_self_iff {segment : String} :
    escape segment = segment ↔ '~' ∉ segment.toList ∧ '/' ∉ segment.toList := by
  rw [← flatMap_escapeChar_eq_self_iff, escape, ← String.toList_inj, String.toList_ofList]

theorem length_unescapeChars_le (text : List Char) : (unescapeChars text).length ≤ text.length := by
  induction text using unescapeChars.induct with
  | case1 => exact Nat.le_refl _
  | case2 rest ih =>
    rw [unescapeChars, List.length_cons, List.length_cons, List.length_cons]
    omega
  | case3 rest ih =>
    rw [unescapeChars, List.length_cons, List.length_cons, List.length_cons]
    omega
  | case4 c rest hone hzero ih =>
    rw [unescapeChars, List.length_cons, List.length_cons]
    · omega
    · exact hone
    · exact hzero

/-- A `~` with a `0` or a `1` behind it stands somewhere in the text. -/
def HoldsEscape (text : List Char) : Prop := ['~', '0'] <:+: text ∨ ['~', '1'] <:+: text

instance : DecidablePred HoldsEscape := fun text =>
  inferInstanceAs (Decidable (['~', '0'] <:+: text ∨ ['~', '1'] <:+: text))

theorem unescapeChars_eq_self_iff {text : List Char} :
    unescapeChars text = text ↔ ¬ HoldsEscape text := by
  induction text using unescapeChars.induct with
  | case1 => exact iff_of_true rfl (by decide)
  | case2 rest ih =>
    have hescape : HoldsEscape ('~' :: '1' :: rest) := .inr (List.prefix_append ['~', '1'] rest).isInfix
    rw [unescapeChars]
    exact iff_of_false (by simp) (not_not_intro hescape)
  | case3 rest ih =>
    have hescape : HoldsEscape ('~' :: '0' :: rest) := .inl (List.prefix_append ['~', '0'] rest).isInfix
    have hshorter : unescapeChars rest ≠ '0' :: rest := by
      intro heq
      have hle := length_unescapeChars_le rest
      rw [heq, List.length_cons] at hle
      omega
    rw [unescapeChars]
    exact iff_of_false (by simpa using hshorter) (not_not_intro hescape)
  | case4 c rest hone hzero ih =>
    have hstart (d : Char) (hd : ∀ after, c = '~' → rest = d :: after → False) :
        ¬ ['~', d] <+: c :: rest := by
      intro hprefix
      obtain ⟨htilde, after, hafter⟩ := List.cons_prefix_cons.1 hprefix
      exact hd after htilde.symm hafter.symm
    have hholds : HoldsEscape (c :: rest) ↔ HoldsEscape rest := by
      simp [HoldsEscape, List.infix_cons_iff, hstart '0' hzero, hstart '1' hone]
    rw [unescapeChars, List.cons_inj_right, ih, hholds]
    · exact hone
    · exact hzero

/-- A text is read as it is exactly if no escape stands in it. -/
theorem unescape_eq_self_iff {text : String} :
    unescape text = text ↔ ¬ HoldsEscape text.toList := by
  rw [← unescapeChars_eq_self_iff, unescape, ← String.toList_inj, String.toList_ofList]

theorem mem_escape {c : Char} {segment : String} (h : c ∈ (escape segment).toList) :
    c ∈ segment.toList ∨ c = '~' ∨ c = '0' ∨ c = '1' := by
  rw [escape, String.toList_ofList, List.mem_flatMap] at h
  obtain ⟨d, hd, hc⟩ := h
  unfold escapeChar at hc
  split_ifs at hc with htilde hslash
  · rcases List.mem_pair.1 hc with rfl | rfl <;> simp
  · rcases List.mem_pair.1 hc with rfl | rfl <;> simp
  · exact .inl (List.mem_singleton.1 hc ▸ hd)

end Path

namespace SchemaName

/-! ## Pointers to schemas -/

/-- The place of the schema in its document, as a reference. -/
def pointer (name : SchemaName) : String := "#/components/schemas/" ++ Path.escape name.text

/-- The name that is spelt as the escaped form of this one. -/
def escaped (name : SchemaName) : SchemaName where
  text := Path.escape name.text
  nonempty := by
    intro hempty
    have htext : Path.unescape (Path.escape name.text) = "" := by
      rw [hempty]
      rfl
    exact name.nonempty (Path.unescape_escape name.text ▸ htext)
  plain := by
    rw [all_isNameChar_iff (Path.slash_not_mem_escape name.text)]
    intro hmark
    rcases Path.mem_escape hmark with hmark | hmark | hmark | hmark
    · exact name.mark_not_mem hmark
    · exact absurd hmark (by decide)
    · exact absurd hmark (by decide)
    · exact absurd hmark (by decide)

theorem escaped_eq_self_iff {name : SchemaName} : name.escaped = name ↔ '~' ∉ name.text.toList := by
  have htext : name.escaped = name ↔ Path.escape name.text = name.text := by
    constructor
    · intro heq
      exact congrArg text heq
    · intro heq
      have hname := name.ofText_text
      rw [← heq] at hname
      exact Except.ok.inj (name.escaped.ofText_text.symm.trans hname)
  rw [htext, Path.escape_eq_self_iff, and_iff_left name.slash_not_mem]

theorem pointer_eq_render (name : SchemaName) :
    name.pointer = "#" ++ Path.render ["components", "schemas", name.text] := by
  have hsection : "#" ++ Path.render ["components", "schemas"] = "#/components/schemas" := by
    decide +kernel
  have hconcat : Path.render ["components", "schemas", name.text] =
      Path.render ["components", "schemas"] ++ "/" ++ Path.escape name.text :=
    Path.render_concat ["components", "schemas"] name.text
  rw [hconcat, ← String.append_assoc, ← String.append_assoc, hsection]
  rfl

/-- The pointer to a schema names the one that is spelt with the escapes. -/
theorem ofReference_pointer (name : SchemaName) : ofReference name.pointer = .ok name.escaped :=
  ofReference_append "#/components/schemas" name.escaped

end SchemaName

namespace Namespace

theorem resourceOfReference_pointer (ns : Namespace) (name : SchemaName) :
    ns.resourceOfReference name.pointer = .ok (ns.resourceId name.escaped) := by
  rw [resourceOfReference, SchemaName.ofReference_pointer]
  rfl

/-- The pointer to a schema is led to its resource exactly if the name holds no `~`. -/
theorem resourceOfReference_pointer_iff {ns : Namespace} {name : SchemaName} :
    ns.resourceOfReference name.pointer = .ok (ns.resourceId name) ↔ '~' ∉ name.text.toList := by
  rw [resourceOfReference_pointer, Except.ok.injEq, resourceId_eq_iff,
    SchemaName.escaped_eq_self_iff, and_iff_right rfl]

end Namespace

namespace Registry

variable {registry : Registry} {name : SchemaName}

/-! ## Looking up a pointer -/

/-- A reference is looked up by the name that its resource belongs to. -/
theorem referenceFault?_eq (registry : Registry) (declaration : Declaration) (reference : String) :
    registry.referenceFault? declaration reference =
      match registry.ns.resourceOfReference reference with
      | .error invalid => some (.invalidReference declaration.name invalid)
      | .ok id =>
        if ((registry.ns.nameOf? id).bind registry.get?).isSome then none
        else some (.missingReference declaration.name reference id) := by
  rw [referenceFault?, Namespace.resourceOfReference]
  cases SchemaName.ofReference reference with
  | error invalid => rfl
  | ok target =>
    show _ = if ((registry.ns.nameOf? (registry.ns.resourceId target)).bind registry.get?).isSome
      then none else _
    rw [Namespace.nameOf?_resourceId]
    rfl

theorem referenceFault?_pointer_eq_none_iff {declaration : Declaration} :
    registry.referenceFault? declaration name.pointer = none ↔
      (registry.get? name.escaped).isSome = true := by
  rw [referenceFault?_eq, Namespace.resourceOfReference_pointer]
  simp only [Namespace.nameOf?_resourceId, Option.bind_some]
  split
  · next hsome => exact iff_of_true rfl hsome
  · next hnone => exact iff_of_false (by simp) hnone

theorem dangling_pointer_iff :
    registry.Dangling name.pointer ↔ registry.get? name.escaped = none := by
  rw [Dangling, ← SchemaName.ofReference_eq_ok_iff.1 name.ofReference_pointer, mem_names,
    Option.isSome_iff_ne_none, not_not]

end Registry

namespace Specification

/-- A reference to a channel and one to a schema that are written alike name the same thing
exactly if no escape stands in them. -/
theorem referenceTarget_eq_iff {holder : Entries Json} {reference : String}
    (hreference : holder.get? "$ref" = some (.string reference)) {target : SchemaName}
    (htarget : SchemaName.ofReference reference = .ok target) :
    referenceTarget (some (.object holder)) = some target.text ↔
      ¬ Path.HoldsEscape target.text.toList := by
  have hchannel : referenceTarget (some (.object holder)) = some (Path.unescape target.text) := by
    rw [referenceTarget_of_reference hreference, ← SchemaName.ofReference_eq_ok_iff.1 htarget]
  rw [hchannel, Option.some.injEq, Path.unescape_eq_self_iff]

end Specification

/-- The pointer to a schema leads to its resource exactly if the name holds no `~`; otherwise it
leads to the resource of the name that is spelt with the escapes.  So where the schema is declared,
a registry is refused for such a pointer exactly if that other name is not.  A reference to a
channel that is written like one to a schema names the same thing exactly if it holds no
escape. -/
theorem pointer_leads_to_escaped (name : SchemaName) :
    name.pointer = "#" ++ Path.render ["components", "schemas", name.text] ∧
    (∀ ns : Namespace,
      ns.resourceOfReference name.pointer = .ok (ns.resourceId name.escaped) ∧
        (ns.resourceOfReference name.pointer = .ok (ns.resourceId name) ↔
          '~' ∉ name.text.toList)) ∧
    (∀ registry : Registry, registry.Reachable → (registry.get? name).isSome = true →
      ('~' ∉ name.text.toList ∨ (registry.get? name.escaped).isSome = true →
        (∀ declaration, registry.referenceFault? declaration name.pointer = none) ∧
          ∀ engine schema id,
            registry.compile engine ≠ .error (.missingReference schema name.pointer id)) ∧
      ('~' ∈ name.text.toList → registry.get? name.escaped = none →
        ∀ declaration : Declaration, registry.get? declaration.name = some declaration →
          declaration.Refers name.pointer → ∀ engine, ∃ first reference,
            registry.FirstDangling first reference ∧
              registry.compile engine = .error (.missingReference first.name reference
                (registry.ns.lead reference)))) ∧
    ∀ (holder : Entries Json) (reference : String) (target : SchemaName),
      holder.get? "$ref" = some (.string reference) →
      SchemaName.ofReference reference = .ok target →
        (Specification.referenceTarget (some (.object holder)) = some target.text ↔
          ¬ Path.HoldsEscape target.text.toList) := by
  refine ⟨name.pointer_eq_render, ?_, ?_, ?_⟩
  · intro ns
    exact ⟨ns.resourceOfReference_pointer name, Namespace.resourceOfReference_pointer_iff⟩
  · intro registry hreachable hdeclared
    have hsound := Registry.sound_of_reachable hreachable
    constructor
    · intro hcase
      have hfound : (registry.get? name.escaped).isSome = true := by
        rcases hcase with hplain | hescaped
        · rw [SchemaName.escaped_eq_self_iff.2 hplain]
          exact hdeclared
        · exact hescaped
      have hnot : ¬ registry.Dangling name.pointer := by
        rw [Registry.dangling_pointer_iff]
        exact Option.isSome_iff_ne_none.1 hfound
      exact ⟨fun declaration => Registry.referenceFault?_pointer_eq_none_iff.2 hfound,
        Registry.compile_ne_missingReference hsound hnot⟩
    · intro _ hnone declaration hdeclaration hrefers engine
      exact Registry.compile_of_dangling hsound hdeclaration hrefers
        (Registry.dangling_pointer_iff.2 hnone) engine
  · intro holder reference target hreference htarget
    exact Specification.referenceTarget_eq_iff hreference htarget

namespace Registry

/-- A name with a `~`. -/
def nameTilde : SchemaName := ⟨"a~b", by decide, by decide⟩

/-- A schema that refers to another one by its pointer. -/
def pointing (name : SchemaName) : Json := .object [("$ref", .string name.pointer)]

/-- What the schema is read as. -/
def pointingNode (name : SchemaName) : SchemaNode :=
  { SchemaNode.empty with reference := some name.pointer }

theorem parse_pointing (name : SchemaName) :
    SchemaNode.parse (pointing name) = .ok (pointingNode name) := by rfl

theorem ordered_pointing (name : SchemaName) : (pointing name).Ordered := by
  refine Json.ordered_object.2 ⟨List.pairwise_singleton _ _, ?_⟩
  intro key value hmem
  obtain ⟨-, rfl⟩ := Prod.mk.inj (List.mem_singleton.1 hmem)
  trivial

/-- The declaration of a schema of anything, and of one that refers to it by its pointer. -/
def pointedAt (name : SchemaName) : Registry := (empty .rest).run
  [.value name.text (.object []) "inline.yaml", .value "S" (pointing name) "inline.yaml"]

theorem reachable_pointedAt (name : SchemaName) : (pointedAt name).Reachable := by
  refine reachable_run fun call hcall => ?_
  rcases List.mem_pair.1 hcall with rfl | rfl
  · exact Json.ordered_object.2 ⟨Entries.ordered_nil, by simp⟩
  · exact ordered_pointing name

theorem refers_pointedAt_nameTilde : ∃ declaration,
    (pointedAt nameTilde).get? declaration.name = some declaration ∧
      declaration.Refers nameTilde.pointer := by
  have hnew : (((empty .rest).run [.value nameTilde.text (.object []) "inline.yaml"]).get?
      nameS).isNone = true := by
    decide +kernel
  obtain ⟨declaration, hget, hname, hnode⟩ := get?_run_of_parse hnew (parse_pointing nameTilde)
    (by decide +kernel) "inline.yaml" []
  refine ⟨declaration, hname.symm ▸ hget, pointing nameTilde, ordered_pointing nameTilde, ?_,
    [], by simp, rfl⟩
  rw [hnode, parse_pointing]

/-- A schema is found by its pointer if its name holds no `~`.  With one, the registry is refused
for the pointer, and a reference to a channel that is written like it is read as another name. -/
theorem compile_of_pointedAt :
    (∀ engine schema id,
      (pointedAt nameA).compile engine ≠ .error (.missingReference schema nameA.pointer id)) ∧
    (∃ first reference, (pointedAt nameTilde).FirstDangling first reference ∧
      (pointedAt nameTilde).compile (.asNoted false) = .error (.missingReference first.name reference
        ((pointedAt nameTilde).ns.lead reference))) ∧
    Specification.referenceTarget (some (pointing nameTilde)) ≠ some nameTilde.escaped.text := by
  refine ⟨?_, ?_, ?_⟩
  · have hdeclared : ((pointedAt nameA).get? nameA).isSome = true := by decide +kernel
    exact (((pointer_leads_to_escaped nameA).2.2.1 _ (reachable_pointedAt nameA) hdeclared).1
      (.inl (by decide))).2
  · have hdeclared : ((pointedAt nameTilde).get? nameTilde).isSome = true := by decide +kernel
    have hescaped : ((pointedAt nameTilde).get? nameTilde.escaped).isNone = true := by decide +kernel
    obtain ⟨declaration, hget, hrefers⟩ := refers_pointedAt_nameTilde
    exact ((pointer_leads_to_escaped nameTilde).2.2.1 _ (reachable_pointedAt nameTilde)
      hdeclared).2 (by decide) (Option.isNone_iff_eq_none.1 hescaped) declaration hget hrefers (.asNoted false)
  · have hread := (pointer_leads_to_escaped nameTilde).2.2.2 [("$ref", .string nameTilde.pointer)]
      nameTilde.pointer nameTilde.escaped rfl nameTilde.ofReference_pointer
    exact fun hsame => absurd (hread.1 hsame) (by decide +kernel)

/-- A schema is declared under a name with a `~` and referred to by its pointer, and the registry is
refused: the reference is led to the resource of the name that is spelt with the escape, where
a channel is read with the escape undone. -/
theorem refusal_of_nameTilde :
    SchemaName.ofText "a~b" = .ok nameTilde ∧ ((pointedAt nameTilde).get? nameTilde).isSome = true ∧
    nameTilde.pointer = "#/components/schemas/a~0b" ∧
    Namespace.rest.resourceId nameTilde = "synapse://schemas/a~b" ∧
    Namespace.rest.resourceOfReference nameTilde.pointer = .ok "synapse://schemas/a~0b" ∧
    Specification.referenceTarget (some (pointing nameTilde)) = some "a~b" ∧
    ∃ fault, (∀ engine, (pointedAt nameTilde).compile engine = .error fault) ∧
      fault.message = "schema 'S' references unregistered resource synapse://schemas/a~0b " ++
        "(via '#/components/schemas/a~0b')" := by
  refine ⟨by decide, by decide +kernel, by decide +kernel, by decide +kernel, by decide +kernel,
    by decide +kernel, ?_⟩
  have hrefused : (pointedAt nameTilde).firstReferenceFault?.any (fun fault => fault.message =
      "schema 'S' references unregistered resource synapse://schemas/a~0b " ++
        "(via '#/components/schemas/a~0b')") = true := by
    decide +kernel
  obtain ⟨fault, hfault, hmessage⟩ := (Option.any_eq_true _ _).1 hrefused
  refine ⟨fault, fun engine => ?_, of_decide_eq_true hmessage⟩
  rw [compile, hfault]

end Registry

end ApiContract
