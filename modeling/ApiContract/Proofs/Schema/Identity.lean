import ApiContract.Proofs.Schema.Names
/-!
# Names, references and ids

A text that refers to a schema names it by its last segment, the longest end of the text that
holds no `/` (`SchemaName.IsLastSegment`).  Resources go the other way: each belongs to one name
in one namespace, which can be read off it (`Namespace.nameOf?_eq_some_iff`).
-/

namespace ApiContract

namespace SchemaName

/-! ## Last segments -/

/-- The segment is the longest end of the text that holds no `/`. -/
structure IsLastSegment (text segment : String) : Prop where
  ends : segment.toList <:+ text.toList
  plain : '/' ∉ segment.toList
  longest : ∀ other : List Char, other <:+ text.toList → '/' ∉ other →
    other.length ≤ segment.toList.length

theorem IsLastSegment.unique {text segment segment' : String} (h : IsLastSegment text segment)
    (h' : IsLastSegment text segment') : segment = segment' := by
  have hlength : segment.toList.length = segment'.toList.length :=
    le_antisymm (h'.longest _ h.ends h.plain) (h.longest _ h'.ends h'.plain)
  have hends : segment.toList <:+ segment'.toList :=
    List.suffix_of_suffix_length_le h.ends h'.ends hlength.le
  exact String.toList_inj.1 (hends.eq_of_length hlength)

theorem isLastSegment_lastSegment (text : String) : IsLastSegment text (lastSegment text) where
  ends := by
    rw [lastSegment, String.toList_ofList, ← List.reverse_prefix, List.reverse_reverse]
    exact List.takeWhile_prefix _
  plain := not_mem_lastSegment text
  longest := by
    intro other hends hplain
    obtain ⟨before, hbefore⟩ := List.reverse_prefix.2 hends
    have hother : ∀ c ∈ other.reverse, decide (c ≠ '/') = true := by
      intro c hc
      exact decide_eq_true fun heq => hplain (heq ▸ List.mem_reverse.1 hc)
    -- From the end of the text, the segment goes on where the other one stops.
    rw [lastSegment, String.toList_ofList, ← hbefore, List.takeWhile_append_of_pos hother,
      List.length_reverse, List.length_append, List.length_reverse]
    exact Nat.le_add_right _ _

theorem isLastSegment_iff {text segment : String} :
    IsLastSegment text segment ↔ segment = lastSegment text := by
  constructor
  · intro h
    exact h.unique (isLastSegment_lastSegment text)
  · rintro rfl
    exact isLastSegment_lastSegment text

/-! ## References to a name -/

/-- A name refers to itself. -/
theorem ofReference_text (name : SchemaName) : ofReference name.text = .ok name :=
  ofReference_eq_ok_iff.2 (lastSegment_of_not_mem name.slash_not_mem).symm

/-- What stands before the last `/` does not count. -/
theorem ofReference_append (start : String) (name : SchemaName) :
    ofReference (start ++ "/" ++ name.text) = .ok name :=
  ofReference_eq_ok_iff.2
    ((lastSegment_append start name.text).trans (lastSegment_of_not_mem name.slash_not_mem)).symm

end SchemaName

/-- The laws of names, references and ids.  A reference names a schema exactly if its last
segment is not empty and holds no `#`, and then it is that segment; so a name is named by itself
and by every reference that ends in it after a `/`.  An id belongs to a name exactly if it is the
resource of the name; so no two names have one resource, and a namespace knows no resource
of the other one. -/
theorem names_of_references_and_ids :
    (∀ reference : String, ∃ segment,
      (∀ other, SchemaName.IsLastSegment reference other ↔ other = segment) ∧
        ((∃ name, SchemaName.ofReference reference = .ok name) ↔
          segment ≠ "" ∧ '#' ∉ segment.toList) ∧
        ∀ name, SchemaName.ofReference reference = .ok name ↔ name.text = segment) ∧
    (∀ name : SchemaName, SchemaName.ofText name.text = .ok name ∧
      SchemaName.ofReference name.text = .ok name ∧
        ∀ start : String, SchemaName.ofReference (start ++ "/" ++ name.text) = .ok name) ∧
    (∀ (ns : Namespace) (id : String) (name : SchemaName),
      ns.nameOf? id = some name ↔ id = ns.resourceId name) ∧
    (∀ (ns ns' : Namespace) (name name' : SchemaName),
      ns.resourceId name = ns'.resourceId name' ↔ ns = ns' ∧ name = name') ∧
    ∀ (ns ns' : Namespace) (name : SchemaName),
      (ns.nameOf? (ns'.resourceId name)).isSome = true ↔ ns = ns' := by
  refine ⟨?_, ?_, ?_, ?_, ?_⟩
  · intro reference
    refine ⟨SchemaName.lastSegment reference, fun other => SchemaName.isLastSegment_iff, ?_,
      fun name => SchemaName.ofReference_eq_ok_iff⟩
    rw [SchemaName.exists_ofReference_iff, SchemaName.Targetless, not_or]
  · intro name
    exact ⟨name.ofText_text, name.ofReference_text,
      fun start => SchemaName.ofReference_append start name⟩
  · intro ns id name
    exact Namespace.nameOf?_eq_some_iff
  · intro ns ns' name name'
    exact Namespace.resourceId_eq_iff
  · intro ns ns' name
    rw [Option.isSome_iff_exists]
    constructor
    · rintro ⟨found, hfound⟩
      exact (Namespace.resourceId_eq_iff.1 (Namespace.nameOf?_eq_some_iff.1 hfound)).1.symm
    · rintro rfl
      exact ⟨name, ns.nameOf?_resourceId name⟩

end ApiContract
