import ApiContract.Schema.Name
import Mathlib.Data.List.TakeWhile
import Mathlib.Tactic.Common
/-!
# Names, references and resources

The last segment of a reference holds no `/`, so it is a name unless it is empty or
holds a `#` (`SchemaName.ofReference_eq_error_iff`).  Every resource ends in the name that
it belongs to (`Namespace.lastSegment_resourceId`): a resource is a reference to
its own schema.
-/

namespace ApiContract

namespace SchemaName

/-! ## Texts of names -/

theorem ofText_eq_ok_iff {text : String} {name : SchemaName} :
    ofText text = .ok name ↔ name.text = text := by
  constructor
  · exact text_of_ofText
  · rintro rfl
    exact ofText_text name

theorem slash_not_mem (name : SchemaName) : '/' ∉ name.text.toList :=
  fun hslash => absurd (List.all_eq_true.1 name.plain _ hslash) (by decide)

theorem mark_not_mem (name : SchemaName) : '#' ∉ name.text.toList :=
  fun hmark => absurd (List.all_eq_true.1 name.plain _ hmark) (by decide)

/-! ## Last segments -/

theorem not_mem_lastSegment (text : String) : '/' ∉ (lastSegment text).toList := by
  rw [lastSegment, String.toList_ofList, List.mem_reverse]
  intro hmem
  simpa using List.mem_takeWhile_imp hmem

/-- A text without `/` is its own last segment. -/
theorem lastSegment_of_not_mem {text : String} (h : '/' ∉ text.toList) : lastSegment text = text := by
  have hall : ∀ c ∈ text.toList.reverse, decide (c ≠ '/') = true := by
    intro c hc
    exact decide_eq_true fun heq => h (heq ▸ List.mem_reverse.1 hc)
  rw [lastSegment, List.takeWhile_eq_self_iff.2 hall, List.reverse_reverse, String.ofList_toList]

/-- What stands before a `/` does not count. -/
theorem lastSegment_append (start text : String) :
    lastSegment (start ++ "/" ++ text) = lastSegment text := by
  have hslash : "/".toList = ['/'] := rfl
  rw [lastSegment, lastSegment, String.toList_append, String.toList_append, hslash,
    List.reverse_append, List.reverse_append, List.takeWhile_append]
  split
  · next hall =>
    -- The whole of the second text is its last segment, and the `/` comes next.
    rw [(List.takeWhile_prefix _).eq_of_length hall, List.reverse_singleton,
      List.singleton_append, List.takeWhile_cons_of_neg (by decide), List.append_nil]
  · rfl

/-- A reference names the schema that its last segment spells. -/
theorem ofReference_eq_ok_iff {reference : String} {name : SchemaName} :
    ofReference reference = .ok name ↔ name.text = lastSegment reference :=
  ofText_eq_ok_iff

/-- The last segment of the reference is empty or holds a `#`, so the reference has no
schema for its target. -/
def Targetless (reference : String) : Prop :=
  lastSegment reference = "" ∨ '#' ∈ (lastSegment reference).toList

instance : DecidablePred Targetless := fun reference =>
  inferInstanceAs (Decidable (lastSegment reference = "" ∨ '#' ∈ (lastSegment reference).toList))

/-- The refusal of a reference that has no schema for its target. -/
def refusal (reference : String) : InvalidName :=
  ⟨lastSegment reference, if lastSegment reference = "" then .empty else .separator⟩

theorem all_isNameChar_iff {text : String} (h : '/' ∉ text.toList) :
    text.toList.all isNameChar = true ↔ '#' ∉ text.toList := by
  rw [List.all_eq_true]
  constructor
  · intro hall hmem
    exact absurd (hall '#' hmem) (by decide)
  · intro hnone c hc
    have hslash : c ≠ '/' := fun heq => h (heq ▸ hc)
    have hhash : c ≠ '#' := fun heq => hnone (heq ▸ hc)
    simp [isNameChar, hslash, hhash]

/-- A reference is refused exactly if it has no schema for its target. -/
theorem ofReference_eq_error_iff {reference : String} {invalid : InvalidName} :
    ofReference reference = .error invalid ↔ Targetless reference ∧ invalid = refusal reference := by
  have hall := all_isNameChar_iff (not_mem_lastSegment reference)
  rw [ofReference, ofText, Targetless, refusal]
  by_cases hempty : lastSegment reference = ""
  · rw [dif_pos hempty, if_pos hempty]
    simp [hempty, eq_comm]
  · rw [dif_neg hempty, if_neg hempty]
    by_cases hhash : '#' ∈ (lastSegment reference).toList
    · rw [dif_neg fun h => hall.1 h hhash, Except.error.injEq]
      simp only [hhash, or_true, true_and]
      exact eq_comm
    · rw [dif_pos (hall.2 hhash)]
      simp [hempty, hhash]

theorem exists_ofReference_iff {reference : String} :
    (∃ name, ofReference reference = .ok name) ↔ ¬ Targetless reference := by
  cases h : ofReference reference with
  | error invalid => simp [(ofReference_eq_error_iff.1 h).1]
  | ok name =>
    have hnot : ¬ Targetless reference := by
      intro htargetless
      have := ofReference_eq_error_iff.2 ⟨htargetless, rfl⟩
      rw [h] at this
      cases this
    simp [hnot]

end SchemaName

namespace Namespace

/-! ## Resources -/

theorem root_eq (ns : Namespace) : ∃ start, ns.root = start ++ "/" := by
  cases ns with
  | rest => exact ⟨"synapse://schemas", by decide⟩
  | event => exact ⟨"synapse://asyncapi", by decide⟩

theorem lastSegment_root_append (ns : Namespace) {text : String} (h : '/' ∉ text.toList) :
    SchemaName.lastSegment (ns.root ++ text) = text := by
  obtain ⟨start, hroot⟩ := ns.root_eq
  rw [hroot, SchemaName.lastSegment_append, SchemaName.lastSegment_of_not_mem h]

theorem lastSegment_resourceId (ns : Namespace) (name : SchemaName) :
    SchemaName.lastSegment (ns.resourceId name) = name.text :=
  ns.lastSegment_root_append name.slash_not_mem

theorem stripStart?_eq_some {start text rest : List Char} :
    stripStart? start text = some rest ↔ text = start ++ rest := by
  induction start generalizing text with
  | nil => simp [stripStart?]
  | cons c start ih =>
    cases text with
    | nil => simp [stripStart?]
    | cons d text =>
      rw [stripStart?]
      split
      · next heq => simp [ih, heq]
      · next hne => simp [Ne.symm hne]

theorem nameOf?_root_append (ns : Namespace) (text : String) :
    ns.nameOf? (ns.root ++ text) = (SchemaName.ofText text).toOption := by
  have hstrip : stripStart? ns.root.toList (ns.root ++ text).toList = some text.toList :=
    stripStart?_eq_some.2 String.toList_append
  rw [nameOf?, hstrip, Option.bind_some, String.ofList_toList]

/-- An id that belongs to a name is the resource of that name. -/
theorem resourceId_of_nameOf? {ns : Namespace} {id : String} {name : SchemaName}
    (h : ns.nameOf? id = some name) : id = ns.resourceId name := by
  obtain ⟨rest, hrest, hname⟩ := Option.bind_eq_some_iff.1 h
  have htext : name.text = String.ofList rest := by
    cases hof : SchemaName.ofText (String.ofList rest) with
    | error invalid => simp [hof, Except.toOption] at hname
    | ok found =>
      obtain rfl : found = name := by simpa [hof, Except.toOption] using hname
      exact SchemaName.text_of_ofText hof
  rw [resourceId, htext, ← String.toList_inj, String.toList_append, String.toList_ofList]
  exact stripStart?_eq_some.1 hrest

/-- No resource has a number sign. -/
theorem mark_resourceId (ns : Namespace) (name : SchemaName) : '#' ∉ (ns.resourceId name).toList := by
  rw [resourceId, String.toList_append, List.mem_append, not_or]
  exact ⟨by cases ns <;> decide, name.mark_not_mem⟩

theorem nameOf?_resourceId (ns : Namespace) (name : SchemaName) :
    ns.nameOf? (ns.resourceId name) = some name := by
  rw [resourceId, nameOf?_root_append, SchemaName.ofText_text]
  rfl

theorem nameOf?_eq_some_iff {ns : Namespace} {id : String} {name : SchemaName} :
    ns.nameOf? id = some name ↔ id = ns.resourceId name := by
  constructor
  · exact resourceId_of_nameOf?
  · rintro rfl
    exact ns.nameOf?_resourceId name

theorem eq_of_root_append {ns ns' : Namespace} {text text' : String}
    (h : ns.root ++ text = ns'.root ++ text') : ns = ns' := by
  -- The roots differ in the first character of the host.
  have hhost := congrArg (fun id => id.toList[10]?) h
  simp only [String.toList_append] at hhost
  rw [List.getElem?_append_left (by cases ns <;> decide),
    List.getElem?_append_left (by cases ns' <;> decide)] at hhost
  revert hhost
  cases ns <;> cases ns' <;> decide

/-- A resource belongs to one name in one namespace. -/
theorem resourceId_eq_iff {ns ns' : Namespace} {name name' : SchemaName} :
    ns.resourceId name = ns'.resourceId name' ↔ ns = ns' ∧ name = name' := by
  constructor
  · intro heq
    obtain rfl := eq_of_root_append heq
    have hname := ns.nameOf?_resourceId name
    rw [heq, nameOf?_resourceId] at hname
    exact ⟨rfl, (Option.some.inj hname).symm⟩
  · rintro ⟨rfl, rfl⟩
    rfl

/-- The resource that a reference is led to. -/
def lead (ns : Namespace) (reference : String) : String :=
  ns.root ++ SchemaName.lastSegment reference

/-- What a reference is led to is a reference to the same schema. -/
theorem lastSegment_lead (ns : Namespace) (reference : String) :
    SchemaName.lastSegment (ns.lead reference) = SchemaName.lastSegment reference :=
  ns.lastSegment_root_append (SchemaName.not_mem_lastSegment reference)

theorem targetless_lead {ns : Namespace} {reference : String} :
    SchemaName.Targetless (ns.lead reference) ↔ SchemaName.Targetless reference := by
  rw [SchemaName.Targetless, SchemaName.Targetless, lastSegment_lead]

/-- A reference is led to a resource unless it has no schema for its target. -/
theorem resourceOfReference_eq_ok_iff {ns : Namespace} {reference id : String} :
    ns.resourceOfReference reference = .ok id ↔
      ¬ SchemaName.Targetless reference ∧ id = ns.lead reference := by
  rw [← SchemaName.exists_ofReference_iff, resourceOfReference, lead]
  cases hname : SchemaName.ofReference reference with
  | error invalid => simp [Except.map]
  | ok name =>
    have htext : name.text = SchemaName.lastSegment reference := SchemaName.text_of_ofText hname
    simp [Except.map, resourceId, htext, eq_comm]

end Namespace

end ApiContract
