import ApiContract.JsonSchema.Gathering
/-!
# Readings

Only some parts of a schema are read as schemas again: those under the keywords by which
one of the drafts puts schemas inside schemas.  All others are data, such as a value to
compare with.  So what a keyword means depends on the reading of the object in which it
stands (`Reading.below`).

A pointer does not look at readings.  It can lead to any part, which is then read as a
schema.  A reference is in keeping with a reading if its pointer leads from a schema to a
part that is read as a schema anyway (`Reading.admits`).  Where other pointers are to be
followed, every part can be read as a schema (`Reading.throughout`).
-/

namespace ApiContract.JsonSchema

/-- How a value is read. -/
inductive Reading where
  /-- As a schema, with every part of it. -/
  | throughout
  /-- As a schema. -/
  | schema
  /-- As a map or an array of schemas. -/
  | schemas
  /-- As it is. -/
  | data
deriving DecidableEq, Repr

namespace Reading

/-- Whether what is read is a schema. -/
def isSchema : Reading → Bool
  | throughout | schema => true
  | schemas | data => false

/-- The keywords whose value is a schema in one of the drafts, or an array of schemas instead. -/
def schemaKeywords : List String :=
  ["additionalItems", "additionalProperties", "contains", "contentSchema", "else", "if", "items",
    "not", "propertyNames", "then", "unevaluatedItems", "unevaluatedProperties"]

/-- The keywords whose value is a map or an array of schemas in one of the drafts, and
`dependentRequired`, whose members are compiled as those of `dependencies` are. -/
def schemasKeywords : List String :=
  ["$defs", "allOf", "anyOf", "definitions", "dependencies", "dependentRequired",
    "dependentSchemas", "oneOf", "patternProperties", "prefixItems", "properties"]

/-- How the value of a keyword is read in a schema. -/
def ofKeyword (keyword : String) : Reading :=
  if schemaKeywords.contains keyword then schema
  else if schemasKeywords.contains keyword then schemas
  else data

/-- How the items of an array are read. -/
def item : Reading → Reading
  | throughout => throughout
  | schema | schemas => schema
  | data => data

/-- How the member of an object is read. -/
def below (reading : Reading) (key : String) : Reading :=
  match reading with
  | throughout => throughout
  | schema => ofKeyword key
  | schemas => schema
  | data => data

/-! ## Pointers -/

/-- Whether a segment of a pointer can be an index. -/
def isIndex (segment : String) : Bool :=
  (Library.looseIndex? segment).isSome || (Path.index? (Path.unescape segment)).isSome

/-- Whether the segments of a pointer lead from one reading to another, whatever arrays and
objects they go through. -/
def leadsTo (start finish : Reading) : List String → Bool
  | [] => start = finish
  | segment :: rest => (start.item.leadsTo finish rest || !isIndex segment) &&
    (start.below (Path.unescape segment)).leadsTo finish rest

/-- Whether a fragment that is a pointer leads from a schema to a schema. -/
def admitsFragment (reading : Reading) (fragment : String) : Bool :=
  fragment.toList.head? ≠ some '/' ||
    (Library.pointerSegments fragment).toOption.all (reading.leadsTo reading)

/-- Whether everything behind a number sign that is a pointer leads from a schema to a
schema. -/
def admitsBehind (reading : Reading) : List Char → Bool
  | [] => true
  | '#' :: rest => reading.admitsFragment (String.ofList rest) && reading.admitsBehind rest
  | _ :: rest => reading.admitsBehind rest

/-- Whether a reference is in keeping with the reading.  Where every part is read as a schema,
no pointer leads elsewhere. -/
def admits (reading : Reading) (reference : String) : Bool :=
  reading = throughout || reading.admitsBehind reference.toList

theorem leadsTo_throughout (segments : List String) : throughout.leadsTo throughout segments = true := by
  induction segments with
  | nil => rfl
  | cons segment rest ih => rw [leadsTo, item, below, ih, Bool.true_or, Bool.and_true]

theorem admitsFragment_throughout (fragment : String) : throughout.admitsFragment fragment = true := by
  rw [admitsFragment, Bool.or_eq_true]
  refine .inr ?_
  cases Library.pointerSegments fragment with
  | error fault => rfl
  | ok segments => exact leadsTo_throughout segments

theorem admitsBehind_throughout (text : List Char) : throughout.admitsBehind text = true := by
  induction text using admitsBehind.induct with
  | case1 => rfl
  | case2 rest ih => rw [admitsBehind, admitsFragment_throughout, ih, Bool.and_self]
  | case3 c rest hmark ih => rw [admitsBehind, ih]; exact hmark

theorem admits_eq (reading : Reading) (reference : String) :
    reading.admits reference = reading.admitsBehind reference.toList := by
  rw [admits]
  by_cases hreading : reading = throughout
  · rw [hreading, admitsBehind_throughout, Bool.or_true]
  · rw [decide_eq_false hreading, Bool.false_or]

/-- A text without a number sign has no pointer. -/
theorem admits_of_not_mem {reading : Reading} {reference : String} (h : '#' ∉ reference.toList) :
    reading.admits reference = true := by
  rw [admits_eq]
  generalize reference.toList = text at h
  induction text using admitsBehind.induct with
  | case1 => rfl
  | case2 rest ih => exact absurd List.mem_cons_self h
  | case3 c rest hmark ih =>
    rw [admitsBehind]
    · exact ih fun hmem => h (List.mem_cons_of_mem _ hmem)
    · exact hmark

theorem admitsFragment_of_append {reading : Reading} {before fragment : List Char}
    (h : reading.admitsBehind (before ++ '#' :: fragment) = true) :
    reading.admitsFragment (String.ofList fragment) = true := by
  induction before with
  | nil => exact (Bool.and_eq_true_iff.1 h).1
  | cons c rest ih =>
    refine ih ?_
    rw [List.cons_append] at h
    unfold admitsBehind at h
    split at h
    · next heq => cases heq
    · next heq =>
      obtain ⟨rfl, rfl⟩ := List.cons.inj heq
      exact (Bool.and_eq_true_iff.1 h).2
    · next heq =>
      obtain ⟨rfl, rfl⟩ := List.cons.inj heq
      exact h

theorem admitsFragment_empty (reading : Reading) : reading.admitsFragment "" = true := rfl

/-- What a reference enters a schema by. -/
theorem admitsFragment_of_mark {reading : Reading} {reference : String} {fragment : List Char}
    (h : reading.admits reference = true) (hmark : reference.toList = '#' :: fragment) :
    reading.admitsFragment (String.ofList fragment) = true := by
  rw [admits_eq, hmark] at h
  exact (Bool.and_eq_true_iff.1 h).1

theorem admitsFragment_splitFragment {reading : Reading} {reference : String}
    (h : reading.admits reference = true) :
    reading.admitsFragment (splitFragment reference).2 = true := by
  have hsplit := List.takeWhile_append_dropWhile (p := (· ≠ '#')) (l := reference.toList.reverse)
  rw [splitFragment]
  split
  · exact admitsFragment_empty reading
  · next hpart =>
    cases hrest : reference.toList.reverse.dropWhile (· ≠ '#') with
    | nil =>
      rw [hrest, List.append_nil] at hsplit
      rw [hsplit, List.reverse_reverse, String.length_toList] at hpart
      exact absurd rfl hpart
    | cons c rest =>
      obtain rfl : c = '#' := by
        have hhead := List.head_dropWhile_not (p := (· ≠ '#')) (l := reference.toList.reverse)
          (hrest ▸ List.cons_ne_nil c rest)
        simp only [hrest, List.head_cons] at hhead
        exact Decidable.not_not.1 (of_decide_eq_false hhead)
      have htext := congrArg List.reverse hsplit
      rw [hrest, List.reverse_append, List.reverse_cons, List.append_assoc, List.singleton_append,
        List.reverse_reverse] at htext
      rw [admits_eq, ← htext] at h
      exact admitsFragment_of_append h

theorem leadsTo_of_admitsFragment {reading : Reading} {fragment : String} {segments : List String}
    (h : reading.admitsFragment fragment = true) (hslash : fragment.toList.head? = some '/')
    (hsegments : Library.pointerSegments fragment = .ok segments) :
    reading.leadsTo reading segments = true := by
  rw [admitsFragment, hslash, hsegments] at h
  simpa [Except.toOption] using h

/-! ## Schemas inside schemas -/

theorem mem_keywords {draft : Draft} {keyword : String} {holding : Draft.Holding}
    (h : draft.holding? keyword = some holding) : keyword ∈ schemaKeywords ++ schemasKeywords := by
  refine Decidable.of_not_not fun hnot => ?_
  simp only [schemaKeywords, schemasKeywords, List.cons_append, List.nil_append, List.mem_cons,
    List.not_mem_nil, or_false, not_or] at hnot
  simp [Draft.holding?, hnot] at h

/-- The reading of a value in which schemas are held. -/
def ofHolding : Draft.Holding → Reading
  | .schema | .schemaOrArray => schema
  | .schemaArray | .schemaMap | .mixedMap => schemas

theorem ofKeyword_of_holding? {draft : Draft} {keyword : String} {holding : Draft.Holding}
    (h : draft.holding? keyword = some holding) : ofKeyword keyword = ofHolding holding := by
  have hall : ∀ keyword ∈ schemaKeywords ++ schemasKeywords, ∀ draft ∈ Draft.all, ∀ holding ∈ draft.holding? keyword,
      ofKeyword keyword = ofHolding holding := by
    decide
  exact hall keyword (mem_keywords h) draft (by cases draft <;> decide) holding h

variable {reading : Reading}

theorem item_of_isSchema (hschema : reading.isSchema = true) : reading.item = reading := by
  cases reading with
  | throughout | schema => rfl
  | _ => cases hschema

theorem below_schema (hschema : reading.isSchema = true) {keyword : String}
    (h : ofKeyword keyword = schema) : reading.below keyword = reading := by
  cases reading with
  | throughout => rfl
  | schema => exact h
  | _ => cases hschema

theorem item_below_schemas (hschema : reading.isSchema = true) {keyword : String}
    (h : ofKeyword keyword = schemas) : (reading.below keyword).item = reading := by
  cases reading with
  | throughout => rfl
  | schema => rw [below, h, item]
  | _ => cases hschema

theorem below_below_schemas (hschema : reading.isSchema = true) {keyword : String}
    (h : ofKeyword keyword = schemas) (key : String) : (reading.below keyword).below key = reading := by
  cases reading with
  | throughout => rfl
  | schema => rw [below, h, below]
  | _ => cases hschema

/-- The schemas that are held in a value of the one reading have the other one. -/
def Holds (reading inside : Reading) : Draft.Holding → Prop
  | .schema | .schemaOrArray => reading = inside
  | .schemaArray | .schemaMap | .mixedMap =>
    reading.item = inside ∧ ∀ key, reading.below key = inside

/-- The schemas that a keyword holds are read as the schema around them is. -/
theorem holds_of_holding? {draft : Draft} {keyword : String} {holding : Draft.Holding}
    (hschema : reading.isSchema = true) (h : draft.holding? keyword = some holding) :
    (reading.below keyword).Holds reading holding := by
  have hkeyword := ofKeyword_of_holding? h
  cases holding with
  | schema | schemaOrArray => exact below_schema hschema hkeyword
  | _ => exact ⟨item_below_schemas hschema hkeyword, below_below_schemas hschema hkeyword⟩

/-- The reading at the end of a path from a schema. -/
def after (reading : Reading) : List (Option String) → Reading
  | [] => reading
  | none :: rest => reading.item.after rest
  | some key :: rest => (reading.below key).after rest

theorem after_append (reading : Reading) (path path' : List (Option String)) :
    reading.after (path ++ path') = (reading.after path).after path' := by
  induction path generalizing reading with
  | nil => rfl
  | cons first rest ih => cases first <;> exact ih _

/-- Where a draft finds a schema inside a schema, it is read as one. -/
theorem after_of_leadsToSchema {draft : Draft} {path : List (Option String)}
    (hschema : reading.isSchema = true) (h : draft.leadsToSchema path = true) :
    reading.after path = reading := by
  induction path using Draft.leadsToSchema.induct draft with
  | case1 => rfl
  | case2 rest ih =>
    rw [after, item_of_isSchema hschema]
    exact ih h
  | case3 keyword rest hholding ih =>
    simp only [Draft.leadsToSchema, hholding] at h
    rw [after, show reading.below keyword = reading from holds_of_holding? hschema hholding]
    exact ih h
  | case4 keyword rest hholding ih =>
    simp only [Draft.leadsToSchema, hholding] at h
    rw [after, show reading.below keyword = reading from holds_of_holding? hschema hholding]
    exact ih h
  | case5 keyword holding next rest hone hone' hholding ih =>
    -- One step goes to the array or the map, and one to a schema in it.
    have hinside := holds_of_holding? hschema hholding
    have hnext : (reading.below keyword).after [next] = reading := by
      cases next with
      | none => cases holding <;> first | exact absurd rfl hone | exact absurd rfl hone' | exact hinside.1
      | some key => cases holding <;> first | exact absurd rfl hone | exact absurd rfl hone' | exact hinside.2 key
    have hrest : draft.leadsToSchema rest = true := by
      unfold Draft.leadsToSchema at h
      rw [hholding] at h
      cases holding <;> first | exact h | exact absurd rfl hone | exact absurd rfl hone'
    rw [after, ← List.singleton_append, after_append, hnext]
    exact ih hrest
  | case6 => simp_all [Draft.leadsToSchema]

end Reading

end ApiContract.JsonSchema
