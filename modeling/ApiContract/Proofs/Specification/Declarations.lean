import ApiContract.Proofs.Contract.Closure
import ApiContract.Proofs.Files.Tree
import ApiContract.Proofs.Specification.Outcomes
import ApiContract.Proofs.Yaml.Conversion
import Mathlib.Data.List.Pairwise
import Mathlib.Data.List.Sort
/-!
# What a REST specification declares

The documents of a specification are its root and its component files.  It is
loaded if all of them can be read, all their schemas can be declared, no two of
them declare one name (`Loadable`), and the union of what they declare compiles
(`Union`).  If not, the first problem is reported, the root before the component
files, and these in the order of their names.

The main statement is `loadRest_declared`.  All of it comes from the list of items
that loading goes through (`Specification.items`), which is that of the documents
one after the other (`items_eq`).
-/

namespace ApiContract

namespace Specification

/-! ## Documents -/

/-- A document of a specification. -/
inductive Document where
  | root
  | component (name : String)

/-- The path of a document. -/
def Document.path (spec : String) : Document → String
  | root => spec
  | component name => Files.join (componentDirectory spec) name

/-- The schemas in the value of a document. -/
def Document.schemas : Document → Json → Json
  | root => inlineSchemas
  | component _ => id

/-- The items of a document. -/
def Document.items (files : FileTree) (spec : String) (document : Document) : List Item :=
  documentItems files (document.path spec) document.schemas

/-- A file of this name holds components: it lies in the directory, is no index
and has one of the endings.  A file whose name is not text holds none. -/
def IsComponent (files : FileTree) (spec name : String) : Prop :=
  ∃ listed content, files.list (componentDirectory spec) = .ok listed ∧
    (.text name, .file content) ∈ listed ∧ isIndex name = false ∧ isSchemaFile name = true

/-- The documents that a specification has. -/
def HasDocument (files : FileTree) (spec : String) : Document → Prop
  | .root => True
  | .component name => IsComponent files spec name

/-- A document declares a schema under a name. -/
def Declares (files : FileTree) (spec : String) (document : Document) (text : String)
    (value : Json) : Prop :=
  HasDocument files spec document ∧ ∃ content members,
    readDocument files (document.path spec) = .ok content ∧
      document.schemas content = .object members ∧ (text, value) ∈ members

/-- All that a specification declares can be had and declared. -/
structure Loadable (files : FileTree) (spec : String) : Prop where
  readable : ∀ document, HasDocument files spec document →
    ∃ content, readDocument files (document.path spec) = .ok content ∧
      (document.schemas content = .null ∨ ∃ members, document.schemas content = .object members)
  present : files.isDirectory (componentDirectory spec) = true ∨
    ∃ content, readDocument files spec = .ok content ∧ inlineSchemas content ≠ .null
  accepted : ∀ document text value, Declares files spec document text value →
    ∃ name node schema, SchemaName.ofText text = .ok name ∧ SchemaNode.parse value = .ok node ∧
      node.resource .rest (Namespace.rest.resourceId name) = .ok schema
  distinct : ∀ document document' text value value', Declares files spec document text value →
    Declares files spec document' text value' → document = document'

/-- The registry of all that a specification declares. -/
structure Union (files : FileTree) (spec : String) (registry : Registry) : Prop where
  ns_eq : registry.ns = .rest
  ordered : Entries.Ordered registry.declarations
  declared : ∀ text declaration, (text, declaration) ∈ registry.declarations ↔
    ∃ document value, Declares files spec document text value ∧
      Registry.MadeFrom .rest (text, value, document.path spec) declaration

variable {files other : FileTree} {spec path : String}

/-! ## Reading -/

theorem ordered_of_readDocument {content : Json} (h : readDocument files path = .ok content) :
    content.Ordered := by
  unfold readDocument at h
  split at h
  · next text _ =>
    unfold parseDocument at h
    split at h
    · next value hvalue =>
      cases h
      exact Yaml.ordered_of_readJson hvalue
    · cases h
  · cases h

theorem ordered_schemas {content : Json} (h : content.Ordered) (document : Document) :
    (document.schemas content).Ordered := by
  cases document with
  | root =>
    show (inlineSchemas content).Ordered
    unfold inlineSchemas
    cases hpart : content.at? ["components", "schemas"] with
    | none => trivial
    | some schemas => exact h.of_at? hpart
  | component name => exact h

/-! ## Component files -/

theorem mem_fileNames {directory : String} {names : List String}
    (h : fileNames files directory = .ok names) {name : String} :
    name ∈ names ↔ ∃ listed content, files.list directory = .ok listed ∧
      (.text name, .file content) ∈ listed := by
  unfold fileNames at h
  split at h
  · next listed hlisted =>
    cases h
    rw [List.mem_filterMap]
    constructor
    · rintro ⟨⟨other, entry⟩, hmem, hname⟩
      cases entry with
      | directory => cases hname
      | file content =>
        cases OsText.text?_eq_some.1 hname
        exact ⟨listed, content, hlisted, hmem⟩
    · rintro ⟨listed', content, hlisted', hmem⟩
      cases hlisted.symm.trans hlisted'
      exact ⟨_, hmem, rfl⟩
  · cases h

theorem nodup_fileNames (hfiles : files.WellFormed) {directory : String} {names : List String}
    (h : fileNames files directory = .ok names) : names.Nodup := by
  unfold fileNames at h
  split at h
  · next listed hlisted =>
    cases h
    -- The names that are text are among the names that are listed.
    refine List.Nodup.of_map OsText.text ?_
    refine List.Nodup.sublist ?_ (FileTree.nodup_of_list hfiles hlisted)
    clear hlisted
    induction listed with
    | nil => exact .slnil
    | cons head rest ih =>
      obtain ⟨name, entry⟩ := head
      cases entry with
      | directory => exact ih.cons name
      | file content =>
        cases name with
        | text value => exact ih.cons_cons (.text value)
        | other bytes hbytes => exact ih.cons (.other bytes hbytes)
  · cases h

/-- The component files are those of a list of names in ascending order. -/
theorem exists_componentNames (hfiles : files.WellFormed)
    (hdirectory : files.isDirectory (componentDirectory spec) = true) :
    ∃ names : List String, names.Pairwise (· < ·) ∧
      (∀ name, name ∈ names ↔ IsComponent files spec name) ∧
      componentFiles files (componentDirectory spec) =
        .ok (names.map (Files.join (componentDirectory spec))) := by
  obtain ⟨listed, hlisted⟩ := FileTree.exists_list_of_isDirectory hdirectory
  obtain ⟨found, hfound⟩ : ∃ found, fileNames files (componentDirectory spec) = .ok found := by
    rw [fileNames, hlisted]
    exact ⟨_, rfl⟩
  have hnodup : (found.filter fun name => !isIndex name && isSchemaFile name).Nodup := by
    refine List.Nodup.filter _ ?_
    refine (nodup_fileNames hfiles hfound)
  refine ⟨(found.filter fun name => !isIndex name && isSchemaFile name).mergeSort (· ≤ ·), ?_, ?_, ?_⟩
  · have hsorted : ((found.filter fun name => !isIndex name && isSchemaFile name).mergeSort
        (· ≤ ·)).Pairwise (· ≤ ·) := by
      refine (List.pairwise_mergeSort ?_ ?_ _).imp of_decide_eq_true
      · intro a b c hab hbc
        exact decide_eq_true ((of_decide_eq_true hab).trans (of_decide_eq_true hbc))
      · intro a b
        rw [Bool.or_eq_true, decide_eq_true_eq, decide_eq_true_eq]
        exact le_total a b
    have hdistinct := (List.mergeSort_perm _ (· ≤ ·)).nodup_iff.2 hnodup
    exact (hsorted.and hdistinct).imp fun ⟨hle, hne⟩ => lt_of_le_of_ne hle hne
  · intro name
    rw [List.mem_mergeSort, List.mem_filter, mem_fileNames hfound, Bool.and_eq_true,
      Bool.not_eq_true']
    constructor
    · rintro ⟨⟨listed, content, hlisted, hmem⟩, hindex, hending⟩
      exact ⟨listed, content, hlisted, hmem, hindex, hending⟩
    · rintro ⟨listed, content, hlisted, hmem, hindex, hending⟩
      exact ⟨⟨listed, content, hlisted, hmem⟩, hindex, hending⟩
  · rw [componentFiles, hfound]
    rfl

/-- What is gone through when neither the directory nor a section is there. -/
def missingItems (files : FileTree) (spec : String) : List Item :=
  if files.isDirectory (componentDirectory spec) || hasInline files spec then []
  else [.fault (.missingComponents (componentDirectory spec))]

/-- The root is gone through first, and then the component files by their
names. -/
theorem items_eq (hfiles : files.WellFormed) (spec : String) :
    ∃ names : List String, names.Pairwise (· < ·) ∧
      (∀ name, name ∈ names ↔ IsComponent files spec name) ∧
      items files spec = (Document.root :: names.map .component).flatMap (·.items files spec) ++
        missingItems files spec := by
  cases hdirectory : files.isDirectory (componentDirectory spec) with
  | true =>
    obtain ⟨names, hsorted, hnames, hcomponents⟩ := exists_componentNames hfiles hdirectory
    refine ⟨names, hsorted, hnames, ?_⟩
    rw [items, laterItems, if_pos hdirectory, componentItems, hcomponents, missingItems, hdirectory,
      Bool.true_or, if_pos rfl, List.append_nil, List.flatMap_cons, List.flatMap_map]
    show _ ++ (names.map (Files.join (componentDirectory spec))).flatMap _ = _
    rw [List.flatMap_map]
    rfl
  | false =>
    refine ⟨[], .nil, ?_, ?_⟩
    · intro name
      constructor
      · intro h
        cases h
      · rintro ⟨listed, content, hlisted, -⟩
        rw [FileTree.isDirectory_of_list hlisted] at hdirectory
        cases hdirectory
    · rw [items, laterItems, hdirectory, if_neg (by decide), missingItems, hdirectory,
        Bool.false_or, List.map_nil, List.flatMap_cons, List.flatMap_nil, List.append_nil]
      rfl

/-! ## The items of one document -/

variable {document : Document}

theorem mem_documentItems {text : String} {value : Json} {source : String} :
    .schema text value source ∈ document.items files spec ↔ source = document.path spec ∧
      ∃ content members, readDocument files (document.path spec) = .ok content ∧
        document.schemas content = .object members ∧ (text, value) ∈ members := by
  unfold Document.items documentItems
  cases readDocument files (document.path spec) with
  | error fault => simp
  | ok content =>
    dsimp only
    cases hschemas : document.schemas content with
    | object members =>
      rw [sectionItems, List.mem_map]
      constructor
      · rintro ⟨⟨name, part⟩, hmem, heq⟩
        cases heq
        exact ⟨rfl, content, members, rfl, hschemas, hmem⟩
      · rintro ⟨rfl, _, _, hread, hschemas', hmem⟩
        cases hread
        cases hschemas.symm.trans hschemas'
        exact ⟨(text, value), hmem, rfl⟩
    | _ => simp [sectionItems, hschemas]

theorem fault_notMem_documentItems :
    (∀ fault, .fault fault ∉ document.items files spec) ↔
      ∃ content, readDocument files (document.path spec) = .ok content ∧
        (document.schemas content = .null ∨ ∃ members, document.schemas content = .object members) := by
  unfold Document.items documentItems
  cases readDocument files (document.path spec) with
  | error fault => simp
  | ok content =>
    dsimp only
    cases hschemas : document.schemas content with
    | _ => simp [sectionItems, hschemas]

/-- A document declares a name once. -/
theorem nodup_documentItems (files : FileTree) (spec : String) (document : Document) :
    ((document.items files spec).filterMap Item.name?).Nodup := by
  unfold Document.items documentItems
  cases hread : readDocument files (document.path spec) with
  | error fault => exact List.nodup_nil
  | ok content =>
    have hordered := ordered_schemas (ordered_of_readDocument hread) document
    dsimp only
    cases hschemas : document.schemas content with
    | object members =>
      rw [hschemas] at hordered
      have hnames : (sectionItems (document.path spec) (.object members)).filterMap Item.name? =
          members.map (·.1) := by
        rw [sectionItems, List.filterMap_map]
        exact congrFun List.filterMap_eq_map members
      rw [hnames]
      exact (Json.ordered_object.1 hordered).1.nodup
    | _ => exact List.nodup_nil

/-! ## All documents -/

theorem hasInline_iff : hasInline files spec = true ↔
    ∃ content, readDocument files spec = .ok content ∧ inlineSchemas content ≠ .null := by
  unfold hasInline
  cases readDocument files spec with
  | error fault => exact ⟨nofun, fun ⟨_, h, _⟩ => nomatch h⟩
  | ok content =>
    have hsome : (schemaSection? content).isSome = true ↔ inlineSchemas content ≠ .null := by
      rw [inlineSchemas_eq]
      cases hschemas : schemaSection? content with
      | none => simp
      | some schemas =>
        constructor
        · rintro - rfl
          exact absurd (isNull_of_schemaSection? hschemas) (by decide)
        · intro _
          rfl
    constructor
    · intro h
      exact ⟨content, rfl, hsome.1 h⟩
    · rintro ⟨_, heq, h⟩
      cases heq
      exact hsome.2 h

theorem declares_iff {text : String} {value : Json} : Declares files spec document text value ↔
    HasDocument files spec document ∧
      .schema text value (document.path spec) ∈ document.items files spec := by
  rw [mem_documentItems]
  exact and_congr_right fun _ => (and_iff_right rfl).symm

/-- The documents of a specification in the order in which they are gone
through. -/
structure Lists (files : FileTree) (spec : String) (documents : List Document) : Prop where
  mem_iff : ∀ document, document ∈ documents ↔ HasDocument files spec document
  nodup : documents.Nodup
  items_eq : items files spec = documents.flatMap (·.items files spec) ++ missingItems files spec

theorem lists_of_names {names : List String} (hsorted : names.Pairwise (· < ·))
    (hnames : ∀ name, name ∈ names ↔ IsComponent files spec name)
    (hitems : items files spec = (Document.root :: names.map .component).flatMap
      (·.items files spec) ++ missingItems files spec) :
    Lists files spec (.root :: names.map .component) where
  mem_iff := by
    intro document
    cases document with
    | root => simp [HasDocument]
    | component name => simp [HasDocument, hnames]
  nodup := by
    refine List.nodup_cons.2 ⟨by simp, ?_⟩
    refine List.Nodup.map ?_ (hsorted.imp ne_of_lt)
    intro name name' heq
    cases heq
    rfl
  items_eq := hitems

variable {documents : List Document}

/-- The schemas that are gone through are those that documents declare. -/
theorem Lists.schema_mem (h : Lists files spec documents) {text : String} {value : Json}
    {source : String} : .schema text value source ∈ items files spec ↔
      ∃ document, Declares files spec document text value ∧ source = document.path spec := by
  have hmissing : Item.schema text value source ∉ missingItems files spec := by
    unfold missingItems
    split
    · exact List.not_mem_nil
    · simp
  rw [h.items_eq, List.mem_append, or_iff_left hmissing, List.mem_flatMap]
  refine exists_congr fun document => ?_
  rw [h.mem_iff, declares_iff, and_assoc]
  refine and_congr_right fun _ => ?_
  constructor
  · intro hmem
    obtain ⟨rfl, -⟩ := mem_documentItems.1 hmem
    exact ⟨hmem, rfl⟩
  · rintro ⟨hmem, rfl⟩
    exact hmem

theorem Lists.fault_notMem (h : Lists files spec documents) :
    (∀ fault, .fault fault ∉ items files spec) ↔
      (∀ document, HasDocument files spec document →
        ∃ content, readDocument files (document.path spec) = .ok content ∧
          (document.schemas content = .null ∨
            ∃ members, document.schemas content = .object members)) ∧
      (files.isDirectory (componentDirectory spec) = true ∨
        ∃ content, readDocument files spec = .ok content ∧ inlineSchemas content ≠ .null) := by
  have hmissing : (∀ fault, .fault fault ∉ missingItems files spec) ↔
      (files.isDirectory (componentDirectory spec) || hasInline files spec) = true := by
    unfold missingItems
    split
    · next hpresent => simpa using hpresent
    · next hpresent => simp [hpresent]
  rw [Bool.or_eq_true, hasInline_iff] at hmissing
  rw [h.items_eq, ← hmissing]
  simp only [List.mem_append, List.mem_flatMap, not_or, forall_and, ← h.mem_iff,
    ← fault_notMem_documentItems]
  refine and_congr_left fun _ => ?_
  constructor
  · intro hnone document hmem fault hfault
    exact hnone fault ⟨document, hmem, hfault⟩
  · rintro hnone fault ⟨document, hmem, hfault⟩
    exact hnone document hmem fault hfault

theorem Lists.nodup_names_iff (h : Lists files spec documents) :
    ((items files spec).filterMap Item.name?).Nodup ↔
      ∀ document document' text value value', Declares files spec document text value →
        Declares files spec document' text value' → document = document' := by
  have hnames : (items files spec).filterMap Item.name? =
      documents.flatMap fun document => (document.items files spec).filterMap Item.name? := by
    have hmissing : (missingItems files spec).filterMap Item.name? = [] := by
      unfold missingItems
      split
      · rfl
      · rfl
    rw [h.items_eq, List.filterMap_append, hmissing, List.append_nil, List.filterMap_flatMap]
  have hmem (document : Document) (text : String) :
      text ∈ (document.items files spec).filterMap Item.name? ↔
        ∃ value, .schema text value (document.path spec) ∈ document.items files spec := by
    rw [List.mem_filterMap]
    constructor
    · rintro ⟨item, hitem, hname⟩
      cases item with
      | fault fault => cases hname
      | schema name value source =>
        cases hname
        obtain ⟨rfl, -⟩ := mem_documentItems.1 hitem
        exact ⟨value, hitem⟩
    · rintro ⟨value, hitem⟩
      exact ⟨_, hitem, rfl⟩
  rw [hnames, List.nodup_flatMap]
  constructor
  · rintro ⟨-, hdisjoint⟩ document document' text value value' hdeclares hdeclares'
    rw [declares_iff] at hdeclares hdeclares'
    by_contra hne
    have : Std.Symm (Function.onFun List.Disjoint fun document : Document =>
        (document.items files spec).filterMap Item.name?) :=
      ⟨fun _ _ hapart _ hlater hearlier => hapart hearlier hlater⟩
    exact hdisjoint.forall ((h.mem_iff _).2 hdeclares.1) ((h.mem_iff _).2 hdeclares'.1)
      hne ((hmem document text).2 ⟨value, hdeclares.2⟩)
      ((hmem document' text).2 ⟨value', hdeclares'.2⟩)
  · intro hdistinct
    refine ⟨fun document _ => nodup_documentItems files spec document, ?_⟩
    refine h.nodup.pairwise_of_forall_ne ?_
    intro document hdocument document' hdocument' hne text htext htext'
    obtain ⟨value, hvalue⟩ := (hmem document text).1 htext
    obtain ⟨value', hvalue'⟩ := (hmem document' text).1 htext'
    exact hne (hdistinct document document' text value value'
      (declares_iff.2 ⟨(h.mem_iff _).1 hdocument, hvalue⟩)
      (declares_iff.2 ⟨(h.mem_iff _).1 hdocument', hvalue'⟩))

/-- Nothing that is gone through has a problem exactly if all can be loaded. -/
theorem Lists.loadable_iff (h : Lists files spec documents) :
    Loadable files spec ↔ ClearAfter .rest [] (items files spec) := by
  have hmade (text : String) (value : Json) (source : String) :
      (∃ made, Registry.MadeFrom .rest (text, value, source) made) ↔
        ∃ name node schema, SchemaName.ofText text = .ok name ∧ SchemaNode.parse value = .ok node ∧
          node.resource .rest (Namespace.rest.resourceId name) = .ok schema := by
    constructor
    · rintro ⟨made, hmade⟩
      exact ⟨made.name, made.node, made.schema, hmade.name, hmade.node, hmade.schema⟩
    · rintro ⟨name, node, schema, hname, hnode, hschema⟩
      exact ⟨⟨name, node, schema, source⟩, hname, hnode, hschema, rfl⟩
  rw [clear_iff, h.fault_notMem, h.nodup_names_iff]
  simp only [h.schema_mem, hmade]
  constructor
  · rintro ⟨hreadable, hpresent, haccepted, hdistinct⟩
    refine ⟨⟨hreadable, hpresent⟩, ?_, hdistinct⟩
    rintro text value source ⟨document, hdeclares, -⟩
    exact haccepted document text value hdeclares
  · rintro ⟨⟨hreadable, hpresent⟩, haccepted, hdistinct⟩
    refine ⟨hreadable, hpresent, ?_, hdistinct⟩
    intro document text value hdeclares
    exact haccepted text value _ ⟨document, hdeclares, rfl⟩

/-- What can be loaded can be declared. -/
theorem Loadable.exists_made (h : Loadable files spec) {text : String} {value : Json}
    (hdeclares : Declares files spec document text value) :
    ∃ made, Registry.MadeFrom .rest (text, value, document.path spec) made := by
  obtain ⟨name, node, schema, hname, hnode, hschema⟩ := h.accepted document text value hdeclares
  exact ⟨⟨name, node, schema, document.path spec⟩, hname, hnode, hschema, rfl⟩

theorem Lists.union_iff (h : Lists files spec documents) (hloadable : Loadable files spec)
    {registry : Registry} :
    Union files spec registry ↔ registry.Holds .rest (items files spec) := by
  have hdeclared (text : String) (declaration : Declaration) :
      (∃ document value, Declares files spec document text value ∧
        Registry.MadeFrom .rest (text, value, document.path spec) declaration) ↔
      ∃ value source, .schema text value source ∈ items files spec ∧
        Registry.MadeFrom .rest (text, value, source) declaration := by
    constructor
    · rintro ⟨document, value, hdeclares, hmade⟩
      exact ⟨value, _, h.schema_mem.2 ⟨document, hdeclares, rfl⟩, hmade⟩
    · rintro ⟨value, source, hmem, hmade⟩
      obtain ⟨document, hdeclares, rfl⟩ := h.schema_mem.1 hmem
      exact ⟨document, value, hdeclares, hmade⟩
  constructor
  · rintro ⟨hns, hordered, hunion⟩
    refine ⟨hns, hordered, ?_, fun text declaration => (hunion text declaration).trans (hdeclared _ _)⟩
    exact (clear_iff.1 (h.loadable_iff.1 hloadable)).2.1
  · rintro ⟨hns, hordered, -, hholds⟩
    exact ⟨hns, hordered, fun text declaration => (hholds text declaration).trans (hdeclared _ _).symm⟩

/-- What is declared is the registry that is compiled. -/
theorem Lists.fill_eq_ok (h : Lists files spec documents) {registry : Registry} :
    Registry.fill .rest (items files spec) = .ok registry ↔
      Loadable files spec ∧ Union files spec registry := by
  rw [Registry.fill_eq_ok, ← h.loadable_iff]
  exact and_congr_right fun hloadable => (h.union_iff hloadable).symm

/-! ## Loading -/

variable {engine : Engine}

theorem Lists.gives_ok_iff (h : Lists files spec documents) {specification : Specification} :
    (loadRest files spec engine).Gives (.ok specification) ↔ Loadable files spec ∧
      ∃ registry contract content, Union files spec registry ∧
        registry.compile engine = .ok contract ∧ readDocument files spec = .ok content ∧
        specification = ⟨.openapi, spec, .ofDocument content .openapi, [], [], contract⟩ := by
  rw [(gives_loadRest files spec engine).iff, specificationOf, bind_eq_ok]
  constructor
  · rintro ⟨registry, hfilled, hcompiled⟩
    obtain ⟨hloadable, hunion⟩ := h.fill_eq_ok.1 (mapError_eq_ok.1 hfilled)
    obtain ⟨contract, hcontract, hread⟩ := bind_eq_ok.1 hcompiled
    obtain ⟨content, hcontent, hspecification⟩ := bind_eq_ok.1 hread
    exact ⟨hloadable, registry, contract, content, hunion, mapError_eq_ok.1 hcontract,
      mapError_eq_ok.1 hcontent, (pure_eq_ok.1 hspecification).symm⟩
  · rintro ⟨hloadable, registry, contract, content, hunion, hcontract, hcontent, rfl⟩
    refine ⟨registry, mapError_eq_ok.2 (h.fill_eq_ok.2 ⟨hloadable, hunion⟩), ?_⟩
    refine bind_eq_ok.2 ⟨contract, mapError_eq_ok.2 hcontract, ?_⟩
    exact bind_eq_ok.2 ⟨content, mapError_eq_ok.2 hcontent, rfl⟩

/-- What keeps documents from being loaded is the first problem. -/
theorem Lists.gives_load_iff (h : Lists files spec documents) {fault : LoadFault} :
    (loadRest files spec engine).Gives (.error (.load fault)) ↔
      FirstProblem .rest (items files spec) fault := by
  rw [(gives_loadRest files spec engine).iff, specificationOf, bind_eq_error, ← Registry.fill_eq_error]
  constructor
  · rintro (hfilled | ⟨registry, hfilled, hcompiled⟩)
    · obtain ⟨other, hother, heq⟩ := mapError_eq_error.1 hfilled
      cases heq
      exact hother
    · obtain ⟨hloadable, -⟩ := h.fill_eq_ok.1 (mapError_eq_ok.1 hfilled)
      obtain ⟨content, hcontent, -⟩ := hloadable.readable .root trivial
      rcases bind_eq_error.1 hcompiled with hfault | ⟨contract, -, hread⟩
      · obtain ⟨other, -, heq⟩ := mapError_eq_error.1 hfault
        cases heq
      · rcases bind_eq_error.1 hread with hfault | ⟨other, -, hdone⟩
        · obtain ⟨other, hother, -⟩ := mapError_eq_error.1 hfault
          exact nomatch hother.symm.trans hcontent
        · cases hdone
  · intro hfault
    exact .inl (mapError_eq_error.2 ⟨fault, hfault, rfl⟩)

/-! ## Entries in another order -/

theorem readDocument_of_reordered (hfiles : files.WellFormed) (hsame : files.Reordered other)
    (path : String) : readDocument files path = readDocument other path := by
  rw [readDocument, readDocument, FileTree.readText_of_reordered hfiles hsame]

theorem isComponent_of_reordered (hfiles : files.WellFormed) (hsame : files.Reordered other)
    {name : String} (h : IsComponent files spec name) : IsComponent other spec name := by
  obtain ⟨listed, content, hlisted, hmem, hindex, hending⟩ := h
  obtain ⟨listed', hlisted', hperm⟩ := FileTree.list_of_reordered hfiles hsame hlisted
  exact ⟨listed', content, hlisted', hperm.mem_iff.1 hmem, hindex, hending⟩

theorem items_of_reordered (hfiles : files.WellFormed) (hsame : files.Reordered other)
    (spec : String) : items files spec = items other spec := by
  have hother := hfiles.of_reordered hsame
  obtain ⟨names, hsorted, hnames, hitems⟩ := items_eq hfiles spec
  obtain ⟨names', hsorted', hnames', hitems'⟩ := items_eq hother spec
  have heq : names = names' := by
    refine hsorted.eq_of_mem_iff hsorted' ?_
    intro name
    rw [hnames, hnames']
    exact ⟨isComponent_of_reordered hfiles hsame, isComponent_of_reordered hother hsame.symm⟩
  have hread := readDocument_of_reordered hfiles hsame
  have hdocuments (document : Document) : document.items files spec = document.items other spec := by
    rw [Document.items, Document.items, documentItems, documentItems, hread]
  have hmissing : missingItems files spec = missingItems other spec := by
    rw [missingItems, missingItems, hasInline, hasInline, hread,
      FileTree.isDirectory_of_reordered hfiles hsame]
  rw [hitems, hitems', heq, hmissing, List.flatMap_congr fun document _ => hdocuments document]

/-- Loading does not depend on the order in which a directory is listed. -/
theorem gives_of_reordered (hfiles : files.WellFormed) (hsame : files.Reordered other)
    (result : Except ContractFault Specification) :
    (loadRest other spec engine).Gives result ↔ (loadRest files spec engine).Gives result := by
  rw [(gives_loadRest files spec engine).iff, (gives_loadRest other spec engine).iff,
    specificationOf, specificationOf, items_of_reordered hfiles hsame,
    readDocument_of_reordered hfiles hsame]

/-- A specification is loaded as it is declared, or the first problem of what it
declares is reported. -/
theorem loadRest_declared (hfiles : files.WellFormed) (spec : String) (engine : Engine) :
    ((∃ specification, (loadRest files spec engine).Gives (.ok specification)) ↔
      Loadable files spec ∧
        ∃ registry contract, Union files spec registry ∧ registry.compile engine = .ok contract) ∧
    (∀ specification, (loadRest files spec engine).Gives (.ok specification) →
      (∃ registry, Union files spec registry ∧
        registry.compile engine = .ok specification.contract) ∧
      (∀ text, text ∈ specification.contract.names ↔
        ∃ document value, Declares files spec document text value) ∧
      ∀ document text value, Declares files spec document text value →
        (∀ document' value', Declares files spec document' text value' → document' = document) ∧
        ∃ compiled, specification.contract.get? text = some compiled ∧
          compiled.declaration.source = document.path spec) ∧
    (∀ other : FileTree, files.Reordered other → ∀ result,
      (loadRest other spec engine).Gives result ↔ (loadRest files spec engine).Gives result) ∧
    ∃ names : List String, names.Pairwise (· < ·) ∧
      (∀ name, name ∈ names ↔ IsComponent files spec name) ∧
      ∀ fault, (loadRest files spec engine).Gives (.error (.load fault)) ↔
        FirstProblem .rest
          ((Document.root :: names.map .component).flatMap (·.items files spec) ++
            missingItems files spec) fault := by
  obtain ⟨names, hsorted, hnames, hitems⟩ := items_eq hfiles spec
  have hlists := lists_of_names hsorted hnames hitems
  refine ⟨?_, ?_, ?_, names, hsorted, hnames, ?_⟩
  · constructor
    · rintro ⟨specification, hgives⟩
      obtain ⟨hloadable, registry, contract, -, hunion, hcontract, -⟩ := hlists.gives_ok_iff.1 hgives
      exact ⟨hloadable, registry, contract, hunion, hcontract⟩
    · rintro ⟨hloadable, registry, contract, hunion, hcontract⟩
      obtain ⟨content, hcontent, -⟩ := hloadable.readable .root trivial
      exact ⟨_, hlists.gives_ok_iff.2
        ⟨hloadable, registry, contract, content, hunion, hcontract, hcontent, rfl⟩⟩
  · intro specification hgives
    obtain ⟨hloadable, registry, contract, -, hunion, hcontract, -, rfl⟩ :=
      hlists.gives_ok_iff.1 hgives
    refine ⟨⟨registry, hunion, hcontract⟩, ?_, ?_⟩
    · intro text
      rw [Registry.names_of_compile hcontract]
      constructor
      · intro hname
        obtain ⟨declaration, hdeclaration⟩ := Entries.mem_keys_iff.1 hname
        obtain ⟨document, value, hdeclares, -⟩ :=
          (hunion.declared text declaration).1 (Entries.mem_of_get?_eq_some hdeclaration)
        exact ⟨document, value, hdeclares⟩
      · rintro ⟨document, value, hdeclares⟩
        obtain ⟨made, hmade⟩ := hloadable.exists_made hdeclares
        exact List.mem_map_of_mem ((hunion.declared text made).2 ⟨document, value, hdeclares, hmade⟩)
    · intro document text value hdeclares
      refine ⟨?_, ?_⟩
      · intro document' value' hdeclares'
        exact hloadable.distinct document' document text value' value hdeclares' hdeclares
      · obtain ⟨made, hmade⟩ := hloadable.exists_made hdeclares
        have hget : registry.declarations.get? text = some made :=
          (Entries.get?_eq_some_iff hunion.ordered).2
            ((hunion.declared text made).2 ⟨document, value, hdeclares, hmade⟩)
        rw [← Registry.get?_of_compile hcontract, Option.map_eq_some_iff] at hget
        obtain ⟨compiled, hcompiled, rfl⟩ := hget
        exact ⟨compiled, hcompiled, hmade.source.symm⟩
  · intro other hsame result
    exact gives_of_reordered hfiles hsame result
  · intro fault
    rw [hlists.gives_load_iff, hitems]

/-- A specification of two component files and an index of them. -/
def orderFiles : FileTree where
  entries := [
    ([.text "components"], .directory),
    ([.text "components", .text "schemas"], .directory),
    ([.text "components", .text "schemas", .text "orders.yaml"],
      .file (Utf8.encode "Order:\n  items: \x7b$ref: Item\x7d\n")),
    ([.text "components", .text "schemas", .text "items.json"],
      .file (Utf8.encode "Item:\n  type: string\n")),
    ([.text "components", .text "schemas", .text "_index.yaml"],
      .file (Utf8.encode "- orders\n")),
    ([.text "openapi.yaml"], .file (Utf8.encode "openapi: 3.1.0\n"))]
  working := []

theorem componentFiles_orderFiles : componentFiles orderFiles "components/schemas" =
    .ok ["components/schemas/items.json", "components/schemas/orders.yaml"] := by
  obtain ⟨names, hnames, hlisted⟩ := exists_of_any (x := fileNames orderFiles "components/schemas")
    (p := fun names => names = ["orders.yaml", "items.json", "_index.yaml"]) (by decide +kernel)
  rw [of_decide_eq_true hlisted] at hnames
  have hkept : ["orders.yaml", "items.json", "_index.yaml"].filter
      (fun name => !isIndex name && isSchemaFile name) = ["orders.yaml", "items.json"] := by
    decide +kernel
  have hsorted : ["orders.yaml", "items.json"].mergeSort (· ≤ ·) = ["items.json", "orders.yaml"] := by
    rw [List.mergeSort]
    simp [List.MergeSort.Internal.splitInTwo]
  have hpaths : ["items.json", "orders.yaml"].map (Files.join "components/schemas") =
      ["components/schemas/items.json", "components/schemas/orders.yaml"] := by
    decide +kernel
  rw [componentFiles, hnames, Except.map, hkept, hsorted, hpaths]

theorem loadRest_orderFiles : ∃ specification,
    (loadRest orderFiles "openapi.yaml" (.asNoted true)).Gives (.ok specification) ∧
      ∀ text, text ∈ specification.contract.names ↔
        ∃ document value, Declares orderFiles "openapi.yaml" document text value := by
  have hdirectory : componentDirectory "openapi.yaml" = "components/schemas" := by decide +kernel
  have hitems : items orderFiles "openapi.yaml" =
      documentItems orderFiles "openapi.yaml" inlineSchemas ++
        (documentItems orderFiles "components/schemas/items.json" id ++
          documentItems orderFiles "components/schemas/orders.yaml" id) := by
    rw [items, laterItems, hdirectory, if_pos (by decide +kernel), componentItems,
      componentFiles_orderFiles]
    simp only [List.flatMap_cons, List.flatMap_nil, List.append_nil]
  have hgives := gives_loadRest orderFiles "openapi.yaml" (.asNoted true)
  rw [hitems] at hgives
  obtain ⟨specification, hspecification, -⟩ := exists_of_any (x := specificationOf orderFiles
    "openapi.yaml" (.asNoted true) (documentItems orderFiles "openapi.yaml" inlineSchemas ++
      (documentItems orderFiles "components/schemas/items.json" id ++
        documentItems orderFiles "components/schemas/orders.yaml" id)))
    (p := fun _ => true) (by decide +kernel)
  have hloaded := hgives.iff.2 hspecification
  exact ⟨specification, hloaded,
    ((loadRest_declared (by decide +kernel) "openapi.yaml" (.asNoted true)).2.1 specification hloaded).2.1⟩

/-- A name with the ending of component files that is not text. -/
def strangeName : OsText := .other (0xff :: Utf8.encode ".yaml") (by decide +kernel)

/-- Two schemas, of which only the second is one, whose names are a number and its
text. -/
def fiveTwice : String := "1: 5\n'1':\n  type: integer\n"

/-- Whether the number is among the schemas under its name. -/
def holdsFive (members : List (String × Json)) : Bool :=
  members.any fun member => member.1 = "1" && member.2.identical (.number (.integer 5))

/-- A specification with these two schemas, and with a component file whose name and
content are not text. -/
def lossyFiles : FileTree where
  entries := [
    ([.text "components"], .directory),
    ([.text "components", .text "schemas"], .directory),
    ([.text "components", .text "schemas", strangeName], .file [0xff]),
    ([.text "components", .text "schemas", .text "a.yaml"], .file (Utf8.encode fiveTwice)),
    ([.text "openapi.yaml"], .file (Utf8.encode "openapi: 3.1.0\n"))]
  working := []

/-- It is loaded, though a component file cannot be read and one of the schemas
cannot be declared. -/
theorem loadRest_lossyFiles :
    (∃ listed, lossyFiles.list "components/schemas" = .ok listed ∧
      (strangeName, .file [0xff]) ∈ listed ∧ Utf8.decode? [0xff] = none) ∧
    (∃ pairs members, Yaml.Value.ofText fiveTwice = .ok (.mapping pairs) ∧
      Yaml.Value.toJsonMembers pairs = .ok members ∧ ("1", .number (.integer 5)) ∈ members ∧
      ∀ node, SchemaNode.parse (.number (.integer 5)) ≠ .ok node) ∧
    ∃ specification, (loadRest lossyFiles "openapi.yaml" (.asNoted true)).Gives (.ok specification) := by
  refine ⟨?_, ?_, ?_⟩
  · obtain ⟨listed, hlisted, hmem⟩ := exists_of_any (x := lossyFiles.list "components/schemas")
      (p := fun listed => (strangeName, .file [0xff]) ∈ listed) (by decide +kernel)
    exact ⟨listed, hlisted, of_decide_eq_true hmem, by decide +kernel⟩
  · obtain ⟨value, hvalue, hpairs⟩ := exists_of_any (x := Yaml.Value.ofText fiveTwice)
      (p := fun value => value.pairs?.any fun pairs =>
        (Yaml.Value.toJsonMembers pairs).toOption.any holdsFive)
      (by decide +kernel)
    cases value with
    | mapping pairs =>
      obtain ⟨members, hmembers, hany⟩ := exists_of_any (x := Yaml.Value.toJsonMembers pairs)
        (p := holdsFive) (by simpa [Yaml.Value.pairs?] using hpairs)
      obtain ⟨⟨name, part⟩, hmem, hpart⟩ := List.any_eq_true.1 hany
      obtain ⟨hname, hpart⟩ := Bool.and_eq_true_iff.1 hpart
      cases of_decide_eq_true hname
      cases Json.identical_iff.1 hpart
      exact ⟨pairs, members, hvalue, hmembers, hmem, nofun⟩
    | _ => cases hpairs
  · have hdirectory : componentDirectory "openapi.yaml" = "components/schemas" := by decide +kernel
    obtain ⟨names, hnames, hlisted⟩ := exists_of_any (x := fileNames lossyFiles "components/schemas")
      (p := fun names => names = ["a.yaml"]) (by decide +kernel)
    rw [of_decide_eq_true hlisted] at hnames
    have hcomponents : componentFiles lossyFiles "components/schemas" =
        .ok ["components/schemas/a.yaml"] := by
      have hkept : ["a.yaml"].filter (fun name => !isIndex name && isSchemaFile name) =
          ["a.yaml"] := by decide +kernel
      have hpaths : ["a.yaml"].map (Files.join "components/schemas") =
          ["components/schemas/a.yaml"] := by decide +kernel
      rw [componentFiles, hnames, Except.map, hkept, List.mergeSort_singleton, hpaths]
    have hitems : items lossyFiles "openapi.yaml" =
        documentItems lossyFiles "openapi.yaml" inlineSchemas ++
          documentItems lossyFiles "components/schemas/a.yaml" id := by
      rw [items, laterItems, hdirectory, if_pos (by decide +kernel), componentItems, hcomponents]
      simp only [List.flatMap_cons, List.flatMap_nil, List.append_nil]
    have hgives := gives_loadRest lossyFiles "openapi.yaml" (.asNoted true)
    rw [hitems] at hgives
    obtain ⟨specification, hspecification, -⟩ := exists_of_any (x := specificationOf lossyFiles
      "openapi.yaml" (.asNoted true) (documentItems lossyFiles "openapi.yaml" inlineSchemas ++
        documentItems lossyFiles "components/schemas/a.yaml" id))
      (p := fun _ => true) (by decide +kernel)
    exact ⟨specification, hgives.iff.2 hspecification⟩

end Specification

end ApiContract
