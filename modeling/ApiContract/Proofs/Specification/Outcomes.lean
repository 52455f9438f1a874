import ApiContract.Proofs.Contract.Items
import ApiContract.Specification.Loading
/-!
# What loading comes to

Loading makes records on the way, and what it comes to does not depend on them
(`Loading.Gives`).  Loading a REST specification is going through a list of items
(`Specification.items`): what its documents declare and what cannot be had, the
root first.  The registry that the items fill is compiled (`gives_loadRest`).
-/

namespace ApiContract

namespace Loading

variable {α β : Type} {loading : Loading α} {result : Except ContractFault α}

/-- What a loading comes to, whatever was recorded before. -/
def Gives (loading : Loading α) (result : Except ContractFault α) : Prop :=
  ∀ log : Log, (StateT.run (ExceptT.run loading) log).1 = result

theorem Gives.pure (a : α) : Gives (Pure.pure a) (.ok a) := fun _ => rfl

theorem Gives.throw (fault : ContractFault) : Gives (throw fault : Loading α) (.error fault) :=
  fun _ => rfl

/-- Two steps come to what their results come to. -/
theorem Gives.bind {next : α → Loading β} {following : α → Except ContractFault β}
    (h : loading.Gives result) (hnext : ∀ a, result = .ok a → (next a).Gives (following a)) :
    (loading >>= next).Gives (result >>= following) := by
  intro log
  have hfirst := h log
  show (StateT.run (ExceptT.run loading >>= ExceptT.bindCont next) log).1 = _
  rw [StateT.run_bind]
  show (StateT.run (ExceptT.bindCont next (StateT.run (ExceptT.run loading) log).1)
    (StateT.run (ExceptT.run loading) log).2).1 = _
  rw [hfirst]
  cases result with
  | error fault => rfl
  | ok a => exact hnext a rfl _

theorem Gives.bind_ok {a : α} {next : α → Loading β} {after : Except ContractFault β}
    (h : loading.Gives (.ok a)) (hnext : (next a).Gives after) : (loading >>= next).Gives after := by
  have hboth : (loading >>= next).Gives ((.ok a : Except ContractFault α) >>= fun _ => after) := by
    refine h.bind ?_
    rintro _ ⟨⟩
    exact hnext
  exact hboth

theorem Gives.bind_error {fault : ContractFault} (h : loading.Gives (.error fault))
    (next : α → Loading β) : (loading >>= next).Gives (.error fault) := by
  have hboth : (loading >>= next).Gives
      ((.error fault : Except ContractFault α) >>= fun _ => .error fault) := by
    refine h.bind ?_
    rintro _ ⟨⟩
  exact hboth

/-- A step that makes records and cannot fail has the value that it has with any
records. -/
theorem Gives.bind_logged {logged : Logged α} {a : α} {next : α → Loading β}
    {after : Except ContractFault β} (hvalue : ∀ log : Log, (StateT.run logged log).1 = a)
    (h : (next a).Gives after) : ((liftM logged : Loading α) >>= next).Gives after := by
  intro log
  have hrest := h (StateT.run logged log).2
  rw [← hvalue log] at hrest
  exact hrest

/-- A record changes nothing about the result. -/
theorem Gives.record {logged : Logged Unit} {next : Unit → Loading α} (h : (next ()).Gives result) :
    ((liftM logged : Loading Unit) >>= next).Gives result :=
  Gives.bind_logged (fun _ => rfl) h

/-- A loading comes to one result. -/
theorem Gives.iff {other : Except ContractFault α} (h : loading.Gives result) :
    loading.Gives other ↔ result = other := by
  constructor
  · intro h'
    exact (h []).symm.trans (h' [])
  · rintro rfl
    exact h

theorem gives_forM {γ : Type} {as : List γ} {step : γ → Loading Unit}
    (h : ∀ a ∈ as, (step a).Gives (.ok ())) : (as.forM step).Gives (.ok ()) := by
  induction as with
  | nil => exact Gives.pure ()
  | cons a as ih =>
    exact (h a List.mem_cons_self).bind_ok (ih fun b hb => h b (List.mem_cons_of_mem a hb))

/-- A loop comes to the loop of its steps' results. -/
theorem gives_foldlM {γ : Type} {as : List γ} {step : α → γ → Loading α}
    {following : α → γ → Except ContractFault α} (h : ∀ a c, (step a c).Gives (following a c))
    (start : α) : (as.foldlM step start).Gives (as.foldlM following start) := by
  induction as generalizing start with
  | nil => exact Gives.pure start
  | cons c as ih =>
    rw [List.foldlM_cons, List.foldlM_cons]
    exact (h start c).bind fun a _ => ih a

end Loading

namespace Specification

/-! ## What is gone through -/

/-- The items of a section of schemas, which may be missing. -/
def sectionItems (source : String) : Json → List Item
  | .null => []
  | .object members => members.map fun member => .schema member.1 member.2 source
  | _ => [.fault (.malformed source "schema section must be a mapping of name to schema")]

/-- The items of a document whose schemas stand somewhere in it. -/
def documentItems (files : FileTree) (path : String) (schemas : Json → Json) : List Item :=
  match readDocument files path with
  | .ok document => sectionItems path (schemas document)
  | .error fault => [.fault fault]

/-- The schemas in the root of a specification, null if there are none. -/
def inlineSchemas (document : Json) : Json :=
  (document.at? ["components", "schemas"]).getD .null

/-- The directory of the component files of a specification. -/
def componentDirectory (path : String) : String :=
  Files.join (Files.parent path) "components/schemas"

/-- The items of the component files, by the names of the files. -/
def componentItems (files : FileTree) (directory : String) : List Item :=
  match componentFiles files directory with
  | .ok paths => paths.flatMap fun path => documentItems files path id
  | .error fault => [.fault fault]

/-- The items after those of the root.  The directory of component files may be
missing if the root declares schemas. -/
def laterItems (files : FileTree) (path : String) (inline : Bool) : List Item :=
  if files.isDirectory (componentDirectory path) then
    componentItems files (componentDirectory path)
  else if inline then []
  else [.fault (.missingComponents (componentDirectory path))]

/-- Whether the root of a specification declares schemas. -/
def hasInline (files : FileTree) (path : String) : Bool :=
  ((readDocument files path).toOption.bind schemaSection?).isSome

/-- All that is gone through: the root, and then the component files. -/
def items (files : FileTree) (path : String) : List Item :=
  documentItems files path inlineSchemas ++ laterItems files path (hasInline files path)

/-- A section that is null comes to none. -/
theorem inlineSchemas_eq (document : Json) :
    inlineSchemas document = (schemaSection? document).getD .null := by
  rw [inlineSchemas, schemaSection?]
  cases document.at? ["components", "schemas"] with
  | none => rfl
  | some schemas =>
    cases schemas with
    | null => rfl
    | _ => rfl

theorem isNull_of_schemaSection? {document schemas : Json}
    (h : schemaSection? document = some schemas) : schemas.isNull = false := by
  have hkept := Option.filter_eq_some_iff.1 h
  rw [← Bool.not_eq_true']
  exact hkept.2

/-! ## Going through it -/

variable {files : FileTree} {registry : Registry} {path : String}

/-- A section is declared member by member. -/
theorem foldlM_take_members (registry : Registry) (source : String)
    (members : List (String × Json)) :
    (members.map fun member => Item.schema member.1 member.2 source).foldlM Registry.take registry =
      (registry.registerAll source members).2.map fun _ =>
        (registry.registerAll source members).1 := by
  induction members generalizing registry with
  | nil => rfl
  | cons member rest ih =>
    obtain ⟨name, value⟩ := member
    rw [List.map_cons, List.foldlM_cons, Registry.registerAll, Registry.take]
    cases registry.registerValue name value source with
    | ok next => exact ih next
    | error fault => rfl

/-- What is filled, as an outcome of loading. -/
def filled (registry : Registry) (items : List Item) : Except ContractFault Registry :=
  (items.foldlM Registry.take registry).mapError .load

theorem filled_append (registry : Registry) (items later : List Item) :
    filled registry (items ++ later) =
      filled registry items >>= fun next => filled next later := by
  rw [filled, filled, List.foldlM_append]
  cases items.foldlM Registry.take registry with
  | ok next => rfl
  | error fault => rfl

theorem filled_flatMap {α : Type} (registry : Registry) (as : List α) (itemsOf : α → List Item) :
    filled registry (as.flatMap itemsOf) =
      as.foldlM (fun registry a => filled registry (itemsOf a)) registry := by
  induction as generalizing registry with
  | nil => rfl
  | cons a as ih =>
    rw [List.flatMap_cons, filled_append, List.foldlM_cons]
    exact congrArg (filled registry (itemsOf a) >>= ·) (funext ih)

theorem gives_loadDocument (files : FileTree) (path : String) :
    (loadDocument files path).Gives ((readDocument files path).mapError .load) := by
  unfold loadDocument
  cases readDocument files path with
  | ok document => exact Loading.Gives.pure document
  | error fault => exact Loading.Gives.throw _

theorem gives_declare (registry : Registry) {schemas : Json} (hschemas : schemas.isNull = false)
    (source : String) : ∃ count, (declare registry schemas source).Gives
      ((filled registry (sectionItems source schemas)).map fun next => (next, count)) := by
  cases schemas with
  | null => cases hschemas
  | object members =>
    refine ⟨members.length, ?_⟩
    rw [filled, sectionItems, foldlM_take_members]
    unfold declare
    refine Loading.Gives.record ?_
    cases (registry.registerAll source members).2 with
    | ok done => exact Loading.Gives.pure _
    | error fault => exact Loading.Gives.throw _
  | _ => exact ⟨0, Loading.Gives.record (Loading.Gives.throw _)⟩

theorem gives_declareFile (files : FileTree) (registry : Registry) (path : String) :
    (declareFile files registry path).Gives (filled registry (documentItems files path id)) := by
  have hloaded := gives_loadDocument files path
  cases hread : readDocument files path with
  | error fault =>
    rw [hread] at hloaded
    rw [documentItems, hread]
    exact hloaded.bind_error _
  | ok document =>
    rw [hread] at hloaded
    rw [documentItems, hread]
    refine Loading.Gives.bind_ok hloaded ?_
    cases hnull : document.isNull with
    | true =>
      obtain rfl : document = .null := by
        cases document with
        | null => rfl
        | _ => cases hnull
      exact Loading.Gives.record (Loading.Gives.pure registry)
    | false =>
      obtain ⟨count, hdeclared⟩ := gives_declare registry hnull path
      show Loading.Gives _ (filled registry (sectionItems path document))
      cases hfilled : filled registry (sectionItems path document) with
      | error fault =>
        rw [hfilled] at hdeclared
        exact hdeclared.bind_error _
      | ok next =>
        rw [hfilled] at hdeclared
        exact hdeclared.bind_ok (Loading.Gives.record (Loading.Gives.pure next))

theorem gives_declareDirectory (files : FileTree) (registry : Registry) (directory : String) :
    (declareDirectory files registry directory).Gives
      (filled registry (componentItems files directory)) := by
  have hskipped (names : List String) : Loading.Gives
      ((names.filter isIndex).forM fun name =>
        (liftM (Logged.add .debug "skipping index file"
          [("file", Files.join directory name)]) : Loading Unit)) (.ok ()) :=
    Loading.gives_forM fun name _ _ => rfl
  unfold declareDirectory
  cases hnames : fileNames files directory with
  | error fault =>
    have hcomponents : componentFiles files directory = .error fault := by
      rw [componentFiles, hnames]
      rfl
    rw [componentItems, hcomponents]
    exact Loading.Gives.throw _
  | ok names =>
    refine Loading.Gives.bind_ok (hskipped names) ?_
    rw [componentItems]
    cases componentFiles files directory with
    | error fault => exact Loading.Gives.throw _
    | ok paths =>
      show Loading.Gives _ (filled registry (paths.flatMap _))
      rw [filled_flatMap]
      exact Loading.gives_foldlM (gives_declareFile files) registry

theorem gives_compile (registry : Registry) (engine : Engine) :
    (compile registry engine).Gives ((registry.compile engine).mapError .resolution) := by
  unfold compile
  cases registry.compile engine with
  | ok contract => exact Loading.Gives.record (Loading.Gives.pure contract)
  | error fault => exact Loading.Gives.record (Loading.Gives.throw _)

/-- The step from the root to what follows the component files. -/
theorem gives_later {α : Type} {next : Registry → Loading α}
    {following : Registry → Except ContractFault α}
    (h : ∀ registry, (next registry).Gives (following registry)) (files : FileTree)
    (registry : Registry) (path : String) (inline : Option Json) : Loading.Gives
      (if files.isDirectory (componentDirectory path) = true then do
        let registry ← declareDirectory files registry (componentDirectory path)
        next registry
      else if inline.isNone = true then do
        let registry ← throw (.load (.missingComponents (componentDirectory path)))
        next registry
      else do
        let registry ← pure registry
        next registry)
      (filled registry (laterItems files path inline.isSome) >>= following) := by
  unfold laterItems
  split
  · exact (gives_declareDirectory files registry _).bind fun next _ => h next
  · cases inline with
    | none => exact (Loading.Gives.throw _).bind_error _
    | some schemas => exact (Loading.Gives.pure registry).bind_ok (h registry)

/-- The specification of what some items declare. -/
def specificationOf (files : FileTree) (path : String) (engine : Engine) (items : List Item) :
    Except ContractFault Specification := do
  let registry ← filled (.empty .rest) items
  let contract ← (registry.compile engine).mapError .resolution
  let document ← (readDocument files path).mapError .load
  return ⟨.openapi, path, .ofDocument document .openapi, [], [], contract⟩

theorem gives_loadRest (files : FileTree) (path : String) (engine : Engine) :
    (loadRest files path engine).Gives
      (specificationOf files path engine (items files path)) := by
  unfold specificationOf
  have hloaded := gives_loadDocument files path
  cases hread : readDocument files path with
  | error fault =>
    rw [hread] at hloaded
    rw [items, filled_append, documentItems, hread]
    exact hloaded.bind_error _
  | ok document =>
    rw [hread] at hloaded
    refine Loading.Gives.bind_ok hloaded ?_
    have hcompiled (registry : Registry) : Loading.Gives
        (do
          let contract ← compile registry engine
          Logged.add .info "loaded OpenAPI contract"
            [("spec", path), ("schema_count", toString contract.size)]
          return ⟨.openapi, path, .ofDocument document .openapi, [], [], contract⟩)
        (do
          let contract ← (registry.compile engine).mapError ContractFault.resolution
          return (⟨.openapi, path, .ofDocument document .openapi, [], [], contract⟩ : Specification)) :=
      (gives_compile registry engine).bind fun contract _ => Loading.Gives.record (Loading.Gives.pure _)
    have hlater := gives_later hcompiled files
    have hinline : hasInline files path = (schemaSection? document).isSome := by
      rw [hasInline, hread]
      rfl
    rw [items, documentItems, hread, filled_append, hinline]
    show Loading.Gives _ (filled (.empty .rest) (sectionItems path (inlineSchemas document)) >>= _ >>= _)
    rw [inlineSchemas_eq]
    cases hschemas : schemaSection? document with
    | none => exact (Loading.Gives.pure _).bind_ok (hlater (.empty .rest) path none)
    | some schemas =>
      obtain ⟨count, hdeclared⟩ :=
        gives_declare (.empty .rest) (isNull_of_schemaSection? hschemas) path
      show Loading.Gives _ (filled (.empty .rest) (sectionItems path schemas) >>= _ >>= _)
      cases hfilled : filled (.empty .rest) (sectionItems path schemas) with
      | error fault =>
        rw [hfilled] at hdeclared
        exact hdeclared.bind_error _
      | ok next =>
        rw [hfilled] at hdeclared
        exact hdeclared.bind_ok
          (Loading.Gives.record ((Loading.Gives.pure next).bind_ok (hlater next path (some schemas))))

end Specification

end ApiContract
