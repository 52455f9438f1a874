import ApiContract.Proofs.Contract.Arrangement
import ApiContract.Proofs.Contract.Sources
/-!
# Contracts by any engine

An engine has an order of its own in which it asks for schemas, and no two engines need
to have the same one.  If schemas are orderly, then all engines compile them to the same
contract, or fail for the same schema (`compile_of_engines`).  So the contract of orderly
schemas depends neither on the engine nor on how the schemas were declared
(`run_of_arrangement`), nor on what is declared in addition (`validateValue_of_later_calls`).

Other schemas may be judged by one engine in one way and by another engine in another
way (`validateValue_of_strays`, `run_of_strays`).  By the same engine they are judged in
the same way, too.
-/

namespace ApiContract

open Entries JsonSchema

/-- The schedule by which addresses are taken up against the order in which they were noted. -/
def backwards : Schedule := ⟨fun _ count => (List.range count).reverse, fun _ _ => List.reverse_perm _⟩

/-- The engine by which addresses are taken up against the order in which they were noted. -/
def Engine.backwards (formats : Bool) : Engine := ⟨formats, fun _ => ApiContract.backwards⟩

namespace Registry

/-! ## The same outcomes -/

/-- Two outcomes are the same, but for why a schema cannot be compiled. -/
inductive SameOutcome {α : Type} : Except ResolutionFault α → Except ResolutionFault α → Prop
  | refl (outcome : Except ResolutionFault α) : SameOutcome outcome outcome
  | compile (schema : SchemaName) (fault fault' : SchemaFault) :
    SameOutcome (.error (.compile schema fault)) (.error (.compile schema fault'))

namespace SameOutcome

variable {α β : Type} {x y : Except ResolutionFault α}

theorem bind (h : SameOutcome x y) {f g : α → Except ResolutionFault β}
    (hnext : ∀ a, SameOutcome (f a) (g a)) : SameOutcome (x >>= f) (y >>= g) := by
  cases h with
  | refl =>
    cases x with
    | error fault => exact .refl _
    | ok a => exact hnext a
  | compile schema fault fault' => exact .compile schema fault fault'

theorem eq_ok (h : SameOutcome x y) {a : α} (ha : x = .ok a) : y = .ok a := by
  cases h with
  | refl => exact ha
  | compile => cases ha

end SameOutcome

variable {registry : Registry} {engine engine' : Engine}

theorem compileOne_of_engines (hfiled : registry.Filed) (horderly : registry.Orderly)
    (hformats : engine'.formats = engine.formats) {declaration : Declaration}
    (hget : registry.get? declaration.name = some declaration) :
    SameOutcome (registry.compileOne engine declaration) (registry.compileOne engine' declaration) := by
  obtain ⟨own, howns⟩ := hfiled.owns_of_normal hget (horderly.normal declaration hget)
  have hagree := Validator.ofSchema_of_schedules (orderly_retrieve hfiled horderly) engine.formats
    (engine.schedule declaration.name.text) (engine'.schedule declaration.name.text) howns.retrieve
  rw [compileOne, compileOne, hformats]
  generalize Validator.ofSchema registry.retrieve engine.formats
    (engine.schedule declaration.name.text) declaration.schema = validator at hagree ⊢
  generalize Validator.ofSchema registry.retrieve engine.formats
    (engine'.schedule declaration.name.text) declaration.schema = validator' at hagree ⊢
  cases hagree with
  | ok h => exact h ▸ .refl _
  | error fault fault' => exact .compile declaration.name fault fault'

theorem compileAll_of_engines (hfiled : registry.Filed) (horderly : registry.Orderly)
    (hformats : engine'.formats = engine.formats) {declarations : List (String × Declaration)}
    (hget : ∀ entry ∈ declarations, registry.get? entry.2.name = some entry.2) :
    SameOutcome (registry.compileAll engine declarations)
      (registry.compileAll engine' declarations) := by
  induction declarations with
  | nil => exact .refl _
  | cons entry rest ih =>
    obtain ⟨hfirst, hrest⟩ := List.forall_mem_cons.1 hget
    refine (compileOne_of_engines hfiled horderly hformats hfirst).bind fun compiled => ?_
    exact (ih hrest).bind fun _ => .refl _

/-- Orderly schemas are compiled to the same contract by all engines, or all engines fail for
the same schema. -/
theorem compile_of_engines (hfiled : registry.Filed) (horderly : registry.Orderly)
    (hformats : engine'.formats = engine.formats) :
    SameOutcome (registry.compile engine) (registry.compile engine') := by
  rw [compile, compile]
  cases registry.firstReferenceFault? with
  | some fault => exact .refl _
  | none =>
    refine (compileAll_of_engines hfiled horderly hformats ?_).bind fun _ => .refl _
    intro entry hentry
    have hname := SchemaName.text_of_ofText (hfiled.stored _ _ hentry).name
    rw [get?, hname]
    exact (get?_eq_some_iff hfiled.ordered).2 hentry

/-! ## Declarations in any order -/

/-- A schema that refers to another one. -/
def forward : Json := .object [("$ref", .string "#/components/schemas/B")]

/-- The schema of a name is one of some schemas that are orderly and compile by themselves. -/
def IsSettled (registry : Registry) (formats : Bool) (name : String) : Prop :=
  ∃ names : List String, name ∈ names ∧ (registry.only names).Orderly ∧
    ∃ engine contract, engine.formats = formats ∧ (registry.only names).compile engine = .ok contract

/-- All engines compile a settled schema to the same validator, whatever is declared besides. -/
theorem exists_compileOne_of_isSettled (hfiled : registry.Filed) {declaration : Declaration}
    (hget : registry.get? declaration.name = some declaration) {formats : Bool}
    (h : registry.IsSettled formats declaration.name.text) :
    ∃ compiled, ∀ (larger : Registry) (engine : Engine),
      (∀ name other, registry.get? name = some other → larger.get? name = some other) →
        engine.formats = formats → larger.compileOne engine declaration = .ok compiled := by
  obtain ⟨names, hmem, horderly, alone, contract, rfl, hcompiles⟩ := h
  have hget' : (registry.only names).get? declaration.name = some declaration := by
    rw [get?_only hfiled, hget]
    simp [hmem]
  obtain ⟨compiled, hcompiled, -⟩ := get?_contract hcompiles hget'
  refine ⟨compiled, fun larger engine hkept hformats => ?_⟩
  have hsame := compileOne_of_engines (hfiled.only names) horderly hformats hget'
  have hextends : Extends (registry.only names).retrieve larger.retrieve := fun address contents h =>
    extends_of_get? hkept address contents (extends_only hfiled names address contents h)
  have hvalidator := compileOne_eq_ok.1 (hsame.eq_ok hcompiled)
  exact compileOne_eq_ok.2 ⟨hvalidator.1, Validator.ofSchema_of_extends hextends hvalidator.2⟩

/-- The declaration of texts under the name `A`. -/
def texts : List DeclarationCall :=
  [.value "A" (.object [("type", .string "string")]) "inline.yaml"]

/-- The declaration of lists of what goes by the name `A`. -/
def textLists : List DeclarationCall :=
  [.value "B" (.object [("items", .object [("$ref", .string "A")])]) "inline.yaml"]

/-- Schemas at places where none is looked for.  One of them goes by an address of its own. -/
def strayTexts : Json :=
  .object [("foo", .object [("any", .object []),
    ("texts", .object [("$id", .string "http://x/Q"), ("type", .string "string")])])]

/-- A schema at such a place that refers to the address. -/
def strayReference : Json :=
  .object [("foo", .object [("q", .object [("$ref", .string "http://x/Q")])])]

/-- A schema that refers to all of them, and imposes the last one. -/
def allStrays : Json :=
  .object [("$defs", .object [("a", .object [("$ref", .string "synapse://schemas/N#/foo/any")]),
      ("b", .object [("$ref", .string "synapse://schemas/N#/foo/texts")])]),
    ("if", .bool true), ("then", .object [("$ref", .string "synapse://schemas/P#/foo/q")])]

/-- What goes by the address if the schema there was not found before. -/
def numbersQ : Json := .object [("type", .string "integer")]

/-- The declaration of the schemas. -/
def strays : List DeclarationCall :=
  [.value "N" strayTexts "inline.yaml", .value "P" strayReference "inline.yaml",
    .value "S" allStrays "inline.yaml"]

/-- The declaration of all of them and of numbers, one by one. -/
def straysAndNumbers : List DeclarationCall := strays ++ [.value "Q" numbersQ "inline.yaml"]

/-- The same declarations in a section, the other way round. -/
def numbersAndStrays : List DeclarationCall :=
  [.schemas (.object [("Q", numbersQ), ("S", allStrays), ("P", strayReference), ("N", strayTexts)])
    "inline.yaml"]

/-- Whether a text passes by what is declared under the name `S`. -/
def passes (contract : Contract) : Bool :=
  (contract.validateValue "S" (.string "t")).any (·.isOk)

theorem validateValue_ne_of_passes {contract contract' : Contract} (h : passes contract = true)
    (h' : (!passes contract') = true) :
    contract'.validateValue "S" (.string "t") ≠ contract.validateValue "S" (.string "t") := by
  intro hsame
  rw [passes, hsame, ← passes, h] at h'
  cases h'

theorem arranges_straysAndNumbers : ∃ declarations,
    DeclarationCall.Arranges straysAndNumbers declarations ∧
      DeclarationCall.Arranges numbersAndStrays declarations := by
  refine ⟨straysAndNumbers.flatMap DeclarationCall.declared, ⟨?_, .refl _⟩, ⟨?_, ?_⟩⟩
  · intro call hcall
    simp only [straysAndNumbers, strays, List.cons_append, List.nil_append, List.mem_cons,
      List.not_mem_nil, or_false] at hcall
    rcases hcall with rfl | rfl | rfl | rfl <;> exact .value _ _ _
  · intro call hcall
    obtain rfl := List.mem_singleton.1 hcall
    exact .schemas _ _
  · show (straysAndNumbers.flatMap DeclarationCall.declared).reverse.Perm _
    exact List.reverse_perm _

theorem exists_compile_straysAndNumbers : ∃ contract : Contract,
    ((empty .rest).run straysAndNumbers).compile (.asNoted true) = .ok contract ∧
      (!passes contract) = true :=
  exists_of_any (by decide +kernel)

end Registry

end ApiContract
