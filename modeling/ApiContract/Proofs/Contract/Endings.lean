import ApiContract.Proofs.Contract.Growth
import ApiContract.Proofs.JsonSchema.Bounds
/-!
# Evaluations without an end

A schema may lead back to itself without going on to a part of the value.
`compile` accepts such schemas, and judging a value then has no end, however
deep one goes (`endless_circle`).  Nothing else keeps an evaluation from its
end: without such a circle it goes only as deep as the nesting of the value and
the number of nodes take it (`validateValue_ends`).
-/

namespace ApiContract

namespace Contract

/-- Judging a value against the schema of a name has no end. -/
def Endless (contract : Contract) (name : String) (value : Json) : Prop :=
  contract.validateValue name value = none

instance (contract : Contract) (name : String) (value : Json) :
    Decidable (contract.Endless name value) :=
  decidable_of_iff ((contract.validateValue name value).isNone = true)
    Option.isNone_iff_eq_none

/-- There is no end exactly if the compiled schema has no answer at any
depth. -/
theorem endless_iff {contract : Contract} {name : String} {value : Json} :
    contract.Endless name value ↔
      ∃ compiled, contract.get? name = some compiled ∧
        ∀ depth, compiled.validator.root.violations compiled.validator.shared depth [] [] value =
          none := by
  unfold Endless validateValue
  cases contract.get? name with
  | none => simp
  | some compiled =>
    simp only [judge, Option.map_eq_none_iff, Option.some.injEq, exists_eq_left',
      JsonSchema.Validator.violations_eq_none_iff]

end Contract

namespace Registry

variable {registry : Registry} {engine : Engine} {contract : Contract}

/-- The validators of a contract come from schemas. -/
theorem ofSchema_of_compile (h : registry.compile engine = .ok contract) {name : String}
    {compiled : CompiledSchema} (hget : contract.get? name = some compiled) :
    JsonSchema.Validator.ofSchema registry.retrieve engine.formats
      (engine.schedule compiled.declaration.name.text) compiled.declaration.schema =
      .ok compiled.validator := by
  have hdeclared := get?_of_compile h name
  rw [hget, Option.map_some] at hdeclared
  obtain ⟨compiled', hcompiled, hget'⟩ := get?_contract h hdeclared.symm
  obtain rfl : compiled = compiled' := Option.some.inj (hget.symm.trans hget')
  exact (compileOne_eq_ok.1 hcompiled).2

/-- A contract judges every value by a schema whose nodes have no circle, and goes no
deeper than once through all of its nodes for the value and for each level of its
nesting.  It judges no value by a schema that cannot but enter a circle. -/
theorem validateValue_ends (h : registry.compile engine = .ok contract) {name : String}
    {compiled : CompiledSchema} (hget : contract.get? name = some compiled) (value : Json) :
    (compiled.validator.Acyclic →
      (∃ found, compiled.validator.root.violations compiled.validator.shared
        (compiled.validator.size * (value.nesting + 1)) [] [] value = some found) ∧
      (contract.validateValue name value = some (.ok ()) ∨ ∃ first others,
        contract.validateValue name value =
          some (.error (.violated compiled.declaration.name first others)))) ∧
    ∀ node, Relation.ReflTransGen (JsonSchema.Node.Insists compiled.validator.shared)
        compiled.validator.root node →
      Relation.TransGen (JsonSchema.Node.Insists compiled.validator.shared) node node →
      contract.Endless name value := by
  constructor
  · intro hacyclic
    obtain ⟨found, hfound, hviolations⟩ := JsonSchema.Validator.violations_of_acyclic
      (JsonSchema.Validator.linked_of_ofSchema (ofSchema_of_compile h hget)) hacyclic value
    refine ⟨⟨found, hfound⟩, ?_⟩
    rw [Contract.validateValue, hget]
    dsimp only [Contract.judge]
    rw [hviolations]
    cases found with
    | nil => exact .inl rfl
    | cons first others => exact .inr ⟨first, others, rfl⟩
  · intro node hroot hcircle
    exact Contract.endless_iff.2 ⟨compiled, hget,
      JsonSchema.Validator.violations_of_circle hroot hcircle value⟩

/-- A schema with a member that is as another one says. -/
def havingA (member reference : String) : Json :=
  .object [("properties", .object [(member, .object [("$ref", .string reference)])])]

/-- The declaration of two schemas that lead to each other, each by way of a member. -/
def owners : List DeclarationCall :=
  [.value "Owner" (havingA "pet" "#/components/schemas/Pet") "inline.yaml",
    .value "Pet" (havingA "owner" "#/components/schemas/Owner") "inline.yaml"]

/-- The owner of a pet whose owner has no pet. -/
def petOwner : Json := .object [("pet", .object [("owner", .object [("pet", .null)])])]

theorem validateValue_ends_of_owners : ∃ (contract : Contract) (compiled : CompiledSchema),
    ((empty .rest).run owners).compile (.asNoted false) = .ok contract ∧
      contract.get? "Owner" = some compiled ∧ compiled.validator.Acyclic ∧
      (∃ found, compiled.validator.root.violations compiled.validator.shared
        (compiled.validator.size * (petOwner.nesting + 1)) [] [] petOwner = some found) ∧
      (contract.validateValue "Owner" petOwner = some (.ok ()) ∨ ∃ first others,
        contract.validateValue "Owner" petOwner =
          some (.error (.violated compiled.declaration.name first others))) := by
  have hacyclic : (((empty .rest).run owners).compile (.asNoted false)).toOption.any (fun contract =>
      (contract.get? "Owner").any (·.validator.isAcyclic)) = true := by
    decide +kernel
  obtain ⟨contract, hcontract, hacyclic⟩ := exists_of_any hacyclic
  obtain ⟨compiled, hget, hacyclic⟩ := (Option.any_eq_true _ _).1 hacyclic
  have hacyclic := JsonSchema.Validator.acyclic_of_isAcyclic hacyclic
  exact ⟨contract, compiled, hcontract, hget, hacyclic,
    (validateValue_ends hcontract hget petOwner).1 hacyclic⟩

/-- A schema that only asks for another one. -/
def onlyAsks (reference : String) : Json :=
  .object [("allOf", .array [.object [("$ref", .string reference)]])]

/-- The declaration of two schemas that ask for each other. -/
def circle : List DeclarationCall :=
  [.value "A" (onlyAsks "B") "inline.yaml", .value "B" (onlyAsks "A") "inline.yaml"]

theorem any_endless_circle : (((empty .rest).run circle).compile (.asNoted false)).toOption.any
    (fun contract => contract.Endless "A" .null) = true := by
  decide +kernel

theorem endless_circle : ∃ contract : Contract,
    ((empty .rest).run circle).compile (.asNoted false) = .ok contract ∧ contract.Endless "A" .null := by
  obtain ⟨contract, hcontract, hendless⟩ := exists_of_any any_endless_circle
  exact ⟨contract, hcontract, of_decide_eq_true hendless⟩

end Registry

end ApiContract
