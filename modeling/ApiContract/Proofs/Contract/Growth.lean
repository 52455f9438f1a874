import ApiContract.Proofs.Contract.Closure
import ApiContract.Proofs.Contract.Runs
import ApiContract.Proofs.JsonSchema.Retrieval
import ApiContract.Proofs.Schema.Names
/-!
# Registries that grow

A resource is found by the last segment of its address and by nothing else
(`retrieve_eq`), so a new name gets in the way of none of the addresses that were
answered before (`extends_run`).  An engine that compiled a schema compiles it to the
same validator when there are more declarations (`compileOne_run`).
-/

namespace ApiContract

open Entries

namespace Registry

/-- What is found at an address depends on its last segment alone. -/
theorem retrieve_eq (registry : Registry) (address : String) :
    registry.retrieve address =
      (SchemaName.ofText (SchemaName.lastSegment address)).toOption.bind fun name =>
        (registry.get? name).map (·.schema) := by
  rw [retrieve]
  dsimp only
  rw [Namespace.nameOf?_root_append]
  cases hname : registry.ns.nameOf? address with
  | none => rfl
  | some name =>
    rw [Namespace.resourceId_of_nameOf? hname, Namespace.lastSegment_resourceId,
      SchemaName.ofText_text]
    cases h : registry.get? name <;> simp [Except.toOption, h]

/-! ## More declarations -/

variable {registry : Registry}

theorem extends_of_get? {larger : Registry}
    (hkept : ∀ name declaration, registry.get? name = some declaration →
      larger.get? name = some declaration) :
    JsonSchema.Extends registry.retrieve larger.retrieve := by
  intro address contents h
  rw [retrieve_eq] at h ⊢
  obtain ⟨name, hname, h⟩ := Option.bind_eq_some_iff.1 h
  obtain ⟨declaration, hdeclaration, hcontents⟩ := Option.map_eq_some_iff.1 h
  rw [hname, Option.bind_some, hkept name declaration hdeclaration, Option.map_some, hcontents]

theorem extends_run (registry : Registry) (calls : List DeclarationCall) :
    JsonSchema.Extends registry.retrieve (registry.run calls).retrieve :=
  extends_of_get? fun _ _ hdeclared => get?_run_of_get? hdeclared calls

theorem compileOne_eq_ok {engine : Engine} {declaration : Declaration} {compiled : CompiledSchema} :
    registry.compileOne engine declaration = .ok compiled ↔
      compiled.declaration = declaration ∧
        JsonSchema.Validator.ofSchema registry.retrieve engine.formats
          (engine.schedule declaration.name.text) declaration.schema =
          .ok compiled.validator := by
  unfold compileOne
  split
  · next validator hvalidator =>
    obtain ⟨declaration', validator'⟩ := compiled
    simp only [hvalidator, Except.ok.injEq, CompiledSchema.mk.injEq]
    exact and_congr_left' eq_comm
  · next fault hfault => simp [hfault]

theorem compileOne_run {engine : Engine} {declaration : Declaration} {compiled : CompiledSchema}
    (h : registry.compileOne engine declaration = .ok compiled) (calls : List DeclarationCall) :
    (registry.run calls).compileOne engine declaration = .ok compiled := by
  rw [compileOne_eq_ok] at h ⊢
  exact ⟨h.1, JsonSchema.Validator.ofSchema_of_extends (extends_run registry calls) h.2⟩

/-- The compiled schema of a name is made from the declaration of the name. -/
theorem get?_compileAll {engine : Engine} {declarations : Entries Declaration}
    {schemas : Entries CompiledSchema} (h : registry.compileAll engine declarations = .ok schemas)
    {key : String} {declaration : Declaration} (hget : declarations.get? key = some declaration) :
    ∃ compiled, registry.compileOne engine declaration = .ok compiled ∧
      schemas.get? key = some compiled := by
  induction declarations generalizing schemas with
  | nil => simp at hget
  | cons entry rest ih =>
    obtain ⟨name, first⟩ := entry
    obtain ⟨compiled, hcompiled, h⟩ := bind_eq_ok.1 h
    obtain ⟨others, hothers, h⟩ := bind_eq_ok.1 h
    rw [← pure_eq_ok.1 h]
    rw [get?_cons] at hget ⊢
    split at hget
    · next heq =>
      cases hget
      exact ⟨compiled, hcompiled, if_pos heq⟩
    · next hne =>
      obtain ⟨found, hfound, hget⟩ := ih hothers hget
      exact ⟨found, hfound, (if_neg hne).trans hget⟩

theorem get?_contract {engine : Engine} {contract : Contract}
    (h : registry.compile engine = .ok contract) {name : String} {declaration : Declaration}
    (hget : registry.declarations.get? name = some declaration) :
    ∃ compiled, registry.compileOne engine declaration = .ok compiled ∧
      contract.get? name = some compiled := by
  unfold compile at h
  split at h
  · cases h
  · obtain ⟨schemas, hschemas, h⟩ := bind_eq_ok.1 h
    rw [← pure_eq_ok.1 h]
    exact get?_compileAll hschemas hget

end Registry

end ApiContract
