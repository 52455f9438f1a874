import ApiContract.Proofs.Conformance.Payloads
import ApiContract.Proofs.Contract.Endings
/-!
# What is looked at first

A contract looks first whether the schema is declared, then whether the payload is
JSON, and then at all that is wrong with the value.  Each outcome says which of these
it was, and nothing that comes later is looked at (`validate_precedence`).  The
reports tell the outcome as it is.

An evaluation that has no end has none of these outcomes (`validate_circle`).
-/

namespace ApiContract

namespace Contract

/-- All that the validator of a schema finds wrong with a value, in its order. -/
def Finds (contract : Contract) (schema : String) (value : Json)
    (violations : List JsonSchema.Violation) : Prop :=
  ∃ compiled, contract.get? schema = some compiled ∧
    compiled.validator.violations value = some violations

/-- Every schema stands under its own name. -/
def IsNamed (contract : Contract) : Prop :=
  ∀ schema compiled, contract.get? schema = some compiled → compiled.declaration.name.text = schema

variable {contract : Contract} {schema : String} {payload : List UInt8} {value : Json}

theorem not_mem_names_iff : schema ∉ contract.names ↔ contract.get? schema = none := by
  rw [names, Entries.mem_keys_iff, ← Option.isSome_iff_exists, Option.not_isSome_iff_eq_none, get?]

/-- The one name of a schema. -/
theorem IsNamed.name_eq (hnamed : contract.IsNamed) {compiled : CompiledSchema}
    (hget : contract.get? schema = some compiled) {name : SchemaName} :
    compiled.declaration.name = name ↔ name.text = schema := by
  rw [SchemaName.mk.injEq, hnamed schema compiled hget, eq_comm]

/-! ## The outcomes -/

theorem judge_eq_ok_iff {compiled : CompiledSchema} :
    judge compiled value = some (.ok ()) ↔ compiled.validator.violations value = some [] := by
  rw [judge, Option.map_eq_some_iff]
  constructor
  · rintro ⟨found, hfound, hok⟩
    cases found with
    | nil => exact hfound
    | cons first others => cases hok
  · intro hfound
    exact ⟨[], hfound, rfl⟩

theorem judge_eq_violated_iff {compiled : CompiledSchema} {name : SchemaName}
    {first : JsonSchema.Violation} {others : List JsonSchema.Violation} :
    judge compiled value = some (.error (.violated name first others)) ↔
      compiled.declaration.name = name ∧
        compiled.validator.violations value = some (first :: others) := by
  rw [judge, Option.map_eq_some_iff]
  constructor
  · rintro ⟨found, hfound, hviolated⟩
    cases found with
    | nil => cases hviolated
    | cons other more =>
      cases hviolated
      exact ⟨rfl, hfound⟩
  · rintro ⟨rfl, hfound⟩
    exact ⟨first :: others, hfound, rfl⟩

theorem judge_ne_unknown (compiled : CompiledSchema) (value : Json) (name : String) :
    judge compiled value ≠ some (.error (.unknownSchema name)) := by
  intro h
  obtain ⟨found, -, hfound⟩ := Option.map_eq_some_iff.1 h
  cases found with
  | nil => cases hfound
  | cons first others => cases hfound

/-- What a contract says of a payload, in the order in which it looks. -/
theorem validate_cases (contract : Contract) (schema : String) (payload : List UInt8) :
    (contract.get? schema = none ∧
        contract.validate schema payload = some (.error (.unknownSchema schema))) ∨
      ∃ compiled, contract.get? schema = some compiled ∧
        ((∃ error, Json.read payload = .error error ∧
            contract.validate schema payload =
              some (.error (.notJson compiled.declaration.name error))) ∨
          ∃ value, Json.read payload = .ok value ∧
            contract.validate schema payload = judge compiled value) := by
  unfold validate
  cases hget : contract.get? schema with
  | none => exact .inl ⟨rfl, rfl⟩
  | some compiled =>
    refine .inr ⟨compiled, rfl, ?_⟩
    cases hread : Json.read payload with
    | error error => exact .inl ⟨error, rfl, rfl⟩
    | ok value => exact .inr ⟨value, rfl, by simp only [validateValue, hget]⟩

/-- A name that is not declared is what a payload is refused for first. -/
theorem validate_eq_unknown_iff {name : String} :
    contract.validate schema payload = some (.error (.unknownSchema name)) ↔
      name = schema ∧ schema ∉ contract.names := by
  rw [not_mem_names_iff]
  rcases contract.validate_cases schema payload with
    ⟨hget, h⟩ | ⟨compiled, hget, ⟨error, -, h⟩ | ⟨value, -, h⟩⟩
  · rw [h]
    simp [hget, eq_comm]
  · rw [h, hget]
    exact ⟨nofun, nofun⟩
  · rw [h, hget]
    exact ⟨fun hunknown => absurd hunknown (judge_ne_unknown _ _ _), nofun⟩

/-- A payload that is no JSON is refused for that next. -/
theorem validate_eq_notJson_iff (hnamed : contract.IsNamed) {name : SchemaName}
    {error : Json.ReadError} :
    contract.validate schema payload = some (.error (.notJson name error)) ↔
      schema ∈ contract.names ∧ name.text = schema ∧ Json.read payload = .error error := by
  rcases contract.validate_cases schema payload with
    ⟨hget, h⟩ | ⟨compiled, hget, ⟨error', hread, h⟩ | ⟨value, hread, h⟩⟩
  · rw [h]
    exact ⟨nofun, fun hother => absurd hother.1 (not_mem_names_iff.2 hget)⟩
  · have hmem : schema ∈ contract.names := Entries.mem_keys_iff.2 ⟨compiled, hget⟩
    rw [h, hread, ← hnamed.name_eq hget]
    simp [hmem]
  · rw [h, hread]
    exact ⟨fun hother => absurd hother (judge_ne_notJson _ _), nofun⟩

/-- A value is refused for all that is found wrong with it. -/
theorem validate_eq_violated_iff (hnamed : contract.IsNamed) {name : SchemaName}
    {first : JsonSchema.Violation} {others : List JsonSchema.Violation} :
    contract.validate schema payload = some (.error (.violated name first others)) ↔
      name.text = schema ∧
        ∃ value, Json.read payload = .ok value ∧ contract.Finds schema value (first :: others) := by
  rcases contract.validate_cases schema payload with
    ⟨hget, h⟩ | ⟨compiled, hget, ⟨error, hread, h⟩ | ⟨value, hread, h⟩⟩
  · rw [h]
    simp [Finds, hget]
  · rw [h, hread]
    exact ⟨nofun, nofun⟩
  · rw [h, hread, judge_eq_violated_iff, hnamed.name_eq hget]
    simp [Finds, hget]

/-- A payload passes if nothing is found wrong with its value. -/
theorem validate_eq_ok_iff :
    contract.validate schema payload = some (.ok ()) ↔
      ∃ value, Json.read payload = .ok value ∧ contract.Finds schema value [] := by
  rcases contract.validate_cases schema payload with
    ⟨hget, h⟩ | ⟨compiled, hget, ⟨error, hread, h⟩ | ⟨value, hread, h⟩⟩
  · rw [h]
    simp [Finds, hget]
  · rw [h, hread]
    exact ⟨nofun, nofun⟩
  · rw [h, hread, judge_eq_ok_iff]
    simp [Finds, hget]

/-- There is no outcome exactly if the payload is JSON whose evaluation has no end. -/
theorem validate_eq_none_iff : contract.validate schema payload = none ↔
    ∃ value, Json.read payload = .ok value ∧ contract.Endless schema value := by
  constructor
  · intro h
    rcases contract.validate_cases schema payload with
      ⟨-, hunknown⟩ | ⟨compiled, -, ⟨error, -, hunread⟩ | ⟨value, hread, -⟩⟩
    · rw [hunknown] at h
      cases h
    · rw [hunread] at h
      cases h
    · exact ⟨value, hread, (contract.validate_of_read schema hread).symm.trans h⟩
  · rintro ⟨value, hread, hendless⟩
    exact (contract.validate_of_read schema hread).trans hendless

end Contract

/-! ## The reports -/

namespace ValidationReport

/-- A report tells a judgement: it has no failure and no diagnostic if the payload
passes, and otherwise the kind and the wording of what is wrong. -/
structure Tells (report : ValidationReport) (judgement : Except Rejection Unit) : Prop where
  passed_iff : report.passed = true ↔ judgement = .ok ()
  of_ok : judgement = .ok () → report.failure = none ∧ report.diagnostic = none
  of_error : ∀ rejection, judgement = .error rejection →
    report.failure = some rejection.kind ∧ report.diagnostic = some rejection.message

theorem tells_of (schema : String) (channel : Option String) (judgement : Except Rejection Unit) :
    (of schema channel judgement).Tells judgement := by
  refine ⟨passed_of_iff schema channel judgement, ?_, ?_⟩
  · rintro rfl
    exact ⟨rfl, rfl⟩
  · rintro rejection rfl
    exact ⟨rfl, rfl⟩

theorem tells_map_of (schema : String) (channel : Option String)
    (outcome : Option (Except Rejection Unit)) :
    Option.Rel Tells (outcome.map (of schema channel)) outcome := by
  cases outcome with
  | none => exact .none
  | some judgement => exact .some (tells_of schema channel judgement)

end ValidationReport

/-- The outcome of an event repeats the report on its payload. -/
structure EventResult.Repeats (result : EventResult) (report : ValidationReport) : Prop where
  passed : result.passed = report.passed
  failure : result.failure = report.failure
  error : result.error = report.diagnostic

namespace Rejection

/-- All violations stand after the name of the schema. -/
theorem message_eq (name : SchemaName) (first : JsonSchema.Violation)
    (others : List JsonSchema.Violation) :
    (violated name first others).message =
      "schema validation failed for '" ++ name.text ++ "': " ++
        "; ".intercalate (located first :: others.map located) := rfl

/-- The first violation stands right after the name of the schema. -/
theorem message_violated (name : SchemaName) (first : JsonSchema.Violation)
    (others : List JsonSchema.Violation) :
    ∃ more, (violated name first others).message =
      "schema validation failed for '" ++ name.text ++ "': " ++ located first ++ more := by
  cases others with
  | nil =>
    refine ⟨"", ?_⟩
    rw [message_eq, List.map_nil, String.intercalate_singleton, String.append_empty]
  | cons second rest =>
    refine ⟨"; " ++ "; ".intercalate ((second :: rest).map located), ?_⟩
    rw [message_eq, List.map_cons, String.intercalate_cons_cons, ← List.map_cons, String.append_assoc,
      String.append_assoc, String.append_assoc, String.append_assoc, String.append_assoc,
      String.append_assoc]

end Rejection

namespace Registry

variable {registry : Registry} {engine : Engine} {contract : Contract}

theorem isNamed_of_compile (hreachable : registry.Reachable)
    (h : registry.compile engine = .ok contract) : contract.IsNamed := by
  intro schema compiled hget
  have hdeclared := get?_of_compile h schema
  rw [hget, Option.map_some] at hdeclared
  have hmem := Entries.mem_of_get?_eq_some hdeclared.symm
  exact ((sound_of_reachable hreachable).declares schema compiled.declaration hmem).key_eq

/-- A payload is refused because its schema is not declared exactly if it is not,
whatever the payload; otherwise because it is no JSON exactly if it is none; otherwise
for all that is found wrong with its value exactly if something is; and otherwise it
passes.  One of these it is, unless the evaluation has no end.  The reports tell the
outcome, and a message goes on with the first violation right after the name. -/
theorem validate_precedence (hreachable : registry.Reachable)
    (h : registry.compile engine = .ok contract) (channel schema : String)
    (payload : List UInt8) (results : List EventResult) :
    let outcome := contract.validate schema payload
    (∀ name, outcome = some (.error (.unknownSchema name)) ↔
      name = schema ∧ schema ∉ contract.names) ∧
    (∀ name error, outcome = some (.error (.notJson name error)) ↔
      schema ∈ contract.names ∧ name.text = schema ∧ Json.read payload = .error error) ∧
    (∀ name first others, outcome = some (.error (.violated name first others)) ↔
      name.text = schema ∧
        ∃ value, Json.read payload = .ok value ∧ contract.Finds schema value (first :: others)) ∧
    (outcome = some (.ok ()) ↔
      ∃ value, Json.read payload = .ok value ∧ contract.Finds schema value []) ∧
    (outcome = none ↔ ∃ value, Json.read payload = .ok value ∧ contract.Endless schema value) ∧
    (∀ value, Json.read payload = .ok value → outcome = contract.validateValue schema value) ∧
    Option.Rel ValidationReport.Tells (contract.check schema payload) outcome ∧
    Option.Rel ValidationReport.Tells (contract.checkEvent channel schema payload) outcome ∧
    (∀ name first others, outcome = some (.error (.violated name first others)) →
      ∃ report more, contract.check schema payload = some report ∧ report.diagnostic = some
        ("schema validation failed for '" ++ schema ++ "': " ++ Rejection.located first ++ more)) ∧
    Option.Rel EventResult.Repeats
      ((EventSuite.validateEvent ⟨contract, results⟩ channel schema payload).map (·.1))
      (contract.checkEvent channel schema payload) := by
  have hnamed := isNamed_of_compile hreachable h
  refine ⟨?_, ?_, ?_, ?_, ?_, ?_, ?_, ?_, ?_, ?_⟩
  · exact fun name => Contract.validate_eq_unknown_iff
  · exact fun name error => Contract.validate_eq_notJson_iff hnamed
  · exact fun name first others => Contract.validate_eq_violated_iff hnamed
  · exact Contract.validate_eq_ok_iff
  · exact Contract.validate_eq_none_iff
  · exact fun value hread => contract.validate_of_read schema hread
  · exact ValidationReport.tells_map_of schema none _
  · exact ValidationReport.tells_map_of schema (some channel) _
  · intro name first others hviolated
    obtain ⟨more, hmessage⟩ := Rejection.message_violated name first others
    obtain ⟨rfl, -⟩ := (Contract.validate_eq_violated_iff hnamed).1 hviolated
    refine ⟨.of name.text none (.error (.violated name first others)), more, ?_, ?_⟩
    · rw [Contract.check, hviolated]
      rfl
    · rw [ValidationReport.of_error, hmessage]
  · rw [EventSuite.validateEvent]
    cases contract.checkEvent channel schema payload with
    | none => exact .none
    | some report => exact .some ⟨rfl, rfl, rfl⟩

/-- A name that is not declared is refused as such although the payload is no JSON
either. -/
theorem validate_misspelt : ∃ contract : Contract,
    ((empty .event).run EventSuite.numbered).compile (.asNoted true) = .ok contract ∧
      "Pong" ∉ contract.names ∧ (Json.read [0x7b]).toOption = none ∧
      contract.validate "Pong" [0x7b] = some (.error (.unknownSchema "Pong")) := by
  have hmisspelt : (((empty .event).run EventSuite.numbered).compile (.asNoted true)).toOption.any
      (fun contract => !contract.names.contains "Pong") = true := by
    decide +kernel
  have hreachable : ((empty .event).run EventSuite.numbered).Reachable := by
    refine reachable_run fun call hcall => ?_
    obtain rfl := List.mem_singleton.1 hcall
    show Json.Ordered
      (.object [("properties", .object [("seq", .object [("type", .string "integer")])])])
    decide
  obtain ⟨contract, hcontract, hmisspelt⟩ := exists_of_any hmisspelt
  have hundeclared : "Pong" ∉ contract.names := by simpa using hmisspelt
  refine ⟨contract, hcontract, hundeclared, by decide +kernel, ?_⟩
  exact ((validate_precedence hreachable hcontract "pings" "Pong" [0x7b] []).1 "Pong").2
    ⟨rfl, hundeclared⟩

/-- Of two schemas that ask for each other, judging a payload comes to none of the
outcomes. -/
theorem validate_circle : ∃ contract : Contract,
    ((empty .rest).run circle).compile (.asNoted false) = .ok contract ∧
      "A" ∈ contract.names ∧ Json.read (Utf8.encode "null") = .ok .null ∧
      ∀ judgement, contract.validate "A" (Utf8.encode "null") ≠ some judgement := by
  obtain ⟨contract, hcontract, hendless⟩ := exists_of_any any_endless_circle
  have hread : Json.read (Utf8.encode "null") = .ok .null :=
    @Json.read_compact .null (by decide) (by decide) (by decide)
  have hendless : contract.Endless "A" .null := of_decide_eq_true hendless
  obtain ⟨compiled, hget, -⟩ := Contract.endless_iff.1 hendless
  refine ⟨contract, hcontract, Entries.mem_keys_iff.2 ⟨compiled, hget⟩, hread, ?_⟩
  intro judgement hjudgement
  rw [Contract.validate_eq_none_iff.2 ⟨.null, hread, hendless⟩] at hjudgement
  cases hjudgement

end Registry

end ApiContract
