import ApiContract.Conformance.Event
import ApiContract.Proofs.Contract.Runs
import ApiContract.Proofs.Json.RoundTrip
/-!
# Events and their payloads

The payload of a case is tried as text.  As long as the text can be read, the
outcome is that of judging the payload itself; a payload that is nested too deep
is refused as text whatever its schema says (`runCase_of_payload`).
-/

namespace ApiContract

namespace Contract

variable {contract : Contract} {schema : String} {value : Json}

theorem get?_of_mem_names (h : schema ∈ contract.names) :
    ∃ compiled, contract.get? schema = some compiled :=
  Entries.mem_keys_iff.1 h

/-- Judging a value is never a matter of how it was written. -/
theorem judge_ne_notJson (compiled : CompiledSchema) (value : Json) {name : SchemaName}
    {error : Json.ReadError} : judge compiled value ≠ some (.error (.notJson name error)) := by
  intro h
  obtain ⟨found, -, hfound⟩ := Option.map_eq_some_iff.1 h
  cases found with
  | nil => cases hfound
  | cons first others => cases hfound

theorem validateValue_ne_notJson {name : SchemaName} {error : Json.ReadError} :
    contract.validateValue schema value ≠ some (.error (.notJson name error)) := by
  unfold validateValue
  split
  · nofun
  · exact judge_ne_notJson _ _

/-- Text is judged as the value that it stands for. -/
theorem validate_of_read (contract : Contract) (schema : String) {payload : List UInt8}
    (h : Json.read payload = .ok value) :
    contract.validate schema payload = contract.validateValue schema value := by
  unfold validate
  cases hget : contract.get? schema with
  | none => rw [validateValue, hget]
  | some compiled => simp only [h]

/-- Text that cannot be read is refused by every declared schema. -/
theorem validate_of_read_error {payload : List UInt8} {error : Json.ReadError}
    (hschema : schema ∈ contract.names) (h : Json.read payload = .error error) :
    ∃ name, contract.validate schema payload = some (.error (.notJson name error)) := by
  obtain ⟨compiled, hget⟩ := get?_of_mem_names hschema
  refine ⟨compiled.declaration.name, ?_⟩
  simp only [validate, hget, h]

end Contract

/-! ## Reports -/

namespace ValidationReport

variable (schema : String) (channel : Option String) (judgement : Except Rejection Unit)

@[simp] theorem of_ok : of schema channel (.ok ()) = ⟨schema, channel, true, none, none⟩ := rfl

@[simp] theorem of_error (rejection : Rejection) : of schema channel (.error rejection) =
    ⟨schema, channel, false, some rejection.kind, some rejection.message⟩ := rfl

theorem passed_of_iff : (of schema channel judgement).passed = true ↔ judgement = .ok () := by
  cases judgement with
  | ok => exact ⟨fun _ => rfl, fun _ => rfl⟩
  | error rejection => exact ⟨nofun, nofun⟩

/-- A report tells why a payload is refused, and that it is. -/
theorem told_of_iff (kind : RejectionKind) (message : String) :
    (of schema channel judgement).failure = some kind ∧
        (of schema channel judgement).diagnostic = some message ↔
      ∃ rejection, judgement = .error rejection ∧ rejection.kind = kind ∧
        rejection.message = message := by
  cases judgement with
  | ok => exact ⟨nofun, nofun⟩
  | error rejection => simp

end ValidationReport

/-! ## Events -/

namespace EventSuite

variable {suite after : EventSuite} {channel schema : String} {payload : List UInt8}
  {result : EventResult}

/-- The outcome of an event is what the report on its payload tells. -/
theorem validateEvent_eq_some : suite.validateEvent channel schema payload = some (result, after) ↔
    ∃ judgement, suite.contract.validate schema payload = some judgement ∧
      result = outcome channel schema payload (.of schema (some channel) judgement) ∧
      after = { suite with results := suite.results ++ [result] } := by
  rw [validateEvent, Contract.checkEvent, Option.map_map, Option.map_eq_some_iff]
  refine exists_congr fun judgement => and_congr_right fun _ => ?_
  rw [Function.comp_apply, Prod.mk.injEq]
  constructor
  · rintro ⟨rfl, rfl⟩
    exact ⟨rfl, rfl⟩
  · rintro ⟨rfl, rfl⟩
    exact ⟨rfl, rfl⟩

theorem validateEvent_eq_none : suite.validateEvent channel schema payload = none ↔
    suite.contract.validate schema payload = none := by
  rw [validateEvent, Contract.checkEvent, Option.map_eq_none_iff, Option.map_eq_none_iff]

/-- A payload that is nested too deep is refused as text. -/
theorem runCase_of_deep (suite : EventSuite) (case : EventCase) (hordered : case.payload.Ordered)
    (hintegers : case.payload.HoldsIntegers) (hnesting : 127 < case.payload.nesting)
    (hschema : case.schema ∈ suite.contract.names) :
    ∃ result after, suite.runCase case = some (result, after) ∧ result.passed = false ∧
      result.failure = some .parse := by
  obtain ⟨error, hread, -⟩ := Json.read_compact_of_deep hordered hintegers hnesting
  obtain ⟨name, hname⟩ := Contract.validate_of_read_error hschema hread
  exact ⟨_, _, validateEvent_eq_some.2 ⟨_, hname, rfl, rfl⟩, rfl, rfl⟩

/-- The outcome of a case is that of judging its payload, unless the payload is
nested too deep to be read back. -/
theorem runCase_of_payload (suite : EventSuite) (case : EventCase)
    (hordered : case.payload.Ordered) (hintegers : case.payload.HoldsIntegers) :
    (case.payload.nesting ≤ 127 →
      suite.contract.validate case.schema (Utf8.encode case.payload.compact) =
          suite.contract.validateValue case.schema case.payload ∧
        (suite.runCase case = none ↔
          suite.contract.validateValue case.schema case.payload = none) ∧
        ∀ result after, suite.runCase case = some (result, after) →
          (result.passed = true ↔
            suite.contract.validateValue case.schema case.payload = some (.ok ())) ∧
          (∀ kind message, result.failure = some kind ∧ result.error = some message ↔
            ∃ rejection,
              suite.contract.validateValue case.schema case.payload = some (.error rejection) ∧
                rejection.kind = kind ∧ rejection.message = message) ∧
          result.failure ≠ some .parse) ∧
    (127 < case.payload.nesting → case.schema ∈ suite.contract.names →
      ∃ result after, suite.runCase case = some (result, after) ∧ result.passed = false ∧
        result.failure = some .parse) := by
  constructor
  · intro hnesting
    have hsame := suite.contract.validate_of_read case.schema
      (Json.read_compact hordered hintegers hnesting)
    refine ⟨hsame, ?_, ?_⟩
    · rw [← hsame]
      exact validateEvent_eq_none
    · intro result after hrun
      obtain ⟨judgement, hjudgement, rfl, -⟩ := validateEvent_eq_some.1 hrun
      rw [hsame] at hjudgement
      rw [hjudgement]
      refine ⟨?_, ?_, ?_⟩
      · rw [Option.some.injEq]
        exact ValidationReport.passed_of_iff case.schema (some case.channel) judgement
      · intro kind message
        simp only [Option.some.injEq]
        exact ValidationReport.told_of_iff case.schema (some case.channel) judgement kind message
      · intro hparse
        cases judgement with
        | ok => cases hparse
        | error rejection =>
          cases rejection with
          | notJson name error => exact Contract.validateValue_ne_notJson hjudgement
          | _ => cases hparse
  · intro hnesting hschema
    exact suite.runCase_of_deep case hordered hintegers hnesting hschema

/-- The declaration of what carries a number. -/
def numbered : List DeclarationCall :=
  [.value "Ping" (.object [("properties", .object [("seq", .object [("type", .string "integer")])])])
    "asyncapi.yaml"]

/-- A case whose number is none. -/
def unnumberedPing : EventCase :=
  ⟨"pings", "Ping", .object [("seq", .string "one\n")]⟩

theorem runCase_of_unnumberedPing : ∃ contract : Contract,
    ((Registry.empty .event).run numbered).compile (.asNoted true) = .ok contract ∧
      (∃ rejection, contract.validateValue "Ping" unnumberedPing.payload =
        some (.error rejection)) ∧
      ∃ result after, (start contract).runCase unnumberedPing = some (result, after) ∧
        result.passed = false := by
  have hjudged : (((Registry.empty .event).run numbered).compile (.asNoted true)).toOption.any
      (fun contract => (contract.validateValue "Ping" unnumberedPing.payload).any (!·.isOk)) =
        true := by
    decide +kernel
  obtain ⟨contract, hcontract, hjudged⟩ := exists_of_any hjudged
  obtain ⟨rejection, hrefused⟩ := exists_error_of_any hjudged
  have hagree := (runCase_of_payload (start contract) unnumberedPing (by decide) (by decide)).1
    (by decide)
  cases hrun : (start contract).runCase unnumberedPing with
  | none =>
    have hnone : contract.validateValue "Ping" unnumberedPing.payload = none := hagree.2.1.1 hrun
    rw [hrefused] at hnone
    cases hnone
  | some tried =>
    obtain ⟨result, after⟩ := tried
    refine ⟨contract, hcontract, ⟨rejection, hrefused⟩, result, after, hrun, Bool.eq_false_iff.2 ?_⟩
    intro hpassed
    have haccepted : contract.validateValue "Ping" unnumberedPing.payload = some (.ok ()) :=
      (hagree.2.2 result after hrun).1.1 hpassed
    rw [hrefused] at haccepted
    cases haccepted

/-- The declaration of a schema that asks for nothing. -/
def anything : List DeclarationCall := [.value "S" (.object []) "asyncapi.yaml"]

/-- Arrays inside one another, `n` of them around an empty one. -/
def brackets : Nat → Json
  | 0 => .array []
  | n + 1 => .array [brackets n]

/-- Brackets are accepted as a value and refused as the payload of a case. -/
theorem runCase_of_brackets : ∃ contract : Contract,
    ((Registry.empty .event).run anything).compile (.asNoted false) = .ok contract ∧
      "S" ∈ contract.names ∧ (brackets 127).Ordered ∧ (brackets 127).HoldsIntegers ∧
      contract.validateValue "S" (brackets 127) = some (.ok ()) ∧
      ∃ result after, (start contract).runCase ⟨"c", "S", brackets 127⟩ = some (result, after) ∧
        result.passed = false ∧ result.failure = some .parse := by
  have haccepted : (((Registry.empty .event).run anything).compile (.asNoted false)).toOption.any
      (fun contract => contract.names.contains "S" &&
        (contract.validateValue "S" (brackets 127)).any (·.isOk)) = true := by
    decide +kernel
  obtain ⟨contract, hcontract, haccepted⟩ := exists_of_any haccepted
  rw [Bool.and_eq_true, List.contains_iff_mem] at haccepted
  obtain ⟨hschema, haccepted⟩ := haccepted
  have hordered : (brackets 127).Ordered := by decide +kernel
  have hintegers : (brackets 127).HoldsIntegers := by decide +kernel
  refine ⟨contract, hcontract, hschema, hordered, hintegers,
    eq_ok_of_any haccepted, ?_⟩
  exact runCase_of_deep (start contract) ⟨"c", "S", brackets 127⟩ hordered hintegers
    (by decide +kernel) hschema

end EventSuite

end ApiContract
