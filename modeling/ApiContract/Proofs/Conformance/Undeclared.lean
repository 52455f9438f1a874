import ApiContract.Conformance.Http
import ApiContract.Proofs.Conformance.Payloads
import ApiContract.Proofs.Conformance.Records
/-!
# Schemas that are not declared

A contract refuses everything under a name that it does not declare, and says
that there is no such schema (`validate_of_not_mem`).  A run of a request gets
as far as asking the contract only if the answer has a body: a case that names
no declared schema passes on the expected status and an empty body, and on
nothing else (`run_of_undeclared`).

The main statement, `refuses_of_undeclared`, says so of all ways to a verdict.
-/

namespace ApiContract

namespace Contract

variable {contract : Contract} {schema : String}

theorem get?_of_not_mem_names (h : schema ∉ contract.names) : contract.get? schema = none := by
  rw [Option.eq_none_iff_forall_ne_some]
  intro compiled hget
  exact h (Entries.mem_keys_iff.2 ⟨compiled, hget⟩)

theorem validateValue_of_not_mem (h : schema ∉ contract.names) (value : Json) :
    contract.validateValue schema value = some (.error (.unknownSchema schema)) := by
  rw [validateValue, get?_of_not_mem_names h]

/-- The name is looked up before the payload is read. -/
theorem validate_of_not_mem (h : schema ∉ contract.names) (payload : List UInt8) :
    contract.validate schema payload = some (.error (.unknownSchema schema)) := by
  rw [validate, get?_of_not_mem_names h]

end Contract

namespace HttpCase

variable {case : HttpCase} {contract : Contract} {schema base : String} {service after : Service}
  {request : Request} {response : Response}

/-! ## Answers -/

theorem verify_of_status (contract : Contract) (h : response.status ≠ case.expectedStatus.toNat) :
    case.verify contract response =
      some (.error (.status case.expectedStatus.toNat response.status)) := by
  rw [verify, if_pos h]

/-- An answer of the expected status is judged by its body, if a schema is named and
there is a body. -/
theorem verify_eq_ok : case.verify contract response = some (.ok ()) ↔
    response.status = case.expectedStatus.toNat ∧
      ∀ schema, case.schema = some schema → response.body ≠ [] →
        contract.validate schema response.body = some (.ok ()) := by
  by_cases hstatus : response.status = case.expectedStatus.toNat
  · rw [verify, if_neg (not_not.2 hstatus), and_iff_right hstatus]
    cases hschema : case.schema with
    | none => exact ⟨fun _ => nofun, fun _ => rfl⟩
    | some schema =>
      by_cases hbody : response.body = []
      · simp [hbody]
      · have hnonempty : response.body.isEmpty = false := by simpa using hbody
        simp only [hnonempty, Bool.false_eq_true, if_false, Option.map_eq_some_iff]
        constructor
        · rintro ⟨judgement, hjudgement, hok⟩ _ ⟨⟩ -
          cases judgement with
          | ok => exact hjudgement
          | error rejection => cases hok
        · intro haccepts
          exact ⟨.ok (), haccepts schema rfl hbody, rfl⟩
  · rw [verify_of_status contract hstatus]
    exact ⟨nofun, fun h => absurd h.1 hstatus⟩

theorem verify_eq_none : case.verify contract response = none ↔
    response.status = case.expectedStatus.toNat ∧
      ∃ schema, case.schema = some schema ∧ response.body ≠ [] ∧
        contract.validate schema response.body = none := by
  by_cases hstatus : response.status = case.expectedStatus.toNat
  · rw [verify, if_neg (not_not.2 hstatus), and_iff_right hstatus]
    cases hschema : case.schema with
    | none => simp
    | some schema =>
      by_cases hbody : response.body = []
      · simp [hbody]
      · simp [hbody, Option.map_eq_none_iff]
  · rw [verify_of_status contract hstatus]
    exact ⟨nofun, fun h => absurd h.1 hstatus⟩

/-! ## Runs -/

theorem run_of_request_error {failure : CaseFailure} (contract : Contract) (service : Service)
    (h : case.request base = .error failure) :
    case.run contract base service = (some (case.pending.concluded (.error failure)), service) := by
  rw [run, h]

theorem run_of_no_response (contract : Contract) (hrequest : case.request base = .ok request)
    (hexchange : service.exchange request = (none, after)) :
    case.run contract base service =
      (some (case.pending.concluded (.error (.noResponse request.url))), after) := by
  rw [run, hrequest]
  simp only [hexchange]

theorem run_of_response (contract : Contract) (hrequest : case.request base = .ok request)
    (hexchange : service.exchange request = (some response, after)) :
    case.run contract base service =
      ((case.verify contract response).map (case.pending.answered response).concluded, after) := by
  rw [run, hrequest]
  simp only [hexchange]

theorem exchange_of_fst {answer : Option Response} (h : (service.exchange request).1 = answer) :
    ∃ after, service.exchange request = (answer, after) :=
  ⟨(service.exchange request).2, by rw [← h]⟩

/-- A case passes exactly if its request is answered as it expects. -/
theorem passed_run_iff :
    (∃ result, (case.run contract base service).1 = some result ∧ result.passed = true) ↔
      ∃ request response, case.request base = .ok request ∧
        (service.exchange request).1 = some response ∧
        case.verify contract response = some (.ok ()) := by
  cases hrequest : case.request base with
  | error failure =>
    rw [run_of_request_error contract service hrequest]
    constructor
    · rintro ⟨_, ⟨⟩, ⟨⟩⟩
    · nofun
  | ok request =>
    simp only [Except.ok.injEq, exists_and_left, exists_eq_left']
    cases hanswer : (service.exchange request).1 with
    | none =>
      obtain ⟨after, hexchange⟩ := exchange_of_fst hanswer
      rw [run_of_no_response contract hrequest hexchange]
      constructor
      · rintro ⟨_, ⟨⟩, ⟨⟩⟩
      · nofun
    | some response =>
      obtain ⟨after, hexchange⟩ := exchange_of_fst hanswer
      rw [run_of_response contract hrequest hexchange]
      constructor
      · rintro ⟨result, hresult, hpassed⟩
        obtain ⟨verdict, hverdict, rfl⟩ := Option.map_eq_some_iff.1 hresult
        cases verdict with
        | ok => exact ⟨response, rfl, hverdict⟩
        | error failure => cases hpassed
      · rintro ⟨_, ⟨⟩, hverdict⟩
        exact ⟨_, by rw [hverdict]; rfl, rfl⟩

/-- A case whose answer can be judged has an outcome. -/
theorem exists_run_of_verify (h : ∀ response, case.verify contract response ≠ none) :
    ∃ result, (case.run contract base service).1 = some result := by
  cases hrequest : case.request base with
  | error failure => exact ⟨_, by rw [run_of_request_error contract service hrequest]⟩
  | ok request =>
    cases hanswer : (service.exchange request).1 with
    | none =>
      obtain ⟨after, hexchange⟩ := exchange_of_fst hanswer
      exact ⟨_, by rw [run_of_no_response contract hrequest hexchange]⟩
    | some response =>
      obtain ⟨after, hexchange⟩ := exchange_of_fst hanswer
      obtain ⟨verdict, hverdict⟩ := Option.ne_none_iff_exists'.1 (h response)
      exact ⟨_, by rw [run_of_response contract hrequest hexchange, hverdict]; rfl⟩

/-- Under a name that is not declared, a case always has an outcome, and passes only
on an answer without a body. -/
theorem run_of_undeclared (h : schema ∉ contract.names) (hcase : case.schema = some schema) :
    ∃ result, (case.run contract base service).1 = some result ∧
      (result.passed = true ↔ ∃ request response, case.request base = .ok request ∧
        (service.exchange request).1 = some response ∧
        response.status = case.expectedStatus.toNat ∧ response.body = []) := by
  obtain ⟨result, hresult⟩ : ∃ result, (case.run contract base service).1 = some result := by
    refine exists_run_of_verify fun response hnone => ?_
    obtain ⟨-, named, hnamed, -, hjudgement⟩ := verify_eq_none.1 hnone
    cases hcase.symm.trans hnamed
    rw [Contract.validate_of_not_mem h] at hjudgement
    cases hjudgement
  refine ⟨result, hresult, ?_⟩
  have hpassed : result.passed = true ↔
      ∃ result, (case.run contract base service).1 = some result ∧ result.passed = true := by
    rw [hresult]
    exact ⟨fun h => ⟨result, rfl, h⟩, fun ⟨_, heq, h⟩ => Option.some.inj heq ▸ h⟩
  rw [hpassed, passed_run_iff]
  refine exists_congr fun request => exists_congr fun response => ?_
  refine and_congr_right fun _ => and_congr_right fun _ => ?_
  rw [verify_eq_ok]
  refine and_congr_right fun _ => ?_
  constructor
  · intro haccepted
    by_contra hbody
    have := haccepted schema hcase hbody
    rw [Contract.validate_of_not_mem h] at this
    cases this
  · rintro hbody _ _ hne
    exact absurd hbody hne

end HttpCase

namespace Contract

/-- The report on a payload whose schema is not declared. -/
def unknownReport (schema : String) (channel : Option String) : ValidationReport :=
  ⟨schema, channel, false, some .unknownSchema, some ("schema not found: " ++ schema)⟩

/-- A schema that is not declared is reported in every way to a verdict; a
request passes all the same if it is answered without a body. -/
theorem refuses_of_undeclared {contract : Contract} {schema : String}
    (h : schema ∉ contract.names) :
    (∀ value, contract.validateValue schema value = some (.error (.unknownSchema schema))) ∧
    (∀ payload, contract.validate schema payload = some (.error (.unknownSchema schema)) ∧
      contract.check schema payload = some (unknownReport schema none) ∧
      ∀ channel, contract.checkEvent channel schema payload =
        some (unknownReport schema (some channel))) ∧
    (∀ results channel payload, ∃ result after,
      EventSuite.validateEvent ⟨contract, results⟩ channel schema payload = some (result, after) ∧
        result.passed = false ∧ result.failure = some .unknownSchema ∧
        result.error = some ("schema not found: " ++ schema)) ∧
    (∀ results (case : EventCase), case.schema = schema → ∃ result after,
      EventSuite.runCase ⟨contract, results⟩ case = some (result, after) ∧
        result.passed = false ∧ result.failure = some .unknownSchema ∧
        result.error = some ("schema not found: " ++ schema)) ∧
    ∀ results (case : HttpCase) base service, case.schema = some schema → ∃ result after,
      (HttpSuite.runCase ⟨contract, results⟩ base case service).1 = some (result, after) ∧
      (result.passed = true ↔ ∃ request response, case.request base = .ok request ∧
        (service.exchange request).1 = some response ∧
        response.status = case.expectedStatus.toNat ∧ response.body = []) := by
  have hrefused := validate_of_not_mem h
  have hevent (results : List EventResult) (channel : String) (payload : List UInt8) :
      ∃ result after,
        EventSuite.validateEvent ⟨contract, results⟩ channel schema payload = some (result, after) ∧
          result.passed = false ∧ result.failure = some .unknownSchema ∧
          result.error = some ("schema not found: " ++ schema) :=
    ⟨_, _, EventSuite.validateEvent_eq_some.2 ⟨_, hrefused payload, rfl, rfl⟩, rfl, rfl, rfl⟩
  refine ⟨validateValue_of_not_mem h, ?_, hevent, ?_, ?_⟩
  · intro payload
    refine ⟨hrefused payload, ?_, fun channel => ?_⟩
    · rw [check, hrefused]
      rfl
    · rw [checkEvent, hrefused]
      rfl
  · rintro results case rfl
    exact hevent results case.channel _
  · intro results case base service hcase
    obtain ⟨result, hresult, hpassed⟩ := @HttpCase.run_of_undeclared case contract schema base service h hcase
    exact ⟨result, _, by rw [HttpSuite.runCase_eq, hresult]; rfl, hpassed⟩

end Contract

namespace HttpCase

/-- A case that misspells the schema of its answer. -/
def misspelt : HttpCase := (get "/ping" 204).expecting "Pong"

theorem refuses_of_misspelt : ∃ contract : Contract,
    ((Registry.empty .rest).run EventSuite.numbered).compile (.asNoted true) = .ok contract ∧
      "Pong" ∉ contract.names ∧ contract.validate "Pong" [] = some (.error (.unknownSchema "Pong")) := by
  obtain ⟨contract, hcontract, hname⟩ := exists_of_any (x :=
    ((Registry.empty .rest).run EventSuite.numbered).compile (.asNoted true))
    (p := fun contract => "Pong" ∉ contract.names) (by decide +kernel)
  have hname := of_decide_eq_true hname
  exact ⟨contract, hcontract, hname, ((Contract.refuses_of_undeclared hname).2.1 []).1⟩

/-- It passes on an answer without a body. -/
theorem passed_run_of_misspelt : ∃ contract : Contract,
    ((Registry.empty .rest).run EventSuite.numbered).compile (.asNoted true) = .ok contract ∧
      "Pong" ∉ contract.names ∧
      (misspelt.run contract "http://localhost" (.answering [some ⟨204, []⟩])).1.any (·.passed) =
        true := by
  have hpassed : (((Registry.empty .rest).run EventSuite.numbered).compile (.asNoted true)).toOption.any
      (fun contract => "Pong" ∉ contract.names &&
        (misspelt.run contract "http://localhost" (.answering [some ⟨204, []⟩])).1.any (·.passed)) =
        true := by
    decide +kernel
  obtain ⟨contract, hcontract, hpassed⟩ := exists_of_any hpassed
  rw [Bool.and_eq_true, decide_eq_true_eq] at hpassed
  exact ⟨contract, hcontract, hpassed⟩

end HttpCase

end ApiContract
