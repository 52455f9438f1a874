import ApiContract.Proofs.Conformance.Undeclared
/-!
# The stages of a case

A case has to clear one stage after the other: its method, its URL, the exchange
with the service, the status of the answer and the check of its body.  It passes if
it clears all of them; otherwise the error is that of the first stage that it does
not clear, and the beginning of the error tells which one that is
(`verdict_of_stages`).
-/

namespace ApiContract

/-- A stage of a case. -/
inductive Stage where
  | method
  | url
  | transport
  | status
  | schema
deriving DecidableEq, Repr

namespace Stage

/-- The stages before a stage. -/
def earlier : Stage → List Stage
  | method => []
  | url => [method]
  | transport => [method, url]
  | status => [method, url, transport]
  | schema => [method, url, transport, status]

/-- How the errors of a stage begin. -/
def heading : Stage → String
  | method => "creating request: invalid method '"
  | url => "creating request: invalid URL '"
  | transport => "executing request: "
  | status => "expected status "
  | schema => "schema validation: "

/-- A text begins as the errors of a stage do. -/
def Heads (stage : Stage) (text : String) : Prop := stage.heading.toList <+: text.toList

instance (stage : Stage) (text : String) : Decidable (stage.Heads text) :=
  inferInstanceAs (Decidable (_ <+: _))

theorem heads_append (stage : Stage) (text : String) : stage.Heads (stage.heading ++ text) := by
  rw [Heads, String.toList_append]
  exact List.prefix_append _ _

theorem Heads.append {stage : Stage} {text : String} (h : stage.Heads text) (more : String) :
    stage.Heads (text ++ more) := by
  rw [Heads, String.toList_append]
  exact h.trans (List.prefix_append _ _)

/-- No text begins as the errors of two stages do. -/
theorem eq_of_heads {a b : Stage} {text : String} (ha : a.Heads text) (hb : b.Heads text) :
    a = b := by
  have hdistinct : ∀ a b : Stage, a.heading.toList <+: b.heading.toList → a = b := by
    intro a b
    cases a <;> cases b <;> decide
  rcases List.prefix_or_prefix_of_prefix ha hb with h | h
  · exact hdistinct a b h
  · exact (hdistinct b a h).symm

end Stage

namespace CaseFailure

/-- The stage that a failure belongs to. -/
def stage : CaseFailure → Stage
  | invalidMethod _ => .method
  | invalidUrl _ _ => .url
  | unsendable _ | noResponse _ => .transport
  | status _ _ => .status
  | schema _ => .schema

theorem heads_message (failure : CaseFailure) : failure.stage.Heads failure.message := by
  cases failure with
  | invalidMethod method =>
    exact ((Stage.heads_append .method method).append _)
  | invalidUrl target fault =>
    exact (((Stage.heads_append .url target).append _).append _)
  | unsendable url =>
    have hstart : Stage.transport.Heads "executing request: builder error for url (" := by decide
    exact (hstart.append _).append _
  | noResponse url =>
    have hstart : Stage.transport.Heads "executing request: error sending request for url (" := by
      decide
    exact (hstart.append _).append _
  | status expected actual =>
    exact (((Stage.heads_append .status _).append _).append _)
  | schema rejection => exact Stage.heads_append .schema _

end CaseFailure

namespace HttpCase

/-- The answer arrives: the request of the case can be sent, and the service gives
the answer to it. -/
def Arrives (case : HttpCase) (base : String) (service : Service) (response : Response) : Prop :=
  ∃ request, case.request base = .ok request ∧ (service.exchange request).1 = some response

/-- What a stage asks of a case. -/
def Clears (case : HttpCase) (contract : Contract) (base : String) (service : Service) :
    Stage → Prop
  | .method => isMethod case.method = true
  | .url => ∃ url, Url.ofText (case.targetText base) = .ok url
  | .transport => ∃ response, case.Arrives base service response
  | .status => ∃ response, case.Arrives base service response ∧
      response.status = case.expectedStatus.toNat
  | .schema => ∃ response, case.Arrives base service response ∧
      (case.schema = none ∨ response.body = [] ∨
        ∃ schema, case.schema = some schema ∧ contract.validate schema response.body = some (.ok ()))

/-- The stage is the first one that the case does not clear. -/
def FailsFirst (case : HttpCase) (contract : Contract) (base : String) (service : Service)
    (stage : Stage) : Prop :=
  ¬ case.Clears contract base service stage ∧
    ∀ other ∈ stage.earlier, case.Clears contract base service other

variable {case : HttpCase} {contract : Contract} {base : String} {service : Service}

/-- Of two stages, one is the first that is not cleared. -/
theorem FailsFirst.unique {a b : Stage} (ha : case.FailsFirst contract base service a)
    (hb : case.FailsFirst contract base service b) : a = b := by
  have horder : ∀ a b : Stage, a = b ∨ a ∈ b.earlier ∨ b ∈ a.earlier := by
    intro a b
    cases a <;> cases b <;> decide
  rcases horder a b with heq | hearlier | hearlier
  · exact heq
  · exact absurd (hb.2 a hearlier) ha.1
  · exact absurd (ha.2 b hearlier) hb.1

/-! ## The request -/

theorem clears_of_request (contract : Contract) (service : Service) {request : Request}
    (h : case.request base = .ok request) :
    case.Clears contract base service .method ∧ case.Clears contract base service .url := by
  unfold HttpCase.request at h
  split at h
  · cases h
  · next hmethod =>
    have hvalid : isMethod case.method = true := by simpa using hmethod
    split at h
    · cases h
    · next url hurl => exact ⟨hvalid, url, hurl⟩

/-- What keeps a request from being made is the failure of the first stage that is not
cleared. -/
theorem failsFirst_of_request {failure : CaseFailure} (h : case.request base = .error failure) :
    case.FailsFirst contract base service failure.stage := by
  have harrives : ¬ case.Clears contract base service .transport := by
    rintro ⟨response, request, hrequest, -⟩
    rw [h] at hrequest
    cases hrequest
  unfold HttpCase.request at h
  split at h
  · next hmethod =>
    cases h
    have hinvalid : ¬ isMethod case.method = true := by simpa using hmethod
    exact ⟨hinvalid, nofun⟩
  · next hmethod =>
    have hvalid : isMethod case.method = true := by simpa using hmethod
    have hcleared : case.Clears contract base service .method := hvalid
    split at h
    · next fault hfault =>
      cases h
      refine ⟨?_, ?_⟩
      · rintro ⟨url, hurl⟩
        rw [hfault] at hurl
        cases hurl
      · intro other hother
        obtain rfl := List.mem_singleton.1 hother
        exact hcleared
    · next url hurl =>
      simp only at h
      split at h
      · cases h
      · cases h
        refine ⟨harrives, ?_⟩
        intro other hother
        rcases List.mem_pair.1 hother with rfl | rfl
        · exact hcleared
        · exact ⟨url, hurl⟩

/-! ## The answer -/

/-- At most one answer arrives. -/
theorem Arrives.unique {response response' : Response} (h : case.Arrives base service response)
    (h' : case.Arrives base service response') : response = response' := by
  obtain ⟨request, hrequest, hresponse⟩ := h
  obtain ⟨request', hrequest', hresponse'⟩ := h'
  rw [hrequest] at hrequest'
  cases hrequest'
  exact Option.some.inj (hresponse.symm.trans hresponse')

variable {response : Response}

theorem clears_status_iff (h : case.Arrives base service response) :
    case.Clears contract base service .status ↔
      response.status = case.expectedStatus.toNat := by
  constructor
  · rintro ⟨response', h', hstatus⟩
    rwa [h.unique h']
  · intro hstatus
    exact ⟨response, h, hstatus⟩

theorem clears_schema_iff (h : case.Arrives base service response) :
    case.Clears contract base service .schema ↔ ∀ schema, case.schema = some schema →
      response.body ≠ [] → contract.validate schema response.body = some (.ok ()) := by
  constructor
  · rintro ⟨response', h', hcases⟩ schema hschema hbody
    obtain rfl := h.unique h'
    rcases hcases with hnone | hempty | ⟨named, hnamed, hok⟩
    · rw [hschema] at hnone
      cases hnone
    · exact absurd hempty hbody
    · rw [hschema] at hnamed
      cases hnamed
      exact hok
  · intro haccepts
    refine ⟨response, h, ?_⟩
    cases hschema : case.schema with
    | none => exact .inl rfl
    | some schema =>
      by_cases hbody : response.body = []
      · exact .inr (.inl hbody)
      · exact .inr (.inr ⟨schema, rfl, haccepts schema hschema hbody⟩)

/-- An answer that has arrived is past the stages before the status. -/
theorem Arrives.cleared (contract : Contract) (h : case.Arrives base service response) :
    ∀ other ∈ Stage.status.earlier, case.Clears contract base service other := by
  have htransport : case.Clears contract base service .transport := ⟨response, h⟩
  obtain ⟨request, hrequest, -⟩ := h
  obtain ⟨hmethod, hurl⟩ := clears_of_request contract service hrequest
  intro other hother
  simp only [Stage.earlier, List.mem_cons, List.not_mem_nil, or_false] at hother
  rcases hother with rfl | rfl | rfl
  · exact hmethod
  · exact hurl
  · exact htransport

/-- What is wrong with an answer is the failure of the first stage that is not
cleared. -/
theorem failsFirst_of_response (h : case.Arrives base service response) {failure : CaseFailure}
    (hfailure : case.verify contract response = some (.error failure)) :
    case.FailsFirst contract base service failure.stage := by
  by_cases hstatus : response.status = case.expectedStatus.toNat
  · have hcleared : case.Clears contract base service .status := (clears_status_iff h).2 hstatus
    have hrefused : ¬ case.Clears contract base service .schema := by
      rw [clears_schema_iff h]
      intro haccepts
      rw [verify_eq_ok.2 ⟨hstatus, haccepts⟩] at hfailure
      cases hfailure
    have hstage : failure.stage = .schema := by
      rw [verify, if_neg (not_not.2 hstatus)] at hfailure
      split at hfailure
      · cases hfailure
      · split at hfailure
        · cases hfailure
        · obtain ⟨judgement, -, hjudgement⟩ := Option.map_eq_some_iff.1 hfailure
          cases judgement with
          | ok => cases hjudgement
          | error rejection =>
            cases hjudgement
            rfl
    rw [hstage]
    refine ⟨hrefused, ?_⟩
    intro other hother
    have hsplit : other ∈ Stage.status.earlier ++ [.status] := hother
    rcases List.mem_append.1 hsplit with hbefore | hlast
    · exact h.cleared contract other hbefore
    · obtain rfl := List.mem_singleton.1 hlast
      exact hcleared
  · rw [verify_of_status contract hstatus] at hfailure
    cases hfailure
    exact ⟨fun hcleared => hstatus ((clears_status_iff h).1 hcleared), h.cleared contract⟩

/-- An answer that is as expected is past all stages. -/
theorem clears_of_verify (h : case.Arrives base service response) :
    case.verify contract response = some (.ok ()) ↔
      ∀ stage, case.Clears contract base service stage := by
  have hstatus : case.Clears contract base service .status ↔
      response.status = case.expectedStatus.toNat := clears_status_iff h
  rw [verify_eq_ok, ← hstatus, ← clears_schema_iff h]
  constructor
  · rintro ⟨hstatus, hschema⟩ stage
    cases stage with
    | method => exact h.cleared contract .method (by decide)
    | url => exact h.cleared contract .url (by decide)
    | transport => exact ⟨response, h⟩
    | status => exact hstatus
    | schema => exact hschema
  · intro hall
    exact ⟨hall .status, hall .schema⟩

/-! ## The verdict -/

/-- The outcome that tells of an answer, if there is one, and of a verdict. -/
def told (case : HttpCase) (answer : Option Response) (verdict : Except CaseFailure Unit) :
    HttpResult :=
  (answer.elim case.pending case.pending.answered).concluded verdict

section Told

variable (case) (answer : Option Response) (verdict : Except CaseFailure Unit)

theorem passed_told : (case.told answer verdict).passed = true ↔ verdict = .ok () := by
  cases answer <;> cases verdict <;>
    simp [told, HttpResult.concluded, HttpResult.answered, pending]

/-- An error is there exactly if the case does not pass. -/
theorem error_told : (case.told answer verdict).error = none ↔ verdict = .ok () := by
  cases answer <;> cases verdict <;>
    simp [told, HttpResult.concluded, HttpResult.answered, pending]

theorem error_told_eq_some (message : String) :
    (case.told answer verdict).error = some message ↔
      ∃ failure, verdict = .error failure ∧ failure.message = message := by
  cases answer <;> cases verdict <;>
    simp [told, HttpResult.concluded, HttpResult.answered, pending]

theorem status_told : (case.told answer verdict).status = answer.map (·.status) := by
  cases answer <;> cases verdict <;> rfl

theorem response_told : (case.told answer verdict).response =
    answer.map fun response => String.ofList (Utf8.decodeLossy response.body) := by
  cases answer <;> cases verdict <;> rfl

/-- What does not depend on the answer repeats the case. -/
theorem repeats_told : (case.told answer verdict).requestBody = case.body.map Json.compact ∧
    (case.told answer verdict).endpoint = case.path ∧
    (case.told answer verdict).method = case.method ∧
    (case.told answer verdict).schema = case.schema := by
  cases answer <;> cases verdict <;> exact ⟨rfl, rfl, rfl, rfl⟩

end Told

/-- The outcome of a case tells of the answer that has arrived, if one has, and of the
first stage that is not cleared, if there is one. -/
theorem exists_told {result : HttpResult} (h : (case.run contract base service).1 = some result) :
    ∃ answer verdict, result = case.told answer verdict ∧
      (∀ response, answer = some response ↔ case.Arrives base service response) ∧
      (verdict = .ok () ↔ ∀ stage, case.Clears contract base service stage) ∧
      ∀ failure, verdict = .error failure → case.FailsFirst contract base service failure.stage := by
  cases hrequest : case.request base with
  | error failure =>
    have hfirst : case.FailsFirst contract base service failure.stage :=
      failsFirst_of_request hrequest
    rw [run_of_request_error contract service hrequest] at h
    refine ⟨none, .error failure, (Option.some.inj h).symm, ?_, ?_, ?_⟩
    · intro response
      constructor
      · rintro ⟨⟩
      · rintro ⟨request, hother, -⟩
        rw [hrequest] at hother
        cases hother
    · exact ⟨nofun, fun hall => absurd (hall _) hfirst.1⟩
    · rintro _ ⟨⟩
      exact hfirst
  | ok request =>
    obtain ⟨hmethod, hurl⟩ := clears_of_request contract service hrequest
    cases hanswer : (service.exchange request).1 with
    | none =>
      obtain ⟨after, hexchange⟩ := exchange_of_fst hanswer
      rw [run_of_no_response contract hrequest hexchange] at h
      have hsilent : ∀ response, ¬ case.Arrives base service response := by
        rintro response ⟨request', hsame, hresponse⟩
        rw [hrequest] at hsame
        cases hsame
        rw [hanswer] at hresponse
        cases hresponse
      have htransport : ¬ case.Clears contract base service .transport := by
        rintro ⟨response, h⟩
        exact hsilent response h
      refine ⟨none, .error (.noResponse request.url), (Option.some.inj h).symm, ?_, ?_, ?_⟩
      · intro response
        exact ⟨nofun, fun h => absurd h (hsilent response)⟩
      · exact ⟨nofun, fun hall => absurd (hall .transport) htransport⟩
      · rintro _ ⟨⟩
        refine ⟨htransport, ?_⟩
        intro other hother
        rcases List.mem_pair.1 hother with rfl | rfl
        · exact hmethod
        · exact hurl
    | some response =>
      obtain ⟨after, hexchange⟩ := exchange_of_fst hanswer
      have harrives : case.Arrives base service response := ⟨request, hrequest, hanswer⟩
      rw [run_of_response contract hrequest hexchange] at h
      obtain ⟨verdict, hverdict, rfl⟩ := Option.map_eq_some_iff.1 h
      refine ⟨some response, verdict, rfl, ?_, ?_, ?_⟩
      · intro other
        constructor
        · rintro ⟨⟩
          exact harrives
        · intro h
          rw [harrives.unique h]
      · rw [← clears_of_verify harrives, hverdict, Option.some.injEq]
      · rintro failure rfl
        exact failsFirst_of_response harrives hverdict

/-- A case has no outcome exactly if an answer has arrived whose body cannot be judged in
finitely many steps. -/
theorem run_eq_none : (case.run contract base service).1 = none ↔
    ∃ response, case.Arrives base service response ∧ case.verify contract response = none := by
  cases hrequest : case.request base with
  | error failure =>
    rw [run_of_request_error contract service hrequest]
    refine ⟨nofun, ?_⟩
    rintro ⟨response, ⟨request, hother, -⟩, -⟩
    rw [hrequest] at hother
    cases hother
  | ok request =>
    cases hanswer : (service.exchange request).1 with
    | none =>
      obtain ⟨after, hexchange⟩ := exchange_of_fst hanswer
      rw [run_of_no_response contract hrequest hexchange]
      refine ⟨nofun, ?_⟩
      rintro ⟨response, ⟨request', hsame, hresponse⟩, -⟩
      rw [hrequest] at hsame
      cases hsame
      rw [hanswer] at hresponse
      cases hresponse
    | some response =>
      obtain ⟨after, hexchange⟩ := exchange_of_fst hanswer
      have harrives : case.Arrives base service response := ⟨request, hrequest, hanswer⟩
      rw [run_of_response contract hrequest hexchange, Option.map_eq_none_iff]
      constructor
      · intro h
        exact ⟨response, harrives, h⟩
      · rintro ⟨other, hother, h⟩
        rwa [harrives.unique hother]

/-- The contract has no say as long as the status is not the expected one. -/
theorem run_of_other_contract (h : ¬ case.Clears contract base service .status)
    (other : Contract) : case.run other base service = case.run contract base service := by
  cases hrequest : case.request base with
  | error failure =>
    rw [run_of_request_error other service hrequest, run_of_request_error contract service hrequest]
  | ok request =>
    cases hanswer : (service.exchange request).1 with
    | none =>
      obtain ⟨after, hexchange⟩ := exchange_of_fst hanswer
      rw [run_of_no_response other hrequest hexchange,
        run_of_no_response contract hrequest hexchange]
    | some response =>
      obtain ⟨after, hexchange⟩ := exchange_of_fst hanswer
      have hstatus : response.status ≠ case.expectedStatus.toNat :=
        fun hsame => h ⟨response, ⟨request, hrequest, hanswer⟩, hsame⟩
      rw [run_of_response other hrequest hexchange, run_of_response contract hrequest hexchange,
        verify_of_status other hstatus, verify_of_status contract hstatus]

end HttpCase

/-- A case passes exactly if it clears all stages.  It has an error exactly if it does
not pass, and the error begins as those of a stage exactly if that stage is the first
one that is not cleared; unless the status is the expected one, no contract would change
anything.  The other fields repeat the case, and the answer if one has arrived.  There is
no outcome exactly if the body of an answer that has come as far as that cannot be judged
in finitely many steps. -/
theorem HttpSuite.verdict_of_stages (suite : HttpSuite) (base : String) (case : HttpCase)
    (service : Service) :
    ((suite.runCase base case service).1 = none ↔
      ∃ response schema, case.Arrives base service response ∧
        response.status = case.expectedStatus.toNat ∧ case.schema = some schema ∧
        response.body ≠ [] ∧ suite.contract.validate schema response.body = none) ∧
    ∀ result after, (suite.runCase base case service).1 = some (result, after) →
      (result.passed = true ↔ ∀ stage, case.Clears suite.contract base service stage) ∧
      (result.error = none ↔ result.passed = true) ∧
      (∀ stage, case.FailsFirst suite.contract base service stage ↔
        ∃ message, result.error = some message ∧ stage.Heads message) ∧
      (∀ message, result.error = some message → ∃ stage : Stage, stage.Heads message) ∧
      (¬ case.Clears suite.contract base service .status →
        ∀ contract, (case.run contract base service).1 = some result) ∧
      (∀ status, result.status = some status ↔
        ∃ response, case.Arrives base service response ∧ response.status = status) ∧
      (∀ text, result.response = some text ↔ ∃ response, case.Arrives base service response ∧
        String.ofList (Utf8.decodeLossy response.body) = text) ∧
      result.requestBody = case.body.map Json.compact ∧
      result.endpoint = case.path ∧ result.method = case.method ∧ result.schema = case.schema := by
  constructor
  · rw [runCase_eq, Option.map_eq_none_iff, HttpCase.run_eq_none]
    refine exists_congr fun response => ?_
    rw [HttpCase.verify_eq_none]
    constructor
    · rintro ⟨harrives, hstatus, schema, hrest⟩
      exact ⟨schema, harrives, hstatus, hrest⟩
    · rintro ⟨schema, harrives, hstatus, hrest⟩
      exact ⟨harrives, hstatus, schema, hrest⟩
  intro result after hreturned
  have hrun : (case.run suite.contract base service).1 = some result := by
    rw [runCase_eq] at hreturned
    obtain ⟨other, hother, heq⟩ := Option.map_eq_some_iff.1 hreturned
    rw [hother, (Prod.mk.inj heq).1]
  obtain ⟨answer, verdict, rfl, hanswer, hcleared, hfirst⟩ := HttpCase.exists_told hrun
  refine ⟨?_, ?_, ?_, ?_, ?_, ?_, ?_, case.repeats_told answer verdict⟩
  · rw [case.passed_told, hcleared]
  · rw [case.error_told, case.passed_told]
  · intro stage
    simp only [case.error_told_eq_some]
    constructor
    · intro hstage
      cases verdict with
      | ok => exact absurd (hcleared.1 rfl stage) hstage.1
      | error failure =>
        obtain rfl := hstage.unique (hfirst failure rfl)
        exact ⟨failure.message, ⟨failure, rfl, rfl⟩, failure.heads_message⟩
    · rintro ⟨_, ⟨failure, hfailure, rfl⟩, hstage⟩
      obtain rfl := Stage.eq_of_heads hstage failure.heads_message
      exact hfirst failure hfailure
  · intro message hmessage
    obtain ⟨failure, -, rfl⟩ := (case.error_told_eq_some answer verdict message).1 hmessage
    exact ⟨failure.stage, failure.heads_message⟩
  · intro hstatus contract
    rw [HttpCase.run_of_other_contract hstatus contract, hrun]
  · intro status
    rw [case.status_told, Option.map_eq_some_iff]
    simp only [hanswer]
  · intro text
    rw [case.response_told, Option.map_eq_some_iff]
    simp only [hanswer]

end ApiContract
