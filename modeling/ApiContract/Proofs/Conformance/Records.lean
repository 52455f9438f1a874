import ApiContract.Conformance.Event
import ApiContract.Conformance.Http
import Mathlib.Data.List.TakeWhile
/-!
# What suites record

A suite answers a call and keeps the answer behind those that it has given
before.  The answer is a matter of the contract and of the call alone
(`Keeps`), so after any calls the records are the answers to the calls, one by
one (`records_callAll`, `callAll_eq`), and the summary counts them.  A call that
judges without an end is never answered, and there are no calls after it.

The main statement, `faithful_suites`, says so of both suites.
-/

namespace ApiContract

/-! ## Counting -/

namespace Summary

variable {α : Type} (passes : α → Bool) (results : List α)

theorem failed_of : (of passes results).failed = results.countP fun result => !passes result := by
  have hsplit := List.length_eq_countP_add_countP passes (l := results)
  have hnot : results.countP (fun result => !passes result) =
      results.countP (fun result => ¬ passes result = true) := by
    congr 1
    funext result
    cases passes result <;> rfl
  show results.length - results.countP passes = _
  omega

/-- Nothing is lost by the subtraction. -/
theorem total_of : (of passes results).total = results.length := by
  have hle := List.countP_le_length (p := passes) (l := results)
  show results.countP passes + (results.length - results.countP passes) = _
  omega

theorem allPassed_of_iff :
    (of passes results).allPassed = true ↔ ∀ result ∈ results, passes result = true := by
  rw [allPassed, decide_eq_true_eq, failed_of, List.countP_eq_zero]
  refine forall₂_congr fun result _ => ?_
  cases passes result <;> simp

end Summary

/-! ## Calls -/

section Calls

variable {σ γ ρ : Type}

/-- Makes calls one after the other, up to one that does not return: what they
return, and what they leave. -/
def callAll (call : σ → γ → Option (ρ × σ)) (state : σ) : List γ → List ρ × σ
  | [] => ([], state)
  | first :: rest =>
    match call state first with
    | none => ([], state)
    | some (result, next) =>
      let (results, last) := callAll call next rest
      (result :: results, last)

/-- Calls are answered in one way as long as `P` holds, which they leave alone,
and the answer is kept behind the results so far. -/
structure Keeps (call : σ → γ → Option (ρ × σ)) (results : σ → List ρ) (P : σ → Prop)
    (answer : γ → Option ρ) : Prop where
  returned : ∀ state c, P state → (call state c).map (·.1) = answer c
  recorded : ∀ state c result next, P state → call state c = some (result, next) →
    results next = results state ++ [result]
  kept : ∀ state c result next, P state → call state c = some (result, next) → P next

/-- What is said of the calls on a suite and of what it records of them. -/
structure Faithful (start : σ) (call : σ → γ → Option (ρ × σ)) (results : σ → List ρ)
    (passes : ρ → Bool) (summary : σ → Summary) : Prop where
  /-- A call that returns adds one record, which is what it returns. -/
  added : ∀ calls c result next, call (callAll call start calls).2 c = some (result, next) →
    results next = results (callAll call start calls).2 ++ [result]
  /-- The records are what the calls returned, in their order. -/
  records : ∀ calls, results (callAll call start calls).2 = (callAll call start calls).1
  /-- A call returns what it would return as the first one, if it returns. -/
  independent : ∀ calls c,
    (call (callAll call start calls).2 c).map (·.1) = (call start c).map (·.1)
  /-- All calls return, up to the first that would not return as the first one. -/
  returns : ∀ calls, (callAll call start calls).1.map some =
    (calls.map fun c => (call start c).map (·.1)).takeWhile (·.isSome)
  /-- If all calls return, there is one record for each of them. -/
  complete : ∀ calls, (∀ c ∈ calls, call start c ≠ none) →
    (results (callAll call start calls).2).length = calls.length
  /-- The records so far are the first of all later ones. -/
  grows : ∀ calls later,
    results (callAll call start calls).2 <+: results (callAll call start (calls ++ later)).2
  passed : ∀ calls, (summary (callAll call start calls).2).passed =
    (callAll call start calls).1.countP passes
  failed : ∀ calls, (summary (callAll call start calls).2).failed =
    (callAll call start calls).1.countP fun result => !passes result
  total : ∀ calls, (summary (callAll call start calls).2).passed +
    (summary (callAll call start calls).2).failed = (callAll call start calls).1.length
  allPassed : ∀ calls, (summary (callAll call start calls).2).allPassed = true ↔
    ∀ result ∈ results (callAll call start calls).2, passes result = true

variable {call : σ → γ → Option (ρ × σ)} {results : σ → List ρ} {P : σ → Prop}
  {answer : γ → Option ρ}

theorem callAll_cons_of_none {state : σ} {first : γ} {rest : List γ} (h : call state first = none) :
    callAll call state (first :: rest) = ([], state) := by
  rw [callAll, h]

theorem callAll_cons_of_some {state next : σ} {first : γ} {rest : List γ} {result : ρ}
    (h : call state first = some (result, next)) :
    callAll call state (first :: rest) =
      (result :: (callAll call next rest).1, (callAll call next rest).2) := by
  rw [callAll, h]

theorem records_callAll (h : Keeps call results P answer) {state : σ} (hstate : P state)
    (calls : List γ) :
    results (callAll call state calls).2 = results state ++ (callAll call state calls).1 ∧
      P (callAll call state calls).2 := by
  induction calls generalizing state with
  | nil => exact ⟨(List.append_nil _).symm, hstate⟩
  | cons first rest ih =>
    cases hcall : call state first with
    | none =>
      rw [callAll_cons_of_none hcall]
      exact ⟨(List.append_nil _).symm, hstate⟩
    | some made =>
      obtain ⟨result, next⟩ := made
      obtain ⟨hrecorded, hkept⟩ := ih (h.kept state first result next hstate hcall)
      rw [callAll_cons_of_some hcall]
      refine ⟨?_, hkept⟩
      rw [hrecorded, h.recorded state first result next hstate hcall, List.append_assoc,
        List.singleton_append]

theorem callAll_eq (h : Keeps call results P answer) {state : σ} (hstate : P state)
    (calls : List γ) :
    (callAll call state calls).1.map some = (calls.map answer).takeWhile (·.isSome) := by
  induction calls generalizing state with
  | nil => rfl
  | cons first rest ih =>
    have hreturned := h.returned state first hstate
    cases hcall : call state first with
    | none =>
      rw [hcall] at hreturned
      rw [callAll_cons_of_none hcall, List.map_cons, ← hreturned]
      rfl
    | some made =>
      obtain ⟨result, next⟩ := made
      rw [hcall] at hreturned
      rw [callAll_cons_of_some hcall, List.map_cons, List.map_cons, ← hreturned,
        ih (h.kept state first result next hstate hcall)]
      rfl

theorem length_callAll (h : Keeps call results P answer) {state : σ} (hstate : P state)
    {calls : List γ} (hreturn : ∀ c ∈ calls, answer c ≠ none) :
    (callAll call state calls).1.length = calls.length := by
  have hall : (calls.map answer).takeWhile (·.isSome) = calls.map answer := by
    refine List.takeWhile_eq_self_iff.2 ?_
    intro found hfound
    obtain ⟨c, hc, rfl⟩ := List.mem_map.1 hfound
    exact Option.isSome_iff_ne_none.2 (hreturn c hc)
  have hlength := congrArg List.length (callAll_eq h hstate calls)
  rwa [hall, List.length_map, List.length_map] at hlength

/-- Further calls leave the records of the calls so far where they are. -/
theorem prefix_callAll_append (h : Keeps call results P answer) {state : σ} (hstate : P state)
    (calls later : List γ) :
    results (callAll call state calls).2 <+: results (callAll call state (calls ++ later)).2 := by
  induction calls generalizing state with
  | nil =>
    rw [List.nil_append, (records_callAll h hstate later).1]
    exact List.prefix_append _ _
  | cons first rest ih =>
    rw [List.cons_append]
    cases hcall : call state first with
    | none =>
      have hsame : callAll call state (first :: (rest ++ later)) = callAll call state (first :: rest) := by
        rw [callAll_cons_of_none hcall, callAll_cons_of_none hcall]
      exact hsame ▸ List.prefix_rfl
    | some made =>
      obtain ⟨result, next⟩ := made
      rw [callAll_cons_of_some hcall, callAll_cons_of_some hcall]
      exact ih (h.kept state first result next hstate hcall)

theorem Keeps.faithful (h : Keeps call results P answer) {start : σ} (hstart : P start)
    (hempty : results start = []) {passes : ρ → Bool} {summary : σ → Summary}
    (hsummary : ∀ state, summary state = .of passes (results state)) :
    Faithful start call results passes summary := by
  have hrecorded (calls : List γ) :
      results (callAll call start calls).2 = (callAll call start calls).1 := by
    rw [(records_callAll h hstart calls).1, hempty, List.nil_append]
  have hkept (calls : List γ) : P (callAll call start calls).2 := (records_callAll h hstart calls).2
  have hfirst (c : γ) : (call start c).map (·.1) = answer c := h.returned start c hstart
  refine ⟨?_, hrecorded, ?_, ?_, ?_, prefix_callAll_append h hstart, ?_, ?_, ?_, ?_⟩
  · intro calls c result next hcall
    exact h.recorded _ c result next (hkept calls) hcall
  · intro calls c
    rw [h.returned _ c (hkept calls), hfirst]
  · intro calls
    rw [funext hfirst, callAll_eq h hstart]
  · intro calls hreturn
    rw [hrecorded]
    refine length_callAll h hstart fun c hc hnone => hreturn c hc ?_
    rwa [← hfirst, Option.map_eq_none_iff] at hnone
  · intro calls
    rw [hsummary, hrecorded]
    rfl
  · intro calls
    rw [hsummary, Summary.failed_of, hrecorded]
  · intro calls
    rw [hsummary]
    exact (Summary.total_of passes _).trans (by rw [hrecorded])
  · intro calls
    rw [hsummary, Summary.allPassed_of_iff]

end Calls

/-! ## Events -/

/-- A call on a suite of events: a payload as it was seen, or a case. -/
inductive EventCall where
  | event (channel schema : String) (payload : List UInt8)
  | case (case : EventCase)

namespace EventSuite

/-- Answers a call. -/
def perform (suite : EventSuite) : EventCall → Option (EventResult × EventSuite)
  | .event channel schema payload => suite.validateEvent channel schema payload
  | .case case => suite.runCase case

/-- What a contract has to say to an event. -/
def answerTo (contract : Contract) (channel schema : String) (payload : List UInt8) :
    Option EventResult :=
  (contract.checkEvent channel schema payload).map (outcome channel schema payload)

/-- What a contract has to say to a call. -/
def answer (contract : Contract) : EventCall → Option EventResult
  | .event channel schema payload => answerTo contract channel schema payload
  | .case case => answerTo contract case.channel case.schema (Utf8.encode case.payload.compact)

theorem validateEvent_eq (suite : EventSuite) (channel schema : String) (payload : List UInt8) :
    suite.validateEvent channel schema payload =
      (answerTo suite.contract channel schema payload).map fun result =>
        (result, { suite with results := suite.results ++ [result] }) := by
  rw [validateEvent, answerTo, Option.map_map]
  rfl

theorem perform_eq (suite : EventSuite) (call : EventCall) :
    suite.perform call = (answer suite.contract call).map fun result =>
      (result, { suite with results := suite.results ++ [result] }) := by
  cases call with
  | event channel schema payload => exact validateEvent_eq suite channel schema payload
  | case case => exact validateEvent_eq suite case.channel case.schema _

theorem keeps_perform (contract : Contract) :
    Keeps perform results (·.contract = contract) (answer contract) where
  returned := by
    rintro suite call rfl
    rw [perform_eq, Option.map_map]
    exact Option.map_id'
  recorded := by
    rintro suite call result next rfl h
    rw [perform_eq] at h
    obtain ⟨_, -, heq⟩ := Option.map_eq_some_iff.1 h
    cases heq
    rfl
  kept := by
    rintro suite call result next rfl h
    rw [perform_eq] at h
    obtain ⟨_, -, heq⟩ := Option.map_eq_some_iff.1 h
    cases heq
    rfl

end EventSuite

/-! ## Requests -/

/-- A call on a suite of requests: a case, the base URL it is sent to, and the
service as it is at that time. -/
structure HttpCall where
  base : String
  case : HttpCase
  service : Service

namespace HttpSuite

/-- Answers a call. -/
def perform (suite : HttpSuite) (call : HttpCall) : Option (HttpResult × HttpSuite) :=
  (suite.runCase call.base call.case call.service).1

theorem runCase_eq (suite : HttpSuite) (base : String) (case : HttpCase) (service : Service) :
    suite.runCase base case service =
      ((case.run suite.contract base service).1.map fun result =>
        (result, { suite with results := suite.results ++ [result] }),
        (case.run suite.contract base service).2) :=
  rfl

theorem keeps_perform (contract : Contract) :
    Keeps perform results (·.contract = contract)
      (fun call => (call.case.run contract call.base call.service).1) where
  returned := by
    rintro suite call rfl
    rw [perform, runCase_eq, Option.map_map]
    exact Option.map_id'
  recorded := by
    rintro suite call result next rfl h
    obtain ⟨_, -, heq⟩ := Option.map_eq_some_iff.1 h
    cases heq
    rfl
  kept := by
    rintro suite call result next rfl h
    obtain ⟨_, -, heq⟩ := Option.map_eq_some_iff.1 h
    cases heq
    rfl

end HttpSuite

end ApiContract
