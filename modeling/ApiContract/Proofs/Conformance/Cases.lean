import ApiContract.Conformance.CaseReading
import ApiContract.Conformance.Http
import ApiContract.Proofs.Json.RoundTrip
/-!
# Cases that are written and read back

A case is written as a value and read from it field by field.  A field that a case does not
have is left out, and null stands for a field that is not there.  So a body that is null is
written, but it is read as none (`HttpCase.ofJson_toJson`).  All other cases are read back as
themselves (`cases_read_back`).

The texts of cases whose numbers are integers are read as the values that were written, unless
a body or a payload is nested too deep (`HttpCase.read_toJson`, `EventCase.read_toJson`).
-/

namespace ApiContract

open Entries

namespace CaseReading

theorem status_toNat (n : UInt16) : status (.integer n.toNat) = .ok n := by
  have hlt : n.toNat < Unsigned.limit 16 := n.toNat_lt
  simp [status, Json.integer, hlt]

/-- Of all values only null is read as none. -/
theorem bind_optionalValue (body : Option Json) :
    body.bind optionalValue = body.filter (!·.isNull) := by
  cases body with
  | none => rfl
  | some body => cases body <;> rfl

theorem mapM_optionalText (schema : Option String) :
    (schema.map Json.string).mapM optionalText = .ok (schema.map some) := by
  cases schema <;> rfl

end CaseReading

open CaseReading

namespace HttpCase

/-! ## Values of requests -/

/-- The members of the value of a case. -/
def members (case : HttpCase) : Entries Json :=
  (case.body.map fun body => ("body", body)).toList ++
    [("expected_status", .integer case.expectedStatus.toNat), ("method", .string case.method),
      ("path", .string case.path)] ++
    (case.schema.map fun schema => ("schema", Json.string schema)).toList

theorem toJson_eq (case : HttpCase) : case.toJson = .object case.members := rfl

/-- Each field stands under its own key. -/
theorem get?_members (case : HttpCase) (key : String) : Entries.get? case.members key =
    if key = "body" then case.body
    else if key = "expected_status" then some (.integer case.expectedStatus.toNat)
    else if key = "method" then some (.string case.method)
    else if key = "path" then some (.string case.path)
    else if key = "schema" then case.schema.map Json.string
    else none := by
  obtain ⟨method, path, body, expectedStatus, schema⟩ := case
  cases body with
  | none =>
    by_cases hbody : key = "body"
    · subst hbody
      cases schema <;> rfl
    · cases schema <;> simp [members, get?_cons, hbody]
  | some body => cases schema <;> simp [members, get?_cons]

/-- A case is read back with its body, unless that is null. -/
theorem ofJson_toJson (case : HttpCase) :
    ofJson case.toJson = .ok { case with body := case.body.filter (!·.isNull) } := by
  simp only [toJson_eq, ofJson, ofMembers, get?_members, String.reduceEq, if_true, if_false,
    bind_optionalValue, Option.mapM_some, status_toNat, text, mapM_optionalText]
  cases case.schema <;> rfl

theorem filter_isNull_of_ne {body : Option Json} (h : body ≠ some .null) :
    body.filter (!·.isNull) = body := by
  cases body with
  | none => rfl
  | some body =>
    cases body with
    | null => exact absurd rfl h
    | _ => rfl

end HttpCase

/-! ## Values of events -/

/-- The case of an event is read back as itself, whatever its payload. -/
theorem EventCase.ofJson_toJson (case : EventCase) : EventCase.ofJson case.toJson = .ok case := by
  rfl

/-! ## Texts of cases -/

/-- The value of a status may stand in an object. -/
theorem CaseReading.writable_status (n : UInt16) : Json.Writable (.integer n.toNat) := by
  have hlt : n.toNat < 65536 := n.toNat_lt
  have hlimit : Nat.pow 2 64 = 18446744073709551616 := rfl
  have hmachine : Number.isMachineInteger n.toNat = true := by
    rw [Number.isMachineInteger, hlimit, Bool.and_eq_true, decide_eq_true_eq, decide_eq_true_eq]
    omega
  exact Json.writable_integer hmachine

theorem EventCase.ordered_members (case : EventCase) :
    Entries.Ordered [("channel", Json.string case.channel), ("payload", case.payload),
      ("schema", .string case.schema)] := by
  have hkeys : List.Pairwise (· < ·) ["channel", "payload", "schema"] := by decide
  exact List.pairwise_map.1 hkeys

theorem EventCase.writable_toJson (case : EventCase) (h : case.payload.Writable) :
    case.toJson.Writable := by
  refine Json.writable_object case.ordered_members ?_
  intro key value hmem
  simp only [List.mem_cons, Prod.mk.injEq, List.not_mem_nil, or_false] at hmem
  rcases hmem with ⟨-, rfl⟩ | ⟨-, rfl⟩ | ⟨-, rfl⟩
  · exact Json.writable_string _
  · exact h
  · exact Json.writable_string _

/-- The text of a case is read as the value of the case, unless the payload is nested too deep. -/
theorem EventCase.read_toJson (case : EventCase) (h : case.payload.Writable) :
    Json.read (Utf8.encode case.toJson.compact) = .ok case.toJson ↔ case.payload.nesting ≤ 126 := by
  have hnesting : case.toJson.nesting = case.payload.nesting + 1 := by
    simp [toJson, Json.nesting, Json.nestingOfMembers]
  rw [Json.read_compact_eq_ok_iff (case.writable_toJson h)]
  omega

theorem HttpCase.ordered_members (case : HttpCase) : Entries.Ordered case.members := by
  have hall : List.Pairwise (· < ·) ["body", "expected_status", "method", "path", "schema"] := by
    decide
  have hkeys : case.members.keys.Sublist ["body", "expected_status", "method", "path", "schema"] := by
    obtain ⟨method, path, body, expectedStatus, schema⟩ := case
    cases body <;> cases schema <;> simp [members, keys]
  exact List.pairwise_map.1 (hall.sublist hkeys)

theorem HttpCase.writable_toJson (case : HttpCase)
    (h : ∀ body, case.body = some body → body.Writable) : case.toJson.Writable := by
  refine Json.writable_object case.ordered_members ?_
  intro key value hmem
  have hget := (get?_eq_some_iff case.ordered_members).2 hmem
  rw [get?_members] at hget
  split at hget
  · exact h value hget
  split at hget
  · obtain rfl := Option.some.inj hget
    exact CaseReading.writable_status case.expectedStatus
  split at hget
  · obtain rfl := Option.some.inj hget
    exact Json.writable_string case.method
  split at hget
  · obtain rfl := Option.some.inj hget
    exact Json.writable_string case.path
  split at hget
  · obtain ⟨schema, -, rfl⟩ := Option.map_eq_some_iff.1 hget
    exact Json.writable_string schema
  · cases hget

theorem HttpCase.nesting_toJson (case : HttpCase) :
    case.toJson.nesting = (case.body.map Json.nesting).getD 0 + 1 := by
  obtain ⟨method, path, body, expectedStatus, schema⟩ := case
  cases body <;> cases schema <;>
    simp [toJson_eq, members, Json.nesting, Json.nestingOfMembers, Json.integer]

theorem HttpCase.read_toJson (case : HttpCase)
    (h : ∀ body, case.body = some body → body.Writable) :
    Json.read (Utf8.encode case.toJson.compact) = .ok case.toJson ↔
      ∀ body, case.body = some body → body.nesting ≤ 126 := by
  rw [Json.read_compact_eq_ok_iff (case.writable_toJson h), case.nesting_toJson]
  cases case.body with
  | none => simp
  | some body =>
    simp only [Option.map_some, Option.getD_some, Option.some.injEq, forall_eq']
    omega

/-! ## Reading back -/

/-- A case of a request is read back as itself unless its body is null, which is lost; the case
of an event is always read back as itself.  The text of a case is read as the value of the case
exactly if what the case holds may be nested that deep. -/
theorem cases_read_back (case : HttpCase) (event : EventCase) :
    (HttpCase.ofJson case.toJson = .ok case ↔ case.body ≠ some .null) ∧
      HttpCase.ofJson case.toJson = .ok { case with body := case.body.filter (!·.isNull) } ∧
      EventCase.ofJson event.toJson = .ok event ∧
      ((∀ body, case.body = some body → body.Writable) →
        (Json.read (Utf8.encode case.toJson.compact) = .ok case.toJson ↔
          ∀ body, case.body = some body → body.nesting ≤ 126)) ∧
      (event.payload.Writable →
        (Json.read (Utf8.encode event.toJson.compact) = .ok event.toJson ↔
          event.payload.nesting ≤ 126)) := by
  refine ⟨?_, case.ofJson_toJson, event.ofJson_toJson, case.read_toJson, event.read_toJson⟩
  rw [case.ofJson_toJson, Except.ok.injEq]
  constructor
  · intro hsame hnull
    have hbody : case.body.filter (!·.isNull) = case.body := congrArg HttpCase.body hsame
    rw [hnull] at hbody
    cases hbody
  · intro hbody
    have hkept : case.body.filter (!·.isNull) = case.body := HttpCase.filter_isNull_of_ne hbody
    rw [hkept]

/-- A request and an event that hold the same integer. -/
theorem cases_read_back_of_integers :
    (∀ body, some (Json.integer 5) = some body → body.Writable) ∧
      (Json.integer 5).Writable ∧
      Json.read (Utf8.encode (((HttpCase.get "/x" 200).withBody (.integer 5)).toJson.compact)) =
        .ok ((HttpCase.get "/x" 200).withBody (.integer 5)).toJson ∧
      Json.read (Utf8.encode (EventCase.mk "c" "S" (.integer 5)).toJson.compact) =
        .ok (EventCase.mk "c" "S" (.integer 5)).toJson := by
  have hfive : (Json.integer 5).Writable := Json.writable_integer (by decide)
  have hbody : ∀ body, some (Json.integer 5) = some body → body.Writable := by
    rintro _ ⟨⟩
    exact hfive
  obtain ⟨-, -, -, hrequest, hevent⟩ :=
    cases_read_back ((HttpCase.get "/x" 200).withBody (.integer 5)) ⟨"c", "S", .integer 5⟩
  refine ⟨hbody, hfive, (hrequest hbody).2 ?_, (hevent hfive).2 (by decide)⟩
  rintro _ ⟨⟩
  decide

/-- A request with a body that is null. -/
def nullRequest : HttpCase := ((HttpCase.get "/x" 200).withMethod "POST").withBody .null

/-- The request has a text for its body, and the one that is read back has none. -/
theorem body_of_nullRequest : ∃ again : HttpCase, HttpCase.ofJson nullRequest.toJson = .ok again ∧
    again ≠ nullRequest ∧ nullRequest.bodyText = some "null" ∧ again.bodyText = none ∧
      ¬ ∀ case : HttpCase, HttpCase.ofJson case.toJson = .ok case := by
  have hread : HttpCase.ofJson nullRequest.toJson = .ok ((HttpCase.get "/x" 200).withMethod "POST") :=
    nullRequest.ofJson_toJson
  have hne : (HttpCase.get "/x" 200).withMethod "POST" ≠ nullRequest := by
    intro heq
    have hbody := congrArg HttpCase.body heq
    cases hbody
  refine ⟨_, hread, hne, by decide, rfl, ?_⟩
  intro hall
  have hsame := hall nullRequest
  rw [hread, Except.ok.injEq] at hsame
  exact hne hsame

end ApiContract
