import ApiContract.Command.Commands
import ApiContract.Proofs.Conformance.Records
import ApiContract.Proofs.Outcome
import ApiContract.Proofs.Specification.Outcomes
/-!
# What runs come to

A run that is not cut short comes to a result and leaves a session (`Run.Ends`).
The lemmas say of each step when it does so and with which session, and take
runs of several steps apart.
-/

namespace ApiContract

/-! ## Sessions -/

/-- The lines among what is shown. -/
def linesOf (shown : List Shown) : List String :=
  shown.filterMap fun
    | .line text => some text
    | .record _ => none

@[simp]
theorem linesOf_nil : linesOf [] = [] := rfl

@[simp]
theorem linesOf_line (text : String) (shown : List Shown) :
    linesOf (.line text :: shown) = text :: linesOf shown := rfl

@[simp]
theorem linesOf_record (record : LogRecord) (shown : List Shown) :
    linesOf (.record record :: shown) = linesOf shown := rfl

@[simp]
theorem linesOf_append (before after : List Shown) :
    linesOf (before ++ after) = linesOf before ++ linesOf after := List.filterMap_append

@[simp]
theorem linesOf_records (records : List LogRecord) : linesOf (records.map .record) = [] := by
  induction records with
  | nil => rfl
  | cons record records ih => exact ih

namespace Session

variable (session : Session) (shown more : List Shown)

@[simp]
theorem withShown_files : (session.withShown shown).files = session.files := rfl

@[simp]
theorem withShown_service : (session.withShown shown).service = session.service := rfl

theorem withShown_nil : session.withShown [] = session := by
  rw [withShown, List.append_nil]

theorem withShown_withShown :
    (session.withShown shown).withShown more = session.withShown (shown ++ more) := by
  rw [withShown, withShown, withShown, List.append_assoc]

/-- The session with the service as it is now, and with more shown. -/
def exchanged (session : Session) (service : Service) (shown : List Shown) : Session :=
  { session with service := service, shown := session.shown ++ shown }

@[simp]
theorem exchanged_files (service : Service) :
    (session.exchanged service shown).files = session.files := rfl

@[simp]
theorem exchanged_service (service : Service) :
    (session.exchanged service shown).service = service := rfl

theorem exchanged_nil : session.exchanged session.service [] = session := by
  rw [exchanged, List.append_nil]

theorem exchanged_exchanged (service later : Service) :
    (session.exchanged service shown).exchanged later more =
      session.exchanged later (shown ++ more) := by
  rw [exchanged, exchanged, exchanged, List.append_assoc]

theorem exchanged_withShown (service : Service) :
    (session.withShown shown).exchanged service more = session.exchanged service (shown ++ more) := by
  rw [exchanged, exchanged, withShown, List.append_assoc]

theorem withShown_exchanged (service : Service) :
    (session.exchanged service shown).withShown more = session.exchanged service (shown ++ more) := by
  rw [exchanged, exchanged, withShown, List.append_assoc]

theorem printed_exchanged (service : Service) :
    (session.exchanged service shown).printed = session.printed ++ linesOf shown :=
  List.filterMap_append

theorem printed_withShown : (session.withShown shown).printed = session.printed ++ linesOf shown :=
  List.filterMap_append

end Session

/-! ## Runs -/

namespace Run

variable {α β : Type} {session : Session} {stalls : Prop} {ended : α → Session → Prop}

/-- A run is not cut short, and if it has no end then `stalls` holds, and if it comes to a
result then `ended` holds of it and of the session that is left. -/
def Meets (run : Run α) (session : Session) (stalls : Prop) (ended : α → Session → Prop) : Prop :=
  match run.run.run.run session with
  | (none, _) => stalls
  | (some (.error _), _) => False
  | (some (.ok a), after) => ended a after

theorem meets_bind {run : Run α} {next : α → Run β} {ended : β → Session → Prop} :
    Meets (run >>= next) session stalls ended ↔
      Meets run session stalls fun a between => Meets (next a) between stalls ended := by
  have hbind : (run >>= next).run.run.run session =
      match run.run.run.run session with
      | (none, between) => (none, between)
      | (some (.error fault), between) => (some (.error fault), between)
      | (some (.ok a), between) => (next a).run.run.run between := by
    rw [ExceptT.run_bind, OptionT.run_bind, Option.elimM, StateT.run_bind]
    obtain ⟨result, between⟩ := run.run.run.run session
    rcases result with _ | fault | a <;> rfl
  unfold Meets
  rw [hbind]
  obtain ⟨result, between⟩ := run.run.run.run session
  rcases result with _ | fault | a <;> rfl

@[simp]
theorem meets_pure {a : α} : Meets (pure a) session stalls ended ↔ ended a session := Iff.rfl

@[simp]
theorem not_meets_throw {fault : CommandFault} : ¬ Meets (throw fault) session stalls ended := id

@[simp]
theorem meets_get {ended : Session → Session → Prop} :
    Meets get session stalls ended ↔ ended session session := Iff.rfl

@[simp]
theorem meets_modify {change : Session → Session} {ended : Unit → Session → Prop} :
    Meets (modify change) session stalls ended ↔ ended () (change session) := Iff.rfl

@[simp]
theorem meets_record {record : LogRecord} {ended : Unit → Session → Prop} :
    Meets (Run.record record) session stalls ended ↔
      ended () (session.withShown [.record record]) := Iff.rfl

@[simp]
theorem meets_print {text : String} {ended : Unit → Session → Prop} :
    Meets (print text) session stalls ended ↔ ended () (session.withShown [.line text]) := Iff.rfl

/-- A judgement is waited for, also if it never comes. -/
theorem meets_await {judgement : Option α} :
    Meets (await judgement) session stalls ended ↔
      judgement = none ∧ stalls ∨ ∃ a, judgement = some a ∧ ended a session := by
  cases judgement with
  | none =>
    constructor
    · intro h
      exact .inl ⟨rfl, h⟩
    · rintro (⟨-, h⟩ | ⟨_, ⟨⟩, -⟩)
      exact h
  | some a =>
    constructor
    · intro h
      exact .inr ⟨a, rfl, h⟩
    · rintro (⟨⟨⟩, -⟩ | ⟨_, ⟨⟩, h⟩)
      exact h

/-- Records are made one after the other. -/
theorem meets_forM_record {records : List LogRecord} {ended : Unit → Session → Prop} :
    Meets (records.forM Run.record) session stalls ended ↔
      ended () (session.withShown (records.map .record)) := by
  induction records generalizing session with
  | nil =>
    rw [List.map_nil, Session.withShown_nil]
    exact meets_pure
  | cons record records ih =>
    show Meets (Run.record record >>= fun _ => records.forM Run.record) session stalls ended ↔ _
    rw [meets_bind, meets_record, ih, Session.withShown_withShown]
    rfl

/-- A run that goes on only if nothing forbids it. -/
theorem meets_unless {c : Prop} [Decidable c] {fault : CommandFault} {next : Unit → Run α} :
    Meets (if c then throw fault >>= next else next ()) session stalls ended ↔
      ¬ c ∧ Meets (next ()) session stalls ended := by
  by_cases hc : c
  · rw [if_pos hc, meets_bind]
    exact ⟨fun h => (not_meets_throw h).elim, fun h => (h.1 hc).elim⟩
  · rw [if_neg hc]
    exact ⟨fun h => ⟨hc, h⟩, fun h => h.2⟩

/-! ## Steps of the commands -/

/-- What the summary of results shows. -/
def summaryShown (summary : Summary) : List Shown :=
  [.line "", .line (toString summary.passed ++ "/" ++ toString summary.total ++ " passed")] ++
    if 0 < summary.failed then [.line (toString summary.failed ++ " case(s) failed.")] else []

theorem meets_printSummary {summary : Summary} {ended : Unit → Session → Prop} :
    Meets (printSummary summary) session stalls ended ↔
      ended () (session.withShown (summaryShown summary)) := by
  rw [printSummary, meets_bind, meets_print, meets_bind, meets_print, Session.withShown_withShown,
    summaryShown]
  split
  · rw [meets_print, Session.withShown_withShown]
    rfl
  · rw [meets_pure]
    rfl

end Run

/-! ## Loading -/

namespace Loading

variable {α β : Type} {P : α → Prop}

/-- All that a loading can come to has a property. -/
def Always (loading : Loading α) (P : α → Prop) : Prop :=
  ∀ log a, (StateT.run (ExceptT.run loading) log).1 = .ok a → P a

theorem Always.pure {a : α} (h : P a) : Always (Pure.pure a) P := by
  rintro log _ ⟨⟩
  exact h

theorem Always.bind {loading : Loading β} {next : β → Loading α} (h : ∀ b, (next b).Always P) :
    Always (loading >>= next) P := by
  intro log a
  show (StateT.run (ExceptT.run loading >>= ExceptT.bindCont next) log).1 = _ → _
  rw [StateT.run_bind]
  obtain ⟨result, between⟩ := StateT.run (ExceptT.run loading) log
  cases result with
  | error fault => rintro ⟨⟩
  | ok b => exact h b between a

end Loading

namespace Specification

/-- A specification of a dialect can be loaded from a path. -/
def Loads (dialect : Dialect) (files : FileTree) (path : String) (engine : Engine)
    (specification : Specification) : Prop :=
  ((load dialect files path engine).run.run []).1 = .ok specification

/-- The records that are made when a specification is loaded. -/
def recordsOf (dialect : Dialect) (files : FileTree) (path : String) (engine : Engine) :
    List LogRecord :=
  ((load dialect files path engine).run.run []).2

theorem always_loadEvents (files : FileTree) (path : String) (engine : Engine) :
    (loadEvents files path engine).Always (·.dialect = .asyncapi) := by
  unfold loadEvents
  refine .bind fun document => .bind fun _ => .bind fun channels => .bind fun _ =>
    .bind fun operations => ?_
  cases schemaSection? document with
  | none =>
    exact .bind fun _ => .bind fun registry => .bind fun contract => .bind fun _ => .pure rfl
  | some schemas =>
    exact .bind fun _ => .bind fun registry => .bind fun contract => .bind fun _ => .pure rfl

/-- What is loaded is of the dialect that was asked for. -/
theorem dialect_of_loads {dialect : Dialect} {files : FileTree} {path : String} {engine : Engine}
    {specification : Specification} (h : Loads dialect files path engine specification) :
    specification.dialect = dialect := by
  cases dialect with
  | openapi =>
    have hgiven : specificationOf files path engine (items files path) = .ok specification :=
      (gives_loadRest files path engine []).symm.trans h
    obtain ⟨registry, -, hgiven⟩ := bind_eq_ok.1 hgiven
    obtain ⟨contract, -, hgiven⟩ := bind_eq_ok.1 hgiven
    obtain ⟨document, -, hgiven⟩ := bind_eq_ok.1 hgiven
    rw [← pure_eq_ok.1 hgiven]
  | asyncapi => exact always_loadEvents files path engine [] specification h

end Specification

namespace Run

variable {α : Type} {session : Session} {stalls : Prop}

/-- What was recorded is shown whether loading succeeds or not. -/
theorem meets_loaded {dialect : Dialect} {path : String} {records : List LogRecord}
    {result : Except ContractFault Specification} {ended : Specification → Session → Prop} :
    Meets (do
        records.forM Run.record
        match result with
        | .ok specification => return specification
        | .error fault => throw (.unloadable dialect path fault)) session stalls ended ↔
      ∃ specification, result = .ok specification ∧
        ended specification (session.withShown (records.map .record)) := by
  rw [meets_bind, meets_forM_record]
  cases result with
  | error fault =>
    constructor
    · intro h
      exact (not_meets_throw h).elim
    · rintro ⟨_, ⟨⟩, -⟩
  | ok specification =>
    constructor
    · intro h
      exact ⟨specification, rfl, h⟩
    · rintro ⟨_, ⟨⟩, h⟩
      exact h

theorem meets_load {selection : Selection} {settings : Settings}
    {ended : Specification → Session → Prop} :
    Meets (selection.load settings) session stalls ended ↔
      ∃ dialect path specification,
        (selection.orConfigured settings).single = .ok (dialect, path) ∧
        Specification.Loads dialect session.files path
          ⟨settings.validateFormats, session.schedule⟩ specification ∧
        ended specification (session.withShown ((Specification.recordsOf dialect session.files path
          ⟨settings.validateFormats, session.schedule⟩).map .record)) := by
  unfold Selection.load
  cases hsingle : (selection.orConfigured settings).single with
  | error fault =>
    constructor
    · intro h
      exact (not_meets_throw h).elim
    · rintro ⟨_, _, _, ⟨⟩, -⟩
  | ok one =>
    obtain ⟨dialect, path⟩ := one
    show Meets (get >>= fun now => _) session stalls ended ↔ _
    rw [meets_bind, meets_get]
    refine meets_loaded.trans ?_
    constructor
    · rintro ⟨specification, hloaded, h⟩
      exact ⟨dialect, path, specification, rfl, hloaded, h⟩
    · rintro ⟨_, _, specification, ⟨⟩, hloaded, h⟩
      exact ⟨specification, hloaded, h⟩

/-! ## Manifests and reports -/

theorem meets_cases {read : String → Except Yaml.Fault (List α)} {path : String}
    {ended : List α → Session → Prop} :
    Meets (cases read path) session stalls ended ↔
      ∃ text list, session.files.readText path = .ok text ∧ read text = .ok list ∧
        ended list session := by
  rw [cases, caseText, meets_bind, meets_bind, meets_get]
  cases htext : session.files.readText path with
  | error fault =>
    constructor
    · intro h
      exact (not_meets_throw h).elim
    · rintro ⟨_, _, ⟨⟩, -⟩
  | ok text =>
    rw [meets_pure]
    cases hlist : read text with
    | error fault =>
      constructor
      · intro h
        exact (not_meets_throw h).elim
      · rintro ⟨_, _, ⟨⟩, hread, -⟩
        rw [hlist] at hread
        cases hread
    | ok list =>
      constructor
      · intro h
        exact ⟨text, list, rfl, hlist, h⟩
      · rintro ⟨_, _, ⟨⟩, hread, h⟩
        rw [hlist] at hread
        cases hread
        exact h

/-- The session after a report was written, if one was asked for. -/
def reported (session : Session) (path : Option String) (files : FileTree) : Session :=
  match path with
  | none => session
  | some path =>
    { session with files := files }.withShown [.record ⟨.info, "wrote report", [("path", path)]⟩]

theorem printed_reported (session : Session) (path : Option String) (files : FileTree) :
    (reported session path files).printed = session.printed := by
  cases path with
  | none => rfl
  | some path => exact (Session.printed_withShown _ _).trans (List.append_nil _)

theorem meets_report {path : Option String} {summary : Summary} {results : List Json}
    {ended : Unit → Session → Prop} :
    Meets (report path summary results) session stalls ended ↔
      ∃ files, (∀ place ∈ path, session.files.write place
          (Utf8.encode (reportText summary results)) = .ok files) ∧
        ended () (reported session path files) := by
  cases path with
  | none =>
    constructor
    · intro h
      exact ⟨session.files, (fun _ hplace => by cases hplace), h⟩
    · rintro ⟨_, -, h⟩
      exact h
  | some path =>
    show Meets (get >>= _) session stalls ended ↔ _
    rw [meets_bind, meets_get]
    cases hwritten : session.files.write path (Utf8.encode (reportText summary results)) with
    | error fault =>
      constructor
      · intro h
        exact (not_meets_throw h).elim
      · rintro ⟨_, hwrites, -⟩
        cases hwritten.symm.trans (hwrites path rfl)
    | ok files =>
      rw [meets_bind, meets_modify, meets_record]
      constructor
      · intro h
        refine ⟨files, ?_, h⟩
        rintro _ ⟨⟩
        exact hwritten
      · rintro ⟨_, hwrites, h⟩
        cases hwritten.symm.trans (hwrites path rfl)
        exact h

/-! ## Trying one thing after the other -/

/-- What is shown of an event. -/
def eventShown (result : EventResult) : List Shown :=
  [.record result.record,
    .line (verdictLine (result.channel ++ " " ++ result.schema) result.passed result.error)]

theorem subject_of_answer {contract : Contract} {case : EventCase} {result : EventResult}
    (h : EventSuite.answer contract (.case case) = some result) :
    result.channel = case.channel ∧ result.schema = case.schema := by
  obtain ⟨checked, -, rfl⟩ := Option.map_eq_some_iff.1 h
  exact ⟨rfl, rfl⟩

theorem meets_tryEvent {suite : EventSuite} {case : EventCase}
    {ended : EventSuite → Session → Prop} :
    Meets (Command.tryEvent suite case) session stalls ended ↔
      EventSuite.answer suite.contract (.case case) = none ∧ stalls ∨
      ∃ result, EventSuite.answer suite.contract (.case case) = some result ∧
        ended ⟨suite.contract, suite.results ++ [result]⟩ (session.withShown (eventShown result)) := by
  have hcase : suite.runCase case = (EventSuite.answer suite.contract (.case case)).map fun result =>
      (result, { suite with results := suite.results ++ [result] }) :=
    EventSuite.perform_eq suite (.case case)
  rw [Command.tryEvent, meets_bind, meets_await, hcase]
  cases hanswer : EventSuite.answer suite.contract (.case case) with
  | none => simp
  | some result =>
    obtain ⟨hchannel, hschema⟩ := subject_of_answer hanswer
    simp only [Option.map_some, reduceCtorEq, false_and, false_or, Option.some.injEq,
      exists_eq_left', meets_bind, meets_record, meets_print, meets_pure,
      Session.withShown_withShown, ← hchannel, ← hschema]
    rfl

theorem meets_tryEvents {cases : List EventCase} {suite : EventSuite}
    {ended : EventSuite → Session → Prop} :
    Meets (cases.foldlM Command.tryEvent suite) session stalls ended ↔
      (∃ case ∈ cases, EventSuite.answer suite.contract (.case case) = none) ∧ stalls ∨
      ∃ results, List.Forall₂ (fun case result =>
          EventSuite.answer suite.contract (.case case) = some result) cases results ∧
        ended ⟨suite.contract, suite.results ++ results⟩
          (session.withShown (results.flatMap eventShown)) := by
  induction cases generalizing session suite with
  | nil => simp [Session.withShown_nil]
  | cons case cases ih =>
    rw [List.foldlM_cons, meets_bind, meets_tryEvent]
    simp only [ih, Session.withShown_withShown, List.append_assoc, List.singleton_append]
    constructor
    · rintro (⟨hnone, hstalls⟩ | ⟨result, hresult, ⟨⟨other, hother, hnone⟩, hstalls⟩ |
        ⟨results, hresults, h⟩⟩)
      · exact .inl ⟨⟨case, List.mem_cons_self, hnone⟩, hstalls⟩
      · exact .inl ⟨⟨other, List.mem_cons_of_mem case hother, hnone⟩, hstalls⟩
      · exact .inr ⟨result :: results, .cons hresult hresults, h⟩
    · rintro (⟨⟨other, hother, hnone⟩, hstalls⟩ | ⟨_, hall, h⟩)
      · cases hresult : EventSuite.answer suite.contract (.case case) with
        | none => exact .inl ⟨rfl, hstalls⟩
        | some result =>
          rcases List.mem_cons.1 hother with rfl | hother
          · cases hnone.symm.trans hresult
          · exact .inr ⟨result, rfl, .inl ⟨⟨other, hother, hnone⟩, hstalls⟩⟩
      · cases hall with
        | cons hresult hresults => exact .inr ⟨_, hresult, .inr ⟨_, hresults, h⟩⟩

/-- Sends cases one after the other, up to one that does not return: their results, if all of
them return, and the service after them. -/
def exchanges (contract : Contract) (base : String) (service : Service) :
    List HttpCase → Option (List HttpResult) × Service
  | [] => (some [], service)
  | case :: cases =>
    match case.run contract base service with
    | (none, after) => (none, after)
    | (some result, after) =>
      let (results, last) := exchanges contract base after cases
      (results.map (result :: ·), last)

/-- What is shown of a request. -/
def requestShown (result : HttpResult) : List Shown :=
  [.record result.record,
    .line (verdictLine
      (result.method ++ " " ++ result.endpoint ++ " (" ++ result.schema.getD "-" ++ ")")
      result.passed result.error)]

theorem meets_tryRequest {base : String} {suite : HttpSuite} {case : HttpCase}
    {ended : HttpSuite → Session → Prop} :
    Meets (Command.tryRequest base suite case) session stalls ended ↔
      match case.run suite.contract base session.service with
      | (none, _) => stalls
      | (some result, after) => ended ⟨suite.contract, suite.results ++ [result]⟩
          (session.exchanged after (requestShown result)) := by
  rw [Command.tryRequest, meets_bind, meets_get]
  simp only [HttpSuite.runCase_eq, meets_bind, meets_modify, meets_await]
  obtain ⟨result, after⟩ := case.run suite.contract base session.service
  cases result with
  | none => simp
  | some result =>
    simp only [Option.map_some, reduceCtorEq, false_and, false_or, Option.some.injEq,
      exists_eq_left', meets_record, meets_print, meets_pure, Session.withShown_withShown]
    rfl

theorem meets_tryRequests {base : String} {cases : List HttpCase} {suite : HttpSuite}
    {ended : HttpSuite → Session → Prop} :
    Meets (cases.foldlM (Command.tryRequest base) suite) session stalls ended ↔
      match exchanges suite.contract base session.service cases with
      | (none, _) => stalls
      | (some results, after) => ended ⟨suite.contract, suite.results ++ results⟩
          (session.exchanged after (results.flatMap requestShown)) := by
  induction cases generalizing session suite with
  | nil =>
    show ended suite session ↔ ended ⟨suite.contract, suite.results ++ []⟩ (session.exchanged _ [])
    rw [List.append_nil, Session.exchanged_nil]
  | cons case cases ih =>
    rw [List.foldlM_cons, meets_bind, meets_tryRequest, exchanges]
    obtain ⟨result, after⟩ := case.run suite.contract base session.service
    cases result with
    | none => rfl
    | some result =>
      dsimp only
      rw [ih, Session.exchanged_service]
      obtain ⟨results, last⟩ := exchanges suite.contract base after cases
      cases results with
      | none => rfl
      | some results =>
        simp only [Option.map_some, List.append_assoc, List.singleton_append,
          Session.exchanged_exchanged, List.flatMap_cons]

/-- The report on a payload that is tried. -/
def reportOn (contract : Contract) (options : ValidateOptions) (payload : List UInt8) :
    Option ValidationReport :=
  match options.channel with
  | some channel => contract.checkEvent channel options.schema payload
  | none => contract.check options.schema payload

/-- What is shown of a payload in a file. -/
def payloadShown (path : String) (report : ValidationReport) : Shown :=
  .line (verdictLine path report.passed report.diagnostic)

theorem meets_validateFile {contract : Contract} {options : ValidateOptions} {path : String}
    {ended : ValidationReport → Session → Prop} :
    Meets (Command.validateFile contract options path) session stalls ended ↔
      ∃ payload, session.files.read path = .ok payload ∧
        (reportOn contract options payload = none ∧ stalls ∨
          ∃ report, reportOn contract options payload = some report ∧
            ended report (session.withShown [payloadShown path report])) := by
  rw [Command.validateFile, meets_bind, meets_get]
  cases hread : session.files.read path with
  | error fault =>
    constructor
    · intro h
      exact (not_meets_throw h).elim
    · rintro ⟨_, ⟨⟩, -⟩
  | ok payload =>
    simp only [meets_bind, meets_await, meets_print, meets_pure, Except.ok.injEq, exists_eq_left']
    rfl

/-- The report on the payload in a file. -/
def ReportOn (files : FileTree) (contract : Contract) (options : ValidateOptions) (path : String)
    (report : Option ValidationReport) : Prop :=
  ∃ payload, files.read path = .ok payload ∧ reportOn contract options payload = report

theorem meets_validateFiles {contract : Contract} {options : ValidateOptions}
    {paths : List String} {ended : List ValidationReport → Session → Prop} :
    Meets (paths.mapM (Command.validateFile contract options)) session stalls ended ↔
      (∃ before path after, paths = before ++ path :: after ∧
          (∀ earlier ∈ before, ∃ report, ReportOn session.files contract options earlier report) ∧
          ReportOn session.files contract options path none) ∧ stalls ∨
      ∃ reports, List.Forall₂ (fun path report =>
          ReportOn session.files contract options path (some report)) paths reports ∧
        ended reports (session.withShown (List.zipWith payloadShown paths reports)) := by
  induction paths generalizing session ended with
  | nil => simp [Session.withShown_nil]
  | cons path paths ih =>
    rw [List.mapM_cons, meets_bind, meets_validateFile]
    simp only [meets_bind, meets_pure, ih, Session.withShown_files, Session.withShown_withShown]
    constructor
    · rintro ⟨payload, hread, ⟨hnone, hstalls⟩ | ⟨report, hreport,
        ⟨⟨before, later, after, rfl, hbefore, hlater⟩, hstalls⟩ | ⟨reports, hreports, h⟩⟩⟩
      · exact .inl ⟨⟨[], path, paths, rfl, nofun, payload, hread, hnone⟩, hstalls⟩
      · refine .inl ⟨⟨path :: before, later, after, rfl, ?_, hlater⟩, hstalls⟩
        exact List.forall_mem_cons.2 ⟨⟨_, payload, hread, hreport⟩, hbefore⟩
      · exact .inr ⟨report :: reports, .cons ⟨payload, hread, hreport⟩ hreports, h⟩
    · rintro (⟨⟨before, later, after, heq, hbefore, hlater⟩, hstalls⟩ | ⟨_, hall, h⟩)
      · cases before with
        | nil =>
          cases heq
          obtain ⟨payload, hread, hnone⟩ := hlater
          exact ⟨payload, hread, .inl ⟨hnone, hstalls⟩⟩
        | cons _ before =>
          cases heq
          obtain ⟨⟨report, payload, hread, hreport⟩, hbefore⟩ := List.forall_mem_cons.1 hbefore
          refine ⟨payload, hread, ?_⟩
          cases report with
          | none => exact .inl ⟨hreport, hstalls⟩
          | some report =>
            exact .inr ⟨report, hreport, .inl ⟨⟨before, later, after, rfl, hbefore, hlater⟩, hstalls⟩⟩
      · cases hall with
        | cons hfirst hreports =>
          obtain ⟨payload, hread, hreport⟩ := hfirst
          exact ⟨payload, hread, .inr ⟨_, hreport, .inr ⟨_, hreports, h⟩⟩⟩

end Run

end ApiContract
