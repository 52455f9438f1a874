import ApiContract.CommandLine.Program
import ApiContract.Proofs.Command.Runs
import ApiContract.Proofs.Files.Tree
/-!
# Exit codes

The commands that try something are trials: payloads in files, the events of a
manifest, or the requests of a manifest.  A trial can proceed if all that it
needs is there, and then it is a list of attempts (`Trial.Proceeds`), of which
each passes or fails.  A schema may be such that judging a value has no end, and
a trial that comes to such an attempt stays there (`Trial.Stalls`).

The main result, `Trial.exitCode_of_attempts`, is that the exit code says which of
these it was: all passed, something failed, or the trial could not proceed.  There
is no exit code if the trial stays at an attempt (`Trial.exitCode_of_circle`).  If it
could proceed, each attempt has its line, and their numbers come at the end.
-/

namespace ApiContract

/-! ## Attempts -/

/-- Something that was tried: what it is called, whether it passed, and if not, what was
wrong with it. -/
structure Attempt where
  subject : String
  passed : Bool
  error : Option String
deriving DecidableEq, Repr

namespace Attempt

/-- The line on an attempt. -/
def line (attempt : Attempt) : String :=
  if attempt.passed then "  PASS: " ++ attempt.subject
  else "  FAIL: " ++ attempt.subject ++ " — " ++ attempt.error.getD "failed"

/-- The attempt at a payload, unless judging it has no end. -/
def ofPayload (contract : Contract) (schema subject : String) (payload : List UInt8) :
    Option Attempt :=
  (contract.validate schema payload).map fun
    | .ok () => ⟨subject, true, none⟩
    | .error rejection => ⟨subject, false, some rejection.message⟩

/-- The attempt at the event of a case. -/
def ofEvent (contract : Contract) (case : EventCase) : Option Attempt :=
  ofPayload contract case.schema (case.channel ++ " " ++ case.schema)
    (Utf8.encode case.payload.compact)

/-- The attempts at the requests of cases, one after the other, unless judging one of the
answers has no end. -/
def ofRequests (contract : Contract) (base : String) (service : Service) :
    List HttpCase → Option (List Attempt)
  | [] => some []
  | case :: cases =>
    match case.run contract base service with
    | (none, _) => none
    | (some result, after) =>
      let subject := case.method ++ " " ++ case.path ++ " (" ++ case.schema.getD "-" ++ ")"
      (ofRequests contract base after cases).map (⟨subject, result.passed, result.error⟩ :: ·)

/-- The last lines: how many attempts passed, and how many did not if there are any. -/
def numberLines (attempts : List Attempt) : List String :=
  ["", toString (attempts.countP passed) ++ "/" ++ toString attempts.length ++ " passed"] ++
    if attempts.all passed then []
    else [toString (attempts.countP fun attempt => !attempt.passed) ++ " case(s) failed."]

/-- All lines on attempts. -/
def lines (attempts : List Attempt) : List String := attempts.map line ++ numberLines attempts

/-- The outcome of attempts. -/
def outcome (attempts : List Attempt) : Outcome :=
  if attempts.all passed then .passed else .failed

/-! ## Numbers -/

/-- The summary of attempts. -/
def summary (attempts : List Attempt) : Summary := .of passed attempts

/-- Results are counted as the attempts that they are the results of. -/
theorem summary_map {ρ : Type} {passes : ρ → Bool} {attempt : ρ → Attempt}
    (h : ∀ result, (attempt result).passed = passes result) (results : List ρ) :
    Summary.of passes results = summary (results.map attempt) := by
  rw [summary, Summary.of, Summary.of, List.countP_map, List.length_map,
    show passed ∘ attempt = passes from funext h]

theorem allPassed_summary (attempts : List Attempt) :
    (summary attempts).allPassed = attempts.all passed := by
  rw [Bool.eq_iff_iff, summary, Summary.allPassed_of_iff, List.all_eq_true]

theorem outcome_summary (attempts : List Attempt) :
    (summary attempts).outcome = outcome attempts := by
  rw [Summary.outcome, allPassed_summary, outcome]

theorem exitCode_eq_zero {attempts : List Attempt} :
    Program.exitCode (outcome attempts) = 0 ↔ ∀ attempt ∈ attempts, attempt.passed = true := by
  rw [← List.all_eq_true, outcome]
  cases attempts.all passed <;> decide

theorem exitCode_eq_one {attempts : List Attempt} :
    Program.exitCode (outcome attempts) = 1 ↔ ∃ attempt ∈ attempts, attempt.passed = false := by
  have hfailed : (∃ attempt ∈ attempts, attempt.passed = false) ↔ attempts.all passed = false := by
    simp only [List.all_eq_false, Bool.not_eq_true]
  rw [hfailed, outcome]
  cases attempts.all passed <;> decide

theorem exitCode_ne_two (attempts : List Attempt) : Program.exitCode (outcome attempts) ≠ 2 := by
  cases outcome attempts <;> decide

theorem linesOf_summary (attempts : List Attempt) :
    linesOf (Run.summaryShown (summary attempts)) = numberLines attempts := by
  have hnumbers : toString (summary attempts).passed ++ "/" ++ toString (summary attempts).total =
      toString (attempts.countP passed) ++ "/" ++ toString attempts.length := by
    rw [summary, Summary.total_of]
    rfl
  have hfailed : (summary attempts).failed = attempts.countP fun attempt => !attempt.passed :=
    Summary.failed_of passed attempts
  have hsome : 0 < (summary attempts).failed ↔ ¬ attempts.all passed = true := by
    rw [← allPassed_summary, Summary.allPassed, decide_eq_true_eq]
    omega
  rw [Run.summaryShown, hnumbers, hfailed, numberLines]
  rw [hfailed] at hsome
  by_cases hall : attempts.all passed = true
  · rw [if_neg (fun hmore => hsome.1 hmore hall), if_pos hall]
    rfl
  · rw [if_pos (hsome.2 hall), if_neg hall]
    rfl

/-! ## What is shown of attempts -/

/-- Results that are shown by a line each are printed as the attempts that they are. -/
theorem linesOf_flatMap {ρ : Type} {shown : ρ → List Shown} {attempt : ρ → Attempt}
    (h : ∀ result, linesOf (shown result) = [(attempt result).line]) (results : List ρ) :
    linesOf (results.flatMap shown) = (results.map attempt).map line := by
  induction results with
  | nil => rfl
  | cons result results ih =>
    rw [List.flatMap_cons, linesOf_append, ih, h]
    rfl

/-- What is printed when all attempts were made. -/
theorem linesOf_after {attempts : List Attempt} {before shown : List Shown}
    (hbefore : linesOf before = []) (hshown : linesOf shown = attempts.map line) :
    linesOf (before ++ (shown ++ Run.summaryShown (summary attempts))) = lines attempts := by
  rw [linesOf_append, linesOf_append, hbefore, hshown, linesOf_summary]
  rfl

/-- Only records are made before the first attempt. -/
theorem linesOf_prepared (records : List LogRecord) (record : LogRecord) :
    linesOf (records.map .record ++ [.record record]) = [] := by
  rw [linesOf_append, linesOf_records, linesOf_record, linesOf_nil, List.append_nil]

/-! ### Payloads -/

/-- The attempt that has a report. -/
def ofReport (subject : String) (report : ValidationReport) : Attempt :=
  ⟨subject, report.passed, report.diagnostic⟩

theorem ofPayload_eq (contract : Contract) (options : ValidateOptions) (subject : String)
    (payload : List UInt8) :
    ofPayload contract options.schema subject payload =
      (Run.reportOn contract options payload).map (ofReport subject) := by
  have hreport (channel : Option String) :
      ofPayload contract options.schema subject payload =
        ((contract.validate options.schema payload).map
          (.of options.schema channel)).map (ofReport subject) := by
    rw [ofPayload, Option.map_map]
    congr 1
    funext judgement
    rcases judgement with _ | _ <;> rfl
  rw [Run.reportOn]
  cases options.channel with
  | none => exact hreport none
  | some channel => exact hreport (some channel)

theorem linesOf_reports {paths : List String} {reports : List ValidationReport} :
    linesOf (List.zipWith Run.payloadShown paths reports) =
      (List.zipWith ofReport paths reports).map line := by
  induction paths generalizing reports with
  | nil => rfl
  | cons path paths ih =>
    cases reports with
    | nil => rfl
    | cons report reports =>
      exact congrArg ((ofReport path report).line :: ·) ih

theorem summary_ofReports {paths : List String} {reports : List ValidationReport}
    (h : paths.length = reports.length) :
    Summary.of ValidationReport.passed reports = summary (List.zipWith ofReport paths reports) := by
  have hreports : reports = (paths.zip reports).map (·.2) := (List.map_snd_zip h.ge).symm
  have hpassed (file : String × ValidationReport) :
      (ofReport file.1 file.2).passed = (ValidationReport.passed ∘ Prod.snd) file := rfl
  have hzip : List.zipWith ofReport paths reports =
      (paths.zip reports).map fun file => ofReport file.1 file.2 := by
    rw [List.zip, List.map_zipWith]
  conv_lhs => rw [hreports]
  rw [hzip, ← summary_map hpassed, Summary.of, Summary.of, List.countP_map, List.length_map]

/-- The attempt at a payload in a file. -/
def IsOfFile (files : FileTree) (contract : Contract) (schema path : String)
    (attempt : Option Attempt) : Prop :=
  ∃ payload, files.read path = .ok payload ∧ ofPayload contract schema path payload = attempt

theorem isOfFile_iff {files : FileTree} {contract : Contract} {options : ValidateOptions}
    {path : String} {attempt : Option Attempt} :
    IsOfFile files contract options.schema path attempt ↔
      ∃ report, Run.ReportOn files contract options path report ∧
        report.map (ofReport path) = attempt := by
  constructor
  · rintro ⟨payload, hread, rfl⟩
    exact ⟨_, ⟨payload, hread, rfl⟩, (ofPayload_eq contract options path payload).symm⟩
  · rintro ⟨_, ⟨payload, hread, rfl⟩, rfl⟩
    exact ⟨payload, hread, ofPayload_eq contract options path payload⟩

theorem isOfFile_none_iff {files : FileTree} {contract : Contract} {options : ValidateOptions}
    {path : String} : IsOfFile files contract options.schema path none ↔
      Run.ReportOn files contract options path none := by
  rw [isOfFile_iff]
  constructor
  · rintro ⟨report, hreport, hnone⟩
    rwa [Option.map_eq_none_iff.1 hnone] at hreport
  · intro hreport
    exact ⟨none, hreport, rfl⟩

/-- Attempts at payloads have a report each. -/
theorem forall₂_isOfFile_iff {files : FileTree} {contract : Contract} {options : ValidateOptions}
    {paths : List String} {attempts : List Attempt} :
    List.Forall₂ (fun path attempt => IsOfFile files contract options.schema path (some attempt))
        paths attempts ↔
      ∃ reports, List.Forall₂ (fun path report =>
          Run.ReportOn files contract options path (some report)) paths reports ∧
        attempts = List.zipWith ofReport paths reports := by
  induction paths generalizing attempts with
  | nil => simp
  | cons path paths ih =>
    simp only [List.forall₂_cons_left_iff, ih]
    constructor
    · rintro ⟨attempt, _, hattempt, ⟨reports, hreports, rfl⟩, rfl⟩
      obtain ⟨found, hfound, hsome⟩ := isOfFile_iff.1 hattempt
      obtain ⟨report, rfl, rfl⟩ := Option.map_eq_some_iff.1 hsome
      exact ⟨report :: reports, ⟨report, reports, hfound, hreports, rfl⟩, rfl⟩
    · rintro ⟨_, ⟨report, reports, hfound, hreports, rfl⟩, rfl⟩
      exact ⟨ofReport path report, _, isOfFile_iff.2 ⟨some report, hfound, rfl⟩,
        ⟨reports, hreports, rfl⟩, rfl⟩

/-! ### Events -/

/-- The attempt that has the result of an event. -/
def ofEventResult (result : EventResult) : Attempt :=
  ⟨result.channel ++ " " ++ result.schema, result.passed, result.error⟩

theorem ofEvent_eq (case : EventCase) (contract : Contract) :
    ofEvent contract case = (EventSuite.answer contract (.case case)).map ofEventResult := by
  show ofPayload _ _ _ _ = (((contract.validate case.schema _).map _).map _).map _
  rw [ofPayload, Option.map_map, Option.map_map]
  congr 1
  funext judgement
  rcases judgement with _ | _ <;> rfl

theorem ofEvent_eq_none_iff {contract : Contract} {case : EventCase} :
    ofEvent contract case = none ↔ EventSuite.answer contract (.case case) = none := by
  rw [ofEvent_eq, Option.map_eq_none_iff]

/-- Attempts at events have a result each. -/
theorem forall₂_ofEvent_iff {contract : Contract} {cases : List EventCase}
    {attempts : List Attempt} :
    List.Forall₂ (fun case attempt => ofEvent contract case = some attempt) cases attempts ↔
      ∃ results, List.Forall₂ (fun case result =>
          EventSuite.answer contract (.case case) = some result) cases results ∧
        attempts = results.map ofEventResult := by
  induction cases generalizing attempts with
  | nil => simp
  | cons case cases ih =>
    simp only [List.forall₂_cons_left_iff, ih, ofEvent_eq case]
    constructor
    · rintro ⟨_, _, hattempt, ⟨results, hresults, rfl⟩, rfl⟩
      obtain ⟨result, hresult, rfl⟩ := Option.map_eq_some_iff.1 hattempt
      exact ⟨result :: results, ⟨result, results, hresult, hresults, rfl⟩, rfl⟩
    · rintro ⟨_, ⟨result, results, hresult, hresults, rfl⟩, rfl⟩
      exact ⟨ofEventResult result, _, Option.map_eq_some_iff.2 ⟨result, hresult, rfl⟩,
        ⟨results, hresults, rfl⟩, rfl⟩

/-! ### Requests -/

/-- The attempt that has the result of a request. -/
def ofResult (result : HttpResult) : Attempt where
  subject := result.method ++ " " ++ result.endpoint ++ " (" ++ result.schema.getD "-" ++ ")"
  passed := result.passed
  error := result.error

theorem subject_ofResult {contract : Contract} {base : String} {service : Service} {case : HttpCase}
    {result : HttpResult} (h : (case.run contract base service).1 = some result) :
    (ofResult result).subject =
      case.method ++ " " ++ case.path ++ " (" ++ case.schema.getD "-" ++ ")" := by
  rw [HttpCase.run] at h
  split at h
  · cases h
    rfl
  · split at h
    · cases h
      rfl
    · obtain ⟨verified, -, rfl⟩ := Option.map_eq_some_iff.1 h
      rcases verified with _ | _ <;> rfl

theorem ofRequests_eq (contract : Contract) (base : String) (service : Service)
    (cases : List HttpCase) :
    ofRequests contract base service cases =
      (Run.exchanges contract base service cases).1.map (·.map ofResult) := by
  induction cases generalizing service with
  | nil => rfl
  | cons case cases ih =>
    rw [ofRequests, Run.exchanges]
    cases hrun : case.run contract base service with
    | mk result after =>
      cases result with
      | none => rfl
      | some result =>
        have hsubject := subject_ofResult (congrArg Prod.fst hrun)
        dsimp only
        rw [ih, ← hsubject, Option.map_map, Option.map_map]
        rfl

end Attempt

/-! ## Trials -/

/-- A command that tries something. -/
inductive Trial where
  | validate (options : ValidateOptions)
  | events (options : EventsOptions)
  | probe (options : ProbeOptions)
deriving DecidableEq, Repr

namespace Trial

/-- The command that a trial is. -/
def command : Trial → Command
  | validate options => .validate options
  | events options => .events options
  | probe options => .probe options

/-- The options and the settings select one specification, of the dialect that is
needed. -/
def Selects (settings : Settings) (dialect : Dialect) (path : String) : Trial → Prop
  | validate options => (options.selection.orConfigured settings).single = .ok (dialect, path)
  | events options => dialect = .asyncapi ∧ options.asyncapi.or settings.asyncapiSpec = some path
  | probe options => dialect = .openapi ∧ options.openapi.or settings.openapiSpec = some path

/-- The contract of the specification that is selected. -/
def Obtains (settings : Settings) (engine : Engine) (files : FileTree) (trial : Trial)
    (contract : Contract) : Prop :=
  ∃ dialect path specification, trial.Selects settings dialect path ∧
    Specification.Loads dialect files path engine specification ∧
    specification.contract = contract

section Trying

variable (settings : Settings) (engine : Engine) (files : FileTree) (service : Service)

/-- A trial has all that it needs, and makes some attempts. -/
inductive Proceeds : Trial → List Attempt → Prop where
  | validate {options : ValidateOptions} {contract : Contract} {attempts : List Attempt}
      (hcontract : Obtains settings engine files (.validate options) contract)
      (hattempts : List.Forall₂ (fun path attempt =>
        Attempt.IsOfFile files contract options.schema path (some attempt)) options.payloads attempts) :
      Proceeds (.validate options) attempts
  | events {options : EventsOptions} {contract : Contract} {text : String} {cases : List EventCase}
      {attempts : List Attempt}
      (hcontract : Obtains settings engine files (.events options) contract)
      (htext : files.readText options.cases = .ok text)
      (hcases : EventCase.manifest text = .ok cases)
      (hreport : ∀ path ∈ options.report, files.Writable path)
      (hattempts : List.Forall₂ (fun case attempt => Attempt.ofEvent contract case = some attempt)
        cases attempts) :
      Proceeds (.events options) attempts
  | probe {options : ProbeOptions} {base : String} {contract : Contract} {text : String}
      {cases : List HttpCase} {attempts : List Attempt}
      (hbase : options.baseUrl.or settings.baseUrl = some base)
      (hcontract : Obtains settings engine files (.probe options) contract)
      (htext : files.readText options.cases = .ok text)
      (hcases : HttpCase.manifest text = .ok cases)
      (hreport : ∀ path ∈ options.report, files.Writable path)
      (hattempts : Attempt.ofRequests contract base service cases = some attempts) :
      Proceeds (.probe options) attempts

/-- A trial has all that it needs to come to something that it judges without an end. -/
inductive Stalls : Trial → Prop where
  | validate {options : ValidateOptions} {contract : Contract} {before after : List String}
      {path : String} (hcontract : Obtains settings engine files (.validate options) contract)
      (hpayloads : options.payloads = before ++ path :: after)
      (hbefore : ∀ earlier ∈ before, ∃ payload, files.read earlier = .ok payload)
      (hpath : Attempt.IsOfFile files contract options.schema path none) :
      Stalls (.validate options)
  | events {options : EventsOptions} {contract : Contract} {text : String} {cases : List EventCase}
      {case : EventCase} (hcontract : Obtains settings engine files (.events options) contract)
      (htext : files.readText options.cases = .ok text)
      (hcases : EventCase.manifest text = .ok cases)
      (hmem : case ∈ cases) (hcase : Attempt.ofEvent contract case = none) :
      Stalls (.events options)
  | probe {options : ProbeOptions} {base : String} {contract : Contract} {text : String}
      {cases : List HttpCase}
      (hbase : options.baseUrl.or settings.baseUrl = some base)
      (hcontract : Obtains settings engine files (.probe options) contract)
      (htext : files.readText options.cases = .ok text)
      (hcases : HttpCase.manifest text = .ok cases)
      (hrequests : Attempt.ofRequests contract base service cases = none) :
      Stalls (.probe options)

end Trying

section Invocations

variable (trial : Trial) (config : Option String) (environment : Settings.Environment)
  (session : Session)

/-- A trial is configured, has all that it needs, and makes some attempts. -/
def Makes (attempts : List Attempt) : Prop :=
  ∃ settings, Settings.resolve session.files config environment = .ok settings ∧
    trial.Proceeds settings ⟨settings.validateFormats, session.schedule⟩ session.files
      session.service attempts

/-- A trial is configured, and stays at something that it judges. -/
def Hangs : Prop :=
  ∃ settings, Settings.resolve session.files config environment = .ok settings ∧
    trial.Stalls settings ⟨settings.validateFormats, session.schedule⟩ session.files session.service

end Invocations

/-! ## Selecting -/

theorem selects_events_iff {options : EventsOptions} {settings : Settings} {path : String} :
    (Selection.orConfigured ⟨none, options.asyncapi.or settings.asyncapiSpec⟩ settings).single =
        .ok (.asyncapi, path) ↔
      options.asyncapi.or settings.asyncapiSpec = some path := by
  cases hselected : options.asyncapi.or settings.asyncapiSpec with
  | some selected =>
    constructor
    · rintro ⟨⟩
      rfl
    · rintro ⟨⟩
      rfl
  | none =>
    have hnone : settings.asyncapiSpec = none := (Option.or_eq_none_iff.1 hselected).2
    have hsingle : (Selection.orConfigured ⟨none, none⟩ settings).single ≠
        .ok (.asyncapi, path) := by
      rw [Selection.orConfigured, hnone]
      cases settings.openapiSpec <;> rintro ⟨⟩
    exact ⟨fun h => (hsingle h).elim, nofun⟩

theorem selects_probe_iff {options : ProbeOptions} {settings : Settings} {path : String} :
    (Selection.orConfigured ⟨options.openapi.or settings.openapiSpec, none⟩ settings).single =
        .ok (.openapi, path) ↔
      options.openapi.or settings.openapiSpec = some path := by
  cases hselected : options.openapi.or settings.openapiSpec with
  | some selected =>
    constructor
    · rintro ⟨⟩
      rfl
    · rintro ⟨⟩
      rfl
  | none =>
    have hnone : settings.openapiSpec = none := (Option.or_eq_none_iff.1 hselected).2
    have hsingle : (Selection.orConfigured ⟨none, none⟩ settings).single ≠
        .ok (.openapi, path) := by
      rw [Selection.orConfigured, hnone]
      cases settings.asyncapiSpec <;> rintro ⟨⟩
    exact ⟨fun h => (hsingle h).elim, nofun⟩

variable {settings : Settings} {engine : Engine} {files : FileTree} {contract : Contract}

theorem obtains_events_iff {options : EventsOptions} :
    Obtains settings engine files (.events options) contract ↔ ∃ dialect path specification,
      (Selection.orConfigured ⟨none, options.asyncapi.or settings.asyncapiSpec⟩ settings).single =
          .ok (dialect, path) ∧
        Specification.Loads dialect files path engine specification ∧
        ¬ specification.dialect ≠ .asyncapi ∧ specification.contract = contract := by
  constructor
  · rintro ⟨_, path, specification, ⟨rfl, hselects⟩, hloads, hcontract⟩
    exact ⟨_, path, specification, selects_events_iff.2 hselects, hloads,
      not_not.2 (Specification.dialect_of_loads hloads), hcontract⟩
  · rintro ⟨dialect, path, specification, hsingle, hloads, hdialect, hcontract⟩
    obtain rfl : dialect = .asyncapi := by
      rw [← Specification.dialect_of_loads hloads]
      exact not_not.1 hdialect
    exact ⟨_, path, specification, ⟨rfl, selects_events_iff.1 hsingle⟩, hloads, hcontract⟩

theorem obtains_probe_iff {options : ProbeOptions} :
    Obtains settings engine files (.probe options) contract ↔ ∃ dialect path specification,
      (Selection.orConfigured ⟨options.openapi.or settings.openapiSpec, none⟩ settings).single =
          .ok (dialect, path) ∧
        Specification.Loads dialect files path engine specification ∧
        ¬ specification.dialect ≠ .openapi ∧ specification.contract = contract := by
  constructor
  · rintro ⟨_, path, specification, ⟨rfl, hselects⟩, hloads, hcontract⟩
    exact ⟨_, path, specification, selects_probe_iff.2 hselects, hloads,
      not_not.2 (Specification.dialect_of_loads hloads), hcontract⟩
  · rintro ⟨dialect, path, specification, hsingle, hloads, hdialect, hcontract⟩
    obtain rfl : dialect = .openapi := by
      rw [← Specification.dialect_of_loads hloads]
      exact not_not.1 hdialect
    exact ⟨_, path, specification, ⟨rfl, selects_probe_iff.1 hsingle⟩, hloads, hcontract⟩

/-! ## Running -/

section Running

variable {session : Session} {stalls : Prop}
  {ended : Outcome → List String → Prop}

theorem meets_validate_iff {options : ValidateOptions} :
    (Command.runValidate options settings).Meets session stalls
        (fun outcome after => ended outcome after.printed) ↔
      Stalls settings ⟨settings.validateFormats, session.schedule⟩ session.files session.service
          (.validate options) ∧ stalls ∨
      ∃ attempts, Proceeds settings ⟨settings.validateFormats, session.schedule⟩ session.files
          session.service (.validate options) attempts ∧
        ended (Attempt.outcome attempts) (session.printed ++ Attempt.lines attempts) := by
  have hended {records : List LogRecord} {paths : List String} {reports : List ValidationReport}
      (h : paths.length = reports.length) :
      ended (Summary.of ValidationReport.passed reports).outcome
          (session.withShown (records.map .record ++ (List.zipWith Run.payloadShown paths reports ++
            Run.summaryShown (Summary.of ValidationReport.passed reports)))).printed ↔
        ended (Attempt.outcome (List.zipWith Attempt.ofReport paths reports))
          (session.printed ++ Attempt.lines (List.zipWith Attempt.ofReport paths reports)) := by
    rw [Attempt.summary_ofReports h, Attempt.outcome_summary, Session.printed_withShown,
      Attempt.linesOf_after (linesOf_records records) Attempt.linesOf_reports]
  unfold Command.runValidate
  simp only [Run.meets_bind, Run.meets_load, Run.meets_validateFiles, Run.meets_printSummary,
    Run.meets_pure, Session.withShown_withShown, Session.withShown_files]
  constructor
  · rintro ⟨dialect, path, specification, hselects, hloads, ⟨⟨before, later, after, hpayloads, hbefore,
      hlater⟩, hstalls⟩ | ⟨reports, hreports, h⟩⟩
    · refine .inl ⟨.validate ⟨dialect, path, specification, hselects, hloads, rfl⟩ hpayloads ?_
        (Attempt.isOfFile_none_iff.2 hlater), hstalls⟩
      intro earlier hearlier
      obtain ⟨_, payload, hread, -⟩ := hbefore earlier hearlier
      exact ⟨payload, hread⟩
    · exact .inr ⟨_, .validate ⟨dialect, path, specification, hselects, hloads, rfl⟩
        (Attempt.forall₂_isOfFile_iff.2 ⟨reports, hreports, rfl⟩),
        (hended hreports.length_eq).1 h⟩
  · rintro (⟨hstalled, hstalls⟩ | ⟨attempts, hproceeds, h⟩)
    · cases hstalled with
      | validate hcontract hpayloads hbefore hpath =>
        obtain ⟨dialect, path, specification, hselects, hloads, rfl⟩ := hcontract
        refine ⟨dialect, path, specification, hselects, hloads,
          .inl ⟨⟨_, _, _, hpayloads, ?_, Attempt.isOfFile_none_iff.1 hpath⟩, hstalls⟩⟩
        intro earlier hearlier
        obtain ⟨payload, hread⟩ := hbefore earlier hearlier
        exact ⟨_, payload, hread, rfl⟩
    · cases hproceeds with
      | validate hcontract hattempts =>
        obtain ⟨dialect, path, specification, hselects, hloads, rfl⟩ := hcontract
        obtain ⟨reports, hreports, rfl⟩ := Attempt.forall₂_isOfFile_iff.1 hattempts
        exact ⟨dialect, path, specification, hselects, hloads,
          .inr ⟨reports, hreports, (hended hreports.length_eq).2 h⟩⟩

theorem meets_events_iff {options : EventsOptions} :
    (Command.runEvents options settings).Meets session stalls
        (fun outcome after => ended outcome after.printed) ↔
      Stalls settings ⟨settings.validateFormats, session.schedule⟩ session.files session.service
          (.events options) ∧ stalls ∨
      ∃ attempts, Proceeds settings ⟨settings.validateFormats, session.schedule⟩ session.files
          session.service (.events options) attempts ∧
        ended (Attempt.outcome attempts) (session.printed ++ Attempt.lines attempts) := by
  have hended {records : List LogRecord} {record : LogRecord} {results : List EventResult}
      {path : Option String} {files : FileTree} :
      ended (Summary.of EventResult.passed results).outcome (Run.reported
          (session.withShown (records.map .record ++ ([.record record] ++
            (results.flatMap Run.eventShown ++
              Run.summaryShown (Summary.of EventResult.passed results))))) path files).printed ↔
        ended (Attempt.outcome (results.map Attempt.ofEventResult))
          (session.printed ++ Attempt.lines (results.map Attempt.ofEventResult)) := by
    have hpassed (result : EventResult) : (Attempt.ofEventResult result).passed = result.passed := rfl
    rw [Run.printed_reported, Attempt.summary_map hpassed, Attempt.outcome_summary,
      ← List.append_assoc, Session.printed_withShown,
      Attempt.linesOf_after (Attempt.linesOf_prepared records record)]
    exact Attempt.linesOf_flatMap (fun _ => rfl) results
  unfold Command.runEvents
  simp only [Run.meets_bind, Run.meets_load, Run.meets_unless, Run.meets_cases, Run.meets_record,
    Run.meets_tryEvents, EventSuite.start, EventSuite.summary, List.nil_append,
    Run.meets_printSummary, Run.meets_report, Run.meets_pure, Session.withShown_withShown,
    Session.withShown_files]
  constructor
  · rintro ⟨dialect, path, specification, hsingle, hloads, hdialect, text, cases, htext, hcases, h⟩
    have hcontract := obtains_events_iff.2
      ⟨dialect, path, specification, hsingle, hloads, hdialect, rfl⟩
    rcases h with ⟨⟨case, hmem, hnone⟩, hstalls⟩ | ⟨results, hresults, files, hwritten, h⟩
    · exact .inl ⟨.events hcontract htext hcases hmem (Attempt.ofEvent_eq_none_iff.2 hnone), hstalls⟩
    · exact .inr ⟨_, .events hcontract htext hcases (FileTree.exists_write_iff.1 ⟨files, hwritten⟩)
        (Attempt.forall₂_ofEvent_iff.2 ⟨results, hresults, rfl⟩), hended.1 h⟩
  · rintro (⟨hstalled, hstalls⟩ | ⟨attempts, hproceeds, h⟩)
    · cases hstalled with
      | events hcontract htext hcases hmem hcase =>
        obtain ⟨dialect, path, specification, hsingle, hloads, hdialect, rfl⟩ :=
          obtains_events_iff.1 hcontract
        exact ⟨dialect, path, specification, hsingle, hloads, hdialect, _, _, htext, hcases,
          .inl ⟨⟨_, hmem, Attempt.ofEvent_eq_none_iff.1 hcase⟩, hstalls⟩⟩
    · cases hproceeds with
      | events hcontract htext hcases hreport hattempts =>
        obtain ⟨dialect, path, specification, hsingle, hloads, hdialect, rfl⟩ :=
          obtains_events_iff.1 hcontract
        obtain ⟨results, hresults, rfl⟩ := Attempt.forall₂_ofEvent_iff.1 hattempts
        obtain ⟨files, hwritten⟩ := FileTree.exists_write_iff.2 hreport
        exact ⟨dialect, path, specification, hsingle, hloads, hdialect, _, _, htext, hcases,
          .inr ⟨results, hresults, files, hwritten, hended.2 h⟩⟩

theorem meets_probe_iff {options : ProbeOptions} :
    (Command.runProbe options settings).Meets session stalls
        (fun outcome after => ended outcome after.printed) ↔
      Stalls settings ⟨settings.validateFormats, session.schedule⟩ session.files session.service
          (.probe options) ∧ stalls ∨
      ∃ attempts, Proceeds settings ⟨settings.validateFormats, session.schedule⟩ session.files
          session.service (.probe options) attempts ∧
        ended (Attempt.outcome attempts) (session.printed ++ Attempt.lines attempts) := by
  have hended {records : List LogRecord} {record : LogRecord} {results : List HttpResult}
      {service : Service} {path : Option String} {files : FileTree} :
      ended (Summary.of HttpResult.passed results).outcome (Run.reported
          (session.exchanged service (records.map .record ++ ([.record record] ++
            (results.flatMap Run.requestShown ++
              Run.summaryShown (Summary.of HttpResult.passed results))))) path files).printed ↔
        ended (Attempt.outcome (results.map Attempt.ofResult))
          (session.printed ++ Attempt.lines (results.map Attempt.ofResult)) := by
    have hpassed (result : HttpResult) : (Attempt.ofResult result).passed = result.passed := rfl
    rw [Run.printed_reported, Attempt.summary_map hpassed, Attempt.outcome_summary,
      ← List.append_assoc, Session.printed_exchanged, Attempt.linesOf_after (Attempt.linesOf_prepared records record)]
    exact Attempt.linesOf_flatMap (fun _ => rfl) results
  unfold Command.runProbe
  cases hbase : options.baseUrl.or settings.baseUrl with
  | none =>
    constructor
    · intro h
      exact (Run.not_meets_throw h).elim
    · rintro (⟨hstalled, -⟩ | ⟨_, hproceeds, -⟩)
      · cases hstalled with
        | probe hsome => cases hbase.symm.trans hsome
      · cases hproceeds with
        | probe hsome => cases hbase.symm.trans hsome
  | some base =>
    simp only [Run.meets_bind, Run.meets_load, Run.meets_unless, Run.meets_cases, Run.meets_record,
      HttpSuite.start, Run.meets_tryRequests, HttpSuite.summary, List.nil_append,
      Run.meets_printSummary, Run.meets_report, Run.meets_pure, Session.exchanged_withShown, Session.withShown_exchanged, Session.withShown_files,
      Session.withShown_service, Session.exchanged_files]
    constructor
    · rintro ⟨dialect, path, specification, hsingle, hloads, hdialect, text, cases, htext, hcases, h⟩
      have hcontract := obtains_probe_iff.2
        ⟨dialect, path, specification, hsingle, hloads, hdialect, rfl⟩
      have hrequests := Attempt.ofRequests_eq specification.contract base session.service cases
      split at h
      · next hnone =>
        rw [hnone] at hrequests
        exact .inl ⟨.probe hbase hcontract htext hcases hrequests, h⟩
      · next hsome =>
        rw [hsome] at hrequests
        obtain ⟨files, hwritten, h⟩ := h
        exact .inr ⟨_, .probe hbase hcontract htext hcases
          (FileTree.exists_write_iff.1 ⟨files, hwritten⟩) hrequests, hended.1 h⟩
    · rintro (⟨hstalled, hstalls⟩ | ⟨attempts, hproceeds, h⟩)
      · cases hstalled with
        | probe hsome hcontract htext hcases hrequests =>
          cases hbase.symm.trans hsome
          obtain ⟨dialect, path, specification, hsingle, hloads, hdialect, rfl⟩ :=
            obtains_probe_iff.1 hcontract
          refine ⟨dialect, path, specification, hsingle, hloads, hdialect, _, _, htext, hcases, ?_⟩
          rw [Attempt.ofRequests_eq, Option.map_eq_none_iff] at hrequests
          split
          · exact hstalls
          · next hsome => cases hrequests.symm.trans (congrArg Prod.fst hsome)
      · cases hproceeds with
        | probe hsome hcontract htext hcases hreport hattempts =>
          cases hbase.symm.trans hsome
          obtain ⟨dialect, path, specification, hsingle, hloads, hdialect, rfl⟩ :=
            obtains_probe_iff.1 hcontract
          refine ⟨dialect, path, specification, hsingle, hloads, hdialect, _, _, htext, hcases, ?_⟩
          rw [Attempt.ofRequests_eq] at hattempts
          obtain ⟨results, hresults, rfl⟩ := Option.map_eq_some_iff.1 hattempts
          split
          · next hnone => cases hresults.symm.trans (congrArg Prod.fst hnone)
          · next hsome =>
            cases hresults.symm.trans (congrArg Prod.fst hsome)
            obtain ⟨files, hwritten⟩ := FileTree.exists_write_iff.2 hreport
            exact ⟨files, hwritten, hended.2 h⟩

/-- A run of a trial that is not cut short stays at something that it judges, or makes
attempts, and they are what it is about. -/
theorem meets_iff (trial : Trial) (settings : Settings) (session : Session) (stalls : Prop)
    (ended : Outcome → List String → Prop) :
    (trial.command.run settings).Meets session stalls
        (fun outcome after => ended outcome after.printed) ↔
      trial.Stalls settings ⟨settings.validateFormats, session.schedule⟩ session.files
          session.service ∧ stalls ∨
      ∃ attempts, trial.Proceeds settings ⟨settings.validateFormats, session.schedule⟩ session.files
          session.service attempts ∧
        ended (Attempt.outcome attempts) (session.printed ++ Attempt.lines attempts) := by
  cases trial with
  | validate options => exact meets_validate_iff
  | events options => exact meets_events_iff
  | probe options => exact meets_probe_iff

end Running

section Invocations

variable {trial : Trial} (verbosity : Nat) {config : Option String}
  {environment : Settings.Environment} {session : Session}

/-- What holds of the code of a run and of what is printed at its end. -/
theorem runInvocation_meets {settings : Settings}
    (hsettings : Settings.resolve session.files config environment = .ok settings) (stalls : Prop)
    (ended : Outcome → List String → Prop)
    (h : trial.Stalls settings ⟨settings.validateFormats, session.schedule⟩ session.files
          session.service ∧ stalls ∨
      ∃ attempts, trial.Proceeds settings ⟨settings.validateFormats, session.schedule⟩ session.files
          session.service attempts ∧
        ended (Attempt.outcome attempts) (session.printed ++ Attempt.lines attempts)) :
    let result := Program.runInvocation ⟨verbosity, config, trial.command⟩ environment session
    result.1 = none ∧ stalls ∨ ∃ outcome, result.1 = some (Program.exitCode outcome) ∧
      ended outcome result.2.printed := by
  let ready := session.withShown
    [.record ⟨.debug, "resolved configuration", [("config", settings.description)]⟩]
  have hready : ready.printed = session.printed :=
    (Session.printed_withShown _ _).trans (List.append_nil _)
  rw [← hready] at h
  have hmeets := (meets_iff trial settings ready stalls ended).2 h
  unfold Run.Meets at hmeets
  rw [Program.runInvocation, hsettings]
  dsimp only
  split at hmeets
  · next hrun =>
    rw [hrun]
    exact .inl ⟨rfl, hmeets⟩
  · exact hmeets.elim
  · next hrun =>
    rw [hrun]
    exact .inr ⟨_, rfl, hmeets⟩

/-- A trial that makes attempts comes to their outcome, and prints their lines. -/
theorem runInvocation_of_makes {attempts : List Attempt}
    (h : trial.Makes config environment session attempts) :
    let result := Program.runInvocation ⟨verbosity, config, trial.command⟩ environment session
    result.1 = some (Program.exitCode (Attempt.outcome attempts)) ∧
      result.2.printed = session.printed ++ Attempt.lines attempts := by
  obtain ⟨settings, hsettings, hproceeds⟩ := h
  obtain ⟨-, hfalse⟩ | ⟨_, hcode, rfl, hprinted⟩ := runInvocation_meets verbosity hsettings False
    (fun outcome printed => outcome = Attempt.outcome attempts ∧
      printed = session.printed ++ Attempt.lines attempts) (.inr ⟨attempts, hproceeds, rfl, rfl⟩)
  · exact hfalse.elim
  · exact ⟨hcode, hprinted⟩

/-- A trial that stays at something that it judges has no exit code. -/
theorem runInvocation_of_hangs (h : trial.Hangs config environment session) :
    (Program.runInvocation ⟨verbosity, config, trial.command⟩ environment session).1 = none := by
  obtain ⟨settings, hsettings, hstalls⟩ := h
  obtain ⟨hnone, -⟩ | ⟨_, -, hfalse⟩ := runInvocation_meets verbosity hsettings True
    (fun _ _ => False) (.inl ⟨hstalls, trivial⟩)
  · exact hnone
  · exact hfalse.elim

/-- A run that is not cut short by an error made attempts, or stays at one. -/
theorem makes_or_hangs_of_runInvocation
    (h : (Program.runInvocation ⟨verbosity, config, trial.command⟩ environment session).1 ≠
      some Program.exitCutShort) :
    (∃ attempts, trial.Makes config environment session attempts) ∨
      trial.Hangs config environment session := by
  rw [Program.runInvocation] at h
  cases hsettings : Settings.resolve session.files config environment with
  | error fault =>
    rw [hsettings] at h
    exact (h rfl).elim
  | ok settings =>
    rw [hsettings] at h
    dsimp only at h
    have hmeets : (trial.command.run settings).Meets (session.withShown
        [.record ⟨.debug, "resolved configuration", [("config", settings.description)]⟩]) True
        (fun _ _ => True) := by
      unfold Run.Meets
      split
      · trivial
      · next hrun =>
        rw [hrun] at h
        exact h rfl
      · trivial
    rcases (meets_iff trial settings _ True fun _ _ => True).1 hmeets with
      ⟨hstalls, -⟩ | ⟨attempts, hproceeds, -⟩
    · exact .inr ⟨settings, hsettings, hstalls⟩
    · exact .inl ⟨attempts, settings, hsettings, hproceeds⟩

/-- There is no exit code exactly if the trial stays at something that it judges. -/
theorem runInvocation_eq_none_iff :
    (Program.runInvocation ⟨verbosity, config, trial.command⟩ environment session).1 = none ↔
      trial.Hangs config environment session := by
  refine ⟨fun h => ?_, runInvocation_of_hangs verbosity⟩
  refine (makes_or_hangs_of_runInvocation verbosity ?_).resolve_left ?_
  · intro hcut
    cases h.symm.trans hcut
  · rintro ⟨attempts, hattempts⟩
    cases h.symm.trans (runInvocation_of_makes verbosity hattempts).1

end Invocations

/-- The exit code is 0 if the trial could proceed and all attempts passed, 1 if it
could proceed and some attempt failed, and 2 otherwise, unless the trial stays at
something that it judges: then there is none.  If it could proceed, there is a line for
each attempt, in order, and then their numbers. -/
theorem exitCode_of_attempts (trial : Trial) (verbosity : Nat) (config : Option String)
    (environment : Settings.Environment) (session : Session) :
    let result := Program.runInvocation ⟨verbosity, config, trial.command⟩ environment session
    (result.1 = some 0 ↔ ∃ attempts, trial.Makes config environment session attempts ∧
        ∀ attempt ∈ attempts, attempt.passed = true) ∧
      (result.1 = some 1 ↔ ∃ attempts, trial.Makes config environment session attempts ∧
        ∃ attempt ∈ attempts, attempt.passed = false) ∧
      (result.1 = none ↔ trial.Hangs config environment session) ∧
      (result.1 = some 2 ↔ ¬ trial.Hangs config environment session ∧
        ¬ ∃ attempts, trial.Makes config environment session attempts) ∧
      ∀ attempts, trial.Makes config environment session attempts →
        result.2.printed = session.printed ++ Attempt.lines attempts := by
  intro result
  have hcode {attempts : List Attempt} (h : trial.Makes config environment session attempts) :
      result.1 = some (Program.exitCode (Attempt.outcome attempts)) :=
    (runInvocation_of_makes verbosity h).1
  have hnone (h : trial.Hangs config environment session) : result.1 = none :=
    runInvocation_of_hangs verbosity h
  have hmakes {code : Nat} (h : result.1 = some code) (hcode : code ≠ 2) :
      ∃ attempts, trial.Makes config environment session attempts := by
    refine (makes_or_hangs_of_runInvocation verbosity ?_).resolve_right ?_
    · intro hcut
      exact hcode (Option.some.inj (h.symm.trans hcut))
    · intro hhangs
      cases h.symm.trans (hnone hhangs)
  refine ⟨?_, ?_, ?_, ?_, ?_⟩
  · constructor
    · intro h
      obtain ⟨attempts, hattempts⟩ := hmakes h (by decide)
      refine ⟨attempts, hattempts, Attempt.exitCode_eq_zero.1 ?_⟩
      exact Option.some.inj ((hcode hattempts).symm.trans h)
    · rintro ⟨attempts, hattempts, hpassed⟩
      rw [hcode hattempts, Attempt.exitCode_eq_zero.2 hpassed]
  · constructor
    · intro h
      obtain ⟨attempts, hattempts⟩ := hmakes h (by decide)
      refine ⟨attempts, hattempts, Attempt.exitCode_eq_one.1 ?_⟩
      exact Option.some.inj ((hcode hattempts).symm.trans h)
    · rintro ⟨attempts, hattempts, hfailed⟩
      rw [hcode hattempts, Attempt.exitCode_eq_one.2 hfailed]
  · exact runInvocation_eq_none_iff verbosity
  · constructor
    · intro h
      constructor
      · intro hhangs
        cases h.symm.trans (hnone hhangs)
      · rintro ⟨attempts, hattempts⟩
        exact Attempt.exitCode_ne_two attempts (Option.some.inj ((hcode hattempts).symm.trans h))
    · rintro ⟨hends, hnothing⟩
      by_contra hcut
      exact (makes_or_hangs_of_runInvocation verbosity hcut).elim hnothing hends
  · intro attempts hattempts
    exact (runInvocation_of_makes verbosity hattempts).2

/-- A session with files in an empty directory, and a service that does not answer. -/
def sessionWith (files : List (String × String)) : Session where
  files := files.foldl (fun tree (name, content) =>
    tree.add [.text name] (.file (Utf8.encode content))) (.empty [])
  service := .answering []
  shown := []
  schedule := fun _ => .asNoted

/-- Two payloads, one of which is no ping. -/
def pings : Session := sessionWith
  [("events.yaml", "components: \x7bschemas: \x7bPing: \x7btype: string\x7d\x7d\x7d"),
    ("first.json", "\"ping\""), ("second.json", "2")]

/-- The trial of the two payloads. -/
def pingTrial : Trial :=
  .validate ⟨⟨none, some "events.yaml"⟩, "Ping", none, ["first.json", "second.json"]⟩

/-- The exit code says that one of the payloads is no ping, and there are lines on both. -/
theorem exitCode_of_pings :
    ∃ attempts, pingTrial.Makes none [] pings attempts ∧
      (∃ attempt ∈ attempts, attempt.passed = false) ∧
      (Program.runInvocation ⟨0, none, pingTrial.command⟩ [] pings).2.printed =
        Attempt.lines attempts := by
  have hcode : (Program.runInvocation ⟨0, none, pingTrial.command⟩ [] pings).1 = some 1 := by
    decide +kernel
  obtain ⟨-, hone, -, -, hprinted⟩ := exitCode_of_attempts pingTrial 0 none [] pings
  obtain ⟨attempts, hmakes, hfailed⟩ := hone.1 hcode
  exact ⟨attempts, hmakes, hfailed, hprinted attempts hmakes⟩

/-- Two schemas that ask for each other, and a payload. -/
def circling : Session := sessionWith
  [("openapi.yaml", "components:\n  schemas:\n" ++
      "    A: \x7ballOf: [\x7b$ref: '#/components/schemas/B'\x7d]\x7d\n" ++
      "    B: \x7ballOf: [\x7b$ref: '#/components/schemas/A'\x7d]\x7d\n"),
    ("payload.json", "null")]

/-- The trial of the payload. -/
def circleTrial : Trial :=
  .validate ⟨⟨some "openapi.yaml", none⟩, "A", none, ["payload.json"]⟩

/-- The trial has all that it needs, and there is no exit code. -/
theorem exitCode_of_circle :
    circling.files.read "payload.json" = .ok (Utf8.encode "null") ∧
      (∃ settings contract, Settings.resolve circling.files none [] = .ok settings ∧
        circleTrial.Obtains settings ⟨settings.validateFormats, circling.schedule⟩ circling.files
          contract) ∧
      (Program.runInvocation ⟨0, none, circleTrial.command⟩ [] circling).1 = none := by
  have hnone : (Program.runInvocation ⟨0, none, circleTrial.command⟩ [] circling).1 = none := by
    decide +kernel
  refine ⟨by decide +kernel, ?_, hnone⟩
  obtain ⟨settings, hsettings, hstalls⟩ := (runInvocation_eq_none_iff 0).1 hnone
  cases hstalls with
  | validate hcontract => exact ⟨settings, _, hsettings, hcontract⟩

end Trial

end ApiContract
