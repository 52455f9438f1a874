import ApiContract.Proofs.Outcome
import ApiContract.Settings.Sources
import Mathlib.Tactic.Common
/-!
# Layers of settings

The variables of an environment replace what a file declares.  Settings that agree wherever
there is no variable become the same settings (`withEnvironment_congr`).

A file is also checked by itself, before the variables are applied.  So a setting that a
variable replaces can still be at fault.  If the variables are in order, two files that agree
lead to the same outcome exactly if they have the same fault (`resolve_of_agreeing`).
-/

namespace ApiContract.Settings

/-! ## Faults of settings -/

theorem fault?_eq_none_iff {settings : Settings} : settings.fault? = none ↔
    (∀ url, settings.baseUrl = some url → ∃ parsed, Url.ofText url = .ok parsed) ∧
      settings.timeoutSeconds ≠ 0 := by
  have htimeout : fault?.timeoutFault? settings = none ↔ settings.timeoutSeconds ≠ 0 := by
    rw [fault?.timeoutFault?]
    split <;> simp_all
  rw [fault?]
  cases hbase : settings.baseUrl with
  | none => simpa using htimeout
  | some url =>
    cases hurl : Url.ofText url with
    | error fault => simp [hurl]
    | ok parsed => simpa [hurl] using htimeout

theorem checked_of_fault?_eq_none {settings : Settings} (h : settings.fault? = none) :
    settings.checked = .ok settings := by
  rw [checked, h]

/-! ## Settings in files -/

/-- The settings that a text declares, which may be at fault. -/
def declared (text : String) : Except Yaml.Fault Settings :=
  if (Blank.trim text).isEmpty then .ok standard else Yaml.Document.decode ofNode text

/-- There is such a file, and its text declares the settings. -/
def Gives (files : FileTree) (path : String) (settings : Settings) : Prop :=
  ∃ text, files.readText path = .ok text ∧ declared text = .ok settings

/-- Settings in a file are checked by themselves. -/
theorem ofFile_of_gives {files : FileTree} {path : String} {settings : Settings}
    (h : Gives files path settings) : ofFile files path = settings.checked := by
  obtain ⟨text, hread, hdeclared⟩ := h
  rw [ofFile, hread]
  show ofText path text = settings.checked
  rw [declared] at hdeclared
  rw [ofText]
  by_cases hblank : (Blank.trim text).isEmpty = true
  · rw [if_pos hblank] at hdeclared ⊢
    cases hdeclared
    rfl
  · rw [if_neg hblank] at hdeclared ⊢
    rw [hdeclared]

theorem resolve_of_gives {files : FileTree} {path : String} {settings : Settings}
    (h : Gives files path settings) (environment : Environment) :
    resolve files (some path) environment = match settings.fault? with
      | some fault => .error fault
      | none => settings.withEnvironment environment := by
  rw [resolve, ofFile_of_gives h, checked]
  cases settings.fault? <;> rfl

/-! ## Variables -/

/-- The truth value that the variable for `validateFormats` spells. -/
def formatsIn (value : String) : Except SettingsFault Bool :=
  match truthOf? value with
  | some truth => .ok truth
  | none => .error (.invalidVariable "SYNAPSE_VALIDATE_FORMATS" value "expected true, false, 1 or 0")

/-- The number that the variable for `timeoutSeconds` spells. -/
def timeoutIn (value : String) : Except SettingsFault Nat :=
  match Unsigned.read (Unsigned.limit 64) value with
  | .ok seconds => .ok seconds
  | .error fault => .error (.invalidVariable "SYNAPSE_HTTP_TIMEOUT_SECS" value fault.message)

/-- The settings with what the variables spell in their places. -/
def overlaid (settings : Settings) (environment : Environment) (formats : Bool) (seconds : Nat) :
    Settings where
  openapiSpec := (environment.text? "SYNAPSE_OPENAPI_SPEC").or settings.openapiSpec
  asyncapiSpec := (environment.text? "SYNAPSE_ASYNCAPI_SPEC").or settings.asyncapiSpec
  baseUrl := (environment.text? "SYNAPSE_BASE_URL").or settings.baseUrl
  validateFormats := formats
  timeoutSeconds := seconds

/-- Each setting is that of its variable, if there is one, and otherwise that of the file. -/
theorem withEnvironment_eq (settings : Settings) (environment : Environment) :
    settings.withEnvironment environment = (do
      let formats ← (environment.text? "SYNAPSE_VALIDATE_FORMATS").elim
        (.ok settings.validateFormats) formatsIn
      let seconds ← (environment.text? "SYNAPSE_HTTP_TIMEOUT_SECS").elim
        (.ok settings.timeoutSeconds) timeoutIn
      (settings.overlaid environment formats seconds).checked) := by
  have hformats (settings : Settings) (found : Option String) :
      settings.withFormats found = do
        let formats ← found.elim (.ok settings.validateFormats) formatsIn
        return { settings with validateFormats := formats } := by
    cases found with
    | none => rfl
    | some value =>
      rw [withFormats, Option.elim_some, formatsIn]
      cases truthOf? value <;> rfl
  have htimeout (settings : Settings) (found : Option String) :
      settings.withTimeout found = do
        let seconds ← found.elim (.ok settings.timeoutSeconds) timeoutIn
        return { settings with timeoutSeconds := seconds } := by
    cases found with
    | none => rfl
    | some value =>
      rw [withTimeout, Option.elim_some, timeoutIn]
      cases Unsigned.read (Unsigned.limit 64) value <;> rfl
  rw [withEnvironment, hformats]
  simp only [htimeout, bind_assoc, pure_bind, overlaid]

namespace Environment

variable {environment : Environment} {settings other : Settings}

/-- The settings are the same, except for those that have a variable which is text. -/
structure AgreeBeyond (environment : Environment) (settings other : Settings) : Prop where
  openapiSpec : environment.text? "SYNAPSE_OPENAPI_SPEC" = none →
    settings.openapiSpec = other.openapiSpec
  asyncapiSpec : environment.text? "SYNAPSE_ASYNCAPI_SPEC" = none →
    settings.asyncapiSpec = other.asyncapiSpec
  baseUrl : environment.text? "SYNAPSE_BASE_URL" = none → settings.baseUrl = other.baseUrl
  validateFormats : environment.text? "SYNAPSE_VALIDATE_FORMATS" = none →
    settings.validateFormats = other.validateFormats
  timeoutSeconds : environment.text? "SYNAPSE_HTTP_TIMEOUT_SECS" = none →
    settings.timeoutSeconds = other.timeoutSeconds

/-- Each variable that is text spells a setting that is not at fault. -/
structure Valid (environment : Environment) : Prop where
  baseUrl : ∀ url, environment.text? "SYNAPSE_BASE_URL" = some url →
    ∃ parsed, Url.ofText url = .ok parsed
  validateFormats : ∀ value, environment.text? "SYNAPSE_VALIDATE_FORMATS" = some value →
    ∃ truth, formatsIn value = .ok truth
  timeoutSeconds : ∀ value, environment.text? "SYNAPSE_HTTP_TIMEOUT_SECS" = some value →
    ∃ seconds, timeoutIn value = .ok seconds ∧ seconds ≠ 0

end Environment

variable {environment : Environment} {settings other : Settings}

/-- Variables hide all that settings may differ in. -/
theorem withEnvironment_congr (h : environment.AgreeBeyond settings other) :
    settings.withEnvironment environment = other.withEnvironment environment := by
  have hor {α : Type} {found a b : Option α} (heq : found = none → a = b) :
      found.or a = found.or b := by
    cases found with
    | none => simpa using heq rfl
    | some value => rfl
  have helim {α : Type} {found : Option String} {a b : α}
      {read : String → Except SettingsFault α} (heq : found = none → a = b) :
      found.elim (.ok a) read = found.elim (.ok b) read := by
    cases found with
    | none => rw [heq rfl]
    | some value => rfl
  simp only [withEnvironment_eq, overlaid, helim h.validateFormats, helim h.timeoutSeconds,
    hor h.openapiSpec, hor h.asyncapiSpec, hor h.baseUrl]

/-- Variables that spell settings keep settings in order. -/
theorem exists_withEnvironment (hvalid : environment.Valid) (h : settings.fault? = none) :
    ∃ resolved, settings.withEnvironment environment = .ok resolved := by
  obtain ⟨hbase, hseconds⟩ := fault?_eq_none_iff.1 h
  have hformats : ∃ formats, (environment.text? "SYNAPSE_VALIDATE_FORMATS").elim
      (.ok settings.validateFormats) formatsIn = .ok formats := by
    cases hvariable : environment.text? "SYNAPSE_VALIDATE_FORMATS" with
    | none => exact ⟨settings.validateFormats, rfl⟩
    | some value => simpa only [Option.elim_some] using hvalid.validateFormats value hvariable
  have htimeout : ∃ seconds, (environment.text? "SYNAPSE_HTTP_TIMEOUT_SECS").elim
      (.ok settings.timeoutSeconds) timeoutIn = .ok seconds ∧ seconds ≠ 0 := by
    cases hvariable : environment.text? "SYNAPSE_HTTP_TIMEOUT_SECS" with
    | none => exact ⟨settings.timeoutSeconds, rfl, hseconds⟩
    | some value => simpa only [Option.elim_some] using hvalid.timeoutSeconds value hvariable
  have hurl : ∀ url, (environment.text? "SYNAPSE_BASE_URL").or settings.baseUrl = some url →
      ∃ parsed, Url.ofText url = .ok parsed := by
    cases hvariable : environment.text? "SYNAPSE_BASE_URL" with
    | none => simpa using hbase
    | some value => simpa using hvalid.baseUrl value hvariable
  obtain ⟨formats, hformats⟩ := hformats
  obtain ⟨seconds, htimeout, hpositive⟩ := htimeout
  refine ⟨settings.overlaid environment formats seconds, ?_⟩
  rw [withEnvironment_eq, hformats, htimeout]
  exact checked_of_fault?_eq_none (fault?_eq_none_iff.2 ⟨hurl, hpositive⟩)

/-! ## Two files -/

/-- Two files that agree on all settings without a variable lead to the same outcome if
neither is at fault by itself.  If the variables are in order, they do so exactly if they have
the same fault or none. -/
theorem resolve_of_agreeing {files others : FileTree} {path otherPath : String}
    (hfile : Gives files path settings) (hother : Gives others otherPath other)
    (hagree : environment.AgreeBeyond settings other) :
    (settings.fault? = none → other.fault? = none →
      resolve files (some path) environment = resolve others (some otherPath) environment) ∧
    (environment.Valid →
      (resolve files (some path) environment = resolve others (some otherPath) environment ↔
        settings.fault? = other.fault?)) := by
  have hsame := withEnvironment_congr hagree
  rw [resolve_of_gives hfile, resolve_of_gives hother]
  cases hfault : settings.fault? with
  | none =>
    cases hfault' : other.fault? with
    | none => simp [hsame]
    | some fault =>
      refine ⟨by simp, ?_⟩
      intro hvalid
      obtain ⟨resolved, hresolved⟩ := exists_withEnvironment hvalid hfault
      simp [hresolved]
  | some fault =>
    cases hfault' : other.fault? with
    | none =>
      refine ⟨by simp, ?_⟩
      intro hvalid
      obtain ⟨resolved, hresolved⟩ := exists_withEnvironment hvalid hfault'
      simp [hresolved]
    | some fault' => simp

/-- A directory with one file in it, `c.yaml`. -/
def oneFile (text : String) : FileTree := ⟨[([.text "c.yaml"], .file (Utf8.encode text))], []⟩

/-- An environment that gives the time to wait. -/
def nineSeconds : Environment := [("SYNAPSE_HTTP_TIMEOUT_SECS", .text "9")]

theorem valid_nineSeconds : nineSeconds.Valid where
  baseUrl := by
    intro url hurl
    cases hurl
  validateFormats := by
    intro value hvalue
    cases hvalue
  timeoutSeconds := by
    intro value hvalue
    cases hvalue
    exact ⟨9, by decide +kernel, by decide⟩

/-- Settings that differ in the time to wait agree beyond an environment that gives it. -/
theorem agreeBeyond_nineSeconds (settings : Settings) (seconds : Nat) :
    nineSeconds.AgreeBeyond settings { settings with timeoutSeconds := seconds } where
  openapiSpec := fun _ => rfl
  asyncapiSpec := fun _ => rfl
  baseUrl := fun _ => rfl
  validateFormats := fun _ => rfl
  timeoutSeconds := by
    intro hnone
    cases hnone

theorem gives_timed : Gives (oneFile "http_timeout_secs: 5\n") "c.yaml"
    { standard with timeoutSeconds := 5 } :=
  ⟨"http_timeout_secs: 5\n", by decide +kernel, by decide +kernel⟩

theorem gives_untimed : Gives (oneFile "http_timeout_secs: 0\n") "c.yaml"
    { standard with timeoutSeconds := 0 } :=
  ⟨"http_timeout_secs: 0\n", by decide +kernel, by decide +kernel⟩

theorem gives_blank : Gives (oneFile "\n") "c.yaml" standard :=
  ⟨"\n", by decide +kernel, by decide +kernel⟩

theorem resolve_of_timed : resolve (oneFile "\n") (some "c.yaml") nineSeconds =
      resolve (oneFile "http_timeout_secs: 5\n") (some "c.yaml") nineSeconds ∧
    resolve (oneFile "\n") (some "c.yaml") nineSeconds ≠
      resolve (oneFile "http_timeout_secs: 0\n") (some "c.yaml") nineSeconds := by
  have htimed := resolve_of_agreeing gives_blank gives_timed (agreeBeyond_nineSeconds standard 5)
  have huntimed := resolve_of_agreeing gives_blank gives_untimed (agreeBeyond_nineSeconds standard 0)
  constructor
  · exact htimed.1 rfl rfl
  · intro hsame
    have hfault := (huntimed.2 valid_nineSeconds).1 hsame
    cases hfault

/-- A file without time to wait is refused, whatever time the environment gives. -/
theorem resolve_of_untimed : nineSeconds.Valid ∧
    nineSeconds.AgreeBeyond standard { standard with timeoutSeconds := 0 } ∧
      Gives (oneFile "\n") "c.yaml" standard ∧
      Gives (oneFile "http_timeout_secs: 0\n") "c.yaml" { standard with timeoutSeconds := 0 } ∧
      resolve (oneFile "\n") (some "c.yaml") nineSeconds =
        .ok { standard with timeoutSeconds := 9 } ∧
      resolve (oneFile "http_timeout_secs: 0\n") (some "c.yaml") nineSeconds =
        .error .zeroTimeout :=
  ⟨valid_nineSeconds, agreeBeyond_nineSeconds standard 0, gives_blank, gives_untimed,
    by decide +kernel, by decide +kernel⟩

end ApiContract.Settings
