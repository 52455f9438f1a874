import ApiContract.Proofs.Settings.Layers
import ApiContract.Proofs.Yaml.Readings
import Mathlib
/-!
# Where resolved settings come from

Each setting has a variable and a field (`Setting`).  Settings that are resolved have the value
of the variable, if there is one, and otherwise that of the field, if the file has it, and
otherwise the standard one (`Setting.Provides`).

The main statement is `resolve_layered`.  It says so of all five settings, that resolved settings
are in order, that resolving them again changes nothing, and that a variable which spells nothing
is a fault.  A variable that is not text counts as none (`resolve_of_strange`).

Which texts of a variable are numbers is said by `Unsigned.read_eq_ok_iff`, and which nodes of
a document are its fields by `Yaml.Document.lookup_fields`.
-/

namespace ApiContract

/-! ## Numbers -/

namespace Unsigned

/-- A text spells a number: decimal digits, possibly behind a plus sign. -/
def Spells (text : String) (n : Nat) : Prop :=
  ∃ digits, (text.toList = digits ∨ text.toList = '+' :: digits) ∧ digits ≠ [] ∧
    (∀ c ∈ digits, Ascii.isDigit c = true) ∧ Ascii.decimalValue digits = n

variable {limit start n : Nat} {digits : List Char} {text : String}

theorem push_eq_ok_iff {c : Char} : push limit start c = .ok n ↔
    Ascii.isDigit c = true ∧ start * 10 + (c.toNat - '0'.toNat) = n ∧ n < limit := by
  rw [push]
  by_cases hdigit : Ascii.isDigit c = true
  · by_cases hlt : start * 10 + (c.toNat - '0'.toNat) < limit
    · simp only [hdigit, Bool.not_true, Bool.false_eq_true, if_false, if_pos hlt, Except.ok.injEq,
        true_and]
      constructor
      · intro heq
        exact ⟨heq, heq ▸ hlt⟩
      · exact And.left
    · simp only [hdigit, Bool.not_true, Bool.false_eq_true, if_false, if_neg hlt, true_and]
      constructor
      · intro heq
        cases heq
      · rintro ⟨heq, hn⟩
        exact absurd (heq ▸ hn) hlt
  · simp [hdigit]

/-- The number read so far never gets smaller. -/
theorem le_foldl (digits : List Char) (start : Nat) :
    start ≤ digits.foldl (fun n c => n * 10 + (c.toNat - '0'.toNat)) start := by
  induction digits generalizing start with
  | nil => exact Nat.le_refl start
  | cons c digits ih =>
    have hnext := ih (start * 10 + (c.toNat - '0'.toNat))
    rw [List.foldl_cons]
    omega

theorem foldlM_push_iff (hstart : start < limit) : digits.foldlM (push limit) start = .ok n ↔
    (∀ c ∈ digits, Ascii.isDigit c = true) ∧
      digits.foldl (fun n c => n * 10 + (c.toNat - '0'.toNat)) start = n ∧ n < limit := by
  induction digits generalizing start with
  | nil =>
    rw [List.foldlM_nil, pure_eq_ok, List.foldl_nil]
    constructor
    · intro heq
      exact ⟨by simp, heq, heq ▸ hstart⟩
    · exact fun h => h.2.1
  | cons c digits ih =>
    rw [List.foldlM_cons, bind_eq_ok, List.forall_mem_cons, List.foldl_cons]
    constructor
    · rintro ⟨next, hpush, hrest⟩
      obtain ⟨hdigit, rfl, hlt⟩ := push_eq_ok_iff.1 hpush
      have hdigits := (ih hlt).1 hrest
      exact ⟨⟨hdigit, hdigits.1⟩, hdigits.2⟩
    · rintro ⟨⟨hdigit, hdigits⟩, hvalue, hlt⟩
      have hnext : start * 10 + (c.toNat - '0'.toNat) < limit := by
        have hle := le_foldl digits (start * 10 + (c.toNat - '0'.toNat))
        omega
      exact ⟨_, push_eq_ok_iff.2 ⟨hdigit, rfl, hnext⟩, (ih hnext).2 ⟨hdigits, hvalue, hlt⟩⟩

/-- The numbers that are read are those that are spelled and below the limit. -/
theorem read_eq_ok_iff (hlimit : 0 < limit) :
    read limit text = .ok n ↔ Spells text n ∧ n < limit := by
  have hplus : Ascii.isDigit '+' = false := by decide
  have hvalue (digits : List Char) (hne : digits ≠ []) :
      digits.foldlM (push limit) 0 = .ok n ↔ (digits ≠ [] ∧
        (∀ c ∈ digits, Ascii.isDigit c = true) ∧ Ascii.decimalValue digits = n) ∧ n < limit := by
    rw [foldlM_push_iff hlimit, Ascii.decimalValue]
    simp only [hne, ne_eq, not_false_eq_true, true_and, and_assoc]
  rw [read]
  split
  · next hnil =>
    simp [Spells, hnil]
  · next hsign =>
    simp [Spells, hsign, hplus]
  · next digits hne hsign =>
    rw [hvalue digits hne]
    refine and_congr_left fun _ => ?_
    constructor
    · intro h
      exact ⟨digits, .inr hsign, h⟩
    · rintro ⟨spelled, hspelled | hspelled, hrest⟩
      · have hsigned := hrest.2.1 '+' (by simp [← hspelled, hsign])
        rw [hplus] at hsigned
        cases hsigned
      · rw [hsign, List.cons.injEq] at hspelled
        exact hspelled.2 ▸ hrest
  · next hnil hplain hsigned =>
    rw [hvalue text.toList hnil]
    refine and_congr_left fun _ => ?_
    constructor
    · intro h
      exact ⟨text.toList, .inl rfl, h⟩
    · rintro ⟨spelled, hspelled | hspelled, hrest⟩
      · exact hspelled ▸ hrest
      · exact absurd hspelled (hsigned spelled)

end Unsigned

/-! ## Settings -/

open Yaml (Document Node Resolving)

/-- One of the settings: its variable and what texts of it spell, its field and how that is
read, and its standard value. -/
structure Setting (α : Type) where
  variableName : String
  Spells : String → α → Prop
  fieldName : String
  read : Document → Node → Resolving α
  standard : α

/-- The text spells a truth value, whatever the case of its letters and the blanks around it. -/
def SpellsTruth (text : String) (truth : Bool) : Prop :=
  String.ofList ((Blank.trim text).toList.map Char.toLower) ∈
    if truth then ["true", "1", "yes"] else ["false", "0", "no"]

namespace Setting

/-- A text that may be missing. -/
def text (variableName fieldName : String) : Setting (Option String) where
  variableName := variableName
  Spells := fun text value => value = some text
  fieldName := fieldName
  read := fun document => document.optional document.text
  standard := none

/-- Whether formats count. -/
def formats : Setting Bool where
  variableName := "SYNAPSE_VALIDATE_FORMATS"
  Spells := SpellsTruth
  fieldName := "validate_formats"
  read := Document.boolean
  standard := false

/-- The seconds to wait. -/
def timeout : Setting Nat where
  variableName := "SYNAPSE_HTTP_TIMEOUT_SECS"
  Spells := fun text seconds => Unsigned.Spells text seconds ∧ seconds < Unsigned.limit 64
  fieldName := "http_timeout_secs"
  read := fun document => document.natural (Unsigned.limit 64)
  standard := 30

variable {α : Type} {files : FileTree} {path : Option String} {environment : Settings.Environment}

/-- There is a file, it is not blank, and the node is this field of its document. -/
def Declares (files : FileTree) (path : Option String) (setting : Setting α) (document : Document)
    (node : Node) : Prop :=
  ∃ file text, path = some file ∧ files.readText file = .ok text ∧
    (Blank.trim text).isEmpty = false ∧ Document.ofText text = .ok document ∧
    document.HasField document.rootNode setting.fieldName node

/-- The value of a setting before the variables are applied: that of its field, or the standard
one if there is no such field. -/
inductive Declared (files : FileTree) (path : Option String) (setting : Setting α) : α → Prop
  | field {document : Document} {node : Node} {value : α}
    (hfield : setting.Declares files path document node)
    (hread : (setting.read document node).Gives value) : Declared files path setting value
  | standard (hnone : ∀ document node, ¬ setting.Declares files path document node) :
    Declared files path setting setting.standard

/-- The value of a setting: what its variable spells, if there is one, and otherwise what is
declared. -/
inductive Provides (files : FileTree) (path : Option String) (environment : Settings.Environment)
    (setting : Setting α) : α → Prop
  | spelled {text : String} {value : α}
    (hvariable : environment.text? setting.variableName = some text)
    (hspells : setting.Spells text value) : Provides files path environment setting value
  | declared {value : α} (hvariable : environment.text? setting.variableName = none)
    (hdeclared : setting.Declared files path value) : Provides files path environment setting value

variable {setting : Setting α} {base value : α}

theorem provides_of_elim (read : String → Except SettingsFault α)
    (hbase : setting.Declared files path base)
    (hread : ∀ text value, read text = .ok value → setting.Spells text value)
    (h : (environment.text? setting.variableName).elim (.ok base) read = .ok value) :
    setting.Provides files path environment value := by
  cases hvariable : environment.text? setting.variableName with
  | none =>
    rw [hvariable, Option.elim_none, Except.ok.injEq] at h
    exact .declared hvariable (h ▸ hbase)
  | some text =>
    rw [hvariable, Option.elim_some] at h
    exact .spelled hvariable (hread text value h)

theorem provides_of_or {variableName fieldName : String} {base : Option String}
    (hbase : (Setting.text variableName fieldName).Declared files path base) :
    (Setting.text variableName fieldName).Provides files path environment
      ((environment.text? variableName).or base) := by
  refine provides_of_elim (fun text => .ok (some text)) hbase ?_ ?_
  · intro text value h
    cases h
    rfl
  · show (environment.text? variableName).elim _ _ = _
    cases environment.text? variableName <;> rfl

theorem declared_of_orElse (setting : Setting α) {document : Document} {file text : String}
    {closed : Bool} {fields : List (String × Node)} (hread : files.readText file = .ok text)
    (hblank : (Blank.trim text).isEmpty = false) (hdocument : Document.ofText text = .ok document)
    (hfields : (document.fields Settings.fieldNames closed document.rootNode).Gives fields)
    (hname : setting.fieldName ∈ Settings.fieldNames)
    (h : (Document.orElse fields setting.fieldName setting.standard
      (setting.read document)).Gives value) : setting.Declared files (some file) value := by
  rcases Document.gives_orElse h with ⟨node, hlookup, hvalue⟩ | ⟨hlookup, rfl⟩
  · have hfield := (Document.lookup_fields hfields hname).1 hlookup
    exact .field ⟨file, text, rfl, hread, hblank, hdocument, hfield⟩ hvalue
  · apply Declared.standard
    rintro other node ⟨_, _, hpath, hread', -, hdocument', hfield⟩
    cases hpath
    rw [hread] at hread'
    cases hread'
    rw [hdocument] at hdocument'
    cases hdocument'
    rw [(Document.lookup_fields hfields hname).2 hfield] at hlookup
    cases hlookup

/-- A blank file declares nothing, and neither does no file. -/
theorem declared_standard (setting : Setting α)
    (h : ∀ file text, path = some file → files.readText file = .ok text →
      (Blank.trim text).isEmpty = true) : setting.Declared files path setting.standard := by
  apply Declared.standard
  rintro document node ⟨file, text, hpath, hread, hblank, -⟩
  rw [h file text hpath hread] at hblank
  cases hblank

end Setting

namespace Settings

variable {files : FileTree} {path : Option String} {environment : Environment}
  {base settings : Settings}

/-- The settings before the variables are applied. -/
structure Declared (files : FileTree) (path : Option String) (settings : Settings) : Prop where
  openapiSpec : (Setting.text "SYNAPSE_OPENAPI_SPEC" "openapi_spec").Declared files path
    settings.openapiSpec
  asyncapiSpec : (Setting.text "SYNAPSE_ASYNCAPI_SPEC" "asyncapi_spec").Declared files path
    settings.asyncapiSpec
  baseUrl : (Setting.text "SYNAPSE_BASE_URL" "base_url").Declared files path settings.baseUrl
  validateFormats : Setting.formats.Declared files path settings.validateFormats
  timeoutSeconds : Setting.timeout.Declared files path settings.timeoutSeconds

/-- Each setting comes from its own variable, its own field, or is standard. -/
structure Layered (files : FileTree) (path : Option String) (environment : Environment)
    (settings : Settings) : Prop where
  openapiSpec : (Setting.text "SYNAPSE_OPENAPI_SPEC" "openapi_spec").Provides files path environment
    settings.openapiSpec
  asyncapiSpec : (Setting.text "SYNAPSE_ASYNCAPI_SPEC" "asyncapi_spec").Provides files path
    environment settings.asyncapiSpec
  baseUrl : (Setting.text "SYNAPSE_BASE_URL" "base_url").Provides files path environment
    settings.baseUrl
  validateFormats : Setting.formats.Provides files path environment settings.validateFormats
  timeoutSeconds : Setting.timeout.Provides files path environment settings.timeoutSeconds

theorem declared_of_standard (h : ∀ file text, path = some file → files.readText file = .ok text →
    (Blank.trim text).isEmpty = true) : Declared files path standard where
  openapiSpec := Setting.declared_standard (.text _ _) h
  asyncapiSpec := Setting.declared_standard (.text _ _) h
  baseUrl := Setting.declared_standard (.text _ _) h
  validateFormats := Setting.declared_standard .formats h
  timeoutSeconds := Setting.declared_standard .timeout h

theorem declared_of_ofNode {file text : String} {document : Document}
    (hread : files.readText file = .ok text) (hblank : (Blank.trim text).isEmpty = false)
    (hdocument : Document.ofText text = .ok document)
    (h : (ofNode document document.rootNode).Gives settings) :
    Declared files (some file) settings := by
  obtain ⟨fields, hfields, h⟩ := Resolving.gives_bind h
  obtain ⟨openapiSpec, hopenapi, h⟩ := Resolving.gives_bind h
  obtain ⟨asyncapiSpec, hasyncapi, h⟩ := Resolving.gives_bind h
  obtain ⟨baseUrl, hbase, h⟩ := Resolving.gives_bind h
  obtain ⟨validateFormats, hformats, h⟩ := Resolving.gives_bind h
  obtain ⟨timeoutSeconds, htimeout, h⟩ := Resolving.gives_bind h
  rw [Resolving.gives_pure] at h
  subst h
  exact {
    openapiSpec := Setting.declared_of_orElse (.text _ "openapi_spec")
      hread hblank hdocument hfields (by decide) hopenapi
    asyncapiSpec := Setting.declared_of_orElse (.text _ "asyncapi_spec")
      hread hblank hdocument hfields (by decide) hasyncapi
    baseUrl := Setting.declared_of_orElse (.text _ "base_url")
      hread hblank hdocument hfields (by decide) hbase
    validateFormats := Setting.declared_of_orElse .formats
      hread hblank hdocument hfields (by decide) hformats
    timeoutSeconds := Setting.declared_of_orElse .timeout
      hread hblank hdocument hfields (by decide) htimeout }

/-! ## Files -/

theorem checked_eq_ok_iff : base.checked = .ok settings ↔ base.fault? = none ∧ base = settings := by
  rw [checked]
  cases base.fault? <;> simp

/-- The settings of the file, if there is one, before the variables are applied. -/
def fromFile (files : FileTree) (path : Option String) : Except SettingsFault Settings :=
  path.elim (.ok standard) (ofFile files)

theorem resolve_eq (files : FileTree) (path : Option String) (environment : Environment) :
    resolve files path environment =
      fromFile files path >>= fun base => base.withEnvironment environment := by
  cases path <;> rfl

/-- The settings of a file are declared in it and in order. -/
theorem declared_of_fromFile (h : fromFile files path = .ok base) :
    Declared files path base ∧ base.fault? = none := by
  cases path with
  | none =>
    cases h
    refine ⟨declared_of_standard ?_, rfl⟩
    intro file text hpath
    cases hpath
  | some file =>
    rw [fromFile, Option.elim_some, ofFile] at h
    split at h
    · next text hread =>
      rw [ofText] at h
      by_cases hblank : (Blank.trim text).isEmpty = true
      · rw [if_pos hblank] at h
        cases h
        refine ⟨declared_of_standard ?_, rfl⟩
        intro other text' hpath hread'
        cases hpath
        rw [hread] at hread'
        cases hread'
        exact hblank
      · rw [if_neg hblank] at h
        split at h
        · next found hdecoded =>
          obtain ⟨hfault, rfl⟩ := checked_eq_ok_iff.1 h
          obtain ⟨document, hdocument, hrun⟩ := bind_eq_ok.1 hdecoded
          have hblank' : (Blank.trim text).isEmpty = false := by simpa using hblank
          exact ⟨declared_of_ofNode hread hblank' hdocument (Resolving.gives_of_run hrun), hfault⟩
        · cases h
    · cases h

/-! ## Variables -/

theorem truthOf?_eq_some_iff {text : String} {truth : Bool} :
    truthOf? text = some truth ↔ SpellsTruth text truth := by
  rw [truthOf?, SpellsTruth]
  cases truth with
  | false =>
    simp only [Bool.false_eq_true, if_false, List.contains_iff_mem]
    constructor
    · intro h
      split_ifs at h with htrue hfalse
      · cases h
      · exact hfalse
    · intro h
      have htrue : String.ofList ((Blank.trim text).toList.map Char.toLower) ∉
          ["true", "1", "yes"] := by
        intro htrue
        simp only [List.mem_cons, List.not_mem_nil, or_false] at h htrue
        rcases h with h | h | h <;> simp [h] at htrue
      rw [if_neg htrue, if_pos h]
  | true =>
    simp only [if_true, List.contains_iff_mem]
    constructor
    · intro h
      split_ifs at h with htrue hfalse
      · exact htrue
      · cases h
    · intro h
      rw [if_pos h]

theorem spellsTruth_of_formatsIn {text : String} {truth : Bool} (h : formatsIn text = .ok truth) :
    SpellsTruth text truth := by
  rw [formatsIn] at h
  split at h
  · next found hfound =>
    cases h
    exact truthOf?_eq_some_iff.1 hfound
  · cases h

theorem spells_of_timeoutIn {text : String} {seconds : Nat} (h : timeoutIn text = .ok seconds) :
    Unsigned.Spells text seconds ∧ seconds < Unsigned.limit 64 := by
  rw [timeoutIn] at h
  split at h
  · next found hfound =>
    cases h
    exact (Unsigned.read_eq_ok_iff (by decide)).1 hfound
  · cases h

theorem withEnvironment_eq_ok_iff : base.withEnvironment environment = .ok settings ↔
    ∃ formats seconds,
      (environment.text? "SYNAPSE_VALIDATE_FORMATS").elim (.ok base.validateFormats) formatsIn =
        .ok formats ∧
      (environment.text? "SYNAPSE_HTTP_TIMEOUT_SECS").elim (.ok base.timeoutSeconds) timeoutIn =
        .ok seconds ∧
      (base.overlaid environment formats seconds).fault? = none ∧
      base.overlaid environment formats seconds = settings := by
  rw [withEnvironment_eq, bind_eq_ok]
  refine exists_congr fun formats => ?_
  rw [bind_eq_ok, ← exists_and_left]
  refine exists_congr fun seconds => ?_
  rw [checked_eq_ok_iff]

theorem layered_of_declared (hbase : Declared files path base)
    (h : base.withEnvironment environment = .ok settings) :
    Layered files path environment settings := by
  obtain ⟨formats, seconds, hformats, hseconds, -, rfl⟩ := withEnvironment_eq_ok_iff.1 h
  exact {
    openapiSpec := Setting.provides_of_or hbase.openapiSpec
    asyncapiSpec := Setting.provides_of_or hbase.asyncapiSpec
    baseUrl := Setting.provides_of_or hbase.baseUrl
    validateFormats := Setting.provides_of_elim formatsIn hbase.validateFormats
      (fun _ _ => spellsTruth_of_formatsIn) hformats
    timeoutSeconds := Setting.provides_of_elim timeoutIn hbase.timeoutSeconds
      (fun _ _ => spells_of_timeoutIn) hseconds }

/-- The seconds to wait fit in 64 bits, wherever they come from. -/
theorem Layered.timeoutSeconds_lt (h : Layered files path environment settings) :
    settings.timeoutSeconds < 2 ^ 64 := by
  cases h.timeoutSeconds with
  | spelled _ hspells => exact hspells.2
  | declared _ hdeclared =>
    revert hdeclared
    generalize settings.timeoutSeconds = seconds
    intro hdeclared
    cases hdeclared with
    | field _ hread => exact Document.lt_of_natural hread
    | standard => decide

/-- The variables are there already in settings that they were applied to. -/
theorem withEnvironment_withEnvironment (h : base.withEnvironment environment = .ok settings) :
    settings.withEnvironment environment = .ok settings := by
  have hagain {α : Type} {found : Option String} {a b : α} {read : String → Except SettingsFault α}
      (h : found.elim (.ok a) read = .ok b) : found.elim (.ok b) read = .ok b := by
    cases found with
    | none => rfl
    | some text => exact h
  have hor (found declared : Option String) : found.or (found.or declared) = found.or declared := by
    cases found <;> rfl
  obtain ⟨formats, seconds, hformats, hseconds, hfault, rfl⟩ := withEnvironment_eq_ok_iff.1 h
  have hsame : (base.overlaid environment formats seconds).overlaid environment formats seconds =
      base.overlaid environment formats seconds := by
    simp only [overlaid, hor]
  rw [withEnvironment_eq_ok_iff]
  exact ⟨formats, seconds, hagain hformats, hagain hseconds, hsame.symm ▸ hfault, hsame⟩

theorem formatsIn_of_misspelt {text : String} (h : ∀ truth, ¬ SpellsTruth text truth) :
    ∃ reason, formatsIn text =
      .error (.invalidVariable "SYNAPSE_VALIDATE_FORMATS" text reason) := by
  rw [formatsIn]
  cases htruth : truthOf? text with
  | none => exact ⟨_, rfl⟩
  | some truth => exact absurd (truthOf?_eq_some_iff.1 htruth) (h truth)

theorem timeoutIn_of_misspelt {text : String}
    (h : ∀ seconds, Unsigned.Spells text seconds → 2 ^ 64 ≤ seconds) :
    ∃ reason, timeoutIn text =
      .error (.invalidVariable "SYNAPSE_HTTP_TIMEOUT_SECS" text reason) := by
  rw [timeoutIn]
  cases hread : Unsigned.read (Unsigned.limit 64) text with
  | error fault => exact ⟨_, rfl⟩
  | ok seconds =>
    have hspells := (Unsigned.read_eq_ok_iff (by decide)).1 hread
    have hlarge := h seconds hspells.1
    exact absurd hspells.2 (Nat.not_lt.2 hlarge)

/-- A variable of the environment spells no value of its setting. -/
def Misspelt (environment : Environment) : Prop :=
  (∃ text, environment.text? "SYNAPSE_VALIDATE_FORMATS" = some text ∧
    ∀ truth, ¬ SpellsTruth text truth) ∨
  ∃ text, environment.text? "SYNAPSE_HTTP_TIMEOUT_SECS" = some text ∧
    ∀ seconds, Unsigned.Spells text seconds → 2 ^ 64 ≤ seconds

/-- Then applying the variables fails, with a fault that names one of them and quotes it. -/
theorem withEnvironment_of_misspelt (h : Misspelt environment) (base : Settings) :
    ∃ name text reason, environment.text? name = some text ∧
      base.withEnvironment environment = .error (.invalidVariable name text reason) := by
  rw [withEnvironment_eq]
  rcases h with ⟨text, hvariable, hnone⟩ | ⟨text, hvariable, hnone⟩
  · obtain ⟨reason, hformats⟩ := formatsIn_of_misspelt hnone
    refine ⟨_, text, reason, hvariable, ?_⟩
    rw [hvariable, Option.elim_some, hformats]
    rfl
  · obtain ⟨reason, hseconds⟩ := timeoutIn_of_misspelt hnone
    rw [hvariable, Option.elim_some, hseconds]
    cases hother : environment.text? "SYNAPSE_VALIDATE_FORMATS" with
    | none => exact ⟨_, text, reason, hvariable, rfl⟩
    | some other =>
      by_cases hspelled : ∃ truth, formatsIn other = .ok truth
      · obtain ⟨truth, htruth⟩ := hspelled
        refine ⟨_, text, reason, hvariable, ?_⟩
        rw [Option.elim_some, htruth]
        rfl
      · have hmisspelt : ∀ truth, ¬ SpellsTruth other truth := by
          intro truth hspells
          apply hspelled
          rw [formatsIn, truthOf?_eq_some_iff.2 hspells]
          exact ⟨truth, rfl⟩
        obtain ⟨reason', hformats⟩ := formatsIn_of_misspelt hmisspelt
        refine ⟨_, other, reason', hother, ?_⟩
        rw [Option.elim_some, hformats]
        rfl

/-! ## Resolved settings -/

/-- Resolved settings are in order, and each has the value of the highest layer that has one.
They are found if the file is in order and the variables are valid, and not if one of these
spells nothing. -/
theorem resolve_layered (files : FileTree) (path : Option String) (environment : Environment) :
    (∀ settings, resolve files path environment = .ok settings →
      Layered files path environment settings ∧
      (∀ url, settings.baseUrl = some url → ∃ parsed, Url.ofText url = .ok parsed) ∧
      1 ≤ settings.timeoutSeconds ∧ settings.timeoutSeconds < 2 ^ 64 ∧
      settings.withEnvironment environment = .ok settings) ∧
    (Misspelt environment → ∃ fault, resolve files path environment = .error fault ∧
      ∀ base, fromFile files path = .ok base →
        ∃ name text reason, environment.text? name = some text ∧
          fault = .invalidVariable name text reason) ∧
    (∀ base, fromFile files path = .ok base → environment.Valid →
      ∃ settings, resolve files path environment = .ok settings) := by
  rw [resolve_eq]
  refine ⟨?_, ?_, ?_⟩
  · intro settings h
    obtain ⟨base, hbase, hsettings⟩ := bind_eq_ok.1 h
    have hlayered := layered_of_declared (declared_of_fromFile hbase).1 hsettings
    have hagain := withEnvironment_withEnvironment hsettings
    have hfault : settings.fault? = none := by
      obtain ⟨_, _, -, -, hfault, rfl⟩ := withEnvironment_eq_ok_iff.1 hsettings
      exact hfault
    obtain ⟨hurl, hseconds⟩ := fault?_eq_none_iff.1 hfault
    exact ⟨hlayered, hurl, Nat.one_le_iff_ne_zero.2 hseconds, hlayered.timeoutSeconds_lt, hagain⟩
  · intro hmisspelt
    cases hbase : fromFile files path with
    | error fault =>
      refine ⟨fault, rfl, ?_⟩
      intro base heq
      cases heq
    | ok base =>
      obtain ⟨name, text, reason, hvariable, herror⟩ := withEnvironment_of_misspelt hmisspelt base
      exact ⟨_, herror, fun _ _ => ⟨name, text, reason, hvariable, rfl⟩⟩
  · intro base hbase hvalid
    rw [hbase]
    exact exists_withEnvironment hvalid (declared_of_fromFile hbase).2

/-- A file with three of the settings. -/
def localFile : FileTree :=
  oneFile "base_url: http://localhost:8080\nhttp_timeout_secs: 5\nvalidate_formats: false\n"

/-- Variables for three of the settings, two of which the file has. -/
def staging : Environment :=
  [("SYNAPSE_BASE_URL", .text "http://staging:9000"), ("SYNAPSE_OPENAPI_SPEC", .text "o.yaml"),
    ("SYNAPSE_VALIDATE_FORMATS", .text " Yes\t")]

/-- The settings of the file with these variables. -/
def stagingSettings : Settings := ⟨some "o.yaml", none, some "http://staging:9000", true, 5⟩

theorem resolve_staging : resolve localFile (some "c.yaml") staging = .ok stagingSettings ∧
    Layered localFile (some "c.yaml") staging stagingSettings ∧
    stagingSettings.withEnvironment staging = .ok stagingSettings ∧
    ∃ fault, resolve localFile (some "c.yaml") [("SYNAPSE_HTTP_TIMEOUT_SECS", .text "+")] =
      .error fault := by
  have hresolved : resolve localFile (some "c.yaml") staging = .ok stagingSettings := by
    decide +kernel
  have hlayered := (resolve_layered localFile (some "c.yaml") staging).1 stagingSettings hresolved
  have hmisspelt : Misspelt [("SYNAPSE_HTTP_TIMEOUT_SECS", .text "+")] := by
    refine .inr ⟨"+", by decide +kernel, ?_⟩
    rintro seconds ⟨digits, hdigits, hne, hall, -⟩
    have hplus : digits = ['+'] := by
      rcases hdigits with hdigits | hdigits
      · exact hdigits.symm
      · exact absurd (List.cons.inj hdigits).2.symm hne
    have hdigit := hall '+' (by simp [hplus])
    exact absurd hdigit (by decide)
  obtain ⟨fault, hfault, -⟩ :=
    (resolve_layered localFile (some "c.yaml") [("SYNAPSE_HTTP_TIMEOUT_SECS", .text "+")]).2.1 hmisspelt
  exact ⟨hresolved, hlayered.1, hlayered.2.2.2.2, fault, hfault⟩

/-- An environment whose time to wait is not text. -/
def strange : Environment :=
  [("SYNAPSE_HTTP_TIMEOUT_SECS", .other [0xff] (by decide +kernel))]

/-- A variable that is set but not text leaves the old value where it was, and a word counts
as a truth value that the fault for other words does not name. -/
theorem resolve_of_strange :
    (strange.get? "SYNAPSE_HTTP_TIMEOUT_SECS").isSome = true ∧
      resolve (oneFile "http_timeout_secs: 5\n") (some "c.yaml") strange =
        .ok { standard with timeoutSeconds := 5 } ∧
      resolve (oneFile "") none [("SYNAPSE_VALIDATE_FORMATS", .text "yes")] =
        .ok { standard with validateFormats := true } ∧
      resolve (oneFile "") none [("SYNAPSE_VALIDATE_FORMATS", .text "on")] =
        .error (.invalidVariable "SYNAPSE_VALIDATE_FORMATS" "on" "expected true, false, 1 or 0") := by
  decide +kernel

end Settings

end ApiContract
