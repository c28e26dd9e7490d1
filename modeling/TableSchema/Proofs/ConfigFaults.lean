import TableSchema.CommandLine.Run

/-! # Faults of configurations

Every configuration that cannot be loaded is answered for, as a missing file or a wrong value,
except for a file that cannot be opened although it is there, and for a text that is no YAML.
Commands end with a complaint for the former and are cut short by the latter.
-/

namespace TableSchema

open Files

/-! ## Files that are consulted -/

theorem Files.Tree.walk_ne_nameTooLong (tree : Tree) (place : List String) {steps : List String}
    (short : ∀ step ∈ steps, Path.isLongStep step = false) :
    tree.walk place steps ≠ .error .nameTooLong := by
  fun_induction Tree.walk tree place steps with
  | case1 | case4 | case5 | case6 => simp
  | case2 _ step _ _ long =>
      rw [short step (by simp)] at long
      cases long
  | case3 _ step rest _ _ _ _ induction =>
      exact induction fun later member => short later (by simp [member])

theorem Host.exists_holds (host : Host) {path : Path} (fits : path.isTooLong = false)
    (short : ∀ step ∈ path.steps, Path.isLongStep step = false) :
    ∃ answer, host.holds path = .ok answer := by
  have walked := host.files.walk_ne_nameTooLong
    (if path.anchor = .relative then host.directory else []) short
  rw [Host.holds, Tree.holds, Tree.find, fits]
  cases path.holdsNull with
  | true => exact ⟨false, rfl⟩
  | false =>
      simp only [Bool.false_eq_true, if_false]
      cases answer : host.files.walk (if path.anchor = .relative then host.directory else [])
          path.steps with
      | ok place => exact ⟨true, rfl⟩
      | error cause =>
          have other : cause ≠ .nameTooLong := by
            rintro rfl
            exact walked answer
          exact ⟨false, if_neg other⟩

namespace Config

/-- The configuration file that is consulted: the one that is named, or the one that the variable
names, or the one at the default path if there is anything. -/
def consultedFile? (host : Host) (path : Option String) : Option Path :=
  match path.filter (!·.isEmpty) with
  | some path => some (.ofString path)
  | none =>
      match (host.environment.get? defaultVariable).filter (!·.isEmpty) with
      | some path => some (.ofString path)
      | none => if host.holds defaultPath matches .ok true then some defaultPath else none

theorem load_eq (host : Host) (path : Option String) :
    load host path =
      match consultedFile? host path with
      | some file => ofFile host file
      | none => ofEnvironmentSettings host := by
  rw [load, consultedFile?]
  cases path.filter (!·.isEmpty) with
  | some path => rfl
  | none =>
      simp only [ofVariable]
      cases (host.environment.get? defaultVariable).filter (!·.isEmpty) with
      | some path => rfl
      | none =>
          -- Nothing is refused here: the default path is short.
          have fits : defaultPath.isTooLong = false := by decide +kernel
          obtain ⟨answer, holds⟩ := host.exists_holds fits (by decide +kernel)
          rw [holds]
          cases answer <;> rfl

def ofOctets (reader : Data.Yaml.Reader) (file : Path) (octets : List UInt8) :
    Except LoadFault ServiceConfig := do
  let value ← readValue reader octets
  if value.isVacant then .error (.emptyFile file)
  else (validate value).mapError (.invalidFile file)

section Reading

variable {host : Host} {file : Path}

theorem ofFile_of_unfound {fault : FileFault}
    (unfound : host.files.find host.directory file .openFile = .error fault) :
    ofFile host file =
      if fault.cause = .nameTooLong then .error (.unreadableFile fault)
      else .error (.missingFile file) := by
  rw [ofFile, Host.holds, Tree.holds, unfound]
  by_cases long : fault.cause = .nameTooLong
  · simp only [if_pos long]
    rfl
  · simp only [if_neg long]
    rfl

theorem ofFile_of_noFile {place : List String}
    (found : host.files.find host.directory file .openFile = .ok place)
    (other : ∀ octets, host.files.at? place ≠ some (.file octets)) :
    ofFile host file = .error (.unreadableFile ⟨.isDirectory, file⟩) := by
  have unread : host.octets file = .error ⟨.isDirectory, file⟩ := by
    rw [Host.octets, Tree.octets, found]
    cases there : host.files.at? place with
    | none => simp [bind, Except.bind, there]
    | some node =>
        cases node with
        | directory => simp [bind, Except.bind, there]
        | file octets => exact absurd there (other octets)
  rw [ofFile, unread, Host.holds, Tree.holds, found]
  rfl

theorem ofFile_of_octets {place : List String} {octets : List UInt8}
    (found : host.files.find host.directory file .openFile = .ok place)
    (there : host.files.at? place = some (.file octets)) :
    ofFile host file = ofOctets host.yaml file octets := by
  have read : host.octets file = .ok octets := by
    rw [Host.octets, Tree.octets, found]
    simp [bind, Except.bind, there]
  rw [ofFile, read, Host.holds, Tree.holds, found]
  rfl

end Reading

/-! ## Files that cannot be used -/

def IsAnswered : Except LoadFault ServiceConfig → Prop
  | .ok config => ∃ value, validate value = .ok config
  | .error fault => fault.isConfigurationFault = true

/-- Whether a reader finds that octets write no YAML, in all of their text or in what can be read of
it. A text that is YAML and holds a wrong value is another matter. -/
inductive WriteNoYaml (reader : Data.Yaml.Reader) (octets : List UInt8) : Prop where
  | text {text : String} {fault : Data.Yaml.Fault} (decoded : decodeText octets = .ok text)
      (refused : reader.read text.toList = .error fault) (form : ∀ value, fault ≠ .value value)
  | before {wrong : Text.Utf8.Fault} {fault : Data.Yaml.Fault}
      (undecoded : decodeText octets = .error wrong)
      (met : reader.faultBefore? octets = some fault) (form : ∀ value, fault ≠ .value value)

/-- Whether a configuration file cannot be used: its path has a name that is too long, it leads to
something that is no file, or the file holds a text that is no YAML. -/
inductive IsUnusable (host : Host) (file : Path) : Prop where
  | longName {fault : FileFault}
      (refused : host.files.find host.directory file .openFile = .error fault)
      (long : fault.cause = .nameTooLong)
  | noFile {place : List String}
      (found : host.files.find host.directory file .openFile = .ok place)
      (other : ∀ octets, host.files.at? place ≠ some (.file octets))
  | noYaml {place : List String} {octets : List UInt8}
      (found : host.files.find host.directory file .openFile = .ok place)
      (there : host.files.at? place = some (.file octets))
      (wrong : WriteNoYaml host.yaml octets)

theorem isAnswered_validate (value : Value) {wrap : List Report → LoadFault}
    (answered : ∀ reports, (wrap reports).isConfigurationFault = true) :
    IsAnswered ((validate value).mapError wrap) := by
  cases valid : validate value with
  | ok config => exact ⟨value, valid⟩
  | error reports => exact answered reports

theorem isConfigurationFault_badYaml_iff (fault : Data.Yaml.Fault) :
    (LoadFault.badYaml fault).isConfigurationFault = true ↔ ∃ value, fault = .value value := by
  cases fault <;> simp [LoadFault.isConfigurationFault]

theorem readValue_of_writeNoYaml {reader : Data.Yaml.Reader} {octets : List UInt8}
    (wrong : WriteNoYaml reader octets) :
    ∃ fault, readValue reader octets = .error (.badYaml fault) ∧
      ∀ value, fault ≠ .value value := by
  cases wrong with
  | @text text fault decoded refused form =>
      refine ⟨fault, ?_, form⟩
      rw [readValue, decoded]
      simp only [refused]
      rfl
  | @before wrong fault undecoded met form =>
      refine ⟨fault, ?_, form⟩
      rw [readValue, undecoded]
      simp only [met]

theorem isConfigurationFault_readValue {reader : Data.Yaml.Reader} {octets : List UInt8}
    (yaml : ¬ WriteNoYaml reader octets) {fault : LoadFault}
    (failed : readValue reader octets = .error fault) : fault.isConfigurationFault = true := by
  unfold readValue at failed
  cases decoded : decodeText octets with
  | ok text =>
      simp only [decoded] at failed
      cases refused : reader.read text.toList with
      | ok value =>
          rw [refused] at failed
          cases failed
      | error other =>
          rw [refused] at failed
          cases failed
          refine (isConfigurationFault_badYaml_iff other).mpr ?_
          exact Classical.not_forall_not.mp fun form => yaml (.text decoded refused form)
  | error wrong =>
      simp only [decoded] at failed
      cases met : reader.faultBefore? octets with
      | none =>
          simp only [met] at failed
          cases failed
          rfl
      | some other =>
          simp only [met] at failed
          cases failed
          refine (isConfigurationFault_badYaml_iff other).mpr ?_
          exact Classical.not_forall_not.mp fun form => yaml (.before decoded met form)

theorem exists_fault_ofOctets {reader : Data.Yaml.Reader} (file : Path) {octets : List UInt8}
    (wrong : WriteNoYaml reader octets) :
    ∃ fault, ofOctets reader file octets = .error fault ∧
      fault.isConfigurationFault = false := by
  obtain ⟨fault, failed, form⟩ := readValue_of_writeNoYaml wrong
  refine ⟨.badYaml fault, by rw [ofOctets, failed]; rfl, ?_⟩
  rw [Bool.eq_false_iff, ne_eq, isConfigurationFault_badYaml_iff]
  rintro ⟨value, same⟩
  exact form value same

theorem isAnswered_ofOctets {reader : Data.Yaml.Reader} (file : Path) {octets : List UInt8}
    (yaml : ¬ WriteNoYaml reader octets) : IsAnswered (ofOctets reader file octets) := by
  rw [ofOctets]
  cases read : readValue reader octets with
  | error fault => exact isConfigurationFault_readValue yaml read
  | ok value =>
      change IsAnswered (if value.isVacant then .error (.emptyFile file)
        else (validate value).mapError (.invalidFile file))
      split
      · rfl
      · exact isAnswered_validate value fun _ => rfl

/-- A file that cannot be used ends in a fault that no one answers for. -/
theorem IsUnusable.exists_fault {host : Host} {file : Path} (unusable : IsUnusable host file) :
    ∃ fault, ofFile host file = .error fault ∧ fault.isConfigurationFault = false := by
  rcases unusable with ⟨refused, long⟩ | ⟨found, other⟩ | ⟨found, there, wrong⟩
  · exact ⟨_, by rw [ofFile_of_unfound refused, if_pos long], by
      simp [LoadFault.isConfigurationFault, long]⟩
  · exact ⟨_, ofFile_of_noFile found other, rfl⟩
  · rw [ofFile_of_octets found there]
    exact exists_fault_ofOctets _ wrong

theorem isAnswered_ofFile {host : Host} {file : Path} (usable : ¬ IsUnusable host file) :
    IsAnswered (ofFile host file) := by
  cases found : host.files.find host.directory file .openFile with
  | error fault =>
      rw [ofFile_of_unfound found, if_neg fun long => usable (.longName found long)]
      rfl
  | ok place =>
      by_cases there : ∃ octets, host.files.at? place = some (.file octets)
      · obtain ⟨octets, there⟩ := there
        rw [ofFile_of_octets found there]
        exact isAnswered_ofOctets _ fun wrong => usable (.noYaml found there wrong)
      · exact absurd (.noFile found fun octets here => there ⟨octets, here⟩) usable

theorem isAnswered_ofEnvironmentSettings (host : Host) :
    IsAnswered (ofEnvironmentSettings host) := by
  rw [ofEnvironmentSettings]
  cases host.settings with
  | error fault => rfl
  | ok settings => exact isAnswered_validate settings.toValue fun _ => rfl

theorem isAnswered_load {host : Host} {path : Option String}
    (usable : ∀ file, consultedFile? host path = some file → ¬ IsUnusable host file) :
    IsAnswered (load host path) := by
  rw [load_eq]
  cases consulted : consultedFile? host path with
  | some file => exact isAnswered_ofFile (usable file consulted)
  | none => exact isAnswered_ofEnvironmentSettings host

theorem exists_fault_load {host : Host} {path : Option String} {file : Path}
    (consulted : consultedFile? host path = some file) (unusable : IsUnusable host file) :
    ∃ fault, load host path = .error fault ∧ fault.isConfigurationFault = false := by
  rw [load_eq, consulted]
  exact unusable.exists_fault

theorem isAnswered_load_iff (host : Host) (path : Option String) :
    IsAnswered (load host path) ↔
      ∀ file, consultedFile? host path = some file → ¬ IsUnusable host file := by
  refine ⟨fun answered file consulted unusable => ?_, isAnswered_load⟩
  obtain ⟨fault, failed, escapes⟩ := exists_fault_load consulted unusable
  rw [failed] at answered
  exact Bool.false_ne_true (escapes.symm.trans answered)

/-- Of faults, only those of a file that cannot be used are not answered for. -/
theorem escapes_iff_unusable {host : Host} {path : Option String} {fault : LoadFault}
    (failed : load host path = .error fault) :
    fault.isConfigurationFault = false ↔
      ∃ file, consultedFile? host path = some file ∧ IsUnusable host file := by
  constructor
  · intro escapes
    refine Classical.byContradiction fun usable => ?_
    have answered := isAnswered_load fun file consulted unusable =>
      usable ⟨file, consulted, unusable⟩
    rw [failed] at answered
    exact Bool.false_ne_true (escapes.symm.trans answered)
  · rintro ⟨file, consulted, unusable⟩
    obtain ⟨other, same, escapes⟩ := exists_fault_load consulted unusable
    rw [failed] at same
    cases same
    exact escapes

end Config

namespace CommandLine

open Config

/-! ## Commands -/

def UnhandledFault.isOfConfiguration : UnhandledFault → Bool
  | .config _ | .badLogFormat _ | .settings _ => true
  | _ => false

def IsCutShort (outcome : Outcome) : Prop :=
  ∃ fault, outcome = .unhandled fault ∧ fault.isOfConfiguration = true

theorem not_isCutShort_unreadInput (fault : ReadFault) : ¬ IsCutShort (unreadInput fault) := by
  rintro ⟨unhandled, same, ofConfiguration⟩
  unfold unreadInput at same
  split at same <;> cases same
  cases ofConfiguration

theorem not_isCutShort_runParse (host : Host) (input : String) (arguments : ParseArguments) :
    ¬ IsCutShort (runParse host input arguments) := by
  rw [runParse]
  split
  · exact not_isCutShort_unreadInput _
  · rintro ⟨_, ⟨⟩, ⟨⟩⟩
  · split <;> rintro ⟨_, ⟨⟩, ⟨⟩⟩

theorem not_isCutShort_runCheck (host : Host) (input file : String) :
    ¬ IsCutShort (runCheck host input file) := by
  rw [runCheck]
  split
  · exact not_isCutShort_unreadInput _
  · rintro ⟨_, ⟨⟩, ⟨⟩⟩

theorem isCutShort_runServe_iff (host : Host) (config : ServiceConfig)
    (arguments : ServeArguments) :
    IsCutShort (runServe host config arguments) ↔ ∃ fault, host.settings = .error fault := by
  rw [runServe, ServiceConfig.settingsIn, Host.settings]
  cases Settings.ofEnvironment host.environment with
  | error fault => exact ⟨fun _ => ⟨fault, rfl⟩, fun _ => ⟨_, rfl, rfl⟩⟩
  | ok settings => simp [IsCutShort, Except.map]

/-- A command whose configuration is loaded is cut short by it if messages cannot be logged in its
form, or if the command is to start the service and the environment describes no settings. -/
theorem isCutShort_run_of_ok {host : Host} {input : String} {arguments : List String}
    {request : Invocation} {config : ServiceConfig}
    (read : invocation arguments = .ok request)
    (loaded : load host request.command.config? = .ok config) :
    IsCutShort (run host input arguments) ↔
      isUsableLogFormat config.logging.format = false ∨
        (∃ serve, request.command = .serve serve) ∧ ∃ fault, host.settings = .error fault := by
  rw [run, read]
  simp only [loaded]
  cases isUsableLogFormat config.logging.format with
  | false => exact ⟨fun _ => .inl rfl, fun _ => ⟨_, rfl, rfl⟩⟩
  | true =>
      simp only [Bool.not_true, Bool.false_eq_true, if_false, Bool.true_eq_false, false_or]
      cases request.command with
      | parse arguments => simp [not_isCutShort_runParse]
      | check file => simp [not_isCutShort_runCheck]
      | serve arguments =>
          simp only [Command.serve.injEq, exists_eq', true_and]
          exact isCutShort_runServe_iff host config arguments

theorem run_of_error {host : Host} {input : String} {arguments : List String}
    {request : Invocation} {fault : LoadFault} (read : invocation arguments = .ok request)
    (failed : load host request.command.config? = .error fault) :
    run host input arguments =
      if fault.isConfigurationFault then .complain s!"Configuration error: {fault.message}"
      else .unhandled (.config fault) := by
  rw [run, read]
  simp only [failed]

theorem isCutShort_run_of_error {host : Host} {input : String} {arguments : List String}
    {request : Invocation} {fault : LoadFault} (read : invocation arguments = .ok request)
    (failed : load host request.command.config? = .error fault) :
    IsCutShort (run host input arguments) ↔ fault.isConfigurationFault = false := by
  rw [run_of_error read failed]
  cases fault.isConfigurationFault with
  | true => simp [IsCutShort, Outcome.complain]
  | false => exact ⟨fun _ => rfl, fun _ => ⟨_, rfl, rfl⟩⟩

/-- Loading gives a validated configuration or a fault that is answered for if and only if the file
that is consulted can be used. A fault that is answered for ends every command with a complaint,
without output and with exit code 2. Commands are cut short by their configuration if and only if
its file cannot be used, or messages cannot be logged in its form, or the service is to be started
where the environment describes no settings. -/
theorem configuration_is_answered_for_iff {host : Host} {input : String} {arguments : List String}
    {request : Invocation} (read : invocation arguments = .ok request) (path : Option String) :
    (IsAnswered (load host path) ↔
      ∀ file, consultedFile? host path = some file → ¬ IsUnusable host file) ∧
    (∀ fault, load host request.command.config? = .error fault →
      fault.isConfigurationFault = true →
        run host input arguments = .completed {
          exitCode := 2
          output := ""
          complaint := some s!"Configuration error: {fault.message}" }) ∧
    (IsCutShort (run host input arguments) ↔
      (∃ file, consultedFile? host request.command.config? = some file ∧ IsUnusable host file) ∨
        ∃ config, load host request.command.config? = .ok config ∧
          (isUsableLogFormat config.logging.format = false ∨
            (∃ serve, request.command = .serve serve) ∧
              ∃ fault, host.settings = .error fault)) := by
  refine ⟨isAnswered_load_iff host path, fun fault failed answered => ?_, ?_⟩
  · rw [run_of_error read failed, if_pos answered]
    rfl
  · cases loaded : load host request.command.config? with
    | ok config =>
        have usable : ¬ ∃ file, consultedFile? host request.command.config? = some file ∧
            IsUnusable host file := by
          rintro ⟨file, consulted, unusable⟩
          obtain ⟨fault, failed, -⟩ := exists_fault_load consulted unusable
          rw [loaded] at failed
          cases failed
        simp [isCutShort_run_of_ok read loaded, usable]
    | error fault =>
        rw [isCutShort_run_of_error read loaded, escapes_iff_unusable loaded]
        simp

/-- A configuration file that is missing is answered for: the command to check a script complains,
and it is not cut short. -/
theorem missing_configuration_is_answered_for :
    run { environment := ⟨[("ONEAPP_SCHEMA_CONFIG", "missing.yaml")]⟩ } "" ["check", "-"] =
        .completed {
          exitCode := 2
          output := ""
          complaint := some "Configuration error: Config file not found: missing.yaml" } ∧
      invocation ["check", "-"] = .ok { command := .check "-" } :=
  have read : invocation ["check", "-"] = .ok { command := .check "-" } := rfl
  ⟨(configuration_is_answered_for_iff read none).2.1 (.missingFile ⟨.relative, ["missing.yaml"]⟩)
    rfl rfl, read⟩

def brokenConfigHost : Host where
  files := ⟨[(["config"], .directory), (["config", "oneapp-schema.yaml"], .file [0x5B])]⟩

/-- A text that is no YAML is not answered for, and every command is cut short by it. -/
theorem broken_configuration_is_not_answered_for :
    ¬ IsAnswered (load brokenConfigHost none) ∧
      IsCutShort (run brokenConfigHost "" ["check", "-"]) := by
  have failed : load brokenConfigHost none = .error (.badYaml (.form .misplaced)) := rfl
  have read : invocation ["check", "-"] = .ok { command := .check "-" } := rfl
  refine ⟨?_, (isCutShort_run_of_error read failed).mpr rfl⟩
  rw [failed]
  exact Bool.false_ne_true

end CommandLine

end TableSchema
