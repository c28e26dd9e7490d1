import TableSchema.Config.Validation
import TableSchema.Proofs.Matching

/-! # Valid configurations

What validation gives out is sound: the service can listen at the port, and the schema name can be
part of a file name. And sound configurations are stable: the data value that describes all of such
a configuration is read as the same configuration again. So a configuration comes out of validation
exactly if it is sound.
-/

namespace TableSchema.Config

open Text

/-! ## Sound configurations -/

def IsPort (port : Nat) : Prop := 1 ≤ port ∧ port ≤ 65535

instance (port : Nat) : Decidable (IsPort port) := inferInstanceAs (Decidable (_ ∧ _))

/-- A name that can be part of a file name: it is trimmed and not empty, and holds no separator of
paths. -/
structure IsSchemaName (name : List Char) : Prop where
  nonempty : name ≠ []
  trimmed : Trimmed name
  slash : '/' ∉ name
  backslash : '\\' ∉ name

structure ServiceConfig.Sound (config : ServiceConfig) : Prop where
  port : IsPort config.server.port
  name : IsSchemaName config.source.name.toList

theorem sound_default : ({} : ServiceConfig).Sound := by
  refine ⟨by decide, by decide, ⟨?_, ?_⟩, by decide, by decide⟩
  · rintro _ ⟨⟩
    decide
  · rintro _ ⟨⟩
    decide

/-! ## Parts that are valid -/

namespace Validated

variable {α β γ : Type}

theorem located_eq_ok {path : List Step} {answer : Except Problem α} {part : α} :
    located path answer = .ok part ↔ answer = .ok part := by
  cases answer <;> simp [located]

theorem under_eq_ok {step : Step} {answer : Validated α} {part : α} :
    answer.under step = .ok part ↔ answer = .ok part := by
  cases answer with
  | ok => exact Iff.rfl
  | error => constructor <;> (intro valid; cases valid)

theorem map_eq_ok {function : α → β} {answer : Validated α} {whole : β} :
    answer.map function = .ok whole ↔ ∃ part, answer = .ok part ∧ function part = whole := by
  cases answer <;> simp [Except.map]

/-- A whole is valid exactly if all its parts are. -/
theorem apply_eq_ok {function : Validated (α → β)} {answer : Validated α} {whole : β} :
    apply function answer = .ok whole ↔
      ∃ build, function = .ok build ∧ ∃ part, answer = .ok part ∧ build part = whole := by
  cases function <;> cases answer <;> simp [apply]

end Validated

section

variable {α : Type} {entries : List (String × Value)} {key : String} {default found : α}
  {read : Value → Validated α}

theorem validSection_eq_ok {model : String} {value : Value}
    {read : List (String × Value) → Validated α} {whole : α} :
    validSection model value read = .ok whole ↔
      ∃ entries, value = .object entries ∧ read entries = .ok whole := by
  cases value <;> simp [validSection]

theorem of_part (property : α → Prop) (missing : property default)
    (given : ∀ value part, read value = .ok part → property part)
    (valid : part entries key default read = .ok found) : property found := by
  unfold part at valid
  split at valid
  · cases valid
    exact missing
  · exact given _ _ (Validated.under_eq_ok.mp valid)

theorem part_of_entry {value : Value} (entry : Value.entry? entries key = some value)
    (valid : read value = .ok found) : part entries key default read = .ok found := by
  rw [part, entry]
  exact Validated.under_eq_ok.mpr valid

end

/-! ## Sections that are valid -/

theorem validServer_eq_ok {value : Value} {server : ServerConfig} :
    validServer value = .ok server ↔ ∃ entries, value = .object entries ∧
      part entries "host" ({} : ServerConfig).host (.located [] ∘ validText) = .ok server.host ∧
      part entries "port" ({} : ServerConfig).port (.located [] ∘ validPort) = .ok server.port := by
  rw [validServer, validSection_eq_ok]
  simp only [Validated.apply_eq_ok, Validated.map_eq_ok]
  constructor
  · rintro ⟨entries, rfl, _, ⟨host, readHost, rfl⟩, port, readPort, rfl⟩
    exact ⟨entries, rfl, readHost, readPort⟩
  · rintro ⟨entries, rfl, host, port⟩
    exact ⟨entries, rfl, _, ⟨_, host, rfl⟩, _, port, rfl⟩

theorem validSource_eq_ok {value : Value} {source : SourceConfig} :
    validSource value = .ok source ↔ ∃ entries, value = .object entries ∧
      part entries "file" ({} : SourceConfig).file (.located [] ∘ validFile) = .ok source.file ∧
      part entries "search_paths" ({} : SourceConfig).searchPaths validTextList =
        .ok source.searchPaths ∧
      part entries "name" ({} : SourceConfig).name (.located [] ∘ validName) = .ok source.name := by
  rw [validSource, validSection_eq_ok]
  simp only [Validated.apply_eq_ok, Validated.map_eq_ok]
  constructor
  · rintro ⟨entries, rfl, _, ⟨_, ⟨file, readFile, rfl⟩, paths, readPaths, rfl⟩, name, readName, rfl⟩
    exact ⟨entries, rfl, readFile, readPaths, readName⟩
  · rintro ⟨entries, rfl, file, paths, name⟩
    exact ⟨entries, rfl, _, ⟨_, ⟨_, file, rfl⟩, _, paths, rfl⟩, _, name, rfl⟩

theorem validLogging_eq_ok {value : Value} {logging : LoggingConfig} :
    validLogging value = .ok logging ↔ ∃ entries, value = .object entries ∧
      part entries "level" ({} : LoggingConfig).level (.located [] ∘ validLevel) =
        .ok logging.level ∧
      part entries "format" ({} : LoggingConfig).format (.located [] ∘ validText) =
        .ok logging.format := by
  rw [validLogging, validSection_eq_ok]
  simp only [Validated.apply_eq_ok, Validated.map_eq_ok]
  constructor
  · rintro ⟨entries, rfl, _, ⟨level, readLevel, rfl⟩, format, readFormat, rfl⟩
    exact ⟨entries, rfl, readLevel, readFormat⟩
  · rintro ⟨entries, rfl, level, format⟩
    exact ⟨entries, rfl, _, ⟨_, level, rfl⟩, _, format, rfl⟩

theorem validate_eq_ok {value : Value} {config : ServiceConfig} :
    validate value = .ok config ↔ ∃ entries, value = .object entries ∧
      part entries "server" ({} : ServiceConfig).server validServer = .ok config.server ∧
      part entries "schema_source" ({} : ServiceConfig).source validSource = .ok config.source ∧
      part entries "logging" ({} : ServiceConfig).logging validLogging = .ok config.logging := by
  rw [validate, validSection_eq_ok]
  simp only [Validated.apply_eq_ok, Validated.map_eq_ok]
  constructor
  · rintro ⟨entries, rfl, _, ⟨_, ⟨server, readServer, rfl⟩, source, readSource, rfl⟩, logging,
      readLogging, rfl⟩
    exact ⟨entries, rfl, readServer, readSource, readLogging⟩
  · rintro ⟨entries, rfl, server, source, logging⟩
    exact ⟨entries, rfl, _, ⟨_, ⟨_, server, rfl⟩, _, source, rfl⟩, _, logging, rfl⟩

/-! ## What is read is sound -/

theorem isPort_of_validPort {value : Value} {port : Nat} (valid : validPort value = .ok port) :
    IsPort port := by
  unfold validPort at valid
  cases read : validInteger value with
  | error problem =>
      rw [read] at valid
      cases valid
  | ok number =>
      simp only [read, bind, Except.bind] at valid
      split at valid
      · cases valid
      · split at valid
        · cases valid
        · cases valid
          unfold IsPort
          omega

theorem isSchemaName_of_validName {value : Value} {name : String}
    (valid : validName value = .ok name) : IsSchemaName name.toList := by
  unfold validName at valid
  cases read : validText value with
  | error problem =>
      rw [read] at valid
      cases valid
  | ok text =>
      simp only [read, bind, Except.bind, List.isEmpty_iff] at valid
      split at valid
      · cases valid
      · rename_i nonempty
        split at valid
        · cases valid
        · rename_i separated
          cases valid
          rw [String.toList_ofList]
          exact ⟨nonempty, trimmed_trim _, fun slash => separated (.inl slash),
            fun backslash => separated (.inr backslash)⟩

theorem sound_of_validate {value : Value} {config : ServiceConfig}
    (valid : validate value = .ok config) : config.Sound := by
  obtain ⟨entries, rfl, server, source, _⟩ := validate_eq_ok.mp valid
  constructor
  · refine of_part (fun server => IsPort server.port) sound_default.port ?_ server
    intro value server valid
    obtain ⟨entries, rfl, _, port⟩ := validServer_eq_ok.mp valid
    exact of_part IsPort sound_default.port
      (fun _ _ valid => isPort_of_validPort (Validated.located_eq_ok.mp valid)) port
  · refine of_part (fun source => IsSchemaName source.name.toList) sound_default.name ?_ source
    intro value source valid
    obtain ⟨entries, rfl, _, _, name⟩ := validSource_eq_ok.mp valid
    exact of_part (fun name => IsSchemaName name.toList) sound_default.name
      (fun _ _ valid => isSchemaName_of_validName (Validated.located_eq_ok.mp valid)) name

/-! ## What is sound is read -/

theorem validPort_int {port : Nat} (isPort : IsPort port) : validPort (.int port) = .ok port := by
  obtain ⟨least, most⟩ := isPort
  have above : ¬ (port : Int) < 1 := by omega
  have below : ¬ 65535 < (port : Int) := by omega
  simp only [validPort, validInteger, bind, Except.bind, above, below, if_false, Int.toNat_natCast]

theorem validName_text {name : String} (isName : IsSchemaName name.toList) :
    validName (.text name) = .ok name := by
  have trimmed : trim name.toList = name.toList := by
    have whole := trim_blanks allBlank_nil allBlank_nil isName.trimmed
    rwa [List.nil_append, List.append_nil] at whole
  have nonempty : name.toList.isEmpty = false := by simpa using isName.nonempty
  simp only [validName, validText, bind, Except.bind, trimmed, nonempty, Bool.false_eq_true,
    if_false, isName.slash, isName.backslash, or_self, String.ofList_toList]

theorem validLevel_name (level : LogLevel) : validLevel (.text level.name) = .ok level := by
  cases level <;> rfl

theorem validTexts_text (place : Nat) (texts : List String) :
    validTexts place (texts.map .text) = .ok texts := by
  induction texts generalizing place with
  | nil => rfl
  | cons text texts induction =>
      rw [List.map_cons, validTexts, induction (place + 1)]
      rfl

theorem validServer_entries {server : ServerConfig} (isPort : IsPort server.port) :
    validServer (.object [("host", .text server.host), ("port", .int server.port)]) =
      .ok server := by
  refine validServer_eq_ok.mpr ⟨_, rfl, part_of_entry rfl rfl, part_of_entry rfl ?_⟩
  exact Validated.located_eq_ok.mpr (validPort_int isPort)

theorem validSource_entries {source : SourceConfig} {file : Value}
    (named : validFile file = .ok source.file) (isName : IsSchemaName source.name.toList) :
    validSource (.object [("file", file),
      ("search_paths", .list (source.searchPaths.map .text)), ("name", .text source.name)]) =
        .ok source := by
  refine validSource_eq_ok.mpr ⟨_, rfl, part_of_entry rfl ?_, part_of_entry rfl ?_,
    part_of_entry rfl ?_⟩
  · exact Validated.located_eq_ok.mpr named
  · exact validTexts_text 0 source.searchPaths
  · exact Validated.located_eq_ok.mpr (validName_text isName)

theorem validate_toValue {config : ServiceConfig} (sound : config.Sound) :
    validate config.toValue = .ok config := by
  have logging : validLogging (.object [("level", .text config.logging.level.name),
      ("format", .text config.logging.format)]) = .ok config.logging := by
    refine validLogging_eq_ok.mpr ⟨_, rfl, part_of_entry rfl ?_, part_of_entry rfl rfl⟩
    exact Validated.located_eq_ok.mpr (validLevel_name _)
  refine validate_eq_ok.mpr ⟨_, rfl, part_of_entry rfl (validServer_entries sound.port),
    part_of_entry rfl (validSource_entries ?_ sound.name), part_of_entry rfl logging⟩
  cases config.source.file <;> rfl

/-! ## Validation as a whole -/

/-- The configurations that values are read as are the sound ones: their ports lie between 1 and
65535, and their names are trimmed, not empty and without separators. Each of them is what the value
that describes all of it is read as, and its level is one of four. -/
theorem validated_configs_are_stable (config : ServiceConfig) :
    ((∃ value, validate value = .ok config) ↔ config.Sound) ∧
    (config.Sound ↔ validate config.toValue = .ok config) ∧
    config.logging.level.name ∈ ["DEBUG", "INFO", "WARNING", "ERROR"] := by
  refine ⟨⟨?_, fun sound => ⟨_, validate_toValue sound⟩⟩, ⟨validate_toValue, sound_of_validate⟩, ?_⟩
  · rintro ⟨value, valid⟩
    exact sound_of_validate valid
  · cases config.logging.level <;> decide

/-- A name is trimmed, and the letters of a level may be written in any case. -/
example : (validate (.object [("schema_source", .object [("name", .text " a b ")]),
    ("logging", .object [("level", .text "warnıng")])])).toOption =
    some { source := { name := "a b" }, logging := { level := .warning } } := by decide +kernel

end TableSchema.Config
