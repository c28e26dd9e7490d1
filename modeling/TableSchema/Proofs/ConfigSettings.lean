import TableSchema.Config.Loading
import TableSchema.Proofs.ValidConfigs

/-! # Settings of configurations

A configuration and its settings say the same, but for what settings do not hold and for how paths
are spelled: the way from a configuration to its settings and back gives its normal form, which
stays as it is on the same way. Nothing of it depends on the environment.
-/

namespace TableSchema

/-! ## Paths in normal form -/

namespace Files.Path

structure IsStep (text : List Char) : Prop where
  nonempty : text ≠ []
  moves : text ≠ ['.']
  whole : '/' ∉ text

theorem isStep_of_mem_stepsFrom {step text : List Char} (whole : '/' ∉ step) {part : String}
    (member : part ∈ stepsFrom step text) : IsStep part.toList := by
  have here {step : List Char} (whole : '/' ∉ step) (member : part ∈ stepOf step) :
      IsStep part.toList := by
    unfold stepOf at member
    split at member
    · cases member
    · rename_i kept
      rw [List.mem_singleton.mp member, String.toList_ofList]
      exact ⟨fun empty => kept (.inl empty), fun dot => kept (.inr dot), whole⟩
  fun_induction stepsFrom step text with
  | case1 => exact here whole member
  | case2 step rest induction =>
      rcases List.mem_append.mp member with member | member
      · exact here whole member
      · exact induction (by simp) member
  | case3 step character rest other induction =>
      apply induction _ member
      simp only [List.mem_append, List.mem_singleton, not_or]
      exact ⟨whole, fun slash => other slash.symm⟩

theorem stepsFrom_append {text : List Char} (whole : '/' ∉ text) (step rest : List Char) :
    stepsFrom step (text ++ rest) = stepsFrom (step ++ text) rest := by
  induction text generalizing step with
  | nil => rw [List.nil_append, List.append_nil]
  | cons character text induction =>
      rw [List.mem_cons, not_or] at whole
      rw [List.cons_append, stepsFrom, if_neg fun slash => whole.1 slash.symm, induction whole.2,
        List.append_assoc]
      rfl

theorem stepOf_toList {step : String} (isStep : IsStep step.toList) :
    stepOf step.toList = [step] := by
  rw [stepOf, if_neg (not_or.mpr ⟨isStep.nonempty, isStep.moves⟩), String.ofList_toList]

theorem stepsFrom_intercalate {steps : List String} (isStep : ∀ step ∈ steps, IsStep step.toList) :
    stepsFrom [] (['/'].intercalate (steps.map String.toList)) = steps := by
  induction steps with
  | nil => rfl
  | cons step steps induction =>
      have here := isStep step (List.mem_cons_self ..)
      have alone := stepOf_toList here
      cases steps with
      | nil =>
          have last := stepsFrom_append here.whole [] []
          rw [List.append_nil, List.nil_append, stepsFrom, alone] at last
          simpa using last
      | cons next steps =>
          have later := induction fun other member => isStep other (List.mem_cons_of_mem _ member)
          rw [List.map_cons, List.map_cons, List.intercalate_cons_cons, ← List.map_cons,
            List.append_assoc, stepsFrom_append here.whole]
          simp only [List.nil_append, List.singleton_append, stepsFrom, if_true]
          rw [alone, later]
          rfl

theorem anchorOf_of_head {text : List Char} (bare : text.head? ≠ some '/') :
    anchorOf text = .relative ∧ anchorOf ('/' :: text) = .root ∧
      anchorOf ('/' :: '/' :: text) = .doubleRoot := by
  cases text with
  | nil => decide
  | cons first text =>
      have other : first ≠ '/' := fun same => bare (congrArg some same)
      simp [anchorOf, other]

theorem head?_intercalate {steps : List String} (isStep : ∀ step ∈ steps, IsStep step.toList) :
    (['/'].intercalate (steps.map String.toList)).head? ≠ some '/' := by
  cases steps with
  | nil => simp
  | cons step steps =>
      have here := isStep step (List.mem_cons_self ..)
      rcases List.exists_cons_of_ne_nil here.nonempty with ⟨first, others, text⟩
      have other : first ≠ '/' := by
        rintro rfl
        exact here.whole (text ▸ List.mem_cons_self ..)
      cases steps <;> simp [text, other, List.intercalate_cons_cons]

theorem ofString_text_of_isStep {path : Path} (isStep : ∀ step ∈ path.steps, IsStep step.toList) :
    ofString path.text = path := by
  rcases path with ⟨anchor, steps⟩
  have starts := anchorOf_of_head (head?_intercalate isStep)
  have read := stepsFrom_intercalate isStep
  have joined : (String.intercalate "/" steps).toList =
      ['/'].intercalate (steps.map String.toList) := String.toList_intercalate
  cases anchor with
  | relative =>
      cases steps with
      | nil => rfl
      | cons step steps =>
          have text : (Path.mk .relative (step :: steps)).text.toList =
              ['/'].intercalate ((step :: steps).map String.toList) := by
            rw [← joined]
            simp [text, anchorText]
          rw [ofString, text, starts.1, read]
  | root =>
      have text : (Path.mk .root steps).text.toList =
          '/' :: ['/'].intercalate (steps.map String.toList) := by
        rw [← joined]
        simp [text, anchorText]
      rw [ofString, text, starts.2.1, stepsFrom, if_pos rfl, read]
      rfl
  | doubleRoot =>
      have text : (Path.mk .doubleRoot steps).text.toList =
          '/' :: '/' :: ['/'].intercalate (steps.map String.toList) := by
        rw [← joined]
        simp [text, anchorText]
      rw [ofString, text, starts.2.2, stepsFrom, if_pos rfl, stepsFrom, if_pos rfl, read]
      rfl

/-- A path is read again from its text, whatever text it was read from first. -/
theorem ofString_text (text : String) : ofString (ofString text).text = ofString text :=
  ofString_text_of_isStep fun _ member => isStep_of_mem_stepsFrom (by simp) member

end Files.Path

/-! ## To settings and back -/

namespace Config

open Files

/-- What is left of a configuration on the way to its settings and back: an empty text names no
file, paths are spelled in normal form, and settings say nothing of how messages are logged. -/
def ServiceConfig.normalForm (config : ServiceConfig) : ServiceConfig where
  server := config.server
  source := {
    file := config.source.file.filter (· ≠ "")
    searchPaths := config.source.searchPaths.map fun path => (Path.ofString path).text
    name := config.source.name }
  logging := { level := config.logging.level, format := defaultLogFormat }

theorem ServiceConfig.overwrite_eq (config : ServiceConfig) (settings : Settings) :
    config.overwrite settings = config.settings := rfl

theorem ServiceConfig.Sound.normalForm {config : ServiceConfig} (sound : config.Sound) :
    config.normalForm.Sound := ⟨sound.port, sound.name⟩

theorem ServiceConfig.settings_normalForm (config : ServiceConfig) :
    config.normalForm.settings = config.settings := by
  have file : (config.source.file.filter (· ≠ "")).getD "" = config.source.file.getD "" := by
    cases config.source.file with
    | none => rfl
    | some file => by_cases empty : file = "" <;> simp [Option.filter, empty]
  have paths : (config.source.searchPaths.map fun path => (Path.ofString path).text).map
      Path.ofString = config.source.searchPaths.map Path.ofString := by
    rw [List.map_map]
    exact List.map_congr_left fun path _ => Path.ofString_text path
  simp only [settings, normalForm, file, paths]

/-- Settings of a sound configuration describe its normal form. -/
theorem ofSettings_settings {config : ServiceConfig} (sound : config.Sound) :
    ofSettings config.settings = .ok config.normalForm := by
  have named : validFile (if (config.source.file.getD "").isEmpty then .null
      else .text (config.source.file.getD "")) = .ok config.normalForm.source.file := by
    simp only [ServiceConfig.normalForm]
    cases config.source.file with
    | none => rfl
    | some file => by_cases empty : file = "" <;> simp [Option.filter, empty] <;> rfl
  have paths : (config.source.searchPaths.map Path.ofString).map
      (fun path => Value.text path.text) = config.normalForm.source.searchPaths.map .text := by
    rw [ServiceConfig.normalForm, List.map_map, List.map_map]
    rfl
  have logging : validLogging (.object [("level", .text config.logging.level.name)]) =
      .ok config.normalForm.logging := by
    refine validLogging_eq_ok.mpr ⟨_, rfl, part_of_entry rfl ?_, rfl⟩
    exact Validated.located_eq_ok.mpr (validLevel_name _)
  refine validate_eq_ok.mpr ⟨_, rfl, part_of_entry rfl (validServer_entries sound.port),
    part_of_entry rfl ?_, part_of_entry rfl logging⟩
  rw [ServiceConfig.settings, paths]
  exact validSource_entries named sound.normalForm.name

/-- In every environment that describes settings, the settings of a validated configuration are the
same ones, and they describe the normal form of the configuration: no file for an empty text, paths
in normal form and the default form of messages. The normal form has the same settings, which
describe it again. -/
theorem settings_hold_configs {value : Value} {config : ServiceConfig}
    (valid : validate value = .ok config) {environment : Environment} {own : Settings}
    (described : Settings.ofEnvironment environment = .ok own) :
    config.settingsIn environment = .ok config.settings ∧
      ofSettings config.settings = .ok config.normalForm ∧
      config.normalForm.settingsIn environment = .ok config.settings := by
  have overwritten (config : ServiceConfig) :
      config.settingsIn environment = .ok config.settings := by
    rw [ServiceConfig.settingsIn, described, Except.map, config.overwrite_eq]
  refine ⟨overwritten config, ofSettings_settings (sound_of_validate valid), ?_⟩
  rw [overwritten config.normalForm, config.settings_normalForm]

def otherEnvironment : Environment :=
  ⟨[("SCHEMA_FILE", "other.sql"), ("SCHEMA_NAME", "other"), ("WEB_PORT", "1")]⟩

/-- An empty file name, the spelling of a path and the form of messages are lost, and nothing comes
from the environment. -/
theorem settings_hold_config_with_long_path :
    let config : ServiceConfig := {
      source := { file := some "", searchPaths := ["//a/./b//c/"], name := "a b" }
      logging := { level := .warning, format := "%(message)s" } }
    let settings : Settings := {
      searchPaths := [⟨.doubleRoot, ["a", "b", "c"]⟩], schemaName := "a b", logLevel := "WARNING" }
    config.settingsIn otherEnvironment = .ok settings ∧
      ofSettings settings = .ok {
        source := { searchPaths := ["//a/b/c"], name := "a b" }
        logging := { level := .warning } } := by
  intro config settings
  have valid : validate (.object [
      ("schema_source", .object [("file", .text ""), ("search_paths", .list [.text "//a/./b//c/"]),
        ("name", .text " a b\n")]),
      ("logging", .object [("level", .text "warnıng"), ("format", .text "%(message)s")])]) =
        .ok config := by rfl
  have described : Settings.ofEnvironment otherEnvironment = .ok
      { schemaFile := "other.sql", schemaName := "other", webPort := 1 } := by rfl
  have held := settings_hold_configs valid described
  exact ⟨held.1, held.2.1⟩

end Config

end TableSchema
