import LocaleLint.CommandLine.Outcome
import LocaleLint.Proofs.Logging.Usable

/-! # Configuring the log

Before the command lints anything it loads its configuration and takes the settings of the log from it. A file that
breaks a rule of the format is reported; whatever else is wrong with it ends the command without a word. -/

namespace LocaleLint

open Logging

namespace Config

/-- The configuration that a document holds. -/
def contentOf (document : Yaml.Document) : Value := if document.settings.isBlank then empty else document.settings

/-- Whether bytes are neither a usable configuration nor a breach of the rules of the format. -/
inductive Unreported (bytes : List UInt8) : Prop
  /-- The bytes are no text, or a scalar has no value. -/
  | load {cause : Yaml.LoadError} (failed : Yaml.loadFile bytes = .error cause) (other : cause ≠ .malformed)
  | unusable {document : Yaml.Document} (loaded : Yaml.loadFile bytes = .ok document)
      (unusable : ¬ Usable (contentOf document))

theorem usable_or_malformed_or_unreported (bytes : List UInt8) :
    (∃ document, Yaml.loadFile bytes = .ok document ∧ Usable (contentOf document)) ∨
      Yaml.loadFile bytes = .error .malformed ∨ Unreported bytes := by
  cases loaded : Yaml.loadFile bytes with
  | ok document =>
    by_cases usable : Usable (contentOf document)
    · exact Or.inl ⟨document, rfl, usable⟩
    · exact Or.inr (Or.inr (.unusable loaded usable))
  | error cause =>
    by_cases malformed : cause = .malformed
    · exact Or.inr (Or.inl (congrArg _ malformed))
    · exact Or.inr (Or.inr (.load loaded malformed))

theorem not_unreported_of_usable {bytes : List UInt8} {document : Yaml.Document}
    (loaded : Yaml.loadFile bytes = .ok document) (usable : Usable (contentOf document)) : ¬ Unreported bytes := by
  rintro (⟨failed, -⟩ | ⟨loaded', unusable⟩)
  · cases loaded.symm.trans failed
  · cases loaded.symm.trans loaded'
    exact unusable usable

theorem not_unreported_of_malformed {bytes : List UInt8} (failed : Yaml.loadFile bytes = .error .malformed) :
    ¬ Unreported bytes := by
  rintro (⟨failed', other⟩ | ⟨loaded, -⟩)
  · cases failed.symm.trans failed'
    exact other rfl
  · cases failed.symm.trans loaded

/-- Why bytes are no usable configuration. -/
def failure? (bytes : List UInt8) : Option CommandLine.Failure :=
  match ofBytes bytes with
  | .error e => some (.config e)
  | .ok config =>
    match Settings.ofConfig config with
    | .error e => some (.settings e)
    | .ok _ => none

/-- The path at which the configuration of a folder is read. -/
def place (files : Files) (folder : String) : String := String.ofList (path files.working folder)

variable {files : Files} {folder : String} {bytes : List UInt8}

/-- Loading looks at nothing but the file of the configuration. -/
theorem load_congr {others : Files} (working : others.working = files.working)
    (same : others.read (place files folder) = files.read (place files folder)) : load others folder = load files folder := by
  rw [load, load, working, ← place, same]

theorem load_of_read (read : files.read (place files folder) = .ok bytes) :
    load files folder = ⟨journalOf (ofBytes bytes), ofBytes bytes⟩ := by
  rw [load, ← place, read]

theorem ofBytes_of_loaded {document : Yaml.Document} (loaded : Yaml.loadFile bytes = .ok document) :
    ofBytes bytes = .ok (contentOf document) := by
  rw [ofBytes, loaded]
  rfl

theorem ofBytes_of_malformed (failed : Yaml.loadFile bytes = .error .malformed) : ofBytes bytes = .error .malformed := by
  rw [ofBytes, failed]

theorem ofBytes_of_failed {cause : Yaml.LoadError} (failed : Yaml.loadFile bytes = .error cause)
    (other : cause ≠ .malformed) : ofBytes bytes = .error (.load cause) := by
  unfold ofBytes
  rw [failed]
  cases cause with
  | malformed => exact absurd rfl other
  | _ => rfl

theorem malformed_of_failure? (failed : failure? bytes = some (.config .malformed)) :
    Yaml.loadFile bytes = .error .malformed := by
  cases loaded : Yaml.loadFile bytes with
  | ok document =>
    rw [failure?, ofBytes_of_loaded loaded] at failed
    dsimp only at failed
    split at failed <;> cases failed
  | error cause =>
    by_cases malformed : cause = .malformed
    · rw [malformed]
    · rw [failure?, ofBytes_of_failed loaded malformed] at failed
      cases failed

theorem unreported_of_failure? {failure : CommandLine.Failure} (failed : failure? bytes = some failure)
    (other : failure ≠ .config .malformed) : Unreported bytes := by
  rcases usable_or_malformed_or_unreported bytes with ⟨document, loaded, usable⟩ | malformed | unreported
  · obtain ⟨settings, gives⟩ := Settings.ofConfig_isOk_iff.mpr usable
    rw [failure?, ofBytes_of_loaded loaded] at failed
    dsimp only at failed
    rw [gives] at failed
    cases failed
  · rw [failure?, ofBytes_of_malformed malformed] at failed
    cases failed
    exact absurd rfl other
  · exact unreported

end Config

namespace CommandLine.Outcome

/-- Whether the configuration of a folder is loaded and gives settings for the log. -/
def Configures (files : Files) (folder : String) : Prop :=
  ∃ config settings, (Config.load files folder).result = .ok config ∧ Settings.ofConfig config = .ok settings

/-- Whether the configuration of a folder ends the command with an error in the log. -/
def EndsLogged (files : Files) (folder : String) : Prop :=
  ∃ entry : LogEntry, entry.level = .error ∧
    ∀ patterns, lint files folder patterns = ⟨1, [], entry.message.toList ++ ['\n'], none⟩

/-- Whether the configuration of a folder ends the command by a failure that nothing reports. -/
def EndsUnreported (files : Files) (folder : String) : Prop :=
  ∃ failure, ∀ patterns, lint files folder patterns = ⟨1, [], [], some failure⟩

section Load
variable {files : Files} {folder : String}

/-- What is written to the error output before there are settings. -/
def written (files : Files) (folder : String) : List Char := bareLines (Config.load files folder).journal.log

theorem lint_of_settings {config : Value} {settings : Settings} (loaded : (Config.load files folder).result = .ok config)
    (usable : Settings.ofConfig config = .ok settings) (patterns : List String) :
    lint files folder patterns = (ofLint settings (Lint.run files patterns)).withErrors (written files folder) := by
  rw [lint]
  simp only [loaded, usable]
  rfl

theorem lint_of_unusable {config : Value} {e : SettingsError} (loaded : (Config.load files folder).result = .ok config)
    (unusable : Settings.ofConfig config = .error e) (patterns : List String) :
    lint files folder patterns = ⟨1, [], written files folder, some (.settings e)⟩ := by
  rw [lint]
  simp only [loaded, unusable]
  rfl

theorem lint_of_unloaded {e : ConfigError} (failed : (Config.load files folder).result = .error e)
    (patterns : List String) : lint files folder patterns = ⟨1, [], written files folder, unreported? e⟩ := by
  rw [lint]
  simp only [failed]
  rfl

/-- A command that configures the log ends well where it finds no file to lint. -/
theorem exitCode_of_configures (h : Configures files folder) : (lint files folder []).exitCode = 0 := by
  obtain ⟨config, settings, loaded, usable⟩ := h
  rw [lint_of_settings loaded usable]
  rfl

theorem not_endsLogged_of_configures (h : Configures files folder) : ¬ EndsLogged files folder := by
  rintro ⟨entry, -, logged⟩
  have well := exitCode_of_configures h
  rw [logged []] at well
  cases well

theorem not_configures_of_endsUnreported (h : EndsUnreported files folder) : ¬ Configures files folder := by
  obtain ⟨failure, unreported⟩ := h
  intro configures
  have well := exitCode_of_configures configures
  rw [unreported []] at well
  cases well

theorem not_endsLogged_of_endsUnreported (h : EndsUnreported files folder) : ¬ EndsLogged files folder := by
  obtain ⟨failure, unreported⟩ := h
  rintro ⟨entry, -, logged⟩
  cases congrArg Outcome.failure ((logged []).symm.trans (unreported []))

end Load

section Read
variable {files : Files} {folder : String} {bytes : List UInt8}

theorem configures_of_usable (read : files.read (Config.place files folder) = .ok bytes) {document : Yaml.Document}
    (loaded : Yaml.loadFile bytes = .ok document) (usable : Usable (Config.contentOf document)) :
    Configures files folder := by
  obtain ⟨settings, gives⟩ := Settings.ofConfig_isOk_iff.mpr usable
  refine ⟨_, settings, ?_, gives⟩
  rw [Config.load_of_read read, Config.ofBytes_of_loaded loaded]

theorem endsLogged_of_malformed (read : files.read (Config.place files folder) = .ok bytes)
    (failed : Yaml.loadFile bytes = .error .malformed) : EndsLogged files folder := by
  have load := Config.load_of_read read
  rw [Config.ofBytes_of_malformed failed] at load
  refine ⟨.malformedConfig, rfl, fun patterns => ?_⟩
  rw [lint_of_unloaded (congrArg Run.result load), written, load]
  rfl

theorem endsUnreported_of_unreported (read : files.read (Config.place files folder) = .ok bytes)
    (h : Config.Unreported bytes) : EndsUnreported files folder := by
  have load := Config.load_of_read read
  cases h with
  | @load cause failed other =>
    rw [Config.ofBytes_of_failed failed other] at load
    refine ⟨.config (.load cause), fun patterns => ?_⟩
    rw [lint_of_unloaded (congrArg Run.result load), written, load]
    rfl
  | @unusable document loaded unusable =>
    rw [Config.ofBytes_of_loaded loaded] at load
    cases gives : Settings.ofConfig (Config.contentOf document) with
    | ok settings => exact absurd (Settings.ofConfig_isOk_iff.mp ⟨settings, gives⟩) unusable
    | error e =>
      refine ⟨.settings e, fun patterns => ?_⟩
      rw [lint_of_unusable (congrArg Run.result load) gives, written, load]
      rfl

/-- A configuration that can be read gives settings, or ends the command with an error in the log, unless its bytes
    are no text, a scalar has no value, or the document is no usable configuration: then the command ends by a failure
    that nothing reports. -/
theorem configures_or_endsLogged_iff (read : files.read (Config.place files folder) = .ok bytes) :
    ((Configures files folder ∨ EndsLogged files folder) ↔ ¬ Config.Unreported bytes) ∧
    (Configures files folder ↔
      ∃ document, Yaml.loadFile bytes = .ok document ∧ Usable (Config.contentOf document)) ∧
    (EndsLogged files folder ↔ Yaml.loadFile bytes = .error .malformed) ∧
    (EndsUnreported files folder ↔ Config.Unreported bytes) := by
  -- The outcomes exclude one another, as the three kinds of bytes do, so each kind settles all four statements.
  rcases Config.usable_or_malformed_or_unreported bytes with ⟨document, loaded, usable⟩ | failed | unreported
  · have configures := configures_of_usable read loaded usable
    have reported : ¬ Config.Unreported bytes := Config.not_unreported_of_usable loaded usable
    refine ⟨iff_of_true (Or.inl configures) reported, iff_of_true configures ⟨document, loaded, usable⟩,
      iff_of_false (not_endsLogged_of_configures configures) ?_,
      iff_of_false (fun h => not_configures_of_endsUnreported h configures) reported⟩
    rw [loaded]
    nofun
  · have logged := endsLogged_of_malformed read failed
    have reported : ¬ Config.Unreported bytes := Config.not_unreported_of_malformed failed
    refine ⟨iff_of_true (Or.inr logged) reported,
      iff_of_false (fun h => not_endsLogged_of_configures h logged) ?_, iff_of_true logged failed,
      iff_of_false (fun h => not_endsLogged_of_endsUnreported h logged) reported⟩
    rw [failed]
    nofun
  · have ends := endsUnreported_of_unreported read unreported
    refine ⟨iff_of_false ?_ (not_not_intro unreported), iff_of_false (not_configures_of_endsUnreported ends) ?_,
      iff_of_false (not_endsLogged_of_endsUnreported ends) ?_, iff_of_true ends unreported⟩
    · exact not_or.mpr ⟨not_configures_of_endsUnreported ends, not_endsLogged_of_endsUnreported ends⟩
    · exact fun ⟨document, loaded, usable⟩ => Config.not_unreported_of_usable loaded usable unreported
    · exact fun failed => Config.not_unreported_of_malformed failed unreported

end Read

/-! ### Some configurations -/

/-- Files of which the configuration is the only one that can be read. -/
def withConfig (bytes : List UInt8) : Files where
  working := "/"
  find _ := .ok []
  read path := if path = "/config/config.yml" then .ok bytes else .error .notFound

theorem read_withConfig (bytes : List UInt8) :
    (withConfig bytes).read (Config.place (withConfig bytes) "config") = .ok bytes := by
  have place : Config.place (withConfig bytes) "config" = "/config/config.yml" := by
    show String.ofList (Config.path "/" "config") = _
    decide +kernel
  have read (path : String) : (withConfig bytes).read path =
      if path = "/config/config.yml" then .ok bytes else .error .notFound := rfl
  rw [read, if_pos place]

def asciiBytes (s : String) : List UInt8 := s.toList.map fun c => UInt8.ofNat c.toNat

/-- An unclosed list is a breach of the rules that is reported. -/
theorem configures_or_endsLogged_iff_unclosed :
    (withConfig (asciiBytes "logging: [a")).read (Config.place (withConfig (asciiBytes "logging: [a")) "config") =
      .ok (asciiBytes "logging: [a") ∧
    Config.failure? (asciiBytes "logging: [a") = some (.config .malformed) ∧
    EndsLogged (withConfig (asciiBytes "logging: [a")) "config" := by
  have read := read_withConfig (asciiBytes "logging: [a")
  have failed : Config.failure? (asciiBytes "logging: [a") = some (.config .malformed) := by decide +kernel
  exact ⟨read, failed, (configures_or_endsLogged_iff read).2.2.1.mpr (Config.malformed_of_failure? failed)⟩

/-- Bytes that are no text, a day that does not exist, a list, and sections, levels and templates that are none. -/
def unusableConfigs : List (List UInt8) :=
  [0xff] :: ["a: 2001-02-30", "- a", "logging: a", "logging: \x7blevel: LOUD\x7d", "logging: \x7bformat: a\x7d"].map asciiBytes

theorem endsUnreported_of_mem_unusableConfigs {bytes : List UInt8} (member : bytes ∈ unusableConfigs) :
    EndsUnreported (withConfig bytes) "config" := by
  have failures : ∀ bytes ∈ unusableConfigs, ∃ failure ∈ Config.failure? bytes, failure ≠ .config .malformed := by
    decide +kernel
  obtain ⟨failure, failed, other⟩ := failures bytes member
  exact endsUnreported_of_unreported (read_withConfig bytes) (Config.unreported_of_failure? failed other)

/-- Bytes that are no text neither configure the log nor end the command with an error in it. -/
theorem endsUnreported_noText : EndsUnreported (withConfig [0xff]) "config" ∧
    ¬ (Configures (withConfig [0xff]) "config" ∨ EndsLogged (withConfig [0xff]) "config") := by
  have ends := endsUnreported_of_mem_unusableConfigs List.mem_cons_self
  exact ⟨ends, not_or.mpr ⟨not_configures_of_endsUnreported ends, not_endsLogged_of_endsUnreported ends⟩⟩

end CommandLine.Outcome

end LocaleLint
