import LocaleLint.CommandLine.Request
import LocaleLint.Config.Load
import LocaleLint.Lint.Run
import LocaleLint.Logging.Lines

/-! # Outcomes

What a run of the program leaves: its exit code, what it prints, and what it writes to the error output.
The command loads its configuration, takes its logging settings from it, and lints; a file that is at
fault is reported in the log. Any other failure ends the run where it is. -/

namespace LocaleLint.CommandLine

/-- Why a run ended before its time. -/
inductive Failure where
  | config (cause : ConfigError)
  | settings (cause : Logging.SettingsError)
  | lint (cause : LintError)
  /-- A text that is to be printed holds half of a surrogate pair. -/
  | unwritable
  deriving DecidableEq, Repr

/-- What a run of the program leaves. -/
structure Outcome where
  exitCode : Nat
  printed : List Char
  errors : List Char
  /-- The failure that ended the run without being reported. -/
  failure : Option Failure

namespace Outcome

def shown (text : String) : Outcome := ⟨0, text.toList, [], none⟩

def refused (text : String) : Outcome := ⟨2, [], text.toList, none⟩

/-- A failure of linting that is reported in the log. -/
def report? : LintError → Option String
  | .locale (.fault filename fault) => some (faultMessage filename fault)
  | _ => none

/-- An outcome by what was done until then. The error output has escapes for what it cannot hold. -/
def after (journal : Journal) (settings : Logging.Settings) (exitCode : Nat) (failure : Option Failure) : Outcome :=
  ⟨exitCode, journal.printed, Text.escapeHalves (settings.lines journal.log), failure⟩

/-- The outcome of a run of the linter whose printed texts can all be written. -/
def ofRun (settings : Logging.Settings) (run : Run LintError Nat) : Outcome :=
  match run.result with
  | .ok code => after run.journal settings code none
  | .error e =>
    match report? e with
    | some message => after (run.journal ++ .entry (.fault message)) settings 1 none
    | none => after run.journal settings 1 (some (.lint e))

/-- The outcome of linting: a text that cannot be written ends the run. -/
def ofLint (settings : Logging.Settings) (run : Run LintError Nat) : Outcome :=
  if run.journal.isWritable then ofRun settings run
  else after run.journal.writable settings 1 (some .unwritable)

/-- An outcome with what the configuration wrote to the error output in front. -/
def withErrors (written : List Char) (outcome : Outcome) : Outcome :=
  { outcome with errors := written ++ outcome.errors }

/-- A failure to load the configuration that is not reported in the log. -/
def unreported? : ConfigError → Option Failure
  | .malformed => none
  | e => some (.config e)

def lint (files : Files) (folder : String) (patterns : List String) : Outcome :=
  let config := Config.load files folder
  let written := Logging.bareLines config.journal.log
  match config.result with
  | .error e => ⟨1, [], written, unreported? e⟩
  | .ok value =>
    match Logging.Settings.ofConfig value with
    | .error e => ⟨1, [], written, some (.settings e)⟩
    | .ok settings => (ofLint settings (Lint.run files patterns)).withErrors written

def ofRequest (files : Files) : Request → Outcome
  | .showVersion => shown versionLine
  | .showHelp scope => shown scope.help
  | .nothing => refused (Scope.help .program)
  | .lint folder patterns => lint files folder patterns

def ofArguments (files : Files) (arguments : List String) : Outcome :=
  match Request.ofArguments arguments with
  | .error e => refused e.text
  | .ok request => ofRequest files request

end Outcome

end LocaleLint.CommandLine
