/-! # Log entries

What is worth logging, each entry with its level, its message and the place in the program that it comes
from. -/

namespace LocaleLint

/-- How grave a log entry is. -/
inductive Level where
  | debug
  | info
  | warning
  | error
  deriving DecidableEq, Repr

namespace Level

def name : Level → String
  | debug => "DEBUG"
  | info => "INFO"
  | warning => "WARNING"
  | error => "ERROR"

/-- The number by which levels are compared. -/
def number : Level → Nat
  | debug => 10
  | info => 20
  | warning => 30
  | error => 40

end Level

/-- The part of the program that a log entry comes from. -/
inductive Source where
  | reading
  | checking
  | linting
  | command
  deriving DecidableEq, Repr

namespace Source

/-- The last part of the name of a part of the program. -/
def shortName : Source → String
  | reading => "parser"
  | checking => "validator"
  | linting => "linter"
  | command => "cli"

def name (source : Source) : String := "i18nlint." ++ source.shortName

end Source

/-- A place in the program as log lines show it: the routine, and the line in the source's file. -/
structure Origin where
  routine : String
  line : Nat
  deriving DecidableEq, Repr

/-- Something that is logged. -/
inductive LogEntry where
  /-- A pattern finds nothing. -/
  | unmatched (pattern : String)
  /-- A number of files is about to be linted. -/
  | starting (files : Nat)
  | parsing (filename : String)
  | loaded (locale filename : String)
  /-- A mapping is exempt from the rules for mappings that tell texts apart by number. -/
  | exempt (key : String)
  | clean (filename : String)
  | faulty (issues : Nat) (filename : String)
  | failed (count linted : Nat)
  | noConfig (path : String)
  | malformedConfig
  | fault (message : String)
  deriving DecidableEq, Repr

namespace LogEntry

def level : LogEntry → Level
  | parsing _ | loaded _ _ | exempt _ => .debug
  | starting _ | clean _ => .info
  | unmatched _ | noConfig _ => .warning
  | faulty _ _ | failed _ _ | malformedConfig | fault _ => .error

def source : LogEntry → Source
  | parsing _ | loaded _ _ => .reading
  | exempt _ => .checking
  | unmatched _ | starting _ | clean _ | faulty _ _ | failed _ _ => .linting
  | noConfig _ | malformedConfig | fault _ => .command

def message : LogEntry → String
  | unmatched pattern => "No files match " ++ pattern
  | starting files => "Linting " ++ toString files ++ " locale files..."
  | parsing filename => "Parsing " ++ filename
  | loaded locale filename => "Loaded locale " ++ locale ++ " from " ++ filename
  | exempt key => "Skipping pluralization check for " ++ key
  | clean filename => "No issues found in " ++ filename
  | faulty issues filename => "Found " ++ toString issues ++ " issues in " ++ filename
  | failed count linted => toString count ++ " of " ++ toString linted ++ " locale files have errors"
  | noConfig path => "Config file " ++ path ++ " not found, using defaults."
  | malformedConfig => "load_config YAML error"
  | fault message => message

/-- Where in its source an entry comes from. -/
def origin : LogEntry → Origin
  | unmatched _ => ⟨"resolve_filenames", 18⟩
  | starting _ => ⟨"run", 43⟩
  | parsing _ => ⟨"load_locale_file", 87⟩
  | loaded _ _ => ⟨"load_locale_file", 93⟩
  | exempt _ => ⟨"validate_pluralizations", 104⟩
  | clean _ => ⟨"lint_file", 31⟩
  | faulty _ _ => ⟨"lint_file", 37⟩
  | failed _ _ => ⟨"run", 49⟩
  | noConfig _ => ⟨"load_config", 30⟩
  | malformedConfig => ⟨"load_config", 32⟩
  | fault _ => ⟨"lint", 62⟩

end LogEntry

end LocaleLint
