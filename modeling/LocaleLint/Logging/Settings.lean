import LocaleLint.Logging.Template
import LocaleLint.Value.Printed

/-! # Logging settings

A configuration may hold a section of logging settings: the level from which on entries are written, the
template of their lines, and the text of their time stamp. Each one that the section does not name has a
default, and a section that counts as absent names none. -/

namespace LocaleLint.Logging

/-- How the log is written. -/
structure Settings where
  /-- The number of the least level that is written. -/
  level : Nat
  /-- The template of a line. -/
  format : String
  /-- The time stamp of a line. -/
  datefmt : Value
  deriving Repr

/-- Why a configuration gives no settings. -/
inductive SettingsError where
  | notMapping
  | sectionNotMapping
  /-- The level is no value that a level can be looked up by. -/
  | unusableLevel
  | noSuchLevel
  | formatNotText
  /-- The format holds no well-formed field. -/
  | formatWithoutField
  deriving DecidableEq, Repr

def levelNames : List (String × Nat) :=
  [("CRITICAL", 50), ("FATAL", 50), ("ERROR", 40), ("WARN", 30), ("WARNING", 30), ("INFO", 20), ("DEBUG", 10),
    ("NOTSET", 0)]

mutual

/-- Whether a value can be a key. -/
def isKey : Value → Bool
  | .tuple items => areKeys items
  | .list _ | .set _ | .mapping _ | .again _ | .endless => false
  | _ => true

def areKeys : List Value → Bool
  | [] => true
  | v :: rest => isKey v && areKeys rest

end

/-- The number of the level of a name, or of a value equal to the number of some level. -/
def levelNumber? : Value → Option Nat
  | .text s => (levelNames.find? (·.1 == s)).map (·.2)
  | v => (levelNames.find? fun entry => Value.sameKey (.int entry.2) v).map (·.2)

/-- What an unknown level is called by; a tuple is called by the one value that it holds. -/
def callName? : Value → Option Value
  | .tuple [v] => some v
  | .tuple _ => none
  | v => some v

/-- The number of a level. That there is no such level shows at once only if its name cannot be written. -/
def findLevel (v : Value) : Except SettingsError (Option Nat) :=
  if !isKey v then .error .unusableLevel
  else
    match levelNumber? v, callName? v with
    | some n, _ => .ok (some n)
    | none, none => .error .unusableLevel
    | none, some name => if name.printed.isOk then .ok none else .error .noSuchLevel

/-- The template of a line that holds the message alone. -/
def bareFormat : String := "%(message)s"

/-- The template that a value gives; one that counts as absent gives the bare one. -/
def formatOf (v : Value) : Except SettingsError String :=
  if v.isBlank then .ok bareFormat
  else
    match v with
    | .text s => if isTemplate s.toList then .ok s else .error .formatWithoutField
    | _ => .error .formatNotText

def named? (entries : List (Value × Value)) (name : String) : Option Value :=
  (entries.find? fun entry => Value.sameKey entry.1 (.text name)).map (·.2)

/-- The entries of the section of a configuration; it may be the configuration itself. -/
def sectionOf : Value → Except SettingsError (List (Value × Value))
  | .mapping entries =>
    match named? entries "logging" with
    | none => .ok []
    | some (.mapping found) => .ok found
    | some .endless => .ok entries
    | some v => if v.isBlank then .ok [] else .error .sectionNotMapping
  | _ => .error .notMapping

namespace Settings

/-- The settings of a section without entries. -/
def standard : Settings := ⟨30, "%(levelname)s %(name)s: %(message)s", .null⟩

/-- The settings of the entries of a section. -/
def ofSection (entries : List (Value × Value)) : Except SettingsError Settings :=
  match findLevel ((named? entries "level").getD (.int standard.level)) with
  | .error e => .error e
  | .ok level? =>
    match formatOf ((named? entries "format").getD (.text standard.format)) with
    | .error e => .error e
    | .ok format =>
      match level? with
      | none => .error .noSuchLevel
      | some level => .ok ⟨level, format, (named? entries "datefmt").getD standard.datefmt⟩

def ofConfig (config : Value) : Except SettingsError Settings :=
  match sectionOf config with
  | .error e => .error e
  | .ok entries => ofSection entries

example : ofConfig (.mapping []) = .ok standard := by rfl

end Settings

end LocaleLint.Logging
