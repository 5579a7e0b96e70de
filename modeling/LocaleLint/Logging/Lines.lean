import LocaleLint.Journal
import LocaleLint.Logging.Settings
import LocaleLint.Logging.Stamp

/-! # Log lines

Each entry of a log that is grave enough is written as one line after the template. A line whose template
cannot be filled in is not written. Before there are settings, warnings and errors are written as their
bare messages. -/

namespace LocaleLint.Logging

/-- The text of the time stamp of a line. Only a text can be the format of one. -/
def Settings.timeStamp? (settings : Settings) : Option (List Char) :=
  if settings.datefmt.isBlank then some Stamp.standard
  else
    match settings.datefmt with
    | .text s => Stamp.write? s.toList
    | _ => none

def fileName (source : Source) : String := source.shortName ++ ".py"

/-- The fields of an entry by name. Those that tell one run from another are the same in all lines. -/
def field? (settings : Settings) (entry : LogEntry) (name : List Char) : Option FieldValue :=
  match String.ofList name with
  | "levelname" => some (.text entry.level.name.toList)
  | "levelno" => some (.number entry.level.number)
  | "name" => some (.text entry.source.name.toList)
  | "module" => some (.text entry.source.shortName.toList)
  | "filename" => some (.text (fileName entry.source).toList)
  | "pathname" => some (.text ('/' :: (fileName entry.source).toList))
  | "funcName" => some (.text entry.origin.routine.toList)
  | "lineno" => some (.number entry.origin.line)
  | "message" | "msg" => some (.text entry.message.toList)
  | "asctime" => settings.timeStamp?.map .text
  | "threadName" => some (.text "MainThread".toList)
  | "processName" => some (.text "MainProcess".toList)
  | "args" => some (.object "()".toList)
  | "exc_info" | "exc_text" | "stack_info" => some (.object "None".toList)
  | "created" | "msecs" | "relativeCreated" | "process" | "thread" => some (.number 0)
  | _ => none

def lineOf : Option (List Char) → List Char
  | some s => s ++ ['\n']
  | none => []

def Settings.line (settings : Settings) (entry : LogEntry) : List Char :=
  if entry.level.number < settings.level then []
  else lineOf (fillIn? settings.format.toList (field? settings entry))

def Settings.lines (settings : Settings) (log : List LogEntry) : List Char := log.flatMap settings.line

/-- The lines of a log before there are settings. -/
def bareLines (log : List LogEntry) : List Char :=
  log.flatMap fun entry => if entry.level.number < Level.warning.number then [] else entry.message.toList ++ ['\n']

end LocaleLint.Logging
