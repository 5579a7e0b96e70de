import LocaleLint.CommandLine.Similar
import LocaleLint.Text.Order
import LocaleLint.Text.Quoted

/-! # Usage

The program has one command, which has options and patterns. What is wrong with the arguments is told
together with how the program, or the command, is used. -/

namespace LocaleLint.CommandLine

/-- What arguments are for: the program as a whole, or its command. -/
inductive Scope where
  | program
  | lint
  deriving DecidableEq, Repr

/-- An option: its name, and whether it takes a value. -/
structure OptionKind where
  name : String
  takesValue : Bool
  deriving DecidableEq, Repr

namespace Scope

/-- The words that arguments of a scope follow. -/
def words : Scope → String
  | program => "i18nlint"
  | lint => "i18nlint lint"

def options : Scope → List OptionKind
  | program => [⟨"--version", false⟩, ⟨"--help", false⟩]
  | lint => [⟨"--config-folder", true⟩, ⟨"--help", false⟩]

/-- Whether options may follow other arguments. -/
def mixesOptions : Scope → Bool
  | program => false
  | lint => true

def usage : Scope → String
  | program => "Usage: i18nlint [OPTIONS] COMMAND [ARGS]...\n"
  | lint => "Usage: i18nlint lint [OPTIONS] PATTERNS...\n"

def help : Scope → String
  | program =>
    usage program ++
      "\nOptions:\n  --version  Show the version and exit.\n  --help     Show this message and exit.\n" ++
      "\nCommands:\n  lint  Check locale files matching PATTERNS for translation errors.\n"
  | lint =>
    usage lint ++ "\n  Check locale files matching PATTERNS for translation errors.\n" ++
      "\nOptions:\n  --config-folder TEXT  Configuration folder path.\n" ++
      "  --help                Show this message and exit.\n"

end Scope

def commands : List String := ["lint"]

def versionLine : String := "i18nlint, version 0.1.0\n"

/-- What is wrong with arguments. -/
inductive UsageError where
  | noSuchOption (scope : Scope) (name : String) (similar : List String)
  | noSuchCommand (name : String) (similar : List String)
  | missingCommand
  | missingPatterns
  /-- An option that takes a value is the last argument. -/
  | valueMissing (name : String)
  /-- An option that takes no value is given one. -/
  | valueUnwanted (name : String)
  deriving DecidableEq, Repr

namespace UsageError

def quote (name : String) : String := String.ofList (Text.quoted name.toList)

def quoteAll (names : List String) : String := ", ".intercalate (names.map quote)

/-- What is added about names that are similar to an unknown one. -/
def suggestion : List String → String
  | [] => ""
  | [name] => " Did you mean " ++ quote name ++ "?"
  | names => " (Did you mean one of: " ++ quoteAll (Text.sorted names) ++ "?)"

def message : UsageError → String
  | noSuchOption _ name similar => "No such option " ++ quote name ++ "." ++ suggestion similar
  | noSuchCommand name similar => "No such command " ++ quote name ++ "." ++ suggestion similar
  | missingCommand => "Missing command."
  | missingPatterns => "Missing argument 'PATTERNS...'."
  | valueMissing name => "Option " ++ quote name ++ " requires an argument."
  | valueUnwanted name => "Option " ++ quote name ++ " does not take a value."

/-- The scope whose usage is shown with an error; errors in the use of a known option show none. -/
def scope? : UsageError → Option Scope
  | noSuchOption scope _ _ => some scope
  | noSuchCommand _ _ | missingCommand => some .program
  | missingPatterns => some .lint
  | valueMissing _ | valueUnwanted _ => none

/-- All that is shown about an error. -/
def text (e : UsageError) : String :=
  let usage :=
    match e.scope? with
    | some scope => scope.usage ++ "Try '" ++ scope.words ++ " --help' for help.\n\n"
    | none => ""
  usage ++ "Error: " ++ e.message ++ "\n"

end UsageError

end LocaleLint.CommandLine
