import LocaleLint.CommandLine.Usage

/-! # Requests

Arguments make a request: to show something, or to lint the files that patterns find. Two hyphens end
the options. The options of the program end at the first other argument, which names the command. -/

namespace LocaleLint.CommandLine

/-- What arguments ask for. -/
inductive Request where
  | showVersion
  | showHelp (scope : Scope)
  /-- There are no arguments at all. -/
  | nothing
  | lint (folder : String) (patterns : List String)
  deriving DecidableEq, Repr

/-- Arguments apart: the options with their values, and all else. -/
structure Arguments where
  options : List (String × Option String)
  others : List String
  deriving DecidableEq, Repr

namespace Arguments

/-- The arguments with an option in front. -/
def withOption (name : String) (value : Option String) (args : Arguments) : Arguments :=
  { args with options := (name, value) :: args.options }

/-- The arguments with an argument that is no option in front. -/
def withOther (arg : String) (args : Arguments) : Arguments := { args with others := arg :: args.others }

/-- Whether an argument looks like an option: a hyphen and something after it. -/
def isOption (arg : String) : Bool :=
  match arg.toList with
  | '-' :: _ :: _ => true
  | _ => false

/-- The name and the value of an option, which are parted by the first equality sign. -/
def splitValue (arg : String) : String × Option String :=
  let name := arg.toList.takeWhile (· != '=')
  match arg.toList.dropWhile (· != '=') with
  | [] => (arg, none)
  | _ :: value => (String.ofList name, some (String.ofList value))

/-- The name that an unknown option is called by. After one hyphen each character is an option. -/
def unknownOption (scope : Scope) (arg : String) : UsageError :=
  match arg.toList with
  | '-' :: '-' :: _ =>
    let name := (splitValue arg).1
    .noSuchOption scope name (similarNames name (scope.options.map (·.name)))
  | letters => .noSuchOption scope (String.ofList (letters.take 2)) []

/-- The option that an argument names, and the value that the argument gives it. -/
def optionOf (scope : Scope) (arg : String) : Except UsageError (OptionKind × Option String) :=
  let (name, value) := splitValue arg
  match scope.options.find? (·.name == name) with
  | none => .error (unknownOption scope arg)
  | some option => if value.isSome && !option.takesValue then .error (.valueUnwanted name) else .ok (option, value)

/-- The arguments of a scope. An option that takes a value and is given none takes the next argument. -/
def ofList (scope : Scope) : List String → Except UsageError Arguments
  | [] => .ok ⟨[], []⟩
  | arg :: rest =>
    if arg = "--" then .ok ⟨[], rest⟩
    else if isOption arg then
      match optionOf scope arg with
      | .error e => .error e
      | .ok (option, value) =>
        if option.takesValue && value.isNone then
          match rest with
          | [] => .error (.valueMissing option.name)
          | next :: rest => (ofList scope rest).map (withOption option.name (some next))
        else (ofList scope rest).map (withOption option.name value)
    else if scope.mixesOptions then (ofList scope rest).map (withOther arg)
    else .ok ⟨[], arg :: rest⟩

/-- The last value of an option. -/
def value? (args : Arguments) (name : String) : Option String :=
  ((args.options.filter (·.1 == name)).getLast?).bind (·.2)

def has (args : Arguments) (name : String) : Bool := args.options.any (·.1 == name)

end Arguments

namespace Request

def defaultFolder : String := "config"

def ofLintArguments (arguments : List String) : Except UsageError Request :=
  match Arguments.ofList .lint arguments with
  | .error e => .error e
  | .ok args =>
    if args.has "--help" then .ok (.showHelp .lint)
    else if args.others.isEmpty then .error .missingPatterns
    else .ok (.lint ((args.value? "--config-folder").getD defaultFolder) args.others)

/-- The request of an option of the program. -/
def ofProgramOption (name : String) : Request := if name = "--version" then .showVersion else .showHelp .program

/-- The request of arguments that start with the name of a command. An unknown name is first taken for an
    option. -/
def ofCommand (name : String) (arguments : List String) : Except UsageError Request :=
  if name ∈ commands then ofLintArguments arguments
  else
    match Arguments.ofList .program (name :: arguments) with
    | .error e => .error e
    | .ok ⟨(option, _) :: _, _⟩ => .ok (ofProgramOption option)
    | .ok ⟨[], _⟩ => .error (.noSuchCommand name (similarNames name commands))

/-- The request of the program's arguments: the first option of the program tells what to show. -/
def ofArguments (arguments : List String) : Except UsageError Request :=
  if arguments.isEmpty then .ok .nothing
  else
    match Arguments.ofList .program arguments with
    | .error e => .error e
    | .ok ⟨(option, _) :: _, _⟩ => .ok (ofProgramOption option)
    | .ok ⟨[], []⟩ => .error .missingCommand
    | .ok ⟨[], name :: rest⟩ => ofCommand name rest

end Request

end LocaleLint.CommandLine
