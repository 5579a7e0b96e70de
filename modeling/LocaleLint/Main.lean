import LocaleLint.CommandLine.Outcome
import LocaleLint.Files.OfStore
import LocaleLint.Store.Update

/-! # The program

The files that a request is about are looked up and read first; what the program then does with them is
`CommandLine.Outcome`. -/

namespace LocaleLint.Main

open CommandLine

/-- The greatest number of directories that any number of directories stands for. -/
def greatestDepth : Nat := 40

/-- What stands at a path of the disk, down to a depth. The files have no bytes. -/
def snapshot : Nat → String → IO FileTree
  | 0, _ => return .file []
  | depth + 1, path => do
    let place := (← IO.currentDir) / path
    if !(← place.isDir) then return .file []
    let entries ← place.readDir
    return .directory (← entries.toList.mapM fun entry => do
      let tree ← snapshot depth (path ++ "/" ++ entry.fileName)
      return (entry.fileName, if depth = 0 && (← entry.path.isDir) then .directory [] else tree))

/-- The names of a pattern up to the first that is wild, and the others. -/
def literalNames (pattern : String) : List (List Char) × List (List Char) :=
  (Path.split pattern.toList).span fun name => !Pattern.isWild name

/-- The names that a pattern finds on the disk. -/
def find (working pattern : String) : IO (Except FileError (List String)) := do
  let (literal, wild) := literalNames pattern
  let start := if wild.isEmpty then literal.dropLast else literal
  let depth := if wild.contains Store.anyDepth then greatestDepth else wild.length + 1
  let folder := String.ofList (Path.absolute working.toList (Path.ofNames (start ++ [[]])))
  let names := (Path.split working.toList).filter fun name => !Path.isHere name
  let store := Store.emptyAt (names.map String.ofList)
  if !(← ((← IO.currentDir) / folder).pathExists) then return store.glob pattern
  let tree ← snapshot depth folder
  return ((store.alter folder .notDirectory fun _ => .ok (some tree)).toOption.getD store).glob pattern

def read (path : String) : IO (Except FileError (List UInt8)) := do
  let place := (← IO.currentDir) / path
  if ← place.isDir then return .error .isDirectory
  if !(← place.pathExists) then return .error .notFound
  return .ok (← IO.FS.readBinFile place).toList

def lookUp {α : Type} (pairs : List (String × α)) (key : String) (default : α) : α :=
  ((pairs.find? (·.1 == key)).map (·.2)).getD default

/-- The files of the disk that a request is about. -/
def filesOf (request : Except UsageError Request) : IO Files := do
  let working := (← IO.currentDir).toString
  match request with
  | .ok (.lint folder patterns) =>
    let found ← patterns.mapM fun pattern => do return (pattern, ← find working pattern)
    let names := found.flatMap fun (_, names) => names.toOption.getD []
    let paths := Config.path working folder :: names.map fun name => Path.tidy name.toList
    let bytes ← paths.mapM fun path => do return (String.ofList path, ← read (String.ofList path))
    return ⟨working, (lookUp found · (.ok [])), (lookUp bytes · (.error .notFound))⟩
  | _ => return ⟨working, fun _ => .ok [], fun _ => .error .notFound⟩

end LocaleLint.Main

/-- Runs the program. Colours are for terminals only. -/
def main (arguments : List String) : IO UInt32 := do
  let files ← LocaleLint.Main.filesOf (LocaleLint.CommandLine.Request.ofArguments arguments)
  let outcome := LocaleLint.CommandLine.Outcome.ofArguments files arguments
  let output ← IO.getStdout
  let printed := if ← output.isTty then outcome.printed else LocaleLint.Text.unstyled outcome.printed
  output.putStr (String.ofList printed)
  (← IO.getStderr).putStr (String.ofList outcome.errors)
  if let some failure := outcome.failure then IO.eprintln ("i18nlint: " ++ reprStr failure)
  return UInt32.ofNat outcome.exitCode
