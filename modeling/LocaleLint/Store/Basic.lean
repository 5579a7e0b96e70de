import LocaleLint.Entries
import LocaleLint.Files.Basic
import LocaleLint.Store.Path

/-! # Stores of files

A store is a tree of directories and files with a directory that relative paths start from. A path is
followed name by name: each name is looked up in a directory, and a step up goes to the directory
above. -/

namespace LocaleLint

/-- A file with its bytes, or a directory with its entries. -/
inductive FileTree where
  | file (bytes : List UInt8)
  | directory (entries : List (String × FileTree))
  deriving Inhabited

def FileTree.isDirectory : FileTree → Bool
  | file _ => false
  | directory _ => true

/-- What stands at a path, and the directories above it, the nearest first. -/
structure Place where
  tree : FileTree
  above : List FileTree

namespace Place

def nameLimit : Nat := 255

def step (place : Place) (name : List Char) : Except FileError Place :=
  match place.tree with
  | .file _ => .error .notDirectory
  | .directory entries =>
    if Path.isHere name then .ok place
    else if name = Path.above then
      match place.above with
      | [] => .ok place
      | parent :: above => .ok ⟨parent, above⟩
    else if (String.ofList name).utf8ByteSize > nameLimit then .error .nameTooLong
    else
      match Entries.get? entries (String.ofList name) with
      | some tree => .ok ⟨tree, place.tree :: place.above⟩
      | none => .error .notFound

def steps (place : Place) : List (List Char) → Except FileError Place
  | [] => .ok place
  | name :: names =>
    match place.step name with
    | .ok next => next.steps names
    | .error e => .error e

end Place

/-- A tree of files, and the names from its root to the directory that relative paths start from. -/
structure Store where
  root : FileTree
  working : List String

namespace Store

/-- The number of bytes from which on a path is too long. -/
def pathLimit : Nat := 4096

def workingPath (store : Store) : List Char := '/' :: Path.ofNames (store.working.map String.toList)

/-- The names from the root to a path. -/
def namesOf (store : Store) (path : List Char) : List (List Char) :=
  if Path.isAbsolute path then Path.split path else store.working.map String.toList ++ Path.split path

def find (store : Store) (path : List Char) : Except FileError Place :=
  if path.contains '\x00' then .error .nullCharacter
  else if path.isEmpty then .error .notFound
  else if (String.ofList path).utf8ByteSize ≥ pathLimit then .error .nameTooLong
  else Place.steps ⟨store.root, []⟩ (store.namesOf path)

def has (store : Store) (path : List Char) : Bool :=
  match store.find path with
  | .ok _ => true
  | .error _ => false

def hasDirectory (store : Store) (path : List Char) : Bool :=
  match store.find path with
  | .ok place => place.tree.isDirectory
  | .error _ => false

def bytes (store : Store) (path : List Char) : Except FileError (List UInt8) :=
  match store.find path with
  | .error e => .error e
  | .ok ⟨.directory _, _⟩ => .error .isDirectory
  | .ok ⟨.file bytes, _⟩ => .ok bytes

end Store

end LocaleLint
