import LocaleLint.Pattern.Basic
import LocaleLint.Store.Basic

/-! # Finding files by a pattern

The pattern of a path is a pattern for each of its names. A name of two stars stands for any number of
directories, or at the end for everything below. Names that start with a dot are hidden: only a pattern
that starts with a dot finds them, and nothing below a hidden directory counts as below another. The
directory itself, which a name of two stars finds too, need not exist. A pattern that ends in a slash
finds directories. -/

namespace LocaleLint

def isHidden (name : List Char) : Bool := name.head? == some '.'

namespace FileTree

mutual

/-- The paths of all that is not hidden below a tree, or of the directories among it. -/
def descendants (onlyDirectories : Bool) : FileTree → List (List Char)
  | file _ => []
  | directory entries => descendantsAmong onlyDirectories entries

/-- The paths of all that is not hidden among entries and below them. -/
def descendantsAmong (onlyDirectories : Bool) : List (String × FileTree) → List (List Char)
  | [] => []
  | (name, tree) :: rest =>
    let found :=
      if isHidden name.toList || onlyDirectories && !tree.isDirectory then []
      else name.toList :: (descendants onlyDirectories tree).map (Path.join name.toList)
    found ++ descendantsAmong onlyDirectories rest

end

/-- The names in a directory, or those of the directories among them. -/
def names (onlyDirectories : Bool) : FileTree → List (List Char)
  | file _ => []
  | directory entries => (entries.filter fun e => !onlyDirectories || e.2.isDirectory).map (·.1.toList)

end FileTree

namespace Store

/-- The tree to be listed at a path, where the empty path is the working directory. What is not there has
    nothing in it. -/
def listed (store : Store) (path : List Char) : Except FileError FileTree :=
  match store.find (if path.isEmpty then ['.'] else path) with
  | .ok place => .ok place.tree
  | .error .nullCharacter => .error .nullCharacter
  | .error _ => .ok (.directory [])

/-- The pattern of any number of directories. -/
def anyDepth : List Char := ['*', '*']

/-- The names in a directory that a pattern of one name finds. -/
def findNames (store : Store) (onlyDirectories : Bool) (directory name : List Char) :
    Except FileError (List (List Char)) :=
  if name = anyDepth then
    (store.listed directory).map fun tree => [] :: tree.descendants onlyDirectories
  else if Pattern.isWild name then
    (store.listed directory).map fun tree =>
      (tree.names onlyDirectories).filter fun found =>
        (isHidden name || !isHidden found) && (Pattern.ofText name).accepts found
  else if name.isEmpty then .ok (if store.hasDirectory directory then [[]] else [])
  else .ok (if store.has (Path.join directory name) then [name] else [])

/-- The paths that the names of each directory make. -/
def findIn (store : Store) (onlyDirectories : Bool) (name : List Char) :
    List (List Char) → Except FileError (List (List Char))
  | [] => .ok []
  | directory :: rest =>
    match store.findNames onlyDirectories directory name with
    | .error e => .error e
    | .ok names => (store.findIn onlyDirectories name rest).map (names.map (Path.join directory) ++ ·)

/-- The paths that a pattern finds, or the directories among them. -/
def findPaths (store : Store) (onlyDirectories : Bool) (pattern : List Char) : Except FileError (List (List Char)) :=
  let parent := (Path.parentAndName pattern).1
  let name := (Path.parentAndName pattern).2
  if !Pattern.isWild pattern then
    .ok (if (if name.isEmpty then store.hasDirectory parent else store.has pattern) then [pattern] else [])
  else if parent.isEmpty then store.findNames onlyDirectories [] name
  else if _ : Pattern.isWild parent ∧ parent.length < pattern.length then
    match store.findPaths true parent with
    | .error e => .error e
    | .ok directories => store.findIn onlyDirectories name directories
  else store.findIn onlyDirectories name [parent]
termination_by pattern.length
decreasing_by exact (by assumption : _ ∧ _).2

/-- The paths that a pattern finds. The working directory is not among those of any number of
    directories. -/
def glob (store : Store) (pattern : String) : Except FileError (List String) :=
  let text := pattern.toList
  (store.findPaths false text).map fun paths =>
    let paths :=
      match paths with
      | [] :: rest => if anyDepth.isPrefixOf text then rest else paths
      | _ => paths
    paths.map String.ofList

end Store

end LocaleLint
