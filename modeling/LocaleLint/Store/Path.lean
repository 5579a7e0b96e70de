/-! # Paths

A path is a text whose slashes separate names. It is absolute if it starts with a slash; exactly two
slashes at its start are a root of their own, any other number is the same as one. -/

namespace LocaleLint.Path

/-- The names between the slashes of a path; there is one more than there are slashes. -/
def split : List Char → List (List Char)
  | [] => [[]]
  | c :: rest =>
    if c = '/' then [] :: split rest
    else
      match split rest with
      | [] => [[c]]
      | name :: names => (c :: name) :: names

def ofNames : List (List Char) → List Char
  | [] => []
  | [name] => name
  | name :: names => name ++ '/' :: ofNames names

def isAbsolute (path : List Char) : Bool := path.head? == some '/'

/-- The root that a path starts from; none for a relative one. -/
def root (path : List Char) : List Char :=
  match (path.takeWhile (· == '/')).length with
  | 0 => []
  | 2 => ['/', '/']
  | _ => ['/']

/-- One path after another. An absolute one stands for itself. -/
def join (a b : List Char) : List Char :=
  if isAbsolute b then b
  else if a.isEmpty || a.getLast? == some '/' then a ++ b
  else a ++ '/' :: b

/-- A path without the slashes at its end, unless it is made of slashes only. -/
def dropTrailing (path : List Char) : List Char :=
  if path.all (· == '/') then path else (path.reverse.dropWhile (· == '/')).reverse

/-- What stands before the last slash, and the last name. -/
def parentAndName (path : List Char) : List Char × List Char :=
  let name := (path.reverse.takeWhile (· != '/')).reverse
  (dropTrailing (path.take (path.length - name.length)), name)

/-- Whether a name stands for the directory that it is looked up in. -/
def isHere (name : List Char) : Bool := name.isEmpty || name == ['.']

/-- The name of the directory above. -/
def above : List Char := ['.', '.']

/-- A path without its names that lead nowhere. The empty path is the directory where one is. -/
def tidy (path : List Char) : List Char :=
  let text := root path ++ ofNames ((split path).filter fun name => !isHere name)
  if text.isEmpty then ['.'] else text

/-- Names with each name before a step up taken back; there is nothing above the root. -/
def cancelSteps (names : List (List Char)) : List (List Char) :=
  (names.foldl (fun kept name => if name = above then kept.drop 1 else name :: kept) []).reverse

/-- The absolute path of a path seen from a directory, by its text alone. -/
def absolute (here path : List Char) : List Char :=
  let whole := if isAbsolute path then path else join here path
  root whole ++ ofNames (cancelSteps ((split whole).filter fun name => !isHere name))

example : tidy "./a//b/.".toList = "a/b".toList ∧ tidy [] = ['.'] := by decide +kernel
example : absolute "/w".toList "a/../../b".toList = "/b".toList := by decide +kernel
example : absolute "/w".toList "//x".toList = "//x".toList := by decide +kernel
example : parentAndName "a//b".toList = (['a'], ['b']) := by decide +kernel
example : parentAndName "/b".toList = (['/'], ['b']) := by decide +kernel

end LocaleLint.Path
