/-! # Files

What the linter asks of a system of files: the names that a pattern finds, the bytes at a path, and the
directory that relative paths start from. -/

namespace LocaleLint

/-- Why something cannot be done with a path. -/
inductive FileError where
  | notFound
  | isDirectory
  | notDirectory
  /-- There is something at the path already. -/
  | occupied
  | nameTooLong
  | nullCharacter
  deriving DecidableEq, Repr

/-- A system of files. -/
structure Files where
  /-- The path of the directory that relative paths start from. -/
  working : String
  /-- The names that a pattern finds, in any order and possibly with repetitions. -/
  find : String → Except FileError (List String)
  /-- The bytes of the file at a path. -/
  read : String → Except FileError (List UInt8)

end LocaleLint
