import LocaleLint.Files.Basic
import LocaleLint.Pattern.Find

/-! # The files of a store -/

namespace LocaleLint

/-- A store as a system of files. -/
def Store.files (store : Store) : Files where
  working := String.ofList store.workingPath
  find := store.glob
  read path := store.bytes path.toList

end LocaleLint
