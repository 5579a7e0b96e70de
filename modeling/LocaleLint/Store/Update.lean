import LocaleLint.Store.Basic

/-! # Changing a store

Writing a file or making a directory makes the directories on the way to it. Paths are taken by their
text: a step up takes back the name before it. -/

namespace LocaleLint

namespace FileTree

/-- The entries with what stands under a name changed; what is new comes last. -/
def alterEntry (name : String) (change : Option FileTree → Except FileError (Option FileTree)) :
    List (String × FileTree) → Except FileError (List (String × FileTree))
  | [] =>
    match change none with
    | .error e => .error e
    | .ok none => .ok []
    | .ok (some tree) => .ok [(name, tree)]
  | entry :: rest =>
    if entry.1 = name then
      match change (some entry.2) with
      | .error e => .error e
      | .ok none => .ok rest
      | .ok (some tree) => .ok ((name, tree) :: rest)
    else (alterEntry name change rest).map (entry :: ·)

/-- What stands at the end of names, changed; where nothing stands on the way a directory is made. A file
    in the place of the last directory is refused with a cause of its own. -/
def alter (inTheWay : FileError) (change : Option FileTree → Except FileError (Option FileTree)) :
    List String → Option FileTree → Except FileError (Option FileTree)
  | [], tree => change tree
  | name :: names, tree =>
    match tree.getD (.directory []) with
    | .file _ => .error (if names.isEmpty then inTheWay else .notDirectory)
    | .directory entries =>
      if name.utf8ByteSize > Place.nameLimit then .error .nameTooLong
      else (alterEntry name (alter inTheWay change names) entries).map fun e => some (.directory e)

end FileTree

namespace Store

/-- The store with what stands at a path changed. -/
def alter (store : Store) (path : String) (inTheWay : FileError)
    (change : Option FileTree → Except FileError (Option FileTree)) : Except FileError Store :=
  let names := ((Path.split (Path.absolute store.workingPath path.toList)).filter fun name => !Path.isHere name)
  if path.toList.contains '\x00' then .error .nullCharacter
  else
    (FileTree.alter inTheWay change (names.map String.ofList) (some store.root)).map fun root =>
      { store with root := root.getD (.directory []) }

/-- The store with a file written. Its directory is made first, for which a file may be in the way. -/
def write (store : Store) (path : String) (bytes : List UInt8) : Except FileError Store :=
  store.alter path .occupied fun
    | some (.directory _) => .error .isDirectory
    | _ => .ok (some (.file bytes))

def makeDirectory (store : Store) (path : String) : Except FileError Store :=
  store.alter path .notDirectory fun
    | some _ => .error .occupied
    | none => .ok (some (.directory []))

def remove (store : Store) (path : String) : Except FileError Store :=
  match store.bytes path.toList with
  | .error e => .error e
  | .ok _ => store.alter path .notDirectory fun _ => .ok none

/-- The store whose only directory is the working directory. -/
def emptyAt (working : List String) : Store :=
  ⟨working.foldr (fun name tree => .directory [(name, tree)]) (.directory []), working⟩

end Store

end LocaleLint
