/-! # Dotted keys

The place of an entry is written as the keys on the way to it with dots between them. An empty key at
the start leaves no dot behind. -/

namespace LocaleLint

def joinKey (parent key : String) : String := if parent.isEmpty then key else parent ++ "." ++ key

/-- The dotted key of a path below a place. -/
def dottedFrom (parent : String) (path : List String) : String := path.foldl joinKey parent

def dotted (path : List String) : String := dottedFrom "" path

theorem dottedFrom_cons (parent key : String) (path : List String) :
    dottedFrom parent (key :: path) = dottedFrom (joinKey parent key) path := rfl

end LocaleLint
