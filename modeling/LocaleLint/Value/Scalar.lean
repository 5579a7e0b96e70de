import LocaleLint.Value.Printed

/-! # The text of a value

A leaf of a translation tree is a text, so every loaded value that is no mapping is given one: nothing
is empty, truth values are `true` and `false`, dates have their ISO form, a list is its items' texts
between brackets, and everything else is printed. -/

namespace LocaleLint.Value

mutual

def scalarText : Value → Except CoercionError (List Char)
  | null => .ok []
  | bool b => .ok (if b then "true".toList else "false".toList)
  | date d => .ok d.iso
  | moment t => .ok t.iso
  | list items => (scalarTexts items).map Container.list.enclose
  | text s => .ok s.toList
  | v => printed v

/-- The texts of values, from the first on. -/
def scalarTexts : List Value → Except CoercionError (List (List Char))
  | [] => .ok []
  | v :: rest =>
    match scalarText v with
    | .error e => .error e
    | .ok s => (scalarTexts rest).map (s :: ·)

end

example : (scalarText (.list [.null, .bool true, .mapping [(.text "x", .null)]])).toOption =
    some "[, true, \x7b'x': None\x7d]".toList := by decide +kernel

end LocaleLint.Value
