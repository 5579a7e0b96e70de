import LocaleLint.Yaml.Cursor

/-! # Plain scalars

Text without quotes runs up to a comment, a colon that ends a key, or a line that is indented too
little. Line ends inside it are folded: one is a blank, and of several all but the first stay. -/

namespace LocaleLint.Yaml.Token

open Reader

/-- Whether a colon before this text ends a key. -/
def endsKey (inFlow : Bool) : List Char → Bool
  | [] => true
  | c :: _ => isSeparator c || (inFlow && ",[]\x7b\x7d".toList.contains c)

/-- The number of characters up to where a run of plain text may end. -/
def plainLength (inFlow : Bool) : List Char → Nat
  | [] => 0
  | c :: rest =>
    if isSeparator c || (c == ':' && endsKey inFlow rest) || (inFlow && ",?[]\x7b\x7d".toList.contains c) then 0
    else plainLength inFlow rest + 1

/-- The line ends and blanks of empty lines, as the line ends that they leave; nothing if a document
    mark starts a line among them. -/
def readPlainBreaks : Nat → Reader (Option (List Char))
  | 0 => return some []
  | n + 1 => do
    match ← rest with
    | ' ' :: _ => skip 1; readPlainBreaks n
    | _ =>
      let ended ← lineEnd
      if ended.isEmpty then return some []
      if ← atDocumentMark then return none
      return (← readPlainBreaks n).map (ended ++ ·)

/-- What stands between two runs of a plain scalar, and whether a line ended there. The text is empty
    where the scalar has to end. -/
def readPlainSpaces : Reader (List Char × Bool) := do
  let blanks ← takeWhile (· == ' ')
  let ended ← lineEnd
  if ended.isEmpty then return (blanks, false)
  if ← atDocumentMark then return ([], true)
  match ← readPlainBreaks (← bound) with
  | none => return ([], true)
  | some breaks =>
    if ended ≠ ['\n'] then return (ended ++ breaks, true)
    else if breaks.isEmpty then return ([' '], true)
    else return (breaks, true)

/-- The runs of a plain scalar after what was read so far (backwards), the next one after `spaces`; and
    whether the scalar ended after a line end. -/
def readPlainRuns (inFlow : Bool) (indent : Int) : Nat → List Char → List Char → Bool → Reader (List Char × Bool)
  | 0, done, _, newLine => return (done.reverse, newLine)
  | n + 1, done, spaces, newLine => do
    let s ← rest
    let length := plainLength inFlow s
    lookAhead (if startsWith ':' (s.drop length) then length + 1 else length)
    if startsWith '#' s || length == 0 then return (done.reverse, newLine)
    let done := (s.take length).reverse ++ spaces.reverse ++ done
    skip length
    let (spaces, newLine) ← readPlainSpaces
    if spaces.isEmpty || startsWith '#' (← rest) || (!inFlow && ((← column) : Int) < indent) then
      return (done.reverse, newLine)
    readPlainRuns inFlow indent n done spaces newLine

/-- A plain scalar of a collection with an indentation, and whether a line ended at its end. -/
def readPlain (inFlow : Bool) (indent : Int) : Reader (String × Bool) := do
  let (s, newLine) ← readPlainRuns inFlow (indent + 1) (← bound) [] [] false
  return (String.ofList s, newLine)

end LocaleLint.Yaml.Token
