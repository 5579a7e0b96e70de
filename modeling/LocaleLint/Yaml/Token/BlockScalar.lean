import LocaleLint.Yaml.Cursor

/-! # Block scalars

A block scalar is the lines below its header that are indented enough. The header may say how many
blanks belong to the indentation and what becomes of the line ends at the end; a folded scalar joins
its lines by blanks unless one of them starts with white space or is empty. -/

namespace LocaleLint.Yaml.Token

open Reader

/-- What becomes of the line ends after the last line of text. -/
inductive Chomping where
  | clip
  | strip
  | keep
  deriving DecidableEq

/-- A sign of a header. -/
def chomping? : List Char → Option Chomping
  | '+' :: _ => some .keep
  | '-' :: _ => some .strip
  | _ => none

/-- A digit of a header; zero is refused. -/
def readIncrement : Reader (Option Nat) := do
  match ← rest with
  | c :: _ =>
    if c == '0' then malformed
    if c.isDigit then
      skip 1
      return some (c.toNat - '0'.toNat)
    return none
  | [] => return none

/-- The sign and the digit of a header in either order. -/
def readHeader : Reader (Chomping × Option Nat) := do
  let (chomping, increment) ←
    match chomping? (← rest) with
    | some chomping => do
      skip 1
      pure (chomping, ← readIncrement)
    | none =>
      match ← readIncrement with
      | none => pure (Chomping.clip, none)
      | some increment =>
        match chomping? (← rest) with
        | some chomping => do
          skip 1
          pure (chomping, some increment)
        | none => pure (Chomping.clip, some increment)
  unless wordEnded (← rest) do malformed
  skipLine
  return (chomping, increment)

/-- The empty lines before the first line of text: their line ends, and the greatest column that their
    blanks or those of the line of text reach. -/
def readLeadingLines : Nat → Nat → Reader (List Char × Nat)
  | 0, widest => return ([], widest)
  | n + 1, widest => do
    match ← rest with
    | ' ' :: _ =>
      skip 1
      readLeadingLines n (max widest (← column))
    | _ =>
      let ended ← lineEnd
      if ended.isEmpty then return ([], widest)
      let (breaks, widest) ← readLeadingLines n widest
      return (ended ++ breaks, widest)

/-- Moves over blanks up to a column. -/
def skipIndent (indent : Nat) : Reader Unit := do
  let blanks := (← rest).takeWhile (· == ' ')
  skip (min blanks.length (indent - (← column)))

/-- The line ends of empty lines, up to the indentation of the next line of text. -/
def readBlockBreaks (indent : Nat) : Nat → Reader (List Char)
  | 0 => return []
  | n + 1 => do
    skipIndent indent
    let ended ← lineEnd
    if ended.isEmpty then return []
    return ended ++ (← readBlockBreaks indent n)

/-- Whether a text starts with a blank or a tab. -/
def startsIndented (s : List Char) : Bool := startsWith ' ' s || startsWith '\t' s

/-- The lines of text from the cursor on, after what was read so far (backwards). The result ends with
    the last line of text; its own line end and those of the empty lines after it are given apart. -/
def readBlockLines (folded : Bool) (indent : Nat) : Nat → List Char → List Char →
    Reader (List Char × List Char × List Char)
  | 0, done, breaks => return (done, [], breaks)
  | n + 1, done, breaks => do
    let indented := startsIndented (← rest)
    let line ← takeWhile (!isLineEnd ·)
    let done := line.reverse ++ breaks.reverse ++ done
    let ended ← lineEnd
    let breaks ← readBlockBreaks indent (← bound)
    let s ← rest
    if (← column) == indent && !s.isEmpty then
      let joint :=
        if folded && ended == ['\n'] && !indented && !startsIndented s then
          if breaks.isEmpty then [' '] else []
        else ended
      readBlockLines folded indent n (joint.reverse ++ done) breaks
    else return (done, ended, breaks)

/-- A block scalar inside a collection with an indentation, its mark first. -/
def readBlock (folded : Bool) (outer : Int) : Reader String := do
  skip 1
  let (chomping, increment) ← readHeader
  let least := max (outer + 1) 1 |>.toNat
  let (indent, breaks) ←
    match increment with
    | some increment => do
      let indent := least + increment - 1
      pure (indent, ← readBlockBreaks indent (← bound))
    | none => do
      let (breaks, widest) ← readLeadingLines (← bound) 0
      pure (max least widest, breaks)
  let s ← rest
  let (done, ended, breaks) ←
    if (← column) == indent && !s.isEmpty then readBlockLines folded indent (← bound) [] breaks
    else pure ([], [], breaks)
  let tail :=
    match chomping with
    | .strip => []
    | .clip => ended
    | .keep => ended ++ breaks
  return String.ofList (done.reverse ++ tail)

end LocaleLint.Yaml.Token
