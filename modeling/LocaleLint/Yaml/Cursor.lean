import LocaleLint.Text.Digit
import LocaleLint.Yaml.Error

/-! # Positions in a document's text

A cursor is what is left of a text with the place where it starts. Lines end in a carriage return, a
line feed, both together, or one of the three other line ends of Unicode; a byte-order mark takes no
column. Reading steps move a cursor on or fail.

A text may be cut off. To look at a character beyond that place is a failure of its own, so every step that
looks further ahead than the next character says so. -/

namespace LocaleLint.Yaml

def isLineEnd (c : Char) : Bool :=
  c == '\n' || c == '\r' || c == '\x85' || c == '\u2028' || c == '\u2029'

/-- Whether a character separates tokens: a blank, a tab or a line end. -/
def isSeparator (c : Char) : Bool := c == ' ' || c == '\t' || isLineEnd c

/-- Whether a text starts with a separator or has ended. -/
def startsApart : List Char → Bool
  | [] => true
  | c :: _ => isSeparator c

/-- Whether a text starts with a line end or has ended. -/
def lineEnded : List Char → Bool
  | [] => true
  | c :: _ => isLineEnd c

/-- Whether a text starts with a blank or a line end or has ended. -/
def wordEnded : List Char → Bool
  | [] => true
  | c :: _ => c == ' ' || isLineEnd c

/-- Whether the next character is a given one. -/
def startsWith (c : Char) (s : List Char) : Bool := s.head? == some c

/-- Whether a text starts with the three characters of a document mark and they stand apart. -/
def startsMark (mark : Char) (s : List Char) : Bool :=
  s.take 3 == [mark, mark, mark] && startsApart (s.drop 3)

/-- Whether a text starts with a mark of either kind: where a document starts or where it ends. -/
def startsDocumentMark (s : List Char) : Bool := startsMark '-' s || startsMark '.' s

/-- Whether a character is an ASCII letter or digit, a hyphen or an underscore. -/
def isWordChar (c : Char) : Bool := c.isAlphanum || c == '-' || c == '_'

/-- What is left of a text of a size and where that starts. -/
structure Cursor where
  rest : List Char
  /-- Why the text is cut off after that, if it is. -/
  cut : Option LoadError
  size : Nat
  index : Nat
  line : Nat
  column : Nat
  deriving Inhabited

namespace Cursor

def ofText (s : List Char) (cut : Option LoadError) : Cursor := ⟨s, cut, s.length, 0, 0, 0⟩

def next (c : Cursor) : Cursor :=
  match c.rest with
  | [] => c
  | x :: rest =>
    if isLineEnd x && !(x == '\r' && startsWith '\n' rest) then
      { c with rest, index := c.index + 1, line := c.line + 1, column := 0 }
    else
      { c with rest, index := c.index + 1, column := if x == '\ufeff' then c.column else c.column + 1 }

def skip (c : Cursor) : Nat → Cursor
  | 0 => c
  | n + 1 => c.next.skip n

end Cursor

/-- A step that reads from a cursor. -/
abbrev Reader := StateT Cursor (Except LoadError)

namespace Reader

def rest : Reader (List Char) := return (← get).rest

def column : Reader Nat := return (← get).column

/-- More steps than can be taken with each of them reading a character. -/
def bound : Reader Nat := return (← get).size - (← get).index + 1

def malformed {α : Type} : Reader α := throw .malformed

/-- Looks at the character `n` places ahead, which is refused where the text is cut off before it. -/
def lookAhead (n : Nat) : Reader Unit := do
  let c ← get
  match c.cut with
  | none => return
  | some e => if (c.rest.drop n).isEmpty then throw e

/-- Moves on by a number of characters and looks at the next one. -/
def skip (n : Nat) : Reader Unit := do
  modify (·.skip n)
  lookAhead 0

/-- The characters up to the first one outside a class. -/
def takeWhile (p : Char → Bool) : Reader (List Char) := do
  let run := (← rest).takeWhile p
  skip run.length
  return run

/-- The line end at the cursor as text, if there is one: the two line ends of Unicode that are kept, and
    a line feed for all others. -/
def lineEnd : Reader (List Char) := do
  match ← rest with
  | '\r' :: '\n' :: _ => skip 2; return ['\n']
  | c :: _ =>
    if c == '\u2028' || c == '\u2029' then skip 1; return [c]
    else if isLineEnd c then skip 1; return ['\n']
    else return []
  | [] => return []

/-- Whether a document mark of either kind starts here. -/
def atDocumentMark : Reader Bool := do
  lookAhead 2
  let mark := (← rest).take 3
  if mark == "---".toList || mark == "...".toList then lookAhead 3
  return startsDocumentMark (← rest)

/-- The code that a number of hexadecimal digits at the cursor name. -/
def peekCode (length : Nat) : Reader Nat := do
  let digits := ((← rest).take length).takeWhile fun c => (Text.hexDigit? c).isSome
  lookAhead (min digits.length (length - 1))
  if digits.length < length then malformed
  return Text.ofDigits 16 (digits.filterMap Text.hexDigit?)

/-- Blanks, then a comment if one starts. -/
def skipComment : Reader Unit := do
  let _ ← takeWhile (· == ' ')
  if startsWith '#' (← rest) then
    let _ ← takeWhile (!isLineEnd ·)

/-- The end of a line that may hold blanks and a comment only. -/
def skipLine : Reader Unit := do
  skipComment
  unless lineEnded (← rest) do malformed
  let _ ← lineEnd

end Reader

end LocaleLint.Yaml
