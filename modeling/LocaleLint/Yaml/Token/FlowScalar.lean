import LocaleLint.Text.Surrogate
import LocaleLint.Yaml.Cursor

/-! # Quoted scalars

Between single quotes only the quote itself is escaped, by writing it twice; between double quotes a
backslash starts an escape. Line ends are folded, blanks around them dropped. -/

namespace LocaleLint.Yaml.Token

open Reader

/-- The character that a one-letter escape stands for. -/
def escaped? (c : Char) : Option Char :=
  match c with
  | '0' => some '\x00'
  | 'a' => some '\x07'
  | 'b' => some '\x08'
  | 't' | '\t' => some '\t'
  | 'n' => some '\n'
  | 'v' => some '\x0b'
  | 'f' => some '\x0c'
  | 'r' => some '\r'
  | 'e' => some '\x1b'
  | ' ' => some ' '
  | '\x22' => some '\x22'
  | '\\' => some '\\'
  | '/' => some '/'
  | 'N' => some '\x85'
  | '_' => some '\xa0'
  | 'L' => some '\u2028'
  | 'P' => some '\u2029'
  | _ => none

/-- The number of hexadecimal digits after the letter of an escape by code. -/
def codeLength? (c : Char) : Option Nat :=
  match c with
  | 'x' => some 2
  | 'u' => some 4
  | 'U' => some 8
  | _ => none

/-- The character of a code. -/
def characterOf (code : Nat) : Except LoadError Char :=
  if code > 0x7fffffff then .error .characterCodeTooLarge
  else if code > 0x10ffff then .error .noSuchCharacter
  else .ok (Text.characterOf code)

/-- The line ends of empty lines and the blanks before the next text; a document mark may not start a
    line inside quotes. -/
def readQuotedBreaks : Nat → Reader (List Char)
  | 0 => return []
  | n + 1 => do
    if ← atDocumentMark then malformed
    let _ ← takeWhile fun c => c == ' ' || c == '\t'
    let ended ← lineEnd
    if ended.isEmpty then return []
    return ended ++ (← readQuotedBreaks n)

/-- An escape, the backslash first. -/
def readEscape : Reader (List Char) := do
  skip 1
  match ← rest with
  | [] => malformed
  | c :: _ =>
    match escaped? c, codeLength? c with
    | some x, _ => skip 1; return [x]
    | none, some length =>
      skip 1
      let x ← characterOf (← peekCode length)
      skip length
      return [x]
    | none, none =>
      if !isLineEnd c then malformed
      let _ ← lineEnd
      readQuotedBreaks (← bound)

/-- Text up to the next blank, line end or closing quote, after what was read so far (backwards). -/
def readQuotedRun (double : Bool) : Nat → List Char → Reader (List Char)
  | 0, done => return done.reverse
  | n + 1, done => do
    let run ← takeWhile fun c => !(isSeparator c || c == '\x27' || c == '\x22' || c == '\\')
    let done := run.reverse ++ done
    match ← rest with
    | '\x27' :: s =>
      if double then do
        skip 1
        readQuotedRun double n ('\x27' :: done)
      else if startsWith '\x27' s then do
        skip 2
        readQuotedRun double n ('\x27' :: done)
      else return done.reverse
    | '\x22' :: _ =>
      if double then return done.reverse
      else do
        skip 1
        readQuotedRun double n ('\x22' :: done)
    | '\\' :: _ =>
      if double then do
        let s ← readEscape
        readQuotedRun double n (s.reverse ++ done)
      else do
        skip 1
        readQuotedRun double n ('\\' :: done)
    | _ => return done.reverse

/-- The blanks before more text, or folded line ends. -/
def readQuotedSpaces : Reader (List Char) := do
  let blanks ← takeWhile fun c => c == ' ' || c == '\t'
  if (← rest).isEmpty then malformed
  let ended ← lineEnd
  if ended.isEmpty then return blanks
  let breaks ← readQuotedBreaks (← bound)
  if ended ≠ ['\n'] then return ended ++ breaks
  else if breaks.isEmpty then return [' ']
  else return breaks

/-- Runs of text and what stands between them up to the closing quote. -/
def readQuotedRuns (double : Bool) : Nat → List Char → Reader (List Char)
  | 0, _ => malformed
  | n + 1, done => do
    let run ← readQuotedRun double (← bound) []
    let done := run.reverse ++ done
    if startsWith (if double then '\x22' else '\x27') (← rest) then
      skip 1
      return done.reverse
    let spaces ← readQuotedSpaces
    readQuotedRuns double n (spaces.reverse ++ done)

/-- A quoted scalar, the opening quote first. -/
def readQuoted (double : Bool) : Reader String := do
  skip 1
  return String.ofList (← readQuotedRuns double (← bound) [])

end LocaleLint.Yaml.Token
