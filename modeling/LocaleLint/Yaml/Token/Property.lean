import LocaleLint.Number.Numeral
import LocaleLint.Text.Utf8
import LocaleLint.Yaml.Cursor
import LocaleLint.Yaml.Token

/-! # Anchors, tags and directives

The words that stand before a node or before a document. -/

namespace LocaleLint.Yaml.Token

open Reader

/-- A word of letters, digits, hyphens and underscores. -/
def readWord : Reader (List Char) := do
  let word ← takeWhile isWordChar
  if word.isEmpty then malformed
  return word

def readName : Reader String := do
  skip 1
  let word ← readWord
  match ← rest with
  | [] => pure ()
  | c :: _ => unless isSeparator c || "?:,]\x7d%@`".toList.contains c do malformed
  return String.ofList word

/-- Whether a character may stand in a tag, escapes apart. -/
def isTagChar (c : Char) : Bool :=
  c.isAlphanum || "-;/?:@&=+$,_.!~*\x27()[]".toList.contains c

/-- Escaped bytes: a percent sign and two hexadecimal digits for each. -/
def readEscapedBytes : Nat → Reader (List UInt8)
  | 0 => return []
  | n + 1 => do
    if startsWith '%' (← rest) then
      skip 1
      let byte ← peekCode 2
      skip 2
      return UInt8.ofNat byte :: (← readEscapedBytes n)
    else return []

/-- The text of a tag, piece by piece. -/
def readTagPieces : Nat → Reader (List Char)
  | 0 => return []
  | n + 1 => do
    let run ← takeWhile isTagChar
    if startsWith '%' (← rest) then
      let bytes ← readEscapedBytes (← bound)
      match Text.Utf8.decode bytes with
      | .ok s => return run ++ s ++ (← readTagPieces n)
      | .error _ => malformed
    else return run

/-- The text of a tag, escapes resolved; it has at least one character. -/
def readTagText : Reader String := do
  let s ← readTagPieces (← bound)
  if s.isEmpty then malformed
  return String.ofList s

/-- A handle: an exclamation mark, or a word between two of them. -/
def readHandle : Reader String := do
  match ← rest with
  | '!' :: ' ' :: _ => skip 1; return "!"
  | '!' :: _ =>
    skip 1
    let word ← takeWhile isWordChar
    unless startsWith '!' (← rest) do malformed
    skip 1
    return String.ofList ('!' :: word ++ ['!'])
  | _ => malformed

/-- A tag with its handle, if it has one. -/
def readTag : Reader Token := do
  lookAhead 1
  let s := (← rest).drop 1
  let token ←
    if startsWith '<' s then do
      skip 2
      let text ← readTagText
      unless startsWith '>' (← rest) do malformed
      skip 1
      pure (Token.tag none text)
    else if startsApart s then do
      skip 1
      pure (Token.tag none "!")
    else do
      let word := s.takeWhile fun c => !(c == ' ' || isLineEnd c)
      let handle ←
        if word.contains '!' then readHandle
        else do
          lookAhead (word.length + 1)
          skip 1
          pure "!"
      pure (Token.tag (some handle) (← readTagText))
  unless wordEnded (← rest) do malformed
  return token

def readVersionNumber : Reader Nat := do
  let digits ← takeWhile Char.isDigit
  if digits.isEmpty then malformed
  match Numeral.integer? 10 digits with
  | some n => return n.toNat
  | none => throw .badNumeral

/-- What a directive of a name says. -/
def readDirectiveValue (name : String) : Reader Directive := do
  if name = "YAML" then
    let _ ← takeWhile (· == ' ')
    let major ← readVersionNumber
    unless startsWith '.' (← rest) do malformed
    skip 1
    let _ ← readVersionNumber
    unless wordEnded (← rest) do malformed
    return .version major
  else if name = "TAG" then
    let _ ← takeWhile (· == ' ')
    let handle ← readHandle
    unless startsWith ' ' (← rest) do malformed
    let _ ← takeWhile (· == ' ')
    let start ← readTagText
    unless wordEnded (← rest) do malformed
    return .tag handle start
  else
    let _ ← takeWhile (!isLineEnd ·)
    return .other

/-- A directive with the line that it stands on. -/
def readDirective : Reader Token := do
  skip 1
  let name ← readWord
  unless wordEnded (← rest) do malformed
  let d ← readDirectiveValue (String.ofList name)
  skipLine
  return .directive d

end LocaleLint.Yaml.Token
