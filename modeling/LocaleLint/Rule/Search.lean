import LocaleLint.Text.Blank
import LocaleLint.Text.Search

/-! # What the rules look for in a text

Links and image sources are attributes of HTML, or links of Markdown, whose target starts with a single
slash; interpolations and message formats are told by their braces. -/

namespace LocaleLint.Rule

open Text

/-- What follows a name at the start of a text, where letters are compared by a test. -/
def dropName? (alike : Char → Char → Bool) : List Char → List Char → Option (List Char)
  | [], s => some s
  | _ :: _, [] => none
  | n :: name, c :: s => if alike n c then dropName? alike name s else none

/-- Whether a character is a lower-case letter or its upper-case form; the long s counts as an s. -/
def isLetter (letter c : Char) : Bool := c.toLower == letter || (letter == 's' && c == '\u017f')

/-- Whether a text starts with a character that is no slash. -/
def startsNoSlash : List Char → Bool
  | [] => false
  | c :: _ => c != '/'

/-- Whether a text starts with an attribute of a name whose value, in quotes of either kind, starts with
    a single slash. -/
def startsAttribute (name : List Char) (s : List Char) : Bool :=
  match (dropName? isLetter name s).map (·.dropWhile isBlank) with
  | some ('=' :: rest) =>
    match rest.dropWhile isBlank with
    | quote :: '/' :: rest => (quote == '\x22' || quote == '\x27') && startsNoSlash rest
    | _ => false
  | _ => false

/-- Whether a text starts with the end of a Markdown link's name and a target that starts with a single
    slash. -/
def startsMarkdownTarget : List Char → Bool
  | ']' :: '(' :: '/' :: rest => startsNoSlash rest
  | _ => false

def hasRelativeLink (s : List Char) : Bool :=
  searches (fun s => startsAttribute ['h', 'r', 'e', 'f'] s || startsMarkdownTarget s) s

def hasRelativeImageSource (s : List Char) : Bool := searches (startsAttribute ['s', 'r', 'c']) s

/-- Whether two closing braces come before the end of the line. -/
def closesTwice : List Char → Bool
  | '\x7d' :: '\x7d' :: _ => true
  | '\n' :: _ => false
  | _ :: rest => closesTwice rest
  | [] => false

/-- Whether a text starts with something between double braces on one line. -/
def startsDoubleBraces : List Char → Bool
  | '\x7b' :: '\x7b' :: c :: rest => c != '\n' && closesTwice rest
  | _ => false

def hasDoubleBraces (s : List Char) : Bool := searches startsDoubleBraces s

/-- The opening of the clause for one in a message format. -/
def oneClause : List Char := "one \x7b".toList

/-- Whether a text starts with the clause for one and has a 1 and then a closing brace on its line. -/
def startsNumberedOneClause (s : List Char) : Bool :=
  oneClause.isPrefixOf s &&
    (((s.drop oneClause.length).takeWhile (· != '\n')).dropWhile (· != '1')).contains '\x7d'

/-- Whether a text holds a clause for one with a 1 and then a closing brace on its line. -/
def hasNumberedOneClause (s : List Char) : Bool := searches startsNumberedOneClause s

def countInterpolation : List Char := "%\x7bcount\x7d".toList

def doubleBracedCount : List Char := "\x7b\x7bcount\x7d\x7d".toList

/-- Whether a text interpolates the count in either way. -/
def interpolatesCount (s : List Char) : Bool := occursIn countInterpolation s || occursIn doubleBracedCount s

end LocaleLint.Rule
