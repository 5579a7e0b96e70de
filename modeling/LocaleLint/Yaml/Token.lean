import LocaleLint.Yaml.Error

/-! # Tokens

A document's text as a sequence of marks and words. Indentation shows only as the starts and ends of
block collections. A text that breaks down on the way still has the tokens before that place. -/

namespace LocaleLint.Yaml

/-- A line that speaks about the document. -/
inductive Directive where
  /-- The version of the format, by its first number. -/
  | version (major : Nat)
  /-- A short name for the start of tags. -/
  | tag (handle tagStart : String)
  | other
  deriving DecidableEq, Repr

inductive Token where
  | directive (d : Directive)
  | documentStart
  | documentEnd
  | blockSequenceStart
  | blockMappingStart
  | blockEnd
  | flowSequenceStart
  | flowSequenceEnd
  | flowMappingStart
  | flowMappingEnd
  | flowEntry
  | blockEntry
  | key
  | value
  | alias (name : String)
  | anchor (name : String)
  | tag (handle : Option String) (suffix : String)
  | scalar (text : String) (plain : Bool)
  deriving DecidableEq, Repr

/-- The tokens of a text, and why there are no more where the text did not end. -/
structure Tokens where
  list : List Token
  failure : Option LoadError
  deriving Repr

end LocaleLint.Yaml
