import LocaleLint.Text.Utf8

/-! # Why a document cannot be loaded

Most texts fail because they break a rule of the format. The other causes are scalars whose text cannot
be given the type that their tag or their form asks for, a document that leads back into itself where a
scalar is wanted, and a file whose bytes are no text. -/

namespace LocaleLint.Yaml

/-- Why a document cannot be loaded. -/
inductive LoadError where
  /-- The text breaks a rule of the format. -/
  | malformed
  /-- An escape names a code beyond the last character. -/
  | noSuchCharacter
  /-- An escape names a code of more than 31 bits. -/
  | characterCodeTooLarge
  /-- A numeral's text is no numeral, or a decimal one is too long. -/
  | badNumeral
  /-- A numeral's text is empty but for its sign. -/
  | emptyNumeral
  /-- A number is too large for the type of its scalar. -/
  | numberTooLarge
  | badTruthValue
  /-- A timestamp's text has not the form of one. -/
  | badTimestamp
  /-- A timestamp is written as a collection. -/
  | timestampOfCollection
  /-- A timestamp names a day, a time or an offset that does not exist. -/
  | impossibleTimestamp
  /-- A scalar is looked for through a mapping that leads back to itself. -/
  | endlessScalar
  /-- The bytes of the file are no text. -/
  | undecodable (failure : Text.Utf8.Failure)
  deriving DecidableEq, Repr

end LocaleLint.Yaml
