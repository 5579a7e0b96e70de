/-! # The rules

What a locale file must not contain. Each rule has a name, by which a report lists its violations, and a
description, below which they are printed. -/

namespace LocaleLint

inductive Rule where
  | pluralizationKeys
  | oneKeys
  | relativeLinks
  | relativeImageSources
  | interpolationFormat
  | messageFormatOne
  | missingPluralization
  deriving DecidableEq, Repr

namespace Rule

/-- The rules in the order of a report. -/
def all : List Rule :=
  [pluralizationKeys, oneKeys, relativeLinks, relativeImageSources, interpolationFormat, messageFormatOne,
    missingPluralization]

theorem mem_all (r : Rule) : r ∈ all := by cases r <;> decide

def name : Rule → String
  | pluralizationKeys => "wrong_pluralization_keys"
  | oneKeys => "invalid_one_keys"
  | relativeLinks => "invalid_relative_links"
  | relativeImageSources => "invalid_relative_image_sources"
  | interpolationFormat => "invalid_interpolation_key_format"
  | messageFormatOne => "invalid_message_format_one_key"
  | missingPluralization => "missing_pluralization"

def description : Rule → List String
  | pluralizationKeys =>
    ["Pluralized strings must have only the sub-keys 'one' and 'other'.",
      "The following keys have missing or additional keys:"]
  | oneKeys => ["The following keys contain the number 1 instead of the interpolation key %\x7bcount\x7d:"]
  | relativeLinks =>
    ["The following keys have relative links, but do not start with %\x7bbase_url\x7d or %\x7bbase_path\x7d:"]
  | relativeImageSources =>
    ["The following keys have relative image sources, but do not start with %\x7bbase_url\x7d or %\x7bbase_path\x7d:"]
  | interpolationFormat =>
    ["The following keys use \x7b\x7bkey\x7d\x7d instead of %\x7bkey\x7d for interpolation keys:"]
  | messageFormatOne =>
    ["The following keys use 'one \x7b1 foo\x7d' instead of the generic 'one \x7b# foo\x7d':"]
  | missingPluralization =>
    ["The following keys use %\x7bcount\x7d without pluralization.",
      "Split the key into `one` and `other` or add it to the allow list in `i18nlint/validator.py`:"]

theorem description_ne_nil (r : Rule) : r.description ≠ [] := by cases r <;> simp [description]

end Rule

end LocaleLint
