import LocaleLint.Rule.Basic
import LocaleLint.Rule.Search
import LocaleLint.Tree.Walk

/-! # When a rule is violated

Two rules look at mappings that tell texts apart by number, the other five at leaves. Both are told by
the dotted key and what stands there. -/

namespace LocaleLint.Rule

open Text

/-- The keys that an English text told apart by number has, in order. -/
def englishKeys : List String := ["one", "other"]

/-- The part of a dotted key that exempts a mapping: such texts are told apart in another way. -/
def exemptPart : String := "messages.restrict_dependent_destroy"

/-- The starts of dotted keys whose texts may interpolate a count without being told apart. -/
def countAllowed : List String :=
  ["errors.messages.", "activemodel.errors.messages.", "activerecord.errors.messages."]

/-- The end of the dotted keys of message formats. -/
def messageFormatEnd : String := "_MF"

/-- Whether a mapping at a dotted key is exempt from the rules for mappings. -/
def isExempt (key : String) : Bool := occursIn exemptPart.toList key.toList

/-- Whether the leaf at a dotted key is a message format. -/
def isMessageFormat (key : String) : Bool := messageFormatEnd.toList.isSuffixOf key.toList

/-- Whether a dotted key starts with one of the starts that allow a count. -/
def allowsCount (key : String) : Bool := countAllowed.any fun start => start.toList.isPrefixOf key.toList

/-- Whether a tree is a leaf that holds a 1 and does not interpolate the count. -/
def isNumberedOne : Tree → Bool
  | .leaf text => text.toList.contains '1' && !interpolatesCount text.toList
  | .mapping _ => false

/-- The rules that a mapping violates, exempt or not. -/
def ofMapping (m : Mapping) : List Rule :=
  (if m.sortedKeys != englishKeys then [pluralizationKeys] else []) ++
    (if (m.get? "one").any isNumberedOne then [oneKeys] else [])

def ofTranslation (t : Translation) : List Rule :=
  let s := t.text.toList
  let isFormat := isMessageFormat t.key
  (if hasRelativeLink s then [relativeLinks] else []) ++
    (if hasRelativeImageSource s then [relativeImageSources] else []) ++
    (if hasDoubleBraces s && !isFormat then [interpolationFormat] else []) ++
    (if isFormat && hasNumberedOneClause s then [messageFormatOne] else []) ++
    (if occursIn countInterpolation s && !englishKeys.contains t.lastPart && !allowsCount t.key then
      [missingPluralization] else [])

end LocaleLint.Rule
