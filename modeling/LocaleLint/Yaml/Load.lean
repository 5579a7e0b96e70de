import LocaleLint.Text.Blocks
import LocaleLint.Yaml.Document.Unfold
import LocaleLint.Yaml.Graph.OfTokens
import LocaleLint.Yaml.Token.Stream

/-! # Loading a document

The way from a text to a document: the characters are checked, the text is split into tokens, the tokens
give a graph, and the graph gives values. Of a file the characters are checked block by block, and a block
is asked for when a character of it is looked at: what is wrong before it is found first.

How deep a text nests is no fault. A loader that gives up beyond some depth of recursion fails on a text that
nests deeper; that limit is left out here. -/

namespace LocaleLint.Yaml

/-- Whether a character may stand in a document's text: no control character but the tab and the line
    ends, and no code point that is set aside. -/
def isDocumentChar (c : Char) : Bool :=
  let n := c.toNat
  n == 0x09 || n == 0x0a || n == 0x0d || (0x20 ≤ n && n ≤ 0x7e) || n == 0x85 || (0xa0 ≤ n && n ≤ 0xd7ff) ||
    (0xe000 ≤ n && n ≤ 0xfffd) || 0x10000 ≤ n

/-- The document of a text that may be cut off; a text without one holds nothing. -/
def loadCut (s : List Char) (cut : Option LoadError) : Except LoadError Document :=
  match Rooted.ofTokens (Tokens.scan s cut) with
  | .error e => .error e
  | .ok ⟨_, none⟩ => .ok ⟨#[], .scalar .null⟩
  | .ok ⟨graph, some root⟩ => Document.ofGraph graph root

def load (s : List Char) : Except LoadError Document :=
  if s.all isDocumentChar then loadCut s none else .error .malformed

def loadFile (bytes : List UInt8) : Except LoadError Document :=
  let excerpt := Text.Blocks.ofBytes bytes
  match excerpt.text.findIdx? fun c => !isDocumentChar c with
  | some index => loadCut (excerpt.text.take (Text.Blocks.before index)) (some .malformed)
  | none => loadCut excerpt.text (excerpt.failure.map .undecodable)

end LocaleLint.Yaml
