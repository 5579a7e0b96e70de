/-! # Line ends

Text read from a file has its line ends unified: a carriage return and line feed, or a carriage return
alone, is one line feed. Output that is collected has the pairs joined only. -/

namespace LocaleLint.Text

/-- A text whose every line end is one line feed. -/
def unifyNewlines : List Char → List Char
  | '\r' :: '\n' :: rest => '\n' :: unifyNewlines rest
  | '\r' :: rest => '\n' :: unifyNewlines rest
  | c :: rest => c :: unifyNewlines rest
  | [] => []

/-- A text whose pairs of a carriage return and a line feed are one line feed. -/
def joinPairs : List Char → List Char
  | '\r' :: '\n' :: rest => '\n' :: joinPairs rest
  | c :: rest => c :: joinPairs rest
  | [] => []

end LocaleLint.Text
