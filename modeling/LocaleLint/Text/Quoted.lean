import LocaleLint.Text.Printable
import LocaleLint.Text.Surrogate

/-! # Quoted text

A text inside a container is shown between quotes on one line. The quote is the single one unless the
text holds single quotes and no double ones; the quote in use, the backslash and what is not printable
are escaped. -/

namespace LocaleLint.Text

def singleQuote : Char := '\x27'

def doubleQuote : Char := '\x22'

/-- The quote for a text, told by which quotes it holds. -/
def quoteFor (hasSingle hasDouble : Bool) : Char :=
  if hasSingle && !hasDouble then doubleQuote else singleQuote

/-- The escape of a character by its code: two, four or eight hexadecimal digits. -/
def codeEscape (c : Char) : List Char :=
  let n := codeOf c
  if n < 0x100 then '\\' :: 'x' :: hexPadded 2 n
  else if n < 0x10000 then '\\' :: 'u' :: hexPadded 4 n
  else '\\' :: 'U' :: hexPadded 8 n

/-- One character between the given quotes. -/
def quoteChar (quote c : Char) : List Char :=
  if c = quote ∨ c = '\\' then ['\\', c]
  else if c = '\t' then ['\\', 't']
  else if c = '\n' then ['\\', 'n']
  else if c = '\r' then ['\\', 'r']
  else if isPrintable c then [c]
  else codeEscape c

def quoted (s : List Char) : List Char :=
  let quote := quoteFor (s.contains singleQuote) (s.contains doubleQuote)
  quote :: s.flatMap (quoteChar quote) ++ [quote]

/-- Bytes between quotes after a `b`, those outside printable ASCII as escapes. -/
def quotedBytes (bytes : List UInt8) : List Char :=
  let s := bytes.map fun b => Char.ofNat b.toNat
  let quote := quoteFor (s.contains singleQuote) (s.contains doubleQuote)
  let quoteByte (c : Char) : List Char := if c.toNat < 0x7f then quoteChar quote c else codeEscape c
  'b' :: quote :: s.flatMap quoteByte ++ [quote]

example : quoted "it's".toList = "\"it's\"".toList ∧ quoted "a\n\x00é".toList = "'a\\n\\x00é'".toList := by
  decide +kernel

end LocaleLint.Text
