import LocaleLint.Text.Digit

/-! # Halves of surrogate pairs

An escape may spell out half of a surrogate pair, which is no character. A text holds an unassigned
character of plane 13 in its place, one for each half; where such a text is quoted or written to a stream
the half comes out again.

The characters `U+DD800` to `U+DDFFF` are taken for this. A text that holds one of them is the same as a text
with the half that it stands for: two keys that differ only there are one key, and neither can be written. -/

namespace LocaleLint.Text

/-- Whether a code is that of half of a surrogate pair. -/
def isHalf (code : Nat) : Bool := 0xd800 ≤ code && code < 0xe000

/-- How far the character that stands for a half is from the half. -/
def halfDistance : Nat := 0xd0000

/-- The character of a code, and for a half the one that stands for it. -/
def characterOf (code : Nat) : Char := Char.ofNat (if isHalf code then code + halfDistance else code)

/-- The half that a character stands for. -/
def half? (c : Char) : Option Nat :=
  if isHalf (c.toNat - halfDistance) then some (c.toNat - halfDistance) else none

/-- The code of a character, or of the half that it stands for. -/
def codeOf (c : Char) : Nat := (half? c).getD c.toNat

/-- Whether a text can be written as it is: it holds no half. -/
def isWritable (s : List Char) : Bool := s.all fun c => (half? c).isNone

/-- A text with escapes for the halves that it holds. -/
def escapeHalves (s : List Char) : List Char :=
  s.flatMap fun c =>
    match half? c with
    | some half => '\\' :: 'u' :: hexPadded 4 half
    | none => [c]

example : codeOf (characterOf 0xd83d) = 0xd83d ∧ codeOf (characterOf 0xe9) = 0xe9 := by decide +kernel
example : escapeHalves [characterOf 0xd83d, 'a'] = "\\ud83da".toList := by decide +kernel

end LocaleLint.Text
