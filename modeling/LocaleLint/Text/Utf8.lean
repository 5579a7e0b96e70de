/-! # Decoding UTF-8

Bytes are decoded one well-formed sequence at a time. Where none starts, decoding stops with the
position of the bad sequence, the number of its bytes that could still have begun one, and the cause. -/

namespace LocaleLint.Text.Utf8

/-- Why bytes are not UTF-8. -/
inductive Cause where
  | invalidStart
  | invalidContinuation
  | unexpectedEnd
  deriving DecidableEq, Repr

def Cause.message : Cause → String
  | invalidStart => "invalid start byte"
  | invalidContinuation => "invalid continuation byte"
  | unexpectedEnd => "unexpected end of data"

/-- Where and why decoding stopped: `length` bytes from `position` on are bad, the first one `byte`. -/
structure Failure where
  position : Nat
  length : Nat
  byte : UInt8
  cause : Cause
  deriving DecidableEq, Repr

/-- The number of bytes after a leading byte and the range of the first of them; none for a byte that
    leads no sequence. Overlong forms, surrogates and codes above `U+10FFFF` are shut out by the range. -/
def lead? (b : UInt8) : Option (Nat × UInt8 × UInt8) :=
  if b < 0x80 then some (0, 0x80, 0xbf)
  else if b < 0xc2 then none
  else if b < 0xe0 then some (1, 0x80, 0xbf)
  else if b = 0xe0 then some (2, 0xa0, 0xbf)
  else if b = 0xed then some (2, 0x80, 0x9f)
  else if b < 0xf0 then some (2, 0x80, 0xbf)
  else if b = 0xf0 then some (3, 0x90, 0xbf)
  else if b < 0xf4 then some (3, 0x80, 0xbf)
  else if b = 0xf4 then some (3, 0x80, 0x8f)
  else none

/-- The bits that a leading byte gives to its character. -/
def leadBits (b : UInt8) (following : Nat) : Nat :=
  match following with
  | 0 => b.toNat
  | 1 => b.toNat % 0x20
  | 2 => b.toNat % 0x10
  | _ => b.toNat % 0x08

/-- What the bytes after a leading byte give. -/
inductive Tail where
  | code (n : Nat) (rest : List UInt8)
  | bad (good : Nat) (cause : Cause)

/-- The rest of a character: `following` more bytes, the first of them in a range and the others
    continuation bytes, after `good` bytes that were read. -/
def tail (following good n : Nat) (low high : UInt8) (bytes : List UInt8) : Tail :=
  match following with
  | 0 => .code n bytes
  | k + 1 =>
    match bytes with
    | [] => .bad good .unexpectedEnd
    | b :: rest =>
      if low ≤ b ∧ b ≤ high then tail k (good + 1) (n * 0x40 + b.toNat % 0x40) 0x80 0xbf rest
      else .bad good .invalidContinuation

theorem length_le_of_tail {following good n : Nat} {low high : UInt8} {bytes rest : List UInt8} {code : Nat}
    (h : tail following good n low high bytes = .code code rest) : rest.length ≤ bytes.length := by
  induction following generalizing good n low high bytes with
  | zero =>
    simp only [tail, Tail.code.injEq] at h
    exact Nat.le_of_eq (congrArg List.length h.2.symm)
  | succ k ih =>
    cases bytes with
    | nil => simp [tail] at h
    | cons b more =>
      simp only [tail] at h
      split at h
      · exact Nat.le_succ_of_le (ih h)
      · cases h

def decodeFrom (position : Nat) (bytes : List UInt8) : Except Failure (List Char) :=
  match bytes with
  | [] => .ok []
  | b :: more =>
    match lead? b with
    | none => .error ⟨position, 1, b, .invalidStart⟩
    | some (following, low, high) =>
      match h : tail following 1 (leadBits b following) low high more with
      | .bad good cause => .error ⟨position, good, b, cause⟩
      | .code n rest => (decodeFrom (position + following + 1) rest).map (Char.ofNat n :: ·)
termination_by bytes.length
decreasing_by
  have := length_le_of_tail h
  simp only [List.length_cons]
  omega

def decode (bytes : List UInt8) : Except Failure (List Char) := decodeFrom 0 bytes

end LocaleLint.Text.Utf8
