import Mathlib
import LocaleLint.Text.Utf8

/-! # Decoding is the inverse of encoding

The bytes of a text are those of its characters one after another. Decoding gives back the text of its bytes, and all
bytes that are decoded are those of the text that they give; bytes of no text are the ones at which decoding fails. -/

namespace LocaleLint.Text.Utf8

/-- The bytes of a text. -/
def encode (s : List Char) : List UInt8 := s.flatMap String.utf8EncodeChar

/-! ### Bytes of a character -/

/-- Whether a byte leads a sequence with a number of bytes after it. -/
def IsLead (b : UInt8) (following : Nat) : Prop :=
  match following with
  | 0 => b.toNat < 0x80
  | 1 => 0xc2 ≤ b.toNat ∧ b.toNat < 0xe0
  | 2 => 0xe0 ≤ b.toNat ∧ b.toNat < 0xf0
  | 3 => 0xf0 ≤ b.toNat ∧ b.toNat < 0xf5
  | _ => False

/-- The least byte after a leading one. -/
def least (b : UInt8) : Nat := if b.toNat = 0xe0 then 0xa0 else if b.toNat = 0xf0 then 0x90 else 0x80

/-- The greatest byte after a leading one. -/
def greatest (b : UInt8) : Nat := if b.toNat = 0xed then 0x9f else if b.toNat = 0xf4 then 0x8f else 0xbf

theorem lead?_eq (b : UInt8) : lead? b =
    if b.toNat < 0x80 then some (0, 0x80, 0xbf)
    else if b.toNat < 0xc2 then none
    else if b.toNat < 0xe0 then some (1, 0x80, 0xbf)
    else if b.toNat = 0xe0 then some (2, 0xa0, 0xbf)
    else if b.toNat = 0xed then some (2, 0x80, 0x9f)
    else if b.toNat < 0xf0 then some (2, 0x80, 0xbf)
    else if b.toNat = 0xf0 then some (3, 0x90, 0xbf)
    else if b.toNat < 0xf4 then some (3, 0x80, 0xbf)
    else if b.toNat = 0xf4 then some (3, 0x80, 0x8f)
    else none := by
  simp only [lead?, UInt8.lt_iff_toNat_lt, ← UInt8.toNat_inj]
  rfl

section Lead
variable {b : UInt8} {following : Nat} {low high : UInt8}

theorem least_of_ne (not_e0 : b.toNat ≠ 0xe0) (not_f0 : b.toNat ≠ 0xf0) : least b = 0x80 := by
  rw [least, if_neg not_e0, if_neg not_f0]

theorem greatest_of_ne (not_ed : b.toNat ≠ 0xed) (not_f4 : b.toNat ≠ 0xf4) : greatest b = 0xbf := by
  rw [greatest, if_neg not_ed, if_neg not_f4]

theorem of_lead? (h : lead? b = some (following, low, high)) :
    IsLead b following ∧ least b = low.toNat ∧ greatest b = high.toNat := by
  rw [lead?_eq] at h
  split_ifs at h with ascii below_c2 below_e0 is_e0 is_ed below_f0 is_f0 below_f4 is_f4
  all_goals cases h
  · exact ⟨ascii, least_of_ne (by omega) (by omega), greatest_of_ne (by omega) (by omega)⟩
  · exact ⟨⟨by omega, below_e0⟩, least_of_ne (by omega) (by omega), greatest_of_ne (by omega) (by omega)⟩
  · exact ⟨⟨by omega, by omega⟩, if_pos is_e0, greatest_of_ne (by omega) (by omega)⟩
  · exact ⟨⟨by omega, by omega⟩, least_of_ne (by omega) (by omega), if_pos is_ed⟩
  · exact ⟨⟨by omega, below_f0⟩, least_of_ne (by omega) (by omega), greatest_of_ne (by omega) (by omega)⟩
  · refine ⟨⟨by omega, by omega⟩, ?_, greatest_of_ne (by omega) (by omega)⟩
    rw [least, if_neg is_e0, if_pos is_f0]
    rfl
  · exact ⟨⟨by omega, by omega⟩, least_of_ne (by omega) (by omega), greatest_of_ne (by omega) (by omega)⟩
  · refine ⟨⟨by omega, by omega⟩, least_of_ne (by omega) (by omega), ?_⟩
    rw [greatest, if_neg is_ed, if_pos is_f4]
    rfl

theorem lead?_isSome_of_isLead (h : IsLead b following) : ∃ low high, lead? b = some (following, low, high) := by
  rw [lead?_eq]
  match following, h with
  | 0, range => exact ⟨_, _, if_pos range⟩
  | 1, ⟨from_c2, below_e0⟩ => exact ⟨_, _, by rw [if_neg (by omega), if_neg (by omega), if_pos below_e0]⟩
  | 2, ⟨from_e0, below_f0⟩ =>
    rw [if_neg (by omega), if_neg (by omega), if_neg (by omega)]
    split_ifs
    · exact ⟨_, _, rfl⟩
    · exact ⟨_, _, rfl⟩
    · exact ⟨_, _, rfl⟩
  | 3, ⟨from_f0, below_f5⟩ =>
    rw [if_neg (by omega), if_neg (by omega), if_neg (by omega), if_neg (by omega), if_neg (by omega), if_neg (by omega)]
    split_ifs
    · exact ⟨_, _, rfl⟩
    · exact ⟨_, _, rfl⟩
    · exact ⟨_, _, rfl⟩
    · omega

theorem exists_lead?_of_isLead (h : IsLead b following) :
    ∃ low high, lead? b = some (following, low, high) ∧ least b = low.toNat ∧ greatest b = high.toNat := by
  obtain ⟨low, high, found⟩ := lead?_isSome_of_isLead h
  exact ⟨low, high, found, (of_lead? found).2⟩

end Lead

section Tail
variable {following good n code : Nat} {low high : UInt8} {bytes rest : List UInt8}

theorem tail_zero_eq_code : tail 0 good n low high bytes = .code code rest ↔ n = code ∧ bytes = rest := by
  rw [tail, Tail.code.injEq]

theorem tail_succ_eq_code : tail (following + 1) good n low high bytes = .code code rest ↔
    ∃ b more, bytes = b :: more ∧ low.toNat ≤ b.toNat ∧ b.toNat ≤ high.toNat ∧
      tail following (good + 1) (n * 0x40 + b.toNat % 0x40) 0x80 0xbf more = .code code rest := by
  cases bytes with
  | nil => simp [tail]
  | cons b more =>
    simp only [tail, List.cons.injEq, UInt8.le_iff_toNat_le]
    split
    · rename_i range
      constructor
      · exact fun h => ⟨b, more, ⟨rfl, rfl⟩, range.1, range.2, h⟩
      · rintro ⟨_, _, ⟨rfl, rfl⟩, -, -, h⟩
        exact h
    · rename_i range
      constructor
      · intro h
        cases h
      · rintro ⟨_, _, ⟨rfl, rfl⟩, least, greatest, -⟩
        exact absurd ⟨least, greatest⟩ range

end Tail

/-! ### Bytes and code -/

section Code
variable {b : UInt8} {more rest : List UInt8} {n : Nat}

/-- Whether a byte may come after those that follow a leading byte directly. -/
def IsNext (b : UInt8) : Prop := 0x80 ≤ b.toNat ∧ b.toNat ≤ 0xbf

/-- Whether bytes are the sequence of a code. -/
inductive Sequence : List UInt8 → Nat → Prop
  | one {a : UInt8} (lead : IsLead a 0) : Sequence [a] a.toNat
  | two {a b : UInt8} (lead : IsLead a 1) (first : least a ≤ b.toNat ∧ b.toNat ≤ greatest a) :
    Sequence [a, b] (a.toNat % 0x20 * 0x40 + b.toNat % 0x40)
  | three {a b c : UInt8} (lead : IsLead a 2) (first : least a ≤ b.toNat ∧ b.toNat ≤ greatest a) (second : IsNext c) :
    Sequence [a, b, c] ((a.toNat % 0x10 * 0x40 + b.toNat % 0x40) * 0x40 + c.toNat % 0x40)
  | four {a b c d : UInt8} (lead : IsLead a 3) (first : least a ≤ b.toNat ∧ b.toNat ≤ greatest a) (second : IsNext c)
    (third : IsNext d) :
    Sequence [a, b, c, d]
      (((a.toNat % 0x08 * 0x40 + b.toNat % 0x40) * 0x40 + c.toNat % 0x40) * 0x40 + d.toNat % 0x40)

theorem Sequence.exists_cons {s : List UInt8} {n : Nat} (h : Sequence s n) : ∃ b more, s = b :: more := by
  cases h <;> exact ⟨_, _, rfl⟩

theorem Sequence.congr {s : List UInt8} {n m : Nat} (h : Sequence s n) (same : n = m) : Sequence s m := same ▸ h

theorem code_iff : (∃ following low high, lead? b = some (following, low, high) ∧
      tail following 1 (leadBits b following) low high more = .code n rest) ↔
    ∃ s, b :: more = s ++ rest ∧ Sequence s n := by
  constructor
  · rintro ⟨following, low, high, lead, code⟩
    obtain ⟨isLead, least, greatest⟩ := of_lead? lead
    match following, isLead with
    | 0, isLead =>
      obtain ⟨rfl, rfl⟩ := tail_zero_eq_code.mp code
      exact ⟨[b], rfl, .one isLead⟩
    | 1, isLead =>
      obtain ⟨c, more, rfl, h, h', code⟩ := tail_succ_eq_code.mp code
      obtain ⟨rfl, rfl⟩ := tail_zero_eq_code.mp code
      exact ⟨[b, c], rfl, .two isLead ⟨least ▸ h, greatest ▸ h'⟩⟩
    | 2, isLead =>
      obtain ⟨c, more, rfl, h, h', code⟩ := tail_succ_eq_code.mp code
      obtain ⟨d, more, rfl, h₂, h₂', code⟩ := tail_succ_eq_code.mp code
      obtain ⟨rfl, rfl⟩ := tail_zero_eq_code.mp code
      exact ⟨[b, c, d], rfl, .three isLead ⟨least ▸ h, greatest ▸ h'⟩ ⟨h₂, h₂'⟩⟩
    | 3, isLead =>
      obtain ⟨c, more, rfl, h, h', code⟩ := tail_succ_eq_code.mp code
      obtain ⟨d, more, rfl, h₂, h₂', code⟩ := tail_succ_eq_code.mp code
      obtain ⟨e, more, rfl, h₃, h₃', code⟩ := tail_succ_eq_code.mp code
      obtain ⟨rfl, rfl⟩ := tail_zero_eq_code.mp code
      exact ⟨[b, c, d, e], rfl, .four isLead ⟨least ▸ h, greatest ▸ h'⟩ ⟨h₂, h₂'⟩ ⟨h₃, h₃'⟩⟩
  · rintro ⟨s, split, sequence⟩
    cases sequence with
    | one lead =>
      obtain ⟨rfl, rfl⟩ := List.cons.inj split
      obtain ⟨low, high, found, -⟩ := exists_lead?_of_isLead lead
      exact ⟨0, low, high, found, tail_zero_eq_code.mpr ⟨rfl, rfl⟩⟩
    | two lead first =>
      obtain ⟨rfl, rfl⟩ := List.cons.inj split
      obtain ⟨low, high, found, least, greatest⟩ := exists_lead?_of_isLead lead
      exact ⟨1, low, high, found, tail_succ_eq_code.mpr ⟨_, _, rfl, least ▸ first.1, greatest ▸ first.2,
        tail_zero_eq_code.mpr ⟨rfl, rfl⟩⟩⟩
    | three lead first second =>
      obtain ⟨rfl, rfl⟩ := List.cons.inj split
      obtain ⟨low, high, found, least, greatest⟩ := exists_lead?_of_isLead lead
      exact ⟨2, low, high, found, tail_succ_eq_code.mpr ⟨_, _, rfl, least ▸ first.1, greatest ▸ first.2,
        tail_succ_eq_code.mpr ⟨_, _, rfl, second.1, second.2, tail_zero_eq_code.mpr ⟨rfl, rfl⟩⟩⟩⟩
    | four lead first second third =>
      obtain ⟨rfl, rfl⟩ := List.cons.inj split
      obtain ⟨low, high, found, least, greatest⟩ := exists_lead?_of_isLead lead
      exact ⟨3, low, high, found, tail_succ_eq_code.mpr ⟨_, _, rfl, least ▸ first.1, greatest ▸ first.2,
        tail_succ_eq_code.mpr ⟨_, _, rfl, second.1, second.2,
          tail_succ_eq_code.mpr ⟨_, _, rfl, third.1, third.2, tail_zero_eq_code.mpr ⟨rfl, rfl⟩⟩⟩⟩⟩

end Code

/-! ### Sequences and characters -/

theorem sequence_encodeChar (c : Char) : Sequence (String.utf8EncodeChar c) c.toNat := by
  have valid : c.toNat < 0xd800 ∨ 0xdfff < c.toNat ∧ c.toNat < 0x110000 := c.valid
  rw [String.utf8EncodeChar]
  simp only [show c.val.toNat = c.toNat from rfl]
  generalize c.toNat = v at valid
  -- Each byte is less than 256, so that nothing is cut off.
  have byte : ∀ n < 256, (UInt8.ofNat n).toNat = n := fun n => UInt8.toNat_ofNat_of_lt
  split_ifs with one two three
  · refine (Sequence.one ?_).congr (byte v (by omega))
    rw [IsLead, byte v (by omega)]
    omega
  · have first := byte (v / 64 % 32 + 192) (by omega)
    have second := byte (v % 64 + 128) (by omega)
    refine (Sequence.two ?_ ?_).congr ?_
    · rw [IsLead, first]
      omega
    · rw [least, greatest, first, second]
      split_ifs <;> omega
    · rw [first, second]
      omega
  · have first := byte (v / 4096 % 16 + 224) (by omega)
    have second := byte (v / 64 % 64 + 128) (by omega)
    have third := byte (v % 64 + 128) (by omega)
    refine (Sequence.three ?_ ?_ ?_).congr ?_
    · rw [IsLead, first]
      omega
    · rw [least, greatest, first, second]
      split_ifs <;> omega
    · rw [IsNext, third]
      omega
    · rw [first, second, third]
      omega
  · have first := byte (v / 262144 % 8 + 240) (by omega)
    have second := byte (v / 4096 % 64 + 128) (by omega)
    have third := byte (v / 64 % 64 + 128) (by omega)
    have fourth := byte (v % 64 + 128) (by omega)
    refine (Sequence.four ?_ ?_ ?_ ?_).congr ?_
    · rw [IsLead, first]
      omega
    · rw [least, greatest, first, second]
      split_ifs <;> omega
    · rw [IsNext, third]
      omega
    · rw [IsNext, fourth]
      omega
    · rw [first, second, third, fourth]
      omega

theorem toNat_ofNat {n : Nat} (valid : n < 0xd800 ∨ 0xdfff < n ∧ n < 0x110000) : (Char.ofNat n).val.toNat = n := by
  rw [Char.ofNat, dif_pos valid]
  rfl

/-- What the range of the byte after a leading one rules out: forms that are too long, halves of pairs, and codes beyond
    the last one. -/
theorem range_of_first {a b : UInt8} (first : least a ≤ b.toNat ∧ b.toNat ≤ greatest a) :
    (0x80 ≤ b.toNat ∧ b.toNat ≤ 0xbf) ∧ (a.toNat = 0xe0 → 0xa0 ≤ b.toNat) ∧ (a.toNat = 0xed → b.toNat ≤ 0x9f) ∧
      (a.toNat = 0xf0 → 0x90 ≤ b.toNat) ∧ (a.toNat = 0xf4 → b.toNat ≤ 0x8f) := by
  rw [least, greatest] at first
  split_ifs at first <;> omega

theorem eq_encodeChar_of_sequence {s : List UInt8} {n : Nat} (h : Sequence s n) :
    s = String.utf8EncodeChar (Char.ofNat n) := by
  have same : ∀ {a : UInt8} {n : Nat}, a.toNat = n → a = UInt8.ofNat n := fun h => by rw [← h, UInt8.ofNat_toNat]
  cases h with
  | @one a lead =>
    have below_80 : a.toNat < 0x80 := lead
    rw [String.utf8EncodeChar, toNat_ofNat (by omega), if_pos (by omega), ← same rfl]
  | @two a b lead first =>
    obtain ⟨from_c2, below_e0⟩ : 0xc2 ≤ a.toNat ∧ a.toNat < 0xe0 := lead
    obtain ⟨second, -⟩ := range_of_first first
    rw [String.utf8EncodeChar, toNat_ofNat (by omega), if_neg (by omega), if_pos (by omega), ← same (a := a) (by omega),
      ← same (a := b) (by omega)]
  | @three a b c lead first third =>
    obtain ⟨from_e0, below_f0⟩ : 0xe0 ≤ a.toNat ∧ a.toNat < 0xf0 := lead
    obtain ⟨third, third'⟩ := third
    obtain ⟨second, long, half, -, -⟩ := range_of_first first
    rw [String.utf8EncodeChar, toNat_ofNat (by omega), if_neg (by omega), if_neg (by omega), if_pos (by omega),
      ← same (a := a) (by omega), ← same (a := b) (by omega), ← same (a := c) (by omega)]
  | @four a b c d lead first third fourth =>
    obtain ⟨from_f0, below_f5⟩ : 0xf0 ≤ a.toNat ∧ a.toNat < 0xf5 := lead
    obtain ⟨third, third'⟩ := third
    obtain ⟨fourth, fourth'⟩ := fourth
    obtain ⟨second, -, -, long, beyond⟩ := range_of_first first
    rw [String.utf8EncodeChar, toNat_ofNat (by omega), if_neg (by omega), if_neg (by omega), if_neg (by omega),
      ← same (a := a) (by omega), ← same (a := b) (by omega), ← same (a := c) (by omega), ← same (a := d) (by omega)]

/-! ### Texts -/

section Decode
variable {position : Nat} {bytes : List UInt8} {s : List Char}

/-- What decoding makes of the first bytes. -/
theorem decodeFrom_cons_eq_ok {b : UInt8} {more : List UInt8} : decodeFrom position (b :: more) = .ok s ↔
    ∃ following low high n rest others, lead? b = some (following, low, high) ∧
      tail following 1 (leadBits b following) low high more = .code n rest ∧
      decodeFrom (position + following + 1) rest = .ok others ∧ s = Char.ofNat n :: others := by
  rw [decodeFrom]
  split
  · rename_i none
    simp [none]
  · rename_i following low high found
    split
    · rename_i bad
      simp [found, bad]
    · rename_i n rest code
      simp only [found, Option.some.injEq, Prod.mk.injEq]
      constructor
      · intro h
        cases hrest : decodeFrom (position + following + 1) rest with
        | error failure =>
          rw [hrest] at h
          cases h
        | ok others =>
          rw [hrest] at h
          cases h
          exact ⟨_, _, _, n, rest, others, ⟨rfl, rfl, rfl⟩, code, hrest, rfl⟩
      · rintro ⟨_, _, _, n', rest', others, ⟨rfl, rfl, rfl⟩, code', hrest, rfl⟩
        obtain ⟨rfl, rfl⟩ := Tail.code.inj (code.symm.trans code')
        rw [hrest]
        rfl

theorem decodeFrom_encode (position : Nat) (s : List Char) : decodeFrom position (encode s) = .ok s := by
  induction s generalizing position with
  | nil => rw [encode, List.flatMap_nil, decodeFrom]
  | cons c s ih =>
    have sequence := sequence_encodeChar c
    obtain ⟨b, more, first⟩ := sequence.exists_cons
    have bytes : encode (c :: s) = b :: (more ++ encode s) := by
      rw [encode, List.flatMap_cons, first]
      rfl
    rw [first] at sequence
    obtain ⟨following, low, high, lead, code⟩ := code_iff.mpr ⟨b :: more, rfl, sequence⟩
    rw [bytes]
    exact decodeFrom_cons_eq_ok.mpr ⟨following, low, high, _, _, s, lead, code, ih _, by rw [Char.ofNat_toNat]⟩

theorem eq_encode_of_decodeFrom (h : decodeFrom position bytes = .ok s) : bytes = encode s := by
  induction hlength : bytes.length using Nat.strong_induction_on generalizing bytes position s with
  | _ length ih =>
    match bytes with
    | [] =>
      rw [decodeFrom] at h
      cases h
      rfl
    | b :: more =>
      obtain ⟨following, low, high, n, rest, others, lead, code, hrest, rfl⟩ := decodeFrom_cons_eq_ok.mp h
      have shorter : rest.length < length := by
        rw [← hlength]
        exact Nat.lt_succ_of_le (length_le_of_tail code)
      obtain ⟨run, split, sequence⟩ := code_iff.mp ⟨following, low, high, lead, code⟩
      rw [split, eq_encodeChar_of_sequence sequence, ih _ shorter hrest rfl]
      rfl

/-- Bytes are decoded exactly if they are those of a text, and then to that text. -/
theorem decode_eq_ok_iff : decode bytes = .ok s ↔ bytes = encode s :=
  ⟨eq_encode_of_decodeFrom, fun h => h ▸ decodeFrom_encode 0 s⟩

end Decode

end LocaleLint.Text.Utf8
