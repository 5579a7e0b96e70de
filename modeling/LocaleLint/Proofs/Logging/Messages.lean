import LocaleLint.Logging.Entry
import LocaleLint.Proofs.Text.Separator

/-! # What messages tell

A log is read as lines, each with a level and a text. The text of an entry tells which entry it is, except for entries
about loaded locales, in which the name of a locale may run into the name of a file, and for faults, which have texts of
their own. -/

namespace LocaleLint

namespace Text

theorem head?_toList_append {start : String} {c : Char} (first : start.toList.head? = some c) (rest : String) :
    (start ++ rest).toList.head? = some c := by
  rw [String.toList_append, List.head?_append, first, Option.some_or]

theorem isDigit_of_mem_toString {n : Nat} {c : Char} (h : c ∈ (toString n).toList) : c.isDigit = true := by
  rw [Nat.toString_eq_repr, Nat.toList_repr] at h
  exact Nat.isDigit_of_mem_toDigits (by decide) (by decide) h

/-- A number with a blank after it tells where it ends. -/
theorem toString_append_inj {n m : Nat} {s t : String} (same : toString n ++ s = toString m ++ t)
    (hs : s.toList.head? = some ' ') (ht : t.toList.head? = some ' ') : n = m ∧ s = t := by
  have blank : ∀ k : Nat, ' ' ∉ (toString k).toList := fun k h => absurd (isDigit_of_mem_toString h) (by decide)
  obtain ⟨rest, hs⟩ := List.head?_eq_some_iff.mp hs
  obtain ⟨rest', ht⟩ := List.head?_eq_some_iff.mp ht
  have split := congrArg String.toList same
  rw [String.toList_append, String.toList_append, hs, ht, append_cons_inj_iff (blank n) (blank m)] at split
  obtain ⟨digits, rfl⟩ := split
  refine ⟨?_, String.toList_inj.mp (hs.trans ht.symm)⟩
  rw [Nat.toString_eq_repr, Nat.toString_eq_repr, Nat.toList_repr, Nat.toList_repr] at digits
  rw [← Nat.ofDigitChars_ten_toDigits (n := n), digits, Nat.ofDigitChars_ten_toDigits]

end Text

namespace LogEntry
open Text

/-- What a log shows of an entry: its level and its message. -/
def shown (entry : LogEntry) : Level × String := (entry.level, entry.message)

/-- How a text starts: with its first four characters, unless they are a number. -/
def startOf (message : String) : Option (List Char) :=
  if message.toList.head?.any Char.isDigit then none else some (message.toList.take 4)

/-- How the messages of entries of one kind start. Those of faults have no start in common. -/
def start : LogEntry → Option (List Char)
  | unmatched _ => some ['N', 'o', ' ', 'f']
  | starting _ => some ['L', 'i', 'n', 't']
  | parsing _ => some ['P', 'a', 'r', 's']
  | loaded _ _ => some ['L', 'o', 'a', 'd']
  | exempt _ => some ['S', 'k', 'i', 'p']
  | clean _ => some ['N', 'o', ' ', 'i']
  | faulty _ _ => some ['F', 'o', 'u', 'n']
  | failed _ _ => none
  | noConfig _ => some ['C', 'o', 'n', 'f']
  | malformedConfig => some ['l', 'o', 'a', 'd']
  | fault _ => some []

/-- Whether the message of an entry tells which entry it is. -/
def isTold : LogEntry → Bool
  | loaded _ _ | fault _ => false
  | _ => true

theorem startOf_append {text : String} {cs : List Char} (long : cs.length = 4) (h : startOf text = some cs)
    (rest : String) : startOf (text ++ rest) = some cs := by
  rw [startOf] at h
  split at h
  · cases h
  · rename_i noNumber
    obtain rfl := Option.some.inj h
    have enough : 4 ≤ text.toList.length := long ▸ List.length_take_le' 4 _
    have ne : text.toList ≠ [] := List.ne_nil_of_length_pos (Nat.lt_of_lt_of_le (by decide) enough)
    rw [startOf, String.toList_append, List.head?_append_of_ne_nil _ ne, if_neg noNumber,
      List.take_append_of_le_length enough]

theorem startOf_toString_append (n : Nat) (rest : String) : startOf (toString n ++ rest) = none := by
  obtain ⟨c, digits, h⟩ : ∃ c digits, (toString n).toList = c :: digits := by
    rw [Nat.toString_eq_repr, Nat.toList_repr]
    exact List.exists_cons_of_ne_nil Nat.toDigits_ne_nil
  have digit : c.isDigit = true := isDigit_of_mem_toString (h ▸ List.mem_cons_self)
  rw [startOf, String.toList_append, h]
  exact if_pos digit

theorem startOf_message {entry : LogEntry} (kind : ∀ message, entry ≠ .fault message) :
    startOf entry.message = entry.start := by
  cases entry with
  | unmatched _ | parsing _ | exempt _ | clean _ => exact startOf_append rfl (by decide +kernel) _
  | starting _ | noConfig _ => exact startOf_append rfl (startOf_append rfl (by decide +kernel) _) _
  | loaded _ _ | faulty _ _ =>
    exact startOf_append rfl (startOf_append rfl (startOf_append rfl (by decide +kernel) _) _) _
  | failed count linted =>
    show startOf (toString count ++ " of " ++ toString linted ++ " locale files have errors") = none
    rw [String.append_assoc, String.append_assoc]
    exact startOf_toString_append count _
  | malformedConfig => decide +kernel
  | fault message => exact absurd rfl (kind message)

/-- Only a fault can have the message of another entry, unless that is one about a loaded locale. -/
theorem eq_of_message_eq {entry other : LogEntry} (kind : ∀ message, entry ≠ .fault message) (told : other.isTold = true)
    (same : entry.message = other.message) : entry = other := by
  have kind' : ∀ message, other ≠ .fault message := by
    rintro message rfl
    cases told
  have starts : entry.start = other.start := by rw [← startOf_message kind, same, startOf_message kind']
  -- Entries of different kinds start differently, and those of one kind differ in what follows.
  cases other with
  | unmatched pattern =>
    cases entry with
    | unmatched pattern' => rw [(String.append_right_inj _).mp same]
    | _ => simp [start] at starts
  | starting files =>
    cases entry with
    | starting files' =>
      have same : "Linting " ++ toString files' ++ " locale files..." = "Linting " ++ toString files ++ " locale files..." :=
        same
      simp only [String.append_assoc, String.append_right_inj] at same
      rw [(toString_append_inj same rfl rfl).1]
    | _ => simp [start] at starts
  | parsing filename =>
    cases entry with
    | parsing filename' => rw [(String.append_right_inj _).mp same]
    | _ => simp [start] at starts
  | loaded locale filename => cases told
  | exempt key =>
    cases entry with
    | exempt key' => rw [(String.append_right_inj _).mp same]
    | _ => simp [start] at starts
  | clean filename =>
    cases entry with
    | clean filename' => rw [(String.append_right_inj _).mp same]
    | _ => simp [start] at starts
  | faulty issues filename =>
    cases entry with
    | faulty issues' filename' =>
      have same : "Found " ++ toString issues' ++ " issues in " ++ filename' =
        "Found " ++ toString issues ++ " issues in " ++ filename := same
      simp only [String.append_assoc, String.append_right_inj] at same
      obtain ⟨rfl, rest⟩ := toString_append_inj same (head?_toList_append rfl _) (head?_toList_append rfl _)
      rw [(String.append_right_inj _).mp rest]
    | _ => simp [start] at starts
  | failed count linted =>
    cases entry with
    | failed count' linted' =>
      have same : toString count' ++ " of " ++ toString linted' ++ " locale files have errors" =
        toString count ++ " of " ++ toString linted ++ " locale files have errors" := same
      simp only [String.append_assoc] at same
      obtain ⟨rfl, rest⟩ := toString_append_inj same (head?_toList_append rfl _) (head?_toList_append rfl _)
      rw [(toString_append_inj ((String.append_right_inj _).mp rest) rfl rfl).1]
    | _ => simp [start] at starts
  | noConfig path =>
    cases entry with
    | noConfig path' => rw [(String.append_right_inj _).mp ((String.append_left_inj _).mp same)]
    | _ => simp [start] at starts
  | malformedConfig =>
    cases entry with
    | malformedConfig => rfl
    | _ => simp [start] at starts
  | fault message => cases told

end LogEntry

end LocaleLint
