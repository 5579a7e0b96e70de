import Mathlib.Data.List.Forall2
import LocaleLint.Proofs.Rule.Violation

/-! # What the searches find

Each search of the rules holds of a text exactly if some part of the text has a form, whatever stands before
and after that part. The matchers decide this from left to right without going back: blanks end at the first
character that is none, and the earliest end of an interpolation, or the earliest 1 of a clause, is as good as
any later one. -/

namespace LocaleLint.Rule

open Text

/-- Whether some part of a text has a form. -/
def HasPart (Form : List Char → Prop) (s : List Char) : Prop :=
  ∃ before part after, s = before ++ part ++ after ∧ Form part

/-- An attribute whose value, in quotes of either kind, starts with a single slash. -/
def AttributeForm (IsName : List Char → Prop) (part : List Char) : Prop :=
  ∃ name blanks others quote c, part = name ++ blanks ++ '=' :: others ++ [quote, '/', c] ∧ IsName name ∧
    (∀ b ∈ blanks, isBlank b = true) ∧ (∀ b ∈ others, isBlank b = true) ∧ (quote = '\x22' ∨ quote = '\x27') ∧ c ≠ '/'

/-- The end of a Markdown link's name with a target that starts with a single slash. -/
def MarkdownForm (part : List Char) : Prop := ∃ c, part = [']', '(', '/', c] ∧ c ≠ '/'

/-- Something between double braces on one line. -/
def DoubleBracesForm (part : List Char) : Prop :=
  ∃ inside, part = '\x7b' :: '\x7b' :: inside ++ ['\x7d', '\x7d'] ∧ inside ≠ [] ∧ '\n' ∉ inside

/-- The opening of a clause for one with a 1 and then a closing brace on its line. -/
def NumberedOneForm (part : List Char) : Prop :=
  ∃ inside rest, part = oneClause ++ inside ++ '1' :: rest ++ ['\x7d'] ∧ '\n' ∉ inside ∧ '\n' ∉ rest

/-- The name of a link's attribute in any case. -/
def IsLinkName (name : List Char) : Prop := lower name = ['h', 'r', 'e', 'f']

/-- The name of an image's attribute in any case, where the long s counts as an s. -/
def IsImageName (name : List Char) : Prop :=
  ∃ first rest, name = first :: rest ∧ (first.toLower = 's' ∨ first = '\u017f') ∧ lower rest = ['r', 'c']

/-! ### Matchers and parts -/

/-- A matcher that accepts what starts with a part of a form makes a search for such parts. -/
theorem searches_iff_hasPart {matcher : List Char → Bool} {Form : List Char → Prop}
    (starts : ∀ s, matcher s = true ↔ ∃ part after, s = part ++ after ∧ Form part) {s : List Char} :
    searches matcher s = true ↔ HasPart Form s := by
  rw [searches_eq_true_iff]
  constructor
  · rintro ⟨before, rest, rfl, accepted⟩
    obtain ⟨part, after, rfl, form⟩ := (starts rest).mp accepted
    exact ⟨before, part, after, by rw [List.append_assoc], form⟩
  · rintro ⟨before, part, after, rfl, form⟩
    exact ⟨before, part ++ after, by rw [List.append_assoc], (starts _).mpr ⟨part, after, rfl, form⟩⟩

/-- What is left after dropping starts with a given character that is kept. -/
theorem dropWhile_eq_cons_iff {α : Type} {p : α → Bool} {s rest : List α} {c : α} (kept : p c = false) :
    s.dropWhile p = c :: rest ↔ ∃ dropped, s = dropped ++ c :: rest ∧ ∀ b ∈ dropped, p b = true := by
  constructor
  · intro h
    refine ⟨s.takeWhile p, ?_, fun b hb => ?_⟩
    · rw [← h, List.takeWhile_append_dropWhile]
    · exact List.all_eq_true.mp List.all_takeWhile b hb
  · rintro ⟨dropped, rfl, all⟩
    rw [List.dropWhile_append_of_pos all, List.dropWhile_cons_of_neg (by simp [kept])]

/-! ### Attributes -/

theorem dropName?_eq_some_iff {alike : Char → Char → Bool} {name s rest : List Char} :
    dropName? alike name s = some rest ↔
      ∃ start, s = start ++ rest ∧ List.Forall₂ (fun n c => alike n c = true) name start := by
  induction name generalizing s with
  | nil => simp [dropName?]
  | cons n name ih =>
    cases s with
    | nil => simp [dropName?, List.forall₂_cons_left_iff]
    | cons c s =>
      by_cases h : alike n c = true
      · rw [dropName?, if_pos h, ih]
        constructor
        · rintro ⟨start, rfl, same⟩
          exact ⟨c :: start, rfl, .cons h same⟩
        · rintro ⟨start, split, same⟩
          obtain ⟨d, start, -, others, rfl⟩ := List.forall₂_cons_left_iff.mp same
          exact ⟨start, (List.cons.inj split).2, others⟩
      · rw [dropName?, if_neg h]
        constructor
        · nofun
        · rintro ⟨start, split, same⟩
          obtain ⟨d, start, first, -, rfl⟩ := List.forall₂_cons_left_iff.mp same
          obtain ⟨rfl, -⟩ := List.cons.inj split
          exact absurd first h

theorem isLetter_iff {n c : Char} : isLetter n c = true ↔ c.toLower = n ∨ (n = 's' ∧ c = '\u017f') := by
  simp [isLetter]

theorem forall₂_isLetter_iff {letters name : List Char} (plain : 's' ∉ letters) :
    List.Forall₂ (fun n c => isLetter n c = true) letters name ↔ lower name = letters := by
  induction letters generalizing name with
  | nil => simp [lower]
  | cons n letters ih =>
    obtain ⟨notS, plain⟩ := List.ne_and_not_mem_of_not_mem_cons plain
    constructor
    · intro same
      obtain ⟨c, rest, first, others, rfl⟩ := List.forall₂_cons_left_iff.mp same
      have letter : c.toLower = n := (isLetter_iff.mp first).resolve_right fun h => notS h.1.symm
      have tail : lower rest = letters := (ih plain).mp others
      rw [lower, List.map_cons, letter, ← lower, tail]
    · intro h
      obtain ⟨c, rest, rfl, letter, tail⟩ := List.map_eq_cons_iff.mp h
      exact .cons (isLetter_iff.mpr (Or.inl letter)) ((ih plain).mpr tail)

theorem isImageName_iff {name : List Char} :
    List.Forall₂ (fun n c => isLetter n c = true) ['s', 'r', 'c'] name ↔ IsImageName name := by
  have plain : 's' ∉ ['r', 'c'] := by decide
  constructor
  · intro same
    obtain ⟨c, rest, first, others, rfl⟩ := List.forall₂_cons_left_iff.mp same
    have letter : c.toLower = 's' ∨ c = '\u017f' := (isLetter_iff.mp first).imp_right And.right
    exact ⟨c, rest, rfl, letter, (forall₂_isLetter_iff plain).mp others⟩
  · rintro ⟨c, rest, rfl, letter, tail⟩
    have first : isLetter 's' c = true := isLetter_iff.mpr (letter.imp_right fun long => ⟨rfl, long⟩)
    exact .cons first ((forall₂_isLetter_iff plain).mpr tail)

theorem startsNoSlash_iff {s : List Char} : startsNoSlash s = true ↔ ∃ c rest, s = c :: rest ∧ c ≠ '/' := by
  cases s <;> simp [startsNoSlash]

/-- What the matcher of an attribute reads one after another: a name, blanks and an equals sign, blanks and a
    quote, and a target. -/
theorem startsAttribute_iff_reads {name s : List Char} : startsAttribute name s = true ↔
    ∃ named valued quote c after, dropName? isLetter name s = some named ∧ named.dropWhile isBlank = '=' :: valued ∧
      valued.dropWhile isBlank = quote :: '/' :: c :: after ∧ (quote = '\x22' ∨ quote = '\x27') ∧ c ≠ '/' := by
  constructor
  · intro h
    unfold startsAttribute at h
    split at h
    · rename_i valued hvalued
      obtain ⟨named, hname, hnamed⟩ := Option.map_eq_some_iff.mp hvalued
      split at h
      · rename_i quote target htarget
        simp only [Bool.and_eq_true, Bool.or_eq_true, beq_iff_eq, startsNoSlash_iff] at h
        obtain ⟨hquote, c, after, rfl, hc⟩ := h
        exact ⟨named, valued, quote, c, after, hname, hnamed, htarget, hquote, hc⟩
      · cases h
    · cases h
  · rintro ⟨named, valued, quote, c, after, hname, hnamed, htarget, hquote, hc⟩
    simp [startsAttribute, hname, hnamed, htarget, hquote, startsNoSlash, hc]

theorem isBlank_eq_false_of_quote {quote : Char} (h : quote = '\x22' ∨ quote = '\x27') : isBlank quote = false := by
  rcases h with rfl | rfl <;> decide

theorem startsAttribute_iff {letters s : List Char} {IsName : List Char → Prop}
    (names : ∀ name, List.Forall₂ (fun n c => isLetter n c = true) letters name ↔ IsName name) :
    startsAttribute letters s = true ↔ ∃ part after, s = part ++ after ∧ AttributeForm IsName part := by
  rw [startsAttribute_iff_reads]
  constructor
  · rintro ⟨named, valued, quote, c, after, hname, hnamed, htarget, hquote, hc⟩
    obtain ⟨name, rfl, same⟩ := dropName?_eq_some_iff.mp hname
    obtain ⟨blanks, rfl, blank⟩ := (dropWhile_eq_cons_iff (by decide)).mp hnamed
    obtain ⟨others, rfl, blank'⟩ := (dropWhile_eq_cons_iff (isBlank_eq_false_of_quote hquote)).mp htarget
    refine ⟨name ++ blanks ++ '=' :: others ++ [quote, '/', c], after, by simp, ?_⟩
    exact ⟨name, blanks, others, quote, c, rfl, (names name).mp same, blank, blank', hquote, hc⟩
  · rintro ⟨_, after, rfl, name, blanks, others, quote, c, rfl, hname, blank, blank', hquote, hc⟩
    refine ⟨blanks ++ '=' :: (others ++ quote :: '/' :: c :: after), others ++ quote :: '/' :: c :: after, quote, c,
      after, ?_, ?_, ?_, hquote, hc⟩
    · exact dropName?_eq_some_iff.mpr ⟨name, by simp, (names name).mpr hname⟩
    · exact (dropWhile_eq_cons_iff (by decide)).mpr ⟨blanks, rfl, blank⟩
    · exact (dropWhile_eq_cons_iff (isBlank_eq_false_of_quote hquote)).mpr ⟨others, rfl, blank'⟩

theorem startsMarkdownTarget_iff {s : List Char} :
    startsMarkdownTarget s = true ↔ ∃ part after, s = part ++ after ∧ MarkdownForm part := by
  constructor
  · intro h
    unfold startsMarkdownTarget at h
    split at h
    · obtain ⟨c, after, rfl, hc⟩ := startsNoSlash_iff.mp h
      exact ⟨[']', '(', '/', c], after, rfl, c, rfl, hc⟩
    · cases h
  · rintro ⟨_, after, rfl, c, rfl, hc⟩
    exact startsNoSlash_iff.mpr ⟨c, after, rfl, hc⟩

/-! ### Braces -/

theorem closesTwice_iff {s : List Char} :
    closesTwice s = true ↔ ∃ inside after, s = inside ++ '\x7d' :: '\x7d' :: after ∧ '\n' ∉ inside := by
  fun_induction closesTwice s with
  | case1 rest => exact ⟨fun _ => ⟨[], rest, rfl, List.not_mem_nil⟩, fun _ => rfl⟩
  | case2 rest =>
    constructor
    · nofun
    · rintro ⟨inside, after, split, line⟩
      cases inside with
      | nil => cases split
      | cons c inside =>
        obtain ⟨rfl, -⟩ := List.cons.inj split
        exact absurd List.mem_cons_self line
  | case3 c rest notClosed notEnd ih =>
    rw [ih]
    constructor
    · rintro ⟨inside, after, rfl, line⟩
      exact ⟨c :: inside, after, rfl, List.not_mem_cons_of_ne_of_not_mem (Ne.symm notEnd) line⟩
    · rintro ⟨inside, after, split, line⟩
      cases inside with
      | nil =>
        obtain ⟨rfl, rfl⟩ := List.cons.inj split
        exact absurd rfl (notClosed after rfl)
      | cons d inside =>
        exact ⟨inside, after, (List.cons.inj split).2, (List.ne_and_not_mem_of_not_mem_cons line).2⟩
  | case4 => simp

theorem startsDoubleBraces_iff {s : List Char} :
    startsDoubleBraces s = true ↔ ∃ part after, s = part ++ after ∧ DoubleBracesForm part := by
  constructor
  · intro h
    unfold startsDoubleBraces at h
    split at h
    · rename_i c rest
      simp only [Bool.and_eq_true, bne_iff_ne, closesTwice_iff] at h
      obtain ⟨first, inside, after, rfl, line⟩ := h
      have noEnd : '\n' ∉ c :: inside := List.not_mem_cons_of_ne_of_not_mem first.symm line
      refine ⟨'\x7b' :: '\x7b' :: (c :: inside) ++ ['\x7d', '\x7d'], after, by simp, ?_⟩
      exact ⟨c :: inside, rfl, List.cons_ne_nil _ _, noEnd⟩
    · cases h
  · rintro ⟨_, after, rfl, inside, rfl, some, line⟩
    obtain ⟨c, inside, rfl⟩ := List.exists_cons_of_ne_nil some
    obtain ⟨first, line⟩ := List.ne_and_not_mem_of_not_mem_cons line
    simp only [List.cons_append, startsDoubleBraces, Bool.and_eq_true, bne_iff_ne, closesTwice_iff]
    exact ⟨first.symm, inside, after, by simp, line⟩

theorem prefix_takeWhile_iff {α : Type} {p : α → Bool} {start s : List α} :
    start <+: s.takeWhile p ↔ start <+: s ∧ ∀ c ∈ start, p c = true := by
  induction s generalizing start with
  | nil =>
    rw [List.takeWhile_nil]
    exact ⟨fun h => ⟨h, by simp [List.prefix_nil.mp h]⟩, And.left⟩
  | cons c s ih =>
    cases start with
    | nil => simp
    | cons d start =>
      by_cases h : p c = true
      · rw [List.takeWhile_cons_of_pos h, List.cons_prefix_cons, List.cons_prefix_cons, ih, List.forall_mem_cons,
          and_assoc]
        constructor
        · rintro ⟨rfl, starts, all⟩
          exact ⟨rfl, starts, h, all⟩
        · rintro ⟨rfl, starts, -, all⟩
          exact ⟨rfl, starts, all⟩
      · rw [List.takeWhile_cons_of_neg h]
        constructor
        · intro starts
          cases List.prefix_nil.mp starts
        · rintro ⟨starts, all⟩
          obtain ⟨rfl, -⟩ := List.cons_prefix_cons.mp starts
          exact absurd (all d List.mem_cons_self) h

/-- One character stands after the first place of another exactly if it stands after some place of it. -/
theorem mem_dropWhile_ne_iff {s : List Char} {c d : Char} (ne : d ≠ c) :
    d ∈ s.dropWhile (· != c) ↔ ∃ before rest, before ++ c :: rest ++ [d] <+: s := by
  induction s with
  | nil => simp
  | cons e s ih =>
    by_cases h : e = c
    · subst h
      rw [List.dropWhile_cons_of_neg (by simp)]
      constructor
      · intro later
        obtain ⟨rest, after, rfl⟩ := List.append_of_mem (List.mem_of_ne_of_mem ne later)
        exact ⟨[], rest, after, by simp⟩
      · rintro ⟨before, rest, starts⟩
        exact starts.subset (by simp)
    · rw [List.dropWhile_cons_of_pos (by simpa using h), ih]
      constructor
      · rintro ⟨before, rest, starts⟩
        exact ⟨e :: before, rest, List.cons_prefix_cons.mpr ⟨rfl, starts⟩⟩
      · rintro ⟨before, rest, starts⟩
        cases before with
        | nil => exact absurd (List.cons_prefix_cons.mp starts).1.symm h
        | cons f before => exact ⟨before, rest, (List.cons_prefix_cons.mp starts).2⟩

/-- A closing brace stands after the first 1 of a line exactly if it stands after some 1 of it. -/
theorem mem_dropWhile_takeWhile_iff {s : List Char} : '\x7d' ∈ (s.takeWhile (· != '\n')).dropWhile (· != '1') ↔
    ∃ inside rest after, s = inside ++ '1' :: rest ++ '\x7d' :: after ∧ '\n' ∉ inside ∧ '\n' ∉ rest := by
  have line : ∀ inside rest : List Char, (∀ c ∈ inside ++ '1' :: rest ++ ['\x7d'], (c != '\n') = true) ↔
      '\n' ∉ inside ∧ '\n' ∉ rest := by
    intro inside rest
    have other : ∀ t : List Char, (∀ c ∈ t, (c != '\n') = true) ↔ '\n' ∉ t := fun t => by
      simp [bne_iff_ne, List.forall_mem_ne']
    rw [other]
    simp
  rw [mem_dropWhile_ne_iff (by decide)]
  simp only [prefix_takeWhile_iff, line]
  constructor
  · rintro ⟨inside, rest, ⟨after, rfl⟩, lines⟩
    exact ⟨inside, rest, after, by simp, lines⟩
  · rintro ⟨inside, rest, after, rfl, lines⟩
    exact ⟨inside, rest, ⟨after, by simp⟩, lines⟩

theorem startsNumberedOneClause_iff {s : List Char} :
    startsNumberedOneClause s = true ↔ ∃ part after, s = part ++ after ∧ NumberedOneForm part := by
  simp only [startsNumberedOneClause, Bool.and_eq_true, List.isPrefixOf_iff_prefix, List.contains_iff_mem,
    mem_dropWhile_takeWhile_iff]
  constructor
  · rintro ⟨⟨tail, rfl⟩, inside, rest, after, split, line, line'⟩
    rw [List.drop_left] at split
    exact ⟨oneClause ++ inside ++ '1' :: rest ++ ['\x7d'], after, by simp [split], inside, rest, rfl, line, line'⟩
  · rintro ⟨_, after, rfl, inside, rest, rfl, line, line'⟩
    refine ⟨⟨inside ++ '1' :: rest ++ '\x7d' :: after, by simp⟩, inside, rest, after, ?_, line, line'⟩
    simp only [List.append_assoc, List.drop_left, List.cons_append, List.nil_append]

/-! ### The searches -/

theorem hasRelativeLink_iff {s : List Char} : hasRelativeLink s = true ↔
    HasPart (fun part => AttributeForm IsLinkName part ∨ MarkdownForm part) s := by
  refine searches_iff_hasPart fun t => ?_
  have names : ∀ name, List.Forall₂ (fun n c => isLetter n c = true) ['h', 'r', 'e', 'f'] name ↔ IsLinkName name :=
    fun name => forall₂_isLetter_iff (by decide)
  simp only [Bool.or_eq_true, startsAttribute_iff names, startsMarkdownTarget_iff, and_or_left, exists_or]

theorem hasRelativeImageSource_iff {s : List Char} :
    hasRelativeImageSource s = true ↔ HasPart (AttributeForm IsImageName) s :=
  searches_iff_hasPart fun _ => startsAttribute_iff fun _ => isImageName_iff

theorem hasDoubleBraces_iff {s : List Char} : hasDoubleBraces s = true ↔ HasPart DoubleBracesForm s :=
  searches_iff_hasPart fun _ => startsDoubleBraces_iff

theorem hasNumberedOneClause_iff {s : List Char} : hasNumberedOneClause s = true ↔ HasPart NumberedOneForm s :=
  searches_iff_hasPart fun _ => startsNumberedOneClause_iff

/-- What each search finds in a text, whatever the text is. -/
theorem searches_iff_forms (s : List Char) :
    (hasRelativeLink s = true ↔ HasPart (fun part => AttributeForm IsLinkName part ∨ MarkdownForm part) s) ∧
      (hasRelativeImageSource s = true ↔ HasPart (AttributeForm IsImageName) s) ∧
      (hasDoubleBraces s = true ↔ HasPart DoubleBracesForm s) ∧
      (hasNumberedOneClause s = true ↔ HasPart NumberedOneForm s) ∧
      (interpolatesCount s = true ↔ countInterpolation <:+: s ∨ doubleBracedCount <:+: s) :=
  ⟨hasRelativeLink_iff, hasRelativeImageSource_iff, hasDoubleBraces_iff, hasNumberedOneClause_iff,
    interpolatesCount_iff⟩

example : hasDoubleBraces "\x7b\x7b\x7d\x7d\x7d".toList ∧ ¬ hasDoubleBraces "\x7b\x7b\x7d\x7d".toList := by decide +kernel

end LocaleLint.Rule
