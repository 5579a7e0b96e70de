import Mathlib
import LocaleLint.Proofs.Lint.File
import LocaleLint.Proofs.Locale.Escape
import LocaleLint.Proofs.Logging.Messages
import LocaleLint.Proofs.Tree.Build

/-! # Which document is a locale

The conditions of a locale are looked at in a fixed order: the text keeps the rules of the format, the document is a
mapping, of one entry, with a mapping as its value, in which no key comes twice. A document that meets all of them is
a locale, whose tree depends on the translations only. Of any other one the first condition that it does not meet is
the fault, and the message of the fault tells which one that is. -/

namespace LocaleLint

open Value

/-! ### Messages -/

namespace LocaleFault
open Text

/-- The character that the message of a fault starts with. -/
def initial : LocaleFault → Char
  | malformed => 'Y'
  | notMapping => 'd'
  | localeCount _ => 'e'
  | notTranslations _ => 'l'
  | duplicateKey _ => 'k'
  | undecodable _ => '\x27'

theorem head?_message (fault : LocaleFault) : fault.message.toList.head? = some fault.initial := by
  cases fault with
  | malformed | notMapping => rfl
  | localeCount _ => exact head?_toList_append rfl _
  | notTranslations _ | duplicateKey _ => exact head?_toList_append (head?_toList_append rfl _) _
  | undecodable _ => exact head?_toList_append (head?_toList_append (head?_toList_append rfl _) _) _

/-- Whether a fault is one of a text, and not one of the bytes that it is read from. -/
def OfText : LocaleFault → Prop
  | undecodable _ => False
  | _ => True

/-- The message of a fault of a text tells which fault it is. -/
theorem eq_of_message_eq {fault other : LocaleFault} (ofText : fault.OfText) (same : fault.message = other.message) :
    fault = other := by
  have initials : fault.initial = other.initial := by
    have heads := head?_message other
    rw [← same, head?_message] at heads
    exact Option.some.inj heads
  -- Faults of different kinds start differently, and faults of one kind differ in what follows the same start.
  cases fault with
  | malformed =>
    cases other with
    | malformed => rfl
    | _ => simp [initial] at initials
  | notMapping =>
    cases other with
    | notMapping => rfl
    | _ => simp [initial] at initials
  | localeCount found =>
    cases other with
    | localeCount found' => rw [Nat.repr_inj.mp ((String.append_right_inj _).mp same)]
    | _ => simp [initial] at initials
  | notTranslations locale =>
    cases other with
    | notTranslations locale' =>
      rw [(String.append_right_inj _).mp ((String.append_left_inj _).mp same)]
    | _ => simp [initial] at initials
  | duplicateKey key =>
    cases other with
    | duplicateKey key' => rw [(String.append_right_inj _).mp ((String.append_left_inj _).mp same)]
    | _ => simp [initial] at initials
  | undecodable failure => exact ofText.elim

end LocaleFault

/-! ### Documents -/

namespace Value

/-- The locale that a document is: its name is the text of the only key, and its tree is what the mapping under that
    key becomes. -/
inductive HoldsLocale : Value → Locale → Prop
  | intro {locale : Value} {translations : List (Value × Value)} {s : List Char} {tree : Mapping}
    (name : locale.scalarText = .ok s) (builds : (Value.mapping translations).Builds (.mapping tree)) :
    HoldsLocale (.mapping [(locale, .mapping translations)]) ⟨String.ofList s, tree⟩

/-- The first condition of a locale that a document does not meet. -/
inductive FirstFault : Value → LocaleFault → Prop
  | notMapping {v : Value} (other : ∀ entries, v ≠ .mapping entries) : FirstFault v .notMapping
  | localeCount {entries : List (Value × Value)} (number : entries.length ≠ 1) :
    FirstFault (.mapping entries) (.localeCount entries.length)
  /-- The value of the only key is no mapping, and reading it ends. -/
  | notTranslations {locale value : Value} {s : List Char} (other : ∀ translations, value ≠ .mapping translations)
    (present : value ≠ .endless) (name : locale.scalarText = .ok s) :
    FirstFault (.mapping [(locale, value)]) (.notTranslations (String.ofList s))
  /-- An entry below the only key has the key of an earlier one of its mapping, and no entry before it is at fault. -/
  | duplicateKey {locale : Value} {translations : List (Value × Value)} {before after : List Slot} {p : Slot}
    (order : (Value.mapping translations).slots = before ++ p :: after) (sound : ∀ q ∈ before, q.Sound)
    (repeats : p.Repeats) : FirstFault (.mapping [(locale, .mapping translations)])
      (.duplicateKey (dotted ((p.path ++ [p.key]).map Slot.keyText)))

theorem FirstFault.ofText {v : Value} {fault : LocaleFault} (first : v.FirstFault fault) : fault.OfText := by
  cases first <;> trivial

/-- A document all of whose keys and values have texts is read without a failure but for faults of the file. -/
theorem not_unreadable_of_coerces {v : Value} (coerces : ∀ inner, Within inner v → Coerces inner) : ¬ Unreadable v := by
  have legible := (legible_iff_coerces v).mpr coerces
  intro unreadable
  cases unreadable with
  | @entry locale translations before after p order sound textless =>
    obtain ⟨-, below⟩ := Tree.legible_slots.mp legible _ (List.mem_singleton_self _)
    have member : p ∈ (Value.mapping translations).slots := order ▸ List.mem_append_right _ List.mem_cons_self
    exact Slot.not_legible_of_textless textless (below p member)
  | name sound textless =>
    obtain ⟨⟨text, -⟩, -⟩ := Tree.legible_slots.mp legible _ (List.mem_singleton_self _)
    exact textless_iff.mp textless text
  | endless =>
    obtain ⟨⟨-, mapping | text⟩, -⟩ := Tree.legible_slots.mp legible _ (List.mem_singleton_self _)
    · obtain ⟨inner, h⟩ := mapping
      cases h
    · exact textless_iff.mp ⟨.endless, List.mem_singleton_self _, trivial⟩ text
  | other absent textless =>
    obtain ⟨⟨text, -⟩, -⟩ := Tree.legible_slots.mp legible _ (List.mem_singleton_self _)
    exact textless_iff.mp textless text

end Value

namespace Locale

section OfValue
variable {filename other : String} {v locale value : Value} {translations entries : List (Value × Value)} {found : Locale}
  {fault : LocaleFault}

theorem textOf_eq_ok {name : String} : textOf v = .ok name ↔ ∃ s, v.scalarText = .ok s ∧ String.ofList s = name := by
  rw [textOf]
  cases v.scalarText with
  | ok s => simp
  | error e => simp

theorem ofValue_of_not_mapping (other : ∀ entries, v ≠ .mapping entries) :
    ofValue filename v = .error (.fault filename .notMapping) := by
  cases v with
  | mapping entries => exact absurd rfl (other entries)
  | _ => rfl

theorem ofValue_of_length (number : entries.length ≠ 1) :
    ofValue filename (.mapping entries) = .error (.fault filename (.localeCount entries.length)) := by
  match entries with
  | [] => rfl
  | [entry] => exact absurd rfl number
  | first :: second :: rest => exact ofValue_mapping first second rest

theorem ofValue_other (other : ∀ translations, value ≠ .mapping translations) (present : value ≠ .endless) :
    ofValue filename (.mapping [(locale, value)]) = match textOf locale with
      | .error e => .error e
      | .ok name => .error (.fault filename (.notTranslations name)) := by
  cases value with
  | mapping translations => exact absurd rfl (other translations)
  | endless => exact absurd rfl present
  | _ => rfl

/-- A document gives a locale if it is one. -/
theorem ofValue_eq_ok_iff : ofValue filename v = .ok found ↔ v.HoldsLocale found := by
  constructor
  · intro h
    obtain ⟨locale, translations, rfl⟩ := form_of_ofValue h
    rw [ofValue] at h
    cases hbuild : Tree.build translations "" with
    | error e =>
      rw [hbuild] at h
      cases e <;> cases h
    | ok tree =>
      cases hname : textOf locale with
      | error e =>
        rw [hbuild, hname] at h
        cases h
      | ok name =>
        rw [hbuild, hname] at h
        cases h
        obtain ⟨s, text, rfl⟩ := textOf_eq_ok.mp hname
        exact .intro text (Tree.build_eq_ok_iff.mp hbuild)
  · rintro ⟨name, builds⟩
    rw [ofValue, Tree.build_eq_ok_iff.mpr builds, textOf_eq_ok.mpr ⟨_, name, rfl⟩]

theorem firstFault_of_translations
    (h : ofValue filename (.mapping [(locale, .mapping translations)]) = .error (.fault other fault)) :
    other = filename ∧ (Value.mapping [(locale, .mapping translations)]).FirstFault fault := by
  rw [ofValue] at h
  cases hbuild : Tree.build translations "" with
  | error e =>
    rw [hbuild] at h
    cases e with
    | coercion cause => cases h
    | duplicateKey key =>
      cases h
      obtain ⟨before, p, after, order, sound, repeats, rfl⟩ :=
        Tree.firstFault?_duplicateKey.mp (Tree.build_eq_error.mp hbuild)
      exact ⟨rfl, .duplicateKey order sound repeats⟩
  | ok tree =>
    cases hname : textOf locale with
    | error e =>
      obtain ⟨cause, rfl⟩ := exists_of_textOf_error hname
      rw [hbuild, hname] at h
      cases h
    | ok name =>
      rw [hbuild, hname] at h
      cases h

theorem firstFault_of_other (absent : ∀ translations, value ≠ .mapping translations) (present : value ≠ .endless)
    (h : ofValue filename (.mapping [(locale, value)]) = .error (.fault other fault)) :
    other = filename ∧ (Value.mapping [(locale, value)]).FirstFault fault := by
  rw [ofValue_other absent present] at h
  cases hname : textOf locale with
  | error e =>
    obtain ⟨cause, rfl⟩ := exists_of_textOf_error hname
    rw [hname] at h
    cases h
  | ok name =>
    rw [hname] at h
    cases h
    obtain ⟨s, text, rfl⟩ := textOf_eq_ok.mp hname
    exact ⟨rfl, .notTranslations absent present text⟩

/-- A document is at fault, under the name of its file, for the first condition that it does not meet. -/
theorem ofValue_eq_fault_iff :
    ofValue filename v = .error (.fault other fault) ↔ other = filename ∧ v.FirstFault fault := by
  constructor
  · intro h
    by_cases mapping : ∃ entries, v = .mapping entries
    · obtain ⟨entries, rfl⟩ := mapping
      by_cases one : entries.length = 1
      · obtain ⟨⟨locale, value⟩, rfl⟩ := List.length_eq_one_iff.mp one
        cases value with
        | mapping translations => exact firstFault_of_translations h
        | endless => cases h
        | _ => exact firstFault_of_other (fun _ same => by cases same) (fun same => by cases same) h
      · rw [ofValue_of_length one] at h
        cases h
        exact ⟨rfl, .localeCount one⟩
    · have other : ∀ entries, v ≠ .mapping entries := not_exists.mp mapping
      rw [ofValue_of_not_mapping other] at h
      cases h
      exact ⟨rfl, .notMapping other⟩
  · rintro ⟨rfl, first⟩
    cases first with
    | notMapping other => exact ofValue_of_not_mapping other
    | localeCount number => exact ofValue_of_length number
    | notTranslations absent present name =>
      rw [ofValue_other absent present, textOf_eq_ok.mpr ⟨_, name, rfl⟩]
    | @duplicateKey locale translations before after p order sound repeats =>
      have failed : Tree.build translations "" = .error (.duplicateKey (p.dottedKey "")) :=
        Tree.build_eq_error.mpr (Tree.firstFault?_duplicateKey.mpr ⟨before, p, after, order, sound, repeats, rfl⟩)
      rw [ofValue, failed]
      rfl

/-- What a readable document with the form of a locale lacks to be one is that its keys are told apart. -/
theorem ofValue_isOk_of_readable (readable : ¬ Unreadable v) :
    (∃ found, ofValue filename v = .ok found) ↔ ∃ locale translations, v = .mapping [(locale, .mapping translations)] ∧
      ∀ inner, Within inner (.mapping translations) → TellsApart inner := by
  constructor
  · rintro ⟨found, h⟩
    obtain ⟨name, builds⟩ := ofValue_eq_ok_iff.mp h
    have sound := Tree.firstFault?_eq_none.mp (Tree.build_isOk.mp ⟨_, (@Tree.build_eq_ok_iff _ "" _).mpr builds⟩)
    exact ⟨_, _, rfl, (new_iff_tellsApart _).mp fun p member => (sound p member).new⟩
  · rintro ⟨locale, translations, rfl, apart⟩
    rw [unreadable_translations, not_or, not_and] at readable
    have new := (new_iff_tellsApart (.mapping translations)).mpr apart
    -- A first fault would be a missing text, which is excluded, or a key that comes again, and none does.
    cases hfault : Tree.firstFault? "" (Value.mapping translations).slots with
    | none =>
      obtain ⟨s, name⟩ := Decidable.not_not.mp (mt textless_iff.mpr (readable.2 hfault))
      obtain ⟨tree, built⟩ := Tree.build_isOk.mpr hfault
      exact ⟨_, ofValue_eq_ok_iff.mpr (.intro name (Tree.build_eq_ok_iff.mp built))⟩
    | some cause =>
      cases cause with
      | coercion cause => exact absurd ⟨cause, hfault⟩ readable.1
      | duplicateKey key =>
        obtain ⟨before, p, after, order, -, repeats, -⟩ := Tree.firstFault?_duplicateKey.mp hfault
        exact absurd repeats (new p (order ▸ List.mem_append_right _ List.mem_cons_self))

end OfValue

/-! ### Texts -/

/-- Whether a text breaks a rule of the format, or holds a document in which all that is read has a text. -/
def Readable (content : List Char) : Prop :=
  Yaml.load content = .error .malformed ∨ ∃ document, Yaml.load content = .ok document ∧ ¬ Unreadable document.value

/-- Whether a text holds a locale. -/
def TextHolds (content : List Char) (found : Locale) : Prop :=
  ∃ document, Yaml.load content = .ok document ∧ document.value.HoldsLocale found

/-- The first condition that a text does not meet. -/
inductive TextFault (content : List Char) : LocaleFault → Prop
  | malformed (unloaded : Yaml.load content = .error .malformed) : TextFault content .malformed
  | document {document : Yaml.Document} {fault : LocaleFault} (loaded : Yaml.load content = .ok document)
    (first : document.value.FirstFault fault) : TextFault content fault

/-- How it is decided whether a text is a locale. -/
structure Decided (filename : String) (content : List Char) : Prop where
  /-- Whatever is returned is the locale that the text holds. -/
  accepts : ∀ found, parse filename content = .ok found ↔ TextHolds content found
  /-- Every fault is that of the first condition that is not met, and bears the file's name. -/
  rejects : ∀ other fault, parse filename content = .error (.fault other fault) ↔
    other = filename ∧ TextFault content fault
  /-- A locale and a fault are all that comes of a readable text. -/
  total : Readable content ↔ (∃ found, parse filename content = .ok found) ∨
    ∃ fault, parse filename content = .error (.fault filename fault)
  /-- A text is readable if everything in its document has a text. -/
  readable : ∀ document, Yaml.load content = .ok document → (∀ inner, Within inner document.value → Coerces inner) →
    Readable content
  /-- The conditions of a readable text are the form of a locale and that keys are told apart. -/
  conditions : Readable content → ((∃ found, parse filename content = .ok found) ↔
    ∃ document locale translations, Yaml.load content = .ok document ∧
      document.value = .mapping [(locale, .mapping translations)] ∧
      ∀ inner, Within inner (.mapping translations) → TellsApart inner)
  /-- Another name of the locale changes nothing of its tree, and of what linting reports and prints. -/
  unnamed : ∀ content' document document' locale locale' translations found found',
    Yaml.load content = .ok document → Yaml.load content' = .ok document' →
    document.value = .mapping [(locale, .mapping translations)] →
    document'.value = .mapping [(locale', .mapping translations)] →
    parse filename content = .ok found → parse filename content' = .ok found' → found.tree = found'.tree ∧
      ∀ files files', Lint.readLocale files filename = .ok found → Lint.readLocale files' filename = .ok found' →
        (Lint.file files filename).result = (Lint.file files' filename).result ∧
        (Lint.file files filename).journal.printed = (Lint.file files' filename).journal.printed
  /-- The message tells which condition is not met. -/
  told : ∀ content' fault other, TextFault content fault → TextFault content' other →
    faultMessage filename fault = faultMessage filename other → fault = other

section Parse
variable {filename : String} {content content' : List Char} {found found' : Locale} {fault : LocaleFault}

theorem parse_of_load {document : Yaml.Document} (loaded : Yaml.load content = .ok document) :
    parse filename content = ofValue filename document.value := by
  rw [parse, loaded]

theorem parse_of_malformed (unloaded : Yaml.load content = .error .malformed) :
    parse filename content = .error (.fault filename .malformed) := by
  rw [parse, unloaded]

theorem parse_of_unbuilt {cause : Yaml.LoadError} (unloaded : Yaml.load content = .error cause)
    (unbuilt : cause ≠ .malformed) : parse filename content = .error (.load cause) := by
  rw [parse, unloaded]
  cases cause with
  | malformed => exact absurd rfl unbuilt
  | _ => rfl

theorem parse_eq_ok_iff : parse filename content = .ok found ↔ TextHolds content found := by
  constructor
  · intro h
    cases hload : Yaml.load content with
    | ok document => exact ⟨document, hload, ofValue_eq_ok_iff.mp (parse_of_load hload ▸ h)⟩
    | error cause =>
      rw [parse, hload] at h
      cases cause <;> cases h
  · rintro ⟨document, loaded, holds⟩
    rw [parse_of_load loaded]
    exact ofValue_eq_ok_iff.mpr holds

theorem parse_eq_fault_iff {other : String} :
    parse filename content = .error (.fault other fault) ↔ other = filename ∧ TextFault content fault := by
  constructor
  · intro h
    cases hload : Yaml.load content with
    | ok document =>
      obtain ⟨same, first⟩ := ofValue_eq_fault_iff.mp (parse_of_load hload ▸ h)
      exact ⟨same, .document hload first⟩
    | error cause =>
      rw [parse, hload] at h
      cases cause with
      | malformed =>
        cases h
        exact ⟨rfl, .malformed hload⟩
      | _ => cases h
  · rintro ⟨rfl, first⟩
    cases first with
    | malformed unloaded => exact parse_of_malformed unloaded
    | document loaded first =>
      rw [parse_of_load loaded]
      exact ofValue_eq_fault_iff.mpr ⟨rfl, first⟩

/-- A text is readable if it does not end in a failure that is no fault of the file. -/
theorem escaping_parse_iff : Escaping (parse filename content) ↔ ¬ Readable content := by
  rw [Readable]
  cases hload : Yaml.load content with
  | ok document =>
    rw [parse_of_load hload, ofValue_escaping_iff]
    simp
  | error cause =>
    -- Of all failures to load, only a text that breaks the format is a fault of the file.
    by_cases malformed : cause = .malformed
    · rw [malformed] at hload ⊢
      rw [parse_of_malformed hload]
      exact iff_of_false (not_escaping_fault _) (not_not_intro (Or.inl rfl))
    · rw [parse_of_unbuilt hload malformed]
      simp [escaping_load, malformed]

theorem parse_total_iff : Readable content ↔ (∃ found, parse filename content = .ok found) ∨
    ∃ fault, parse filename content = .error (.fault filename fault) := by
  rw [fault_iff fun other fault h => (parse_eq_fault_iff.mp h).1, escaping_parse_iff, not_not]
  constructor
  · intro readable
    by_cases holds : ∃ found, parse filename content = .ok found
    · exact Or.inl holds
    · exact Or.inr ⟨holds, readable⟩
  · rintro (⟨found, h⟩ | ⟨-, readable⟩)
    · by_contra unreadable
      rw [← @escaping_parse_iff filename, h] at unreadable
      exact not_escaping_ok found unreadable
    · exact readable

theorem parse_isOk_of_readable (readable : Readable content) : (∃ found, parse filename content = .ok found) ↔
    ∃ document locale translations, Yaml.load content = .ok document ∧
      document.value = .mapping [(locale, .mapping translations)] ∧
      ∀ inner, Within inner (.mapping translations) → TellsApart inner := by
  rcases readable with unloaded | ⟨document, loaded, readable⟩
  · rw [parse_of_malformed unloaded, unloaded]
    exact iff_of_false nofun fun ⟨_, _, _, h, _⟩ => nomatch h
  · rw [parse_of_load loaded, ofValue_isOk_of_readable readable, loaded]
    simp only [Except.ok.injEq, exists_and_left, exists_eq_left']

theorem tree_eq_of_parse {document document' : Yaml.Document} {locale locale' : Value}
    {translations : List (Value × Value)} (loaded : Yaml.load content = .ok document)
    (loaded' : Yaml.load content' = .ok document') (form : document.value = .mapping [(locale, .mapping translations)])
    (form' : document'.value = .mapping [(locale', .mapping translations)]) (h : parse filename content = .ok found)
    (h' : parse filename content' = .ok found') : found.tree = found'.tree := by
  rw [parse_of_load loaded, form, ofValue_eq_ok_iff] at h
  rw [parse_of_load loaded', form', ofValue_eq_ok_iff] at h'
  obtain ⟨-, builds⟩ := h
  obtain ⟨-, builds'⟩ := h'
  exact Tree.mapping.inj (builds.unique builds')

theorem ofText_of_textFault (first : TextFault content fault) : fault.OfText := by
  cases first with
  | malformed => trivial
  | document loaded first => exact first.ofText

theorem message_eq_of_faultMessage {other : LocaleFault} (h : faultMessage filename fault = faultMessage filename other) :
    fault.message = other.message :=
  (String.append_right_inj _).mp h

end Parse

/-- A text is a locale if the document that it holds is a mapping of one entry with a mapping as its value, within
    which no two keys have the same text; the tree is what that mapping becomes. A text is at fault for the first
    of these conditions that it does not meet, and there is no other outcome of a readable text. -/
theorem parse_decides (filename : String) (content : List Char) : Decided filename content where
  accepts _ := parse_eq_ok_iff
  rejects _ _ := parse_eq_fault_iff
  total := parse_total_iff
  readable document loaded coerces := Or.inr ⟨document, loaded, not_unreadable_of_coerces coerces⟩
  conditions := parse_isOk_of_readable
  unnamed content' document document' locale locale' translations found found' loaded loaded' form form' h h' := by
    have same : found.tree = found'.tree := tree_eq_of_parse loaded loaded' form form' h h'
    refine ⟨same, fun files files' read read' => ⟨?_, ?_⟩⟩
    · rw [Lint.file_of_ok read, Lint.file_of_ok read', same]
    · rw [Lint.printed_file read, Lint.printed_file read', same]
  told content' fault other first _ h :=
    LocaleFault.eq_of_message_eq (ofText_of_textFault first) (message_eq_of_faultMessage h)

/-- A locale named by a truth value, with a number and a text that are the same key below one of its keys. -/
def collidingKeys : List Char := "no: \x7ba: \x7b1: x, '1': y\x7d\x7d".toList

/-- The text is readable, and its only fault is the key that comes twice. -/
theorem parse_decides_collidingKeys : Readable collidingKeys ∧
    ∀ fault, TextFault collidingKeys fault ↔ fault = .duplicateKey "a.1" := by
  have decided := parse_decides "en.yml" collidingKeys
  have legible : (Yaml.load collidingKeys).toOption.all
      (fun document => decide (∀ p ∈ document.value.slots, p.Legible)) = true := by decide +kernel
  have failed : parse "en.yml" collidingKeys = .error (.fault "en.yml" (.duplicateKey "a.1")) :=
    Lint.eq_error_of_failure? (by decide +kernel)
  have first : TextFault collidingKeys (.duplicateKey "a.1") := ((decided.rejects _ _).mp failed).2
  refine ⟨?_, fun fault => ⟨fun again => ?_, ?_⟩⟩
  · cases first with
    | @document document _ loaded _ =>
      rw [loaded] at legible
      exact decided.readable document loaded ((legible_iff_coerces _).mp (of_decide_eq_true legible))
  · have same := failed.symm.trans ((decided.rejects _ fault).mpr ⟨rfl, again⟩)
    exact (LocaleError.fault.inj (Except.error.inj same)).2.symm
  · rintro rfl
    exact first

end Locale

end LocaleLint
