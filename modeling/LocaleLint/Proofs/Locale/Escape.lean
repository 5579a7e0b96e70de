import LocaleLint.CommandLine.Outcome
import LocaleLint.Proofs.Lint.Run
import LocaleLint.Proofs.Tree.Slots

/-! # Failures that are no fault of a file

The bytes of a file give a tree or a fault that is reported with the file's name, except in two cases: the
document has a scalar that cannot be built, or something that is read of the document has no text before
any other fault is met. -/

namespace LocaleLint

open Value

/-- Whether reading a loaded document comes to something that has no text before it comes to another fault. -/
inductive Unreadable : Value → Prop
  /-- The first entry of the translations that is at fault has no text. -/
  | entry {locale : Value} {translations : List (Value × Value)} {before after : List Slot} {p : Slot}
      (order : (Value.mapping translations).slots = before ++ p :: after) (sound : ∀ q ∈ before, q.Sound)
      (textless : p.Textless) : Unreadable (.mapping [(locale, .mapping translations)])
  /-- No entry of the translations is at fault, but the locale has no text. -/
  | name {locale : Value} {translations : List (Value × Value)}
      (sound : ∀ p ∈ (Value.mapping translations).slots, p.Sound) (textless : locale.Textless) :
      Unreadable (.mapping [(locale, .mapping translations)])
  /-- Reading the translations never ends. -/
  | endless {locale : Value} : Unreadable (.mapping [(locale, .endless)])
  /-- There are no translations, and the locale that the fault would name has no text. -/
  | other {locale value : Value} (absent : ∀ translations, value ≠ .mapping translations)
      (textless : locale.Textless) : Unreadable (.mapping [(locale, value)])

/-- Whether a failure is a fault of the file, which is reported. -/
def LocaleError.IsFault : LocaleError → Prop
  | fault _ _ => True
  | _ => False

namespace Locale
variable {filename : String}

theorem textOf_isOk {v : Value} : (∃ name, textOf v = .ok name) ↔ v.HasText := by
  rw [textOf, HasText]
  cases v.scalarText with
  | ok s => exact ⟨fun _ => ⟨s, rfl⟩, fun _ => ⟨_, rfl⟩⟩
  | error e => exact ⟨fun ⟨_, h⟩ => (by cases h), fun ⟨_, h⟩ => (by cases h)⟩

/-- Whether a result is neither a locale nor a fault of the file. -/
def Escaping (result : Except LocaleError Locale) : Prop := ∃ e, result = .error e ∧ ¬ e.IsFault

theorem not_escaping_ok (found : Locale) : ¬ Escaping (.ok found) := by
  rintro ⟨e, h, -⟩
  cases h

theorem not_escaping_fault (fault : LocaleFault) : ¬ Escaping (.error (.fault filename fault)) := by
  rintro ⟨e, h, escapes⟩
  cases h
  exact escapes trivial

theorem escaping_load (cause : Yaml.LoadError) : Escaping (.error (.load cause)) := ⟨_, rfl, id⟩

theorem escaping_coercion (cause : CoercionError) : Escaping (.error (.coercion cause)) := ⟨_, rfl, id⟩

/-- Faults of the file are all that is left when there is no locale and nothing escapes. -/
theorem fault_iff {result : Except LocaleError Locale}
    (named : ∀ other fault, result = .error (.fault other fault) → other = filename) :
    (∃ fault, result = .error (.fault filename fault)) ↔ ¬ (∃ found, result = .ok found) ∧ ¬ Escaping result := by
  constructor
  · rintro ⟨fault, rfl⟩
    exact ⟨nofun, not_escaping_fault fault⟩
  · rintro ⟨none, contained⟩
    cases result with
    | ok found => exact absurd ⟨found, rfl⟩ none
    | error e =>
      cases e with
      | fault other fault =>
        obtain rfl := named other fault rfl
        exact ⟨fault, rfl⟩
      | load cause => exact absurd (escaping_load cause) contained
      | coercion cause => exact absurd (escaping_coercion cause) contained

/-- What is wanted with the text of a value goes wrong exactly where it has none. -/
theorem escaping_textOf {v : Value} {next : String → Except LocaleError Locale}
    (contained : ∀ name, ¬ Escaping (next name)) :
    Escaping (match textOf v with | .error e => .error e | .ok name => next name) ↔ v.Textless := by
  rw [textless_iff, ← textOf_isOk]
  cases h : textOf v with
  | ok name => exact ⟨fun h => absurd h (contained name), fun h => absurd ⟨name, rfl⟩ h⟩
  | error e =>
    rw [textOf] at h
    cases htext : v.scalarText with
    | ok s =>
      rw [htext] at h
      cases h
    | error cause =>
      rw [htext] at h
      cases h
      exact ⟨fun _ ⟨_, h⟩ => (by cases h), fun _ => escaping_coercion cause⟩

theorem unreadable_translations {locale : Value} {translations : List (Value × Value)} :
    Unreadable (.mapping [(locale, .mapping translations)]) ↔
      (∃ cause, Tree.firstFault? "" (Value.mapping translations).slots = some (.coercion cause)) ∨
        Tree.firstFault? "" (Value.mapping translations).slots = none ∧ locale.Textless := by
  rw [Tree.firstFault?_coercion, Tree.firstFault?_eq_none]
  constructor
  · intro h
    cases h with
    | entry order sound textless => exact Or.inl ⟨_, _, _, order, sound, textless⟩
    | name sound textless => exact Or.inr ⟨sound, textless⟩
    | other absent textless => exact absurd rfl (absent _)
  · rintro (⟨_, _, _, order, sound, textless⟩ | ⟨sound, textless⟩)
    · exact .entry order sound textless
    · exact .name sound textless

theorem unreadable_other {locale value : Value} (absent : ∀ translations, value ≠ .mapping translations)
    (present : value ≠ .endless) : Unreadable (.mapping [(locale, value)]) ↔ locale.Textless := by
  constructor
  · intro h
    cases h with
    | entry order sound textless => exact absurd rfl (absent _)
    | name sound textless => exact absurd rfl (absent _)
    | endless => exact absurd rfl present
    | other absent textless => exact textless
  · exact fun h => .other absent h

theorem ofValue_translations (locale : Value) (translations : List (Value × Value)) :
    Escaping (ofValue filename (.mapping [(locale, .mapping translations)])) ↔
      Unreadable (.mapping [(locale, .mapping translations)]) := by
  rw [unreadable_translations, ofValue]
  cases hbuild : Tree.build translations "" with
  | ok tree =>
    rw [Tree.build_isOk.mp ⟨tree, hbuild⟩]
    refine (escaping_textOf fun name => not_escaping_ok ⟨name, tree⟩).trans ⟨fun h => Or.inr ⟨rfl, h⟩, ?_⟩
    rintro (⟨cause, h⟩ | ⟨-, h⟩)
    · cases h
    · exact h
  | error e =>
    rw [Tree.build_eq_error.mp hbuild]
    cases e with
    | coercion cause => exact ⟨fun _ => Or.inl ⟨cause, rfl⟩, fun _ => escaping_coercion cause⟩
    | duplicateKey key =>
      refine ⟨fun h => absurd h (not_escaping_fault _), ?_⟩
      rintro (⟨cause, h⟩ | ⟨h, -⟩) <;> cases h

theorem ofValue_mapping (first second : Value × Value) (rest : List (Value × Value)) :
    ofValue filename (.mapping (first :: second :: rest)) =
      .error (.fault filename (.localeCount (rest.length + 2))) := by
  rw [ofValue]
  · rfl
  · exact nofun
  · exact nofun
  · exact nofun

/-- The document of a file leads to a failure that is no fault of the file exactly where it is unreadable. -/
theorem ofValue_escaping_iff (document : Value) : Escaping (ofValue filename document) ↔ Unreadable document := by
  match document with
  | .mapping [(locale, .mapping translations)] => exact ofValue_translations locale translations
  | .mapping [(locale, .endless)] => exact ⟨fun _ => .endless, fun _ => escaping_coercion .endless⟩
  | .mapping [(locale, .null)] | .mapping [(locale, .bool _)] | .mapping [(locale, .int _)]
  | .mapping [(locale, .float _)] | .mapping [(locale, .nan _)] | .mapping [(locale, .text _)]
  | .mapping [(locale, .bytes _)] | .mapping [(locale, .date _)] | .mapping [(locale, .moment _)]
  | .mapping [(locale, .list _)] | .mapping [(locale, .tuple _)] | .mapping [(locale, .set _)]
  | .mapping [(locale, .again _)] =>
    exact (escaping_textOf fun name => not_escaping_fault _).trans
      (unreadable_other (fun _ h => by cases h) (fun h => by cases h)).symm
  | .mapping [] => exact ⟨fun h => absurd h (not_escaping_fault _), nofun⟩
  | .mapping (first :: second :: rest) =>
    rw [ofValue_mapping]
    exact ⟨fun h => absurd h (not_escaping_fault _), nofun⟩
  | .null | .bool _ | .int _ | .float _ | .nan _ | .text _ | .bytes _ | .date _ | .moment _ | .list _ | .tuple _
  | .set _ | .again _ | .endless => exact ⟨fun h => absurd h (not_escaping_fault _), nofun⟩

theorem form_of_ofValue {v : Value} {found : Locale} (h : ofValue filename v = .ok found) :
    ∃ locale translations, v = .mapping [(locale, .mapping translations)] := by
  unfold ofValue at h
  split at h
  · exact ⟨_, _, rfl⟩
  · cases h
  · split at h <;> cases h
  · cases h
  · cases h

/-! ### Whose fault it is -/

theorem exists_of_textOf_error {v : Value} {e : LocaleError} (h : textOf v = .error e) : ∃ cause, e = .coercion cause := by
  rw [textOf] at h
  cases htext : v.scalarText with
  | ok s =>
    rw [htext] at h
    cases h
  | error cause =>
    rw [htext] at h
    exact ⟨cause, (Except.error.inj h).symm⟩

/-- A fault bears the name of the file. -/
theorem filename_of_ofValue {document : Value} {other : String} {fault : LocaleFault}
    (h : ofValue filename document = .error (.fault other fault)) : other = filename := by
  unfold ofValue at h
  split at h
  · split at h
    · cases h
      rfl
    · cases h
    · split at h
      · rename_i he
        obtain ⟨cause, rfl⟩ := exists_of_textOf_error he
        cases h
      · cases h
  · cases h
  · split at h
    · rename_i he
      obtain ⟨cause, rfl⟩ := exists_of_textOf_error he
      cases h
    · cases h
      rfl
  · cases h
    rfl
  · cases h
    rfl

end Locale

/-! ### Bytes of a file -/

/-- Whether the bytes of a file are a text whose document cannot be built although it breaks no rule of the
    format, or cannot be read. -/
def Escapes (bytes : List UInt8) : Prop :=
  ∃ text, Text.Utf8.decode bytes = .ok text ∧
    ((∃ cause, cause ≠ .malformed ∧ Yaml.load (Text.unifyNewlines text) = .error cause) ∨
      ∃ document, Yaml.load (Text.unifyNewlines text) = .ok document ∧ Unreadable document.value)

namespace Lint
open LocaleLint.Locale CommandLine
variable {files : Files} {patterns names : List String} {filename : String} {bytes : List UInt8}

theorem localeOf_escaping_iff (filename : String) : Escaping (localeOf filename bytes) ↔ Escapes bytes := by
  rw [localeOf, Escapes]
  cases hdecode : Text.Utf8.decode bytes with
  | error failure =>
    refine ⟨fun h => absurd h (not_escaping_fault _), ?_⟩
    rintro ⟨text, h, -⟩
    cases h
  | ok text =>
    simp only [Except.ok.injEq, exists_eq_left', parse]
    cases hload : Yaml.load (Text.unifyNewlines text) with
    | ok document => simp [ofValue_escaping_iff]
    | error cause =>
      cases cause with
      | malformed => simp [not_escaping_fault]
      | _ => simp [escaping_load]

theorem filename_of_localeOf {other : String} {fault : LocaleFault}
    (h : localeOf filename bytes = .error (.fault other fault)) : other = filename := by
  rw [localeOf] at h
  cases hdecode : Text.Utf8.decode bytes with
  | error failure =>
    rw [hdecode] at h
    cases h
    rfl
  | ok text =>
    simp only [hdecode, parse] at h
    cases hload : Yaml.load (Text.unifyNewlines text) with
    | ok document =>
      rw [hload] at h
      exact filename_of_ofValue h
    | error cause =>
      rw [hload] at h
      cases cause <;> cases h
      rfl

theorem exists_fault_of_error {e : LocaleError} (h : localeOf filename bytes = .error e) (contained : ¬ Escapes bytes) :
    ∃ fault, e = .fault filename fault := by
  rw [← localeOf_escaping_iff filename, h] at contained
  cases e with
  | fault other fault =>
    obtain rfl := filename_of_localeOf h
    exact ⟨fault, rfl⟩
  | load cause => exact absurd (escaping_load cause) contained
  | coercion cause => exact absurd (escaping_coercion cause) contained

theorem not_isFault_of_escapes {e : LocaleError} (h : localeOf filename bytes = .error e) (escapes : Escapes bytes) :
    ¬ e.IsFault := by
  obtain ⟨e', he, unreported⟩ := (localeOf_escaping_iff filename).mpr escapes
  cases h.symm.trans he
  exact unreported

/-! ### The file that ends a run -/

theorem ofRun_of_fault {run : Run LintError Nat} {fault : LocaleFault} (settings : Logging.Settings)
    (result : run.result = .error (.locale (.fault filename fault))) : Outcome.ofRun settings run =
      Outcome.after (run.journal ++ .entry (.fault (faultMessage filename fault))) settings 1 none := by
  rw [Outcome.ofRun]
  simp only [result]
  rfl

theorem ofRun_of_escaping {run : Run LintError Nat} {e : LocaleError} (settings : Logging.Settings)
    (result : run.result = .error (.locale e)) (escapes : ¬ e.IsFault) : Outcome.ofRun settings run =
      Outcome.after run.journal settings 1 (some (.lint (.locale e))) := by
  rw [Outcome.ofRun]
  simp only [result]
  cases e with
  | fault filename fault => exact absurd trivial escapes
  | load cause => rfl
  | coercion cause => rfl

/-- A run ends at the first file that holds no locale, whatever is wrong with it. -/
theorem result_of_failed {before after : List String} {e : LocaleError}
    (resolved : (resolve files.find patterns).result = .ok (before ++ filename :: after))
    (loaded : ∀ b ∈ before, (readLocale files b).isOk = true) (read : files.read (placeOf filename) = .ok bytes)
    (failed : localeOf filename bytes = .error e) : (run files patterns).result = .error (.locale e) := by
  have stops : readLocale files filename = .error (.locale e) := by
    rw [readLocale, ← placeOf, read]
    simp only [failed]
  rw [run_of_failed resolved (fun b hb => readLocale_foundIn (loaded b hb)) stops]

/-- The bytes of a file give a locale or a fault of the file unless they escape. A run that comes to a file without
    a locale ends with exit code 1; the fault of the file is logged last unless its bytes escape, and then nothing
    is. -/
theorem localeOf_contained_iff (filename : String) (bytes : List UInt8) :
    (((∃ found, localeOf filename bytes = .ok found) ∨
      ∃ fault, localeOf filename bytes = .error (.fault filename fault)) ↔ ¬ Escapes bytes) ∧
    ∀ files patterns before after e settings,
      (resolve files.find patterns).result = .ok (before ++ filename :: after) →
      (∀ b ∈ before, (readLocale files b).isOk = true) → files.read (placeOf filename) = .ok bytes →
      localeOf filename bytes = .error e →
        (¬ Escapes bytes → ∃ fault, e = .fault filename fault ∧ Outcome.ofRun settings (run files patterns) =
          Outcome.after ((run files patterns).journal ++ .entry (.fault (faultMessage filename fault))) settings 1
            none) ∧
        (Escapes bytes → Outcome.ofRun settings (run files patterns) =
          Outcome.after (run files patterns).journal settings 1 (some (.lint (.locale e)))) := by
  refine ⟨⟨?_, fun contained => ?_⟩, ?_⟩
  · rintro (⟨found, h⟩ | ⟨fault, h⟩) escapes
    all_goals
      obtain ⟨e, he, unreported⟩ := (localeOf_escaping_iff filename).mpr escapes
      cases h.symm.trans he
    exact unreported trivial
  · cases hlocale : localeOf filename bytes with
    | ok found => exact Or.inl ⟨found, rfl⟩
    | error e =>
      obtain ⟨fault, rfl⟩ := exists_fault_of_error hlocale contained
      exact Or.inr ⟨fault, rfl⟩
  · intro files patterns before after e settings resolved loaded read failed
    have result := result_of_failed resolved loaded read failed
    refine ⟨fun contained => ?_, fun escapes => ?_⟩
    · obtain ⟨fault, rfl⟩ := exists_fault_of_error failed contained
      exact ⟨fault, rfl, ofRun_of_fault settings result⟩
    · exact ofRun_of_escaping settings result (not_isFault_of_escapes failed escapes)

/-- Why there is no locale. -/
def failure? : Except LocaleError Locale → Option LocaleError
  | .ok _ => none
  | .error e => some e

theorem eq_error_of_failure? {result : Except LocaleError Locale} {e : LocaleError} (h : failure? result = some e) :
    result = .error e := by
  cases result with
  | ok found => cases h
  | error cause => exact congrArg Except.error (Option.some.inj h)

/-- A file that gives a key a day that does not exist. -/
def impossibleDay : List UInt8 := "en: \x7ba: 2001-02-30\x7d".toList.map fun c => UInt8.ofNat c.toNat

theorem localeOf_impossibleDay :
    localeOf "en.yml" impossibleDay = .error (.load .impossibleTimestamp) ∧ Escapes impossibleDay := by
  have failed : localeOf "en.yml" impossibleDay = .error (.load .impossibleTimestamp) :=
    eq_error_of_failure? (by decide +kernel)
  exact ⟨failed, (localeOf_escaping_iff "en.yml").mp (failed ▸ escaping_load _)⟩

end Lint

end LocaleLint
