import LocaleLint.Proofs.Lint.Run
import LocaleLint.Proofs.Locale.FirstFault
import LocaleLint.Proofs.Text.Utf8

/-! # Files with other line ends

A text without carriage returns can be written to a file with each of its line ends as a line feed or as a pair of a
carriage return and a line feed, or with all of them as carriage returns. All these files are linted alike, and give the
tree or the failure of the text itself. A file that holds the bytes of no text is at fault before its text is parsed. -/

namespace LocaleLint

namespace Text

/-- Whether a text is another one with some of its line feeds written as pairs. -/
inductive PairsAdded : List Char → List Char → Prop
  | nil : PairsAdded [] []
  | keep {c : Char} {s t : List Char} (rest : PairsAdded s t) : PairsAdded (c :: s) (c :: t)
  | pair {s t : List Char} (rest : PairsAdded s t) : PairsAdded ('\n' :: s) ('\r' :: '\n' :: t)

/-- A text with carriage returns in the place of its line feeds. -/
def withReturns (s : List Char) : List Char := s.map fun c => if c = '\n' then '\r' else c

/-- Whether a text is another one with its line ends as they may be written. -/
def WrittenAs (s t : List Char) : Prop := PairsAdded s t ∨ t = withReturns s

theorem PairsAdded.refl (s : List Char) : PairsAdded s s := by
  induction s with
  | nil => exact .nil
  | cons c rest ih => exact .keep ih

theorem unifyNewlines_cons {c : Char} (h : c ≠ '\r') (s : List Char) : unifyNewlines (c :: s) = c :: unifyNewlines s := by
  rw [unifyNewlines]
  · exact fun _ hc _ => h hc
  · exact h

/-- A carriage return that no line feed follows is a line end of its own. -/
theorem unifyNewlines_return {s : List Char} (h : '\n' ∉ s) : unifyNewlines ('\r' :: s) = '\n' :: unifyNewlines s := by
  cases s with
  | nil => rfl
  | cons c rest =>
    rw [unifyNewlines]
    rintro _ ⟨rfl, rfl⟩
    exact h List.mem_cons_self

theorem unifyNewlines_of_pairsAdded {s t : List Char} (unreturned : '\r' ∉ s) (added : PairsAdded s t) :
    unifyNewlines t = s := by
  induction added with
  | nil => rfl
  | keep rest ih =>
    obtain ⟨first, others⟩ := not_or.mp (mt List.mem_cons.mpr unreturned)
    rw [unifyNewlines_cons (Ne.symm first), ih others]
  | pair rest ih =>
    rw [unifyNewlines, ih fun h => unreturned (List.mem_cons_of_mem _ h)]

theorem unifyNewlines_withReturns {s : List Char} (unreturned : '\r' ∉ s) : unifyNewlines (withReturns s) = s := by
  induction s with
  | nil => rfl
  | cons c rest ih =>
    obtain ⟨first, others⟩ := not_or.mp (mt List.mem_cons.mpr unreturned)
    rw [withReturns, List.map_cons, ← withReturns]
    split
    · rename_i feed
      rw [unifyNewlines_return, ih others, feed]
      intro h
      obtain ⟨d, -, hd⟩ := List.mem_map.mp h
      split at hd
      · exact absurd hd (by decide)
      · rename_i other
        exact other hd
    · rw [unifyNewlines_cons (Ne.symm first), ih others]

theorem unifyNewlines_of_writtenAs {s t : List Char} (unreturned : '\r' ∉ s) (written : WrittenAs s t) :
    unifyNewlines t = s := by
  rcases written with added | rfl
  · exact unifyNewlines_of_pairsAdded unreturned added
  · exact unifyNewlines_withReturns unreturned

end Text

namespace Lint
open Text Text.Utf8
variable {files : Files} {filename : String} {bytes : List UInt8}

theorem readLocale_of_read (read : files.read (placeOf filename) = .ok bytes) :
    readLocale files filename = (localeOf filename bytes).mapError .locale := by
  rw [readLocale, ← placeOf, read]
  cases h : localeOf filename bytes with
  | ok found => simp only [h]; rfl
  | error e => simp only [h]; rfl

theorem localeOf_of_writtenAs {s t : List Char} (unreturned : '\r' ∉ s) (written : WrittenAs s t) :
    localeOf filename (encode t) = Locale.parse filename s := by
  rw [localeOf, decode_eq_ok_iff.mpr rfl]
  simp only [unifyNewlines_of_writtenAs unreturned written]

theorem loadTree_of_readLocale {found : Except LintError Locale} (h : readLocale files filename = found) :
    (loadTree files filename).result = found.map Locale.tree := by
  rw [loadTree, h]
  cases found <;> rfl

theorem file_congr {other : Files} (h : readLocale files filename = readLocale other filename) :
    file files filename = file other filename := by
  rw [file, file, loadTree, loadTree, h]

/-- Bytes of no text are a fault of the file that no text has. -/
theorem undecodable_of_ne_encode (filename : String) (unencoded : ∀ s, bytes ≠ encode s) : ∃ failure,
    localeOf filename bytes = .error (.fault filename (.undecodable failure)) ∧
      ∀ content, Locale.parse filename content ≠ .error (.fault filename (.undecodable failure)) := by
  cases hdecode : decode bytes with
  | ok s => exact absurd (decode_eq_ok_iff.mp hdecode) (unencoded s)
  | error failure =>
    refine ⟨failure, by rw [localeOf, hdecode], fun content parsed => ?_⟩
    exact Locale.ofText_of_textFault (Locale.parse_eq_fault_iff.mp parsed).2

/-- A file that holds a text without carriage returns, with its line ends as they may be written, loads as the text is
    parsed, and linting it leaves the same as linting any other such file. A file of bytes that are no text fails for a
    reason that no text fails for, and nothing is logged but the start. -/
theorem loadTree_of_writtenAs (filename : String) :
    (∀ s t files, '\r' ∉ s → WrittenAs s t → files.read (placeOf filename) = .ok (encode t) →
      (loadTree files filename).result = ((Locale.parse filename s).mapError .locale).map Locale.tree ∧
      ∀ t' files', WrittenAs s t' → files'.read (placeOf filename) = .ok (encode t') →
        file files filename = file files' filename) ∧
    ∀ bytes, (∀ s, bytes ≠ encode s) → ∃ failure,
      (∀ content, Locale.parse filename content ≠ .error (.fault filename (.undecodable failure))) ∧
      ∀ files : Files, files.read (placeOf filename) = .ok bytes → loadTree files filename =
        ⟨.entry (.parsing filename), .error (.locale (.fault filename (.undecodable failure)))⟩ := by
  have reads : ∀ s t files, '\r' ∉ s → WrittenAs s t → files.read (placeOf filename) = .ok (encode t) →
      readLocale files filename = (Locale.parse filename s).mapError .locale := fun s t files unreturned written read => by
    rw [readLocale_of_read read, localeOf_of_writtenAs unreturned written]
  refine ⟨fun s t files unreturned written read => ⟨?_, fun t' files' written' read' => ?_⟩, fun bytes unencoded => ?_⟩
  · exact loadTree_of_readLocale (reads s t files unreturned written read)
  · exact file_congr ((reads s t files unreturned written read).trans (reads s t' files' unreturned written' read').symm)
  · obtain ⟨failure, undecodable, untold⟩ := undecodable_of_ne_encode filename unencoded
    refine ⟨failure, untold, fun files read => ?_⟩
    rw [loadTree, readLocale_of_read read, undecodable]
    rfl

/-- A text of three lines, the second and third of which are one value. -/
def threeLines : List Char := "en:\n  a: 'x\n\n    y'".toList

/-- The text with its first line end written as a pair. -/
def pairFirst : List Char := "en:\x0d\n  a: 'x\n\n    y'".toList

/-- A file that holds some bytes under any name. -/
def holding (bytes : List UInt8) : Files where
  working := "/"
  find _ := .ok []
  read _ := .ok bytes

theorem loadTree_of_writtenAs_mixed : '\r' ∉ threeLines ∧ WrittenAs threeLines pairFirst ∧
    (loadTree (holding (encode pairFirst)) "en.yml").result =
      ((Locale.parse "en.yml" threeLines).mapError .locale).map Locale.tree ∧
    file (holding (encode pairFirst)) "en.yml" = file (holding (encode (withReturns threeLines))) "en.yml" ∧
    (∀ s, [0xff] ≠ encode s) ∧
    ∃ failure, (loadTree (holding [0xff]) "en.yml").result = .error (.locale (.fault "en.yml" (.undecodable failure))) := by
  obtain ⟨texts, others⟩ := loadTree_of_writtenAs "en.yml"
  have unreturned : '\r' ∉ threeLines := by decide +kernel
  have written : WrittenAs threeLines pairFirst := Or.inl (.keep (.keep (.keep (.pair (.refl _)))))
  have failed : decode [0xff] = .error ⟨0, 1, 0xff, .invalidStart⟩ := by
    rw [decode, decodeFrom]
    rfl
  have unencoded : ∀ s, [0xff] ≠ encode s := fun s same => by
    rw [decode_eq_ok_iff.mpr same] at failed
    cases failed
  obtain ⟨failure, -, fails⟩ := others [0xff] unencoded
  obtain ⟨loads, alike⟩ := texts threeLines pairFirst (holding (encode pairFirst)) unreturned written rfl
  exact ⟨unreturned, written, loads, alike _ (holding (encode (withReturns threeLines))) (Or.inr rfl) rfl, unencoded,
    failure, by rw [fails (holding [0xff]) rfl]⟩

end Lint

end LocaleLint
