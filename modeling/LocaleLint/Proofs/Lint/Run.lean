import Mathlib.Data.List.Nodup
import LocaleLint.Lint.Run
import LocaleLint.Proofs.Lint.File
import LocaleLint.Proofs.Lint.Resolve

/-! # What a run leaves

A run over files that all hold locales ends with the exit code that tells whether one of their trees has a
violation; what is printed and what is logged is, in order, what each file gives alone. The first file that
holds no locale ends the run, which keeps what the files before it gave. -/

namespace LocaleLint

namespace LogEntry

/-- Whether an entry tells if a file has violations. -/
def isVerdictOn (filename : String) : LogEntry → Bool
  | .faulty _ name => name == filename
  | .clean name => name == filename
  | _ => false

/-- Whether an entry is about patterns or about one file, and no summary or fault. -/
def isDetail : LogEntry → Bool
  | .failed _ _ | .fault _ => false
  | _ => true

end LogEntry

namespace Lint

/-! ### Texts of a log -/

/-- Whether a text tells if a file has violations. -/
def VerdictText (filename text : String) : Prop :=
  text = "No issues found in " ++ filename ∨ ∃ issues : Nat, text = "Found " ++ toString issues ++ " issues in " ++ filename

/-- Whether a text tells how many files have violations. -/
def SummaryText (text : String) : Prop :=
  ∃ count linted : Nat, text = toString count ++ " of " ++ toString linted ++ " locale files have errors"

section Texts
variable {entry : LogEntry}

/-- Only the verdict on a file reads like one. -/
theorem isVerdictOn_of_verdictText {filename : String} (kind : ∀ message, entry ≠ .fault message)
    (text : VerdictText filename entry.message) : entry.isVerdictOn filename = true := by
  rcases text with clean | ⟨issues, faulty⟩
  · have same : entry = .clean filename := LogEntry.eq_of_message_eq kind rfl clean
    rw [same]
    exact beq_self_eq_true filename
  · have same : entry = .faulty issues filename := LogEntry.eq_of_message_eq kind rfl faulty
    rw [same]
    exact beq_self_eq_true filename

/-- Only a summary reads like one. -/
theorem not_summaryText_of_isDetail (detail : entry.isDetail = true) : ¬ SummaryText entry.message := by
  rintro ⟨count, linted, text⟩
  have kind : ∀ message, entry ≠ .fault message := by
    rintro message rfl
    cases detail
  have same : entry = .failed count linted := LogEntry.eq_of_message_eq kind rfl text
  rw [same] at detail
  cases detail

end Texts

/-! ### Resolving -/

/-- The patterns that find nothing. -/
def unmatchedPatterns (files : Files) (patterns : List String) : List String :=
  patterns.filter fun pattern => files.find pattern matches .ok []

section Journal
variable {files : Files} {names result patterns : List String}

/-- Resolving patterns leaves a warning for each of them that finds nothing. -/
theorem acts_resolveAfter (h : (resolveAfter files.find names patterns).result = .ok result) :
    (resolveAfter files.find names patterns).journal.acts =
      (unmatchedPatterns files patterns).map fun pattern => .log (.unmatched pattern) := by
  induction patterns generalizing names with
  | nil => rfl
  | cons pattern patterns ih =>
    obtain ⟨found, hfound⟩ := find_of_resolveAfter h
    rw [resolveAfter_cons hfound] at h ⊢
    have ih := ih h
    rw [Journal.acts_append, ih]
    simp only [unmatchedPatterns, List.filter_cons, hfound]
    cases found with
    | nil => rfl
    | cons name more => rfl

end Journal

/-! ### Runs -/

/-- The files among some whose trees have violations. -/
def faultyAmong (found : String → Locale) (names : List String) : List String :=
  names.filter fun name => (found name).tree.HasViolation

/-- What is logged before the first file. -/
def openingLog (files : Files) (patterns names : List String) : List LogEntry :=
  (unmatchedPatterns files patterns).map .unmatched ++ [.starting names.length]

/-- The lines before those about the first file. -/
def openingLines (files : Files) (patterns names : List String) : List (Level × String) :=
  ((unmatchedPatterns files patterns).map fun pattern => (.warning, "No files match " ++ pattern)) ++
    [(.info, "Linting " ++ toString names.length ++ " locale files...")]

/-- The line that tells how many of the files that were linted have violations. -/
def summaryLine (count linted : Nat) : Level × String :=
  (.error, toString count ++ " of " ++ toString linted ++ " locale files have errors")

/-- The path at which the bytes of a file are read. -/
def placeOf (filename : String) : String := String.ofList (Path.tidy filename.toList)

/-- What a run leaves whose patterns find the files `names`, which hold the locales `found`. -/
structure Completed (files : Files) (patterns names : List String) (found : String → Locale)
    (run : Run LintError Nat) : Prop where
  exitCode : run.result = .ok (if ∃ name ∈ names, (found name).tree.HasViolation then 1 else 0)
  /-- A block is printed for each file that has violations, and nothing else. -/
  printed : run.journal.printed = (faultyAmong found names).flatMap fun name =>
    Report.block name (Buckets.ofTree (found name).tree).violations
  log : run.journal.log = openingLog files patterns names ++ names.flatMap (fun name => fileLog name (found name)) ++
    if faultyAmong found names = [] then [] else [.failed (faultyAmong found names).length names.length]
  /-- The log as it is read. -/
  lines : run.journal.log.map LogEntry.shown =
    openingLines files patterns names ++ names.flatMap (fun name => fileLines name (found name)) ++
      if faultyAmong found names = [] then [] else [summaryLine (faultyAmong found names).length names.length]
  /-- One line tells whether a file has violations, and how many; no other line reads like that. -/
  verdicts : ∀ name ∈ names, ∃ before after,
    run.journal.log.map LogEntry.shown = before ++ verdictLine name (found name).tree :: after ∧
      ∀ line ∈ before ++ after, ¬ VerdictText name line.2
  /-- How many files have violations is told last, and only if there are some. -/
  summary : if ∃ name ∈ names, (found name).tree.HasViolation then
      (run.journal.log.map LogEntry.shown).getLast? = some (summaryLine (faultyAmong found names).length names.length)
    else ∀ line ∈ run.journal.log.map LogEntry.shown, ¬ SummaryText line.2
  /-- Linting a file alone prints the same block. -/
  alone : ∀ name ∈ names, (file files name).journal.printed = blockOf name (found name).tree
  /-- What linting a file gives depends on no bytes but its own. -/
  own : ∀ name ∈ names, ∀ others : Files, others.read (placeOf name) = files.read (placeOf name) →
    file others name = file files name
  /-- The number of violations that is logged is that of the report's keys and of the printed lines of keys. -/
  counts : ∀ name ∈ names, ∃ report, (file files name).result = .ok report ∧
    report.issueCount = (found name).tree.issueCount ∧
    (file files name).journal.bulletCount = (found name).tree.issueCount

/-- What a run leaves that comes to a file `name` without a locale after files `before` with locales. -/
structure Aborted (files : Files) (patterns names before : List String) (name : String) (found : String → Locale)
    (e : LintError) (run : Run LintError Nat) : Prop where
  result : run.result = .error e
  printed : run.journal.printed = (faultyAmong found before).flatMap fun name =>
    Report.block name (Buckets.ofTree (found name).tree).violations
  log : run.journal.log = openingLog files patterns names ++ before.flatMap (fun name => fileLog name (found name)) ++
    [.parsing name]
  lines : run.journal.log.map LogEntry.shown = openingLines files patterns names ++
    before.flatMap (fun name => fileLines name (found name)) ++ [(.debug, "Parsing " ++ name)]

section Parts
variable {files : Files} {patterns names before : List String} {found : String → Locale}

/-- The blocks of files one after another are those of the files that have violations. -/
theorem flatMap_blockOf (names : List String) : names.flatMap (fun name => blockOf name (found name).tree) =
    (faultyAmong found names).flatMap fun name =>
      Report.block name (Buckets.ofTree (found name).tree).violations :=
  flatMap_ite (fun name => (found name).tree.HasViolation) _ names

theorem printed_before (loaded : ∀ name ∈ before, readLocale files name = .ok (found name)) :
    (Journal.concat (before.map fun name => (file files name).journal)).printed =
      (faultyAmong found before).flatMap fun name =>
        Report.block name (Buckets.ofTree (found name).tree).violations := by
  rw [Journal.printed_concat, List.flatMap_map, ← flatMap_blockOf, List.flatMap_def, List.flatMap_def]
  exact congrArg List.flatten (List.map_congr_left fun name hname => printed_file (loaded name hname))

theorem log_before (loaded : ∀ name ∈ before, readLocale files name = .ok (found name)) :
    (Journal.concat (before.map fun name => (file files name).journal)).log =
      before.flatMap fun name => fileLog name (found name) := by
  rw [Journal.log_concat, List.flatMap_map, List.flatMap_def, List.flatMap_def]
  exact congrArg List.flatten (List.map_congr_left fun name hname => log_file (loaded name hname))

theorem hasErrors_reportOf (name : String) (tree : Mapping) : (reportOf name tree).hasErrors = true ↔ tree.HasViolation := by
  have : (reportOf name tree).hasErrors = (Buckets.ofTree tree).hasErrors := by
    rw [FileReport.hasErrors, reportOf, Buckets.violations, Buckets.hasErrors, List.any_filter]
    simp only [Bool.and_self]
  rw [this, Buckets.hasErrors_ofTree]

theorem filter_reports (names : List String) :
    ((names.map fun name => reportOf name (found name).tree).filter (·.hasErrors)).length =
      (faultyAmong found names).length := by
  rw [List.filter_map, List.length_map, faultyAmong]
  refine congrArg List.length (List.filter_congr fun name _ => ?_)
  rw [Function.comp_apply, Bool.eq_iff_iff, hasErrors_reportOf, decide_eq_true_iff]

theorem faultyAmong_eq_nil : faultyAmong found names = [] ↔ ¬ ∃ name ∈ names, (found name).tree.HasViolation := by
  simp only [faultyAmong, List.filter_eq_nil_iff, decide_eq_true_eq, not_exists, not_and]

theorem exitCode_reports (names : List String) :
    exitCode (names.map fun name => reportOf name (found name).tree) =
      if ∃ name ∈ names, (found name).tree.HasViolation then 1 else 0 := by
  rw [exitCode, List.any_map]
  simp only [List.any_eq_true, Function.comp_apply, hasErrors_reportOf]

end Parts

/-! ### Entries about one file -/

section Entries
variable {found : String → Locale} {names before : List String} {name : String}

theorem isVerdictOn_verdict (name other : String) (tree : Mapping) :
    (verdict other tree).isVerdictOn name = (other == name) := by
  rw [verdict]
  split <;> rfl

theorem filter_exempt (keys : List Pluralization) :
    (keys.map fun p => LogEntry.exempt p.key).filter (·.isVerdictOn name) = [] :=
  List.filter_eq_nil_iff.mpr fun entry hentry => by
    obtain ⟨p, -, rfl⟩ := List.mem_map.mp hentry
    exact Bool.false_ne_true

theorem filter_fileLog (other : String) (found : Locale) :
    (fileLog other found).filter (·.isVerdictOn name) = if other = name then [verdict other found.tree] else [] := by
  rw [fileLog, List.filter_append, List.filter_cons_of_neg Bool.false_ne_true,
    List.filter_cons_of_neg Bool.false_ne_true, filter_exempt, List.nil_append, List.filter_cons, isVerdictOn_verdict]
  by_cases h : other = name
  · rw [if_pos (beq_iff_eq.mpr h), if_pos h]
    rfl
  · rw [if_neg (mt beq_iff_eq.mp h), if_neg h]
    rfl

/-- The files are different, so only one of them has entries that tell about the one in question. -/
theorem filter_fileLogs (distinct : names.Nodup) (member : name ∈ names) :
    (names.flatMap fun other => fileLog other (found other)).filter (·.isVerdictOn name) =
      [verdict name (found name).tree] := by
  have once : names.filter (fun other => decide (other = name)) = [name] := by
    rw [List.filter_eq, List.count_eq_one_of_mem distinct member]
    rfl
  simp only [List.filter_flatMap, filter_fileLog]
  rw [flatMap_ite, once, List.flatMap_singleton]

theorem filter_openingLog (files : Files) (patterns : List String) :
    (openingLog files patterns names).filter (·.isVerdictOn name) = [] := by
  rw [openingLog, List.filter_append, List.filter_map]
  have : (unmatchedPatterns files patterns).filter ((·.isVerdictOn name) ∘ LogEntry.unmatched) = [] :=
    List.filter_eq_nil_iff.mpr fun _ _ => Bool.false_ne_true
  rw [this]
  rfl

theorem isDetail_openingLog (files : Files) (patterns : List String) :
    ∀ entry ∈ openingLog files patterns names, entry.isDetail = true :=
  List.forall_mem_append.mpr ⟨List.forall_mem_map.mpr fun _ _ => rfl, List.forall_mem_singleton.mpr rfl⟩

theorem isDetail_fileLog (name : String) (found : Locale) : ∀ entry ∈ fileLog name found, entry.isDetail = true := by
  have last : (verdict name found.tree).isDetail = true := by
    rw [verdict]
    split <;> rfl
  refine List.forall_mem_append.mpr ⟨?_, List.forall_mem_singleton.mpr last⟩
  exact List.forall_mem_cons.mpr ⟨rfl, List.forall_mem_cons.mpr ⟨rfl, List.forall_mem_map.mpr fun _ _ => rfl⟩⟩

/-- All that is logged before the summary is about patterns or about one file. -/
theorem isDetail_before (files : Files) (patterns : List String) :
    ∀ entry ∈ openingLog files patterns names ++ names.flatMap (fun name => fileLog name (found name)),
      entry.isDetail = true :=
  List.forall_mem_append.mpr ⟨isDetail_openingLog files patterns, List.forall_mem_flatMap.mpr fun name _ =>
    isDetail_fileLog name (found name)⟩

theorem shown_openingLog (files : Files) (patterns names : List String) :
    (openingLog files patterns names).map LogEntry.shown = openingLines files patterns names := by
  rw [openingLog, List.map_append, List.map_map, List.map_singleton]
  rfl

theorem shown_before (files : Files) (patterns : List String) :
    (openingLog files patterns names ++ before.flatMap (fun name => fileLog name (found name))).map LogEntry.shown =
      openingLines files patterns names ++ before.flatMap fun name => fileLines name (found name) := by
  simp only [List.map_append, shown_openingLog, List.map_flatMap, shown_fileLog]

/-- The only entry that tells about a file gives the only line that reads like that. -/
theorem exists_line_of_filter {log : List LogEntry} {entry : LogEntry}
    (kinds : ∀ other ∈ log, ∀ message, other ≠ .fault message) (once : log.filter (·.isVerdictOn name) = [entry]) :
    ∃ before after, log.map LogEntry.shown = before ++ entry.shown :: after ∧
      ∀ line ∈ before ++ after, ¬ VerdictText name line.2 := by
  obtain ⟨earlier, later, rfl, none, -, rest⟩ := List.filter_eq_cons_iff.mp once
  have others : ∀ other ∈ earlier ++ later, ¬ other.isVerdictOn name = true :=
    List.forall_mem_append.mpr ⟨none, List.filter_eq_nil_iff.mp rest⟩
  refine ⟨earlier.map LogEntry.shown, later.map LogEntry.shown, by rw [List.map_append, List.map_cons], ?_⟩
  rw [← List.map_append]
  refine List.forall_mem_map.mpr fun other member text => others other member (isVerdictOn_of_verdictText ?_ text)
  refine kinds other ?_
  rcases List.mem_append.mp member with h | h
  · exact List.mem_append_left _ h
  · exact List.mem_append_right _ (List.mem_cons_of_mem _ h)

end Entries

/-! ### Locales in files -/

section Found

/-- The locale in a file, empty where there is none. -/
def foundIn (files : Files) (name : String) : Locale := (readLocale files name).toOption.getD ⟨"", []⟩

theorem readLocale_foundIn {files : Files} {name : String} (h : (readLocale files name).isOk = true) :
    readLocale files name = .ok (foundIn files name) := by
  cases hread : readLocale files name with
  | ok found => rw [foundIn, hread, Except.toOption, Option.getD_some]
  | error e =>
    rw [hread] at h
    cases h

end Found

/-! ### Whole runs -/

section Whole
variable {files : Files} {patterns names before : List String} {found : String → Locale}

theorem journal_resolve (resolved : (resolve files.find patterns).result = .ok names) :
    (resolve files.find patterns).journal =
      ⟨(unmatchedPatterns files patterns).map fun pattern => .log (.unmatched pattern)⟩ :=
  congrArg Journal.mk (acts_resolveAfter resolved)

/-- What comes before the first file prints nothing. -/
theorem opening (resolved : (resolve files.find patterns).result = .ok names) :
    ((resolve files.find patterns).journal ++ .entry (.starting names.length)).printed = [] ∧
      ((resolve files.find patterns).journal ++ .entry (.starting names.length)).log =
        openingLog files patterns names := by
  rw [journal_resolve resolved, Journal.printed_append, Journal.log_append]
  constructor
  · rw [Journal.printed, List.flatMap_map]
    exact List.append_eq_nil_iff.mpr ⟨List.flatMap_eq_nil_iff.mpr fun _ _ => rfl, rfl⟩
  · rw [Journal.log, List.flatMap_map, openingLog, List.map_eq_flatMap]
    rfl

theorem run_of_loaded (resolved : (resolve files.find patterns).result = .ok names)
    (loaded : ∀ name ∈ names, readLocale files name = .ok (found name)) : run files patterns =
      ⟨(resolve files.find patterns).journal ++ .entry (.starting names.length) ++
          .concat (names.map fun name => (file files name).journal) ++
          summary (names.map fun name => reportOf name (found name).tree),
        .ok (if ∃ name ∈ names, (found name).tree.HasViolation then 1 else 0)⟩ := by
  have reports : ∀ name ∈ names, (file files name).result = .ok (reportOf name (found name).tree) := by
    intro name hname
    rw [file_of_ok (loaded name hname)]
  rw [run, Run.bind_of_ok _ (Run.mapError_of_ok _ resolved), Run.bind_of_ok _ rfl, Run.forEach_of_ok reports, Run.bind_of_ok _ rfl,
    Run.bind_of_ok _ rfl, ← exitCode_reports]
  show Run.mk (_ ++ (_ ++ (_ ++ (_ ++ Journal.empty)))) _ = _
  rw [Journal.append_empty, Journal.append_assoc, Journal.append_assoc]
  rfl

theorem run_of_failed {name : String} {after : List String} {e : LintError}
    (resolved : (resolve files.find patterns).result = .ok (before ++ name :: after))
    (loaded : ∀ b ∈ before, readLocale files b = .ok (found b)) (failed : readLocale files name = .error e) :
    run files patterns =
      ⟨(resolve files.find patterns).journal ++ .entry (.starting (before ++ name :: after).length) ++
          .concat (before.map fun b => (file files b).journal) ++ .entry (.parsing name), .error e⟩ := by
  have reports : ∀ b ∈ before, (file files b).result = .ok (reportOf b (found b).tree) := by
    intro b hb
    rw [file_of_ok (loaded b hb)]
  have stops : (file files name).result = .error e := by rw [file_of_error failed]
  rw [run, Run.bind_of_ok _ (Run.mapError_of_ok _ resolved), Run.bind_of_ok _ rfl, Run.forEach_of_error reports stops,
    Run.bind_of_error _ rfl, file_of_error failed]
  show Run.mk (_ ++ (_ ++ (_ ++ _))) _ = _
  rw [Journal.append_assoc, Journal.append_assoc]
  rfl

theorem summary_reports (names : List String) :
    summary (names.map fun name => reportOf name (found name).tree) =
      if faultyAmong found names = [] then .empty
      else .entry (.failed (faultyAmong found names).length names.length) := by
  rw [summary, filter_reports, List.length_map]
  simp only [List.length_eq_zero_iff]

section Loaded
variable (resolved : (resolve files.find patterns).result = .ok names)
  (loaded : ∀ name ∈ names, readLocale files name = .ok (found name))
include resolved loaded

theorem log_run : (run files patterns).journal.log =
    openingLog files patterns names ++ names.flatMap (fun name => fileLog name (found name)) ++
      if faultyAmong found names = [] then [] else [.failed (faultyAmong found names).length names.length] := by
  rw [run_of_loaded resolved loaded, Journal.log_append, Journal.log_append, (opening resolved).2, log_before loaded,
    summary_reports]
  split <;> rfl

theorem lines_run : (run files patterns).journal.log.map LogEntry.shown =
    openingLines files patterns names ++ names.flatMap (fun name => fileLines name (found name)) ++
      if faultyAmong found names = [] then [] else [summaryLine (faultyAmong found names).length names.length] := by
  rw [log_run resolved loaded, List.map_append, shown_before]
  split <;> rfl

theorem exists_verdict_run {name : String} (member : name ∈ names) : ∃ before after,
    (run files patterns).journal.log.map LogEntry.shown = before ++ verdictLine name (found name).tree :: after ∧
      ∀ line ∈ before ++ after, ¬ VerdictText name line.2 := by
  have log := log_run resolved loaded
  have kinds : ∀ entry ∈ (run files patterns).journal.log, ∀ message, entry ≠ .fault message := by
    rintro entry member message rfl
    rw [log] at member
    rcases List.mem_append.mp member with detail | summary
    · cases isDetail_before files patterns _ detail
    · split at summary
      · cases summary
      · cases List.mem_singleton.mp summary
  -- No file is linted twice, so its verdict is not logged twice.
  have distinct : names.Nodup := nodup_of_resolveAfter List.nodup_nil resolved
  have once : (run files patterns).journal.log.filter (·.isVerdictOn name) = [verdict name (found name).tree] := by
    rw [log, List.filter_append, List.filter_append, filter_openingLog, List.nil_append, filter_fileLogs distinct member]
    split <;> rfl
  rw [← shown_verdict]
  exact exists_line_of_filter kinds once

theorem summary_run : if ∃ name ∈ names, (found name).tree.HasViolation then
      ((run files patterns).journal.log.map LogEntry.shown).getLast? =
        some (summaryLine (faultyAmong found names).length names.length)
    else ∀ line ∈ (run files patterns).journal.log.map LogEntry.shown, ¬ SummaryText line.2 := by
  split
  · rename_i faulty
    rw [lines_run resolved loaded, if_neg (mt faultyAmong_eq_nil.mp (not_not_intro faulty)),
      List.getLast?_append_of_ne_nil _ (List.cons_ne_nil _ _)]
    rfl
  · rename_i clean
    rw [log_run resolved loaded, if_pos (faultyAmong_eq_nil.mpr clean), List.append_nil]
    exact List.forall_mem_map.mpr fun entry member => not_summaryText_of_isDetail (isDetail_before files patterns _ member)

theorem completed : Completed files patterns names found (run files patterns) := by
  refine ⟨?_, ?_, log_run resolved loaded, lines_run resolved loaded, fun _ => exists_verdict_run resolved loaded,
    summary_run resolved loaded, fun name member => printed_file (loaded name member), ?_, ?_⟩
  · rw [run_of_loaded resolved loaded]
  · rw [run_of_loaded resolved loaded, Journal.printed_append, Journal.printed_append, (opening resolved).1,
      List.nil_append, printed_before loaded, summary_reports]
    split <;> exact List.append_nil _
  · intro name _ others same
    rw [file, file, loadTree, loadTree, readLocale, readLocale, ← placeOf, same]
  · intro name member
    refine ⟨reportOf name (found name).tree, ?_, Buckets.length_violations _, bulletCount_file (loaded name member)⟩
    rw [file_of_ok (loaded name member)]

end Loaded

theorem aborted {name : String} {after : List String} {e : LintError}
    (resolved : (resolve files.find patterns).result = .ok (before ++ name :: after))
    (loaded : ∀ b ∈ before, readLocale files b = .ok (found b)) (failed : readLocale files name = .error e) :
    Aborted files patterns (before ++ name :: after) before name found e (run files patterns) := by
  have log : (run files patterns).journal.log = openingLog files patterns (before ++ name :: after) ++
      before.flatMap (fun name => fileLog name (found name)) ++ [.parsing name] := by
    rw [run_of_failed resolved loaded failed, Journal.log_append, Journal.log_append, (opening resolved).2,
      log_before loaded]
    rfl
  refine ⟨?_, ?_, log, ?_⟩
  · rw [run_of_failed resolved loaded failed]
  · rw [run_of_failed resolved loaded failed, Journal.printed_append, Journal.printed_append, (opening resolved).1,
      List.nil_append, printed_before loaded]
    exact List.append_nil _
  · rw [log, List.map_append, shown_before]
    rfl

end Whole

/-- A run over the files that patterns find either comes to the end of them, if all hold locales, or ends at
    the first that holds none. -/
theorem run_leaves {files : Files} {patterns names : List String}
    (resolved : (resolve files.find patterns).result = .ok names) (found : String → Locale) :
    ((∀ name ∈ names, readLocale files name = .ok (found name)) →
      Completed files patterns names found (run files patterns)) ∧
    ∀ before name after e, names = before ++ name :: after →
      (∀ b ∈ before, readLocale files b = .ok (found b)) → readLocale files name = .error e →
      Aborted files patterns names before name found e (run files patterns) := by
  refine ⟨completed resolved, ?_⟩
  rintro before name after e rfl loaded failed
  exact aborted resolved loaded failed

/-- A file with a violation, one without and one that is no text, each found by its own name. -/
def threeFiles : Files where
  working := "/"
  find pattern := .ok (if pattern ∈ ["a.yml", "b.yml", "c.yml"] then [pattern] else [])
  read path :=
    if path = "a.yml" then .ok ("en: \x7bone: '1'\x7d".toList.map fun c => UInt8.ofNat c.toNat)
    else if path = "b.yml" then .ok ("en: \x7ba: b\x7d".toList.map fun c => UInt8.ofNat c.toNat)
    else .ok [0xff]

example : (file threeFiles "a.yml").journal.log.map LogEntry.shown = [(.debug, "Parsing a.yml"),
    (.debug, "Loaded locale en from a.yml"), (.error, "Found 2 issues in a.yml")] := by decide +kernel

theorem run_leaves_threeFiles :
    Completed threeFiles ["a.yml", "x", "b.yml"] ["a.yml", "b.yml"] (foundIn threeFiles)
      (run threeFiles ["a.yml", "x", "b.yml"]) ∧
    Aborted threeFiles ["a.yml", "c.yml", "b.yml"] ["a.yml", "c.yml", "b.yml"] ["a.yml"] "c.yml" (foundIn threeFiles)
      (.locale (.fault "c.yml" (.undecodable ⟨0, 1, 0xff, .invalidStart⟩)))
      (run threeFiles ["a.yml", "c.yml", "b.yml"]) := by
  have first : readLocale threeFiles "a.yml" = .ok (foundIn threeFiles "a.yml") := readLocale_foundIn (by decide +kernel)
  have second : readLocale threeFiles "b.yml" = .ok (foundIn threeFiles "b.yml") := readLocale_foundIn (by decide +kernel)
  have found : (resolve threeFiles.find ["a.yml", "x", "b.yml"]).result = .ok ["a.yml", "b.yml"] := by cbv
  have foundBad : (resolve threeFiles.find ["a.yml", "c.yml", "b.yml"]).result = .ok ["a.yml", "c.yml", "b.yml"] := by cbv
  constructor
  · refine (run_leaves found (foundIn threeFiles)).1 fun name hname => ?_
    rcases List.mem_cons.mp hname with rfl | hname
    · exact first
    · rw [List.mem_singleton.mp hname]
      exact second
  · refine (run_leaves foundBad (foundIn threeFiles)).2 ["a.yml"] "c.yml" ["b.yml"] _ rfl (fun name hname => ?_) (by cbv)
    rw [List.mem_singleton.mp hname]
    exact first

end Lint

end LocaleLint
