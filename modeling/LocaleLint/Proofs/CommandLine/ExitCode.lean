import LocaleLint.Proofs.CommandLine.Configuration
import LocaleLint.Proofs.Lint.Run

/-! # The exit code of linting

Linting ends with the exit code 0 if the configuration is usable, every pattern can be searched for, and every file
found holds a locale without violations. Otherwise the exit code is 1, whatever it is that went wrong. -/

namespace LocaleLint

namespace Lint
variable {files : Files} {patterns names : List String} {name : String}

/-- Whether a file holds a locale without violations. -/
def IsClean (files : Files) (name : String) : Prop :=
  ∃ found, readLocale files name = .ok found ∧ ¬ found.tree.HasViolation

/-- Whether patterns can be searched for and all files that they find are clean. -/
def Clean (files : Files) (patterns : List String) : Prop :=
  ∃ names, (resolve files.find patterns).result = .ok names ∧ ∀ name ∈ names, IsClean files name

/-- Whether patterns find clean files only can be told pattern by pattern. -/
theorem clean_iff : Clean files patterns ↔
    ∀ pattern ∈ patterns, ∃ names, files.find pattern = .ok names ∧ ∀ name ∈ names, IsClean files name := by
  constructor
  · rintro ⟨names, resolved, clean⟩ pattern member
    obtain ⟨found, hfound⟩ := resolveAfter_isOk_iff.mp ⟨names, resolved⟩ pattern member
    refine ⟨found, hfound, fun name hname => clean name ?_⟩
    exact (mem_of_resolveAfter resolved).mpr (Or.inr ⟨pattern, member, found, hfound, hname⟩)
  · intro each
    obtain ⟨names, resolved⟩ := resolveAfter_isOk_iff.mpr fun pattern member =>
      (each pattern member).imp fun _ h => h.1
    refine ⟨names, resolved, fun name hname => ?_⟩
    rcases (mem_of_resolveAfter resolved).mp hname with none | ⟨pattern, member, found, hfound, hname⟩
    · cases none
    · obtain ⟨others, same, clean⟩ := each pattern member
      cases hfound.symm.trans same
      exact clean name hname

theorem Clean.mono {more : List String} (sub : patterns ⊆ more) (clean : Clean files more) : Clean files patterns :=
  clean_iff.mpr fun pattern member => clean_iff.mp clean pattern (sub member)

theorem clean_of_unmatched (none : ∀ pattern ∈ patterns, files.find pattern = .ok []) : Clean files patterns :=
  clean_iff.mpr fun pattern member => ⟨[], none pattern member, nofun⟩

/-- Either all files hold locales, or there is a first that holds none. -/
theorem loaded_or_firstFailing (files : Files) (names : List String) :
    (∀ name ∈ names, readLocale files name = .ok (foundIn files name)) ∨
      ∃ before name after e, names = before ++ name :: after ∧
        (∀ b ∈ before, readLocale files b = .ok (foundIn files b)) ∧ readLocale files name = .error e := by
  induction names with
  | nil => exact Or.inl nofun
  | cons first rest ih =>
    cases hread : readLocale files first with
    | error e => exact Or.inr ⟨[], first, rest, e, rfl, nofun, hread⟩
    | ok found =>
      have hfirst : readLocale files first = .ok (foundIn files first) := readLocale_foundIn (hread ▸ rfl)
      refine ih.imp (fun loaded => List.forall_mem_cons.mpr ⟨hfirst, loaded⟩) ?_
      rintro ⟨before, name, after, e, rfl, loaded, failed⟩
      exact ⟨first :: before, name, after, e, rfl, List.forall_mem_cons.mpr ⟨hfirst, loaded⟩, failed⟩

/-- A run over clean files has the exit code 0 and prints nothing. -/
theorem run_of_clean (clean : Clean files patterns) :
    (run files patterns).result = .ok 0 ∧ (run files patterns).journal.printed = [] := by
  obtain ⟨names, resolved, clean⟩ := clean
  have loaded : ∀ name ∈ names, readLocale files name = .ok (foundIn files name) := by
    intro name hname
    obtain ⟨found, hread, -⟩ := clean name hname
    exact readLocale_foundIn (hread ▸ rfl)
  have none : ¬ ∃ name ∈ names, (foundIn files name).tree.HasViolation := by
    rintro ⟨name, hname, violation⟩
    obtain ⟨found, hread, free⟩ := clean name hname
    cases hread.symm.trans (loaded name hname)
    exact free violation
  have run := completed resolved loaded
  constructor
  · rw [run.exitCode, if_neg none]
  · rw [run.printed, faultyAmong_eq_nil.mpr none, List.flatMap_nil]

/-- Any other run has the exit code 1 or fails. -/
theorem run_of_not_clean (faulty : ¬ Clean files patterns) :
    (run files patterns).result = .ok 1 ∨ ∃ e, (run files patterns).result = .error e := by
  cases resolved : (resolve files.find patterns).result with
  | error e =>
    refine Or.inr ⟨.file e, ?_⟩
    rw [run, Run.bind_of_error _ (Run.mapError_of_error _ resolved)]
  | ok names =>
    -- Files after the first that fails are not linted, so their violations do not matter.
    rcases loaded_or_firstFailing files names with loaded | ⟨before, name, after, e, rfl, loaded, failed⟩
    · have some : ∃ name ∈ names, (foundIn files name).tree.HasViolation := by
        by_contra none
        refine faulty ⟨names, resolved, fun name hname => ⟨_, loaded name hname, fun violation => ?_⟩⟩
        exact none ⟨name, hname, violation⟩
      exact Or.inl (by rw [(completed resolved loaded).exitCode, if_pos some])
    · exact Or.inr ⟨e, (aborted resolved loaded failed).result⟩

end Lint

namespace CommandLine.Outcome
variable {files : Files} {folder : String} {patterns : List String}

/-! ### The exit code of linting -/

theorem exitCode_ofLint_of_clean (settings : Logging.Settings) (clean : Lint.Clean files patterns) :
    (ofLint settings (Lint.run files patterns)).exitCode = 0 := by
  obtain ⟨result, silent⟩ := Lint.run_of_clean clean
  rw [ofLint, if_pos (Journal.isWritable_of_printed silent), ofRun, result]
  rfl

theorem exitCode_ofLint_of_not_clean (settings : Logging.Settings) (faulty : ¬ Lint.Clean files patterns) :
    (ofLint settings (Lint.run files patterns)).exitCode = 1 := by
  unfold ofLint
  -- A text that cannot be written ends the command with the same exit code.
  split
  · rcases Lint.run_of_not_clean faulty with result | ⟨e, result⟩
    · rw [ofRun, result]
      rfl
    · simp only [ofRun, result]
      split <;> rfl
  · rfl

/-- Without a usable configuration the outcome depends on what is loaded from the folder and on nothing else. -/
theorem lint_of_not_configures (faulty : ¬ Configures files folder) : ∃ failure, ∀ others : Files,
    Config.load others folder = Config.load files folder →
      ∀ patterns, lint others folder patterns = ⟨1, [], written files folder, failure⟩ := by
  cases loaded : (Config.load files folder).result with
  | error e =>
    refine ⟨unreported? e, fun others same patterns => ?_⟩
    rw [lint_of_unloaded (same ▸ loaded), written, same, ← written]
  | ok config =>
    cases usable : Logging.Settings.ofConfig config with
    | error e =>
      refine ⟨some (.settings e), fun others same patterns => ?_⟩
      rw [lint_of_unusable (same ▸ loaded) usable, written, same, ← written]
    | ok settings => exact absurd ⟨config, settings, loaded, usable⟩ faulty

/-- The exit code of linting is 0 or 1, and 0 only with a usable configuration and clean files. -/
theorem exitCode_lint (files : Files) (folder : String) (patterns : List String) :
    (Configures files folder ∧ Lint.Clean files patterns ∧ (lint files folder patterns).exitCode = 0) ∨
      (¬ (Configures files folder ∧ Lint.Clean files patterns) ∧ (lint files folder patterns).exitCode = 1) := by
  by_cases configures : Configures files folder
  · obtain ⟨config, settings, loaded, usable⟩ := id configures
    rw [lint_of_settings loaded usable, withErrors]
    by_cases clean : Lint.Clean files patterns
    · exact Or.inl ⟨configures, clean, exitCode_ofLint_of_clean settings clean⟩
    · exact Or.inr ⟨fun h => clean h.2, exitCode_ofLint_of_not_clean settings clean⟩
  · obtain ⟨failure, ends⟩ := lint_of_not_configures configures
    rw [ends files rfl]
    exact Or.inr ⟨fun h => configures h.1, rfl⟩

theorem exitCode_lint_eq_zero_iff : (lint files folder patterns).exitCode = 0 ↔
    Configures files folder ∧ Lint.Clean files patterns := by
  rcases exitCode_lint files folder patterns with ⟨configures, clean, code⟩ | ⟨faulty, code⟩
  · exact iff_of_true code ⟨configures, clean⟩
  · rw [code]
    exact iff_of_false Nat.one_ne_zero faulty

/-- What the exit code of arguments tells that ask to lint the files that patterns find. -/
structure Tells (files : Files) (folder : String) (patterns arguments : List String) : Prop where
  zero_iff : (ofArguments files arguments).exitCode = 0 ↔ Configures files folder ∧ Lint.Clean files patterns
  zero_or_one : (ofArguments files arguments).exitCode = 0 ∨ (ofArguments files arguments).exitCode = 1
  unmatched : Configures files folder → (∀ pattern ∈ patterns, files.find pattern = .ok []) →
    (ofArguments files arguments).exitCode = 0
  /-- Without a usable configuration nothing is printed, and no file but that of the configuration is looked at. -/
  unconfigured : ¬ Configures files folder → (ofArguments files arguments).printed = [] ∧
    ∀ others : Files, others.working = files.working →
      others.read (Config.place files folder) = files.read (Config.place files folder) →
      ofArguments others arguments = ofArguments files arguments
  /-- More patterns do not undo a fault. -/
  more : ∀ arguments' patterns', Request.ofArguments arguments' = .ok (.lint folder patterns') → patterns ⊆ patterns' →
    (ofArguments files arguments).exitCode = 1 → (ofArguments files arguments').exitCode = 1
  /-- The order of the patterns and their repetitions do not count. -/
  reordered : ∀ arguments' patterns', Request.ofArguments arguments' = .ok (.lint folder patterns') →
    (∀ pattern, pattern ∈ patterns' ↔ pattern ∈ patterns) →
    (ofArguments files arguments').exitCode = (ofArguments files arguments).exitCode

theorem ofArguments_of_request {arguments : List String}
    (request : Request.ofArguments arguments = .ok (.lint folder patterns)) :
    ofArguments files arguments = lint files folder patterns := by
  rw [ofArguments, request]
  rfl

theorem exitCode_mono {more : List String} (sub : patterns ⊆ more) (fault : (lint files folder patterns).exitCode = 1) :
    (lint files folder more).exitCode = 1 := by
  rcases exitCode_lint files folder more with ⟨configures, clean, -⟩ | ⟨-, code⟩
  · cases fault.symm.trans (exitCode_lint_eq_zero_iff.mpr ⟨configures, clean.mono sub⟩)
  · exact code

theorem exitCode_congr {others : List String} (same : ∀ pattern, pattern ∈ others ↔ pattern ∈ patterns) :
    (lint files folder others).exitCode = (lint files folder patterns).exitCode := by
  rcases exitCode_lint files folder patterns with ⟨configures, clean, code⟩ | ⟨-, code⟩
  · rw [code, exitCode_lint_eq_zero_iff]
    exact ⟨configures, clean.mono fun pattern => (same pattern).mp⟩
  · rw [code]
    exact exitCode_mono (fun pattern => (same pattern).mpr) code

/-- The exit code of linting tells whether the configuration is usable and all files found are clean. -/
theorem tells_ofArguments {arguments : List String}
    (request : Request.ofArguments arguments = .ok (.lint folder patterns)) : Tells files folder patterns arguments := by
  have lints (others : Files) : ofArguments others arguments = lint others folder patterns :=
    ofArguments_of_request request
  constructor
  case zero_iff =>
    rw [lints]
    exact exitCode_lint_eq_zero_iff
  case zero_or_one =>
    rw [lints]
    exact (exitCode_lint files folder patterns).imp (fun h => h.2.2) (fun h => h.2)
  case unmatched =>
    intro configures none
    rw [lints]
    exact exitCode_lint_eq_zero_iff.mpr ⟨configures, Lint.clean_of_unmatched none⟩
  case unconfigured =>
    intro faulty
    obtain ⟨failure, ends⟩ := lint_of_not_configures faulty
    rw [lints, ends files rfl]
    refine ⟨rfl, fun others working same => ?_⟩
    rw [lints, ends others (Config.load_congr working same)]
  case more =>
    intro arguments' patterns' request' sub fault
    rw [ofArguments_of_request request']
    rw [lints] at fault
    exact exitCode_mono sub fault
  case reordered =>
    intro arguments' patterns' request' same
    rw [ofArguments_of_request request', lints]
    exact exitCode_congr same

/-- A file without a violation and one that is no text, and no configuration. -/
def unconfiguredFiles : Files :=
  { Lint.threeFiles with
    read := fun path => if path ∈ ["b.yml", "c.yml"] then Lint.threeFiles.read path else .error .notFound }

/-- The file that is no text has the exit code 1, also after another and named twice. -/
theorem tells_ofArguments_faulty :
    Request.ofArguments ["lint", "c.yml"] = .ok (.lint "config" ["c.yml"]) ∧
    (ofArguments unconfiguredFiles ["lint", "c.yml"]).exitCode = 1 ∧
    Request.ofArguments ["lint", "b.yml", "--config-folder=config", "c.yml", "c.yml"] =
      .ok (.lint "config" ["b.yml", "c.yml", "c.yml"]) ∧
    (ofArguments unconfiguredFiles ["lint", "b.yml", "--config-folder=config", "c.yml", "c.yml"]).exitCode = 1 := by
  have request : Request.ofArguments ["lint", "c.yml"] = .ok (.lint "config" ["c.yml"]) := by decide +kernel
  have request' : Request.ofArguments ["lint", "b.yml", "--config-folder=config", "c.yml", "c.yml"] =
      .ok (.lint "config" ["b.yml", "c.yml", "c.yml"]) := by decide +kernel
  have fault : (ofArguments unconfiguredFiles ["lint", "c.yml"]).exitCode = 1 := by decide +kernel
  exact ⟨request, fault, request', (tells_ofArguments request).more _ _ request' (by decide) fault⟩

end CommandLine.Outcome

end LocaleLint
