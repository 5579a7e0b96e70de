import LocaleLint.Proofs.Journal
import LocaleLint.Proofs.Report.Check
import LocaleLint.Report.Session

/-! # What a session leaves in a validator

Before the first check a validator holds nothing, and nothing that is called then changes it. From the first
check on it holds, for each rule, what the last check found and what the passes after it found of their own
rules, in the order of the calls. -/

namespace LocaleLint

/-! ### Hits one by one and at once -/

theorem hitKeys_append (a b : List Hit) (rule : Rule) : hitKeys (a ++ b) rule = hitKeys a rule ++ hitKeys b rule := by
  simp only [hitKeys, List.filter_append, List.map_append]

namespace Buckets

theorem add_nil (b : Buckets) : b.add [] = b := by
  simp only [add, hitKeys_nil, List.append_nil]

theorem add_append (b : Buckets) (first second : List Hit) : b.add (first ++ second) = (b.add first).add second := by
  simp only [add, hitKeys_append, List.append_assoc]

end Buckets

namespace Validator
variable {v : Validator} {b : Buckets}

/-- A validator with buckets instead of those that it has. -/
def withBuckets (v : Validator) (b : Buckets) : Validator := { v with buckets := some b }

@[simp] theorem buckets_withBuckets (v : Validator) (b : Buckets) : (v.withBuckets b).buckets = some b := rfl

def hitsOf (findings : List Finding) : List Hit := findings.flatMap (·.hits)

theorem hitsOf_pluralizationFindings (tree : Mapping) : hitsOf tree.pluralizationFindings = tree.pluralizationHits :=
  List.flatMap_map ..

theorem hitsOf_contentFindings (tree : Mapping) : hitsOf tree.contentFindings = tree.contentHits := List.flatMap_map ..

theorem record_of_buckets (h : v.buckets = some b) (hits : List Hit) : v.record hits = (v.withBuckets (b.add hits), .ok ()) := by
  induction hits generalizing v b with
  | nil => rw [record, Buckets.add_nil, withBuckets, ← h]
  | cons hit rest ih =>
    have recorded := ih (buckets_withBuckets v (b.add [hit]))
    rw [← Buckets.add_append] at recorded
    rw [record, h]
    exact recorded

theorem pass_of_buckets (h : v.buckets = some b) (findings : List Finding) :
    v.pass findings = (v.withBuckets (b.add (hitsOf findings)), ⟨.concat (findings.map (·.journal)), .ok ()⟩) := by
  induction findings generalizing v b with
  | nil =>
    rw [pass, hitsOf, List.flatMap_nil, Buckets.add_nil, withBuckets, ← h]
    rfl
  | cons finding rest ih =>
    have passed := ih (buckets_withBuckets v (b.add finding.hits))
    rw [pass, record_of_buckets h]
    simp only [passed, hitsOf, List.flatMap_cons, Buckets.add_append]
    rfl

/-- A pass over a validator without buckets leaves it as it was, and fails at the first hit. -/
theorem pass_of_none (h : v.buckets = none) (findings : List Finding) :
    (v.pass findings).1 = v ∧
      (v.pass findings).2.result = if hitsOf findings = [] then .ok () else .error .noBuckets := by
  induction findings with
  | nil => exact ⟨rfl, rfl⟩
  | cons finding rest ih =>
    rw [pass]
    cases hits : finding.hits with
    | nil =>
      have same : hitsOf (finding :: rest) = hitsOf rest := by
        rw [hitsOf, List.flatMap_cons, hits]
        rfl
      rw [same]
      exact ih
    | cons hit more =>
      have some : hitsOf (finding :: rest) ≠ [] := by
        rw [hitsOf, List.flatMap_cons, hits]
        exact List.cons_ne_nil _ _
      rw [if_neg some, record, h]
      exact ⟨rfl, rfl⟩

/-! ### Passes at once -/

theorem skipped_eq (found : List Pluralization) : skipped found = .concat (found.map (·.journal)) := by
  induction found with
  | nil => rfl
  | cons p rest ih =>
    rw [List.map_cons, Journal.concat_cons, ← ih]
    rfl

theorem journal_of_hits {p : Pluralization} (h : p.hits ≠ []) : p.journal = .empty := by
  have notExempt : ¬ Rule.isExempt p.key = true := by
    intro exempt
    rw [Pluralization.hits, if_pos exempt] at h
    exact h rfl
  rw [Pluralization.journal, if_neg notExempt]

theorem journal_pass_pluralizations (v : Validator) (found : List Pluralization) :
    (v.pass (found.map fun p => ⟨p.journal, p.hits⟩)).2.journal = skipped (v.reached found) := by
  cases h : v.buckets with
  | some b =>
    rw [pass_of_buckets h, reached, h, skipped_eq, List.map_map]
    rfl
  | none =>
    rw [reached, h]
    induction found with
    | nil => rfl
    | cons p rest ih =>
      rw [List.map_cons, pass]
      cases hits : p.hits with
      | nil =>
        rw [List.takeWhile_cons_of_pos (by rw [hits]; rfl), skipped, List.foldr_cons, ← skipped, ← ih]
        rfl
      | cons hit more =>
        -- The pass ends here after what it logs here, and that is nothing.
        have first : p.journal = .empty := journal_of_hits (by rw [hits]; exact List.cons_ne_nil _ _)
        rw [List.takeWhile_cons_of_neg (by rw [hits]; exact Bool.false_ne_true), record, h]
        exact first

theorem concat_translations (found : List Translation) :
    Journal.concat ((found.map fun t => Finding.mk .empty t.hits).map (·.journal)) = .empty := by
  induction found with
  | nil => rfl
  | cons t rest ih => exact ih

theorem journal_pass_translations (v : Validator) (found : List Translation) :
    (v.pass (found.map fun t => ⟨.empty, t.hits⟩)).2.journal = .empty := by
  induction found generalizing v with
  | nil => rfl
  | cons t rest ih =>
    rw [List.map_cons, pass]
    cases v.record t.hits with
    | mk left result =>
      cases result with
      | error e => rfl
      | ok done => exact ih left

/-- What a pass leaves and answers is what recording all its hits at once leaves and answers. -/
theorem pass_eq_addHits (v : Validator) (findings : List Finding) :
    (v.pass findings).1 = (v.addHits (hitsOf findings)).toOption.getD v ∧
      (v.pass findings).2.result = (v.addHits (hitsOf findings)).map fun _ => () := by
  cases h : v.buckets with
  | some b =>
    rw [pass_of_buckets h, addHits, h]
    exact ⟨rfl, rfl⟩
  | none =>
    obtain ⟨left, result⟩ := pass_of_none h findings
    rw [left, result, addHits, h]
    cases hits : hitsOf findings <;> exact ⟨rfl, rfl⟩

/-- A call that is answered by a run at once: a run that fails leaves the validator as it was. -/
def answered (v : Validator) (run : Run ValidatorError Validator) (answer : Validator → Answer) :
    Validator × Run ValidatorError Answer :=
  (run.result.toOption.getD v, ⟨run.journal, run.result.map answer⟩)

theorem answering_eq {passed : Validator × Run ValidatorError Unit} {run : Run ValidatorError Validator}
    (left : passed.1 = run.result.toOption.getD v) (journal : passed.2.journal = run.journal)
    (result : passed.2.result = run.result.map fun _ => ()) : answering passed .done = v.answered run fun _ => .done := by
  rw [answering, answered, left, journal, result]
  cases run.result <;> rfl

theorem call_checkPluralizations (v : Validator) (tree : Mapping) :
    v.call (.checkPluralizations tree) = v.answered (v.checkPluralizations tree) fun _ => .done := by
  have passed := pass_eq_addHits v tree.pluralizationFindings
  rw [hitsOf_pluralizationFindings] at passed
  exact answering_eq passed.1 (journal_pass_pluralizations v _) passed.2

theorem call_checkContent (v : Validator) (tree : Mapping) :
    v.call (.checkContent tree) = v.answered (v.checkContent tree) fun _ => .done := by
  have passed := pass_eq_addHits v tree.contentFindings
  rw [hitsOf_contentFindings] at passed
  exact answering_eq passed.1 (journal_pass_translations v _) passed.2

/-- A check hit by hit is the one at once, whatever the validator holds before. -/
theorem call_check (v : Validator) (tree : Mapping) :
    v.call (.check tree) = v.answered (v.check tree) fun checked => .verdict checked.hasErrors := by
  have journal : Journal.concat ((tree.pluralizationFindings ++ tree.contentFindings).map (·.journal)) =
      skipped (tree.pluralizations "") := by
    rw [List.map_append, Journal.concat_append, Mapping.contentFindings, concat_translations, Journal.append_empty,
      skipped_eq, Mapping.pluralizationFindings, List.map_map]
    rfl
  have hits : hitsOf (tree.pluralizationFindings ++ tree.contentFindings) = tree.pluralizationHits ++ tree.contentHits := by
    rw [hitsOf, List.flatMap_append, ← hitsOf, ← hitsOf, hitsOf_pluralizationFindings, hitsOf_contentFindings]
  have passed := pass_of_buckets (buckets_withBuckets v .empty) (tree.pluralizationFindings ++ tree.contentFindings)
  rw [journal, hits, Buckets.add_append] at passed
  simp only [call, show ({ v with buckets := some .empty } : Validator) = v.withBuckets .empty from rfl, passed]
  rfl

/-! ### One call -/

namespace Call

/-- Whether a call is a check. -/
def IsCheck : Call → Prop
  | check _ => True
  | _ => False

/-- Whether a call only asks what is there. -/
def IsRead : Call → Prop
  | errors | report | printErrors => True
  | _ => False

/-- The keys of a rule that a single pass adds: those where its tree violates the rule, if it is one of the rules
    of the pass. -/
def collected (rule : Rule) : Call → List String
  | checkPluralizations tree => if rule.OfMappings then tree.violating rule else []
  | checkContent tree => if rule.OfMappings then [] else tree.violating rule
  | _ => []

end Call

/-- The buckets with what a single pass adds to them. -/
def collecting (b : Buckets) (call : Call) : Buckets := ⟨fun rule => b.keys rule ++ call.collected rule⟩

theorem collecting_of_read {call : Call} (h : ∀ rule, call.collected rule = []) : collecting b call = b := by
  simp only [collecting, h, List.append_nil]

theorem call_of_buckets (h : v.buckets = some b) {call : Call} (other : ¬ call.IsCheck) :
    (v.call call).1 = v.withBuckets (collecting b call) ∧ ∃ answer, (v.call call).2.result = .ok answer := by
  have same : v = v.withBuckets b := by rw [withBuckets, ← h]
  cases call with
  | check tree => exact absurd trivial other
  | checkPluralizations tree =>
    rw [call_checkPluralizations, checkPluralizations, addHits, h]
    refine ⟨congrArg v.withBuckets (congrArg Buckets.mk (funext fun rule => ?_)), .done, rfl⟩
    rw [tree.hitKeys_pluralizationHits]
    rfl
  | checkContent tree =>
    rw [call_checkContent, checkContent, addHits, h]
    refine ⟨congrArg v.withBuckets (congrArg Buckets.mk (funext fun rule => ?_)), .done, rfl⟩
    rw [tree.hitKeys_contentHits]
    rfl
  | errors | report | printErrors =>
    rw [collecting_of_read fun _ => rfl]
    exact ⟨same, _, rfl⟩

theorem call_of_none (h : v.buckets = none) {call : Call} (other : ¬ call.IsCheck) : (v.call call).1 = v := by
  cases call with
  | check tree => exact absurd trivial other
  | checkPluralizations tree => exact (pass_of_none h _).1
  | checkContent tree => exact (pass_of_none h _).1
  | errors | report | printErrors => rfl

/-! ### Calls one after another -/

theorem after_append (v : Validator) (first second : List Call) :
    v.after (first ++ second) = (v.after first).after second := List.foldl_append

theorem after_of_none (h : v.buckets = none) {calls : List Call} (others : ∀ call ∈ calls, ¬ call.IsCheck) :
    v.after calls = v := by
  induction calls with
  | nil => rfl
  | cons call rest ih =>
    obtain ⟨other, others⟩ := List.forall_mem_cons.mp others
    rw [after, List.foldl_cons, call_of_none h other]
    exact ih others

/-- Calls without a check add what their passes find, one after another. -/
theorem after_of_buckets (h : v.buckets = some b) {calls : List Call} (others : ∀ call ∈ calls, ¬ call.IsCheck) :
    v.after calls = v.withBuckets ⟨fun rule => b.keys rule ++ calls.flatMap (·.collected rule)⟩ := by
  induction calls generalizing v b with
  | nil =>
    simp only [List.flatMap_nil, List.append_nil]
    rw [withBuckets, ← h]
    rfl
  | cons call rest ih =>
    obtain ⟨other, others⟩ := List.forall_mem_cons.mp others
    have collected := ih (buckets_withBuckets v (collecting b call)) others
    simp only [collecting, List.append_assoc] at collected
    rw [after, List.foldl_cons, (call_of_buckets h other).1]
    exact collected

/-- A check starts from nothing, whatever was called before. -/
theorem call_check_eq (v : Validator) (tree : Mapping) : v.call (.check tree) =
    (v.withBuckets (.ofTree tree),
      ⟨skipped (tree.pluralizations ""), .ok (.verdict (decide tree.HasViolation))⟩) := by
  have verdict : (v.withBuckets (.ofTree tree)).hasErrors = decide tree.HasViolation :=
    Bool.eq_iff_iff.mpr ((Buckets.hasErrors_ofTree tree).trans decide_eq_true_iff.symm)
  rw [call_check, check_eq, ← verdict]
  rfl

theorem filename_call (v : Validator) (call : Call) : (v.call call).1.filename = v.filename := by
  by_cases check : call.IsCheck
  · cases call with
    | check tree => rw [call_check_eq]; rfl
    | _ => exact check.elim
  · cases h : v.buckets with
    | none => rw [call_of_none h check]
    | some b => rw [(call_of_buckets h check).1]; rfl

theorem filename_after (v : Validator) (calls : List Call) : (v.after calls).filename = v.filename := by
  induction calls generalizing v with
  | nil => rfl
  | cons call rest ih =>
    rw [after, List.foldl_cons]
    exact (ih _).trans (filename_call v call)

/-- After a check and calls that are none, a validator holds what the check found and what the passes added. -/
theorem after_check (v : Validator) (before : List Call) (tree : Mapping) {later : List Call}
    (others : ∀ call ∈ later, ¬ call.IsCheck) : v.after (before ++ .check tree :: later) =
      v.withBuckets ⟨fun rule => tree.violating rule ++ later.flatMap (·.collected rule)⟩ := by
  rw [after_append]
  show ((v.after before).call (.check tree)).1.after later = _
  rw [call_check_eq, after_of_buckets (buckets_withBuckets _ _) others]
  exact congrArg (Validator.mk · _) (filename_after v before)

/-! ### Failing passes -/

theorem ne_nil_iff_hitKeys {hits : List Hit} : hits ≠ [] ↔ ∃ rule, hitKeys hits rule ≠ [] := by
  constructor
  · intro h
    obtain ⟨hit, rest, rfl⟩ := List.exists_cons_of_ne_nil h
    have own : decide (hit.1 = hit.1) = true := decide_eq_true rfl
    refine ⟨hit.1, ?_⟩
    rw [hitKeys, List.filter_cons, if_pos own, List.map_cons]
    exact List.cons_ne_nil _ _
  · rintro ⟨rule, h⟩ rfl
    exact h rfl

/-- Without buckets a pass fails exactly if it finds something. -/
theorem answering_failed_iff (h : v.buckets = none) (findings : List Finding) :
    (answering (v.pass findings) .done).2.result = .error .noBuckets ↔ ∃ rule, hitKeys (hitsOf findings) rule ≠ [] := by
  rw [answering, (pass_of_none h findings).2, ← ne_nil_iff_hitKeys]
  by_cases nothing : hitsOf findings = []
  · rw [if_pos nothing]
    exact ⟨nofun, fun some => absurd nothing some⟩
  · rw [if_neg nothing]
    exact ⟨fun _ => nothing, fun _ => rfl⟩

/-! ### Sessions -/

/-- What a validator answers before the first check. -/
structure Unchecked (v : Validator) : Prop where
  errors : (v.call .errors).2.result = .ok (.errors [])
  /-- The blank line and the heading are all that is printed. -/
  printed : (v.call .printErrors).2 = ⟨.prints [Report.line [], Report.line (Report.heading v.filename)], .ok .done⟩
  pluralizations : ∀ tree, (v.call (.checkPluralizations tree)).2.result = .error .noBuckets ↔
    ∃ rule, rule.OfMappings ∧ tree.violating rule ≠ []
  content : ∀ tree, (v.call (.checkContent tree)).2.result = .error .noBuckets ↔
    ∃ rule, ¬ rule.OfMappings ∧ tree.violating rule ≠ []
  /-- Nothing changes, whether a pass fails or not. -/
  unchanged : ∀ call : Call, ¬ call.IsCheck → (v.call call).1 = v

/-- What a validator answers after calls. -/
structure Answers (filename : String) (calls : List Call) (v : Validator) : Prop where
  unchecked : (∀ call ∈ calls, ¬ call.IsCheck) → Unchecked v
  /-- From the first check on no call fails. -/
  total : (∃ call ∈ calls, call.IsCheck) → ∀ call, ∃ answer, (v.call call).2.result = .ok answer
  /-- Each rule has the keys that the last check found, and then those that its passes found since. -/
  errors : ∀ before tree later, calls = before ++ .check tree :: later → (∀ call ∈ later, ¬ call.IsCheck) →
    (v.call .errors).2.result =
      .ok (.errors (Rule.all.map fun rule => (rule, tree.violating rule ++ later.flatMap (·.collected rule))))
  unchanged : ∀ call : Call, call.IsRead → (v.call call).1 = v
  /-- A check finds what it finds in a new validator. -/
  check : ∀ tree, v.call (.check tree) = (ofFilename filename).call (.check tree)
  verdict : ∀ tree, (v.call (.check tree)).2.result = .ok (.verdict (decide tree.HasViolation))

theorem unchecked_of_none (h : v.buckets = none) : Unchecked v where
  errors := by
    rw [call, Validator.errors, h]
    rfl
  printed := by
    rw [call, printErrors, Validator.report, Validator.errors, h]
    rfl
  pluralizations tree := by
    have failed := answering_failed_iff h tree.pluralizationFindings
    simp only [hitsOf_pluralizationFindings, tree.hitKeys_pluralizationHits] at failed
    rw [call, failed]
    refine exists_congr fun rule => ?_
    by_cases own : rule.OfMappings
    · rw [if_pos own, and_iff_right own]
    · rw [if_neg own]
      exact ⟨fun some => absurd rfl some, fun some => absurd some.1 own⟩
  content tree := by
    have failed := answering_failed_iff h tree.contentFindings
    simp only [hitsOf_contentFindings, tree.hitKeys_contentHits] at failed
    rw [call, failed]
    refine exists_congr fun rule => ?_
    by_cases own : rule.OfMappings
    · rw [if_pos own]
      exact ⟨fun some => absurd rfl some, fun some => absurd own some.1⟩
    · rw [if_neg own, and_iff_right own]
  unchanged call other := call_of_none h other

theorem call_total (h : v.buckets = some b) (call : Call) : ∃ answer, (v.call call).2.result = .ok answer := by
  by_cases check : call.IsCheck
  · cases call with
    | check tree =>
      rw [call_check_eq]
      exact ⟨_, rfl⟩
    | _ => exact check.elim
  · exact (call_of_buckets h check).2

theorem exists_last_check {calls : List Call} (h : ∃ call ∈ calls, call.IsCheck) :
    ∃ before tree later, calls = before ++ .check tree :: later ∧ ∀ call ∈ later, ¬ call.IsCheck := by
  induction calls with
  | nil => exact absurd h (by simp)
  | cons call rest ih =>
    by_cases again : ∃ call ∈ rest, call.IsCheck
    · obtain ⟨before, tree, later, rfl, others⟩ := ih again
      exact ⟨call :: before, tree, later, rfl, others⟩
    · have others : ∀ call ∈ rest, ¬ call.IsCheck := fun call hcall check => again ⟨call, hcall, check⟩
      obtain ⟨found, hfound, check⟩ := h
      rcases List.mem_cons.mp hfound with rfl | hfound
      · cases found with
        | check tree => exact ⟨[], tree, rest, rfl, others⟩
        | _ => exact check.elim
      · exact absurd check (others found hfound)

/-- After any calls a validator answers as one that has kept what was found since the last check, and nothing else. -/
theorem after_answers (filename : String) (calls : List Call) :
    Answers filename calls ((ofFilename filename).after calls) where
  unchecked others := by
    rw [after_of_none rfl others]
    exact unchecked_of_none rfl
  total checks := by
    obtain ⟨before, tree, later, rfl, others⟩ := exists_last_check checks
    rw [after_check _ before tree others]
    exact call_total (buckets_withBuckets _ _)
  errors before tree later split others := by
    rw [split, after_check _ before tree others]
    rfl
  unchanged call read := by
    cases call with
    | errors | report | printErrors => rfl
    | _ => exact read.elim
  check tree := by
    rw [call_check_eq, call_check_eq, withBuckets, filename_after]
    rfl
  verdict tree := by rw [call_check_eq]

/-- A tree with a relative link at its root, which tells texts apart by number in a wrong way. -/
def linked : Mapping := [("one", .leaf "](/a"), ("few", .leaf "")]

/-- The pass over its leaves fails before a check and adds to what the check found after it. -/
theorem after_answers_linked :
    ((ofFilename "en.yml").call (.checkContent linked)).2.result = .error .noBuckets ∧
      (((ofFilename "en.yml").after [.checkContent linked, .check linked, .checkContent linked]).call .errors).2.result =
        .ok (.errors (Rule.all.map fun rule => (rule, linked.violating rule ++
          if rule.OfMappings then [] else linked.violating rule))) ∧
      linked.violating .relativeLinks = ["one"] ∧ linked.violating .pluralizationKeys = [""] := by
  have links : linked.violating .relativeLinks = ["one"] := by decide +kernel
  have keys : linked.violating .pluralizationKeys = [""] := by decide +kernel
  refine ⟨?_, ?_, links, keys⟩
  · refine (((after_answers "en.yml" []).unchecked (List.forall_mem_nil _)).content linked).mpr ⟨.relativeLinks, id, ?_⟩
    rw [links]
    exact List.cons_ne_nil _ _
  · refine (after_answers "en.yml" _).errors [.checkContent linked] linked [.checkContent linked] rfl ?_ |>.trans ?_
    · exact List.forall_mem_singleton.mpr id
    · simp only [List.flatMap_singleton, Call.collected]

end Validator

end LocaleLint
