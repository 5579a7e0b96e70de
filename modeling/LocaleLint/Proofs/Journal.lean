import LocaleLint.Journal

/-! # Runs one after another

What a sequence of runs leaves: the journals of those up to the first that fails, in order. -/

namespace LocaleLint

namespace Journal

/-- Journals one after another. -/
def concat (journals : List Journal) : Journal := ⟨journals.flatMap (·.acts)⟩

@[simp] theorem concat_cons (a : Journal) (rest : List Journal) : concat (a :: rest) = a ++ concat rest := rfl

theorem concat_append (a b : List Journal) : concat (a ++ b) = concat a ++ concat b := congrArg mk List.flatMap_append

@[simp] theorem printed_concat (journals : List Journal) : (concat journals).printed = journals.flatMap (·.printed) := by
  induction journals with
  | nil => rfl
  | cons a rest ih => rw [concat_cons, printed_append, ih, List.flatMap_cons]

@[simp] theorem log_concat (journals : List Journal) : (concat journals).log = journals.flatMap (·.log) := by
  induction journals with
  | nil => rfl
  | cons a rest ih => rw [concat_cons, log_append, ih, List.flatMap_cons]

/-- Where nothing is printed, nothing is printed that cannot be written. -/
theorem isWritable_of_printed {journal : Journal} (silent : journal.printed = []) : journal.isWritable = true := by
  refine List.all_eq_true.mpr fun act member => ?_
  rw [Act.isWritable, List.flatMap_eq_nil_iff.mp silent act member]
  rfl

end Journal

namespace Run
variable {ε δ α β : Type} {a : α} {e : ε}

theorem bind_of_ok {run : Run ε α} (next : α → Run ε β) (h : run.result = .ok a) :
    run >>= next = ⟨run.journal ++ (next a).journal, (next a).result⟩ := by
  show bind run next = _
  simp only [bind, h]

theorem bind_of_error {run : Run ε α} (next : α → Run ε β) (h : run.result = .error e) :
    run >>= next = ⟨run.journal, .error e⟩ := by
  show bind run next = _
  simp only [bind, h]

/-- A run after another prints only if the other has a result. -/
theorem printed_bind (run : Run ε α) (next : α → Run ε β) : (run >>= next).journal.printed =
    run.journal.printed ++ match run.result with
      | .ok a => (next a).journal.printed
      | .error _ => [] := by
  cases h : run.result with
  | ok a => rw [bind_of_ok next h, Journal.printed_append]
  | error e => rw [bind_of_error next h, List.append_nil]

theorem mapError_of_ok (f : ε → δ) {run : Run ε α} (h : run.result = .ok a) : (run.mapError f).result = .ok a := by
  rw [mapError, h]
  rfl

theorem mapError_of_error (f : ε → δ) {run : Run ε α} (h : run.result = .error e) :
    (run.mapError f).result = .error (f e) := by
  rw [mapError, h]
  rfl

variable {f : α → Run ε β} {g : α → β}

theorem forEach_of_ok {l : List α} (h : ∀ a ∈ l, (f a).result = .ok (g a)) :
    forEach f l = ⟨.concat (l.map fun a => (f a).journal), .ok (l.map g)⟩ := by
  induction l with
  | nil => rfl
  | cons a rest ih =>
    have ih := ih fun b hb => h b (List.mem_cons_of_mem a hb)
    rw [forEach, bind_of_ok _ (h a List.mem_cons_self), ih]
    show Run.mk (_ ++ (_ ++ Journal.empty)) _ = _
    rw [Journal.append_empty]
    rfl

theorem forEach_of_error {before : List α} (h : ∀ b ∈ before, (f b).result = .ok (g b))
    (failed : (f a).result = .error e) (after : List α) :
    forEach f (before ++ a :: after) =
      ⟨.concat (before.map fun b => (f b).journal) ++ (f a).journal, .error e⟩ := by
  induction before with
  | nil =>
    rw [List.nil_append, forEach, bind_of_error _ failed]
    rfl
  | cons b rest ih =>
    have ih := ih fun c hc => h c (List.mem_cons_of_mem b hc)
    rw [List.cons_append, forEach, bind_of_ok _ (h b List.mem_cons_self), ih, List.map_cons, Journal.concat_cons,
      Journal.append_assoc]
    rfl

end Run

end LocaleLint
