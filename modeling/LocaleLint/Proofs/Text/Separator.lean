import Mathlib.Data.List.Infix
import Mathlib.Tactic.Tauto

/-! # Texts around a separator

What comes before the first separator of a text and what comes after it are looked at apart: a part without separators
lies on one side, and a part with one lies across the first separator or after it. -/

namespace LocaleLint.Text

variable {α : Type} {c : α} {a b k l r : List α}

theorem suffix_append_cons_iff (hl : c ∉ l) : l <:+ a ++ c :: r ↔ l <:+ r := by
  have ne : ∀ before, l ≠ before ++ c :: r := fun before h => hl (h ▸ List.mem_append_right _ List.mem_cons_self)
  induction a with
  | nil => exact List.suffix_cons_iff.trans (or_iff_right (ne []))
  | cons x a ih => exact List.suffix_cons_iff.trans ((or_iff_right (ne (x :: a))).trans ih)

theorem prefix_append_cons_iff (hl : c ∉ l) : l <+: a ++ c :: r ↔ l <+: a := by
  have reversed := suffix_append_cons_iff (a := r.reverse) (r := a.reverse) (mt List.mem_reverse.mp hl)
  rw [← List.reverse_suffix, ← List.reverse_suffix, ← reversed, List.reverse_append, List.reverse_cons, List.append_assoc,
    List.singleton_append]

theorem append_cons_prefix_iff (ha : c ∉ a) (hk : c ∉ k) : a ++ c :: b <+: k ++ c :: r ↔ a = k ∧ b <+: r := by
  induction a generalizing k with
  | nil =>
    cases k with
    | nil => simp
    | cons x k => simp [(List.ne_of_not_mem_cons hk)]
  | cons y a ih =>
    cases k with
    | nil => simp [(List.ne_of_not_mem_cons ha).symm]
    | cons x k =>
      rw [List.cons_append, List.cons_append, List.cons_prefix_cons,
        ih (List.not_mem_of_not_mem_cons ha) (List.not_mem_of_not_mem_cons hk), List.cons.injEq, and_assoc]

/-- Before the first separator two texts are the same if they are the same altogether. -/
theorem append_cons_inj_iff (ha : c ∉ a) (hk : c ∉ k) : a ++ c :: b = k ++ c :: r ↔ a = k ∧ b = r := by
  constructor
  · intro same
    have whole : a ++ c :: b <+: k ++ c :: r := same ▸ List.prefix_rfl
    obtain ⟨rfl, -⟩ := (append_cons_prefix_iff ha hk).mp whole
    exact ⟨rfl, (List.cons.inj (List.append_cancel_left same)).2⟩
  · rintro ⟨rfl, rfl⟩
    rfl

/-- A part with one separator lies across the first separator or after it. -/
theorem append_cons_infix_iff (ha : c ∉ a) (hk : c ∉ k) :
    a ++ c :: b <:+: k ++ c :: r ↔ (a <:+ k ∧ b <+: r) ∨ a ++ c :: b <:+: r := by
  induction k with
  | nil =>
    have start : a ++ c :: b <+: c :: r ↔ a = [] ∧ b <+: r := append_cons_prefix_iff ha hk
    rw [List.nil_append, List.infix_cons_iff, start, List.suffix_nil]
  | cons x k ih =>
    have start : a ++ c :: b <+: x :: (k ++ c :: r) ↔ a = x :: k ∧ b <+: r := append_cons_prefix_iff ha hk
    rw [List.cons_append, List.infix_cons_iff, start, ih (List.not_mem_of_not_mem_cons hk), List.suffix_cons_iff]
    tauto

theorem not_infix_append_cons (hk : c ∉ k) : ¬ a ++ c :: b <:+: k :=
  fun part => hk (part.mem (List.mem_append_right _ List.mem_cons_self))

end LocaleLint.Text
