/-! # Order of texts

Texts are put in the order of their characters' code points. -/

namespace LocaleLint.Text

def sorted (texts : List String) : List String := texts.mergeSort fun a b => decide (a ≤ b)

theorem mem_sorted {texts : List String} {s : String} : s ∈ sorted texts ↔ s ∈ texts := List.mem_mergeSort

theorem pairwise_sorted (texts : List String) : (sorted texts).Pairwise (· ≤ ·) := by
  have trans : ∀ a b c : String, decide (a ≤ b) = true → decide (b ≤ c) = true → decide (a ≤ c) = true := by
    intro a b c hab hbc
    exact decide_eq_true (String.le_trans (of_decide_eq_true hab) (of_decide_eq_true hbc))
  have total : ∀ a b : String, (decide (a ≤ b) || decide (b ≤ a)) = true := by
    intro a b
    rw [Bool.or_eq_true, decide_eq_true_eq, decide_eq_true_eq]
    exact String.le_total a b
  exact (List.pairwise_mergeSort trans total texts).imp of_decide_eq_true

theorem sorted_perm (texts : List String) : (sorted texts).Perm texts := List.mergeSort_perm _ _

end LocaleLint.Text
