import LocaleLint.Proofs.Report.Check
import LocaleLint.Proofs.Rule.Search
import LocaleLint.Proofs.Tree.Paths
import LocaleLint.Proofs.Value.Text
import LocaleLint.Tree.Build

/-! # What a list hides

The text of a list holds the texts of its items as they are, with brackets and commas around them. Whatever the rules
look for in a text is a part of it, so they find in a list's text all that they find in the text of an item, and a
list hides no violation. -/

namespace LocaleLint

open Rule Text

/-! ### Items of lists -/

namespace Value
variable {items : List Value} {texts : List (List Char)} {v e : Value} {s t : List Char}

/-- The items of a list, and those of the lists among them. -/
inductive ItemOf (e : Value) : Value → Prop
  | own {items : List Value} (member : e ∈ items) : ItemOf e (.list items)
  | inner {items : List Value} {item : Value} (member : item ∈ items) (below : ItemOf e item) : ItemOf e (.list items)

theorem exists_text_of_mem (h : scalarTexts items = .ok texts) (member : e ∈ items) :
    ∃ t ∈ texts, e.scalarText = .ok t := by
  induction items generalizing texts with
  | nil => exact absurd member List.not_mem_nil
  | cons item rest ih =>
    rw [scalarTexts] at h
    cases hitem : item.scalarText with
    | error cause =>
      rw [hitem] at h
      cases h
    | ok first =>
      cases hrest : scalarTexts rest with
      | error cause =>
        rw [hitem, hrest] at h
        cases h
      | ok others =>
        rw [hitem, hrest] at h
        obtain rfl : first :: others = texts := Except.ok.inj h
        rcases List.mem_cons.mp member with rfl | later
        · exact ⟨first, List.mem_cons_self, hitem⟩
        · obtain ⟨t, among, text⟩ := ih hrest later
          exact ⟨t, List.mem_cons_of_mem _ among, text⟩

theorem infix_commaSeparated (member : t ∈ texts) : t <:+: commaSeparated texts := by
  induction texts with
  | nil => exact absurd member List.not_mem_nil
  | cons first rest ih =>
    cases rest with
    | nil =>
      obtain rfl := List.mem_singleton.mp member
      exact List.infix_rfl
    | cons second others =>
      rw [commaSeparated]
      · rcases List.mem_cons.mp member with rfl | later
        · exact (List.prefix_append _ _).isInfix
        · have after : commaSeparated (second :: others) <:+: first ++ ',' :: ' ' :: commaSeparated (second :: others) :=
            ⟨first ++ [',', ' '], [], by simp⟩
          exact (ih later).trans after
      · exact List.cons_ne_nil _ _

theorem infix_of_mem (text : (Value.list items).scalarText = .ok s) (member : e ∈ items) :
    ∃ t, e.scalarText = .ok t ∧ t <:+: s := by
  rw [scalarText] at text
  cases htexts : scalarTexts items with
  | error cause =>
    rw [htexts] at text
    cases text
  | ok texts =>
    rw [htexts] at text
    obtain rfl : Container.list.enclose texts = s := Except.ok.inj text
    obtain ⟨t, among, ht⟩ := exists_text_of_mem htexts member
    have enclosed : commaSeparated texts <:+: Container.list.enclose texts := ⟨['['], [']'], rfl⟩
    exact ⟨t, ht, (infix_commaSeparated among).trans enclosed⟩

theorem infix_of_itemOf (reached : ItemOf e v) (text : v.scalarText = .ok s) :
    ∃ t, e.scalarText = .ok t ∧ t <:+: s := by
  induction reached generalizing s with
  | own member => exact infix_of_mem text member
  | inner member below ih =>
    obtain ⟨t, ht, within⟩ := infix_of_mem text member
    obtain ⟨t', ht', within'⟩ := ih ht
    exact ⟨t', ht', within'.trans within⟩

end Value

/-! ### Searches of a part -/

namespace Rule
variable {s t : List Char}

theorem HasPart.mono {Form : List Char → Prop} (h : HasPart Form t) (within : t <:+: s) : HasPart Form s := by
  obtain ⟨before, part, after, rfl, form⟩ := h
  obtain ⟨front, back, rfl⟩ := within
  exact ⟨front ++ before, part, after ++ back, by simp, form⟩

/-- Whether the rules for leaves find in a text all that they look for and find in another one. -/
structure FindsAll (t s : List Char) : Prop where
  link : hasRelativeLink t = true → hasRelativeLink s = true
  image : hasRelativeImageSource t = true → hasRelativeImageSource s = true
  braces : hasDoubleBraces t = true → hasDoubleBraces s = true
  clause : hasNumberedOneClause t = true → hasNumberedOneClause s = true
  count : occursIn countInterpolation t = true → occursIn countInterpolation s = true

/-- What the rules look for is told by a part of the text alone. -/
theorem findsAll_of_within (within : t <:+: s) : FindsAll t s where
  link h := hasRelativeLink_iff.mpr ((hasRelativeLink_iff.mp h).mono within)
  image h := hasRelativeImageSource_iff.mpr ((hasRelativeImageSource_iff.mp h).mono within)
  braces h := hasDoubleBraces_iff.mpr ((hasDoubleBraces_iff.mp h).mono within)
  clause h := hasNumberedOneClause_iff.mpr ((hasNumberedOneClause_iff.mp h).mono within)
  count h := occursIn_eq_true_iff.mpr ((occursIn_eq_true_iff.mp h).trans within)

theorem ite_sublist_ite {p q : Prop} [Decidable p] [Decidable q] (h : p → q) (rule : Rule) :
    (if p then [rule] else []).Sublist (if q then [rule] else []) := by
  by_cases hp : p
  · rw [if_pos hp, if_pos (h hp)]
  · rw [if_neg hp]
    exact List.nil_sublist _

theorem ofTranslation_sublist {t s : String} (finds : FindsAll t.toList s.toList) (key lastPart : String) :
    (ofTranslation ⟨key, t, lastPart⟩).Sublist (ofTranslation ⟨key, s, lastPart⟩) := by
  simp only [ofTranslation, Bool.and_eq_true]
  refine ((((ite_sublist_ite finds.link _).append (ite_sublist_ite finds.image _)).append
    (ite_sublist_ite ?_ _)).append (ite_sublist_ite ?_ _)).append (ite_sublist_ite ?_ _)
  · exact And.imp_left finds.braces
  · exact And.imp_right finds.clause
  · exact And.imp_left (And.imp_left finds.count)

end Rule

/-- What is found in a leaf's text is in the buckets after a check of any tree with that leaf. -/
theorem Validator.exists_mem_of_ofTranslation {ε : Type} (v : Validator) {tree : Mapping} {path : List String}
    {text : String} (leaf : (path, .leaf text) ∈ Tree.nodes (.mapping tree)) {rule : Rule}
    (found : rule ∈ ofTranslation ⟨dotted path, text, path.getLastD ""⟩) :
    ∃ checked, (v.check tree : Run ε Validator).result = .ok checked ∧
      ∃ keys, (rule, keys) ∈ checked.errors ∧ dotted path ∈ keys := by
  have violates : Violates rule (path, .leaf text) := mem_ofTranslation.mp found
  rw [check_eq]
  exact ⟨_, rfl, tree.violating rule, mem_errors_ofTree v tree rule,
    Mapping.mem_violating.mpr ⟨_, leaf, violates, rfl⟩⟩

/-- Where a list has a text, whatever is an item of it or of a list among its items has a text in which nothing is
    found that is not found in the list's. A leaf for the list is in every bucket in which a leaf for the item alone
    would be under its key. -/
theorem Validator.check_finds_items {items : List Value} {e : Value} {s : List Char}
    (text : (Value.list items).scalarText = .ok s) (reached : Value.ItemOf e (.list items)) :
    ∃ t, e.scalarText = .ok t ∧ FindsAll t s ∧
      (∀ key lastPart, (Translation.mk key (String.ofList t) lastPart).hits.Sublist
        (Translation.mk key (String.ofList s) lastPart).hits) ∧
      ∀ place held, Tree.ofValue place (.list items) = .ok held →
        ∀ (v : Validator) tree path, (path, held) ∈ Tree.nodes (.mapping tree) →
          ∀ rule ∈ ofTranslation ⟨dotted path, String.ofList t, path.getLastD ""⟩,
            ∃ checked, (v.check tree : Run ValidatorError Validator).result = .ok checked ∧
              ∃ keys, (rule, keys) ∈ checked.errors ∧ dotted path ∈ keys := by
  obtain ⟨t, ht, within⟩ := Value.infix_of_itemOf reached text
  have more : ∀ key lastPart, (ofTranslation ⟨key, String.ofList t, lastPart⟩).Sublist
      (ofTranslation ⟨key, String.ofList s, lastPart⟩) := by
    refine ofTranslation_sublist ?_
    rw [String.toList_ofList, String.toList_ofList]
    exact findsAll_of_within within
  refine ⟨t, ht, findsAll_of_within within, fun key lastPart => (more key lastPart).map _, ?_⟩
  -- A list is no mapping, so what it becomes is the leaf of its text.
  intro place held built v tree path leaf rule found
  have heldText : .ok (.leaf (String.ofList s)) = (.ok held : Except BuildError Tree) := by
    rw [← built, Tree.ofValue, text]
    exact nofun
  obtain rfl := Except.ok.inj heldText
  exact v.exists_mem_of_ofTranslation leaf ((more _ _).subset found)

namespace Validator

/-- A list with a link two lists further in. -/
def nestedLink : List Value := [.bool true, .list [.list [.text "](/b", .int 1]], .tuple [.null]]

theorem check_finds_items_nestedLink :
    (Value.list nestedLink).scalarText = .ok "[true, [[](/b, 1]], (None,)]".toList ∧
    Value.ItemOf (.text "](/b") (.list nestedLink) ∧
    ∃ checked, ((ofFilename "en.yml").check [("a", .leaf "[true, [[](/b, 1]], (None,)]")] :
        Run ValidatorError Validator).result = .ok checked ∧
      ∃ keys, (.relativeLinks, keys) ∈ checked.errors ∧ "a" ∈ keys := by
  have text : (Value.list nestedLink).scalarText = .ok "[true, [[](/b, 1]], (None,)]".toList := by rfl
  have reached : Value.ItemOf (.text "](/b") (.list nestedLink) :=
    .inner (List.mem_cons_of_mem _ List.mem_cons_self) (.inner List.mem_cons_self (.own List.mem_cons_self))
  obtain ⟨t, ht, -, -, finds⟩ := check_finds_items text reached
  obtain rfl : "](/b".toList = t := Except.ok.inj ((Value.scalarText_text _).symm.trans ht)
  have held : Tree.ofValue "a" (.list nestedLink) = .ok (.leaf "[true, [[](/b, 1]], (None,)]") := by rfl
  refine ⟨text, reached, finds "a" _ held _ _ ["a"] ?_ _ (by decide +kernel)⟩
  exact Tree.cons_mem_nodes.mpr ⟨_, List.mem_cons_self, Tree.nil_mem_nodes.mpr rfl⟩

end Validator

end LocaleLint
