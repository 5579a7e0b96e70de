import Mathlib.Logic.Relation
import LocaleLint.Proofs.Locale.FirstFault
import LocaleLint.Proofs.Yaml.Depth

/-! # Documents that contain themselves

A document may lead back into itself in three ways. Mappings that contain themselves through values of mappings and
lists that contain themselves through items of lists are followed without an end, unless something else is at fault
before. Any other container inside a list is printed, and one that contains itself is printed with dots in its place. -/

namespace LocaleLint

open Relation Value

/-! ### What cannot be read at any depth -/

section Depth
variable {α : Type} {R : α → α → Prop} {P : Nat → α → Prop} (none : ∀ a, ¬ P 0 a)
  (below : ∀ {n a b}, P (n + 1) a → R a b → P n b) {a b : α}
include none below

/-- What holds at no depth of something holds at no depth of what leads to it. -/
theorem not_at_depth_of_reached (reached : ReflTransGen R a b) (h : ∀ n, ¬ P n b) (n : Nat) : ¬ P n a := by
  induction reached using ReflTransGen.head_induction_on generalizing n with
  | refl => exact h n
  | head edge _ ih =>
    cases n with
    | zero => exact none _
    | succ n => exact fun holds => ih n (below holds edge)

/-- What holds one level below wherever it holds, and not at the top, holds nowhere on a way back. -/
theorem not_at_depth_of_cycle (cycle : TransGen R a a) (n : Nat) : ¬ P n a := by
  induction n generalizing a with
  | zero => exact none a
  | succ n ih =>
    obtain ⟨b, edge, back⟩ := TransGen.head'_iff.mp cycle
    exact fun holds => ih (TransGen.tail' back edge) (below holds edge)

end Depth

namespace Yaml.Document
open Cells
variable {d : Document} {id inner : Nat} {n : Nat}

theorem hasText_unrolledItem_inner (h : (d.unrolledItem (n + 1) (.container id)).HasText) (edge : d.HoldsItem id inner) :
    (d.unrolledItem n (.container inner)).HasText := by
  obtain ⟨items, hcell, member⟩ := edge
  rw [unrolledItem_list hcell] at h
  exact Value.hasText_of_mem h (List.mem_map_of_mem member)

theorem not_hasText_endless : ¬ Value.endless.HasText := by
  rintro ⟨s, h⟩
  cases h

/-- A list that leads back into itself has no text at any depth. -/
theorem ListLeadsBack.not_hasText (back : d.ListLeadsBack id) (n : Nat) : ¬ (d.unrolledItem n (.container id)).HasText := by
  obtain ⟨list, reached, cycle⟩ := back
  refine not_at_depth_of_reached (P := fun n id => (d.unrolledItem n (.container id)).HasText)
    (fun _ => not_hasText_endless) hasText_unrolledItem_inner reached (fun n => ?_) n
  exact not_at_depth_of_cycle (P := fun n id => (d.unrolledItem n (.container id)).HasText)
    (fun _ => not_hasText_endless) hasText_unrolledItem_inner cycle n

theorem ListLeadsBack.not_mapping (back : d.ListLeadsBack id) (entries : Entries Value Ref) : d.cell id ≠ .mapping entries := by
  obtain ⟨list, reached, cycle⟩ := back
  obtain ⟨inner, ⟨items, hcell, -⟩, -⟩ := TransGen.head'_iff.mp (TransGen.trans_right reached cycle)
  rw [hcell]
  exact nofun

/-- Whether a container becomes a tree at a depth. -/
def BuildsAt (d : Document) (n : Nat) (id : Nat) : Prop := ∃ tree, (d.unrolled n (.container id)).Builds tree

theorem not_buildsAt_zero : ¬ d.BuildsAt 0 id := by
  rintro ⟨tree, h⟩
  cases h with
  | leaf other text => exact not_hasText_endless ⟨_, text⟩

theorem buildsAt_inner (h : d.BuildsAt (n + 1) id) (edge : d.HoldsValue id inner) : d.BuildsAt n inner := by
  obtain ⟨entries, key, hcell, member⟩ := edge
  obtain ⟨tree, h⟩ := h
  rw [unrolled_mapping hcell] at h
  cases h with
  | leaf other text => exact absurd rfl (other _)
  | mapping each distinct =>
    exact Tree.exists_builds_of_mem each (List.mem_map_of_mem (f := fun e => (e.1, d.unrolled n e.2)) member)

/-- A mapping that leads back becomes no tree at any depth. -/
theorem LeadsBack.not_buildsAt (back : d.LeadsBack id) (n : Nat) : ¬ d.BuildsAt n id := by
  obtain ⟨mapping, reached, back⟩ := back
  refine not_at_depth_of_reached (fun _ => not_buildsAt_zero) buildsAt_inner reached (fun n => ?_) n
  rcases back with cycle | ⟨list, edge, back⟩
  · exact not_at_depth_of_cycle (fun _ => not_buildsAt_zero) buildsAt_inner cycle n
  · cases n with
    | zero => exact not_buildsAt_zero
    | succ n =>
      intro holds
      obtain ⟨tree, h⟩ := buildsAt_inner holds edge
      have item := not_mapping_of_unrolledItem (n := n) back.not_mapping
      rw [unrolled_other back.not_mapping, Tree.builds_of_not_mapping item] at h
      obtain ⟨s, text, -⟩ := h
      exact back.not_hasText n ⟨s, text⟩

/-! ### What is not read to its end -/

/-- Whether the containers that are open lead to one of them. -/
def OpenReach (R : Nat → Nat → Prop) (size : Nat) (closed : List Nat) (id : Nat) : Prop :=
  ∀ other < size, other ∉ closed → TransGen R other id

theorem OpenReach.onward {R : Nat → Nat → Prop} {size : Nat} {closed closed' : List Nat} (path : OpenReach R size closed id)
    (opens : Opens id closed closed') (edge : R id inner) : OpenReach R size closed' inner := by
  intro other inside h
  rcases opens other h with h | rfl
  · exact (path other inside h).tail edge
  · exact .single edge

section Fits
variable (fits : d.Fits) {s : Cells} {closed : List Nat}
include fits

theorem ends_valueOf {f : Ref → Value} (h : ∀ r : Ref, r.Fits d.cells.size → (f r).Ends) (id : Nat) :
    ((d.cell id).valueOf f).Ends := by
  have held := fits.cell id
  cases hcell : d.cell id with
  | list items | tuple items =>
    rw [hcell] at held
    rw [Cell.valueOf, Value.Ends, atoms, ends_items]
    exact List.forall_mem_map.mpr fun r hr => h r (held r hr)
  | set items =>
    rw [hcell] at held
    rw [Cell.valueOf, Value.Ends, atoms, ends_items]
    exact held
  | mapping entries =>
    rw [hcell] at held
    rw [Cell.valueOf, Value.Ends, atoms, ends_entries]
    exact List.forall_mem_map.mpr fun e he => ⟨(held e he).1, h e.2 (held e he).2⟩

/-- What is printed has an end, whatever contains itself in it. -/
theorem ends_shown {ref : Ref} (inside : ref.Fits d.cells.size) : (d.shown closed ref).Ends := by
  induction hsize : closed.length using Nat.strongRecOn generalizing closed ref with
  | _ size ih =>
  cases ref with
  | scalar v =>
    rw [shown]
    exact inside
  | container id =>
    rw [shown]
    split
    · rename_i h
      exact ends_valueOf fits (fun r hr => ih _ (hsize ▸ length_erase_lt h) hr rfl) id
    · exact Value.ends_of_atom rfl (fun h => by cases h)

variable (same : s.cells = d.cells) (settled : s.Settled)
include same settled

/-- An item of a list is read to its end, unless a list leads back into itself from it. -/
theorem listLeadsBack_of_endless (inside : id < d.cells.size)
    (path : OpenReach d.HoldsItem d.cells.size closed id)
    (h : (readingItem s closed (.container id)).scalarText = .error .endless) : d.ListLeadsBack id := by
  induction hsize : sizeOf (readingItem s closed (.container id)) using Nat.strongRecOn generalizing id closed with
  | _ size ih =>
  by_cases list : ∃ items, d.cell id = .list items
  · obtain ⟨items, hcell⟩ := list
    rcases readingItem_list same settled closed hcell with ⟨opened, -⟩ | ⟨closed', opens, hread⟩
    · exact ⟨id, .refl, path id inside opened⟩
    · rw [hread] at h hsize
      obtain ⟨r, member, endless⟩ := Value.exists_of_list_endless h
      have held := fits.cell id
      rw [hcell] at held
      cases r with
      | scalar v =>
        rw [readingItem] at endless
        exact absurd endless (Value.Ends.scalarText_ne (held _ member))
      | container inner =>
        have edge : d.HoldsItem id inner := ⟨items, hcell, member⟩
        have smaller := List.sizeOf_lt_of_mem (List.mem_map_of_mem (f := readingItem s closed') member)
        rw [Value.list.sizeOf_spec] at hsize
        obtain ⟨list, reached, cycle⟩ := ih _ (by omega) (held _ member) (path.onward opens edge) endless rfl
        exact ⟨list, .head edge reached, cycle⟩
  · rw [readingItem_other same settled (not_exists.mp list)] at h
    have fit : (Ref.container id).Fits d.cells.size := inside
    exact absurd h (ends_shown fits fit).scalarText_ne

/-- A mapping is read to its end, unless it leads back. -/
theorem leadsBack_of_endless {entries : Entries Value Ref} (hcell : d.cell id = .mapping entries)
    (inside : id < d.cells.size) (path : OpenReach d.HoldsValue d.cells.size closed id)
    (h : Tree.outcome (reading s closed (.container id)) = Tree.endless) : d.LeadsBack id := by
  induction hsize : sizeOf (reading s closed (.container id)) using Nat.strongRecOn generalizing id closed entries with
  | _ size ih =>
  rcases reading_mapping closed settled (cell_eq same id ▸ hcell) with ⟨opened, -⟩ | ⟨closed', opens, hread⟩
  · exact ⟨id, .refl, Or.inl (path id inside opened)⟩
  · rw [hread] at h hsize
    obtain ⟨⟨key, r⟩, member, key | value⟩ := Tree.exists_of_mapping_endless h
    all_goals
      have held := fits.cell id
      rw [hcell] at held
      obtain ⟨hkey, hr⟩ := held _ member
    · exact absurd key hkey.scalarText_ne
    · cases r with
      | scalar v =>
        rw [reading] at value
        exact absurd value (Tree.outcome_ne_of_ends hr)
      | container inner =>
        have edge : d.HoldsValue id inner := ⟨entries, key, hcell, member⟩
        have smaller := Value.sizeOf_lt_of_mem (List.mem_map_of_mem (f := fun e => (e.1, reading s closed' e.2)) member)
        by_cases mapping : ∃ entries, d.cell inner = .mapping entries
        · obtain ⟨entries', hinner⟩ := mapping
          obtain ⟨m, reached, back⟩ := ih _ (hsize ▸ smaller) hinner hr (path.onward opens edge) value rfl
          exact ⟨m, .head edge reached, back⟩
        · -- What is no mapping is read as an item, with no list open.
          have other := not_exists.mp mapping
          have plain : ∀ es, reading s closed' (.container inner) ≠ .mapping es :=
            not_mapping_of_reading settled fun entries h => other entries (cell_eq same inner ▸ h)
          have text := Tree.scalarText_of_endless plain value
          rw [reading_other same other] at text
          have back := listLeadsBack_of_endless fits same settled hr
            (fun other inside' h => absurd (mem_all same inside') h) text
          exact ⟨id, .refl, Or.inr ⟨inner, edge, back⟩⟩

end Fits

end Yaml.Document

/-! ### Locales -/

/-- The locale and the number of the mapping under it, in a document that has one key with a mapping under it. -/
def Yaml.Document.onlyLocale? (d : Yaml.Document) : Option (Value × Nat) :=
  match d.root with
  | .scalar _ => none
  | .container root =>
    match d.cell root with
    | .mapping [(locale, .container id)] =>
      match d.cell id with
      | .mapping _ => some (locale, id)
      | _ => none
    | _ => none

theorem Yaml.Document.onlyLocale?_eq_some {d : Yaml.Document} {locale : Value} {id : Nat}
    (h : d.onlyLocale? = some (locale, id)) : ∃ root entries, d.root = .container root ∧
      d.cell root = .mapping [(locale, .container id)] ∧ d.cell id = .mapping entries := by
  rw [onlyLocale?] at h
  split at h
  · cases h
  · rename_i root hroot
    split at h
    · rename_i hcell
      split at h
      · rename_i entries hid
        cases h
        exact ⟨root, entries, hroot, hcell, hid⟩
      · cases h
    · cases h

/-- The container that is the value of the only entry of a mapping. -/
def Yaml.Document.onlyValue? (d : Yaml.Document) (id : Nat) : Option Nat :=
  match d.cell id with
  | .mapping [(_, .container inner)] => some inner
  | _ => none

theorem Yaml.Document.holdsValue_of_onlyValue? {d : Yaml.Document} {id inner : Nat}
    (h : d.onlyValue? id = some inner) : d.HoldsValue id inner := by
  rw [onlyValue?] at h
  split at h
  · rename_i key other hcell
    cases h
    exact ⟨_, key, hcell, List.mem_singleton_self _⟩
  · cases h

namespace Locale
open Yaml Yaml.Document Yaml.Document.Cells

/-- What comes of a document with one locale when its translations are read down to a depth. -/
def atDepth (filename : String) (d : Document) (locale : Value) (id n : Nat) : Except LocaleError Locale :=
  ofValue filename (.mapping [(locale, d.unrolled n (.container id))])

section OfValue
variable {filename : String} {locale : Value} {entries others : List (Value × Value)}

/-- The locale of translations depends on the tree that they become. -/
theorem ofValue_congr (same : Tree.outcome (.mapping entries) = Tree.outcome (.mapping others)) :
    ofValue filename (.mapping [(locale, .mapping entries)]) = ofValue filename (.mapping [(locale, .mapping others)]) := by
  have built : Tree.build entries "" = Tree.build others "" := by
    have here := congrFun same ""
    rw [Tree.outcome, Tree.outcome, Tree.ofValue, Tree.ofValue] at here
    exact eq_of_map_eq (fun _ _ => Tree.mapping.inj) here
  rw [ofValue, ofValue, built]

theorem ofValue_of_endless (h : Tree.outcome (.mapping entries) = Tree.endless) :
    ofValue filename (.mapping [(locale, .mapping entries)]) = .error (.coercion .endless) := by
  have here := (Tree.outcome_eq_endless_iff "").mp h
  rw [Tree.ofValue] at here
  have built : Tree.build entries "" = .error (.coercion .endless) := eq_error_of_map here
  rw [ofValue, built]

theorem endless_of_ofValue (key : locale.Ends)
    (h : ofValue filename (.mapping [(locale, .mapping entries)]) = .error (.coercion .endless)) :
    Tree.outcome (.mapping entries) = Tree.endless := by
  rw [ofValue] at h
  cases built : Tree.build entries "" with
  | error e =>
    rw [built] at h
    cases e with
    | duplicateKey key => cases h
    | coercion cause =>
      cases h
      refine (Tree.outcome_eq_endless_iff "").mpr ?_
      rw [Tree.ofValue]
      exact congrArg (Except.map Tree.mapping) built
  | ok tree =>
    -- The name of the locale has an end.
    rw [built, textOf] at h
    cases text : locale.scalarText with
    | ok name =>
      rw [text] at h
      cases h
    | error cause =>
      rw [text] at h
      cases h
      exact absurd text key.scalarText_ne

end OfValue

/-- How the translations of a document with one locale are read. -/
structure ReadAs (filename : String) (content : List Char) (d : Document) (locale : Value) (id : Nat)
    (entries : Entries Value Ref) (translations : List (Value × Value)) : Prop where
  fits : d.Fits
  key : locale.Ends
  inside : id < d.cells.size
  cell : d.cell id = .mapping entries
  read : reading (Cells.ofArray d.cells) (Cells.ofArray d.cells).all (.container id) = .mapping translations
  result : parse filename content = ofValue filename (.mapping [(locale, .mapping translations)])

section Parse
variable {filename : String} {content : List Char} {d : Document} {locale : Value} {id : Nat}

theorem exists_readAs (filename : String) (loaded : Yaml.load content = .ok d) (only : d.onlyLocale? = some (locale, id)) :
    ∃ entries translations, ReadAs filename content d locale id entries translations := by
  obtain ⟨root, entries, hroot, hone, hid⟩ := Document.onlyLocale?_eq_some only
  obtain ⟨settled, same⟩ := Settled.ofArray d.cells
  have fits := fits_of_load loaded
  have held := fits.cell root
  rw [hone] at held
  obtain ⟨key, inside⟩ : locale.Ends ∧ id < d.cells.size := held _ (List.mem_singleton_self _)
  have holds := getElem?_of_cell ((cell_eq same root).trans hone)
  rw [same] at holds
  obtain ⟨closed, -, read⟩ := (reading_mapping (Cells.ofArray d.cells).all settled
    ((cell_eq same id).trans hid)).resolve_left fun h => h.1 (mem_all same inside)
  refine ⟨entries, _, fits, key, inside, hid, read, ?_⟩
  rw [← read, parse, loaded]
  simp only [value_of_mapping hroot holds]
  rfl

namespace ReadAs
variable {entries : Entries Value Ref} {translations : List (Value × Value)}
  (h : ReadAs filename content d locale id entries translations)
include h

theorem atDepth_succ (n : Nat) : atDepth filename d locale id (n + 1) =
    ofValue filename (.mapping [(locale, .mapping (entries.map fun e => (e.1, d.unrolled n e.2)))]) := by
  rw [atDepth, unrolled_mapping h.cell]

theorem eventually : ∃ depth, ∀ n ≥ depth, atDepth filename d locale id n = parse filename content := by
  obtain ⟨settled, same⟩ := Settled.ofArray d.cells
  obtain ⟨depth, deep⟩ := exists_depth h.fits same settled h.inside
  refine ⟨depth + 1, fun n hn => ?_⟩
  obtain ⟨m, rfl⟩ := Nat.exists_eq_add_of_le' (Nat.le_trans (Nat.le_add_left 1 depth) hn)
  have trees := deep (m + 1) (Nat.le_of_succ_le hn)
  rw [unrolled_mapping h.cell, h.read] at trees
  rw [h.atDepth_succ, h.result]
  exact ofValue_congr trees

theorem endless (failed : parse filename content = .error (.coercion .endless)) :
    Tree.outcome (reading (Cells.ofArray d.cells) (Cells.ofArray d.cells).all (.container id)) = Tree.endless := by
  rw [h.result] at failed
  rw [h.read]
  exact endless_of_ofValue h.key failed

/-- What is not read to its end is not at any depth. -/
theorem atDepth_endless (failed : parse filename content = .error (.coercion .endless)) (n : Nat) :
    atDepth filename d locale id n = .error (.coercion .endless) := by
  cases n with
  | zero => rfl
  | succ n =>
    obtain ⟨settled, same⟩ := Settled.ofArray d.cells
    have trees := endless_at_depth h.fits same settled h.inside (h.endless failed) (n + 1)
    rw [unrolled_mapping h.cell] at trees
    rw [h.atDepth_succ]
    exact ofValue_of_endless trees

theorem ne_ok_of_leadsBack (back : d.LeadsBack id) (found : Locale) : parse filename content ≠ .ok found := by
  intro parsed
  obtain ⟨depth, deep⟩ := h.eventually
  have read := (deep (depth + 1) (Nat.le_succ depth)).trans parsed
  rw [h.atDepth_succ] at read
  cases ofValue_eq_ok_iff.mp read with
  | intro name builds =>
    rw [← unrolled_mapping h.cell] at builds
    exact back.not_buildsAt (depth + 1) ⟨_, builds⟩

theorem leadsBack (failed : parse filename content = .error (.coercion .endless)) : d.LeadsBack id := by
  obtain ⟨settled, same⟩ := Settled.ofArray d.cells
  refine leadsBack_of_endless h.fits same settled h.cell h.inside (fun other inside opened => ?_) (h.endless failed)
  exact absurd (mem_all same inside) opened

end ReadAs

/-- A document with one locale is read depth by depth: from some depth on, what comes of it is what is returned. Where
    its translations lead back into themselves no tree is returned, because no depth is enough or something else is at
    fault at one that is not; where they do not, nothing is read without an end. A container that is met again while it
    is being printed is printed as its brackets with dots between them. -/
theorem parse_selfContaining (loaded : Yaml.load content = .ok d) (only : d.onlyLocale? = some (locale, id)) :
    (∃ depth, ∀ n ≥ depth, atDepth filename d locale id n = parse filename content) ∧
    (d.LeadsBack id →
      (parse filename content = .error (.coercion .endless) ∧
        ∀ n, atDepth filename d locale id n = .error (.coercion .endless)) ∨
      ∃ e n, e ≠ .coercion .endless ∧ parse filename content = .error e ∧ atDepth filename d locale id n = .error e) ∧
    (¬ d.LeadsBack id → parse filename content ≠ .error (.coercion .endless)) ∧
    ∀ closed other, other ∉ closed →
      (d.shown closed (.container other)).printed = .ok (kindOf (d.cell other)).ellipsis := by
  obtain ⟨entries, translations, h⟩ := exists_readAs filename loaded only
  obtain ⟨depth, deep⟩ := h.eventually
  refine ⟨⟨depth, deep⟩, fun back => ?_, fun none failed => none (h.leadsBack failed), fun closed other opened => ?_⟩
  · cases hparse : parse filename content with
    | ok found => exact absurd hparse (h.ne_ok_of_leadsBack back found)
    | error e =>
      by_cases he : e = .coercion .endless
      · subst he
        exact Or.inl ⟨rfl, h.atDepth_endless hparse⟩
      · exact Or.inr ⟨e, depth, he, rfl, (deep depth (Nat.le_refl depth)).trans hparse⟩
  · rw [shown, dif_neg opened]
    rfl

theorem eq_ok_of_toOption {ε α : Type} {x : Except ε α} {a : α} (h : x.toOption = some a) : x = .ok a := by
  cases x with
  | error e => cases h
  | ok b => exact congrArg Except.ok (Option.some.inj h)

/-- A document in which mappings, tuples and lists contain themselves inside a list. -/
def printedInside : List Char := "en: \x7bx: [&m \x7bk: *m, l: &l [*l]\x7d, &p !!pairs [a: *p]]\x7d".toList

/-- A document in which a mapping contains itself. -/
def followedInside : List Char := "en: &a \x7bx: *a\x7d".toList

/-- The first document does not lead back, although containers contain themselves, which are printed; the second one
    does. -/
theorem parse_selfContaining_inside :
    (∃ d locale id found, Yaml.load printedInside = .ok d ∧ d.onlyLocale? = some (locale, id) ∧ ¬ d.LeadsBack id ∧
      parse "en.yml" printedInside = .ok found ∧
      found.tree.translations "" = [⟨"x", "[\x7b'k': \x7b...\x7d, 'l': [[...]]\x7d, [('a', [(...)])]]", "x"⟩]) ∧
    ∃ d locale id, Yaml.load followedInside = .ok d ∧ d.onlyLocale? = some (locale, id) ∧ d.LeadsBack id ∧
      ∀ found, parse "en.yml" followedInside ≠ .ok found := by
  constructor
  · have only : ((load printedInside).toOption.bind onlyLocale?).isSome = true := by decide +kernel
    obtain ⟨⟨locale, id⟩, hid⟩ := Option.isSome_iff_exists.mp only
    obtain ⟨d, hd, only⟩ := Option.bind_eq_some_iff.mp hid
    have result : (parse "en.yml" printedInside).toOption.map (fun found => found.tree.translations "") =
        some [⟨"x", "[\x7b'k': \x7b...\x7d, 'l': [[...]]\x7d, [('a', [(...)])]]", "x"⟩] := by decide +kernel
    obtain ⟨found, hfound, translations⟩ := Option.map_eq_some_iff.mp result
    have loaded := eq_ok_of_toOption hd
    have parsed := eq_ok_of_toOption hfound
    refine ⟨d, locale, id, found, loaded, only, fun back => ?_, parsed, translations⟩
    rcases (parse_selfContaining loaded only).2.1 back with ⟨failed, -⟩ | ⟨e, n, -, failed, -⟩
    all_goals cases parsed.symm.trans failed
  · have checks : (load followedInside).toOption.any (fun d => decide ((d.onlyLocale?.map (·.2) = some 1) ∧
        d.onlyValue? 1 = some 1)) = true := by decide +kernel
    obtain ⟨d, hd, hchecks⟩ := (Option.any_eq_true _ _).mp checks
    obtain ⟨hid, value⟩ := of_decide_eq_true hchecks
    obtain ⟨⟨locale, id⟩, only, rfl⟩ := Option.map_eq_some_iff.mp hid
    have loaded := eq_ok_of_toOption hd
    have back : d.LeadsBack 1 := ⟨1, .refl, Or.inl (.single (holdsValue_of_onlyValue? value))⟩
    refine ⟨d, locale, 1, loaded, only, back, fun found parsed => ?_⟩
    rcases (parse_selfContaining loaded only).2.1 back with ⟨failed, -⟩ | ⟨e, n, -, failed, -⟩
    all_goals cases parsed.symm.trans failed

end Parse

end Locale

end LocaleLint
