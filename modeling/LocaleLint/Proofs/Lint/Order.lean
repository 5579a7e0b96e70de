import Mathlib.Data.List.Basic
import Mathlib.Data.List.Induction
import LocaleLint.Proofs.Lint.Resolve

/-! # The order of the files

The files that patterns resolve to stand in the order of the first pattern that finds them, and in the order of their
names where that is the same pattern. More patterns only add names at the end, and every pattern that finds nothing
is logged, whatever the others find. -/

namespace LocaleLint.Lint

section Taking
variable {names more : List String}

/-- The names that are taken over are the others in order, each once, without those that are there. -/
theorem addNew_eq_append (names more : List String) :
    addNew names more = names ++ (addNew [] more).filter (· ∉ names) := by
  induction more generalizing names with
  | nil => simp [addNew]
  | cons name rest ih =>
    have alone : addNew [] (name :: rest) = name :: (addNew [] rest).filter (· ∉ [name]) := ih [name]
    rw [alone, addNew, ih]
    by_cases known : name ∈ names
    -- A known name is left out on the right, where the rest is filtered by it once more to no effect.
    · have others : ∀ other, (decide (other ∉ names) && decide (other ∉ [name])) = decide (other ∉ names) := by
        intro other
        rw [← Bool.decide_and, decide_eq_decide, List.mem_singleton]
        exact and_iff_left_of_imp fun new same => new (same ▸ known)
      rw [if_pos known, List.filter_cons_of_neg (by simpa using known), List.filter_filter]
      simp only [others]
    · rw [if_neg known, List.filter_cons_of_pos (by simpa using known), List.filter_filter, List.append_assoc]
      simp only [List.mem_append, not_or, Bool.decide_and, List.singleton_append]

theorem addNew_nil_sublist (more : List String) : (addNew [] more).Sublist more := by
  induction more with
  | nil => exact .slnil
  | cons name rest ih =>
    rw [addNew, addNew_eq_append]
    exact (List.filter_sublist.trans ih).cons_cons name

/-- Sorted names that are taken over ascend. -/
theorem ascending_addNew_sorted (names : List String) : (addNew [] (Text.sorted names)).Pairwise (· < ·) := by
  have ordered : (addNew [] (Text.sorted names)).Pairwise (· ≤ ·) :=
    (Text.pairwise_sorted names).sublist (addNew_nil_sublist _)
  refine (ordered.and (nodup_addNew List.nodup_nil _)).imp fun ⟨le, ne⟩ => ?_
  exact String.not_le.mp fun ge => ne (String.le_antisymm le ge)

end Taking

section Names
variable {found : String → List String} {patterns earlier later : List String} {pattern name : String}

/-- The names that patterns find, pattern by pattern and each name once. -/
def namesOf (found : String → List String) (patterns : List String) : List String :=
  patterns.foldl (fun names pattern => addNew names (Text.sorted (found pattern))) []

theorem namesOf_concat (found : String → List String) (patterns : List String) (pattern : String) :
    namesOf found (patterns ++ [pattern]) = addNew (namesOf found patterns) (Text.sorted (found pattern)) :=
  List.foldl_append

theorem mem_namesOf : name ∈ namesOf found patterns ↔ ∃ pattern ∈ patterns, name ∈ found pattern := by
  induction patterns using List.reverseRecOn with
  | nil => exact iff_of_false List.not_mem_nil fun ⟨_, member, _⟩ => List.not_mem_nil member
  | append_singleton patterns pattern ih =>
    rw [namesOf_concat, mem_addNew, ih, Text.mem_sorted]
    simp only [List.mem_append, List.mem_singleton, or_and_right, exists_or, exists_eq_left]

theorem nodup_namesOf (found : String → List String) (patterns : List String) : (namesOf found patterns).Nodup := by
  induction patterns using List.reverseRecOn with
  | nil => exact List.nodup_nil
  | append_singleton patterns pattern ih =>
    rw [namesOf_concat]
    exact nodup_addNew ih _

/-- More patterns add the names that they find and that are new. -/
theorem namesOf_append (found : String → List String) (earlier later : List String) : namesOf found (earlier ++ later) =
    namesOf found earlier ++ (namesOf found later).filter (· ∉ namesOf found earlier) := by
  induction later using List.reverseRecOn with
  | nil => rw [List.append_nil, namesOf, namesOf, List.foldl_nil, List.filter_nil, List.append_nil]
  | append_singleton later pattern ih =>
    have known : ∀ name, name ∉ namesOf found (earlier ++ later) ↔
        name ∉ namesOf found earlier ∧ name ∉ namesOf found later := by
      intro name
      simp only [mem_namesOf, List.mem_append, or_and_right, exists_or, not_or]
    rw [← List.append_assoc, namesOf_concat, namesOf_concat, addNew_eq_append, addNew_eq_append (namesOf found later),
      List.filter_append, List.filter_filter, ← List.append_assoc, ← ih]
    simp only [known, Bool.decide_and]

end Names

/-! ### Ranks -/

section Ranks
variable {found : String → List String} {patterns earlier : List String} {pattern name x y : String}

/-- The place of the first pattern that finds a name. -/
def firstMatch (found : String → List String) (patterns : List String) (name : String) : Nat :=
  patterns.findIdx fun pattern => name ∈ found pattern

/-- Whether a name is found by an earlier pattern first, or by the same one and comes first itself. -/
def Precedes (found : String → List String) (patterns : List String) (x y : String) : Prop :=
  firstMatch found patterns x < firstMatch found patterns y ∨
    firstMatch found patterns x = firstMatch found patterns y ∧ x < y

theorem Precedes.asymm (h : Precedes found patterns x y) : ¬ Precedes found patterns y x := by
  rintro (lower' | ⟨same', less'⟩)
  · rcases h with lower | ⟨same, -⟩ <;> omega
  · rcases h with lower | ⟨-, less⟩
    · omega
    · exact String.lt_asymm less less'

theorem firstMatch_append_of_mem (known : name ∈ namesOf found earlier) (later : List String) :
    firstMatch found (earlier ++ later) name = firstMatch found earlier name := by
  obtain ⟨pattern, member, matched⟩ := mem_namesOf.mp known
  rw [firstMatch, List.findIdx_append,
    if_pos (List.findIdx_lt_length.mpr ⟨pattern, member, decide_eq_true matched⟩), firstMatch]

theorem firstMatch_lt_of_mem (known : name ∈ namesOf found earlier) : firstMatch found earlier name < earlier.length := by
  obtain ⟨pattern, member, matched⟩ := mem_namesOf.mp known
  exact List.findIdx_lt_length.mpr ⟨pattern, member, decide_eq_true matched⟩

theorem firstMatch_concat_of_new (new : name ∉ namesOf found earlier) (matched : name ∈ found pattern) :
    firstMatch found (earlier ++ [pattern]) name = earlier.length := by
  have none : ¬ earlier.findIdx (fun pattern => decide (name ∈ found pattern)) < earlier.length := by
    rw [List.findIdx_lt_length]
    rintro ⟨pattern, member, matched⟩
    exact new (mem_namesOf.mpr ⟨pattern, member, of_decide_eq_true matched⟩)
  rw [firstMatch, List.findIdx_append, if_neg none, List.findIdx_cons, decide_eq_true matched]
  exact Nat.zero_add _

theorem pairwise_namesOf (found : String → List String) (patterns : List String) :
    (namesOf found patterns).Pairwise (Precedes found patterns) := by
  induction patterns using List.reverseRecOn with
  | nil => exact .nil
  | append_singleton patterns pattern ih =>
    -- The names of one more pattern come last: those that are new have it as their first pattern.
    have fresh : ∀ name ∈ (addNew [] (Text.sorted (found pattern))).filter (· ∉ namesOf found patterns),
        firstMatch found (patterns ++ [pattern]) name = patterns.length := by
      intro name member
      obtain ⟨taken, new⟩ := List.mem_filter.mp member
      have matched : name ∈ found pattern := Text.mem_sorted.mp ((mem_addNew.mp taken).resolve_left List.not_mem_nil)
      exact firstMatch_concat_of_new (of_decide_eq_true new) matched
    rw [namesOf_concat, addNew_eq_append, List.pairwise_append]
    refine ⟨ih.imp_of_mem fun {x y} hx hy before => ?_, ?_, fun x hx y hy => Or.inl ?_⟩
    · rwa [Precedes, firstMatch_append_of_mem hx, firstMatch_append_of_mem hy]
    · refine ((ascending_addNew_sorted (found pattern)).sublist List.filter_sublist).imp_of_mem fun hx hy less => ?_
      exact Or.inr ⟨(fresh _ hx).trans (fresh _ hy).symm, less⟩
    · rw [fresh y hy, firstMatch_append_of_mem hx]
      exact firstMatch_lt_of_mem hx

/-- Where any two members are related in the order in which they stand, the order is told by the relation. -/
theorem idxOf_lt_idxOf_iff {α : Type} [DecidableEq α] {R : α → α → Prop} (asymm : ∀ {a b}, R a b → ¬ R b a) {l : List α}
    (ordered : l.Pairwise R) {a b : α} (ha : a ∈ l) (hb : b ∈ l) : l.idxOf a < l.idxOf b ↔ R a b := by
  have earlier : ∀ {a b : α}, a ∈ l → b ∈ l → l.idxOf a < l.idxOf b → R a b := by
    intro a b ha hb lower
    have related := List.pairwise_iff_getElem.mp ordered _ _ (List.idxOf_lt_length_of_mem ha)
      (List.idxOf_lt_length_of_mem hb) lower
    rwa [List.getElem_idxOf, List.getElem_idxOf] at related
  refine ⟨earlier ha hb, fun related => ?_⟩
  rcases Nat.lt_trichotomy (l.idxOf a) (l.idxOf b) with lower | same | higher
  · exact lower
  · obtain rfl := (List.idxOf_inj ha).mp same
    exact absurd related (asymm related)
  · exact absurd related (asymm (earlier hb ha higher))

end Ranks

/-! ### Resolving -/

section Resolve
variable {ε : Type} {find : String → Except ε (List String)} {found : String → List String} {patterns : List String}

/-- Resolving patterns that can all be searched for takes their names over and logs those that find nothing. -/
theorem resolveAfter_eq (finds : ∀ pattern ∈ patterns, find pattern = .ok (found pattern)) (names : List String) :
    resolveAfter find names patterns =
      ⟨⟨(patterns.filter fun pattern => (found pattern).isEmpty).map fun pattern => .log (.unmatched pattern)⟩,
        .ok (patterns.foldl (fun names pattern => addNew names (Text.sorted (found pattern))) names)⟩ := by
  induction patterns generalizing names with
  | nil => rfl
  | cons pattern patterns ih =>
    obtain ⟨first, others⟩ := List.forall_mem_cons.mp finds
    rw [resolveAfter_cons first, ih others, unmatched, List.filter_cons, List.foldl_cons]
    split <;> rfl

theorem resolve_eq (finds : ∀ pattern ∈ patterns, find pattern = .ok (found pattern)) : resolve find patterns =
    ⟨⟨(patterns.filter fun pattern => (found pattern).isEmpty).map fun pattern => .log (.unmatched pattern)⟩,
      .ok (namesOf found patterns)⟩ := resolveAfter_eq finds []

theorem log_resolve (finds : ∀ pattern ∈ patterns, find pattern = .ok (found pattern)) :
    (resolve find patterns).journal.log =
      (patterns.filter fun pattern => (found pattern).isEmpty).map .unmatched := by
  rw [resolve_eq finds, Journal.log, List.flatMap_map, ← List.flatMap_pure_eq_map]
  rfl

/-- Patterns that can all be searched for resolve to the names that they find, each of them once, in the order of the
    first pattern that finds them and, where that is the same, of their characters. A warning is logged for each pattern
    that finds nothing, and nothing else. Of patterns in two parts the second adds the names that are new, so that
    patterns that are repeated add none. -/
theorem resolve_by_firstMatch (finds : ∀ pattern ∈ patterns, find pattern = .ok (found pattern)) :
    ∃ names, (resolve find patterns).result = .ok names ∧ names.Nodup ∧
      (∀ name, name ∈ names ↔ ∃ pattern ∈ patterns, name ∈ found pattern) ∧
      (∀ x ∈ names, ∀ y ∈ names, names.idxOf x < names.idxOf y ↔ Precedes found patterns x y) ∧
      (resolve find patterns).journal.log.map (fun entry => (entry.level, entry.message)) =
        (patterns.filter fun pattern => (found pattern).isEmpty).map
          (fun pattern => (Level.warning, "No files match " ++ pattern)) ∧
      (∀ earlier later, patterns = earlier ++ later → ∃ first rest, (resolve find earlier).result = .ok first ∧
        (resolve find later).result = .ok rest ∧ names = first ++ rest.filter (· ∉ first)) ∧
      (resolve find (patterns ++ patterns)).result = .ok names := by
  refine ⟨namesOf found patterns, ?_, nodup_namesOf found patterns, fun name => mem_namesOf, ?_, ?_, ?_, ?_⟩
  · rw [resolve_eq finds]
  · exact fun x hx y hy => idxOf_lt_idxOf_iff Precedes.asymm (pairwise_namesOf found patterns) hx hy
  · rw [log_resolve finds, List.map_map]
    rfl
  · rintro earlier later rfl
    obtain ⟨finds, finds'⟩ := List.forall_mem_append.mp finds
    refine ⟨namesOf found earlier, namesOf found later, ?_, ?_, namesOf_append found earlier later⟩
    · rw [resolve_eq finds]
    · rw [resolve_eq finds']
  · have known : (namesOf found patterns).filter (· ∉ namesOf found patterns) = [] :=
      List.filter_eq_nil_iff.mpr fun name member => by simpa using member
    rw [resolve_eq (List.forall_mem_append.mpr ⟨finds, finds⟩), namesOf_append, known, List.append_nil]

/-- What some patterns find, one of them with a name that comes twice. -/
def overlapping : String → List String
  | "b*" => ["b2", "b1", "b2"]
  | "*" => ["c", "b1", "a", "b2"]
  | _ => []

theorem resolve_by_firstMatch_overlapping :
    (∀ pattern ∈ ["b*", "none", "*", "none"], (.ok (overlapping pattern) : Except Unit _) = .ok (overlapping pattern)) ∧
    ∃ names, (resolve (fun pattern => (.ok (overlapping pattern) : Except Unit _)) ["b*", "none", "*", "none"]).result =
        .ok names ∧ names.Nodup ∧ names.idxOf "b2" < names.idxOf "a" ∧ names.idxOf "a" < names.idxOf "c" ∧
      (resolve (fun pattern => (.ok (overlapping pattern) : Except Unit _)) ["b*", "none", "*", "none"]).journal.log.map
        (fun entry => (entry.level, entry.message)) =
          [(.warning, "No files match none"), (.warning, "No files match none")] := by
  have finds : ∀ pattern ∈ ["b*", "none", "*", "none"],
      (.ok (overlapping pattern) : Except Unit _) = .ok (overlapping pattern) := fun _ _ => rfl
  obtain ⟨names, result, distinct, members, order, log, -, -⟩ := resolve_by_firstMatch finds
  have a : "a" ∈ names := (members "a").mpr (by decide)
  have b : "b2" ∈ names := (members "b2").mpr (by decide)
  have c : "c" ∈ names := (members "c").mpr (by decide)
  refine ⟨finds, names, result, distinct, (order _ b _ a).mpr (Or.inl (by decide)), ?_, log.trans (by decide)⟩
  exact (order _ a _ c).mpr (Or.inr (by decide))

end Resolve

end LocaleLint.Lint
