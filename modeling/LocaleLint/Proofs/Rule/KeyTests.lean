import LocaleLint.Proofs.Rule.Violation
import LocaleLint.Proofs.Text.Separator
import LocaleLint.Proofs.Tree.Segments

/-! # What is tested on dotted keys

The rules test a dotted key for an end, for some starts and for a part of it. On the key of a path of segments these
are tests of the path: the end belongs to the last segment, the starts are whole segments with another one below them,
and the part, which has a single dot, is the end of one segment and the start of the next. -/

namespace LocaleLint

/-! ### Dotted keys of segments -/

section Dotted
open Text
variable {path segments : List String} {l a b : List Char}

theorem toList_dotted_cons {key next : String} {rest : List String} (h : ∀ k ∈ key :: next :: rest, IsSegment k) :
    (dotted (key :: next :: rest)).toList = key.toList ++ '.' :: (dotted (next :: rest)).toList := by
  have ne : ∀ k ∈ key :: next :: rest, k ≠ "" := fun k hk => (h k hk).1
  rw [dotted_eq_intercalate ne, dotted_eq_intercalate fun k hk => ne k (List.mem_cons_of_mem _ hk),
    String.intercalate_cons_cons, String.toList_append, String.toList_append, List.append_assoc]
  rfl

/-- What has no dot ends a dotted key exactly if it ends the last segment. -/
theorem suffix_dotted_iff (ne : path ≠ []) (h : ∀ k ∈ path, IsSegment k) (hl : '.' ∉ l) :
    l <:+ (dotted path).toList ↔ l <:+ (path.getLast ne).toList := by
  induction path with
  | nil => exact absurd rfl ne
  | cons key rest ih =>
    cases rest with
    | nil => rfl
    | cons next rest =>
      rw [toList_dotted_cons h, suffix_append_cons_iff hl, List.getLast_cons_cons]
      exact ih (List.cons_ne_nil _ _) fun k hk => h k (List.mem_cons_of_mem _ hk)

/-- What has no dot starts a dotted key exactly if it starts the first segment. -/
theorem prefix_dotted_iff {key : String} {rest : List String} (h : ∀ k ∈ key :: rest, IsSegment k) (hl : '.' ∉ l) :
    l <+: (dotted (key :: rest)).toList ↔ l <+: key.toList := by
  cases rest with
  | nil => rfl
  | cons next rest => rw [toList_dotted_cons h, prefix_append_cons_iff hl]

/-- Segments with a dot after each. -/
def withDots (segments : List String) : List Char := segments.flatMap fun segment => segment.toList ++ ['.']

/-- Segments with a dot after each start a dotted key exactly if they are the first ones of several. -/
theorem withDots_prefix_dotted_iff (ne : path ≠ []) (h : ∀ k ∈ path, IsSegment k) (hs : ∀ s ∈ segments, IsSegment s) :
    withDots segments <+: (dotted path).toList ↔ segments <+: path ∧ segments.length < path.length := by
  induction segments generalizing path with
  | nil => simpa [withDots] using List.length_pos_of_ne_nil ne
  | cons segment segments ih =>
    obtain ⟨segment_isSegment, hs⟩ := List.forall_mem_cons.mp hs
    have dots : withDots (segment :: segments) = segment.toList ++ '.' :: withDots segments := by simp [withDots]
    rw [dots]
    match path with
    | [] => exact absurd rfl ne
    | [key] =>
      refine iff_of_false (fun start => ?_) (fun ⟨_, shorter⟩ => by simp at shorter)
      exact not_infix_append_cons (h key List.mem_cons_self).2 start.isInfix
    | key :: next :: rest =>
      obtain ⟨key_isSegment, h'⟩ := List.forall_mem_cons.mp h
      rw [toList_dotted_cons h, append_cons_prefix_iff segment_isSegment.2 key_isSegment.2,
        ih (List.cons_ne_nil _ _) h' hs, List.cons_prefix_cons, String.toList_inj, and_assoc]
      simp only [List.length_cons, Nat.add_lt_add_iff_right]

/-- Two texts without dots have a dot between them in a dotted key exactly if one ends a segment and the other starts
    the next. -/
theorem infix_dotted_iff (h : ∀ k ∈ path, IsSegment k) (ha : '.' ∉ a) (hb : '.' ∉ b) :
    a ++ '.' :: b <:+: (dotted path).toList ↔
      ∃ before s s' after, path = before ++ s :: s' :: after ∧ a <:+ s.toList ∧ b <+: s'.toList := by
  induction path with
  | nil =>
    refine iff_of_false (not_infix_append_cons List.not_mem_nil) ?_
    rintro ⟨before, s, s', after, split, -⟩
    simp at split
  | cons key rest ih =>
    cases rest with
    | nil =>
      refine iff_of_false (not_infix_append_cons (h key List.mem_cons_self).2) ?_
      rintro ⟨before, s, s', after, split, -⟩
      have := congrArg List.length split
      simp at this
      omega
    | cons next rest =>
      obtain ⟨key_isSegment, h'⟩ := List.forall_mem_cons.mp h
      rw [toList_dotted_cons h, append_cons_infix_iff ha key_isSegment.2, prefix_dotted_iff h' hb, ih h']
      constructor
      · rintro (⟨ends, starts⟩ | ⟨before, s, s', after, split, ends, starts⟩)
        · exact ⟨[], key, next, rest, rfl, ends, starts⟩
        · exact ⟨key :: before, s, s', after, by rw [split, List.cons_append], ends, starts⟩
      · rintro ⟨before, s, s', after, split, ends, starts⟩
        cases before with
        | nil =>
          cases split
          exact Or.inl ⟨ends, starts⟩
        | cons first before =>
          exact Or.inr ⟨before, s, s', after, (List.cons.inj split).2, ends, starts⟩

end Dotted

/-! ### The tests of the rules -/

namespace Rule
variable {path : List String}

/-- The segments that a path starts with if its texts may interpolate a count without being told apart. -/
def allowedSegments : List (List String) :=
  [["errors", "messages"], ["activemodel", "errors", "messages"], ["activerecord", "errors", "messages"]]

/-- Whether a path goes on below segments that allow a count. -/
def IsBelowAllowed (path : List String) : Prop :=
  ∃ start ∈ allowedSegments, start <+: path ∧ start.length < path.length

/-- Whether a segment of a path that ends in `messages` has one after it that starts with the rest of what is exempt. -/
def HasExemptPair (path : List String) : Prop :=
  ∃ before s s' after, path = before ++ s :: s' :: after ∧ "messages".toList <:+ s.toList ∧
    "restrict_dependent_destroy".toList <+: s'.toList

theorem isMessageFormat_dotted (ne : path ≠ []) (h : ∀ k ∈ path, IsSegment k) :
    isMessageFormat (dotted path) = true ↔ messageFormatEnd.toList <:+ (path.getLast ne).toList := by
  rw [isMessageFormat, List.isSuffixOf_iff_suffix]
  exact suffix_dotted_iff ne h (by decide +kernel)

theorem allowsCount_dotted (ne : path ≠ []) (h : ∀ k ∈ path, IsSegment k) :
    allowsCount (dotted path) = true ↔ IsBelowAllowed path := by
  have starts : countAllowed.map String.toList = allowedSegments.map withDots := by decide +kernel
  have segments : ∀ start ∈ allowedSegments, ∀ s ∈ start, IsSegment s := by decide +kernel
  have anyStart : allowsCount (dotted path) = (countAllowed.map String.toList).any (·.isPrefixOf (dotted path).toList) := by
    rw [List.any_map]
    rfl
  rw [anyStart, starts, List.any_map, List.any_eq_true]
  simp only [Function.comp_apply, List.isPrefixOf_iff_prefix]
  exact exists_congr fun start => and_congr_right fun member => withDots_prefix_dotted_iff ne h (segments start member)

theorem isExempt_dotted (h : ∀ k ∈ path, IsSegment k) : isExempt (dotted path) = true ↔ HasExemptPair path := by
  have split : exemptPart.toList = "messages".toList ++ '.' :: "restrict_dependent_destroy".toList := by decide +kernel
  rw [isExempt, Text.occursIn_eq_true_iff, split]
  exact infix_dotted_iff h (by decide +kernel) (by decide +kernel)

theorem HasExemptPair.append (h : HasExemptPair path) (below : List String) : HasExemptPair (path ++ below) := by
  obtain ⟨before, s, s', after, rfl, ends, starts⟩ := h
  exact ⟨before, s, s', after ++ below, by simp, ends, starts⟩

/-- A path goes on below allowed segments if another one does that has the same first three segments and is as long, or
    has more than three segments as well. -/
theorem IsBelowAllowed.congr {other : List String} (h : IsBelowAllowed path) (start : other.take 3 = path.take 3)
    (depth : min 4 other.length = min 4 path.length) : IsBelowAllowed other := by
  obtain ⟨allowed, member, first, deeper⟩ := h
  have short : ∀ start ∈ allowedSegments, start.length ≤ 3 := by decide
  have within := short allowed member
  refine ⟨allowed, member, ?_, by omega⟩
  have taken : allowed <+: path.take 3 := List.prefix_take_iff.mpr ⟨first, within⟩
  exact (start ▸ taken).trans (List.take_prefix 3 other)

/-- The tests on the dotted key of a path of segments are tests of the segments. Hence all mappings below an exempt one
    are exempt and violate no rule, the first three segments and the depth tell whether a count is allowed, and the last
    segment alone tells whether a leaf is a message format. -/
theorem keyTests_read_segments (ne : path ≠ []) (h : ∀ k ∈ path, IsSegment k) :
    (isMessageFormat (dotted path) = true ↔ messageFormatEnd.toList <:+ (path.getLast ne).toList) ∧
    (allowsCount (dotted path) = true ↔ IsBelowAllowed path) ∧
    (isExempt (dotted path) = true ↔ HasExemptPair path) ∧
    (isExempt (dotted path) = true → ∀ below, (∀ k ∈ below, IsSegment k) →
      isExempt (dotted (path ++ below)) = true ∧ ∀ m, Pluralization.hits ⟨dotted (path ++ below), m⟩ = []) ∧
    (∀ other, other ≠ [] → (∀ k ∈ other, IsSegment k) → other.take 3 = path.take 3 →
      min 4 other.length = min 4 path.length → allowsCount (dotted other) = allowsCount (dotted path)) ∧
    ∀ ancestors, (∀ k ∈ ancestors, IsSegment k) →
      isMessageFormat (dotted (ancestors ++ [path.getLast ne])) = isMessageFormat (dotted path) := by
  refine ⟨isMessageFormat_dotted ne h, allowsCount_dotted ne h, isExempt_dotted h, fun exempt below hb => ?_,
    fun other ne' h' start depth => ?_, fun ancestors ha => ?_⟩
  · have pair := ((isExempt_dotted h).mp exempt).append below
    have exempt' := (isExempt_dotted (List.forall_mem_append.mpr ⟨h, hb⟩)).mpr pair
    exact ⟨exempt', fun m => if_pos exempt'⟩
  · rw [Bool.eq_iff_iff, allowsCount_dotted ne' h', allowsCount_dotted ne h]
    exact ⟨fun allowed => allowed.congr start.symm depth.symm, fun allowed => allowed.congr start depth⟩
  · have last := h _ (List.getLast_mem ne)
    rw [Bool.eq_iff_iff, isMessageFormat_dotted ne h, isMessageFormat_dotted (List.concat_ne_nil _ _)
      (List.forall_mem_append.mpr ⟨ha, List.forall_mem_singleton.mpr last⟩), List.getLast_append_singleton]

/-- A message format below the messages of a model, under a key that is told apart in another way. -/
def restricted : List String := ["activerecord", "errors", "messages", "restrict_dependent_destroy", "has_many_MF"]

theorem keyTests_read_segments_restricted : restricted ≠ [] ∧ (∀ k ∈ restricted, IsSegment k) ∧
    isMessageFormat (dotted restricted) = true ∧ IsBelowAllowed restricted ∧ HasExemptPair restricted ∧
    ∀ m, Pluralization.hits ⟨dotted (restricted ++ ["nested"]), m⟩ = [] := by
  have ne : restricted ≠ [] := List.cons_ne_nil _ _
  have segments : ∀ k ∈ restricted, IsSegment k := by decide +kernel
  obtain ⟨format, allowed, exempt, extends_below, -, -⟩ := keyTests_read_segments ne segments
  have suffix : messageFormatEnd.toList <:+ "has_many_MF".toList := by decide +kernel
  have isExempt : isExempt (dotted restricted) = true := by decide +kernel
  exact ⟨ne, segments, format.mpr suffix, allowed.mp (by decide +kernel), exempt.mp isExempt,
    (extends_below isExempt ["nested"] (by decide +kernel)).2⟩

end Rule

end LocaleLint
