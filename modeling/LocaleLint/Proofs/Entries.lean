import Mathlib.Data.List.Induction
import LocaleLint.Entries

/-! # Which keys are kept

Of keys that come in one after another, the kept ones are those that are the same as none kept before them.
The others are absorbed: their entries have no place of their own. -/

namespace LocaleLint.Entries

section Kept
variable {κ α : Type} {same : κ → κ → Bool} {keys : List κ} {k : κ}

/-- The keys that are kept, in order. -/
def kept (same : κ → κ → Bool) (keys : List κ) : List κ :=
  keys.foldl (fun sofar k => if sofar.any (same · k) then sofar else sofar ++ [k]) []

/-- Whether a key that comes after others is the same as one that was kept of them. -/
def Absorbed (same : κ → κ → Bool) (earlier : List κ) (k : κ) : Prop := ∃ l ∈ kept same earlier, same l k = true

theorem kept_append_singleton : kept same (keys ++ [k]) =
    if (kept same keys).any (same · k) then kept same keys else kept same keys ++ [k] := by
  rw [kept, List.foldl_append, ← kept]
  rfl

theorem absorbed_iff : (kept same keys).any (same · k) = true ↔ Absorbed same keys k := List.any_eq_true

theorem kept_of_absorbed (h : Absorbed same keys k) : kept same (keys ++ [k]) = kept same keys := by
  rw [kept_append_singleton, if_pos (absorbed_iff.mpr h)]

theorem kept_of_not_absorbed (h : ¬ Absorbed same keys k) : kept same (keys ++ [k]) = kept same keys ++ [k] := by
  rw [kept_append_singleton, if_neg (mt absorbed_iff.mp h)]

/-- Putting a value under a key adds the key unless it is the same as one that is there. -/
theorem keys_put_same (entries : Entries κ α) (key : κ) (value : α) :
    Entries.keys (put same entries key value) =
      if (Entries.keys entries).any (same · key) then Entries.keys entries else Entries.keys entries ++ [key] := by
  induction entries with
  | nil => rfl
  | cons entry rest ih =>
    obtain ⟨k, v⟩ := entry
    simp only [Entries.keys] at ih
    cases h : same k key with
    | true => simp [put, Entries.keys, h]
    | false =>
      simp only [put, Entries.keys, h, Bool.false_eq_true, ↓reduceIte, List.map_cons, ih, List.any_cons, Bool.false_or]
      exact apply_ite (k :: ·) _ _ _

theorem keys_foldl_put (pairs : List (κ × α)) (entries : Entries κ α) :
    Entries.keys (pairs.foldl (fun sofar pair => put same sofar pair.1 pair.2) entries) =
      (pairs.map (·.1)).foldl (fun sofar k => if sofar.any (same · k) then sofar else sofar ++ [k])
        (Entries.keys entries) := by
  induction pairs generalizing entries with
  | nil => rfl
  | cons pair rest ih => rw [List.foldl_cons, ih, keys_put_same, List.map_cons, List.foldl_cons]

/-- The keys of entries that came in one after another are those that are kept. -/
theorem keys_ofList (pairs : List (κ × α)) : Entries.keys (ofList same pairs) = kept same (pairs.map (·.1)) :=
  keys_foldl_put pairs []

theorem exists_of_mem_put {entries : Entries κ α} {key : κ} {value : α} {e : κ × α} (h : e ∈ put same entries key value) :
    e.2 = value ∨ ∃ k, (k, e.2) ∈ entries := by
  induction entries with
  | nil =>
    rw [List.mem_singleton.mp h]
    exact Or.inl rfl
  | cons entry rest ih =>
    obtain ⟨k, v⟩ := entry
    rw [put] at h
    split at h
    · rcases List.mem_cons.mp h with rfl | h
      · exact Or.inl rfl
      · exact Or.inr ⟨e.1, List.mem_cons_of_mem _ h⟩
    · rcases List.mem_cons.mp h with rfl | h
      · exact Or.inr ⟨k, List.mem_cons_self⟩
      · rcases ih h with new | ⟨l, hl⟩
        · exact Or.inl new
        · exact Or.inr ⟨l, List.mem_cons_of_mem _ hl⟩

/-- The values of entries that came in one after another are values that came in. -/
theorem exists_of_mem_ofList {pairs : List (κ × α)} {e : κ × α} (h : e ∈ ofList same pairs) : ∃ k, (k, e.2) ∈ pairs := by
  suffices all : ∀ entries : Entries κ α, e ∈ pairs.foldl (fun sofar pair => put same sofar pair.1 pair.2) entries →
      (∃ k, (k, e.2) ∈ entries) ∨ ∃ k, (k, e.2) ∈ pairs from
    (all [] h).resolve_left (not_exists.mpr fun _ => List.not_mem_nil)
  clear h
  induction pairs with
  | nil => exact fun entries h => Or.inl ⟨e.1, h⟩
  | cons pair rest ih =>
    intro entries h
    rcases ih _ h with ⟨k, hk⟩ | ⟨k, hk⟩
    · rcases exists_of_mem_put hk with same | later
      · exact Or.inr ⟨pair.1, List.mem_cons.mpr (Or.inl (Prod.ext rfl same))⟩
      · exact Or.inl later
    · exact Or.inr ⟨k, List.mem_cons_of_mem _ hk⟩

theorem append_singleton_eq_iff {a : κ} {before after : List κ} : keys ++ [a] = before ++ k :: after ↔
    (after = [] ∧ keys = before ∧ a = k) ∨ ∃ rest, after = rest ++ [a] ∧ keys = before ++ k :: rest := by
  constructor
  · intro h
    rcases List.eq_nil_or_concat after with rfl | ⟨rest, b, rfl⟩
    · obtain ⟨rfl, last⟩ := List.append_inj' h rfl
      exact Or.inl ⟨rfl, rfl, (List.cons.inj last).1⟩
    · rw [List.concat_eq_append, ← List.cons_append, ← List.append_assoc] at h
      obtain ⟨rfl, last⟩ := List.append_inj' h rfl
      rw [List.concat_eq_append, (List.cons.inj last).1]
      exact Or.inr ⟨rest, rfl, rfl⟩
  · rintro (⟨rfl, rfl, rfl⟩ | ⟨rest, rfl, rfl⟩)
    · rfl
    · rw [List.append_assoc, List.cons_append]

/-- A kept key has a place at which it is not absorbed. -/
theorem mem_kept : k ∈ kept same keys ↔ ∃ before after, keys = before ++ k :: after ∧ ¬ Absorbed same before k := by
  induction keys using List.reverseRecOn with
  | nil =>
    refine ⟨fun h => absurd h List.not_mem_nil, ?_⟩
    rintro ⟨before, after, h, -⟩
    exact absurd h.symm (List.append_ne_nil_of_right_ne_nil _ (List.cons_ne_nil _ _))
  | append_singleton keys a ih =>
    have earlier : k ∈ kept same keys ↔ ∃ before rest, keys = before ++ k :: rest ∧ ¬ Absorbed same before k := ih
    simp only [append_singleton_eq_iff]
    by_cases absorbed : Absorbed same keys a
    · rw [kept_of_absorbed absorbed, earlier]
      constructor
      · rintro ⟨before, rest, h, new⟩
        exact ⟨before, rest ++ [a], Or.inr ⟨rest, rfl, h⟩, new⟩
      · rintro ⟨before, after, ⟨rfl, rfl, rfl⟩ | ⟨rest, rfl, h⟩, new⟩
        · exact absurd absorbed new
        · exact ⟨before, rest, h, new⟩
    · rw [kept_of_not_absorbed absorbed, List.mem_append, List.mem_singleton, earlier]
      constructor
      · rintro (⟨before, rest, h, new⟩ | rfl)
        · exact ⟨before, rest ++ [a], Or.inr ⟨rest, rfl, h⟩, new⟩
        · exact ⟨keys, [], Or.inl ⟨rfl, rfl, rfl⟩, absorbed⟩
      · rintro ⟨before, after, ⟨rfl, rfl, rfl⟩ | ⟨rest, rfl, h⟩, new⟩
        · exact Or.inr rfl
        · exact Or.inl ⟨before, rest, h, new⟩

/-- What holds of any two kept keys, the earlier one first. -/
theorem pairwise_kept {R : κ → κ → Prop} : (kept same keys).Pairwise R ↔
    ∀ before k between l after, keys = before ++ k :: (between ++ l :: after) → ¬ Absorbed same before k →
      ¬ Absorbed same (before ++ k :: between) l → R k l := by
  induction keys using List.reverseRecOn with
  | nil =>
    refine ⟨fun _ before k between l after h => ?_, fun _ => List.Pairwise.nil⟩
    exact absurd h.symm (List.append_ne_nil_of_right_ne_nil _ (List.cons_ne_nil _ _))
  | append_singleton keys a ih =>
    -- The later key is the last one, or both come before it.
    have split : ∀ {before between after : List κ} {k l : κ},
        keys ++ [a] = before ++ k :: (between ++ l :: after) ↔
          (after = [] ∧ keys = before ++ k :: between ∧ a = l) ∨
            ∃ rest, after = rest ++ [a] ∧ keys = before ++ k :: (between ++ l :: rest) := by
      intro before between after k l
      rw [← List.cons_append, ← List.append_assoc, append_singleton_eq_iff]
      simp only [List.append_assoc, List.cons_append]
    simp only [split]
    by_cases absorbed : Absorbed same keys a
    · rw [kept_of_absorbed absorbed, ih]
      constructor
      · rintro h before k between l after (⟨rfl, rfl, rfl⟩ | ⟨rest, rfl, rfl⟩) first second
        · exact absurd absorbed second
        · exact h before k between l rest rfl first second
      · exact fun h before k between l rest hkeys => h before k between l (rest ++ [a]) (Or.inr ⟨rest, rfl, hkeys⟩)
    · rw [kept_of_not_absorbed absorbed, List.pairwise_append, ih]
      constructor
      · rintro ⟨h, -, last⟩ before k between l after (⟨rfl, rfl, rfl⟩ | ⟨rest, rfl, rfl⟩) first second
        · exact last k (mem_kept.mpr ⟨before, between, rfl, first⟩) a (List.mem_singleton_self a)
        · exact h before k between l rest rfl first second
      · intro h
        refine ⟨fun before k between l rest hkeys =>
          h before k between l (rest ++ [a]) (Or.inr ⟨rest, rfl, hkeys⟩), List.pairwise_singleton R a, ?_⟩
        intro k hk l hl
        obtain rfl := List.mem_singleton.mp hl
        obtain ⟨before, between, rfl, first⟩ := mem_kept.mp hk
        exact h before k between l [] (Or.inl ⟨rfl, rfl, rfl⟩) first absorbed

/-- The same of keys that are given by other things. -/
theorem pairwise_kept_map {β : Type} {f : β → κ} {l : List β} {R : κ → κ → Prop} :
    (kept same (l.map f)).Pairwise R ↔
      ∀ before a between b after, l = before ++ a :: (between ++ b :: after) → ¬ Absorbed same (before.map f) (f a) →
        ¬ Absorbed same ((before ++ a :: between).map f) (f b) → R (f a) (f b) := by
  rw [pairwise_kept]
  constructor
  · intro h before a between b after hl first second
    refine h (before.map f) (f a) (between.map f) (f b) (after.map f) ?_ first ?_
    · rw [hl]
      simp only [List.map_append, List.map_cons]
    · rwa [List.map_append, List.map_cons] at second
  · intro h before k between m after hl first second
    obtain ⟨before, l₁, rfl, rfl, h₁⟩ := List.map_eq_append_iff.mp hl
    obtain ⟨a, l₂, rfl, rfl, h₂⟩ := List.map_eq_cons_iff.mp h₁
    obtain ⟨between, l₃, rfl, rfl, h₃⟩ := List.map_eq_append_iff.mp h₂
    obtain ⟨b, after, rfl, rfl, rfl⟩ := List.map_eq_cons_iff.mp h₃
    refine h before a between b after rfl first ?_
    rwa [List.map_append, List.map_cons]

end Kept

section Distinct
variable {κ α : Type} [BEq κ] [LawfulBEq κ]

/-- Where no key comes twice, a key has the value of its entry. -/
theorem get?_eq_some_iff {entries : Entries κ α} (h : (keys entries).Nodup) {key : κ} {value : α} :
    get? entries key = some value ↔ (key, value) ∈ entries := by
  induction entries with
  | nil => exact ⟨nofun, nofun⟩
  | cons entry rest ih =>
    obtain ⟨k, v⟩ := entry
    obtain ⟨new, rest_nodup⟩ := List.nodup_cons.mp h
    have later : get? rest key = some value ↔ (key, value) ∈ rest := ih rest_nodup
    simp only [get?] at later ⊢
    by_cases same : k = key
    · subst same
      have absent : (k, value) ∉ rest := fun hmem => new (List.mem_map.mpr ⟨(k, value), hmem, rfl⟩)
      simp [absent, eq_comm]
    · rw [List.find?_cons_of_neg (by simpa using same), later]
      simp [Ne.symm same]

end Distinct

end LocaleLint.Entries
