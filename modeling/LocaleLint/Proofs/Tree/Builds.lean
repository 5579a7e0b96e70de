import LocaleLint.Tree.Build

/-! # Which tree is built

A loaded value becomes a tree of the same shape: the texts of its keys, none of them twice in one mapping, and the
texts of what is no mapping. The place that the value stands at only shows in faults. -/

namespace LocaleLint

namespace Value

mutual

/-- The tree that a loaded value becomes. -/
inductive Builds : Value → Tree → Prop
  | leaf {v : Value} {s : List Char} (other : ∀ entries, v ≠ .mapping entries) (text : v.scalarText = .ok s) :
    Builds v (.leaf (String.ofList s))
  | mapping {entries : List (Value × Value)} {m : Mapping} (each : BuildsEntries entries m)
    (distinct : m.keys.Nodup) : Builds (.mapping entries) (.mapping m)

/-- The entries that loaded entries become one by one. -/
inductive BuildsEntries : List (Value × Value) → Mapping → Prop
  | nil : BuildsEntries [] []
  | cons {k v : Value} {s : List Char} {tree : Tree} {entries : List (Value × Value)} {m : Mapping}
    (key : k.scalarText = .ok s) (value : Builds v tree) (rest : BuildsEntries entries m) :
    BuildsEntries ((k, v) :: entries) ((String.ofList s, tree) :: m)

end

end Value

namespace Tree
open Value

theorem ofValue_of_not_mapping {place : String} {v : Value} (other : ∀ entries, v ≠ .mapping entries) :
    ofValue place v = match v.scalarText with
      | .ok s => .ok (.leaf (String.ofList s))
      | .error e => .error (.coercion e) := by
  cases v with
  | mapping entries => exact absurd rfl (other entries)
  | _ => rfl

theorem ofValue_mapping_eq_ok {place : String} {entries : List (Value × Value)} {tree : Tree} :
    ofValue place (.mapping entries) = .ok tree ↔ ∃ m, ofEntries place [] entries = .ok m ∧ tree = .mapping m := by
  rw [ofValue]
  cases ofEntries place [] entries with
  | error e => exact ⟨nofun, nofun⟩
  | ok m =>
    constructor
    · rintro ⟨⟩
      exact ⟨m, rfl, rfl⟩
    · rintro ⟨_, ⟨⟩, rfl⟩
      rfl

/-- What building makes of the first entry. -/
theorem ofEntries_cons_eq_ok {parent : String} {taken : List String} {k v : Value} {rest : List (Value × Value)}
    {m : Mapping} : ofEntries parent taken ((k, v) :: rest) = .ok m ↔
      ∃ s tree others, k.scalarText = .ok s ∧ String.ofList s ∉ taken ∧
        ofValue (joinKey parent (String.ofList s)) v = .ok tree ∧
        ofEntries parent (String.ofList s :: taken) rest = .ok others ∧ m = (String.ofList s, tree) :: others := by
  rw [ofEntries]
  cases hk : k.scalarText with
  | error e => exact ⟨nofun, nofun⟩
  | ok s =>
    by_cases repeats : String.ofList s ∈ taken
    · simp [repeats]
    · cases hv : ofValue (joinKey parent (String.ofList s)) v with
      | error e => simp [repeats, hv]
      | ok tree =>
        cases hrest : ofEntries parent (String.ofList s :: taken) rest with
        | error e => simp [repeats, hv, hrest]
        | ok others => simp [repeats, hv, hrest, eq_comm]

theorem builds_of_not_mapping {v : Value} {tree : Tree} (other : ∀ entries, v ≠ .mapping entries) :
    v.Builds tree ↔ ∃ s, v.scalarText = .ok s ∧ tree = .leaf (String.ofList s) := by
  constructor
  · rintro (⟨-, text⟩ | ⟨each, -⟩)
    · exact ⟨_, text, rfl⟩
    · exact absurd rfl (other _)
  · rintro ⟨s, text, rfl⟩
    exact .leaf other text

theorem ofValue_leaf_eq_ok {place : String} {v : Value} {tree : Tree} (other : ∀ entries, v ≠ .mapping entries) :
    ofValue place v = .ok tree ↔ v.Builds tree := by
  rw [builds_of_not_mapping other, ofValue_of_not_mapping other]
  cases v.scalarText with
  | error e => exact ⟨nofun, nofun⟩
  | ok s =>
    constructor
    · rintro ⟨⟩
      exact ⟨s, rfl, rfl⟩
    · rintro ⟨_, ⟨⟩, rfl⟩
      rfl

theorem buildsEntries_cons {k v : Value} {rest : List (Value × Value)} {m : Mapping} :
    BuildsEntries ((k, v) :: rest) m ↔ ∃ s tree others, k.scalarText = .ok s ∧ v.Builds tree ∧
      BuildsEntries rest others ∧ m = (String.ofList s, tree) :: others := by
  constructor
  · rintro ⟨⟩
    exact ⟨_, _, _, ‹_›, ‹_›, ‹_›, rfl⟩
  · rintro ⟨s, tree, others, key, value, rest, rfl⟩
    exact .cons key value rest

theorem exists_builds_of_mem {entries : List (Value × Value)} {m : Mapping} {e : Value × Value}
    (each : BuildsEntries entries m) (member : e ∈ entries) : ∃ tree, e.2.Builds tree := by
  induction entries generalizing m with
  | nil => cases member
  | cons first rest ih =>
    obtain ⟨s, tree, others, -, value, each, -⟩ := buildsEntries_cons.mp each
    rcases List.mem_cons.mp member with rfl | member
    · exact ⟨tree, value⟩
    · exact ih each member

mutual

/-- Building a tree of a value gives the tree that it becomes, at any place, and fails if there is none. -/
theorem ofValue_eq_ok_iff {place : String} {v : Value} {tree : Tree} : ofValue place v = .ok tree ↔ v.Builds tree := by
  match v with
  | .mapping entries =>
    rw [ofValue_mapping_eq_ok]
    constructor
    · rintro ⟨m, hm, rfl⟩
      obtain ⟨each, distinct, -⟩ := ofEntries_eq_ok_iff.mp hm
      exact .mapping each distinct
    · rintro (⟨other, -⟩ | ⟨each, distinct⟩)
      · exact absurd rfl (other entries)
      · exact ⟨_, ofEntries_eq_ok_iff.mpr ⟨each, distinct, fun _ _ => List.not_mem_nil⟩, rfl⟩
  | .null | .bool _ | .int _ | .float _ | .nan _ | .text _ | .bytes _ | .date _ | .moment _ | .list _ | .tuple _
  | .set _ | .again _ | .endless => exact ofValue_leaf_eq_ok fun _ => nofun

theorem ofEntries_eq_ok_iff {parent : String} {taken : List String} {entries : List (Value × Value)} {m : Mapping} :
    ofEntries parent taken entries = .ok m ↔
      BuildsEntries entries m ∧ m.keys.Nodup ∧ ∀ key ∈ m.keys, key ∉ taken := by
  match entries with
  | [] =>
    rw [ofEntries]
    constructor
    · rintro ⟨⟩
      exact ⟨.nil, List.nodup_nil, List.forall_mem_nil _⟩
    · rintro ⟨⟨⟩, -⟩
      rfl
  | (k, v) :: rest =>
    rw [ofEntries_cons_eq_ok, buildsEntries_cons]
    simp only [ofValue_eq_ok_iff, ofEntries_eq_ok_iff]
    constructor
    · rintro ⟨s, tree, others, key, new, value, ⟨each, distinct, apart⟩, rfl⟩
      refine ⟨⟨s, tree, others, key, value, each, rfl⟩, ?_, ?_⟩
      · exact List.nodup_cons.mpr ⟨fun again => apart _ again List.mem_cons_self, distinct⟩
      · exact List.forall_mem_cons.mpr ⟨new, fun key hkey taken => apart key hkey (List.mem_cons_of_mem _ taken)⟩
    · rintro ⟨⟨s, tree, others, key, value, each, rfl⟩, distinct, apart⟩
      obtain ⟨once, distinct⟩ := List.nodup_cons.mp distinct
      obtain ⟨new, apart⟩ := List.forall_mem_cons.mp apart
      refine ⟨s, tree, others, key, new, value, ⟨each, distinct, fun key hkey => ?_⟩, rfl⟩
      exact List.not_mem_cons_of_ne_of_not_mem (fun same => once (same ▸ hkey)) (apart key hkey)

end

theorem build_eq_ok_iff {entries : List (Value × Value)} {parent : String} {m : Mapping} :
    build entries parent = .ok m ↔ (Value.mapping entries).Builds (.mapping m) := by
  rw [← @ofValue_eq_ok_iff parent, ofValue_mapping_eq_ok, build]
  simp

end Tree

/-- A loaded value becomes one tree. -/
theorem Value.Builds.unique {v : Value} {tree other : Tree} (h : v.Builds tree) (h' : v.Builds other) : tree = other :=
  Except.ok.inj ((Tree.ofValue_eq_ok_iff.mpr h).symm.trans ((@Tree.ofValue_eq_ok_iff "" _ _).mpr h'))

end LocaleLint
