import LocaleLint.Proofs.Entries
import LocaleLint.Proofs.Locale.Escape
import LocaleLint.Proofs.Value.Within
import LocaleLint.Proofs.Yaml.Built
import LocaleLint.Proofs.Yaml.Reading

/-! # Which documents give a tree

Two written keys of one text are a fault of the document only if both of them are keys of the mapping that is
built. A key that is the same as an earlier one is absorbed before anything looks at texts, and so is the value
that it replaces. -/

namespace LocaleLint

open Value

/-! ### Values of entries -/

theorem Value.ne_endless_of_legible {v : Value} (legible : (∃ entries, v = .mapping entries) ∨ v.HasText) : v ≠ .endless := by
  rintro rfl
  rcases legible with ⟨entries, h⟩ | ⟨s, h⟩
  · cases h
  · cases h

/-! ### Mappings within a document -/

namespace Yaml

/-- The containers that are mappings and are reached through values of mappings. -/
inductive Document.Within (d : Document) : Ref → Nat → Prop
  | here {number : Nat} {entries : Entries Value Ref} (holds : d.cells[number]? = some (.mapping entries)) :
      Within d (.container number) number
  | deeper {number inner : Nat} {entries : Entries Value Ref} {e : Value × Ref}
      (holds : d.cells[number]? = some (.mapping entries)) (member : e ∈ entries) (within : Within d e.2 inner) :
      Within d (.container number) inner

/-- The number of a container. -/
def Ref.number? : Ref → Option Nat
  | .container number => some number
  | .scalar _ => none

/-- The container that is reached by the places of entries, if there are only mappings on the way. -/
def Document.follow (d : Document) (ref : Ref) : List Nat → Option Nat
  | [] =>
    match ref with
    | .container number =>
      match d.cells[number]? with
      | some (.mapping _) => some number
      | _ => none
    | .scalar _ => none
  | place :: rest =>
    match ref with
    | .container number =>
      match d.cells[number]? with
      | some (.mapping entries) =>
        match entries[place]? with
        | some e => d.follow e.2 rest
        | none => none
      | _ => none
    | .scalar _ => none

/-- Whether a value of a document is a container or a scalar that is no mapping. -/
def Ref.IsPlain (ref : Ref) : Prop := ∀ v, ref = .scalar v → ∀ entries, v ≠ .mapping entries

/-- Whether no two keys of a mapping have the same text. -/
def Distinct (keys : List Value) : Prop := keys.Pairwise fun k l => ¬ SameText k l

namespace Document
variable {d : Document} {s : Cells} {ref : Ref} {closed : List Nat}

theorem within_mapping {number : Nat} {entries : Entries Value Ref} (holds : d.cells[number]? = some (.mapping entries))
    {P : Nat → Prop} : (∀ inner, d.Within (.container number) inner → P inner) ↔
      P number ∧ ∀ e ∈ entries, ∀ inner, d.Within e.2 inner → P inner := by
  constructor
  · exact fun h => ⟨h number (.here holds), fun e he inner within => h inner (.deeper holds he within)⟩
  · rintro ⟨own, members⟩ inner within
    cases within with
    | here => exact own
    | deeper holds' member within =>
      cases holds.symm.trans holds'
      exact members _ member inner within

theorem Within.exists_mapping {number : Nat} (within : d.Within ref number) :
    ∃ entries, d.cells[number]? = some (.mapping entries) := by
  induction within with
  | here holds => exact ⟨_, holds⟩
  | deeper _ _ _ ih => exact ih

theorem within_of_follow {path : List Nat} {number : Nat} (h : d.follow ref path = some number) : d.Within ref number := by
  induction path generalizing ref with
  | nil =>
    cases ref with
    | scalar v => cases h
    | container n =>
      rw [follow] at h
      split at h
      · rename_i holds
        cases h
        exact .here holds
      · cases h
  | cons place rest ih =>
    cases ref with
    | scalar v => cases h
    | container n =>
      rw [follow] at h
      split at h
      · rename_i holds
        split at h
        · rename_i e he
          exact .deeper holds (List.mem_of_getElem? he) (ih h)
        · cases h
      · cases h

/-- Whether all containers within a value of a document have keys of different texts. -/
def AllDistinct (d : Document) (ref : Ref) : Prop :=
  ∀ number, d.Within ref number → ∀ entries, d.cells[number]? = some (.mapping entries) → Distinct (Entries.keys entries)

theorem allDistinct_scalar (v : Value) : d.AllDistinct (.scalar v) := by
  intro number within
  cases within

theorem allDistinct_of_not_mapping {number : Nat} (other : ∀ entries, d.cells[number]? ≠ some (.mapping entries)) :
    d.AllDistinct (.container number) := by
  intro inner within
  cases within with
  | here holds => exact absurd holds (other _)
  | deeper holds _ _ => exact absurd holds (other _)

theorem allDistinct_mapping {number : Nat} {entries : Entries Value Ref}
    (holds : d.cells[number]? = some (.mapping entries)) :
    d.AllDistinct (.container number) ↔ Distinct (Entries.keys entries) ∧ ∀ e ∈ entries, d.AllDistinct e.2 := by
  rw [AllDistinct, within_mapping holds]
  refine and_congr_left fun _ => ⟨fun own => own entries holds, fun own entries' holds' => ?_⟩
  cases holds.symm.trans holds'
  exact own

/-- The keys of a mapping that is read repeat no text if and only if the mappings of the document within it do not, where
    this holds of its values. -/
theorem new_mapping_iff {number : Nat} {entries : Entries Value Ref} (holds : d.cells[number]? = some (.mapping entries))
    (legible : ∀ p ∈ (Value.mapping (entries.map fun e => (e.1, reading s closed e.2))).slots, p.Legible)
    (values : ∀ e ∈ entries, reading s closed e.2 ≠ .endless → (∀ p ∈ (reading s closed e.2).slots, p.Legible) →
      ((∀ p ∈ (reading s closed e.2).slots, ¬ p.Repeats) ↔ d.AllDistinct e.2)) :
    (∀ p ∈ (Value.mapping (entries.map fun e => (e.1, reading s closed e.2))).slots, ¬ p.Repeats) ↔
      d.AllDistinct (.container number) := by
  have keys : (entries.map fun e => (e.1, reading s closed e.2)).map (·.1) = Entries.keys entries := by
    rw [List.map_map]
    rfl
  rw [Tree.new_slots, keys, allDistinct_mapping holds, List.forall_mem_map]
  refine and_congr_right fun _ => forall₂_congr fun e he => ?_
  obtain ⟨⟨-, text⟩, below⟩ := Tree.legible_slots.mp legible _ (List.mem_map_of_mem he)
  exact values e he (ne_endless_of_legible text) below

/-- Where everything that is read has a text, the keys that are read repeat no text if and only if the mappings of the
    document do not. -/
theorem new_iff_allDistinct (settled : s.Settled) (same : s.cells = d.cells)
    (plain : ∀ {number : Nat} {entries}, d.cells[number]? = some (.mapping entries) → ∀ e ∈ entries, e.2.IsPlain)
    {v : Value} (hv : reading s closed ref = v) (hplain : ref.IsPlain) (present : v ≠ .endless)
    (legible : ∀ p ∈ v.slots, p.Legible) : (∀ p ∈ v.slots, ¬ p.Repeats) ↔ d.AllDistinct ref := by
  -- Containers may hold each other, so it is the value that is read of them that gets smaller.
  induction hsize : sizeOf v using Nat.strong_induction_on generalizing v ref closed with
  | _ size ih =>
  cases ref with
  | scalar w =>
    rw [reading] at hv
    subst hv
    rw [Tree.slots_of_not_mapping (hplain w rfl)]
    exact iff_of_true (List.forall_mem_nil _) (allDistinct_scalar w)
  | container number =>
    by_cases mapping : ∃ entries, s.cell number = .mapping entries
    · obtain ⟨entries, hcell⟩ := mapping
      have holds : d.cells[number]? = some (.mapping entries) := same ▸ Cells.getElem?_of_cell hcell
      obtain ⟨closed', -, hread⟩ := (Cells.reading_mapping closed settled hcell).resolve_left fun h => present (hv.symm.trans h.2)
      obtain rfl := hread.symm.trans hv
      refine new_mapping_iff holds legible fun e he present' below => ?_
      have member := List.mem_map_of_mem (f := fun e => (e.1, reading s closed' e.2)) he
      exact ih _ (hsize ▸ sizeOf_lt_of_mem member) rfl (plain holds e he) present' below rfl
    · have other : ∀ entries, s.cell number ≠ .mapping entries := fun entries h => mapping ⟨entries, h⟩
      rw [Tree.slots_of_not_mapping (hv ▸ Cells.not_mapping_of_reading settled other)]
      exact iff_of_true (List.forall_mem_nil _)
        (allDistinct_of_not_mapping fun entries h => other entries (Cells.cell_of_getElem? (same ▸ h)))

/-- The same of the value of a document. -/
theorem new_value_iff_allDistinct
    (plain : ∀ {number : Nat} {entries}, d.cells[number]? = some (.mapping entries) → ∀ e ∈ entries, e.2.IsPlain)
    (hplain : d.root.IsPlain) (present : d.value ≠ .endless) (legible : ∀ p ∈ d.value.slots, p.Legible) :
    (∀ p ∈ d.value.slots, ¬ p.Repeats) ↔ d.AllDistinct d.root := by
  obtain ⟨settled, cells⟩ := Cells.Settled.ofArray d.cells
  by_cases mapping : ∃ number entries, d.root = .container number ∧ d.cells[number]? = some (.mapping entries)
  · obtain ⟨number, entries, hroot, holds⟩ := mapping
    rw [value_of_mapping hroot holds] at legible ⊢
    rw [hroot]
    exact new_mapping_iff holds legible fun e he => new_iff_allDistinct settled cells plain rfl (plain holds e he)
  · have hv := value_of_other fun number hroot entries holds => mapping ⟨number, entries, hroot, holds⟩
    exact new_iff_allDistinct settled cells plain hv.symm hplain present legible

end Document

/-! ### Written documents -/

/-- How a text is loaded: the graph that it writes, and what is known when the graph has been built. -/
structure Loading (content : List Char) where
  graph : Graph
  root : NodeId
  ref : Ref
  filling : Filling
  chars : content.all isDocumentChar = true
  rooted : Rooted.ofTokens (Tokens.scan content none) = .ok ⟨graph, some root⟩
  filled : Filling.ofGraph graph root = .ok (ref, filling)

namespace Loading
variable {content : List Char} {id : NodeId} (l : Loading content)

/-- How a text is loaded, if it is. -/
def of? (content : List Char) : Option (Loading content) :=
  if chars : content.all isDocumentChar = true then
    match rooted : Rooted.ofTokens (Tokens.scan content none) with
    | .ok ⟨graph, some root⟩ =>
      match filled : Filling.ofGraph graph root with
      | .ok (ref, filling) => some ⟨graph, root, ref, filling, chars, rooted, filled⟩
      | .error _ => none
    | _ => none
  else none

def document : Document := ⟨l.filling.cells, l.ref⟩

/-- The value that is read of the document. -/
def value : Value := l.document.value

/-- The value of the key of an entry. -/
def key (entry : NodeId × NodeId) : Value := l.filling.keyOf entry.1

/-- The entries that a mapping writes itself. -/
def own (id : NodeId) : List (NodeId × NodeId) := l.graph.own (l.graph.entries id)

/-- The entries of a mapping after merging. -/
def entries (id : NodeId) : List (NodeId × NodeId) := l.filling.graph.entries id

/-- Whether a node is a mapping that is the document or is reached from it through values of mappings. -/
def Reaches (id : NodeId) : Prop :=
  ∃ number, l.document.Within l.ref number ∧ l.filling.refOf? id = some (.container number)

/-- Whether an entry after some others has no place of its own, because its key is the same as one before. -/
def IsAbsorbed (earlier : List (NodeId × NodeId)) (entry : NodeId × NodeId) : Prop :=
  Entries.Absorbed sameKey (earlier.map l.key) (l.key entry)

/-- Whether of any two entries of a mapping that have keys of the same text one is absorbed. -/
def Collapses (id : NodeId) : Prop :=
  ∀ before e between f after, l.entries id = before ++ e :: (between ++ f :: after) →
    SameText (l.key e) (l.key f) → l.IsAbsorbed before e ∨ l.IsAbsorbed (before ++ e :: between) f

theorem built : l.filling.Built l.graph l.root l.ref := Filling.built l.filled

theorem load_eq : load content = .ok l.document := by
  rw [load, if_pos l.chars, loadCut, l.rooted]
  simp only [Document.ofGraph_eq, l.filled]
  rfl

theorem exists_of_load {d : Document} (h : load content = .ok d) :
    d = ⟨#[], .scalar .null⟩ ∨ ∃ l : Loading content, d = l.document := by
  rw [load] at h
  split at h
  · rename_i chars
    rw [loadCut] at h
    split at h
    · cases h
    · exact Or.inl (Except.ok.inj h).symm
    · rename_i graph root rooted
      rw [Document.ofGraph_eq] at h
      cases hfilled : Filling.ofGraph graph root with
      | error e =>
        rw [hfilled] at h
        cases h
      | ok p =>
        rw [hfilled] at h
        exact Or.inr ⟨⟨graph, root, p.1, p.2, chars, rooted, hfilled⟩, (Except.ok.inj h).symm⟩
  · cases h

/-- A container that is a mapping holds what its node writes. -/
theorem holds_of_container {number : Nat} {entries : Entries Value Ref} (hid : l.filling.refOf? id = some (.container number))
    (hcell : l.document.cells[number]? = some (.mapping entries)) : l.filling.Holds id number := by
  obtain ⟨other, hother, htag⟩ := l.built.sound.origin hcell
  obtain rfl := l.built.sound.injective hid hother
  refine (l.built.sound.filled hid htag).resolve_left fun waits => ?_
  rw [l.built.full] at waits
  cases waits

theorem reaches_cases (reached : l.Reaches id) :
    ∃ number, l.document.Within l.ref number ∧ l.filling.Holds id number := by
  obtain ⟨number, within, hid⟩ := reached
  obtain ⟨entries, hcell⟩ := within.exists_mapping
  exact ⟨number, within, l.holds_of_container hid hcell⟩

/-- The entries that a mapping writes itself come last. -/
theorem own_suffix (reached : l.Reaches id) : l.own id <:+ l.entries id := by
  obtain ⟨number, -, holds⟩ := l.reaches_cases reached
  have suffix := l.built.graph.own_entries id
  rw [← l.built.graph.own_eq (l.filling.graph.entries id), Graph.own_of_plain holds.plain] at suffix
  exact suffix

theorem isPlain_refOf (id : NodeId) : (l.filling.refOf id).IsPlain := by
  intro v hv
  cases hid : l.filling.refOf? id with
  | none =>
    rw [Filling.refOf, hid] at hv
    cases hv
    intro entries h
    cases h
  | some ref =>
    rw [Filling.refOf, hid] at hv
    obtain rfl : ref = .scalar v := hv
    obtain ⟨text, htext, -⟩ := l.built.sound.scalar hid
    exact not_mapping_of_scalarValue htext

theorem isPlain_of_mem {number : Nat} {entries : Entries Value Ref}
    (hcell : l.document.cells[number]? = some (.mapping entries)) : ∀ e ∈ entries, e.2.IsPlain := by
  obtain ⟨id, hid, -⟩ := l.built.sound.origin hcell
  have holds := (l.holds_of_container hid hcell).cell
  cases holds.symm.trans hcell
  intro e he
  obtain ⟨k, hk⟩ := Entries.exists_of_mem_ofList he
  obtain ⟨entry, -, hentry⟩ := List.mem_map.mp hk
  rw [← (Prod.mk.inj hentry).2]
  exact l.isPlain_refOf entry.2

theorem isPlain_root : l.ref.IsPlain := l.built.root.2 ▸ l.isPlain_refOf l.root

/-- The keys of a mapping that is built have different texts if and only if its written entries collapse. -/
theorem distinct_iff {number : Nat} {entries : Entries Value Ref} (holds : l.filling.Holds id number)
    (hcell : l.document.cells[number]? = some (.mapping entries)) : Distinct (Entries.keys entries) ↔ l.Collapses id := by
  cases holds.cell.symm.trans hcell
  have keys : (l.filling.pairsOf id).map (·.1) = (l.entries id).map l.key := List.map_map
  rw [Distinct, Entries.keys_ofList, keys, Entries.pairwise_kept_map, Collapses]
  constructor
  · intro h before e between f after hentries same
    by_contra absorbed
    obtain ⟨first, second⟩ := not_or.mp absorbed
    exact h before e between f after hentries first second same
  · intro h before e between f after hentries first second same
    exact (h before e between f after hentries same).elim first second

theorem allDistinct_iff : l.document.AllDistinct l.ref ↔ ∀ id, l.Reaches id → l.Collapses id := by
  constructor
  · intro h id reached
    obtain ⟨number, within, holds⟩ := l.reaches_cases reached
    exact (l.distinct_iff holds holds.cell).mp (h number within _ holds.cell)
  · intro h number within entries hcell
    obtain ⟨id, hid, -⟩ := l.built.sound.origin hcell
    exact (l.distinct_iff (l.holds_of_container hid hcell) hcell).mpr (h id ⟨number, within, hid⟩)

/-- Where everything that is read has a text, no key is read twice if and only if all mappings collapse. -/
theorem new_iff_collapses (present : l.value ≠ .endless) (legible : ∀ p ∈ l.value.slots, p.Legible) :
    (∀ p ∈ l.value.slots, ¬ p.Repeats) ↔ ∀ id, l.Reaches id → l.Collapses id := by
  rw [← allDistinct_iff]
  exact Document.new_value_iff_allDistinct l.isPlain_of_mem l.isPlain_root present legible

end Loading

end Yaml

/-! ### Locales -/

/-- Whether a value has the form of a locale, and everything that is read of it has a text. -/
structure Value.IsLocale (v : Value) : Prop where
  form : ∃ locale translations, v = .mapping [(locale, .mapping translations)]
  legible : ∀ p ∈ v.slots, p.Legible

namespace Locale
variable {filename : String}

theorem ofValue_translations_isOk {locale : Value} {translations : List (Value × Value)} :
    (∃ found, ofValue filename (.mapping [(locale, .mapping translations)]) = .ok found) ↔
      locale.HasText ∧ ∀ p ∈ (Value.mapping translations).slots, p.Sound := by
  rw [← textOf_isOk, ← Tree.firstFault?_eq_none, ← Tree.build_isOk, ofValue]
  cases Tree.build translations "" with
  | error e =>
    constructor
    · rintro ⟨found, h⟩
      cases e <;> cases h
    · rintro ⟨-, tree, h⟩
      cases h
  | ok tree =>
    cases textOf locale with
    | error e =>
      constructor
      · rintro ⟨found, h⟩
        cases h
      · rintro ⟨⟨name, h⟩, -⟩
        cases h
    | ok name => exact ⟨fun _ => ⟨⟨name, rfl⟩, tree, rfl⟩, fun _ => ⟨_, rfl⟩⟩

/-- A value gives a locale if it has the form of one and no two keys of a mapping have the same text. -/
theorem ofValue_isOk_iff {v : Value} : (∃ found, ofValue filename v = .ok found) ↔
    v.IsLocale ∧ ∀ p ∈ v.slots, ¬ p.Repeats := by
  by_cases form : ∃ locale translations, v = .mapping [(locale, .mapping translations)]
  · obtain ⟨locale, translations, rfl⟩ := form
    have isLocale : (Value.mapping [(locale, .mapping translations)]).IsLocale ↔
        ∀ p ∈ (Value.mapping [(locale, .mapping translations)]).slots, p.Legible :=
      ⟨fun h => h.legible, fun h => ⟨⟨locale, translations, rfl⟩, h⟩⟩
    rw [ofValue_translations_isOk, isLocale, Tree.legible_slots, Tree.new_slots]
    simp only [List.forall_mem_singleton]
    constructor
    · rintro ⟨text, sound⟩
      exact ⟨⟨⟨text, Or.inl ⟨translations, rfl⟩⟩, fun p hp => (sound p hp).toLegible⟩, List.pairwise_singleton _ _,
        fun p hp => (sound p hp).new⟩
    · rintro ⟨⟨⟨text, -⟩, legible⟩, -, new⟩
      exact ⟨text, fun p hp => ⟨legible p hp, new p hp⟩⟩
  · exact ⟨fun ⟨_, h⟩ => absurd (form_of_ofValue h) form, fun h => absurd h.1.form form⟩

section Parse
variable {content : List Char} (l : Yaml.Loading content)

theorem parse_eq : parse filename content = ofValue filename l.value := by
  rw [parse, l.load_eq]
  rfl

theorem parse_isOk : (∃ found, parse filename content = .ok found) ↔
    l.value.IsLocale ∧ ∀ id, l.Reaches id → l.Collapses id := by
  rw [parse_eq l, ofValue_isOk_iff]
  refine and_congr_right fun locale => l.new_iff_collapses ?_ locale.legible
  obtain ⟨name, translations, h⟩ := locale.form
  rw [h]
  exact nofun

theorem exists_loading (h : ∃ found, parse filename content = .ok found) : Nonempty (Yaml.Loading content) := by
  obtain ⟨found, h⟩ := h
  rw [parse] at h
  split at h
  · cases h
  · cases h
  · rename_i document hload
    rcases Yaml.Loading.exists_of_load hload with rfl | ⟨l, -⟩
    · have null : Yaml.Document.value ⟨#[], .scalar .null⟩ = .null := by
        rw [Yaml.Document.value]
      rw [null] at h
      cases h
    · exact ⟨l⟩

/-- A tree is returned for no other document than one that has the form of a locale, all of whose texts can be read,
    and in whose mappings one of any two entries with keys of the same text is absorbed. A document that writes two
    such entries itself therefore is a fault of the file unless it cannot be read or they are absorbed. -/
theorem parse_spelledTwice (filename : String) (content : List Char) :
    ((∃ found, parse filename content = .ok found) ↔
      ∃ l : Yaml.Loading content, l.value.IsLocale ∧ ∀ id, l.Reaches id → l.Collapses id) ∧
    ∀ l : Yaml.Loading content,
      ((∃ fault, parse filename content = .error (.fault filename fault)) ↔
        ¬ Unreadable l.value ∧ ¬ (l.value.IsLocale ∧ ∀ id, l.Reaches id → l.Collapses id)) ∧
      ∀ id, l.Reaches id → ∃ merged, l.entries id = merged ++ l.own id ∧
        ∀ before e between f after, l.own id = before ++ e :: (between ++ f :: after) →
          SameText (l.key e) (l.key f) → (∃ found, parse filename content = .ok found) →
          l.IsAbsorbed (merged ++ before) e ∨ l.IsAbsorbed (merged ++ before ++ e :: between) f := by
  refine ⟨⟨fun h => ?_, fun ⟨l, h⟩ => (parse_isOk l).mpr h⟩, fun l => ⟨?_, fun id reached => ?_⟩⟩
  · obtain ⟨l⟩ := exists_loading h
    exact ⟨l, (parse_isOk l).mp h⟩
  · rw [fault_iff fun other fault h => filename_of_ofValue (parse_eq l ▸ h), parse_isOk l, parse_eq l,
      ofValue_escaping_iff]
    exact and_comm
  · obtain ⟨merged, hmerged⟩ := l.own_suffix reached
    refine ⟨merged, hmerged.symm, fun before e between f after hown same h => ?_⟩
    -- Entries that a mapping writes itself are the last ones, so the merged ones stand before both.
    have collapses := ((parse_isOk l).mp h).2 id reached
    refine collapses (merged ++ before) e between f after ?_ same
    rw [← hmerged, hown, List.append_assoc]

end Parse

/-- A document that writes a key twice. -/
def writtenTwice : List Char := "en:\n  a: x\n  a: y\n".toList

/-- A tree is returned in which the first value is lost. -/
theorem parse_writtenTwice : ∃ l : Yaml.Loading writtenTwice, l.Reaches 2 ∧ l.own 2 = [(3, 4), (5, 6)] ∧
    SameText (l.key (3, 4)) (l.key (5, 6)) ∧
    ∃ found, parse "en.yml" writtenTwice = .ok found ∧ found.tree.translations "" = [⟨"a", "y", "a"⟩] := by
  have checks : (Yaml.Loading.of? writtenTwice).any (fun l => decide (l.document.follow l.ref [0] = some 1 ∧
      (l.filling.refOf? 2).bind Yaml.Ref.number? = some 1 ∧ l.own 2 = [(3, 4), (5, 6)] ∧
      SameText (l.key (3, 4)) (l.key (5, 6)))) = true := by decide +kernel
  obtain ⟨l, -, hl⟩ := (Option.any_eq_true _ _).mp checks
  obtain ⟨follow, ref, own, same⟩ := of_decide_eq_true hl
  have result : (parse "en.yml" writtenTwice).toOption.map (fun found => found.tree.translations "") =
      some [⟨"a", "y", "a"⟩] := by decide +kernel
  obtain ⟨found, hfound, translations⟩ := Option.map_eq_some_iff.mp result
  refine ⟨l, ⟨1, Yaml.Document.within_of_follow follow, ?_⟩, own, same, found, ?_, translations⟩
  · obtain ⟨r, href, hr⟩ := Option.bind_eq_some_iff.mp ref
    cases r with
    | scalar v => cases hr
    | container number =>
      cases hr
      exact href
  · cases hparse : parse "en.yml" writtenTwice with
    | ok other =>
      rw [hparse] at hfound
      exact congrArg Except.ok (Option.some.inj hfound)
    | error e =>
      rw [hparse] at hfound
      cases hfound

end Locale

end LocaleLint
