import Mathlib.Data.List.Forall2
import LocaleLint.Yaml.Document

/-! # Steps that build values

A step that succeeds after another one has a result only if both have. What every step of a sequence keeps,
the sequence keeps. -/

namespace LocaleLint.Yaml.Fill

section Steps
variable {α β : Type} {s t u : Filling} {a : α} {b : β}

theorem bind_ok {m : Fill α} {f : α → Fill β} (h : (m >>= f) s = .ok (b, u)) :
    ∃ a t, m s = .ok (a, t) ∧ f a t = .ok (b, u) := by
  change (m s >>= fun p => f p.1 p.2) = _ at h
  cases hm : m s with
  | error e =>
    rw [hm] at h
    cases h
  | ok p =>
    rw [hm] at h
    exact ⟨p.1, p.2, rfl, h⟩

theorem pure_ok {r : α} (h : (pure a : Fill α) s = .ok (r, t)) : r = a ∧ t = s := by
  cases h
  exact ⟨rfl, rfl⟩

theorem get_bind (f : Filling → Fill β) : (get >>= f) s = f s s := rfl

theorem set_bind (f : PUnit → Fill β) : (set t >>= f) s = f ⟨⟩ t := rfl

theorem modify_bind (g : Filling → Filling) (f : PUnit → Fill β) : (modify g >>= f) s = f ⟨⟩ (g s) := rfl

theorem modify_ok {p : PUnit} {g : Filling → Filling} (h : (modify g : Fill PUnit) s = .ok (p, t)) : t = g s := by
  cases h
  rfl

theorem forall_of_forall₂ {P : β → Prop} {l : List α} {r : List β} (h : List.Forall₂ (fun _ b => P b) l r) :
    ∀ b ∈ r, P b := by
  induction h with
  | nil => exact List.forall_mem_nil _
  | cons first _ ih => exact List.forall_mem_cons.mpr ⟨first, ih⟩

end Steps

/-- What holds of the states of a sequence of steps, how they go on from each other, and what each step gives. -/
theorem mapM_ok {α β : Type} {f : α → Fill β} {items : List α} {I : Filling → Prop} {R : Filling → Filling → Prop}
    {Q : α → β → Filling → Prop} (refl : ∀ s, R s s) (trans : ∀ {s t u}, R s t → R t u → R s u)
    (stable : ∀ {a b s t}, Q a b s → R s t → Q a b t)
    (step : ∀ a ∈ items, ∀ {s b t}, I s → f a s = .ok (b, t) → I t ∧ R s t ∧ Q a b t) {s t : Filling} {r : List β}
    (hs : I s) (h : items.mapM f s = .ok (r, t)) : I t ∧ R s t ∧ List.Forall₂ (fun a b => Q a b t) items r := by
  induction items generalizing s r with
  | nil =>
    rw [List.mapM_nil] at h
    obtain ⟨rfl, rfl⟩ := pure_ok h
    exact ⟨hs, refl t, .nil⟩
  | cons a rest ih =>
    rw [List.mapM_cons] at h
    obtain ⟨b, s₁, hfirst, h⟩ := bind_ok h
    obtain ⟨bs, s₂, hrest, h⟩ := bind_ok h
    obtain ⟨rfl, rfl⟩ := pure_ok h
    obtain ⟨hs₁, grows, first⟩ := step a List.mem_cons_self hs hfirst
    obtain ⟨ht, grows', others⟩ := ih (fun a ha => step a (List.mem_cons_of_mem _ ha)) hs₁ hrest
    exact ⟨ht, trans grows grows', .cons (stable first grows') others⟩

end LocaleLint.Yaml.Fill
