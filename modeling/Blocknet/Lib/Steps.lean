import Mathlib.Logic.Relation
import Blocknet.Lib.Fold

/-!
# Runs of primitive steps

A state that only ever changes by a fixed set of primitive operations (`apply s b` for a step
`b`) is described by `Steps apply s t`: `t` is reached from `s` by some sequence of them. A
composite operation (a loop of primitive updates, a loop that can fail, a sequence of loops) is
shown to be such a run once, by the rules here; an invariant of every primitive step is then an
invariant of every composite operation (`Steps.inv`), without unfolding the composite again.
-/

namespace Blocknet.Lib

variable {σ β α ε : Type} {apply : σ → β → σ}

/-- `t` is reached from `s` by a sequence of primitive steps. -/
def Steps (apply : σ → β → σ) : σ → σ → Prop :=
  Relation.ReflTransGen (fun s t => ∃ b, apply s b = t)

namespace Steps

theorem refl (s : σ) : Steps apply s s := Relation.ReflTransGen.refl

theorem of_eq {s t : σ} (h : s = t) : Steps apply s t := h ▸ refl s

theorem single (s : σ) (b : β) : Steps apply s (apply s b) :=
  Relation.ReflTransGen.single ⟨b, rfl⟩

theorem trans {s t u : σ} (h₁ : Steps apply s t) (h₂ : Steps apply t u) : Steps apply s u :=
  Relation.ReflTransGen.trans h₁ h₂

/-- A step that is taken or not. -/
theorem ite (c : Prop) [Decidable c] (s : σ) (b : β) :
    Steps apply s (if c then apply s b else s) := by
  split_ifs
  · exact single s b
  · exact refl s

/-- An invariant of every primitive step is an invariant of every run. -/
theorem inv (P : σ → Prop) (hP : ∀ s b, P s → P (apply s b)) {s t : σ}
    (h : Steps apply s t) (hs : P s) : P t := by
  induction h with
  | refl => exact hs
  | tail _ hstep ih =>
    obtain ⟨b, rfl⟩ := hstep
    exact hP _ b ih

/-- A loop whose every iteration is a run is a run. -/
theorem foldl {f : σ → α → σ} {l : List α} (hf : ∀ s x, x ∈ l → Steps apply s (f s x))
    (s : σ) : Steps apply s (l.foldl f s) := by
  induction l generalizing s with
  | nil => exact refl s
  | cons x l ih =>
    rw [List.foldl_cons]
    exact trans (hf s x List.mem_cons_self)
      (ih (fun t y hy => hf t y (List.mem_cons_of_mem x hy)) _)

/-- A loop that can fail, whose every successful iteration is a run, is a run when it
succeeds. -/
theorem foldlM {f : σ → α → Except ε σ} {l : List α}
    (hf : ∀ s x t, x ∈ l → f s x = .ok t → Steps apply s t) :
    ∀ {s r : σ}, l.foldlM f s = .ok r → Steps apply s r := by
  induction l with
  | nil =>
    intro s r h
    cases h
    exact refl s
  | cons x l ih =>
    intro s r h
    rw [List.foldlM_cons] at h
    cases hx : f s x with
    | error e => rw [hx] at h; cases h
    | ok t =>
      rw [hx] at h
      exact trans (hf s x t List.mem_cons_self hx)
        (ih (fun u y v hy => hf u y v (List.mem_cons_of_mem x hy)) h)

/-- A run of one system is a run of another when each step maps to a step of the other. -/
theorem map {τ γ : Type} {apply' : τ → γ → τ} (f : σ → τ) (g : β → γ)
    (hsim : ∀ s b, f (apply s b) = apply' (f s) (g b)) {s t : σ} (h : Steps apply s t) :
    Steps apply' (f s) (f t) := by
  induction h with
  | refl => exact refl _
  | tail _ hstep ih =>
    obtain ⟨b, rfl⟩ := hstep
    exact trans ih (hsim _ b ▸ single _ (g b))

end Steps

end Blocknet.Lib
