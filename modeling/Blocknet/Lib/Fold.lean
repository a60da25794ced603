import Mathlib.Data.List.Basic

/-!
# Loops that can fail

A C++ loop whose body can throw is a `List.foldlM` in `Except`: it stops at the first failing
iteration. The lemmas here are the induction rules for such loops:

* `foldlM_inv`: a property that every successful iteration keeps holds when the loop succeeds;
* `foldlM_error_of_head`: a loop whose first iteration fails, fails with that error;
* `toOption_foldlM_append`: where only success matters (`Except.toOption`), a loop over a
  concatenation is the loop over its first part, then over the rest, in `Option`.
-/

namespace Blocknet.Lib

variable {ε σ α : Type}

@[simp] theorem except_ok_bind {β : Type} (a : α) (f : α → Except ε β) :
    (Except.ok a >>= f) = f a := rfl

@[simp] theorem except_error_bind {β : Type} (e : ε) (f : α → Except ε β) :
    (Except.error e >>= f) = Except.error e := rfl

@[simp] theorem except_throw (e : ε) : (throw e : Except ε α) = .error e := rfl

/-- A bind that succeeded ran both halves successfully. -/
theorem except_bind_eq_ok {β : Type} {x : Except ε α} {f : α → Except ε β} {r : β}
    (h : x >>= f = .ok r) : ∃ a, x = .ok a ∧ f a = .ok r := by
  cases x with
  | error e => cases h
  | ok a => exact ⟨a, rfl, h⟩

/-- A mapped computation that succeeded ran successfully. -/
theorem except_map_eq_ok {β : Type} {x : Except ε α} {f : α → β} {b : β}
    (h : x.map f = .ok b) : ∃ a, x = .ok a ∧ f a = b := by
  cases x with
  | error e => cases h
  | ok a =>
    cases h
    exact ⟨a, rfl, rfl⟩

/-- A mapped computation fails exactly as the computation does. -/
theorem except_map_eq_error {β : Type} {x : Except ε α} {f : α → β} {e : ε} :
    f <$> x = .error e ↔ x = .error e := by
  cases x <;> simp [Functor.map, Except.map]

/-- The state an iteration leaves: its result, or the state it started from where it failed. -/
def okOr (s : σ) : Except ε σ → σ
  | .ok t => t
  | .error _ => s

@[simp] theorem okOr_ok (s t : σ) : okOr s (.ok t : Except ε σ) = t := rfl

@[simp] theorem okOr_pure (s t : σ) : okOr s (pure t : Except ε σ) = t := rfl

/-- A computation that succeeded returned what `okOr` reads off it. -/
theorem eq_ok_okOr {x : Except ε σ} (s : σ) (h : x.isOk = true) : x = .ok (okOr s x) := by
  cases x with
  | error e => cases h
  | ok t => rfl

/-- A fallible lookup that gave a value, where a failure counts as none, returned it. -/
theorem okOr_eq_some {β : Type} {x : Except ε (Option β)} {b : β} (h : okOr none x = some b) :
    x = .ok (some b) := by
  cases x with
  | error e => cases h
  | ok o => rw [okOr_ok] at h; rw [h]

/-- A step that keeps its state unless a check that may fail says otherwise. -/
theorem okOr_bind_ite (x : Except ε Bool) (a s : σ) :
    okOr s (x >>= fun c => if c = true then pure a else pure s) =
      if okOr false x = true then a else s := by
  cases x with
  | error e => rfl
  | ok c => cases c <;> rfl

/-- An invariant of every iteration holds of the loop. -/
theorem foldl_inv (P : σ → Prop) (f : σ → α → σ) {l : List α}
    (hstep : ∀ s x, x ∈ l → P s → P (f s x)) : ∀ {s : σ}, P s → P (l.foldl f s) := by
  induction l with
  | nil => exact id
  | cons x l ih =>
    intro s hs
    exact ih (fun t y hy => hstep t y (List.mem_cons_of_mem x hy)) (hstep s x List.mem_cons_self hs)

/-- A loop that succeeded is the loop of what its iterations leave. -/
theorem foldlM_eq_foldl {f : σ → α → Except ε σ} {l : List α} :
    ∀ {s r : σ}, l.foldlM f s = .ok r → r = l.foldl (fun s x => okOr s (f s x)) s := by
  induction l with
  | nil =>
    intro s r h
    cases h
    rfl
  | cons x l ih =>
    intro s r h
    rw [List.foldlM_cons] at h
    cases hx : f s x with
    | error e => rw [hx] at h; cases h
    | ok t =>
      rw [hx] at h
      rw [List.foldl_cons, hx, okOr_ok]
      exact ih h

/-- An invariant of every successful iteration holds of a successful loop. -/
theorem foldlM_inv (P : σ → Prop) (f : σ → α → Except ε σ) {l : List α}
    (hstep : ∀ s x s', x ∈ l → P s → f s x = .ok s' → P s') :
    ∀ {s r : σ}, P s → l.foldlM f s = .ok r → P r := by
  induction l with
  | nil =>
    intro s r hs h
    cases h
    exact hs
  | cons x l ih =>
    intro s r hs h
    rw [List.foldlM_cons] at h
    cases hx : f s x with
    | error e => rw [hx] at h; cases h
    | ok s' =>
      rw [hx] at h
      have hs' := hstep s x s' List.mem_cons_self hs hx
      exact ih (fun t y t' hy => hstep t y t' (List.mem_cons_of_mem x hy)) hs' h

/-- A loop whose first iteration fails, fails with its error. -/
theorem foldlM_error_of_head (f : σ → α → Except ε σ) {x : α} {s : σ} {e : ε}
    (hx : f s x = .error e) (l : List α) : (x :: l).foldlM f s = .error e := by
  rw [List.foldlM_cons, hx]
  rfl

/-- A successful loop over `pre ++ x :: post` ran the iterations of `pre`, then `x`, then those
of `post`, each successfully. -/
theorem foldlM_append_cons_ok {f : σ → α → Except ε σ} {pre post : List α} {x : α} {s r : σ}
    (h : (pre ++ x :: post).foldlM f s = .ok r) :
    ∃ t t', pre.foldlM f s = .ok t ∧ f t x = .ok t' ∧ post.foldlM f t' = .ok r := by
  rw [List.foldlM_append] at h
  obtain ⟨t, hpre, h⟩ := except_bind_eq_ok h
  rw [List.foldlM_cons] at h
  obtain ⟨t', hx, hpost⟩ := except_bind_eq_ok h
  exact ⟨t, t', hpre, hx, hpost⟩

@[simp] theorem toOption_ok (a : α) : (Except.ok a : Except ε α).toOption = some a := rfl

@[simp] theorem toOption_error (e : ε) : (Except.error e : Except ε α).toOption = none := rfl

theorem toOption_eq_some_iff {x : Except ε α} {a : α} : x.toOption = some a ↔ x = .ok a := by
  cases x <;> simp

theorem toOption_bind {β : Type} (x : Except ε α) (f : α → Except ε β) :
    (x >>= f).toOption = x.toOption.bind fun a => (f a).toOption := by
  cases x <;> rfl

/-- A loop over `l ++ l'`, as far as its success goes, runs `l` and then `l'`. -/
theorem toOption_foldlM_append (f : σ → α → Except ε σ) (l l' : List α) (s : σ) :
    ((l ++ l').foldlM f s).toOption = (l.foldlM f s).toOption.bind fun t => (l'.foldlM f t).toOption := by
  rw [List.foldlM_append, toOption_bind]

end Blocknet.Lib
