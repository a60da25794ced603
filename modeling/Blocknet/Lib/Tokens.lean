import Mathlib.Data.List.Basic

/-!
# Loops that read a stream of tokens

A loop `while (pc < end) { if (!read(pc, t)) fail; step(t); }` reads one token at a time from the
front of its input and runs a step on it. `readLoop` is that loop with a fuel bound; a reader
that consumes at least one element per token never needs more fuel than the input's length.

`Reads read s ts` says that `s` reads, to its end, as the tokens `ts`. On such an input the loop
is the fold of its step over the tokens (`readLoop_eq_foldlM`), and a loop that succeeded read
its input to the end (`exists_reads_of_readLoop`). A reader that reads a token the same with
anything after it reads a concatenation token by token (`Reads.append`).
-/

namespace Blocknet.Lib

variable {α τ σ ε : Type} (read : List α → Option (τ × List α))

/-- `s` reads as the tokens `ts`, up to its end. -/
inductive Reads : List α → List τ → Prop
  | nil : Reads [] []
  | cons {s r : List α} {t : τ} {ts : List τ} : read s = some (t, r) → Reads r ts →
      Reads s (t :: ts)

/-- The loop, with `fuel` iterations at most: it stops at the end of the input, and fails with
`fail` where a token cannot be read. -/
def readLoop (step : σ → τ → Except ε σ) (fail : ε) : Nat → List α → σ → Except ε σ
  | 0, _, st => .ok st
  | _ + 1, [], st => .ok st
  | fuel + 1, a :: s, st =>
    match read (a :: s) with
    | none => .error fail
    | some (t, r) => step st t >>= readLoop step fail fuel r

section Consumes

variable {read} (consumes : ∀ s t r, read s = some (t, r) → r.length < s.length)

variable (step : σ → τ → Except ε σ) (fail : ε)

include consumes in
/-- On an input that reads as `ts`, the loop folds its step over `ts`. -/
theorem readLoop_eq_foldlM {s : List α} {ts : List τ} (h : Reads read s ts) :
    ∀ {fuel : Nat} (st : σ), s.length ≤ fuel → readLoop read step fail fuel s st = ts.foldlM step st := by
  induction h with
  | nil =>
    intro fuel st _
    cases fuel <;> rfl
  | @cons s r t ts hread _ ih =>
    intro fuel st hfuel
    have hlt := consumes s t r hread
    -- a token was read, so the input is not empty and the fuel not spent
    obtain ⟨a, s, rfl⟩ : ∃ a s', s = a :: s' := by
      cases s with
      | nil => exact absurd hlt (Nat.not_lt_zero _)
      | cons a s' => exact ⟨a, s', rfl⟩
    obtain ⟨fuel, rfl⟩ : ∃ f, fuel = f + 1 := ⟨fuel - 1, by simp only [List.length_cons] at hfuel; omega⟩
    simp only [readLoop, hread, List.foldlM_cons]
    cases step st t with
    | error e => rfl
    | ok st' =>
      simp only [List.length_cons] at hlt hfuel
      exact ih st' (by omega)

include consumes in
/-- A loop that succeeded with enough fuel read its whole input. -/
theorem exists_reads_of_readLoop :
    ∀ {fuel : Nat} {s : List α} {st st' : σ}, s.length ≤ fuel →
      readLoop read step fail fuel s st = .ok st' → ∃ ts, Reads read s ts ∧ ts.foldlM step st = .ok st'
  | 0, [], st, st', _, h => ⟨[], .nil, h⟩
  | _ + 1, [], st, st', _, h => ⟨[], .nil, h⟩
  | fuel + 1, a :: s, st, st', hfuel, h => by
    simp only [readLoop] at h
    split at h
    · cases h
    · rename_i t r hread
      cases hst : step st t with
      | error e => rw [hst] at h; cases h
      | ok st₁ =>
        rw [hst] at h
        have hlt := consumes _ t r hread
        simp only [List.length_cons] at hlt hfuel
        obtain ⟨ts, hts, hfold⟩ := exists_reads_of_readLoop (by omega) h
        exact ⟨t :: ts, .cons hread hts, by rw [List.foldlM_cons, hst]; exact hfold⟩

end Consumes

/-- A reader that reads a token the same with anything after it reads a concatenation as the
tokens of its parts. -/
theorem Reads.append
    (stable : ∀ s u t r, read s = some (t, r) → read (s ++ u) = some (t, r ++ u))
    {s u : List α} {ts us : List τ} (hs : Reads read s ts) (hu : Reads read u us) :
    Reads read (s ++ u) (ts ++ us) := by
  induction hs with
  | nil => exact hu
  | cons hread _ ih => exact .cons (stable _ _ _ _ hread) ih

end Blocknet.Lib
