import Mathlib.Data.List.Perm.Subperm
import Mathlib.Data.List.Count
import Mathlib.Data.List.Nodup

/-!
# Passes that consume a pool

Two loops that walk a list against a pool of items, in the forms C++ code writes them.

* A covering pass (`coverStep`) walks sets, and takes from each the part not covered yet as a new
  piece; the pieces hold each element of the sets exactly once (`foldl_coverStep`).
* A matching pass (`MatchStep`) walks items, and takes each one that is still in the pool out of
  it, keeping the others. `MatchStep` fixes what a step does up to the order of the pool, since
  code that erases one copy of an item may erase any (`eraseIdx_perm_erase`). After the pass the pool holds what the
  items did not match and the kept items what the pool did not (`foldl_matchStep_count`), so the
  pool is emptied exactly when it is a sub-multiset of the items (`foldl_matchStep_nil_iff`).
-/

namespace Blocknet.Lib

variable {α : Type} [DecidableEq α]

/-! ## Covering -/

/-- One set of a covering pass: the part of `s` not covered yet is a new piece, unless it is
empty, and is covered from then on. -/
def coverStep (r : List α × List (List α)) (s : List α) : List α × List (List α) :=
  let piece := s.filter (· ∉ r.1)
  if piece.isEmpty then r else (r.1 ++ piece, r.2 ++ [piece])

theorem mem_coverStep {r : List α × List (List α)} {s : List α} {x : α} :
    x ∈ (coverStep r s).1 ↔ x ∈ r.1 ∨ x ∈ s := by
  unfold coverStep
  dsimp only
  split_ifs with he
  · refine ⟨.inl, fun h => h.elim id fun hx => ?_⟩
    by_contra hr
    have : x ∈ s.filter (· ∉ r.1) := List.mem_filter.mpr ⟨hx, by simpa using hr⟩
    simp_all
  · simp only [List.mem_append, List.mem_filter, decide_eq_true_eq]
    tauto

/-- The covered elements are the pieces, and each is covered once. -/
theorem coverStep_inv {r : List α × List (List α)} (hr : r.1 = r.2.flatten) (hnd : r.1.Nodup)
    {s : List α} (hs : s.Nodup) :
    (coverStep r s).1 = (coverStep r s).2.flatten ∧ (coverStep r s).1.Nodup := by
  unfold coverStep
  dsimp only
  split_ifs
  · exact ⟨hr, hnd⟩
  · refine ⟨by simp [hr], List.nodup_append.mpr ⟨hnd, hs.filter _, ?_⟩⟩
    intro a ha b hb hab
    subst hab
    have hout := (List.mem_filter.mp hb).2
    simp only [decide_eq_true_eq] at hout
    exact hout ha

/-- The pieces of a covering pass hold every element of the sets, each once. -/
theorem foldl_coverStep {sets : List (List α)} (hs : ∀ s ∈ sets, s.Nodup) :
    (sets.foldl coverStep ([], [])).2.flatten.Nodup ∧
      ∀ x, x ∈ (sets.foldl coverStep ([], [])).2.flatten ↔ ∃ s ∈ sets, x ∈ s := by
  -- the invariant of the pass, from any start that satisfies it
  have key : ∀ (sets : List (List α)), (∀ s ∈ sets, s.Nodup) →
      ∀ r : List α × List (List α), r.1 = r.2.flatten → r.1.Nodup →
      (sets.foldl coverStep r).1 = (sets.foldl coverStep r).2.flatten ∧
        (sets.foldl coverStep r).1.Nodup ∧
        ∀ x, x ∈ (sets.foldl coverStep r).1 ↔ x ∈ r.1 ∨ ∃ s ∈ sets, x ∈ s := by
    intro sets
    induction sets with
    | nil =>
      intro _ r hr hnd
      exact ⟨hr, hnd, fun x => by simp⟩
    | cons s sets ih =>
      intro hs r hr hnd
      obtain ⟨hr', hnd'⟩ := coverStep_inv hr hnd (hs s List.mem_cons_self)
      obtain ⟨h1, h2, h3⟩ := ih (fun t ht => hs t (List.mem_cons_of_mem s ht)) _ hr' hnd'
      refine ⟨h1, h2, fun x => ?_⟩
      rw [List.foldl_cons, h3, mem_coverStep]
      simp only [List.mem_cons, exists_eq_or_imp]
      tauto
  obtain ⟨h1, h2, h3⟩ := key sets hs ([], []) rfl List.nodup_nil
  refine ⟨h1 ▸ h2, fun x => ?_⟩
  rw [← h1, h3]
  simp

/-! ## Matching -/

/-- A step of a matching pass, up to the order of the pool: an item in the pool takes one copy
of it out, and any other item is kept. -/
def MatchStep (r : List α × List α) (x : α) (r' : List α × List α) : Prop :=
  if x ∈ r.1 then r'.1.Perm (r.1.erase x) ∧ r'.2 = r.2 else r' = (r.1, r.2 ++ [x])

variable {step : List α × List α → α → List α × List α}

/-- After a matching pass the pool holds what the items did not match, and the kept items what the
pool did not, counted with multiplicity. -/
theorem foldl_matchStep_count (hstep : ∀ r x, MatchStep r x (step r x)) (xs : List α)
    (r : List α × List α) (y : α) :
    (xs.foldl step r).1.count y = r.1.count y - xs.count y ∧
      (xs.foldl step r).2.count y = r.2.count y + (xs.count y - r.1.count y) := by
  induction xs generalizing r with
  | nil => simp
  | cons x xs ih =>
    rw [List.foldl_cons]
    obtain ⟨ih1, ih2⟩ := ih (step r x)
    have hs := hstep r x
    unfold MatchStep at hs
    rw [ih1, ih2, List.count_cons]
    split_ifs at hs with hx
    · obtain ⟨hp, h2⟩ := hs
      have hpos : 0 < r.1.count x := List.count_pos_iff.mpr hx
      rw [hp.count_eq, List.count_erase, h2]
      by_cases hxy : x = y
      · subst hxy; simp; omega
      · simp [hxy]
    · rw [hs]
      have hzero : r.1.count x = 0 := List.count_eq_zero.mpr hx
      by_cases hxy : x = y
      · subst hxy; simp [hzero]; omega
      · simp [hxy]

/-- Each item either takes one out of the pool or is kept. -/
theorem foldl_matchStep_length (hstep : ∀ r x, MatchStep r x (step r x)) (xs : List α)
    (r : List α × List α) :
    (xs.foldl step r).2.length + r.1.length = r.2.length + xs.length + (xs.foldl step r).1.length := by
  induction xs generalizing r with
  | nil => simp
  | cons x xs ih =>
    rw [List.foldl_cons]
    have h := ih (step r x)
    have hs := hstep r x
    unfold MatchStep at hs
    split_ifs at hs with hx
    · obtain ⟨hp, h2⟩ := hs
      have hlen : (step r x).1.length = r.1.length - 1 :=
        hp.length_eq.trans (List.length_erase_of_mem hx)
      have hpos := List.length_pos_of_mem hx
      rw [hlen, h2] at h
      simp only [List.length_cons]
      omega
    · rw [hs] at h ⊢
      simp only [List.length_append, List.length_cons, List.length_nil] at h ⊢
      omega

/-- Erasing one copy of an item at any of its indices leaves the pool of `List.erase`. -/
theorem eraseIdx_perm_erase {l : List α} {i : Nat} {x : α} (h : l[i]? = some x) :
    (l.eraseIdx i).Perm (l.erase x) := by
  obtain ⟨hi, rfl⟩ := List.getElem?_eq_some_iff.mp h
  exact (List.erase_getElem hi).symm

/-- A matching pass empties the pool exactly when the pool is a sub-multiset of the items. -/
theorem foldl_matchStep_nil_iff (hstep : ∀ r x, MatchStep r x (step r x)) (xs : List α)
    (r : List α × List α) : (xs.foldl step r).1 = [] ↔ r.1.Subperm xs := by
  rw [List.subperm_ext_iff, List.eq_nil_iff_forall_not_mem]
  refine forall_congr' fun y => ?_
  rw [← List.count_eq_zero, (foldl_matchStep_count hstep xs r y).1]
  constructor
  · intro h _
    omega
  · intro h
    by_cases hy : y ∈ r.1
    · have := h hy
      omega
    · rw [List.count_eq_zero.mpr hy]
      simp

end Blocknet.Lib
