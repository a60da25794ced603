import Mathlib.Data.List.Sort
import Mathlib.Algebra.Order.BigOperators.Group.List
import Mathlib.Algebra.Ring.Int.Defs

/-!
# Sorting by a comparator, and greedy selection under a budget

`std::sort(first, last, comp)` promises a permutation of its input in which no element is
`comp`-less than one before it, and nothing about the order of equivalent elements: two conforming
implementations may return different lists. `Sorter comp` is any function with that promise, so a
model that sorts takes a `Sorter` and its results hold for every implementation.

* `Sorter.ofKey`: insertion sort by a key into a linear order is a sorter for the comparator that
  compares by that key; `Sorter.reverseInput`: so is any sorter run on the reversed input.
* `Sorter.pairwise_key`: a sorted list is ordered by the key.

`greedy w b l` walks `l` and takes an element iff its weight fits in what is left of the budget
`b`. It takes a sublist (`greedy_sublist`) whose total weight is within a non-negative budget
(`sum_greedy_le`), and takes something when every element fits (`greedy_ne_nil`).
-/

namespace Blocknet.Lib

variable {α β : Type}

/-! ## Sorters -/

/-- What `std::sort` with comparator `comp` returns: a permutation of its input in which no
element is less than one before it. -/
structure Sorter (comp : α → α → Bool) where
  sort : List α → List α
  perm : ∀ l, (sort l).Perm l
  sorted : ∀ l, (sort l).Pairwise (fun a b => comp b a = false)

namespace Sorter

variable {comp : α → α → Bool} [LinearOrder β] {key : α → β}

/-- Insertion sort by the key: a sorter for a comparator that compares by `key`. -/
def ofKey (key : α → β) (hkey : ∀ a b, comp a b = decide (key a < key b)) : Sorter comp where
  sort l := l.insertionSort fun a b => key a ≤ key b
  perm l := List.perm_insertionSort _ l
  sorted l := by
    have : Std.Total (fun a b : α => key a ≤ key b) := ⟨fun a b => le_total (key a) (key b)⟩
    have : IsTrans α (fun a b : α => key a ≤ key b) := ⟨fun _ _ _ => le_trans⟩
    refine (List.pairwise_insertionSort _ l).imp fun {a b} hab => ?_
    rw [hkey]
    exact decide_eq_false (not_lt.mpr hab)

/-- A sorter run on the reversed input: it orders equivalent elements the other way. -/
def reverseInput (s : Sorter comp) : Sorter comp where
  sort l := s.sort l.reverse
  perm l := (s.perm l.reverse).trans (List.reverse_perm l)
  sorted l := s.sorted l.reverse

/-- A list a sorter returns is ordered by the key the comparator compares. -/
theorem pairwise_key (s : Sorter comp) (hkey : ∀ a b, comp a b = decide (key a < key b))
    (l : List α) : (s.sort l).Pairwise (fun a b => key a ≤ key b) := by
  refine (s.sorted l).imp ?_
  intro a b hba
  rw [hkey] at hba
  exact not_lt.mp (of_decide_eq_false hba)

end Sorter

/-! ## Greedy selection -/

/-- Take each element whose weight `w` fits in the budget left, and charge it to the budget. -/
def greedy (w : α → Int) : Int → List α → List α
  | _, [] => []
  | b, x :: xs => if 0 ≤ b - w x then x :: greedy w (b - w x) xs else greedy w b xs

variable {w : α → Int}

theorem greedy_sublist (b : Int) (l : List α) : (greedy w b l).Sublist l := by
  induction l generalizing b with
  | nil => exact List.Sublist.slnil
  | cons x xs ih =>
    unfold greedy
    split_ifs
    · exact (ih _).cons_cons x
    · exact (ih b).cons x

/-- What is taken weighs at most a non-negative budget. -/
theorem sum_greedy_le {b : Int} (hb : 0 ≤ b) (l : List α) : ((greedy w b l).map w).sum ≤ b := by
  induction l generalizing b with
  | nil => exact hb
  | cons x xs ih =>
    unfold greedy
    split_ifs with hfit
    · have hrest := ih hfit
      rw [List.map_cons, List.sum_cons]
      omega
    · exact ih hb

/-- A non-empty list whose elements each fit in the budget has its first element taken. -/
theorem greedy_ne_nil {b : Int} {l : List α} (hl : l ≠ []) (hw : ∀ x ∈ l, w x ≤ b) :
    greedy w b l ≠ [] := by
  cases l with
  | nil => exact absurd rfl hl
  | cons x xs =>
    have hx : 0 ≤ b - w x := by
      have := hw x List.mem_cons_self
      omega
    rw [greedy, if_pos hx]
    exact List.cons_ne_nil _ _

end Blocknet.Lib
