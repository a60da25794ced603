import Blocknet.Lib.Map

/-!
# Exclusive holding

A map whose values each hold a list of items (a servicenode and its collateral outpoints, an
order id and its locked outputs) holds them exclusively when no item is held under two keys.
`Map.Holds items m k a` says `m` holds `a` under `k`, and `Map.Exclusive items m` that every item
is held under at most one key.

The lemmas are how the operations of a map act on it: erasing a key keeps it (`Exclusive.erase`),
and so does any change that holds no more under any key (`Exclusive.mono`) or the same items
under every key (`Exclusive.congr`); inserting a value keeps it when the value's items are held
under no other key (`Exclusive.insert`); and two keys holding one item refute it
(`not_exclusive`).
-/

namespace Blocknet.Lib

variable {K V α : Type} [DecidableEq K] (items : V → List α)

/-- `m` holds `a` under `k`. -/
def Map.Holds (m : Map K V) (k : K) (a : α) : Prop :=
  ∃ v, m.lookup k = some v ∧ a ∈ items v

/-- No item is held under two keys. -/
def Map.Exclusive (m : Map K V) : Prop :=
  ∀ ⦃k k' : K⦄ ⦃a : α⦄, m.Holds items k a → m.Holds items k' a → k = k'

variable {items} {m m' : Map K V}

theorem Map.holds_insert {k₀ k : K} {v : V} {a : α} :
    Map.Holds items (m.insert k₀ v) k a ↔ if k = k₀ then a ∈ items v else m.Holds items k a := by
  unfold Map.Holds
  rw [Map.lookup_insert_eq_ite]
  split_ifs <;> simp

theorem Map.holds_erase {k₀ k : K} {a : α} :
    Map.Holds items (m.erase k₀) k a ↔ k ≠ k₀ ∧ m.Holds items k a := by
  unfold Map.Holds
  rw [Map.lookup_erase_eq_ite]
  split_ifs with h <;> simp [h]

theorem Map.exclusive_empty : Map.Exclusive items (∅ : Map K V) := by
  rintro k k' a ⟨v, hv, -⟩
  cases hv

/-- A map that holds nothing it did not hold before is exclusive if the first one was. -/
theorem Map.Exclusive.mono (h : m.Exclusive items)
    (hsub : ∀ k a, m'.Holds items k a → m.Holds items k a) : m'.Exclusive items :=
  fun _ _ _ h₁ h₂ => h (hsub _ _ h₁) (hsub _ _ h₂)

/-- A map with the same items under every key as an exclusive one is exclusive. -/
theorem Map.Exclusive.congr (h : m.Exclusive items)
    (hm : ∀ k, (m'.lookup k).map items = (m.lookup k).map items) : m'.Exclusive items := by
  refine h.mono fun k a ⟨v', hv', ha⟩ => ?_
  have hk := hm k
  rw [hv', Option.map_some] at hk
  obtain ⟨v, hv, hvi⟩ := Option.map_eq_some_iff.mp hk.symm
  exact ⟨v, hv, hvi ▸ ha⟩

theorem Map.Exclusive.erase (h : m.Exclusive items) (k₀ : K) : Map.Exclusive items (m.erase k₀) :=
  h.mono fun _ _ hk => (Map.holds_erase.mp hk).2

/-- Inserting a value whose items no other key holds keeps the map exclusive. -/
theorem Map.Exclusive.insert {k₀ : K} {v : V} (h : m.Exclusive items)
    (hfree : ∀ k a, k ≠ k₀ → m.Holds items k a → a ∉ items v) :
    Map.Exclusive items (m.insert k₀ v) := by
  intro k k' a hk hk'
  rw [Map.holds_insert] at hk hk'
  by_cases h₁ : k = k₀ <;> by_cases h₂ : k' = k₀ <;> simp only [h₁, h₂, if_true, if_false] at hk hk'
  · exact h₁.trans h₂.symm
  · exact absurd hk (hfree k' a h₂ hk')
  · exact absurd hk' (hfree k a h₁ hk)
  · exact h hk hk'

/-- Two keys that hold one item refute exclusivity. -/
theorem Map.not_exclusive {k k' : K} {a : α} (hk : m.Holds items k a) (hk' : m.Holds items k' a)
    (hne : k ≠ k') : ¬ m.Exclusive items :=
  fun h => hne (h hk hk')

end Blocknet.Lib
