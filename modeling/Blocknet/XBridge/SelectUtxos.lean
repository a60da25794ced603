import Mathlib.Data.List.Sort
import Mathlib.Data.Rat.Floor
import Blocknet.Lib.Binary64
import Blocknet.XBridge.Take

/-!
# The coin selection of a swap (`App::selectUtxos`)

Model of `App::selectUtxos` (`xbridge/xbridgeapp.cpp`), which picks among a wallet's coins those
that pay an amount with the fees of the deposit, and of what `acceptXBridgeTransaction` and the
create handlers of the client module do with its pick.

* The coins are sorted by amount, largest first, and the selector `selUtxos` takes, with
  `minAmount = amt + minTxFee1(1, 3) + minTxFee2(1, 1)` (`feeAmount`): the first coin at least
  `minAmount` and below `minAmount` by less than a thousand times those fees, whose address is
  `addr` (or any, when `addr` is empty); else the one coin at least `minAmount`, or the smallest
  of them; else, with at least two coins below `minAmount`, the largest of those, one after
  another, until their sum less `minTxFee1(n, 3) + minTxFee2(1, 1)` for the `n` coins taken reaches
  `minAmount` (`accumulateUtxos`). The first loop is `scanUtxos`.
* `std::sort` leaves coins of one amount in an order the standard does not fix: `AmountSort` is any
  sort by amount, a sorted permutation, and the results hold for each.
* Amounts are `double`s, which are rationals. The selector's own sums and comparisons are taken
  exactly here: the rounding of `minAmount` and of its running sums is left out. Where that
  rounding decides, the two differ: the payment module of the router shows a coin the source
  takes and the exact comparison finds short.
* The out-parameters are computed as the source does from the empty `outputsForUse` and the zero
  `utxoAmount` every caller passes, in `double` (`Binary64.round` of each conversion, product and
  sum), each cut to `uint64_t` (`Nat.floor`; a negative value, where that conversion is undefined,
  counts as 0): `utxoAmount += utxo.amount * coinDenomination` for each coin (`addUtxoAmount`), and
  `minTxFee1(n, 3) * coinDenomination`, `minTxFee2(1, 1) * coinDenomination` (`toUnits`).

Results:
* `selUtxos_cases`: what the selector returns, by path.
* `selectUtxos_covers`: with `minTxFee1(1, 3) + minTxFee2(1, 1)` not negative, the coins picked
  pay the amount and the fees of a transaction with as many inputs.
* `selectUtxos_picks`: the selection fails only where no coin alone reaches `minAmount`; what it
  picks and what it leaves split the coins offered, and it picks one coin reaching `minAmount`
  (in range with the address, or the smallest), or, when no coin reaches it, the largest coins.
* `foldl_addUtxoAmount_range`, `toUnits_round_div`: for coins whose amounts are their values in
  units over `coinDenomination`, rounded, `utxoAmount` is their sum less at most one unit a coin,
  and a fee comes back as its units or one less.
* `acceptXBridgeTransaction_coversAmount`: a take whose selection is this one leaves the order
  with coins that pass the funds check of the create handlers.
-/

namespace Blocknet.XBridge

open Blocknet.Lib

/-- `std::sort` of coins by amount, with the comparison `a.amount < b.amount` (`up`) or
`a.amount > b.amount` (`down`): a permutation sorted that way. Which order coins of one amount end
in is unspecified. -/
structure AmountSort where
  up : List WalletUtxo → List WalletUtxo
  down : List WalletUtxo → List WalletUtxo
  up_perm : ∀ l, (up l).Perm l
  down_perm : ∀ l, (down l).Perm l
  up_sorted : ∀ l, (up l).Pairwise fun a b => a.amount ≤ b.amount
  down_sorted : ∀ l, (down l).Pairwise fun a b => b.amount ≤ a.amount

/-- The insertion sort `std::sort` runs on short ranges: one of the orders it may leave. -/
def AmountSort.insertion : AmountSort where
  up := List.insertionSort fun a b => a.amount ≤ b.amount
  down := List.insertionSort fun a b => b.amount ≤ a.amount
  up_perm := List.perm_insertionSort _
  down_perm := List.perm_insertionSort _
  up_sorted l := by
    have : Std.Total fun a b : WalletUtxo => a.amount ≤ b.amount := ⟨fun a b => le_total _ _⟩
    have : IsTrans WalletUtxo fun a b => a.amount ≤ b.amount := ⟨fun _ _ _ => le_trans⟩
    exact List.pairwise_insertionSort _ l
  down_sorted l := by
    have : Std.Total fun a b : WalletUtxo => b.amount ≤ a.amount := ⟨fun a b => le_total _ _⟩
    have : IsTrans WalletUtxo fun a b => b.amount ≤ a.amount :=
      ⟨fun _ _ _ hab hbc => hbc.trans hab⟩
    exact List.pairwise_insertionSort _ l

section Model

variable (srt : AmountSort) (addr : String) (minTxFee1 minTxFee2 : Nat → Nat → ℚ)

/-- `feeAmount(amt, inputs, outputs)`. -/
def feeAmount (amt : ℚ) (inputs outputs : Nat) : ℚ :=
  amt + minTxFee1 inputs outputs + minTxFee2 1 1

/-- The first loop of `selUtxos`: the first coin in range with the address, where it stops; the
coins at least `minAmount` (`gt`) and below it (`lt`) it met before, in order. -/
def scanUtxos (minAmount range : ℚ) :
    List WalletUtxo → Option WalletUtxo × List WalletUtxo × List WalletUtxo
  | [] => (none, [], [])
  | utxo :: a =>
    if minAmount ≤ utxo.amount ∧ utxo.amount < minAmount + range ∧
        (utxo.address = addr ∨ addr = "") then (some utxo, [], [])
    else
      let r := scanUtxos minAmount range a
      if minAmount ≤ utxo.amount then (r.1, utxo :: r.2.1, r.2.2)
      else if utxo.amount < minAmount then (r.1, r.2.1, utxo :: r.2.2)
      else r

/-- The loop over the coins below `minAmount`, largest first: `sel` grows by one coin at a time and
is taken once its sum less the fees of its inputs reaches `minAmount`; `none` when it never does. -/
def accumulateUtxos (minAmount : ℚ) (sel : List WalletUtxo) :
    List WalletUtxo → Option (List WalletUtxo)
  | [] => none
  | utxo :: lt =>
    let sel := sel ++ [utxo]
    let fee1 := minTxFee1 sel.length 3
    let fee2 := minTxFee2 1 1
    let runningAmount :=
      sel.foldl (fun runningAmount u => runningAmount + u.amount) ((fee1 + fee2) * -1)
    if minAmount ≤ runningAmount then some sel else accumulateUtxos minAmount sel lt

/-- The selector `selUtxos(a, o, amt)` on an empty `o`: the coins it appends, none where it fails.
`o.push_back(gt[0])` appends the first coin of `gt`, sorted up when there are several. -/
def selUtxos (a : List WalletUtxo) (amt : ℚ) : List WalletUtxo :=
  let minAmount := feeAmount minTxFee1 minTxFee2 amt 1 3
  match scanUtxos addr minAmount ((minTxFee1 1 3 + minTxFee2 1 1) * 1000) a with
  | (some utxo, _, _) => [utxo]
  | (none, gt, lt) =>
    if gt.length = 1 then gt.take 1
    else if 1 < gt.length then (srt.up gt).take 1
    else if lt.length < 2 then []
    else (accumulateUtxos minTxFee1 minTxFee2 minAmount [] (srt.down lt)).getD []

/-- `utxoAmount += utxo.amount * coinDenomination`: the `uint64_t` sum converted to `double`, the
product and the sum rounded, and the result cut back to `uint64_t`. -/
def addUtxoAmount (coinDenomination utxoAmount : Nat) (utxo : WalletUtxo) : Nat :=
  ⌊Binary64.round (Binary64.round utxoAmount +
    Binary64.round (utxo.amount * Binary64.round coinDenomination))⌋₊

/-- A `double` fee times `coinDenomination`, rounded and cut to `uint64_t`. -/
def toUnits (coinDenomination : Nat) (fee : ℚ) : Nat :=
  ⌊Binary64.round (fee * Binary64.round coinDenomination)⌋₊

/-- `App::selectUtxos(addr, outputs, minTxFee1, minTxFee2, requiredAmount, coinDenomination,
outputsForUse, utxoAmount, fee1, fee2)`: the coins for use with `utxoAmount`, `fee1` and `fee2`,
`none` where it returns `false`. -/
def selectUtxos (outputs : List WalletUtxo) (requiredAmount coinDenomination : Nat) :
    Option (List WalletUtxo × Nat × Nat × Nat) :=
  let utxos := srt.down outputs
  match selUtxos srt addr minTxFee1 minTxFee2 utxos ((requiredAmount : ℚ) / coinDenomination) with
  | [] => none
  | outputsForUse =>
    let utxoAmount := outputsForUse.foldl (addUtxoAmount coinDenomination) 0
    some (outputsForUse, utxoAmount, toUnits coinDenomination (minTxFee1 outputsForUse.length 3),
      toUnits coinDenomination (minTxFee2 1 1))

end Model

/-! ## The selector, path by path -/

section Selector

variable {srt : AmountSort} {addr : String} {minTxFee1 minTxFee2 : Nat → Nat → ℚ}

/-- The sum of the amounts of a list of coins. -/
def amountSum (l : List WalletUtxo) : ℚ := (l.map (·.amount)).sum

@[simp] theorem amountSum_nil : amountSum [] = 0 := rfl

@[simp] theorem amountSum_cons (u : WalletUtxo) (l : List WalletUtxo) :
    amountSum (u :: l) = u.amount + amountSum l := by
  simp [amountSum]

@[simp] theorem amountSum_append (l l' : List WalletUtxo) :
    amountSum (l ++ l') = amountSum l + amountSum l' := by
  simp [amountSum]

/-- Fewer coins, each at most as often, add up to less, where no amount is negative. -/
theorem amountSum_le_of_subperm {l₁ l₂ : List WalletUtxo} (h : l₁.Subperm l₂)
    (hnn : ∀ u ∈ l₂, 0 ≤ u.amount) : amountSum l₁ ≤ amountSum l₂ := by
  obtain ⟨l, hperm, hsub⟩ := h
  unfold amountSum
  calc (l₁.map (·.amount)).sum = (l.map (·.amount)).sum := ((hperm.map _).sum_eq).symm
    _ ≤ (l₂.map (·.amount)).sum := (hsub.map _).sum_le_sum (by simpa using hnn)

/-- The loop `for (auto & u : sel) runningAmount += u.amount`. -/
theorem foldl_add_amount (sel : List WalletUtxo) (init : ℚ) :
    sel.foldl (fun runningAmount u => runningAmount + u.amount) init = init + amountSum sel := by
  induction sel generalizing init with
  | nil => simp
  | cons u sel ih =>
    rw [List.foldl_cons, ih, amountSum_cons]
    ring

/-- What the accumulation takes: `sel` and a first part of the coins, at least one, whose sum
less the fees reaches `minAmount`. -/
theorem accumulateUtxos_eq_some {minAmount : ℚ} {sel lt r : List WalletUtxo}
    (h : accumulateUtxos minTxFee1 minTxFee2 minAmount sel lt = some r) :
    ∃ k, 0 < k ∧ r = sel ++ lt.take k ∧
      minAmount ≤ amountSum r - (minTxFee1 r.length 3 + minTxFee2 1 1) := by
  induction lt generalizing sel with
  | nil => simp [accumulateUtxos] at h
  | cons utxo lt ih =>
    simp only [accumulateUtxos, foldl_add_amount] at h
    split_ifs at h with hreach
    · cases h
      refine ⟨1, Nat.one_pos, by simp, ?_⟩
      linarith
    · obtain ⟨k, -, rfl, hk⟩ := ih h
      exact ⟨k + 1, Nat.succ_pos k, by simp, hk⟩

variable (addr) in
/-- The first loop finds the ideal coin, or else splits the coins into those at least `minAmount`
and those below it, in order. -/
theorem scanUtxos_spec (minAmount range : ℚ) (a : List WalletUtxo) :
    (∃ u ∈ a, (scanUtxos addr minAmount range a).1 = some u ∧ minAmount ≤ u.amount ∧
        u.amount < minAmount + range ∧ (u.address = addr ∨ addr = "")) ∨
      scanUtxos addr minAmount range a =
        (none, a.filter (fun u => minAmount ≤ u.amount), a.filter (fun u => u.amount < minAmount)) := by
  induction a with
  | nil => exact .inr rfl
  | cons utxo a ih =>
    by_cases hideal : minAmount ≤ utxo.amount ∧ utxo.amount < minAmount + range ∧
        (utxo.address = addr ∨ addr = "")
    · refine .inl ⟨utxo, List.mem_cons_self, ?_, hideal⟩
      simp only [scanUtxos, if_pos hideal]
    rcases ih with ⟨u, hu, hscan, hu'⟩ | hscan
    · refine .inl ⟨u, List.mem_cons_of_mem _ hu, ?_, hu'⟩
      simp only [scanUtxos, if_neg hideal]
      split_ifs <;> exact hscan
    · refine .inr ?_
      simp only [scanUtxos, if_neg hideal, hscan]
      by_cases hge : minAmount ≤ utxo.amount
      · have hlt : ¬ utxo.amount < minAmount := not_lt.mpr hge
        simp [hge, hlt]
      · have hlt : utxo.amount < minAmount := not_le.mp hge
        simp [hge, hlt]

/-- The selector's first phase finds the ideal coin: that coin is all it picks. -/
theorem selUtxos_of_ideal {a : List WalletUtxo} {amt : ℚ} {u : WalletUtxo}
    (h : (scanUtxos addr (feeAmount minTxFee1 minTxFee2 amt 1 3)
      ((minTxFee1 1 3 + minTxFee2 1 1) * 1000) a).1 = some u) :
    selUtxos srt addr minTxFee1 minTxFee2 a amt = [u] := by
  obtain ⟨⟨ideal, gt, lt⟩, hr⟩ : ∃ r, scanUtxos addr (feeAmount minTxFee1 minTxFee2 amt 1 3)
      ((minTxFee1 1 3 + minTxFee2 1 1) * 1000) a = r := ⟨_, rfl⟩
  rw [hr] at h
  subst h
  simp only [selUtxos, hr]

/-- The selector's first phase finds no ideal coin: the second phase decides on `gt` and `lt`. -/
theorem selUtxos_of_scan {a gt lt : List WalletUtxo} {amt : ℚ}
    (h : scanUtxos addr (feeAmount minTxFee1 minTxFee2 amt 1 3)
      ((minTxFee1 1 3 + minTxFee2 1 1) * 1000) a = (none, gt, lt)) :
    selUtxos srt addr minTxFee1 minTxFee2 a amt =
      if gt.length = 1 then gt.take 1
      else if 1 < gt.length then (srt.up gt).take 1
      else if lt.length < 2 then []
      else (accumulateUtxos minTxFee1 minTxFee2 (feeAmount minTxFee1 minTxFee2 amt 1 3) []
        (srt.down lt)).getD [] := by
  simp only [selUtxos, h]

/-- **What the selector returns**, by path: the ideal coin; or, when there is none, the smallest
coin at least `minAmount`; or, when no coin reaches `minAmount`, what the accumulation over all
the coins, largest first, takes. -/
theorem selUtxos_cases {a coins : List WalletUtxo} {amt : ℚ}
    (h : selUtxos srt addr minTxFee1 minTxFee2 a amt = coins) (hne : coins ≠ []) :
    (∃ u ∈ a, coins = [u] ∧ feeAmount minTxFee1 minTxFee2 amt 1 3 ≤ u.amount ∧
        u.amount < feeAmount minTxFee1 minTxFee2 amt 1 3 + (minTxFee1 1 3 + minTxFee2 1 1) * 1000 ∧
        (u.address = addr ∨ addr = "")) ∨
      (∃ u ∈ a.filter (fun u => feeAmount minTxFee1 minTxFee2 amt 1 3 ≤ u.amount), coins = [u] ∧
        ∀ v ∈ a.filter (fun u => feeAmount minTxFee1 minTxFee2 amt 1 3 ≤ u.amount),
          u.amount ≤ v.amount) ∨
      ((∀ v ∈ a, v.amount < feeAmount minTxFee1 minTxFee2 amt 1 3) ∧
        accumulateUtxos minTxFee1 minTxFee2 (feeAmount minTxFee1 minTxFee2 amt 1 3) []
          (srt.down a) = some coins) := by
  subst h
  rcases scanUtxos_spec addr (feeAmount minTxFee1 minTxFee2 amt 1 3)
      ((minTxFee1 1 3 + minTxFee2 1 1) * 1000) a with ⟨u, hu, hscan, hu'⟩ | hscan
  · exact .inl ⟨u, hu, selUtxos_of_ideal hscan, hu'⟩
  rw [selUtxos_of_scan hscan] at hne ⊢
  set minAmount := feeAmount minTxFee1 minTxFee2 amt 1 3
  set gt := a.filter (fun u => minAmount ≤ u.amount) with hgt
  by_cases h1 : gt.length = 1
  · -- one coin reaches `minAmount`
    obtain ⟨u, hu⟩ := List.length_eq_one_iff.mp h1
    refine .inr (.inl ⟨u, by simp [hu], ?_, ?_⟩)
    · simp [hu]
    · intro v hv
      rw [hu, List.mem_singleton] at hv
      rw [hv]
  rw [if_neg h1] at hne ⊢
  by_cases h2 : 1 < gt.length
  · -- several coins reach `minAmount`: the first once sorted up
    rw [if_pos h2] at hne ⊢
    obtain ⟨u, l, hul⟩ : ∃ u l, srt.up gt = u :: l := by
      cases hs : srt.up gt with
      | nil => simp [hs] at hne
      | cons u l => exact ⟨u, l, rfl⟩
    have hperm := srt.up_perm gt
    have hsorted := srt.up_sorted gt
    rw [hul] at hperm hsorted
    refine .inr (.inl ⟨u, hperm.subset List.mem_cons_self, by simp [hul], ?_⟩)
    intro v hv
    rcases List.mem_cons.mp (hperm.symm.subset hv) with rfl | hv'
    · exact le_rfl
    · exact List.rel_of_pairwise_cons hsorted hv'
  rw [if_neg h2] at hne ⊢
  have hgt0 : gt = [] := List.length_eq_zero_iff.mp (by omega)
  -- no coin reaches `minAmount`, so every coin is below it
  have hall : ∀ v ∈ a, v.amount < minAmount := by
    intro v hv
    by_contra hge
    have : v ∈ gt := List.mem_filter.mpr ⟨hv, by simpa using not_lt.mp hge⟩
    simp [hgt0] at this
  have hlt : a.filter (fun u => u.amount < minAmount) = a :=
    List.filter_eq_self.mpr fun v hv => by simpa using hall v hv
  rw [hlt] at hne ⊢
  split_ifs at hne ⊢
  · exact absurd rfl hne
  · refine .inr (.inr ⟨hall, ?_⟩)
    cases hacc : accumulateUtxos minTxFee1 minTxFee2 minAmount [] (srt.down a) with
    | none => simp [hacc] at hne
    | some coins => rfl

/-- What the selector picks pays `amt` and the fees of a transaction with as many inputs, where
`minTxFee1(1, 3) + minTxFee2(1, 1)` is not negative. -/
theorem selUtxos_covers (hfee : 0 ≤ minTxFee1 1 3 + minTxFee2 1 1) {a coins : List WalletUtxo}
    {amt : ℚ} (h : selUtxos srt addr minTxFee1 minTxFee2 a amt = coins) (hne : coins ≠ []) :
    amt + minTxFee1 coins.length 3 + minTxFee2 1 1 ≤ amountSum coins := by
  rcases selUtxos_cases h hne with ⟨u, -, rfl, hu, -⟩ | ⟨u, hu, rfl, -⟩ | ⟨-, hacc⟩
  · simpa [feeAmount] using hu
  · simpa [feeAmount] using of_decide_eq_true (List.mem_filter.mp hu).2
  · -- the accumulation counts the fees twice: once in `minAmount`, once in `runningAmount`
    obtain ⟨k, -, -, hk⟩ := accumulateUtxos_eq_some hacc
    unfold feeAmount at hk
    linarith

/-- The selector picks among the coins it is given, each at most once. -/
theorem selUtxos_subperm {a coins : List WalletUtxo} {amt : ℚ}
    (h : selUtxos srt addr minTxFee1 minTxFee2 a amt = coins) : coins.Subperm a := by
  by_cases hne : coins = []
  · simp [hne]
  rcases selUtxos_cases h hne with ⟨u, hu, rfl, -⟩ | ⟨u, hu, rfl, -⟩ | ⟨-, hacc⟩
  · exact List.singleton_subperm_iff.mpr hu
  · exact List.singleton_subperm_iff.mpr (List.mem_of_mem_filter hu)
  · obtain ⟨k, -, rfl, -⟩ := accumulateUtxos_eq_some hacc
    rw [List.nil_append]
    exact (List.take_sublist k _).subperm.trans (srt.down_perm a).subperm

/-- Where one coin reaches `minAmount`, the selector picks something. -/
theorem selUtxos_ne_nil {a : List WalletUtxo} {amt : ℚ}
    (h : ∃ u ∈ a, feeAmount minTxFee1 minTxFee2 amt 1 3 ≤ u.amount) :
    selUtxos srt addr minTxFee1 minTxFee2 a amt ≠ [] := by
  obtain ⟨u, hu, hreach⟩ := h
  rcases scanUtxos_spec addr (feeAmount minTxFee1 minTxFee2 amt 1 3)
      ((minTxFee1 1 3 + minTxFee2 1 1) * 1000) a with ⟨v, -, hscan, -⟩ | hscan
  · simp [selUtxos_of_ideal hscan]
  rw [selUtxos_of_scan hscan]
  -- `u` is among the coins at least `minAmount`
  have hgt : 0 < (a.filter fun v => feeAmount minTxFee1 minTxFee2 amt 1 3 ≤ v.amount).length :=
    List.length_pos_of_mem (List.mem_filter.mpr ⟨hu, by simpa using hreach⟩)
  split_ifs with h1 h2
  · simp only [Ne, List.take_eq_nil_iff, not_or]
    exact ⟨one_ne_zero, List.ne_nil_of_length_pos hgt⟩
  · simp only [Ne, List.take_eq_nil_iff, not_or]
    exact ⟨one_ne_zero, List.ne_nil_of_length_pos (by rw [(srt.up_perm _).length_eq]; omega)⟩
  · omega
  · omega

end Selector

/-! ## What `selectUtxos` picks -/

section Selection

variable {srt : AmountSort} {addr : String} {minTxFee1 minTxFee2 : Nat → Nat → ℚ}
  {outputs : List WalletUtxo} {requiredAmount coinDenomination : Nat}

/-- A selection that succeeds returns what the selector picked among the coins sorted down, which
is not empty, with the sum and the fees in the coin's units. -/
theorem selectUtxos_eq_some {r : List WalletUtxo × Nat × Nat × Nat}
    (h : selectUtxos srt addr minTxFee1 minTxFee2 outputs requiredAmount coinDenomination = some r) :
    r.1 ≠ [] ∧ selUtxos srt addr minTxFee1 minTxFee2 (srt.down outputs)
        ((requiredAmount : ℚ) / coinDenomination) = r.1 ∧
      r.2 = (r.1.foldl (addUtxoAmount coinDenomination) 0,
        toUnits coinDenomination (minTxFee1 r.1.length 3),
        toUnits coinDenomination (minTxFee2 1 1)) := by
  unfold selectUtxos at h
  dsimp only at h
  split at h
  · cases h
  · rename_i hne
    cases h
    exact ⟨hne, rfl, rfl⟩

/-- The selection succeeds where the selector picks something. -/
theorem selectUtxos_isSome_iff :
    (selectUtxos srt addr minTxFee1 minTxFee2 outputs requiredAmount coinDenomination).isSome ↔
      selUtxos srt addr minTxFee1 minTxFee2 (srt.down outputs)
        ((requiredAmount : ℚ) / coinDenomination) ≠ [] := by
  unfold selectUtxos
  dsimp only
  split <;> simp_all

/-- **The coins picked pay the amount and the fees**: where `minTxFee1(1, 3) + minTxFee2(1, 1)` is
not negative, a selection that succeeds picks coins whose sum is at least the amount with
`minTxFee1(n, 3) + minTxFee2(1, 1)` for its `n` coins. -/
theorem selectUtxos_covers (hfee : 0 ≤ minTxFee1 1 3 + minTxFee2 1 1)
    {r : List WalletUtxo × Nat × Nat × Nat}
    (h : selectUtxos srt addr minTxFee1 minTxFee2 outputs requiredAmount coinDenomination = some r) :
    r.1 ≠ [] ∧ (requiredAmount : ℚ) / coinDenomination + minTxFee1 r.1.length 3 + minTxFee2 1 1 ≤
      amountSum r.1 := by
  obtain ⟨hne, hsel, -⟩ := selectUtxos_eq_some h
  exact ⟨hne, selUtxos_covers hfee hsel hne⟩

/-- The coins picked are among those offered, each at most once. -/
theorem selectUtxos_subperm {r : List WalletUtxo × Nat × Nat × Nat}
    (h : selectUtxos srt addr minTxFee1 minTxFee2 outputs requiredAmount coinDenomination = some r) :
    r.1.Subperm outputs := by
  obtain ⟨-, hsel, -⟩ := selectUtxos_eq_some h
  exact (selUtxos_subperm hsel).trans (srt.down_perm outputs).subperm

/-- No coin reaches 3 with no fees: the coins of 2 and 1 are taken, largest first. -/
example :
    (selectUtxos AmountSort.insertion "" (fun _ _ => 0) (fun _ _ => 0)
        [⟨⟨[1], 0⟩, 1, "a"⟩, ⟨⟨[2], 0⟩, 2, "a"⟩, ⟨⟨[3], 0⟩, 1, "a"⟩] 3 1).map (·.1) =
      some [⟨⟨[2], 0⟩, 2, "a"⟩, ⟨⟨[1], 0⟩, 1, "a"⟩] := by
  decide +kernel

end Selection

/-! ## The out-parameters in units

A coin of `N` units (satoshis) has the amount `N / coinDenomination` rounded to a `double`. Each
rounding is off by at most `2 ^ -53` of the value, so for sums below `2 ^ 51` units (above
`MAX_MONEY`) the `double` sum is within one unit of the exact one, and its cut to `uint64_t`
loses at most one unit a coin. -/

section Units

variable {C : Nat} (hC0 : 0 < C) (hC : C < 2 ^ 53)
include hC0 hC

/-- A coin of `N` units, whose amount is `N / C` rounded, is worth `N` units to within
`N / 2 ^ 53`. -/
theorem abs_round_div_mul_sub (N : Nat) :
    |Binary64.round ((N : ℚ) / C) * C - N| ≤ N / 2 ^ 53 := by
  rcases Nat.eq_zero_or_pos N with rfl | hN
  · simp
  have hCq : (0 : ℚ) < C := by exact_mod_cast hC0
  -- `N / C` is at least `2 ^ -53`, in the normal range
  have hnormal : (1 : ℚ) / 2 ^ 53 ≤ (N : ℚ) / C := by
    have hC' : (C : ℚ) < 2 ^ 53 := by exact_mod_cast hC
    have hN' : (1 : ℚ) ≤ N := by exact_mod_cast hN
    rw [div_le_div_iff₀ (by positivity) hCq]
    linarith
  have h := Binary64.abs_round_sub_le_of_ge hnormal
  calc |Binary64.round ((N : ℚ) / C) * C - N|
      = |Binary64.round ((N : ℚ) / C) - N / C| * C := by
        rw [← abs_of_pos hCq, ← abs_mul, abs_of_pos hCq, sub_mul, div_mul_cancel₀ _ hCq.ne']
    _ ≤ N / C / 2 ^ 53 * C := mul_le_mul_of_nonneg_right h hCq.le
    _ = N / 2 ^ 53 := by field_simp

/-- That amount times `coinDenomination`, rounded: `N` units to within `5 N / 2 ^ 54`. -/
theorem abs_round_mul_sub (N : Nat) :
    |Binary64.round (Binary64.round ((N : ℚ) / C) * Binary64.round C) - N| ≤ 5 * N / 2 ^ 54 := by
  rw [Binary64.round_natCast hC]
  rcases Nat.eq_zero_or_pos N with rfl | hN
  · simp
  have hN' : (1 : ℚ) ≤ N := by exact_mod_cast hN
  obtain ⟨hlo, hhi⟩ := abs_le.mp (abs_round_div_mul_sub hC0 hC N)
  -- the product is near `N`, so in the normal range, and its rounding adds its own error
  have hp : (1 : ℚ) / 2 ^ 53 ≤ Binary64.round ((N : ℚ) / C) * C := by linarith
  obtain ⟨hlo', hhi'⟩ := abs_le.mp (Binary64.abs_round_sub_le_of_ge hp)
  rw [abs_le]
  constructor <;> linarith

/-- **A fee comes back as its units or one less**: a fee of `F` units below `2 ^ 51`, as `F / C`
rounded, is `F` or `F - 1` once multiplied by `coinDenomination` and cut to `uint64_t`. -/
theorem toUnits_round_div {F : Nat} (hF : F < 2 ^ 51) :
    F ≤ toUnits C (Binary64.round ((F : ℚ) / C)) + 1 ∧
      toUnits C (Binary64.round ((F : ℚ) / C)) ≤ F := by
  apply Binary64.natFloor_range
  have hF' : (F : ℚ) < 2 ^ 51 := by exact_mod_cast hF
  calc _ ≤ 5 * (F : ℚ) / 2 ^ 54 := abs_round_mul_sub hC0 hC F
    _ < 1 := by linarith

/-- One turn of the `utxoAmount` loop, over a coin of `N` units whose amount is `N / C` rounded:
where the sum stays below `2 ^ 51`, it adds `N` units or one less. -/
theorem addUtxoAmount_range {U N : Nat} {u : WalletUtxo}
    (hu : u.amount = Binary64.round ((N : ℚ) / C)) (hUN : U + N < 2 ^ 51) :
    U + N ≤ addUtxoAmount C U u + 1 ∧ addUtxoAmount C U u ≤ U + N := by
  unfold addUtxoAmount
  rw [hu, Binary64.round_natCast (show U < 2 ^ 53 by omega)]
  apply Binary64.natFloor_range
  rcases Nat.eq_zero_or_pos (U + N) with h0 | hpos
  · -- nothing is added to nothing
    obtain ⟨rfl, rfl⟩ : U = 0 ∧ N = 0 := by omega
    simp
  obtain ⟨hlo, hhi⟩ := abs_le.mp (abs_round_mul_sub hC0 hC N)
  have hU : (0 : ℚ) ≤ U := Nat.cast_nonneg U
  have hpos' : (1 : ℚ) ≤ U + N := by exact_mod_cast hpos
  have hbound : (U : ℚ) + N < 2 ^ 51 := by exact_mod_cast hUN
  -- the sum is near `U + N`, so in the normal range, and its rounding adds its own error
  have hs : (1 : ℚ) / 2 ^ 53 ≤
      (U : ℚ) + Binary64.round (Binary64.round ((N : ℚ) / C) * Binary64.round C) := by linarith
  obtain ⟨hlo', hhi'⟩ := abs_le.mp (Binary64.abs_round_sub_le_of_ge hs)
  push_cast
  rw [abs_lt]
  constructor <;> linarith

/-- **The `utxoAmount` loop loses at most one unit a coin**: over coins of `sat u` units each, whose
amounts are `sat u / C` rounded, where the sum stays below `2 ^ 51` units. -/
theorem foldl_addUtxoAmount_range {sat : WalletUtxo → Nat}
    (l : List WalletUtxo) (hl : ∀ u ∈ l, u.amount = Binary64.round ((sat u : ℚ) / C)) (U : Nat)
    (hsum : U + (l.map sat).sum < 2 ^ 51) :
    U + (l.map sat).sum ≤ l.foldl (addUtxoAmount C) U + l.length ∧
      l.foldl (addUtxoAmount C) U ≤ U + (l.map sat).sum := by
  induction l generalizing U with
  | nil => simp
  | cons u l ih =>
    simp only [List.map_cons, List.sum_cons, List.foldl_cons, List.length_cons] at hsum ⊢
    obtain ⟨h1, h2⟩ := addUtxoAmount_range hC0 hC (hl u List.mem_cons_self)
      (show U + sat u < 2 ^ 51 by omega)
    obtain ⟨h3, h4⟩ := ih (fun v hv => hl v (List.mem_cons_of_mem u hv)) (addUtxoAmount C U u)
      (by omega)
    omega

/-- Coins whose amounts are `sat u / C` rounded add up, in units, to at most their units and
`2 ^ -53` of them. -/
theorem amountSum_mul_le {sat : WalletUtxo → Nat}
    (l : List WalletUtxo) (hl : ∀ u ∈ l, u.amount = Binary64.round ((sat u : ℚ) / C)) :
    amountSum l * C ≤ ((l.map sat).sum : ℚ) + (l.map sat).sum / 2 ^ 53 := by
  induction l with
  | nil => simp
  | cons u l ih =>
    have hu := (abs_le.mp (abs_round_div_mul_sub hC0 hC (sat u))).2
    rw [← hl u List.mem_cons_self] at hu
    have := ih (fun v hv => hl v (List.mem_cons_of_mem u hv))
    simp only [amountSum_cons, List.map_cons, List.sum_cons, Nat.cast_add]
    linarith

end Units

/-! ## The funds check of the create handlers -/

section Funds

/-- The coins `takeInputs` adds one at a time: where all of them pay the amount and the fees of as
many inputs, it stops at coins that pay the amount and the fees of theirs. -/
theorem takeInputs_covers (minTxFee1 : Nat → Nat → ℚ) (outAmount fee2 : ℚ) {coins : List Coin}
    (hne : coins ≠ []) (n : Nat) (inAmount fee1 : ℚ)
    (h : outAmount + minTxFee1 (n + coins.length) 3 + fee2 ≤
      inAmount + (coins.map (·.amount)).sum) :
    outAmount + (takeInputs minTxFee1 outAmount fee2 coins n inAmount fee1).2 + fee2 ≤
      (takeInputs minTxFee1 outAmount fee2 coins n inAmount fee1).1 := by
  induction coins generalizing n inAmount fee1 with
  | nil => exact absurd rfl hne
  | cons c coins ih =>
    rw [takeInputs]
    split_ifs with hc
    · exact hc
    cases coins with
    | nil => simp at h; linarith
    | cons d coins =>
      apply ih (List.cons_ne_nil d coins)
      simp only [List.length_cons, List.map_cons, List.sum_cons] at h ⊢
      rw [show n + 1 + (coins.length + 1) = n + (coins.length + 1 + 1) by omega]
      linarith

/-- An order whose coins pay its amount and the fees of as many inputs passes the funds check. -/
theorem coversAmount_of_le (cf : Connector) (x : TransactionDescr) (hne : x.usedCoins ≠ [])
    (h : (x.fromAmount : ℚ) / TransactionDescr.COIN + cf.minTxFee1 x.usedCoins.length 3 +
      cf.minTxFee2 1 1 ≤ (x.usedCoins.map (·.amount)).sum) :
    x.coversAmount cf = true := by
  have hcov := takeInputs_covers cf.minTxFee1 ((x.fromAmount : ℚ) / TransactionDescr.COIN)
    (cf.minTxFee2 1 1) hne 0 0 0 (by simpa using h)
  unfold TransactionDescr.coversAmount
  simpa using hcov

end Funds

/-! ## The selection of a take -/

section Take

variable (srt : AmountSort) (addr : String) (minTxFee1 minTxFee2 : Nat → Nat → ℚ)
  (requiredAmount coinDenomination : Nat)

/-- `selectUtxos` as the take module's answer: the coins it picks among those offered. -/
def selectUtxosAnswer (outputs : List WalletUtxo) :
    Option { coins : List WalletUtxo // coins ⊆ outputs } :=
  match h : selectUtxos srt addr minTxFee1 minTxFee2 outputs requiredAmount coinDenomination with
  | none => none
  | some r => some ⟨r.1, (selectUtxos_subperm h).subset⟩

variable {srt addr minTxFee1 minTxFee2 requiredAmount coinDenomination}

theorem selectUtxosAnswer_eq_some {outputs : List WalletUtxo}
    {sel : { coins : List WalletUtxo // coins ⊆ outputs }}
    (h : selectUtxosAnswer srt addr minTxFee1 minTxFee2 requiredAmount coinDenomination outputs =
      some sel) :
    ∃ r, selectUtxos srt addr minTxFee1 minTxFee2 outputs requiredAmount coinDenomination = some r ∧
      sel.1 = r.1 := by
  unfold selectUtxosAnswer at h
  split at h
  · cases h
  · rename_i r hr
    cases h
    exact ⟨r, hr, rfl⟩

variable {env : TakeEnv} {connFrom : TakeConnector} {priorState : TransactionDescr.State}
  {l l' : Locks} {o o' : TakeOrder}

/-- A utxo selection that goes on to the rest of the take records as the order's coins what
`selectUtxos` picked, and leaves the order's amount. -/
theorem selectUtxosBlock_none (h : selectUtxosBlock env connFrom priorState l o = (none, o', l')) :
    ∃ outputs sel, env.selectUtxos outputs = some sel ∧
      o'.descr.usedCoins = sel.1.map WalletUtxo.toCoin ∧ o'.descr.fromAmount = o.descr.fromAmount := by
  unfold selectUtxosBlock at h
  dsimp only at h
  split_ifs at h
  · cases h
  · cases h
  · cases h
  split at h
  · cases h
  · rename_i sel hsel
    split_ifs at h
    · cases h
    split at h
    · cases h
      exact ⟨_, sel, hsel, rfl, rfl⟩
    · cases h

/-- A take that succeeds went through a utxo selection that went on, and the order it leaves has
that selection's coins and the order's amount. -/
theorem acceptXBridgeTransaction_selected {fromAddr toAddr : String}
    (h : (App.acceptXBridgeTransaction env fromAddr toAddr l o).1 = .ok .SUCCESS) :
    ∃ connFrom o'' l'', selectUtxosBlock env connFrom o.descr.state l (o.withState .trAccepting) =
        (none, o'', l'') ∧
      (App.acceptXBridgeTransaction env fromAddr toAddr l o).2.1.descr.usedCoins =
        o''.descr.usedCoins ∧
      (App.acceptXBridgeTransaction env fromAddr toAddr l o).2.1.descr.fromAmount =
        o''.descr.fromAmount := by
  unfold App.acceptXBridgeTransaction at h ⊢
  by_cases hbelow : .trAccepting ≤ o.descr.state
  · simp [hbelow] at h
  simp only [if_neg hbelow] at h ⊢
  split at h
  · rename_i connFrom connTo _ _
    -- the checks before the selection return errors other than `SUCCESS`
    split_ifs at h ⊢
    any_goals (simp at h; done)
    split at h
    · rename_i r o'' l'' hblock
      subst h
      exact absurd rfl (selectUtxosBlock_failed hblock).1
    · rename_i o'' l'' hblock
      exact ⟨connFrom, o'', l'', hblock, rfl, rfl⟩
  · simp at h

/-- **A take with this selection leaves coins that pass the funds check**: where the take
module's `selectUtxos` is `App::selectUtxos` for the order's amount, with the fees of the
connector the create handlers use, and `minTxFee1(1, 3) + minTxFee2(1, 1)` is not negative, a
take that succeeds leaves the order with coins that pass the funds check of
`processTransactionCreateA` and `processTransactionCreateB`. -/
theorem acceptXBridgeTransaction_coversAmount {cf : Connector} {fromAddr toAddr : String}
    (hsel : env.selectUtxos = selectUtxosAnswer srt addr cf.minTxFee1 cf.minTxFee2
      o.descr.fromAmount TransactionDescr.COIN)
    (hfee : 0 ≤ cf.minTxFee1 1 3 + cf.minTxFee2 1 1)
    (h : (App.acceptXBridgeTransaction env fromAddr toAddr l o).1 = .ok .SUCCESS) :
    (App.acceptXBridgeTransaction env fromAddr toAddr l o).2.1.descr.coversAmount cf = true := by
  obtain ⟨connFrom, o'', l'', hblock, hcoins, hamount⟩ := acceptXBridgeTransaction_selected h
  obtain ⟨outputs, sel, hsome, hused, hamount'⟩ := selectUtxosBlock_none hblock
  rw [hsel] at hsome
  obtain ⟨r, hr, hsel1⟩ := selectUtxosAnswer_eq_some hsome
  obtain ⟨hne, hcov⟩ := selectUtxos_covers hfee hr
  -- the order's coins are the selection's, and its amount is the one selected for
  have hcoins' : (App.acceptXBridgeTransaction env fromAddr toAddr l o).2.1.descr.usedCoins =
      r.1.map WalletUtxo.toCoin := by
    rw [hcoins, hused, hsel1]
  apply coversAmount_of_le
  · simpa [hcoins'] using hne
  · rw [hcoins', hamount, hamount']
    simpa [WalletUtxo.toCoin, Function.comp_def, amountSum, TakeOrder.withState] using hcov

/-- The wallets of `takeEnv`, whose selection is `App::selectUtxos` for the pending take with
the client module's sample connector (no fees). -/
def selectingEnv : TakeEnv :=
  { takeEnv true true with
    selectUtxos := selectUtxosAnswer AmountSort.insertion "b" sampleConnector.minTxFee1
      sampleConnector.minTxFee2 pendingTake.descr.fromAmount TransactionDescr.COIN }

theorem acceptXBridgeTransaction_coversAmount_sample :
    (App.acceptXBridgeTransaction selectingEnv "b" "c" emptyLocks pendingTake).1 = .ok .SUCCESS ∧
      (App.acceptXBridgeTransaction selectingEnv "b" "c" emptyLocks pendingTake).2.1.descr.coversAmount
        sampleConnector = true :=
  have h : (App.acceptXBridgeTransaction selectingEnv "b" "c" emptyLocks pendingTake).1 =
      .ok .SUCCESS := by decide +kernel
  ⟨h, acceptXBridgeTransaction_coversAmount rfl (by norm_num [sampleConnector]) h⟩

end Take

end Blocknet.XBridge
