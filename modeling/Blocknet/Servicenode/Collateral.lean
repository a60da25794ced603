import Blocknet.Servicenode.Node
import Blocknet.Lib.Select
import Mathlib.Tactic.Linarith

/-!
# Finding collateral in the wallets (`ServiceNodeMgr::findCollateral`)

`findCollateral` gathers the coins of the wallets that are confirmed twice, not excluded and pay
to the servicenode's address, sorts them largest first, and takes the largest. If it falls short
of the tier's amount, it runs at most `snMaxCollateralCount` search rounds over the other coins.
Each round walks them from the smallest up and stops at the first one that completes the amount
with the coins selected so far; where none does, the round adds the largest of them to the
selection (`running`, `runningCoin`) and takes it off the list.

* `std::sort` is any `Sorter` for its comparator (`valueGreater`): the results hold for every
  order it may give equal coins. `runningCoin` is a `std::set` of coins compared by outpoint; the
  model keeps it as a list in the order the coins were added, so the collateral it returns lists
  the same outpoints as the source's, possibly in another order.
* `wallets` holds, for each wallet, the coins `registrationCoins` lists for it.

Results:
* `SearchInv`: what every state of the search keeps; `findCollateral_sound`: a collateral found
  is one coin at least, each a candidate coin, with distinct outpoints when the candidates have
  them, worth the tier's amount together; `length_findCollateral_le`: it has at most
  `snMaxCollateralCount + 1` outpoints.
* `findCollateral_exceeds_max`: the bound is reached. Every round adds a coin and the round that
  completes the amount adds one more, so `snMaxCollateralCount + 1` coins of one value that fall
  short by one coin of it are all taken, one more than `ServiceNode::isValid` admits.
-/

namespace Blocknet.Sn

open Blocknet.Lib

/-- `ServiceNodeMgr::collateralAmountForTier`. -/
def collateralAmountForTier (tier : UInt8) : Int :=
  if tier = Tier.SPV then ServiceNode.COLLATERAL_SPV else 0

/-- `COutput`, by what `findCollateral` reads of it: the outpoint and the output of
`GetInputCoin()`, and `nDepth`. -/
structure COutput where
  outpoint : OutPoint
  txout : TxOut
  nDepth : Int
  deriving DecidableEq, Repr

/-- The comparator of the sort: the larger value first. -/
def valueGreater (a b : COutput) : Bool := decide (b.txout.nValue < a.txout.nValue)

/-- The coins of one wallet that go into `allCoins`: confirmed twice, not excluded, and paying
to `dest`. -/
def collateralCandidates (cr : Crypto) (dest : CTxDestination) (excludedUtxos : List OutPoint)
    (coins : List COutput) : List COutput :=
  coins.filter fun coin =>
    decide (2 ≤ coin.nDepth) && !decide (coin.outpoint ∈ excludedUtxos) &&
      extractDestination cr coin.txout.scriptPubKey == some dest

/-- `allCoins`: the candidate coins of every wallet, wallet after wallet. -/
def allCoins (cr : Crypto) (dest : CTxDestination) (excludedUtxos : List OutPoint)
    (wallets : List (List COutput)) : List COutput :=
  wallets.flatMap (collateralCandidates cr dest excludedUtxos)

/-! ## The search rounds -/

/-- The state of the search: `running`, `runningCoin` (in the order the coins were added),
`searchCoins` and `done`. -/
structure Search where
  running : Int
  runningCoin : List COutput
  searchCoins : List COutput
  done : Bool

section Loops

variable (amount largestValue : Int)

/-- One iteration of the inner loop, at index `j`. -/
def searchStep (s : Search) (j : Nat) : Search :=
  match s.searchCoins[j]? with
  -- `j` stays below the size: the list shrinks only at `j = 0`, the last index visited
  | none => s
  | some next =>
    -- `runningCoin.count(next) > 0`: the set compares coins by outpoint
    if next.outpoint ∈ s.runningCoin.map (·.outpoint) then s
    else if amount ≤ largestValue + s.running + next.txout.nValue then
      { s with runningCoin := s.runningCoin ++ [next], done := true }
    else if j = 0 then
      { s with
        running := s.running + next.txout.nValue
        runningCoin := s.runningCoin ++ [next]
        searchCoins := s.searchCoins.drop 1 }
    else s

/-- The inner loop from index `j` down to `0`, left at the first coin that completes the amount. -/
def searchFrom : Nat → Search → Search
  | 0, s => searchStep amount largestValue s 0
  | j + 1, s =>
    let s := searchStep amount largestValue s (j + 1)
    if s.done then s else searchFrom j s

/-- One search round: the inner loop from the last index of `searchCoins`. -/
def searchRound (s : Search) : Search :=
  match s.searchCoins.length with
  | 0 => s
  | n + 1 => searchFrom amount largestValue n s

/-- `k` more rounds at most, left at the first that completes the amount. -/
def searchRounds : Nat → Search → Search
  | 0, s => s
  | k + 1, s =>
    let s := searchRound amount largestValue s
    if s.done then s else searchRounds k s

end Loops

/-- `ServiceNodeMgr::findCollateral`, with `std::sort` given as `sort`: `none` is `return false`,
`some collateral` the outpoints written to `collateral`. -/
def findCollateral (cr : Crypto) (sort : Sorter valueGreater) (env : Env) (tier : UInt8)
    (dest : CTxDestination) (wallets : List (List COutput)) (excludedUtxos : List OutPoint) :
    Option (List OutPoint) :=
  -- the sorted coins are a permutation of `allCoins`, empty exactly when it is
  match sort.sort (allCoins cr dest excludedUtxos wallets) with
  | [] => none
  | largest :: rest =>
    if collateralAmountForTier tier ≤ largest.txout.nValue then some [largest.outpoint]
    else if rest = [] then none
    else
      let s := searchRounds (collateralAmountForTier tier) largest.txout.nValue
        env.snMaxCollateralCount ⟨0, [], rest, false⟩
      if s.done then some ((largest :: s.runningCoin).map (·.outpoint)) else none

/-! ## One iteration, one round -/

section Step

variable (amount largestValue : Int)

/-- **What one iteration can do**: nothing; select a coin of the list not selected yet that
completes the amount, and stop; or, at index `0`, add the first coin of the list to the running
selection and take it off the list. -/
theorem searchStep_cases (s : Search) (j : Nat) :
    searchStep amount largestValue s j = s ∨
    (∃ next ∈ s.searchCoins, next.outpoint ∉ s.runningCoin.map (·.outpoint) ∧
      amount ≤ largestValue + s.running + next.txout.nValue ∧
      searchStep amount largestValue s j =
        { s with runningCoin := s.runningCoin ++ [next], done := true }) ∨
    (j = 0 ∧ ∃ next tl, s.searchCoins = next :: tl ∧
      next.outpoint ∉ s.runningCoin.map (·.outpoint) ∧
      searchStep amount largestValue s j =
        { s with
          running := s.running + next.txout.nValue
          runningCoin := s.runningCoin ++ [next]
          searchCoins := tl }) := by
  unfold searchStep
  split
  · exact .inl rfl
  · rename_i next hnext
    split_ifs with hheld hfits hj
    · exact .inl rfl
    · exact .inr (.inl ⟨next, List.mem_of_getElem? hnext, hheld, hfits, rfl⟩)
    · -- index `0` holds the first coin of the list
      subst hj
      cases hsc : s.searchCoins with
      | nil => rw [hsc] at hnext; cases hnext
      | cons c tl =>
        rw [hsc, List.getElem?_cons_zero, Option.some.injEq] at hnext
        subst hnext
        exact .inr (.inr ⟨rfl, c, tl, rfl, hheld, rfl⟩)
    · exact .inl rfl

/-- At an index above `0` an iteration changes the state only to stop, one coin more selected. -/
theorem searchStep_of_pos (s : Search) {j : Nat} (hj : 0 < j) :
    searchStep amount largestValue s j = s ∨
      ((searchStep amount largestValue s j).done = true ∧
        (searchStep amount largestValue s j).runningCoin.length = s.runningCoin.length + 1) := by
  rcases searchStep_cases amount largestValue s j with h | ⟨next, -, -, -, h⟩ | ⟨rfl, -⟩
  · exact .inl h
  · rw [h]
    exact .inr ⟨rfl, by rw [List.length_append, List.length_singleton]⟩
  · exact absurd hj (Nat.lt_irrefl 0)

theorem length_searchStep_le (s : Search) (j : Nat) :
    (searchStep amount largestValue s j).runningCoin.length ≤ s.runningCoin.length + 1 := by
  rcases searchStep_cases amount largestValue s j with
    h | ⟨next, -, -, -, h⟩ | ⟨-, next, tl, -, -, h⟩
  · rw [h]
    exact Nat.le_succ _
  · rw [h, List.length_append, List.length_singleton]
  · rw [h, List.length_append, List.length_singleton]

theorem searchFrom_of_done {s : Search} {j : Nat}
    (h : (searchStep amount largestValue s j).done = true) :
    searchFrom amount largestValue j s = searchStep amount largestValue s j := by
  cases j with
  | zero => rfl
  | succ j => rw [searchFrom, if_pos h]

theorem searchFrom_succ_of_not_done {s : Search} {j : Nat}
    (h : (searchStep amount largestValue s (j + 1)).done = false) :
    searchFrom amount largestValue (j + 1) s =
      searchFrom amount largestValue j (searchStep amount largestValue s (j + 1)) := by
  rw [searchFrom, if_neg (by rw [h]; exact Bool.false_ne_true)]

theorem searchRounds_succ_of_done {s : Search} {k : Nat}
    (h : (searchRound amount largestValue s).done = true) :
    searchRounds amount largestValue (k + 1) s = searchRound amount largestValue s := by
  rw [searchRounds, if_pos h]

theorem searchRounds_succ_of_not_done {s : Search} {k : Nat}
    (h : (searchRound amount largestValue s).done = false) :
    searchRounds amount largestValue (k + 1) s =
      searchRounds amount largestValue k (searchRound amount largestValue s) := by
  rw [searchRounds, if_neg (by rw [h]; exact Bool.false_ne_true)]

/-- A round selects one coin at most: the inner loop goes on only past iterations that change
nothing, and the iteration at `0` is its last. -/
theorem length_searchFrom_le : ∀ (j : Nat) (s : Search),
    (searchFrom amount largestValue j s).runningCoin.length ≤ s.runningCoin.length + 1
  | 0, s => length_searchStep_le amount largestValue s 0
  | j + 1, s => by
    rcases searchStep_of_pos amount largestValue s (Nat.succ_pos j) with h | ⟨hd, hlen⟩
    · rw [searchFrom, h]
      split
      · exact Nat.le_succ _
      · exact length_searchFrom_le j s
    · rw [searchFrom_of_done amount largestValue hd, hlen]

theorem length_searchRound_le (s : Search) :
    (searchRound amount largestValue s).runningCoin.length ≤ s.runningCoin.length + 1 := by
  unfold searchRound
  split
  · exact Nat.le_succ _
  · exact length_searchFrom_le amount largestValue _ s

/-- `k` rounds select `k` coins at most. -/
theorem length_searchRounds_le : ∀ (k : Nat) (s : Search),
    (searchRounds amount largestValue k s).runningCoin.length ≤ s.runningCoin.length + k
  | 0, s => Nat.le_refl _
  | k + 1, s => by
    have hround := length_searchRound_le amount largestValue s
    cases hd : (searchRound amount largestValue s).done with
    | true =>
      rw [searchRounds_succ_of_done amount largestValue hd]
      omega
    | false =>
      rw [searchRounds_succ_of_not_done amount largestValue hd]
      have := length_searchRounds_le k (searchRound amount largestValue s)
      omega

end Step

/-! ## What the search keeps -/

/-- What every state of the search keeps, over the coins `rest` it started from: the list left is
a suffix of `rest`; the coins selected are coins of `rest` with distinct outpoints; `running` is
their sum until the search is done, and then they complete the amount with the largest coin. -/
structure SearchInv (amount largestValue : Int) (rest : List COutput) (s : Search) : Prop where
  suffix : s.searchCoins <:+ rest
  mem : ∀ c ∈ s.runningCoin, c ∈ rest
  nodup : (s.runningCoin.map (·.outpoint)).Nodup
  running : s.done = false → s.running = (s.runningCoin.map (·.txout.nValue)).sum
  complete : s.done = true → amount ≤ largestValue + (s.runningCoin.map (·.txout.nValue)).sum

namespace SearchInv

variable {amount largestValue : Int} {rest : List COutput} {s : Search}

theorem init (rest : List COutput) : SearchInv amount largestValue rest ⟨0, [], rest, false⟩ where
  suffix := List.suffix_refl rest
  mem _ h := absurd h List.not_mem_nil
  nodup := List.nodup_nil
  running _ := rfl
  complete h := absurd h Bool.false_ne_true

theorem sum_select (rc : List COutput) (next : COutput) :
    ((rc ++ [next]).map (·.txout.nValue)).sum =
      (rc.map (·.txout.nValue)).sum + next.txout.nValue := by
  rw [List.map_append, List.sum_append, List.map_singleton, List.sum_singleton]

/-- Selecting a coin of the list that is not selected yet keeps the selection inside `rest` and
its outpoints distinct. -/
theorem select (hi : SearchInv amount largestValue rest s) {next : COutput}
    (hmem : next ∈ s.searchCoins) (hheld : next.outpoint ∉ s.runningCoin.map (·.outpoint)) :
    (∀ c ∈ s.runningCoin ++ [next], c ∈ rest) ∧
      ((s.runningCoin ++ [next]).map (·.outpoint)).Nodup := by
  refine ⟨fun c hc => ?_, ?_⟩
  · rcases List.mem_append.mp hc with hc | hc
    · exact hi.mem c hc
    · rw [List.mem_singleton.mp hc]
      exact hi.suffix.subset hmem
  · rw [List.map_append, List.map_singleton, ← List.concat_eq_append]
    exact hi.nodup.concat hheld

/-- An iteration of a search not yet done keeps the invariant. -/
theorem step (hi : SearchInv amount largestValue rest s) (hd : s.done = false) (j : Nat) :
    SearchInv amount largestValue rest (searchStep amount largestValue s j) := by
  rcases searchStep_cases amount largestValue s j with
    h | ⟨next, hmem, hheld, hfits, h⟩ | ⟨-, next, tl, hsc, hheld, h⟩
  · rw [h]
    exact hi
  · obtain ⟨hmem', hnodup⟩ := hi.select hmem hheld
    rw [h]
    refine ⟨hi.suffix, hmem', hnodup, (fun h => nomatch h), fun _ => ?_⟩
    -- `next` on top of the coins selected so far reaches the amount
    rw [sum_select, ← hi.running hd]
    omega
  · have hsuf : next :: tl <:+ rest := hsc ▸ hi.suffix
    obtain ⟨hmem', hnodup⟩ := hi.select (hsc ▸ List.mem_cons_self) hheld
    rw [h]
    refine ⟨(List.suffix_cons next tl).trans hsuf, hmem', hnodup, fun _ => ?_, fun h => ?_⟩
    · rw [sum_select, ← hi.running hd]
    · exact absurd (hd ▸ h) Bool.false_ne_true

theorem inner : ∀ (j : Nat) {s : Search}, SearchInv amount largestValue rest s → s.done = false →
    SearchInv amount largestValue rest (searchFrom amount largestValue j s)
  | 0, _, hi, hd => hi.step hd 0
  | j + 1, s, hi, hd => by
    cases h : (searchStep amount largestValue s (j + 1)).done with
    | true =>
      rw [searchFrom_of_done amount largestValue h]
      exact hi.step hd (j + 1)
    | false =>
      rw [searchFrom_succ_of_not_done amount largestValue h]
      exact inner j (hi.step hd (j + 1)) h

theorem round (hi : SearchInv amount largestValue rest s) (hd : s.done = false) :
    SearchInv amount largestValue rest (searchRound amount largestValue s) := by
  unfold searchRound
  split
  · exact hi
  · exact inner _ hi hd

theorem rounds : ∀ (k : Nat) {s : Search}, SearchInv amount largestValue rest s → s.done = false →
    SearchInv amount largestValue rest (searchRounds amount largestValue k s)
  | 0, _, hi, _ => hi
  | k + 1, s, hi, hd => by
    cases h : (searchRound amount largestValue s).done with
    | true =>
      rw [searchRounds_succ_of_done amount largestValue h]
      exact hi.round hd
    | false =>
      rw [searchRounds_succ_of_not_done amount largestValue h]
      exact rounds k (hi.round hd) h

end SearchInv


/-! ## What a collateral found is -/

section Found

variable {cr : Crypto} {sort : Sorter valueGreater} {env : Env} {tier : UInt8}
  {dest : CTxDestination} {wallets : List (List COutput)} {excludedUtxos : List OutPoint}

/-- **What `findCollateral` can return**: the largest candidate alone when it covers the amount,
or the largest followed by the coins of a search over the others that ended done. -/
theorem findCollateral_cases {collateral : List OutPoint}
    (h : findCollateral cr sort env tier dest wallets excludedUtxos = some collateral) :
    ∃ largest rest, sort.sort (allCoins cr dest excludedUtxos wallets) = largest :: rest ∧
      ((collateralAmountForTier tier ≤ largest.txout.nValue ∧ collateral = [largest.outpoint]) ∨
       ((searchRounds (collateralAmountForTier tier) largest.txout.nValue env.snMaxCollateralCount
          ⟨0, [], rest, false⟩).done = true ∧
        collateral = (largest :: (searchRounds (collateralAmountForTier tier) largest.txout.nValue
          env.snMaxCollateralCount ⟨0, [], rest, false⟩).runningCoin).map (·.outpoint))) := by
  unfold findCollateral at h
  split at h
  · cases h
  · rename_i largest rest hsorted
    refine ⟨largest, rest, hsorted, ?_⟩
    split_ifs at h with hcover hrest
    · exact .inl ⟨hcover, (Option.some.inj h).symm⟩
    · dsimp only at h
      split_ifs at h with hdone
      exact .inr ⟨hdone, (Option.some.inj h).symm⟩

/-- The coins of a collateral the search found: the largest candidate, then the coins the search
selected among the others. -/
theorem findCollateral_coins {collateral : List OutPoint}
    (h : findCollateral cr sort env tier dest wallets excludedUtxos = some collateral) :
    ∃ largest rest selected, sort.sort (allCoins cr dest excludedUtxos wallets) = largest :: rest ∧
      collateral = (largest :: selected).map (·.outpoint) ∧
      selected.length ≤ env.snMaxCollateralCount ∧ (∀ c ∈ selected, c ∈ rest) ∧
      (selected.map (·.outpoint)).Nodup ∧
      collateralAmountForTier tier ≤ ((largest :: selected).map (·.txout.nValue)).sum := by
  obtain ⟨largest, rest, hsorted, ⟨hcover, rfl⟩ | ⟨hdone, rfl⟩⟩ := findCollateral_cases h
  · refine ⟨largest, rest, [], hsorted, rfl, Nat.zero_le _, fun _ h => absurd h List.not_mem_nil,
      List.nodup_nil, ?_⟩
    rw [List.map_singleton, List.sum_singleton]
    exact hcover
  · -- the invariant at the end of the search, which ended done
    have hi : SearchInv (collateralAmountForTier tier) largest.txout.nValue rest
        (searchRounds (collateralAmountForTier tier) largest.txout.nValue env.snMaxCollateralCount
          ⟨0, [], rest, false⟩) :=
      (SearchInv.init rest).rounds env.snMaxCollateralCount rfl
    have hlen := length_searchRounds_le (collateralAmountForTier tier) largest.txout.nValue
      env.snMaxCollateralCount ⟨0, [], rest, false⟩
    refine ⟨largest, rest, _, hsorted, rfl, by simpa using hlen, hi.mem, hi.nodup, ?_⟩
    rw [List.map_cons, List.sum_cons]
    exact hi.complete hdone

/-- **A collateral found is sound**: one outpoint at least, each of a candidate coin (one that
pays to `dest`, is confirmed twice and is not excluded), distinct when the candidates' outpoints
are, and the coins are worth the tier's amount together. -/
theorem findCollateral_sound {collateral : List OutPoint}
    (h : findCollateral cr sort env tier dest wallets excludedUtxos = some collateral) :
    ∃ coins : List COutput, collateral = coins.map (·.outpoint) ∧ coins ≠ [] ∧
      (∀ c ∈ coins, c ∈ allCoins cr dest excludedUtxos wallets) ∧
      (((allCoins cr dest excludedUtxos wallets).map (·.outpoint)).Nodup → collateral.Nodup) ∧
      collateralAmountForTier tier ≤ (coins.map (·.txout.nValue)).sum := by
  obtain ⟨largest, rest, selected, hsorted, rfl, -, hsel, hnodup, hsum⟩ := findCollateral_coins h
  have hperm := sort.perm (allCoins cr dest excludedUtxos wallets)
  rw [hsorted] at hperm
  refine ⟨largest :: selected, rfl, List.cons_ne_nil _ _, fun c hc => ?_, fun hall => ?_, hsum⟩
  · -- every coin of the collateral is one of the sorted candidates
    apply hperm.subset
    rcases List.mem_cons.mp hc with rfl | hc
    · exact List.mem_cons_self
    · exact List.mem_cons_of_mem _ (hsel c hc)
  · -- the largest is not among the others, which hold every coin the search selected
    have hsorted_nodup := (hperm.map (·.outpoint)).nodup_iff.mpr hall
    rw [List.map_cons, List.nodup_cons] at hsorted_nodup
    rw [List.map_cons, List.nodup_cons]
    refine ⟨fun hmem => hsorted_nodup.1 ?_, hnodup⟩
    obtain ⟨c, hc, hop⟩ := List.mem_map.mp hmem
    exact List.mem_map.mpr ⟨c, hsel c hc, hop⟩

/-- A collateral found has at most `snMaxCollateralCount + 1` outpoints: the largest coin and one
for each round. -/
theorem length_findCollateral_le {collateral : List OutPoint}
    (h : findCollateral cr sort env tier dest wallets excludedUtxos = some collateral) :
    collateral.length ≤ env.snMaxCollateralCount + 1 := by
  obtain ⟨largest, rest, selected, -, rfl, hlen, -⟩ := findCollateral_coins h
  rw [List.length_map, List.length_cons]
  omega

end Found


/-! ## Coins of one value -/

/-- The coins left all have value `v`, distinct outpoints, and none of them is selected. -/
structure Fresh (v : Int) (s : Search) : Prop where
  value : ∀ c ∈ s.searchCoins, c.txout.nValue = v
  not_held : ∀ c ∈ s.searchCoins, c.outpoint ∉ s.runningCoin.map (·.outpoint)
  nodup : (s.searchCoins.map (·.outpoint)).Nodup

section Equal

variable {amount largestValue v : Int} {s : Search}

/-- Where one coin does not complete the amount, an iteration above `0` passes over its coin. -/
theorem searchStep_miss (hf : Fresh v s) (hshort : largestValue + s.running + v < amount)
    {j : Nat} (hj : 0 < j) : searchStep amount largestValue s j = s := by
  unfold searchStep
  split
  · rfl
  · rename_i next hnext
    have hmem := List.mem_of_getElem? hnext
    rw [if_neg (hf.not_held next hmem), if_neg (by rw [hf.value next hmem]; omega),
      if_neg (Nat.pos_iff_ne_zero.mp hj)]

/-- Where one coin completes the amount, an iteration selects its coin and stops. -/
theorem searchStep_hit (hf : Fresh v s) (hfits : amount ≤ largestValue + s.running + v) {j : Nat}
    {next : COutput} (hnext : s.searchCoins[j]? = some next) :
    searchStep amount largestValue s j =
      { s with runningCoin := s.runningCoin ++ [next], done := true } := by
  have hmem := List.mem_of_getElem? hnext
  unfold searchStep
  rw [hnext]
  dsimp only
  rw [if_neg (hf.not_held next hmem), if_pos (by rw [hf.value next hmem]; exact hfits)]

/-- A round in which one coin does not complete the amount adds the first coin of the list to the
selection. -/
theorem searchRound_miss (hf : Fresh v s) (hd : s.done = false)
    (hshort : largestValue + s.running + v < amount) {c : COutput} {tl : List COutput}
    (hsc : s.searchCoins = c :: tl) :
    searchRound amount largestValue s =
      { s with
        running := s.running + v
        runningCoin := s.runningCoin ++ [c]
        searchCoins := tl } := by
  -- every index above `0` is passed over, so the round is its iteration at `0`
  have hfrom : ∀ j, searchFrom amount largestValue j s = searchStep amount largestValue s 0 := by
    intro j
    induction j with
    | zero => rfl
    | succ j ih =>
      have hstep := searchStep_miss hf hshort (Nat.succ_pos j)
      rw [searchFrom_succ_of_not_done amount largestValue (by rw [hstep]; exact hd), hstep, ih]
  have hc : c ∈ s.searchCoins := by
    rw [hsc]
    exact List.mem_cons_self
  unfold searchRound
  rw [hsc, List.length_cons]
  dsimp only
  rw [hfrom]
  unfold searchStep
  rw [hsc, List.getElem?_cons_zero]
  dsimp only
  rw [← hsc, if_neg (hf.not_held c hc), if_neg (by rw [hf.value c hc]; omega), if_pos rfl,
    hf.value c hc, hsc]
  rfl

/-- A round in which one coin completes the amount selects the coin at the last index and stops. -/
theorem searchRound_hit (hf : Fresh v s) (hne : s.searchCoins ≠ [])
    (hfits : amount ≤ largestValue + s.running + v) :
    (searchRound amount largestValue s).done = true ∧
      (searchRound amount largestValue s).runningCoin.length = s.runningCoin.length + 1 := by
  unfold searchRound
  split
  · rename_i hlen
    exact absurd (List.length_eq_zero_iff.mp hlen) hne
  · rename_i n hlen
    obtain ⟨next, hnext⟩ : ∃ next, s.searchCoins[n]? = some next :=
      ⟨_, List.getElem?_eq_getElem (by omega)⟩
    have hstep := searchStep_hit hf hfits hnext
    rw [searchFrom_of_done amount largestValue (by rw [hstep]), hstep]
    exact ⟨rfl, by rw [List.length_append, List.length_singleton]⟩

/-- The next state of a missed round is fresh again: the coins left are the tail of the list. -/
theorem Fresh.tail (hf : Fresh v s) {c : COutput} {tl : List COutput}
    (hsc : s.searchCoins = c :: tl) (running : Int) :
    Fresh v
      { s with running := running, runningCoin := s.runningCoin ++ [c], searchCoins := tl } := by
  have hnodup := hf.nodup
  rw [hsc, List.map_cons, List.nodup_cons] at hnodup
  refine ⟨fun c' hc' => hf.value c' (hsc ▸ List.mem_cons_of_mem c hc'), fun c' hc' hheld => ?_,
    hnodup.2⟩
  rw [List.map_append, List.map_singleton, List.mem_append, List.mem_singleton] at hheld
  rcases hheld with hheld | hheld
  · exact hf.not_held c' (hsc ▸ List.mem_cons_of_mem c hc') hheld
  · exact hnodup.1 (hheld ▸ List.mem_map_of_mem hc')

/-- **Rounds over coins of one value**: with `n + 1` coins of value `v` left, that fall short of
the amount by more than one coin and complete it with all of them, `n + 1` rounds select them
all: each round but the last adds its first coin, and the last adds the one coin left. -/
theorem searchRounds_equal (hv : 0 ≤ v) : ∀ (n : Nat) (s : Search), Fresh v s → s.done = false →
    s.searchCoins.length = n + 1 → largestValue + s.running + n * v < amount →
    amount ≤ largestValue + s.running + (n + 1) * v →
    (searchRounds amount largestValue (n + 1) s).done = true ∧
      (searchRounds amount largestValue (n + 1) s).runningCoin.length =
        s.runningCoin.length + (n + 1)
  | 0, s, hf, _, hlen, _, hfits => by
    have hne : s.searchCoins ≠ [] := List.ne_nil_of_length_pos (by omega)
    have hfits' : amount ≤ largestValue + s.running + v := by
      simpa using hfits
    obtain ⟨hdone, hsel⟩ := searchRound_hit hf hne hfits'
    rw [searchRounds_succ_of_done amount largestValue hdone]
    exact ⟨hdone, hsel⟩
  | n + 1, s, hf, hd, hlen, hshort, hfits => by
    have hne : s.searchCoins ≠ [] := List.ne_nil_of_length_pos (by omega)
    obtain ⟨c, tl, hsc⟩ := List.exists_cons_of_ne_nil hne
    -- the first round misses: one coin falls short where `n + 1` of them do
    have hnv : (0 : Int) ≤ n * v := mul_nonneg (Int.natCast_nonneg n) hv
    have hshort' : largestValue + s.running + v < amount := by
      push_cast at hshort
      linarith
    have hround := searchRound_miss hf hd hshort' hsc
    have htl : tl.length = n + 1 := by
      rw [hsc, List.length_cons] at hlen
      omega
    have ih := searchRounds_equal hv n _ (hf.tail hsc (s.running + v)) hd htl
      (by push_cast at hshort ⊢; linarith) (by push_cast at hfits ⊢; linarith)
    rw [searchRounds_succ_of_not_done amount largestValue (by rw [hround]; exact hd), hround]
    refine ⟨ih.1, ?_⟩
    rw [ih.2, List.length_append, List.length_singleton]
    omega

end Equal

/-- `ServiceNode::isValid` refuses every servicenode with more than `snMaxCollateralCount`
collateral outpoints. -/
theorem isValid_of_collateral_count (cr : Crypto) (env : Env) {sn : ServiceNode}
    (h : env.snMaxCollateralCount < sn.collateral.length) (checkStale : Bool) :
    sn.isValid cr env checkStale = .ok false := by
  have hcount : sn.collateral.isEmpty = true ∨ env.snMaxCollateralCount < sn.collateral.length :=
    .inr h
  unfold ServiceNode.isValid
  simp only [hcount, if_true, ite_self]

/-- **`findCollateral` can return one outpoint more than `ServiceNode::isValid` admits**:
`snMaxCollateralCount + 1` candidate coins of one value `v`, with distinct outpoints, where
`snMaxCollateralCount` of them fall short of the tier's amount and all of them cover it, make a
collateral of all of them, whatever order the sort gives them. -/
theorem findCollateral_exceeds_max (cr : Crypto) (sort : Sorter valueGreater) (env : Env)
    (tier : UInt8) (dest : CTxDestination) (excludedUtxos : List OutPoint) (coins : List COutput)
    (v : Int)
    (hcoins : ∀ c ∈ coins, c.txout.nValue = v ∧ 2 ≤ c.nDepth ∧ c.outpoint ∉ excludedUtxos ∧
      extractDestination cr c.txout.scriptPubKey = some dest)
    (hnodup : (coins.map (·.outpoint)).Nodup) (hlen : coins.length = env.snMaxCollateralCount + 1)
    (hmax : 0 < env.snMaxCollateralCount)
    (hshort : env.snMaxCollateralCount * v < collateralAmountForTier tier)
    (hfits : collateralAmountForTier tier ≤ (env.snMaxCollateralCount + 1) * v) :
    ∃ collateral, findCollateral cr sort env tier dest [coins] excludedUtxos = some collateral ∧
      collateral.length = env.snMaxCollateralCount + 1 ∧
      ∀ (sn : ServiceNode) (checkStale : Bool), sn.collateral = collateral →
        sn.isValid cr env checkStale = .ok false := by
  obtain ⟨n, hn⟩ : ∃ n, env.snMaxCollateralCount = n + 1 := ⟨_, (Nat.succ_pred_eq_of_pos hmax).symm⟩
  have hall : allCoins cr dest excludedUtxos [coins] = coins := by
    rw [allCoins, List.flatMap_singleton, collateralCandidates, List.filter_eq_self]
    intro c hc
    obtain ⟨-, hdepth, hexcl, hdest⟩ := hcoins c hc
    simp [hdepth, hexcl, hdest]
  -- the sort gives the coins in some order: the largest is one of them, the rest the others
  have hperm := sort.perm coins
  obtain ⟨largest, rest, hsorted⟩ := List.exists_cons_of_ne_nil
    (List.ne_nil_of_length_pos (by rw [hperm.length_eq]; omega))
  rw [hsorted] at hperm
  have hvalue : ∀ c ∈ largest :: rest, c.txout.nValue = v := fun c hc =>
    (hcoins c (hperm.subset hc)).1
  have hnodup' := (hperm.map (·.outpoint)).nodup_iff.mpr hnodup
  rw [List.map_cons, List.nodup_cons] at hnodup'
  have hrest : rest.length = n + 1 := by
    have := hperm.length_eq
    rw [List.length_cons] at this
    omega
  -- the amount lies above one coin, and above `n + 1` coins, but not above `n + 2`
  rw [hn] at hshort hfits
  push_cast at hshort hfits
  have hv : 0 < v := by linarith
  have hlarge : ¬ collateralAmountForTier tier ≤ largest.txout.nValue := by
    rw [hvalue largest List.mem_cons_self]
    have : (0 : Int) ≤ n * v := mul_nonneg (Int.natCast_nonneg n) hv.le
    linarith
  have hrestne : rest ≠ [] := List.ne_nil_of_length_pos (by omega)
  have hfresh : Fresh v ⟨0, [], rest, false⟩ :=
    ⟨fun c hc => hvalue c (List.mem_cons_of_mem _ hc), fun _ _ h => absurd h List.not_mem_nil,
      hnodup'.2⟩
  have hshort' : largest.txout.nValue + 0 + n * v < collateralAmountForTier tier := by
    rw [hvalue largest List.mem_cons_self]
    linarith
  have hfits' : collateralAmountForTier tier ≤ largest.txout.nValue + 0 + (n + 1) * v := by
    rw [hvalue largest List.mem_cons_self]
    linarith
  obtain ⟨hdone, hsel⟩ := searchRounds_equal hv.le n _ hfresh rfl hrest hshort' hfits'
  refine ⟨(largest :: (searchRounds (collateralAmountForTier tier) largest.txout.nValue (n + 1)
    ⟨0, [], rest, false⟩).runningCoin).map (·.outpoint), ?_, ?_,
    fun sn checkStale hsn => isValid_of_collateral_count cr env ?_ checkStale⟩
  · simp only [findCollateral, hall, hsorted, if_neg hlarge, if_neg hrestne, hn, hdone, if_true]
  · rw [List.length_map, List.length_cons, hsel, hn, List.length_nil]
    omega
  · rw [hsn, List.length_map, List.length_cons, hsel, hn]
    omega


/-- Insertion sort by value, largest first: a sort `findCollateral` may use. -/
def valueSort : Sorter valueGreater :=
  Sorter.ofKey (fun c => -c.txout.nValue) fun a b => by
    simp only [valueGreater, neg_lt_neg_iff]

/-- Eleven coins of 455 each, at one pay-to-script-hash address, confirmed six times. -/
def elevenCoins : List COutput :=
  (List.range 11).map fun i =>
    ⟨⟨0, UInt32.ofNat i⟩, ⟨455 * COIN, payToScriptHash (List.replicate 20 7)⟩, 6⟩

theorem findCollateral_eleven_coins :
    ∃ collateral, findCollateral Crypto.sample valueSort (sampleEnv []) Tier.SPV
        (.scriptID (Uint160.ofBytes (List.replicate 20 7))) [elevenCoins] [] = some collateral ∧
      collateral.length = 11 ∧
      ∀ (sn : ServiceNode) (checkStale : Bool), sn.collateral = collateral →
        sn.isValid Crypto.sample (sampleEnv []) checkStale = .ok false :=
  findCollateral_exceeds_max Crypto.sample valueSort (sampleEnv []) Tier.SPV _ [] elevenCoins
    (455 * COIN)
    (fun c hc => by
      obtain ⟨i, -, rfl⟩ := List.mem_map.mp hc
      exact ⟨rfl, (by decide : (2 : Int) ≤ 6), List.not_mem_nil,
        extractDestination_p2sh Crypto.sample rfl⟩)
    (by decide) rfl (by decide) (by decide) (by decide)

end Blocknet.Sn
