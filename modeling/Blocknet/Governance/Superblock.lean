import Blocknet.Governance.Tally
import Blocknet.Governance.Node
import Blocknet.Governance.Load
import Blocknet.Lib.Select
import Blocknet.Lib.Pool
import Mathlib.Data.Prod.Lex
import Mathlib.Algebra.Order.Ring.Rat

/-!
# Superblocks

Model of the superblock code of `governance/governance.h`: `isSuperblock`,
`getProposalsForSuperblock`, `getSuperblockResults`, `getSuperblockPayees` and
`isValidSuperblock`, with what they read of `CBlock` and `CTransaction`.

* `getSuperblockResults` returns a `std::map<Proposal, Tally>`, ordered by proposal hash; the
  model returns its entries in that order. Its thresholds compare `double`s: the `int`s convert
  exactly, `* 0.25` is exact, and a quotient of `int`s that is not `3/5` is more than `2^-35` away
  from it, far more than the rounding of the division and of the literal `0.6`. So they are the
  comparisons of the rationals (`excluded`).
* `getSuperblockPayees` sorts with `std::sort`, which may order equivalent proposals either way:
  the model takes any `Sorter` for the comparator (`payeeLess`).
* `isValidSuperblock` matches the coinstake's outputs against the payees inside the predicate of
  `std::remove_if`, which erases the last payee equal to the output (`matchPayee`); `remove_if`
  applies its predicate once to each output, in order. The size check before it compares the
  sizes cast to `int` (`castInt`).

Results:
* `reachable_proposalsValid`: every proposal a reachable store holds passes `Proposal::isValid`.
* `payeeLess_eq`: the comparator is the order of net yes votes descending, then yes votes
  descending, then block number ascending (`rankKey`), a strict weak order.
* `getSuperblockPayees_greedy`: the payees are the greedy fill, in that ranking, of the budget
  `min(proposalMaxAmount, GetBlockSubsidy(superblock))`, each paid its amount at its address, and
  they are paid at most the budget.
* `getSuperblockPayees_tie`: two sorters that order two tied proposals differently give payees that
  are not the same multiset.
* `isValidSuperblock_iff`: on a store whose proposals are valid, at a superblock whose results are
  not empty, a proof-of-stake block is valid exactly when the payees are a sub-multiset of the
  coinstake's outputs, with at most two outputs more; `paymentsRet` is then the payees' total.
-/

namespace Blocknet.Gov

open Blocknet.Lib

variable (cr : Crypto) (params : Params)

/-- `Governance::isSuperblock`. -/
def isSuperblock (blockHeight : Int) : Bool :=
  params.governanceBlock ≤ blockHeight && blockHeight.tmod params.superblock == 0

namespace Governance

/-- `Governance::getProposals(superblock)`. -/
def getProposals (g : Governance) (superblock : Int) : List Proposal :=
  (g.proposals.entries.map (·.2)).filter fun p => p.superblock == superblock

/-- `Governance::getProposalsForSuperblock`: the proposals of the superblock, and the unspent
votes of the superblock on them. -/
def getProposalsForSuperblock (g : Governance) (superblock : Int) : List Proposal × List Vote :=
  let allProposals := (g.getProposals superblock).filter fun p => p.superblock == superblock
  let proposalHashes := allProposals.map (Proposal.getHash cr)
  (allProposals, (g.getSuperblockVotes superblock).filter fun v => proposalHashes.contains v.proposal)

end Governance

/-- The condition of the erase loop of `getSuperblockResults`: no yes or no votes, under 60% yes,
under a quarter of the superblock's unique votes, or no yes vote. -/
def excluded (tally : Tally) (uniqueVotes : Int) : Bool :=
  let total := tally.yes + tally.no + tally.abstain
  let yaynay := tally.yes + tally.no
  yaynay == 0 || decide ((tally.yes : ℚ) / yaynay < 3 / 5) ||
    decide ((total : ℚ) < (uniqueVotes : ℚ) * (1 / 4)) || decide (tally.yes ≤ 0)

/-- `r[proposal] = tally` on a `std::map<Proposal, Tally>`, keyed by the proposal's hash: a
proposal already there keeps its key and takes the new tally. -/
def setResult (r : Map Uint256 (Proposal × Tally)) (p : Proposal) (tally : Tally) :
    Map Uint256 (Proposal × Tally) :=
  match r.lookup (p.getHash cr) with
  | some (q, _) => r.insert (p.getHash cr) (q, tally)
  | none => r.insert (p.getHash cr) (p, tally)

/-- The unspent amount of the distinct outputs the votes spend (`uniqueAmount`). -/
def uniqueAmount (votes : List Vote) : Int :=
  (votes.foldl (fun (r : List OutPoint × Int) vote =>
    if r.1.contains vote.utxo then r else (r.1 ++ [vote.utxo], r.2 + vote.amount)) ([], 0)).2

/-- `Governance::getSuperblockResults(superblock, params, includeExcluded)`: the proposals of
the superblock with their tallies, by proposal hash. Those that fail the thresholds are dropped
unless `includeExcluded`; the others are marked for payout. -/
def Governance.getSuperblockResults (g : Governance) (superblock : Int)
    (includeExcluded : Bool := false) : List (Proposal × Tally) :=
  if !isSuperblock params superblock then []
  else
    let psvs := g.getProposalsForSuperblock cr superblock
    let uniqueVotes := castInt ((uniqueAmount psvs.2).tdiv params.voteBalance)
    let r := psvs.1.foldl (fun r p => setResult cr r p (getTally cr params (p.getHash cr) psvs.2)) ∅
    ((r.keys.insertionSort fun a b => !ltUint256 b a).filterMap r.lookup).filterMap fun e =>
      if excluded e.2 uniqueVotes then (if includeExcluded then some e else none)
      else some (e.1, { e.2 with payout := true })

/-! ## Payees -/

/-- The comparator of `getSuperblockPayees`. -/
def payeeLess (a b : Proposal × Tally) : Bool :=
  if a.2.netyes == b.2.netyes && a.2.yes == b.2.yes then decide (a.1.blockNumber < b.1.blockNumber)
  else if a.2.netyes == b.2.netyes then decide (a.2.yes > b.2.yes)
  else decide (a.2.netyes > b.2.netyes)

/-- The ranking the comparator sorts by: net yes votes descending, then yes votes descending,
then the block of the proposal ascending. -/
def rankKey (e : Proposal × Tally) : Lex (Int × Lex (Int × Int)) :=
  toLex (-e.2.netyes, toLex (-e.2.yes, e.1.blockNumber))

/-- The comparator is the strict order of `rankKey`. -/
theorem payeeLess_eq (a b : Proposal × Tally) : payeeLess a b = decide (rankKey a < rankKey b) := by
  unfold payeeLess rankKey
  simp only [Prod.Lex.toLex_lt_toLex, beq_iff_eq, Bool.and_eq_true]
  split_ifs with h1 h2
  · simp only [h1.1, h1.2, lt_self_iff_false, true_and, false_or]
  · simp only [h2, lt_self_iff_false, neg_inj, false_or, true_and]
    rw [Bool.eq_iff_iff, decide_eq_true_iff, decide_eq_true_iff]
    omega
  · rw [Bool.eq_iff_iff, decide_eq_true_iff, decide_eq_true_iff]
    omega

/-- The output that pays a proposal: its amount, to the script of its address. -/
def payee (e : Proposal × Tally) : TxOut := ⟨e.1.amount, params.scriptForAddress e.1.address⟩

/-- The do-while loop of `getSuperblockPayees` over the sorted proposals: a proposal whose amount
fits in what is left of `superblockTotal` is paid, and charged to it. -/
def fillPayees : List (Proposal × Tally) → Int → List TxOut → List TxOut
  | [], _, r => r
  | result :: props, superblockTotal, r =>
    if superblockTotal - result.1.amount ≥ 0 then
      fillPayees props (superblockTotal - result.1.amount) (r ++ [payee params result])
    else fillPayees props superblockTotal r

/-- `Governance::getSuperblockPayees`, with `std::sort` done by `sort`. -/
def getSuperblockPayees (sort : Sorter payeeLess) (superblock : Int)
    (results : List (Proposal × Tally)) : List TxOut :=
  if results.isEmpty then []
  else
    let superblockTotal := min params.proposalMaxAmount (params.GetBlockSubsidy superblock)
    fillPayees params (sort.sort results) superblockTotal []

/-- The loop of `getSuperblockPayees` pays the greedy fill of its budget. -/
theorem fillPayees_eq (props : List (Proposal × Tally)) (b : Int) (r : List TxOut) :
    fillPayees params props b r = r ++ (greedy (·.1.amount) b props).map (payee params) := by
  induction props generalizing b r with
  | nil => simp [fillPayees, greedy]
  | cons e props ih =>
    simp only [fillPayees, greedy, ge_iff_le]
    split_ifs
    · rw [ih]
      simp
    · exact ih b r

/-- The budget of a superblock is not negative. -/
theorem budget_nonneg (superblock : Int) :
    0 ≤ min params.proposalMaxAmount (params.GetBlockSubsidy superblock) :=
  le_min params.proposalMaxAmount_nonneg (params.GetBlockSubsidy_nonneg superblock)

/-- The payees are the greedy fill of the budget, in the order the sorter returns. -/
theorem getSuperblockPayees_eq (sort : Sorter payeeLess) (superblock : Int)
    (results : List (Proposal × Tally)) :
    getSuperblockPayees params sort superblock results =
      (greedy (·.1.amount) (min params.proposalMaxAmount (params.GetBlockSubsidy superblock))
        (sort.sort results)).map (payee params) := by
  unfold getSuperblockPayees
  split_ifs with he
  · have hnil : sort.sort results = [] := List.perm_nil.mp ((sort.perm results).trans
      (List.isEmpty_iff.mp he ▸ List.Perm.refl []))
    rw [hnil]
    rfl
  · rw [fillPayees_eq]
    rfl

/-- The payees of a superblock: the proposals ranked by net yes votes, yes votes and block, each
paid its amount at its address when it fits in the budget left by those before it; in all at most
`min(proposalMaxAmount, GetBlockSubsidy(superblock))`. -/
theorem getSuperblockPayees_greedy (sort : Sorter payeeLess) (superblock : Int)
    (results : List (Proposal × Tally)) :
    let budget := min params.proposalMaxAmount (params.GetBlockSubsidy superblock)
    let ranked := sort.sort results
    ranked.Perm results ∧ ranked.Pairwise (fun a b => rankKey a ≤ rankKey b) ∧
      getSuperblockPayees params sort superblock results =
        (greedy (·.1.amount) budget ranked).map (payee params) ∧
      ((getSuperblockPayees params sort superblock results).map (·.nValue)).sum ≤ budget := by
  intro budget ranked
  have hpay := getSuperblockPayees_eq params sort superblock results
  refine ⟨sort.perm results, sort.pairwise_key payeeLess_eq results, hpay, ?_⟩
  rw [hpay, List.map_map]
  exact sum_greedy_le (w := fun e : Proposal × Tally => e.1.amount) (budget_nonneg params superblock)
    ranked

/-- Results that each fit in the budget pay someone. -/
theorem getSuperblockPayees_ne_nil (sort : Sorter payeeLess) {superblock : Int}
    {results : List (Proposal × Tally)} (hres : results ≠ [])
    (hfit : ∀ e ∈ results,
      e.1.amount ≤ min params.proposalMaxAmount (params.GetBlockSubsidy superblock)) :
    getSuperblockPayees params sort superblock results ≠ [] := by
  rw [getSuperblockPayees_eq, Ne, List.map_eq_nil_iff]
  have hperm := sort.perm results
  refine greedy_ne_nil (fun h => hres (List.perm_nil.mp (h ▸ hperm).symm)) fun e he => ?_
  exact hfit e (hperm.mem_iff.mp he)

/-- Two proposals of one block with the same tally, asking 60 and 50: a budget of 100 fits
either but not both. -/
def tiedResults : List (Proposal × Tally) :=
  [({ name := [97, 97], superblock := 4, amount := 60, address := [1] }, { yes := 1 }),
    ({ name := [98, 98], superblock := 4, amount := 50, address := [2] }, { yes := 1 })]

/-- Insertion sort and insertion sort of the reversed input are both sorters for the
comparator, and they give payees that are not the same multiset. -/
theorem getSuperblockPayees_tie :
    ¬ (getSuperblockPayees Params.sample (Sorter.ofKey rankKey payeeLess_eq) 4 tiedResults).Perm
      (getSuperblockPayees Params.sample (Sorter.ofKey rankKey payeeLess_eq).reverseInput 4
        tiedResults) := by
  decide

/-! ## Every stored proposal is valid -/

/-- Every proposal the store holds passes `Proposal::isValid`. -/
def Governance.ProposalsValid (g : Governance) : Prop :=
  ∀ ph p, g.proposals.lookup ph = some p → p.isValid params = true

section Valid

variable {cr params} {g g' : Governance}

theorem proposalsValid_empty : ({} : Governance).ProposalsValid params := by
  intro ph p hp
  cases hp

theorem Governance.ProposalsValid.of_propView (hg : g.ProposalsValid params) (h : g'.propView = g.propView) :
    g'.ProposalsValid params :=
  fun ph p hp => hg ph p ((congrFun h ph).symm.trans hp)

theorem Governance.ProposalsValid.addProposal (hg : g.ProposalsValid params) {p : Proposal}
    (hp : p.isValid params = true) : (g.addProposal cr p).ProposalsValid params := by
  intro ph q hq
  unfold Governance.addProposal at hq
  split_ifs at hq
  · exact hg ph q hq
  · rw [Map.lookup_insert_eq_ite] at hq
    split_ifs at hq
    · cases hq
      exact hp
    · exact hg ph q hq

theorem Governance.ProposalsValid.removeProposal (hg : g.ProposalsValid params) (p : Proposal) :
    (g.removeProposal cr p).ProposalsValid params := by
  intro ph q hq
  unfold Governance.removeProposal at hq
  rw [Map.lookup_erase_eq_ite] at hq
  split_ifs at hq
  exact hg ph q hq

theorem Governance.ProposalsValid.disconnectProposals (hg : g.ProposalsValid params) (ps : List Proposal)
    (blockHeight : Int) :
    (ps.foldl (disconnectProposal cr params blockHeight) g).ProposalsValid params := by
  refine foldl_inv (fun s : Governance => s.ProposalsValid params) _ (fun s p _ hs => ?_) hg
  unfold disconnectProposal
  split
  · exact hs
  · split_ifs
    · exact hs
    · exact hs.removeProposal p
    · exact hs

variable {chain : Chain} {coins : OutPoint → Option Coin} {block : Block} {blockHeight : Int}

theorem processBlock_proposalsValid {tip : Bool} (hg : g.ProposalsValid params)
    (h : processBlock cr params chain coins g block blockHeight tip = .ok g') :
    g'.ProposalsValid params := by
  unfold processBlock at h
  obtain ⟨parsed, -, h⟩ := except_bind_eq_ok h
  obtain ⟨⟨ps, vs⟩, hf, h⟩ := except_bind_eq_ok h
  unfold filterDataFromBlock at hf
  obtain ⟨_, -, hf⟩ := except_bind_eq_ok hf
  cases hf
  -- the block's proposals that are recorded passed `isValid`; votes and spends keep them
  have h1 : ((recordedProposals params parsed blockHeight).foldl (Governance.addProposal cr)
      g).ProposalsValid params :=
    foldl_inv (fun s : Governance => s.ProposalsValid params) _ (fun s p hp hs => by
      unfold recordedProposals at hp
      rw [List.mem_filter, Bool.and_eq_true] at hp
      exact Governance.ProposalsValid.addProposal hs hp.2.2) hg
  have h2 := h1.of_propView (propView_addVotes vs _)
  dsimp only at h
  split at h
  · cases h
    exact h2
  · cases h
    exact h2.of_propView (propView_spendVotes cr _ block blockHeight)

theorem BlockDisconnected_proposalsValid (hg : g.ProposalsValid params)
    (h : BlockDisconnected cr params chain g block blockHeight = .ok g') :
    g'.ProposalsValid params := by
  unfold BlockDisconnected at h
  split at h
  · cases h
    exact hg
  obtain ⟨parsed, -, h⟩ := except_bind_eq_ok h
  obtain ⟨g1, h1, h⟩ := except_bind_eq_ok h
  have hv : g1.ProposalsValid params := by
    refine foldlM_inv (fun s : Governance => s.ProposalsValid params) _
      (fun s v s' _ hs hs' => ?_) hg h1
    unfold disconnectVote at hs'
    split at hs'
    · cases hs'
      exact hs
    · obtain ⟨b, -, hs'⟩ := except_bind_eq_ok hs'
      split at hs'
      · cases hs'
        exact hs.of_propView (Governance.propView_removeVote s v false)
      · cases hs'
        exact hs
  have hp := @Governance.ProposalsValid.disconnectProposals cr params _ hv parsed.proposals
    blockHeight
  split at h
  · cases h
    exact hp
  · cases h
    exact hp.of_propView (propView_unspendVotes cr _ block blockHeight)

theorem loadBlocks_proposalsValid :
    ∀ {blocks : List Block} {height : Int} {sets sets' : LoadSets} {g g' : Governance},
      g.ProposalsValid params →
      loadBlocks cr params chain coins blocks height (sets, g) = .ok (sets', g') →
        g'.ProposalsValid params
  | [], _, _, _, _, _, hg, h => by
    cases h
    exact hg
  | block :: rest, height, sets, sets', g, g', hg, h => by
    unfold loadBlocks at h
    obtain ⟨g1, h1, h⟩ := except_bind_eq_ok h
    exact loadBlocks_proposalsValid (processBlock_proposalsValid hg h1) h

theorem loadGovernanceData_proposalsValid (hg : g.ProposalsValid params)
    (h : loadGovernanceData cr params chain coins g = .ok g') : g'.ProposalsValid params := by
  unfold loadGovernanceData at h
  dsimp only at h
  split at h
  · cases h
    exact hg
  split at h
  · cases h
    exact hg
  obtain ⟨⟨sets, g1⟩, h1, h⟩ := except_bind_eq_ok h
  have hl := loadBlocks_proposalsValid hg h1
  dsimp only at h
  split at h
  · cases h
    exact hl
  · cases h
    -- the second pass only removes and spends votes
    exact foldl_inv (fun s : Governance => s.ProposalsValid params) _
      (fun s v _ hs => Governance.ProposalsValid.of_propView hs
        ((loadVote_local params chain sets v).keep s)) hl

/-- Every call keeps the proposals valid. -/
theorem Op.run_proposalsValid {op : Op} (hg : g.ProposalsValid params)
    (h : Op.run cr params g op = .ok g') : g'.ProposalsValid params := by
  cases op with
  | processBlock => exact processBlock_proposalsValid hg h
  | blockConnected chain coins block height =>
    change BlockConnected cr params chain coins g block height = .ok g' at h
    unfold BlockConnected at h
    split at h
    · cases h
      exact hg
    · exact processBlock_proposalsValid hg h
  | blockDisconnected => exact BlockDisconnected_proposalsValid hg h
  | loadGovernanceData => exact loadGovernanceData_proposalsValid hg h
  | reset =>
    cases h
    exact proposalsValid_empty

/-- A running node only ever holds valid proposals. -/
theorem reachable_proposalsValid (h : Reachable cr params g) : g.ProposalsValid params := by
  induction h with
  | refl => exact proposalsValid_empty
  | tail _ hstep ih =>
    obtain ⟨op, hop⟩ := hstep
    exact Op.run_proposalsValid ih hop

end Valid

/-! ## Validating a superblock -/

/-- The loop of the predicate of `isValidSuperblock`'s `remove_if`: the last index below `i`
whose payee is `vout`. -/
def findPayee (payees : List TxOut) (vout : TxOut) : Nat → Option Nat
  | 0 => none
  | i + 1 => if payees[i]? = some vout then some i else findPayee payees vout i

/-- The predicate of `remove_if` on an output, with the payees it erases from and the outputs
`remove_if` keeps: an output equal to a payee erases the last such payee and is removed, any
other output is kept. -/
def matchPayee (r : List TxOut × List TxOut) (vout : TxOut) : List TxOut × List TxOut :=
  match findPayee r.1 vout r.1.length with
  | some i => (r.1.eraseIdx i, r.2)
  | none => (r.1, r.2 ++ [vout])

/-- `Governance::isValidSuperblock(block, blockHeight, params, paymentsRet)`: whether the block
pays the superblock, and `paymentsRet` after the call. -/
def Governance.isValidSuperblock (g : Governance) (sort : Sorter payeeLess) (block : Block)
    (blockHeight : Int) (paymentsRet : Int) : Bool × Int :=
  if !isSuperblock params blockHeight then (false, paymentsRet)
  else if !block.IsProofOfStake then (false, paymentsRet)
  else
    let results := g.getSuperblockResults cr params blockHeight
    if results.isEmpty then (true, paymentsRet)
    else
      let payees := getSuperblockPayees params sort blockHeight results
      if payees.isEmpty then (false, paymentsRet)
      else
        let paymentsRet := (payees.map (·.nValue)).sum
        let vouts := (block.vtx[1]?.map Transaction.vout).getD []
        if castInt vouts.length - castInt payees.length > 2 then (false, paymentsRet)
        else
          let r := vouts.foldl matchPayee (payees, [])
          (decide (r.2.length ≤ 2) && r.1.isEmpty, paymentsRet)

theorem findPayee_some {payees : List TxOut} {vout : TxOut} :
    ∀ {n i : Nat}, findPayee payees vout n = some i → payees[i]? = some vout
  | 0, _, h => by cases h
  | n + 1, i, h => by
    unfold findPayee at h
    split_ifs at h with hn
    · cases h
      exact hn
    · exact findPayee_some h

theorem findPayee_none {payees : List TxOut} {vout : TxOut} :
    ∀ {n : Nat}, findPayee payees vout n = none → ∀ i < n, payees[i]? ≠ some vout
  | 0, _, i, hi => absurd hi (Nat.not_lt_zero i)
  | n + 1, h, i, hi => by
    unfold findPayee at h
    split_ifs at h with hn
    rcases Nat.lt_succ_iff_lt_or_eq.mp hi with hi | rfl
    · exact findPayee_none h i hi
    · exact hn

/-- The predicate of `remove_if` is a step of a matching pass, with the payees as the pool. -/
theorem matchPayee_step (r : List TxOut × List TxOut) (vout : TxOut) :
    MatchStep r vout (matchPayee r vout) := by
  unfold MatchStep matchPayee
  cases hf : findPayee r.1 vout r.1.length with
  | some i =>
    have hi := findPayee_some hf
    rw [if_pos (List.mem_of_getElem? hi)]
    exact ⟨eraseIdx_perm_erase hi, rfl⟩
  | none =>
    have hout : vout ∉ r.1 := fun hm => by
      obtain ⟨i, hi, hget⟩ := List.getElem_of_mem hm
      exact findPayee_none hf i hi (List.getElem?_eq_some_iff.mpr ⟨hi, hget⟩)
    rw [if_neg hout]

/-- Sizes that differ by at most two pass the early check: their `int` casts differ by the same
amount, or by it less `2^32`. -/
theorem castInt_sub_le_two {a b : Nat} (h1 : b ≤ a) (h2 : a ≤ b + 2) :
    castInt a - castInt b ≤ 2 := by
  unfold castInt Int.bmod
  dsimp only
  split_ifs <;> omega

/-- The proposals of the results of a superblock are stored proposals of that superblock. -/
theorem lookup_foldl_setResult {ps : List Proposal} {tally : Proposal → Tally} {k : Uint256}
    {e : Proposal × Tally} (h : (ps.foldl (fun r p => setResult cr r p (tally p)) ∅).lookup k = some e) :
    e.1 ∈ ps := by
  refine foldl_inv (fun r : Map Uint256 (Proposal × Tally) => ∀ k e, r.lookup k = some e → e.1 ∈ ps)
    _ (fun r p hp hr k e he => ?_) (fun k e he => by cases he) k e h
  unfold setResult at he
  split at he <;> rw [Map.lookup_insert_eq_ite] at he <;> split_ifs at he
  · -- a proposal already there keeps its entry
    rename_i q t hq _
    cases he
    exact hr _ (q, t) hq
  · exact hr k e he
  · cases he
    exact hp
  · exact hr k e he

theorem mem_getProposalsForSuperblock {g : Governance} {superblock : Int} {p : Proposal}
    (hp : p ∈ (g.getProposalsForSuperblock cr superblock).1) :
    (∃ ph, g.proposals.lookup ph = some p) ∧ p.superblock = superblock := by
  unfold Governance.getProposalsForSuperblock Governance.getProposals at hp
  simp only [List.mem_filter, beq_iff_eq] at hp
  exact ⟨Map.mem_values.mp hp.1.1, hp.1.2⟩

theorem mem_getSuperblockResults {g : Governance} {superblock : Int} {includeExcluded : Bool}
    {e : Proposal × Tally} (he : e ∈ g.getSuperblockResults cr params superblock includeExcluded) :
    (∃ ph, g.proposals.lookup ph = some e.1) ∧ e.1.superblock = superblock := by
  unfold Governance.getSuperblockResults at he
  split at he
  · cases he
  obtain ⟨e0, he0, hf⟩ := List.mem_filterMap.mp he
  have hfst : e0.1 = e.1 := by
    split_ifs at hf <;> cases hf <;> rfl
  obtain ⟨k, -, hk⟩ := List.mem_filterMap.mp he0
  exact hfst ▸ mem_getProposalsForSuperblock cr (lookup_foldl_setResult cr hk)

/-- On a store of valid proposals, each result of a superblock fits in its budget. -/
theorem amount_le_of_mem_getSuperblockResults {g : Governance} (hg : g.ProposalsValid params)
    {superblock : Int} {e : Proposal × Tally} (he : e ∈ g.getSuperblockResults cr params superblock) :
    e.1.amount ≤ min params.proposalMaxAmount (params.GetBlockSubsidy superblock) := by
  obtain ⟨⟨ph, hph⟩, hsb⟩ := mem_getSuperblockResults cr params he
  have hv := hg ph e.1 hph
  unfold Proposal.isValid at hv
  simp only [Bool.and_eq_true, decide_eq_true_eq] at hv
  obtain ⟨⟨⟨⟨⟨⟨-, -⟩, -, hamount⟩, -⟩, -⟩, -⟩, -⟩ := hv
  exact hsb ▸ hamount

/-- On a store of valid proposals, a proof-of-stake block at a superblock with results pays it
exactly when the payees are among the coinstake's outputs, counted with multiplicity, and the
coinstake has at most two outputs more; `paymentsRet` is then what the payees are paid. -/
theorem isValidSuperblock_iff {g : Governance} (hg : g.ProposalsValid params)
    (sort : Sorter payeeLess) {block : Block} {blockHeight : Int} {coinstake : Transaction}
    (paymentsRet : Int) (hsb : isSuperblock params blockHeight = true)
    (hvtx : block.vtx[1]? = some coinstake) (hcs : coinstake.IsCoinStake = true)
    (hres : g.getSuperblockResults cr params blockHeight ≠ []) :
    let payees := getSuperblockPayees params sort blockHeight
      (g.getSuperblockResults cr params blockHeight)
    ((g.isValidSuperblock cr params sort block blockHeight paymentsRet).1 = true ↔
        payees.Subperm coinstake.vout ∧ coinstake.vout.length ≤ payees.length + 2) ∧
      (g.isValidSuperblock cr params sort block blockHeight paymentsRet).2 =
        (payees.map (·.nValue)).sum := by
  have hpos : block.IsProofOfStake = true := by
    unfold Block.IsProofOfStake
    match hb : block.vtx, hvtx with
    | _ :: tx :: _, h =>
      cases h
      exact hcs
  have hvouts : (block.vtx[1]?.map Transaction.vout).getD [] = coinstake.vout := by
    rw [hvtx]
    rfl
  have hpay := getSuperblockPayees_ne_nil params sort hres
    fun e he => amount_le_of_mem_getSuperblockResults cr params hg he
  dsimp only
  unfold Governance.isValidSuperblock
  dsimp only
  generalize getSuperblockPayees params sort blockHeight
    (g.getSuperblockResults cr params blockHeight) = payees at hpay ⊢
  simp only [hsb, hpos, Bool.not_true, Bool.false_eq_true, if_false, List.isEmpty_iff, hres, hpay,
    hvouts]
  -- the matching pass empties the payees exactly on a sub-multiset, and keeps what is left over
  have hnil := foldl_matchStep_nil_iff matchPayee_step coinstake.vout (payees, [])
  have hlen := foldl_matchStep_length matchPayee_step coinstake.vout (payees, [])
  dsimp only at hnil hlen
  simp only [List.length_nil, zero_add] at hlen
  split_ifs with hearly
  · refine ⟨⟨False.elim, fun ⟨hsub, hle⟩ => ?_⟩, rfl⟩
    exact absurd (castInt_sub_le_two hsub.length_le hle) (not_le.mpr hearly)
  · refine ⟨?_, rfl⟩
    rw [Bool.and_eq_true, decide_eq_true_eq, List.isEmpty_iff, hnil]
    constructor
    · rintro ⟨hkept, hsub⟩
      rw [hnil.mpr hsub, List.length_nil, add_zero] at hlen
      exact ⟨hsub, by omega⟩
    · rintro ⟨hsub, hle⟩
      rw [hnil.mpr hsub, List.length_nil, add_zero] at hlen
      exact ⟨by omega, hsub⟩

/-- A proposal for the superblock at height 4 asking 10 at address `[1]`, with one yes vote. -/
def sbProposal : Proposal := { name := [97, 98], superblock := 4, amount := 10, address := [1] }

def sbStore : Governance :=
  [{ proposal := sbProposal.getHash Crypto.sample, vote := YES, amount := 1, utxo := ⟨5, 0⟩ }].foldl
    Governance.addVote (({} : Governance).addProposal Crypto.sample sbProposal)

/-- A block whose coinstake pays the proposal and two more outputs. -/
def sbCoinstake : Transaction :=
  { hash := 1, vin := [⟨⟨5, 0⟩, []⟩], vout := [⟨0, []⟩, ⟨10, [1]⟩, ⟨3, [2]⟩] }

def sbBlock : Block :=
  { hash := 2, time := 0, vtx := [{ hash := 0, vin := [], vout := [] }, sbCoinstake] }

theorem isValidSuperblock_sample :
    (sbStore.ProposalsValid Params.sample ∧ isSuperblock Params.sample 4 = true ∧
      sbBlock.vtx[1]? = some sbCoinstake ∧ sbCoinstake.IsCoinStake = true ∧
      sbStore.getSuperblockResults Crypto.sample Params.sample 4 ≠ []) ∧
    let sort := Sorter.ofKey rankKey payeeLess_eq
    let payees := getSuperblockPayees Params.sample sort 4
      (sbStore.getSuperblockResults Crypto.sample Params.sample 4)
    ((sbStore.isValidSuperblock Crypto.sample Params.sample sort sbBlock 4 0).1 = true ↔
        payees.Subperm sbCoinstake.vout ∧ sbCoinstake.vout.length ≤ payees.length + 2) ∧
      (sbStore.isValidSuperblock Crypto.sample Params.sample sort sbBlock 4 0).2 =
        (payees.map (·.nValue)).sum := by
  have hg : sbStore.ProposalsValid Params.sample :=
    (proposalsValid_empty.addProposal (by decide)).of_propView (propView_addVotes _ _)
  have hres : sbStore.getSuperblockResults Crypto.sample Params.sample 4 ≠ [] := by
    decide +kernel
  exact ⟨⟨hg, by decide, rfl, by decide, hres⟩,
    isValidSuperblock_iff Crypto.sample Params.sample hg _ 0 (by decide) rfl (by decide) hres⟩

example : sbStore.isValidSuperblock Crypto.sample Params.sample (Sorter.ofKey rankKey payeeLess_eq)
    sbBlock 4 0 = (true, 10) := by
  decide +kernel

end Blocknet.Gov
