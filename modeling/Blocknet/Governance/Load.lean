import Blocknet.Governance.Node
import Blocknet.Governance.Settled

/-!
# Loading the store at startup

`loadGovernanceData` rebuilds the store in two passes. The first replays every block from the
governance start with `processBlock` outside the chain tip, so that the tip checks (a stored
proposal, the voting cutoff, an unspent coin) filter no vote; it also collects the spent
prevouts and the outputs of the blocks. The second visits every vote kept and removes, spends or
keeps it by rules of its own (`loadVote`). The second pass changes only the hash of the vote it
visits and reads only the proposals (`loadVote_local`), so each hash ends as its own visit leaves
it, in whatever order the `unordered_map` is copied.

A vote whose latest change is inside the voting cutoff is removed by force, with its whole
history: every vote the load keeps is outside the voting cutoff of a stored proposal
(`loadGovernanceData_outside_cutoff`), and an earlier change of the same hash, outside the
cutoff, is lost with it. `BlockConnected` at the tip never records a change inside the cutoff
(`acceptVote_tip_outside_cutoff`), so it keeps the earlier vote. On the sample chain the two
runs give different votes for superblock 4 (`load_drops_vote_before_cutoff`).
-/

namespace Blocknet.Gov

open Blocknet.Lib

/-! ## The second pass is local to each vote hash -/

section Second

variable (params : Params) (chain : Chain) (sets : LoadSets)

theorem hasProposal_congr {g g' : Governance} (h : g.propView = g'.propView) (hash : Uint256)
    (blockNumber : Int) : g.hasProposal hash blockNumber = g'.hasProposal hash blockNumber := by
  unfold Governance.hasProposal
  rw [show g.proposals.lookup hash = g'.proposals.lookup hash from congrFun h hash]

theorem getProposal_congr {g g' : Governance} (h : g.propView = g'.propView) (hash : Uint256) :
    g.getProposal hash = g'.getProposal hash := by
  unfold Governance.getProposal
  rw [show g.proposals.lookup hash = g'.proposals.lookup hash from congrFun h hash]

/-- The output check of the second pass reads the chain and the collected outputs alone. -/
theorem checkUtxo_local (vote : Vote) :
    LocalOp Governance.viewAt Governance.propView vote.getHash
      (fun g => loadVote.checkUtxo chain sets g vote) := by
  unfold loadVote.checkUtxo
  cases chain.getTransaction vote.utxo.hash with
  | none => exact Governance.removeVote_local vote true
  | some r =>
    dsimp only
    split_ifs
    · exact Governance.removeVote_local vote true
    · exact LocalOp.id _
    · exact Governance.removeVote_local vote true

/-- **One visit of the second pass is local to the vote's hash.** Each branch removes the vote by
force, spends it, or keeps the store, and the branch is chosen on the stored proposals. -/
theorem loadVote_local (vote : Vote) :
    LocalOp Governance.viewAt Governance.propView vote.getHash
      (fun g => loadVote params chain sets g vote) := by
  unfold loadVote
  dsimp only
  refine LocalOp.cond (Governance.removeVote_local vote true) ?_ _
    (fun s t _ hf => by rw [hasProposal_congr hf])
  refine LocalOp.cond (Governance.removeVote_local vote true) ?_ _
    (fun s t _ hf => by rw [getProposal_congr hf])
  cases sets.spentPrevouts.lookup vote.utxo with
  | none => exact checkUtxo_local chain sets vote
  | some spent =>
    refine LocalOp.cond (Governance.updateVote_local _ vote.getHash spent.2) (checkUtxo_local chain
      sets vote) _ (fun s t _ hf => by rw [getProposal_congr hf])

/-- After its visit, the vote of a hash is gone, or the vote was outside the voting cutoff of a
stored proposal and the hash holds it, spent or not. -/
theorem loadVote_votes (g : Governance) {vote : Vote}
    (hv : g.votes.lookup vote.getHash = some vote) :
    (loadVote params chain sets g vote).votes.lookup vote.getHash = none ∨
      g.hasProposal vote.proposal vote.blockNumber = true ∧
        outsideVotingCutoff params (g.getProposal vote.proposal) vote.blockNumber = true ∧
        ∃ x, (loadVote params chain sets g vote).votes.lookup vote.getHash = some x ∧
          x.proposal = vote.proposal ∧ x.blockNumber = vote.blockNumber := by
  -- a forced removal leaves no vote at the hash
  have hremove : (g.removeVote vote true).votes.lookup vote.getHash = none := by
    have h := congrArg VoteView.vote (Governance.viewAt_removeVote g vote true vote.getHash)
    rw [if_pos rfl] at h
    refine h.trans ?_
    simp [VoteView.removeVote, Governance.viewAt, hv]
  have hcheck : (loadVote.checkUtxo chain sets g vote).votes.lookup vote.getHash = none ∨
      (loadVote.checkUtxo chain sets g vote).votes.lookup vote.getHash = some vote := by
    unfold loadVote.checkUtxo
    split
    · exact .inl hremove
    · split_ifs
      · exact .inl hremove
      · exact .inr hv
      · exact .inl hremove
  unfold loadVote
  dsimp only
  split_ifs with hhas hcut
  · exact .inl hremove
  · exact .inl hremove
  simp only [Bool.not_eq_true', Bool.not_eq_false] at hhas hcut
  -- past both checks: spent, kept or removed by the output check
  have hkeep : ∀ g' : Governance,
      g'.votes.lookup vote.getHash = none ∨ g'.votes.lookup vote.getHash = some vote →
      g'.votes.lookup vote.getHash = none ∨ g.hasProposal vote.proposal vote.blockNumber = true ∧
        outsideVotingCutoff params (g.getProposal vote.proposal) vote.blockNumber = true ∧
        ∃ x, g'.votes.lookup vote.getHash = some x ∧ x.proposal = vote.proposal ∧
          x.blockNumber = vote.blockNumber := by
    rintro g' (h | h)
    · exact .inl h
    · exact .inr ⟨hhas, hcut, vote, h, rfl, rfl⟩
  cases hsp : sets.spentPrevouts.lookup vote.utxo with
  | none => exact hkeep _ hcheck
  | some spent =>
    obtain ⟨txhash, height⟩ := spent
    dsimp only
    split_ifs
    · -- the spend changes the spent fields alone
      refine .inr ⟨hhas, hcut, ?_⟩
      have h := congrArg VoteView.vote (Governance.viewAt_updateVote
        (fun v => v.spend height txhash) g vote.getHash height vote.getHash)
      rw [if_pos rfl] at h
      rcases VoteView.updateVote_cases (fun v => v.spend height txhash) height
          (g.viewAt vote.getHash) with he | ⟨x, p, hx, -, -, he⟩
      · exact ⟨vote, h.trans (by rw [he]; exact hv), rfl, rfl⟩
      · have hxv : x = vote := Option.some.inj (hx.symm.trans hv)
        subst hxv
        exact ⟨x.spend height txhash, h.trans (by rw [he]), rfl, rfl⟩
    · exact hkeep _ hcheck

end Second

/-! ## What the load keeps -/

section Load

variable (cr : Crypto) (params : Params) {chain : Chain} {coins : OutPoint → Option Coin}

/-- The votes of a keyed store have distinct hashes: each is stored under its own. -/
theorem nodup_votes {g : Governance} (hk : g.Keyed) :
    ((g.votes.entries.map (·.2)).map Vote.getHash).Nodup := by
  have he : (g.votes.entries.map (·.2)).map Vote.getHash = g.votes.entries.map (·.1) := by
    rw [List.map_map]
    refine List.map_congr_left fun e he => ?_
    exact (hk e.1).1 e.2 (AList.mem_lookup_iff.mpr he)
  rw [he]
  exact g.votes.nodupKeys

/-- **Every vote a load from the empty store keeps is outside the voting cutoff** of a stored
proposal from an earlier block. A vote whose latest change is inside the cutoff is removed with
its whole history. -/
theorem loadGovernanceData_outside_cutoff {g' : Governance}
    (h : loadGovernanceData cr params chain coins {} = .ok g') {k : VoteHash} {x : Vote}
    (hx : g'.votes.lookup k = some x) :
    g'.hasProposal x.proposal x.blockNumber = true ∧
      outsideVotingCutoff params (g'.getProposal x.proposal) x.blockNumber = true := by
  unfold loadGovernanceData at h
  dsimp only at h
  split at h
  · cases h
    cases hx
  split at h
  · cases h
    cases hx
  obtain ⟨⟨sets, g1⟩, h1, h⟩ := except_bind_eq_ok h
  have hk1 : g1.Keyed := Steps.inv _ (fun g c hg => Governance.keyed_apply cr c hg)
    (loadBlocks_changes cr params h1) Governance.keyed_empty
  dsimp only at h
  split at h
  · -- the first pass read no vote
    rename_i hempty
    cases h
    rw [List.isEmpty_iff] at hempty
    have hnone : g'.votes.lookup k = none := by
      unfold AList.lookup
      rw [hempty]
      rfl
    rw [hnone] at hx
    cases hx
  cases h
  -- the second pass: each hash ends as its own visit leaves it
  have hl := fun v (_ : v ∈ g1.votes.entries.map (·.2)) => loadVote_local params chain sets v
  have hP := frame_foldl Vote.getHash (fun v g => loadVote params chain sets g v) hl g1
  rw [hasProposal_congr hP, getProposal_congr hP]
  by_cases hk : k ∈ (g1.votes.entries.map (·.2)).map Vote.getHash
  · obtain ⟨v, hv, rfl⟩ := List.mem_map.mp hk
    have hview := view_foldl_of_mem Vote.getHash (fun v g => loadVote params chain sets g v) hl
      (nodup_votes hk1) g1 hv
    have hx' : (loadVote params chain sets g1 v).votes.lookup v.getHash = some x :=
      (congrArg VoteView.vote hview).symm.trans hx
    -- the vote visited is the one stored under its hash
    obtain ⟨k', hk'⟩ := Map.mem_values.mp hv
    have hkv : v.getHash = k' := (hk1 k').1 v hk'
    rw [← hkv] at hk'
    rcases loadVote_votes params chain sets g1 hk' with hnone | ⟨hhas, hcut, y, hy, hyp, hyb⟩
    · rw [hnone] at hx'
      cases hx'
    · rw [hx', Option.some.injEq] at hy
      subst hy
      rw [hyp, hyb]
      exact ⟨hhas, hcut⟩
  · -- a hash the pass does not visit holds no vote
    have hview := view_foldl_of_notMem Vote.getHash (fun v g => loadVote params chain sets g v) hl
      g1 hk
    have hx' : g1.votes.lookup k = some x := (congrArg VoteView.vote hview).symm.trans hx
    exact absurd (List.mem_map.mpr ⟨x, Map.mem_values.mpr ⟨k, hx'⟩, (hk1 k).1 x hx'⟩) hk

end Load

/-! ## What the chain tip records -/

/-- At the chain tip past height 0, a vote recorded is of a stored proposal from its block or an
earlier one, and the block is outside the proposal's voting cutoff. -/
theorem acceptVote_tip_outside_cutoff (cr : Crypto) (params : Params) {chain : Chain}
    {coins : OutPoint → Option Coin} {g : Governance} {vh : Map VoteHash (List Bytes)}
    {blockHeight : Int} {vote v : Vote} (hpos : 0 < blockHeight)
    (h : acceptVote cr params chain coins g vh blockHeight true vote = .ok (some v)) :
    ∃ p, g.proposals.lookup vote.proposal = some p ∧ p.blockNumber ≤ vote.blockNumber ∧
      outsideVotingCutoff params p blockHeight = true := by
  obtain ⟨htip, -⟩ := acceptVote_eq_some cr params h
  unfold passesTipChecks at htip
  rw [if_pos rfl] at htip
  cases hp : g.proposals.lookup vote.proposal with
  | none =>
    rw [hp] at htip
    cases htip
  | some p =>
    rw [hp] at htip
    simp only [hpos, decide_true, Bool.not_true, Bool.false_or, Bool.not_or, Bool.not_not,
      Bool.and_eq_true, Bool.not_eq_true', decide_eq_false_iff_not, not_lt] at htip
    exact ⟨p, rfl, htip⟩

/-- On the sample chain, connecting the blocks one by one keeps the YES vote of block 2 for
superblock 4; loading the chain keeps no vote. Block 3 changes the vote to NO inside the voting
cutoff: the chain tip does not record the change, and the load records it and then removes the
hash with its history. -/
theorem load_drops_vote_before_cutoff :
    ((runOps Crypto.sample Params.sample
      [.reset, .blockConnected [block0] sampleCoins block0 0,
        .blockConnected [block0, block1] sampleCoins block1 1,
        .blockConnected [block0, block1, block2] sampleCoins block2 2,
        .blockConnected [block0, block1, block2, block3] sampleCoins block3 3] {}).map fun g =>
      (g.getSuperblockVotes 4).map fun v => (v.getHash, v.vote, v.amount)) =
        .ok [((sampleVote ⟨0x51, 0⟩ YES).getHash, YES, 100)] ∧
    ((runOps Crypto.sample Params.sample
      [.reset, .loadGovernanceData [block0, block1, block2, block3] sampleCoins] {}).map fun g =>
      (g.getSuperblockVotes 4).map fun v => (v.getHash, v.vote, v.amount)) = .ok [] :=
  ⟨by decide +kernel, by decide +kernel⟩

end Blocknet.Gov
