import Blocknet.Governance.Parse
import Blocknet.Governance.Store

/-!
# Connecting, disconnecting and loading blocks

Model of `Governance::filterDataFromBlock`, `processBlock`, `BlockConnected`,
`BlockDisconnected` and `loadGovernanceData` (`governance.h`).

Each is a function of the store, the block, its height, and what the chain lookups see: the
active chain for `GetTransaction` (`ValidateVoteUTXO`), and the coins view for `IsVoteSpent`.
The validation interface delivers `BlockConnected` and `BlockDisconnected` from a queue, so the
chain they see is an argument, not the chain at the time the block was connected.

A `Fault` of the parser or of `loadVoteUTXO` ends the whole operation, as the C++ exception or
crash would; the store is then not updated (`Except`).

`loadGovernanceData` is modelled single-threaded (`nthreads = 1`): its first pass runs
`processBlock` without the chain-tip checks on every block from `governanceBlock` to the tip,
collecting the spent prevouts and the outputs of those blocks, and its second pass removes or
spends votes by those sets. The shutdown and disk-read failures are left out: the chain is given
as the list of its blocks.
-/

namespace Blocknet.Gov

open Blocknet.Lib

variable (cr : Crypto) (params : Params)

/-- `Governance::outsideProposalCutoff`. -/
def outsideProposalCutoff (proposal : Proposal) (blockNumber : Int) : Bool :=
  if proposal.isNull then false else blockNumber < proposal.superblock - params.proposalCutoff

/-- `Governance::outsideVotingCutoff`. -/
def outsideVotingCutoff (proposal : Proposal) (blockNumber : Int) : Bool :=
  if proposal.isNull then false else blockNumber < proposal.superblock - params.votingCutoff

/-! ## `filterDataFromBlock` -/

/-- The chain tip checks of `filterDataFromBlock`: at the tip, the vote's proposal is known and,
past height 0, is from the vote's block or an earlier one and outside the voting cutoff. -/
def passesTipChecks (g : Governance) (blockHeight : Int) (processingChainTip : Bool)
    (vote : Vote) : Bool :=
  if processingChainTip then
    match g.proposals.lookup vote.proposal with
    | none => false
    | some proposal =>
      !(0 < blockHeight) ||
        !(vote.blockNumber < proposal.blockNumber ||
          !outsideVotingCutoff params proposal blockHeight)
  else true

/-- What the loop of `filterDataFromBlock` does with one vote read from the block: `some` of the
vote to record, with the key id and amount of its output, or `none` where the loop `continue`s.
The store `g` is only read. -/
def acceptVote (chain : Chain) (coins : OutPoint → Option Coin) (g : Governance)
    (vh : Map VoteHash (List Bytes)) (blockHeight : Int) (processingChainTip : Bool)
    (vote : Vote) : Except Fault (Option Vote) := do
  if !passesTipChecks params g blockHeight processingChainTip vote then return none
  let voteHash := vote.getHash
  match ← vote.loadVoteUTXO cr params chain with
  | none => return none
  | some vote =>
    match vh.lookup voteHash with
    | none => return none
    | some vhashes =>
      if !vote.isValidWithVinHashes cr vhashes params then return none
      -- a change of a known vote from the same or a later block is recorded unchecked; only a
      -- new vote is checked against the coins view
      let isChange : Bool := match g.votes.lookup voteHash with
        | some stored => stored.blockNumber ≤ vote.blockNumber
        | none => false
      if !isChange && processingChainTip &&
          IsVoteSpent coins vote blockHeight params.governanceBlock then
        return none
      return some vote

/-- One vote of the loop of `filterDataFromBlock`: a vote recorded replaces the one with its
hash among the votes kept so far. -/
def filterVote (chain : Chain) (coins : OutPoint → Option Coin) (g : Governance)
    (vh : Map VoteHash (List Bytes)) (blockHeight : Int) (processingChainTip : Bool)
    (vsRet : List Vote) (vote : Vote) : Except Fault (List Vote) := do
  match ← acceptVote cr params chain coins g vh blockHeight processingChainTip vote with
  | none => return vsRet
  | some vote => return insertVote vsRet vote

/-- `Governance::filterDataFromBlock`: the proposals and the votes of the block to record. -/
def filterDataFromBlock (chain : Chain) (coins : OutPoint → Option Coin) (g : Governance)
    (parsed : Parsed) (blockHeight : Int) (processingChainTip : Bool) :
    Except Fault (List Proposal × List Vote) := do
  let ps := parsed.proposals.filter fun p =>
    !(0 < blockHeight && !outsideProposalCutoff params p blockHeight) && p.isValid params
  let vs ← parsed.votes.foldlM
    (filterVote cr params chain coins g parsed.vinHashes blockHeight processingChainTip) []
  return (ps, vs)

/-- What a vote recorded from a block carries of its output: `loadVoteUTXO` set its amount to the
value of the output it spends, and `Vote::isValid` checked that amount against
`voteMinUtxoAmount`. -/
def LoadedAmount (chain : Chain) (v : Vote) : Prop :=
  params.voteMinUtxoAmount ≤ v.amount ∧ ∃ tx height out,
    chain.getTransaction v.utxo.hash = some (tx, height) ∧ tx.vout[v.utxo.n.toNat]? = some out ∧
      v.amount = out.nValue

section Amount

variable {cr params} {chain : Chain} {coins : OutPoint → Option Coin} {g : Governance}
  {vh : Map VoteHash (List Bytes)} {blockHeight : Int} {processingChainTip : Bool}

theorem acceptVote_amount {vote v : Vote}
    (h : acceptVote cr params chain coins g vh blockHeight processingChainTip vote = .ok (some v)) :
    LoadedAmount params chain v := by
  unfold acceptVote at h
  cases ht : passesTipChecks params g blockHeight processingChainTip vote
  · simp [ht] at h
    cases h
  cases hl : vote.loadVoteUTXO cr params chain with
  | error e => simp [ht, hl] at h
  | ok r =>
    obtain _ | w := r
    · simp [ht, hl] at h
      cases h
    · simp only [ht, hl, Bool.not_true, Bool.false_eq_true, if_false, except_ok_bind] at h
      -- the vote returned is the loaded one, which passed `Vote::isValid`
      split at h
      · cases h
      split_ifs at h with hvalid
      · cases h
      · cases h
      · cases h
        obtain ⟨hutxo, tx, height, out, hfind, hout, hamount⟩ := loadVoteUTXO_amount hl
        have hmin : params.voteMinUtxoAmount ≤ v.amount := by
          simp [Vote.isValidWithVinHashes, Vote.isValid] at hvalid
          exact hvalid.1.1.1.2
        exact ⟨hmin, tx, height, out, hutxo ▸ hfind, hutxo ▸ hout, hamount⟩

/-- Every vote `filterDataFromBlock` returns to record was loaded from its output and checked by
`Vote::isValid`. -/
theorem filterDataFromBlock_amount {parsed : Parsed} {ps : List Proposal} {vs : List Vote}
    (h : filterDataFromBlock cr params chain coins g parsed blockHeight processingChainTip =
      .ok (ps, vs)) :
    ∀ v ∈ vs, LoadedAmount params chain v := by
  unfold filterDataFromBlock at h
  obtain ⟨vs', hvs, h⟩ := except_bind_eq_ok h
  cases h
  refine foldlM_inv (fun acc => ∀ v ∈ acc, LoadedAmount params chain v) _
    (fun acc vote acc' _ hacc hstep => ?_) (by simp) hvs
  unfold filterVote at hstep
  obtain ⟨r, hr, hstep⟩ := except_bind_eq_ok hstep
  cases r with
  | none =>
    cases hstep
    exact hacc
  | some w =>
    cases hstep
    intro v hv
    rcases mem_insertVote hv with hv | rfl
    · exact hacc v hv
    · exact acceptVote_amount hr

end Amount

/-- A vote that passes the tip checks and pays to a script hash output, in the chain from the
governance start on and by the vote's block, makes `filterDataFromBlock` dereference the key id
that `boost::get<CKeyID>` does not return. -/
theorem filterDataFromBlock_p2sh {chain : Chain} {coins : OutPoint → Option Coin}
    {g : Governance} {parsed : Parsed} {blockHeight : Int} {processingChainTip : Bool}
    {v : Vote} {vs : List Vote} {tx : Transaction} {height : Nat} {value : Int} {h : Bytes}
    (hvotes : parsed.votes = v :: vs)
    (htip : passesTipChecks params g blockHeight processingChainTip v = true)
    (hfind : chain.getTransaction v.utxo.hash = some (tx, height))
    (hout : tx.vout[v.utxo.n.toNat]? = some ⟨value, payToScriptHash h⟩) (hl : h.length = 20)
    (hstart : params.governanceBlock ≤ height) (hbefore : (height : Int) ≤ v.blockNumber) :
    filterDataFromBlock cr params chain coins g parsed blockHeight processingChainTip =
      .error .nullDeref := by
  have hv : filterVote cr params chain coins g parsed.vinHashes blockHeight processingChainTip
      [] v = .error .nullDeref := by
    simp [filterVote, acceptVote, htip, loadVoteUTXO_p2sh hfind hout hl hstart hbefore]
  simp only [filterDataFromBlock, hvotes, foldlM_error_of_head _ hv vs, except_error_bind]

/-- A vote read at height 1, outside the chain tip, whose output is the script hash output of
the only transaction of block 1. -/
theorem filterDataFromBlock_p2sh_vote :
    filterDataFromBlock Crypto.sample Params.sample
      [⟨0, 0, []⟩, ⟨1, 0, [⟨5, [], [⟨1, payToScriptHash (List.replicate 20 0)⟩]⟩]⟩]
      (fun _ => none) {} { votes := [{ utxo := ⟨5, 0⟩, blockNumber := 1 }] } 1 false =
      .error .nullDeref :=
  @filterDataFromBlock_p2sh Crypto.sample Params.sample _ _ _ _ _ _ _ []
    ⟨5, [], [⟨1, payToScriptHash (List.replicate 20 0)⟩]⟩ 1 1 (List.replicate 20 0)
    rfl rfl rfl rfl (by decide) (by decide) (by decide)

/-! ## `processBlock` and `BlockConnected` -/

/-- The prevouts a block spends, each with the last transaction of the block that spends it
(`prevouts[vin.prevout] = tx->GetHash()`). -/
def prevoutsOf (block : Block) : Map OutPoint Uint256 :=
  block.vtx.foldl (fun m tx => tx.vin.foldl (fun m vin => m.insert vin.prevout tx.hash) m) ∅

/-- The votes the spend pass of `processBlock` (and the unspend pass of `BlockDisconnected`)
visits: those of the proposals whose superblock is at or after `blockHeight`. -/
def votesSince (g : Governance) (blockHeight : Int) (returnSpent : Bool) : List Vote :=
  (g.getProposalsSince blockHeight).flatMap fun p => g.getVotes (p.getHash cr) returnSpent

/-- The spend pass: every visited vote whose output the block spends. -/
def spendVotes (g : Governance) (block : Block) (blockHeight : Int) : Governance :=
  let prevouts := prevoutsOf block
  (votesSince cr g blockHeight false).foldl (fun g v =>
    match prevouts.lookup v.utxo with
    | none => g
    | some txhash => g.spendVote v.getHash blockHeight txhash) g

/-- `Governance::processBlock`. -/
def processBlock (chain : Chain) (coins : OutPoint → Option Coin) (g : Governance)
    (block : Block) (blockHeight : Int) (processingChainTip : Bool) : Except Fault Governance := do
  let parsed ← dataFromBlock cr block blockHeight
  let (ps, vs) ← filterDataFromBlock cr params chain coins g parsed blockHeight processingChainTip
  let g := ps.foldl (Governance.addProposal cr) g
  let g := vs.foldl Governance.addVote g
  if !processingChainTip || g.votes.entries.isEmpty then return g
  return spendVotes cr g block blockHeight

/-- `Governance::BlockConnected` for a block at `height`. -/
def BlockConnected (chain : Chain) (coins : OutPoint → Option Coin) (g : Governance)
    (block : Block) (height : Int) : Except Fault Governance :=
  if height < params.governanceBlock then pure g
  else processBlock cr params chain coins g block height true

/-! ## `BlockDisconnected` -/

/-- Whether the removal loop of `BlockDisconnected` removes a vote read from the block, given
the vote `stvote` stored under its hash. -/
def disconnectRemoves (chain : Chain) (parsed : Parsed) (vouts : List Uint256)
    (blockHeight : Int) (stvote vote : Vote) : Except Fault Bool := do
  -- `vh.find(voteHash)` never fails: every vote the parser returns has its vin hashes
  let vhashes := (parsed.vinHashes.lookup vote.getHash).getD []
  -- a vote whose output the block itself created cannot be loaded any more
  if vouts.contains vote.utxo.hash && stvote.isValidVinHash vhashes &&
      stvote.pubkey.GetID cr == vote.pubkey.GetID cr then
    return true
  match ← vote.loadVoteUTXO cr params chain with
  | none => return false
  | some vote =>
    if !vote.isValidWithVinHashes cr vhashes params then return false
    return stvote.blockNumber == blockHeight

/-- One vote of the removal loop of `BlockDisconnected`. The C++ code removes the vote after
loading its output into it; `removeVote` reads its hash and proposal alone, which loading does
not change. -/
def disconnectVote (chain : Chain) (parsed : Parsed) (vouts : List Uint256) (blockHeight : Int)
    (g : Governance) (vote : Vote) : Except Fault Governance := do
  match g.votes.lookup vote.getHash with
  | none => return g
  | some stvote =>
    if ← disconnectRemoves cr params chain parsed vouts blockHeight stvote vote then
      return g.removeVote vote
    return g

/-- One proposal of the removal loop of `BlockDisconnected`: removed if it was recorded from this
block. -/
def disconnectProposal (blockHeight : Int) (g : Governance) (proposal : Proposal) : Governance :=
  match g.proposals.lookup (proposal.getHash cr) with
  | none => g
  | some stprop =>
    if !proposal.isValid params then g
    else if stprop.blockNumber == blockHeight then g.removeProposal cr proposal
    else g

/-- The unspend pass: every visited vote, spent or not, whose output the block spends. -/
def unspendVotes (g : Governance) (block : Block) (blockHeight : Int) : Governance :=
  let prevouts := prevoutsOf block
  (votesSince cr g blockHeight true).foldl (fun g v =>
    match prevouts.lookup v.utxo with
    | none => g
    | some txhash => g.unspendVote v.getHash blockHeight txhash) g

/-- `std::numeric_limits<int>::max()`. -/
def maxInt : Int := 2147483647

/-- `Governance::BlockDisconnected` for a block at `blockHeight` (`LookupBlockIndex`'s height). -/
def BlockDisconnected (chain : Chain) (g : Governance) (block : Block) (blockHeight : Int) :
    Except Fault Governance := do
  if blockHeight < params.governanceBlock then return g
  let parsed ← dataFromBlock cr block blockHeight
  let vouts := block.vtx.map (·.hash)
  let g ← parsed.votes.foldlM (disconnectVote cr params chain parsed vouts blockHeight) g
  let g := parsed.proposals.foldl (disconnectProposal cr params blockHeight) g
  if blockHeight == maxInt then return g
  return unspendVotes cr g block blockHeight

/-! ## `loadGovernanceData` -/

/-- The sets the first pass of `loadGovernanceData` collects: each spent prevout with the last
transaction and height spending it, and the outputs of the blocks read. -/
structure LoadSets where
  spentPrevouts : Map OutPoint (Uint256 × Int) := ∅
  chainVouts : List OutPoint := []

/-- What the first pass records of one block. -/
def LoadSets.addBlock (sets : LoadSets) (block : Block) (height : Int) : LoadSets :=
  block.vtx.foldl (fun sets tx =>
    { spentPrevouts := tx.vin.foldl (fun m vin => m.insert vin.prevout (tx.hash, height))
        sets.spentPrevouts
      chainVouts := sets.chainVouts ++
        (List.range tx.vout.length).map fun i => ⟨tx.hash, UInt32.ofNat i⟩ }) sets

/-- The first pass over the blocks at `height` and after. -/
def loadBlocks (chain : Chain) (coins : OutPoint → Option Coin) :
    List Block → Int → LoadSets × Governance → Except Fault (LoadSets × Governance)
  | [], _, acc => pure acc
  | block :: rest, height, (sets, g) => do
    let g ← processBlock cr params chain coins g block height false
    loadBlocks chain coins rest (height + 1) (sets.addBlock block height, g)

/-- One vote of the second pass of `loadGovernanceData`. -/
def loadVote (chain : Chain) (sets : LoadSets) (g : Governance) (vote : Vote) : Governance :=
  if !g.hasProposal vote.proposal vote.blockNumber then g.removeVote vote true
  else
    let proposal := g.getProposal vote.proposal
    if !outsideVotingCutoff params proposal vote.blockNumber then g.removeVote vote true
    else
      match sets.spentPrevouts.lookup vote.utxo with
      | some (txhash, height) =>
        if height ≤ proposal.superblock then g.spendVote vote.getHash height txhash
        else checkUtxo chain sets g vote
      | none => checkUtxo chain sets g vote
where
  /-- The rest of the second pass: the vote's output must be in the chain by the vote's block,
  and among the outputs the first pass saw. -/
  checkUtxo (chain : Chain) (sets : LoadSets) (g : Governance) (vote : Vote) : Governance :=
    match chain.getTransaction vote.utxo.hash with
    | none => g.removeVote vote true
    | some (_, height) =>
      if vote.blockNumber < height then g.removeVote vote true
      else if sets.chainVouts.contains vote.utxo then g
      else g.removeVote vote true

/-- `Governance::loadGovernanceData` with one thread, on a chain whose tip is its last block. -/
def loadGovernanceData (chain : Chain) (coins : OutPoint → Option Coin) (g : Governance) :
    Except Fault Governance := do
  let blockHeight : Int := chain.length - 1
  if blockHeight == 0 || blockHeight < params.governanceBlock then return g
  -- `chain[blockNumber]` is null for a negative height: the load fails before any block
  if params.governanceBlock < 0 then return g
  let start := params.governanceBlock.toNat
  let (sets, g) ← loadBlocks cr params chain coins (chain.drop start) start ({}, g)
  if g.votes.entries.isEmpty then return g
  let tmpvotes := g.votes.entries.map (·.2)
  return tmpvotes.foldl (loadVote params chain sets) g

/-! ## Every operation is a run of member functions -/

section Changes

variable {chain : Chain} {coins : OutPoint → Option Coin} {g g' : Governance}

theorem addProposals_changes (ps : List Proposal) (g : Governance) :
    Governance.Changes cr g (ps.foldl (Governance.addProposal cr) g) :=
  Steps.foldl (fun s p _ => Steps.single s (Change.addProposal p)) g

theorem addVotes_changes (vs : List Vote) (g : Governance) :
    Governance.Changes cr g (vs.foldl Governance.addVote g) :=
  Steps.foldl (fun s v _ => Steps.single s (Change.addVote v)) g

theorem spendVotes_changes (g : Governance) (block : Block) (blockHeight : Int) :
    Governance.Changes cr g (spendVotes cr g block blockHeight) := by
  refine Steps.foldl (fun s v _ => ?_) g
  split
  · exact Steps.refl s
  · exact Steps.single s (Change.spendVote _ _ _)

theorem unspendVotes_changes (g : Governance) (block : Block) (blockHeight : Int) :
    Governance.Changes cr g (unspendVotes cr g block blockHeight) := by
  refine Steps.foldl (fun s v _ => ?_) g
  split
  · exact Steps.refl s
  · exact Steps.single s (Change.unspendVote _ _ _)

theorem processBlock_changes {block : Block} {blockHeight : Int} {processingChainTip : Bool}
    (h : processBlock cr params chain coins g block blockHeight processingChainTip = .ok g') :
    Governance.Changes cr g g' := by
  unfold processBlock at h
  obtain ⟨parsed, -, h⟩ := except_bind_eq_ok h
  obtain ⟨⟨ps, vs⟩, -, h⟩ := except_bind_eq_ok h
  dsimp only at h
  -- the proposals, then the votes, then (at the tip) the spends
  have hadd := Steps.trans (addProposals_changes cr ps g) (addVotes_changes cr vs _)
  split at h
  · cases h
    exact hadd
  · cases h
    exact Steps.trans hadd (spendVotes_changes cr _ block blockHeight)

theorem BlockConnected_changes {block : Block} {height : Int}
    (h : BlockConnected cr params chain coins g block height = .ok g') : Governance.Changes cr g g' := by
  unfold BlockConnected at h
  split at h
  · cases h
    exact Steps.refl g
  · exact processBlock_changes cr params h

theorem disconnectVote_changes {parsed : Parsed} {vouts : List Uint256} {blockHeight : Int}
    {vote : Vote} (h : disconnectVote cr params chain parsed vouts blockHeight g vote = .ok g') :
    Governance.Changes cr g g' := by
  unfold disconnectVote at h
  split at h
  · cases h
    exact Steps.refl g
  · obtain ⟨b, -, h⟩ := except_bind_eq_ok h
    split at h
    · cases h
      exact Steps.single g (Change.removeVote vote false)
    · cases h
      exact Steps.refl g

theorem disconnectProposals_changes (ps : List Proposal) (blockHeight : Int) (g : Governance) :
    Governance.Changes cr g (ps.foldl (disconnectProposal cr params blockHeight) g) := by
  refine Steps.foldl (fun s p _ => ?_) g
  unfold disconnectProposal
  split
  · exact Steps.refl s
  · split_ifs
    · exact Steps.refl s
    · exact Steps.single s (Change.removeProposal p)
    · exact Steps.refl s

theorem BlockDisconnected_changes {block : Block} {blockHeight : Int}
    (h : BlockDisconnected cr params chain g block blockHeight = .ok g') : Governance.Changes cr g g' := by
  unfold BlockDisconnected at h
  split at h
  · cases h
    exact Steps.refl g
  obtain ⟨parsed, -, h⟩ := except_bind_eq_ok h
  obtain ⟨g1, h1, h⟩ := except_bind_eq_ok h
  -- the votes, then the proposals, then (below the maximal height) the unspends
  have hv : Governance.Changes cr g g1 :=
    Steps.foldlM (fun s v t _ hv => disconnectVote_changes cr params hv) h1
  have hp := Steps.trans hv (disconnectProposals_changes cr params parsed.proposals blockHeight g1)
  split at h
  · cases h
    exact hp
  · cases h
    exact Steps.trans hp (unspendVotes_changes cr _ block blockHeight)

theorem loadBlocks_changes :
    ∀ {blocks : List Block} {height : Int} {sets sets' : LoadSets} {g g' : Governance},
      loadBlocks cr params chain coins blocks height (sets, g) = .ok (sets', g') →
        Governance.Changes cr g g'
  | [], _, _, _, _, _, h => by
    cases h
    exact Steps.refl _
  | block :: rest, height, sets, sets', g, g', h => by
    unfold loadBlocks at h
    obtain ⟨g1, h1, h⟩ := except_bind_eq_ok h
    exact Steps.trans (processBlock_changes cr params h1) (loadBlocks_changes h)

theorem loadVote_changes (sets : LoadSets) (g : Governance) (vote : Vote) :
    Governance.Changes cr g (loadVote params chain sets g vote) := by
  -- every branch removes the vote by force, spends it, or keeps the store
  have hcheck : Governance.Changes cr g (loadVote.checkUtxo chain sets g vote) := by
    unfold loadVote.checkUtxo
    split
    · exact Steps.single g (Change.removeVote vote true)
    · split_ifs
      · exact Steps.single g (Change.removeVote vote true)
      · exact Steps.refl g
      · exact Steps.single g (Change.removeVote vote true)
  unfold loadVote
  dsimp only
  split_ifs
  · exact Steps.single g (Change.removeVote vote true)
  · exact Steps.single g (Change.removeVote vote true)
  · split
    · split_ifs
      · exact Steps.single g (Change.spendVote _ _ _)
      · exact hcheck
    · exact hcheck

theorem loadGovernanceData_changes
    (h : loadGovernanceData cr params chain coins g = .ok g') : Governance.Changes cr g g' := by
  unfold loadGovernanceData at h
  dsimp only at h
  split at h
  · cases h
    exact Steps.refl g
  split at h
  · cases h
    exact Steps.refl g
  obtain ⟨⟨sets, g1⟩, h1, h⟩ := except_bind_eq_ok h
  have hl : Governance.Changes cr g g1 := loadBlocks_changes cr params h1
  dsimp only at h
  split at h
  · cases h
    exact hl
  · cases h
    exact Steps.trans hl (Steps.foldl (fun s v _ => loadVote_changes cr params sets s v) g1)

end Changes

end Blocknet.Gov
