import Blocknet.Governance.Object
import Blocknet.Lib.Map
import Blocknet.Lib.Fold

/-!
# Reading governance data out of a block

Model of `Governance::dataFromBlock` and `Governance::isVoteInTxOut` (`governance.h`).

For every transaction that is not a coinbase, `dataFromBlock` records the vin hashes of its
inputs, then reads every output: the first byte of the script (`scriptPubKey[0]`) must be
`OP_RETURN`, the first push after it with data is the payload, and the payload is read as a
`NetworkObject` and then as a `Proposal` or a `Vote`. Its results are sets ordered by hash: a
proposal never replaces one with the same hash, a vote always does, and each vote keeps the
vin hashes of its transaction.

The model keeps the results as lists in the order they were found (`Parsed`); what the callers
compute from them does not depend on the order (their loops are key-local, `Lib.Map`).

The C++ code checks none of what can fail on the way, and nothing in `dataFromBlock`,
`processBlock` or `BlockConnected` catches an exception; the model returns the `Fault`:

* a payload shorter than its object throws `CDataStream::read(): end of data`
  (`dataFromBlock_short_payload`);
* a vote whose vin hash is written shorter than 12 bytes never finishes reading
  (`readVote_short_vinhash`).

`scriptPubKey[0]` of an empty script (the first output of every coinstake) reads the byte the
script's inline buffer holds past its end. `dataFromBlock` skips such an output whatever that
byte is, since no instruction follows; `isVoteInTxOut` reads an empty stream when the byte is
`OP_RETURN`, so the model gives it that byte as an argument (`isVoteInTxOut_empty_script`).
-/

namespace Blocknet.Gov

open Blocknet.Lib

/-! ## The payload of an output -/

/-- `checkdata`: the instruction is a push whose size matches its data. -/
def checkdata (op : UInt8) (data : Bytes) : Bool :=
  (op == OP_PUSHDATA1 || op == OP_PUSHDATA2 || op == OP_PUSHDATA4) ||
    (op < OP_PUSHDATA1 && op.toNat == data.length)

/-- The payload of an output script, `none` where `dataFromBlock` skips the output: the script
does not start with `OP_RETURN`, or no push with data follows before the end or before a
`GetOp` fails. -/
def opReturnPayload (script : Bytes) : Option Bytes :=
  match script with
  -- whatever byte `scriptPubKey[0]` finds past the end, the loop runs on no instruction
  | [] => none
  | b :: _ =>
    if b != OP_RETURN then none
    else
      match scan (fun op data => checkdata op data && !data.isEmpty) script with
      | .stopped _ data _ => some data
      | _ => none

/-- `CScript() << OP_RETURN << data`, the script the wallet writes a governance object to. -/
def opReturnScript (data : Bytes) : Bytes := OP_RETURN :: pushData data

theorem checkdata_pushOpcode {data : Bytes} (hd : data.length < 2 ^ 32) :
    checkdata (pushOpcode data) data = true := by
  unfold pushOpcode checkdata
  have hP1 : OP_PUSHDATA1.toNat = 76 := rfl
  split_ifs with h1 h2 h3
  · -- a direct push: the opcode is the length
    have hop : (UInt8.ofNat data.length).toNat = data.length := by simp; omega
    have hlt : UInt8.ofNat data.length < OP_PUSHDATA1 := by
      rw [UInt8.lt_iff_toNat_lt, hop]; omega
    simp [hlt, hop]
  · simp
  · simp
  · simp

/-- The payload of an `OP_RETURN` script is the data pushed after it. -/
theorem opReturnPayload_opReturnScript {data : Bytes} (hne : data ≠ [])
    (hd : data.length < 2 ^ 32) : opReturnPayload (opReturnScript data) = some data := by
  have hret : OP_PUSHDATA4 < OP_RETURN := by decide
  have hpush := getOp_pushData hd []
  rw [List.append_nil] at hpush
  -- the scan has fuel for two instructions: `OP_RETURN`, then the push
  obtain ⟨fuel, hfuel⟩ : ∃ fuel, (opReturnScript data).length = fuel + 1 + 1 := by
    refine ⟨(pushData data).length - 1, ?_⟩
    have : 0 < (pushData data).length := by
      unfold pushData; split_ifs <;> simp
    simp [opReturnScript]; omega
  simp only [opReturnPayload, opReturnScript, bne_self_eq_false, Bool.false_eq_true, if_false]
  unfold scan
  rw [show (OP_RETURN :: pushData data).length = fuel + 1 + 1 from hfuel,
    scanOps_succ_of_getOp (getOp_cons_of_gt hret _), scanOps_succ_of_getOp hpush]
  simp [checkdata_pushOpcode hd, hne]

/-! ## The sets `dataFromBlock` returns -/

/-- The state of the loop of `dataFromBlock`: the three results and the vin hashes seen so far,
by transaction hash (`vhashes`). -/
structure Parsed where
  proposals : List Proposal := []
  votes : List Vote := []
  vinHashes : Map VoteHash (List Bytes) := ∅
  vhashes : Map Uint256 (List Bytes) := ∅

/-- `proposalsRet.insert(proposal)`: a proposal with the same hash stays. -/
def insertProposal (cr : Crypto) (ps : List Proposal) (p : Proposal) : List Proposal :=
  if ps.any (fun q => q.getHash cr == p.getHash cr) then ps else ps ++ [p]

/-- `if (votesRet.count(vote)) votesRet.erase(vote); votesRet.insert(vote)`. -/
def insertVote (vs : List Vote) (v : Vote) : List Vote :=
  vs.filter (fun w => w.getHash != v.getHash) ++ [v]

/-- `vhashes[tx->GetHash()].insert(makeVinHash(vin.prevout))` for every input. -/
def addVinHashes (cr : Crypto) (tx : Transaction) (vhashes : Map Uint256 (List Bytes)) :
    Map Uint256 (List Bytes) :=
  tx.vin.foldl (fun m vin =>
    m.insert tx.hash (((m.lookup tx.hash).getD []).insert (makeVinHash cr vin.prevout))) vhashes

/-- One output of `dataFromBlock`'s loop: output `n` of `tx` in `block` at `blockHeight`. -/
def dataFromTxOut (cr : Crypto) (block : Block) (blockHeight : Int) (tx : Transaction)
    (acc : Parsed) (out : TxOut × Nat) : Except Fault Parsed := do
  match opReturnPayload out.1.scriptPubKey with
  | none => pure acc
  | some data =>
    let (obj, _) ← readNetworkObject data
    if !obj.isValid then pure acc
    else if obj.type == PROPOSAL then
      let (p, _) ← readProposal blockHeight data
      pure { acc with proposals := insertProposal cr acc.proposals p }
    else if obj.type == VOTE then
      let (v, _) ← readVote cr ⟨tx.hash, UInt32.ofNat out.2⟩ block.time blockHeight data
      pure { acc with
        vinHashes := acc.vinHashes.insert v.getHash ((acc.vhashes.lookup tx.hash).getD [])
        votes := insertVote acc.votes v }
    else pure acc

/-- One transaction of `dataFromBlock`'s loop. -/
def dataFromTx (cr : Crypto) (block : Block) (blockHeight : Int) (acc : Parsed)
    (tx : Transaction) : Except Fault Parsed :=
  if tx.IsCoinBase then pure acc
  else
    (tx.vout.zipIdx).foldlM (dataFromTxOut cr block blockHeight tx)
      { acc with vhashes := addVinHashes cr tx acc.vhashes }

/-- `Governance::dataFromBlock`. -/
def dataFromBlock (cr : Crypto) (block : Block) (blockHeight : Int) : Except Fault Parsed :=
  block.vtx.foldlM (dataFromTx cr block blockHeight) {}

/-! ## What `dataFromBlock` returns -/

/-- What the loop of `dataFromBlock` keeps: no two votes and no two proposals with one hash,
every vote and proposal read at `blockHeight`, and every vote unspent. -/
structure Parsed.WF (cr : Crypto) (blockHeight : Int) (acc : Parsed) : Prop where
  votes_nodup : (acc.votes.map Vote.getHash).Nodup
  proposals_nodup : (acc.proposals.map (Proposal.getHash cr)).Nodup
  vote_read : ∀ v ∈ acc.votes, v.blockNumber = blockHeight ∧ v.spentBlock = 0 ∧ v.spentHash = 0
  proposal_read : ∀ p ∈ acc.proposals, p.blockNumber = blockHeight

section WF

variable {cr : Crypto} {blockHeight : Int}

theorem mem_insertVote {vs : List Vote} {v w : Vote} (h : w ∈ insertVote vs v) :
    w ∈ vs ∨ w = v := by
  rcases List.mem_append.mp h with h | h
  · exact .inl (List.mem_of_mem_filter h)
  · exact .inr (List.mem_singleton.mp h)

theorem nodup_insertVote {vs : List Vote} (h : (vs.map Vote.getHash).Nodup) (v : Vote) :
    ((insertVote vs v).map Vote.getHash).Nodup := by
  unfold insertVote
  rw [List.map_append, List.nodup_append]
  refine ⟨(List.filter_sublist.map _).nodup h, by simp, ?_⟩
  -- the vote is appended after every vote with its hash was dropped
  intro a ha b hb
  obtain ⟨w, hw, rfl⟩ := List.mem_map.mp ha
  rw [List.map_singleton, List.mem_singleton] at hb
  subst hb
  simpa using (List.mem_filter.mp hw).2

theorem mem_insertProposal {ps : List Proposal} {p q : Proposal}
    (h : q ∈ insertProposal cr ps p) : q ∈ ps ∨ q = p := by
  unfold insertProposal at h
  split_ifs at h
  · exact .inl h
  · rcases List.mem_append.mp h with h | h
    · exact .inl h
    · exact .inr (List.mem_singleton.mp h)

theorem nodup_insertProposal {ps : List Proposal} (h : (ps.map (Proposal.getHash cr)).Nodup)
    (p : Proposal) : ((insertProposal cr ps p).map (Proposal.getHash cr)).Nodup := by
  unfold insertProposal
  split_ifs with hany
  · exact h
  · -- no proposal with its hash is there yet
    rw [List.map_append, List.nodup_append]
    refine ⟨h, by simp, ?_⟩
    intro a ha b hb
    obtain ⟨q, hq, rfl⟩ := List.mem_map.mp ha
    rw [List.map_singleton, List.mem_singleton] at hb
    subst hb
    intro he
    exact hany (List.any_eq_true.mpr ⟨q, hq, by simp [he]⟩)

theorem Parsed.WF.empty : ({} : Parsed).WF cr blockHeight :=
  ⟨List.nodup_nil, List.nodup_nil, fun _ h => absurd h List.not_mem_nil,
    fun _ h => absurd h List.not_mem_nil⟩

theorem dataFromTxOut_wf {block : Block} {tx : Transaction} {acc acc' : Parsed}
    {out : TxOut × Nat} (hacc : acc.WF cr blockHeight)
    (h : dataFromTxOut cr block blockHeight tx acc out = .ok acc') : acc'.WF cr blockHeight := by
  obtain ⟨hvn, hpn, hvr, hpr⟩ := hacc
  unfold dataFromTxOut at h
  split at h
  · cases h
    exact ⟨hvn, hpn, hvr, hpr⟩
  obtain ⟨⟨obj, _⟩, -, h⟩ := except_bind_eq_ok h
  dsimp only at h
  split_ifs at h
  · cases h
    exact ⟨hvn, hpn, hvr, hpr⟩
  · -- a proposal
    obtain ⟨⟨p, _⟩, hp, h⟩ := except_bind_eq_ok h
    cases h
    refine ⟨hvn, nodup_insertProposal hpn p, hvr, fun q hq => ?_⟩
    rcases mem_insertProposal hq with hq | rfl
    · exact hpr q hq
    · exact readProposal_blockNumber hp
  · -- a vote
    obtain ⟨⟨v, _⟩, hv, h⟩ := except_bind_eq_ok h
    cases h
    refine ⟨nodup_insertVote hvn v, hpn, fun w hw => ?_, hpr⟩
    rcases mem_insertVote hw with hw | rfl
    · exact hvr w hw
    · exact readVote_fields hv
  · cases h
    exact ⟨hvn, hpn, hvr, hpr⟩

theorem dataFromTx_wf {block : Block} {tx : Transaction} {acc acc' : Parsed}
    (hacc : acc.WF cr blockHeight) (h : dataFromTx cr block blockHeight acc tx = .ok acc') :
    acc'.WF cr blockHeight := by
  unfold dataFromTx at h
  split at h
  · cases h
    exact hacc
  · -- recording the vin hashes leaves the three results as they were
    obtain ⟨hvn, hpn, hvr, hpr⟩ := hacc
    have hacc' : Parsed.WF cr blockHeight { acc with vhashes := addVinHashes cr tx acc.vhashes } :=
      ⟨hvn, hpn, hvr, hpr⟩
    exact foldlM_inv (Parsed.WF cr blockHeight) (dataFromTxOut cr block blockHeight tx)
      (fun _ _ _ _ hs hx => dataFromTxOut_wf hs hx) hacc' h

/-- What `dataFromBlock` returns has no two votes and no two proposals with one hash, and every
vote and proposal in it is read at the block's height, every vote unspent. -/
theorem dataFromBlock_wf {block : Block} {parsed : Parsed}
    (h : dataFromBlock cr block blockHeight = .ok parsed) : parsed.WF cr blockHeight :=
  foldlM_inv (Parsed.WF cr blockHeight) _ (fun _ _ _ _ hs hx => dataFromTx_wf hs hx)
    Parsed.WF.empty h

end WF

/-- `Governance::isVoteInTxOut`: the vote in an output, if its payload is one. The payload is the
first push with data; where there is none, the stream is read empty. `stale` is the byte
`scriptPubKey[0]` reads past the end of an empty script. -/
def isVoteInTxOut (cr : Crypto) (stale : UInt8) (out : TxOut) : Except Fault (Option Vote) :=
  if out.scriptPubKey.headD stale != OP_RETURN then .ok none
  else do
    let data := match scan (fun _ data => !data.isEmpty) out.scriptPubKey with
      | .stopped _ data _ => data
      | _ => []
    let (obj, _) ← readNetworkObject data
    if obj.type == VOTE then
      let (v, _) ← readVote cr ⟨0, 0xFFFFFFFF⟩ 0 0 data
      pure (some v)
    else pure none

/-- On an empty script the answer of `isVoteInTxOut` is decided by the byte read past its end:
`OP_RETURN` there makes it read a `NetworkObject` from an empty stream. -/
theorem isVoteInTxOut_empty_script (cr : Crypto) (stale : UInt8) (value : Int) :
    isVoteInTxOut cr stale ⟨value, []⟩ =
      if stale = OP_RETURN then .error endOfData else .ok none := by
  have hr := @readNetworkObject_short [] (by simp)
  by_cases hs : stale = OP_RETURN
  · simp [isVoteInTxOut, hs, scan, scanOps, hr]
  · simp [isVoteInTxOut, hs]

/-! ## Where `dataFromBlock` faults -/

section Faults

variable (cr : Crypto) {block : Block} {blockHeight : Int}

/-- A transaction is read only after every transaction before it was: a fault in it is the
fault of the block. -/
theorem dataFromBlock_of_prefix {pre post : List Transaction} {tx : Transaction} {acc : Parsed}
    {e : Fault} (hvtx : block.vtx = pre ++ tx :: post)
    (hpre : pre.foldlM (dataFromTx cr block blockHeight) {} = .ok acc)
    (htx : dataFromTx cr block blockHeight acc tx = .error e) :
    dataFromBlock cr block blockHeight = .error e := by
  unfold dataFromBlock
  rw [hvtx, List.foldlM_append, hpre]
  exact foldlM_error_of_head _ htx post

/-- A transaction that is not a coinbase, whose first output faults whatever was read before,
faults. -/
theorem dataFromTx_of_first_output {acc : Parsed} {tx : Transaction} {out : TxOut}
    {outs : List TxOut} {e : Fault} (htx : tx.IsCoinBase = false) (hout : tx.vout = out :: outs)
    (he : ∀ acc', dataFromTxOut cr block blockHeight tx acc' (out, 0) = .error e) :
    dataFromTx cr block blockHeight acc tx = .error e := by
  unfold dataFromTx
  rw [htx, if_neg Bool.false_ne_true, hout, List.zipIdx_cons]
  exact foldlM_error_of_head _ (he _) _

/-- An `OP_RETURN` output carrying one byte makes the whole block fault: the byte is read as the
payload, and reading a `NetworkObject` from it throws. -/
theorem dataFromBlock_short_payload {pre post : List Transaction} {tx : Transaction}
    {acc : Parsed} {value : Int} {b : UInt8} {outs : List TxOut}
    (hvtx : block.vtx = pre ++ tx :: post)
    (hpre : pre.foldlM (dataFromTx cr block blockHeight) {} = .ok acc)
    (htx : tx.IsCoinBase = false) (hout : tx.vout = ⟨value, opReturnScript [b]⟩ :: outs) :
    dataFromBlock cr block blockHeight = .error endOfData := by
  refine dataFromBlock_of_prefix cr hvtx hpre (dataFromTx_of_first_output cr htx hout ?_)
  intro acc'
  have hp := @opReturnPayload_opReturnScript [b] (List.cons_ne_nil _ _) (by simp)
  have hr := @readNetworkObject_short [b] (by simp)
  simp [dataFromTxOut, hp, hr]

/-- A block of one transaction with one output, `OP_RETURN` and a push of the byte 0. -/
theorem dataFromBlock_one_byte_payload :
    dataFromBlock Crypto.sample ⟨0, 0, [⟨0, [], [⟨0, opReturnScript [0]⟩]⟩]⟩ 1 =
      .error endOfData :=
  @dataFromBlock_short_payload Crypto.sample _ _ [] [] _ _ _ _ _ rfl rfl rfl rfl

end Faults

end Blocknet.Gov
