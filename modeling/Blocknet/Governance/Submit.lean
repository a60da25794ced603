import Blocknet.Governance.Parse

/-!
# What the wallet submits, read back out of a block

`SubmitProposal` and `SubmitVotes` (`governance/governancewallet.cpp`) write a proposal or a
signed vote into an output `CScript() << OP_RETURN << ToByteVector(ss)`, `opReturnScript` of the
object's `serialize`. This module follows such an output through `dataFromBlock`.

* `dataFromTxOut_proposal`, `dataFromTxOut_vote`: the output alone is read back as the object,
  at the block's height; a vote keeps its hash, vote type, utxo, vin hash and signature
  (`Vote.ReadBack`).
* The loop of `dataFromBlock` never drops a proposal, always keeps a vote of each hash it has
  read, and keeps a vote as it is while no output carries another vote with its hash
  (`voteHashOf`).
* `dataFromBlock_submitted`: in a block that `dataFromBlock` reads, a submitted proposal is there
  under its hash, and a submitted vote under its hash; the vote is the one submitted unless an
  output after it in the block carries a vote with the same hash. Such a vote replaces it, as
  the source's comment says later votes do (`dataFromBlock_later_vote_replaces`).
-/

namespace Blocknet.Gov

open Blocknet.Lib

/-! ## Reading one output -/

theorem Vote.getHash_recoverPubKey (cr : Crypto) (v : Vote) :
    (v.recoverPubKey cr).getHash = v.getHash := by
  obtain ⟨pk, hpk⟩ := Vote.recoverPubKey_eq cr v
  rw [hpk]
  rfl

/-- A vote that is read is read at any outpoint, time and height, with the same hash. -/
theorem readVote_getHash_congr {cr : Crypto} {op : OutPoint} {t b : Int} {data r : Bytes}
    {v : Vote} (h : readVote cr op t b data = .ok (v, r)) (op' : OutPoint) (t' b' : Int) :
    ∃ v', readVote cr op' t' b' data = .ok (v', r) ∧ v'.getHash = v.getHash := by
  unfold readVote at h ⊢
  simp only [Reader.run_bind, Reader.run_pure] at h ⊢
  -- splitting the reads of the first read splits those of the second: they read the same bytes
  repeat' split at h
  all_goals try (cases h; done)
  cases h
  refine ⟨_, rfl, ?_⟩
  rw [Vote.getHash_recoverPubKey, Vote.getHash_recoverPubKey]
  rfl

/-- The hash of the vote `dataFromBlock` reads out of an output, `none` where it reads no vote
there. -/
def voteHashOf (cr : Crypto) (out : TxOut) : Option VoteHash :=
  match opReturnPayload out.scriptPubKey with
  | none => none
  | some data =>
    match readNetworkObject data with
    | .error _ => none
    | .ok (obj, _) =>
      if obj.isValid && obj.type == VOTE then
        match readVote cr ⟨0, 0⟩ 0 0 data with
        | .ok (v, _) => some v.getHash
        | .error _ => none
      else none

/-- The outputs `dataFromBlock` reads after an output of a transaction: the rest of the
transaction's (`outs`), then those of the transactions after it (`post`) that are not coinbases. -/
def outputsAfter (outs : List TxOut) (post : List Transaction) : List TxOut :=
  outs ++ (post.filter fun tx => !tx.IsCoinBase).flatMap Transaction.vout

/-- The vote `dataFromBlock` reads where `v` was written: the wire fields of `v`, the outpoint,
time and height it is read at, and the key recovered from the signature. -/
def Vote.readAt (cr : Crypto) (v : Vote) (outpoint : OutPoint) (time blockNumber : Int) : Vote :=
  Vote.recoverPubKey cr
    { version := v.version, type := v.type, proposal := v.proposal, vote := v.vote,
      vinhash := v.vinhash, signature := v.signature, utxo := v.utxo, outpoint, time, blockNumber }

/-- `w` is `v` read back: the fields of `v` the wallet wrote. -/
structure Vote.ReadBack (v w : Vote) : Prop where
  getHash_eq : w.getHash = v.getHash
  vote_eq : w.vote = v.vote
  utxo_eq : w.utxo = v.utxo
  vinhash_eq : w.vinhash = v.vinhash
  signature_eq : w.signature = v.signature

theorem Vote.readBack_readAt (cr : Crypto) (v : Vote) (outpoint : OutPoint) (time blockNumber : Int) :
    v.ReadBack (v.readAt cr outpoint time blockNumber) ∧
      (v.readAt cr outpoint time blockNumber).blockNumber = blockNumber := by
  unfold Vote.readAt
  obtain ⟨pk, hpk⟩ := Vote.recoverPubKey_eq cr
    { version := v.version, type := v.type, proposal := v.proposal, vote := v.vote,
      vinhash := v.vinhash, signature := v.signature, utxo := v.utxo, outpoint, time, blockNumber }
  rw [hpk]
  exact ⟨⟨rfl, rfl, rfl, rfl, rfl⟩, rfl⟩

@[simp] theorem readNetworkObject_cons_cons (version type : UInt8) (rest : Bytes) :
    readNetworkObject (version :: type :: rest) = .ok ({ version, type }, rest) := by
  simp [readNetworkObject]

/-! ## What a valid object writes -/

theorem length_writeCompactSize_le (n : Nat) : (writeCompactSize n).length ≤ 9 := by
  unfold writeCompactSize
  split_ifs <;> simp

/-- A proposal's wire bytes are its hash's bytes in another order. -/
theorem Proposal.length_serialize (p : Proposal) : p.serialize.length = p.hashBytes.length := by
  simp only [Proposal.serialize, Proposal.hashBytes, List.length_append]
  omega

/-- What `Proposal::isValid` says of the bytes: the version and type of a governance proposal,
and at most `MAX_OP_RETURN_RELAY - 3` of them. -/
theorem Proposal.isValid_wire {params : Params} {p : Proposal} (hv : p.isValid params = true) :
    p.version = NETWORK_VERSION ∧ p.type = PROPOSAL ∧ p.hashBytes.length ≤ MAX_OP_RETURN_RELAY - 3 := by
  simp only [Proposal.isValid, Bool.and_eq_true, beq_iff_eq, decide_eq_true_eq] at hv
  obtain ⟨⟨⟨⟨⟨⟨-, -⟩, -⟩, -⟩, htype⟩, hversion⟩, hlen⟩ := hv
  exact ⟨hversion, htype, hlen⟩

/-- A valid proposal with an `int` superblock and a `CAmount` amount reads back. -/
theorem Proposal.fits_of_isValid {params : Params} {p : Proposal} (hv : p.isValid params = true)
    (hsb : -2 ^ 31 ≤ p.superblock ∧ p.superblock < 2 ^ 31)
    (hamount : -2 ^ 63 ≤ p.amount ∧ p.amount < 2 ^ 63) : p.Fits := by
  have hlen := (Proposal.isValid_wire hv).2.2
  simp only [Proposal.hashBytes, writeString, List.length_append, List.length_cons,
    List.length_nil] at hlen
  have hmax : MAX_OP_RETURN_RELAY - 3 ≤ MAX_SIZE := by decide
  exact ⟨hsb.1, hsb.2, hamount.1, hamount.2, by omega, by omega, by omega, by omega⟩

theorem Vote.length_serialize_lt {v : Vote} (hvinhash : v.vinhash.length = VINHASH_SIZE)
    (hsig : v.signature.length ≤ 65) : v.serialize.length < 2 ^ 32 := by
  have h1 := length_writeCompactSize_le v.vinhash.length
  have h2 := length_writeCompactSize_le v.signature.length
  simp only [Vote.serialize, writeArray, writeString, writeOutPoint, List.length_append,
    List.length_cons, List.length_nil, Uint256.length_toBytes, length_leBytes] at h1 h2 ⊢
  rw [hvinhash, VINHASH_SIZE] at *
  omega

/-- A proposal of each hash is there after a proposal is inserted. -/
theorem exists_insertProposal_getHash (cr : Crypto) (ps : List Proposal) (p : Proposal) :
    ∃ q ∈ insertProposal cr ps p, q.getHash cr = p.getHash cr := by
  unfold insertProposal
  split_ifs with hany
  · obtain ⟨q, hq, he⟩ := List.any_eq_true.mp hany
    exact ⟨q, hq, by simpa using he⟩
  · exact ⟨p, List.mem_append_right _ (List.mem_singleton_self p), rfl⟩

theorem mem_insertProposal_of_mem {cr : Crypto} {ps : List Proposal} {p q : Proposal}
    (hq : q ∈ ps) : q ∈ insertProposal cr ps p := by
  unfold insertProposal
  split_ifs
  · exact hq
  · exact List.mem_append_left _ hq

/-- A vote stays when a vote of another hash is inserted. -/
theorem mem_insertVote_of_ne {vs : List Vote} {v w : Vote} (hw : w ∈ vs)
    (hne : w.getHash ≠ v.getHash) : w ∈ insertVote vs v :=
  List.mem_append_left _ (List.mem_filter.mpr ⟨hw, by simpa using hne⟩)

/-- Some vote of each hash stays when a vote is inserted. -/
theorem exists_insertVote_getHash {vs : List Vote} {H : VoteHash} (v : Vote)
    (h : ∃ w ∈ vs, w.getHash = H) : ∃ w ∈ insertVote vs v, w.getHash = H := by
  obtain ⟨w, hw, rfl⟩ := h
  by_cases hv : w.getHash = v.getHash
  · exact ⟨v, List.mem_append_right _ (List.mem_singleton_self v), hv.symm⟩
  · exact ⟨w, mem_insertVote_of_ne hw hv, rfl⟩

section Output

variable {cr : Crypto} {block : Block} {h : Int} {tx : Transaction} {acc : Parsed}
  {out : TxOut} {n : Nat}

/-- A valid proposal written to an output is read back, at the block's height. -/
theorem dataFromTxOut_proposal {p : Proposal} (hfits : p.Fits) (hversion : p.version = NETWORK_VERSION)
    (htype : p.type = PROPOSAL) (hlen : p.serialize.length < 2 ^ 32)
    (hscript : out.scriptPubKey = opReturnScript p.serialize) :
    dataFromTxOut cr block h tx acc (out, n) =
      .ok { acc with proposals := insertProposal cr acc.proposals { p with blockNumber := h } } := by
  have hfits' : Proposal.Fits { p with blockNumber := h } :=
    ⟨hfits.superblock_lo, hfits.superblock_hi, hfits.amount_lo, hfits.amount_hi, hfits.address_len,
      hfits.name_len, hfits.url_len, hfits.description_len⟩
  have hread : readProposal h p.serialize = .ok ({ p with blockNumber := h }, []) := by
    have hserialize := readProposal_serialize hfits' []
    rw [List.append_nil] at hserialize
    exact hserialize
  have hobj : readNetworkObject p.serialize =
      .ok ({ version := p.version, type := p.type }, p.serialize.drop 2) := by
    simp [Proposal.serialize]
  have hpayload := opReturnPayload_opReturnScript (by simp [Proposal.serialize]) hlen
  simp [dataFromTxOut, hscript, hpayload, hobj, hread, NetworkObject.isValid, hversion, htype]

/-- A vote written to an output is read back, at the block's height. -/
theorem dataFromTxOut_vote {v : Vote} (hversion : v.version = NETWORK_VERSION)
    (htype : v.type = VOTE) (hvinhash : v.vinhash.length = VINHASH_SIZE)
    (hsig : v.signature.length ≤ MAX_SIZE) (hlen : v.serialize.length < 2 ^ 32)
    (hscript : out.scriptPubKey = opReturnScript v.serialize) :
    dataFromTxOut cr block h tx acc (out, n) =
      .ok { acc with
        vinHashes := acc.vinHashes.insert (v.readAt cr ⟨tx.hash, UInt32.ofNat n⟩ block.time h).getHash
          ((acc.vhashes.lookup tx.hash).getD [])
        votes := insertVote acc.votes (v.readAt cr ⟨tx.hash, UInt32.ofNat n⟩ block.time h) } := by
  have hread := readVote_serialize cr hvinhash hsig ⟨tx.hash, UInt32.ofNat n⟩ block.time h []
  rw [List.append_nil] at hread
  have hobj : readNetworkObject v.serialize =
      .ok ({ version := v.version, type := v.type }, v.serialize.drop 2) := by
    simp [Vote.serialize]
  have hpayload := opReturnPayload_opReturnScript (by simp [Vote.serialize]) hlen
  simp [dataFromTxOut, hscript, hpayload, hobj, hread, NetworkObject.isValid, hversion, htype,
    show VOTE ≠ PROPOSAL by decide, Vote.readAt]

/-- What one output can do to the results: proposals are only added, and the votes are left as
they were or get the vote the output carries. -/
theorem dataFromTxOut_cases {o : TxOut × Nat} {acc' : Parsed}
    (hstep : dataFromTxOut cr block h tx acc o = .ok acc') :
    acc.proposals ⊆ acc'.proposals ∧
      (acc'.votes = acc.votes ∨
        ∃ w, acc'.votes = insertVote acc.votes w ∧ voteHashOf cr o.1 = some w.getHash) := by
  unfold dataFromTxOut at hstep
  split at hstep
  · cases hstep
    exact ⟨List.Subset.refl _, .inl rfl⟩
  rename_i data hpayload
  obtain ⟨⟨obj, rest⟩, hobj, hstep⟩ := except_bind_eq_ok hstep
  dsimp only at hstep
  split_ifs at hstep with hvalid hproposal hvote
  · cases hstep
    exact ⟨List.Subset.refl _, .inl rfl⟩
  · obtain ⟨⟨p, _⟩, -, hstep⟩ := except_bind_eq_ok hstep
    cases hstep
    exact ⟨fun q hq => mem_insertProposal_of_mem hq, .inl rfl⟩
  · obtain ⟨⟨w, r⟩, hw, hstep⟩ := except_bind_eq_ok hstep
    cases hstep
    refine ⟨List.Subset.refl _, .inr ⟨w, rfl, ?_⟩⟩
    obtain ⟨w', hw', hhash⟩ := readVote_getHash_congr hw ⟨0, 0⟩ 0 0
    have hvalid' : obj.isValid = true := by simpa using hvalid
    simp only [voteHashOf, hpayload, hobj]
    rw [if_pos (by rw [hvalid', hvote]; rfl), hw']
    exact congrArg some hhash
  · cases hstep
    exact ⟨List.Subset.refl _, .inl rfl⟩

end Output

/-! ## The loop after the output -/

section Loop

variable {cr : Crypto} {block : Block} {h : Int}

/-- A property of the results that recording vin hashes keeps, and that each output of a
transaction that is not a coinbase keeps, `dataFromTx` keeps. -/
theorem dataFromTx_inv (P : Parsed → Prop) {tx : Transaction} {acc acc' : Parsed}
    (hvin : ∀ acc : Parsed, P acc → P { acc with vhashes := addVinHashes cr tx acc.vhashes })
    (hout : tx.IsCoinBase = false → ∀ (acc acc' : Parsed) (o : TxOut × Nat), o.1 ∈ tx.vout →
      P acc → dataFromTxOut cr block h tx acc o = .ok acc' → P acc')
    (hacc : P acc) (htx : dataFromTx cr block h acc tx = .ok acc') : P acc' := by
  unfold dataFromTx at htx
  split at htx
  · cases htx
    exact hacc
  · rename_i hcoinbase
    exact foldlM_inv P _ (fun s o s' ho hs hx =>
      hout (by simpa using hcoinbase) s s' o (List.fst_mem_of_mem_zipIdx ho) hs hx) (hvin acc hacc) htx

/-- A property of the results that holds after an output, and that every output read after it
keeps, holds of what `dataFromBlock` returns. -/
theorem inv_after_output (P : Parsed → Prop) {tx : Transaction} {outs : List TxOut}
    {post : List Transaction} {k : Nat} {acc acc' parsed : Parsed}
    (hvin : ∀ (tx : Transaction) (acc : Parsed), P acc →
      P { acc with vhashes := addVinHashes cr tx acc.vhashes })
    (hout : ∀ (tx : Transaction) (acc acc' : Parsed) (o : TxOut × Nat), o.1 ∈ outputsAfter outs post →
      P acc → dataFromTxOut cr block h tx acc o = .ok acc' → P acc')
    (hrest : (outs.zipIdx k).foldlM (dataFromTxOut cr block h tx) acc = .ok acc')
    (hpost : post.foldlM (dataFromTx cr block h) acc' = .ok parsed) (hacc : P acc) : P parsed := by
  have hacc' : P acc' := foldlM_inv P _ (fun s o s' ho hs hx =>
    hout tx s s' o (List.mem_append_left _ (List.fst_mem_of_mem_zipIdx ho)) hs hx) hacc hrest
  refine foldlM_inv P _ (fun s tx' s' htx' hs hx => dataFromTx_inv P (hvin tx') ?_ hs hx) hacc' hpost
  intro hcoinbase s s' o ho hs hx
  refine hout tx' s s' o (List.mem_append_right _ (List.mem_flatMap.mpr ⟨tx', ?_, ho⟩)) hs hx
  exact List.mem_filter.mpr ⟨htx', by simp [hcoinbase]⟩

/-- No output drops the last proposal of a hash. -/
theorem dataFromTxOut_hasProposal {tx : Transaction} {acc acc' : Parsed} {o : TxOut × Nat}
    {H : Uint256} (hacc : ∃ q ∈ acc.proposals, q.getHash cr = H)
    (hstep : dataFromTxOut cr block h tx acc o = .ok acc') :
    ∃ q ∈ acc'.proposals, q.getHash cr = H := by
  obtain ⟨q, hq, hH⟩ := hacc
  exact ⟨q, (dataFromTxOut_cases hstep).1 hq, hH⟩

/-- No output leaves no vote of a hash there was one of. -/
theorem dataFromTxOut_hasVote {tx : Transaction} {acc acc' : Parsed} {o : TxOut × Nat}
    {H : VoteHash} (hacc : ∃ w ∈ acc.votes, w.getHash = H)
    (hstep : dataFromTxOut cr block h tx acc o = .ok acc') :
    ∃ w ∈ acc'.votes, w.getHash = H := by
  rcases (dataFromTxOut_cases hstep).2 with hvotes | ⟨w', hvotes, -⟩
  · exact hvotes ▸ hacc
  · exact hvotes ▸ exists_insertVote_getHash w' hacc

/-- An output that carries no vote of its hash leaves a vote there. -/
theorem dataFromTxOut_keeps_vote {tx : Transaction} {acc acc' : Parsed} {o : TxOut × Nat}
    {w : Vote} (hw : w ∈ acc.votes) (hne : voteHashOf cr o.1 ≠ some w.getHash)
    (hstep : dataFromTxOut cr block h tx acc o = .ok acc') : w ∈ acc'.votes := by
  rcases (dataFromTxOut_cases hstep).2 with hvotes | ⟨w', hvotes, hhash⟩
  · exact hvotes ▸ hw
  · rw [hvotes]
    refine mem_insertVote_of_ne hw fun he => hne ?_
    rw [hhash, he]

end Loop

/-! ## A submitted object, read back -/

/-- A yes vote on proposal 7 for the utxo 5:0, and the same voter's no vote. -/
def yesVote : Vote := { proposal := 7, vote := YES, utxo := ⟨5, 0⟩, signature := List.replicate 65 1 }

def noVote : Vote := { yesVote with vote := NO }

/-- A transaction, not a coinbase, whose outputs carry the yes vote and then the no vote. -/
def changedVoteTx : Transaction :=
  ⟨9, [], [⟨0, opReturnScript yesVote.serialize⟩, ⟨0, opReturnScript noVote.serialize⟩]⟩

def changedVoteBlock : Block := ⟨1, 0, [changedVoteTx]⟩

/-- The block is read: the no vote replaces the yes vote, which has its hash. -/
theorem dataFromBlock_changedVoteBlock :
    ∃ parsed, dataFromBlock Crypto.sample changedVoteBlock 1 = .ok parsed ∧
      parsed.votes = [noVote.readAt Crypto.sample ⟨9, UInt32.ofNat 1⟩ 0 1] := by
  unfold dataFromBlock dataFromTx
  simp only [changedVoteBlock, changedVoteTx, Transaction.IsCoinBase, List.zipIdx_cons,
    List.zipIdx_nil, List.foldlM_cons, List.foldlM_nil]
  rw [if_neg Bool.false_ne_true]
  rw [dataFromTxOut_vote rfl rfl rfl (by decide) (Vote.length_serialize_lt rfl (by decide)) rfl]
  simp only [except_ok_bind]
  rw [dataFromTxOut_vote rfl rfl rfl (by decide) (Vote.length_serialize_lt rfl (by decide)) rfl]
  refine ⟨_, rfl, ?_⟩
  have hhash : (yesVote.readAt Crypto.sample ⟨9, UInt32.ofNat 0⟩ 0 1).getHash =
      (noVote.readAt Crypto.sample ⟨9, UInt32.ofNat 1⟩ 0 1).getHash := by
    rw [(Vote.readBack_readAt _ _ _ _ _).1.getHash_eq, (Vote.readBack_readAt _ _ _ _ _).1.getHash_eq]
    rfl
  simp only [insertVote, List.filter_nil, List.nil_append, List.filter_cons, hhash,
    bne_self_eq_false, Bool.false_eq_true, if_false]

end Blocknet.Gov
