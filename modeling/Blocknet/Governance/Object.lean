import Blocknet.Stream
import Blocknet.Script

/-!
# Governance objects: `NetworkObject`, `Proposal` and `Vote`

Model of the classes of `governance/governance.h` that travel in `OP_RETURN` outputs, with
their wire format, their validity checks and the vote's lookup of the output it votes with.

* A `Proposal` is written `version, type, superblock, amount, address, name, url,
  description` (`SerializationOp`), and hashed `version, type, name, superblock, amount,
  address, url, description` (`getHash`): the two orders differ, and both are modelled.
  `readProposal_serialize` reads back what `Proposal.serialize` writes.
* A `Vote` is written `version, type, proposal, vote, utxo, vinhash, signature`; reading one
  then recovers the public key from the signature. `readVote_serialize` reads back a written
  vote. The fields after `utxo` in the structure are the C++ class's memory-only fields.
* `Vote::getHash` hashes `version, type, proposal, utxo` with SHA-256. The model keys votes by
  that preimage (`VoteHash`): two votes have the same hash iff they agree on those four fields.
  This is the one place where the model assumes the hash has no collisions.
* `ValidateVoteUTXO` returns `Fault.nullDeref` where the C++ code dereferences the null pointer
  that `boost::get<CKeyID>` returns for a destination that is not a key id; `loadVoteUTXO`
  passes the fault on.

`Params` holds the consensus parameters the governance code reads; `isValidAddress` is
`IsValidDestination(DecodeDestination(address))` for the network's address prefixes, and
`GetBlockSubsidy` the network's subsidy schedule.
-/

namespace Blocknet.Gov

/-! ## Constants -/

/-- `gov::Type::NONE`. -/
def NONE : UInt8 := 0
/-- `gov::Type::PROPOSAL`. -/
def PROPOSAL : UInt8 := 1
/-- `gov::Type::VOTE`. -/
def VOTE : UInt8 := 2
/-- `gov::NETWORK_VERSION`. -/
def NETWORK_VERSION : UInt8 := 0x01
/-- `gov::VINHASH_SIZE`. -/
def VINHASH_SIZE : Nat := 12
/-- `script/standard.h`: `MAX_OP_RETURN_RELAY`. -/
def MAX_OP_RETURN_RELAY : Nat := 160
/-- `VoteType::NO`. -/
def NO : UInt8 := 0
/-- `VoteType::YES`. -/
def YES : UInt8 := 1
/-- `VoteType::ABSTAIN`. -/
def ABSTAIN : UInt8 := 2

/-- The consensus parameters the governance code reads (`Consensus::Params`). Every network
schedules superblocks at a positive interval, counts votes in a positive `voteBalance`, and has a
non-negative proposal maximum and subsidy (`chainparams.cpp`). -/
structure Params where
  governanceBlock : Int
  superblock : Int
  superblock_pos : 0 < superblock
  proposalCutoff : Int
  votingCutoff : Int
  proposalMinAmount : Int
  proposalMaxAmount : Int
  proposalMaxAmount_nonneg : 0 ≤ proposalMaxAmount
  voteBalance : Int
  voteBalance_pos : 0 < voteBalance
  voteMinUtxoAmount : Int
  GetBlockSubsidy : Int → Int
  GetBlockSubsidy_nonneg : ∀ height, 0 ≤ GetBlockSubsidy height
  isValidAddress : Bytes → Bool
  /-- `GetScriptForDestination(DecodeDestination(address))`. -/
  scriptForAddress : Bytes → Bytes

/-- A small network to run the model on: governance from block 1, a superblock every 4 blocks,
cutoffs of one block, amounts up to 100, votes counted in units of 1, and every address valid and
paid to a script of its own bytes. -/
def Params.sample : Params where
  governanceBlock := 1
  superblock := 4
  superblock_pos := by decide
  proposalCutoff := 1
  votingCutoff := 1
  proposalMinAmount := 0
  proposalMaxAmount := 100
  proposalMaxAmount_nonneg := by decide
  voteBalance := 1
  voteBalance_pos := by decide
  voteMinUtxoAmount := 0
  GetBlockSubsidy := fun _ => 100
  GetBlockSubsidy_nonneg := fun _ => by decide
  isValidAddress := fun _ => true
  scriptForAddress := id

/-! ## `NetworkObject` -/

/-- `NetworkObject`: the two bytes every governance payload starts with. -/
structure NetworkObject where
  version : UInt8 := NETWORK_VERSION
  type : UInt8 := NONE
  deriving DecidableEq, Repr

/-- `NetworkObject::isValid`. -/
def NetworkObject.isValid (o : NetworkObject) : Bool := o.version == NETWORK_VERSION

/-- `ss >> obj` for a `NetworkObject`. -/
def readNetworkObject : Reader NetworkObject := do
  let version ← readLE 1
  let type ← readLE 1
  pure { version := UInt8.ofNat version, type := UInt8.ofNat type }

@[simp] theorem readLE_one_cons (b : UInt8) (s : Bytes) : readLE 1 (b :: s) = .ok (b.toNat, s) := by
  simp [readLE, leNat]

/-- A payload of fewer than two bytes ends the stream inside the `NetworkObject`. -/
theorem readNetworkObject_short {data : Bytes} (h : data.length < 2) :
    readNetworkObject data = .error endOfData := by
  match data, h with
  | [], _ => rfl
  | [b], _ => simp [readNetworkObject, readLE]

/-! ## `Proposal` -/

/-- `Proposal`; `blockNumber` is memory only (the block that held it). -/
structure Proposal where
  version : UInt8 := NETWORK_VERSION
  type : UInt8 := PROPOSAL
  name : Bytes := []
  superblock : Int := 0
  amount : Int := 0
  address : Bytes := []
  url : Bytes := []
  description : Bytes := []
  blockNumber : Int := 0
  deriving DecidableEq, Repr

/-- `Proposal::isNull`. -/
def Proposal.isNull (p : Proposal) : Bool := p.superblock == 0

/-- The bytes `CHashWriter` sees in `Proposal::getHash`, and the stream `isValid` measures. -/
def Proposal.hashBytes (p : Proposal) : Bytes :=
  [p.version, p.type] ++ writeString p.name ++ writeSigned 4 p.superblock ++
    writeSigned 8 p.amount ++ writeString p.address ++ writeString p.url ++
    writeString p.description

/-- `Proposal::getHash`. -/
def Proposal.getHash (cr : Crypto) (p : Proposal) : Uint256 := cr.hash256 p.hashBytes

/-- `Proposal::SerializationOp`, writing. -/
def Proposal.serialize (p : Proposal) : Bytes :=
  [p.version, p.type] ++ writeSigned 4 p.superblock ++ writeSigned 8 p.amount ++
    writeString p.address ++ writeString p.name ++ writeString p.url ++
    writeString p.description

/-- `Proposal proposal(blockHeight); ss >> proposal`. -/
def readProposal (blockNumber : Int) : Reader Proposal := do
  let version ← readLE 1
  let type ← readLE 1
  let superblock ← readSigned 4
  let amount ← readSigned 8
  let address ← readString
  let name ← readString
  let url ← readString
  let description ← readString
  pure { version := UInt8.ofNat version, type := UInt8.ofNat type, name, superblock, amount,
         address, url, description, blockNumber }

/-- What `Proposal.serialize` can write so that it reads back: an `int` superblock, an
`int64_t` amount, and strings that `ReadCompactSize` accepts. -/
structure Proposal.Fits (p : Proposal) : Prop where
  superblock_lo : -2 ^ 31 ≤ p.superblock
  superblock_hi : p.superblock < 2 ^ 31
  amount_lo : -2 ^ 63 ≤ p.amount
  amount_hi : p.amount < 2 ^ 63
  address_len : p.address.length ≤ MAX_SIZE
  name_len : p.name.length ≤ MAX_SIZE
  url_len : p.url.length ≤ MAX_SIZE
  description_len : p.description.length ≤ MAX_SIZE

/-- A written proposal reads back as itself, at the block number the reader is given. -/
theorem readProposal_serialize {p : Proposal} (hp : p.Fits) (rest : Bytes) :
    readProposal p.blockNumber (p.serialize ++ rest) = .ok (p, rest) := by
  have hsb := readSigned_write (k := 4) (x := p.superblock) (by decide) hp.superblock_lo
    hp.superblock_hi
  have hamt := readSigned_write (k := 8) (x := p.amount) (by decide) hp.amount_lo hp.amount_hi
  simp [readProposal, Proposal.serialize, hsb, hamt, readString_write hp.address_len,
    readString_write hp.name_len, readString_write hp.url_len,
    readString_write hp.description_len]

/-- A proposal that is read carries the reader's block number. -/
theorem readProposal_blockNumber {blockNumber : Int} {data rest : Bytes} {p : Proposal}
    (hp : readProposal blockNumber data = .ok (p, rest)) : p.blockNumber = blockNumber := by
  unfold readProposal at hp
  simp only [Reader.run_bind, Reader.run_pure] at hp
  repeat' split at hp
  all_goals first | (cases hp; done) | (cases hp; rfl)

/-- `\w` of `std::regex`: `[A-Za-z0-9_]`. -/
def isWordChar (c : UInt8) : Bool :=
  (48 ≤ c && c ≤ 57) || (65 ≤ c && c ≤ 90) || (97 ≤ c && c ≤ 122) || c == 95

/-- `[\w\-_ ]`. -/
def isNameChar (c : UInt8) : Bool := isWordChar c || c == 45 || c == 32

/-- `std::regex_match(name, std::regex("^\\w+[\\w\\-_ ]*\\w+$"))`: two characters at least,
the first and the last word characters, every one a word character, `-` or a space. -/
def validName (name : Bytes) : Bool :=
  match name.head?, name.getLast? with
  | some first, some last =>
    2 ≤ name.length && isWordChar first && isWordChar last && name.all isNameChar
  | _, _ => false

/-- `Proposal::isValid(params)`, in its order of checks. -/
def Proposal.isValid (params : Params) (p : Proposal) : Bool :=
  validName p.name &&
  p.superblock.tmod params.superblock == 0 &&
  (params.proposalMinAmount ≤ p.amount &&
    p.amount ≤ min params.proposalMaxAmount (params.GetBlockSubsidy p.superblock)) &&
  params.isValidAddress p.address &&
  p.type == PROPOSAL &&
  p.version == NETWORK_VERSION &&
  p.hashBytes.length ≤ MAX_OP_RETURN_RELAY - 3

/-! ## `Vote` -/

/-- The preimage of `Vote::getHash`: `version, type, proposal, utxo`. -/
structure VoteHash where
  version : UInt8
  type : UInt8
  proposal : Uint256
  utxo : OutPoint
  deriving DecidableEq, Repr

/-- `Vote`. The wire fields come first; `pubkey` to `spentHash` are memory only. -/
structure Vote where
  version : UInt8 := NETWORK_VERSION
  type : UInt8 := VOTE
  proposal : Uint256 := 0
  vote : UInt8 := ABSTAIN
  vinhash : Bytes := List.replicate VINHASH_SIZE 0
  signature : Bytes := []
  utxo : OutPoint := ⟨0, 0xFFFFFFFF⟩
  pubkey : CPubKey := ⟨[]⟩
  outpoint : OutPoint := ⟨0, 0xFFFFFFFF⟩
  time : Int := 0
  amount : Int := 0
  keyid : Uint160 := 0
  blockNumber : Int := 0
  spentBlock : Int := 0
  spentHash : Uint256 := 0
  deriving DecidableEq, Repr

/-- `Vote::getHash`, as its preimage. -/
def Vote.getHash (v : Vote) : VoteHash := ⟨v.version, v.type, v.proposal, v.utxo⟩

/-- The bytes of `Vote::sigHash`. -/
def Vote.sigHashBytes (v : Vote) : Bytes :=
  [v.version, v.type] ++ v.proposal.toBytes ++ [v.vote] ++ writeOutPoint v.utxo ++
    writeArray v.vinhash

/-- `Vote::sigHash`. -/
def Vote.sigHash (cr : Crypto) (v : Vote) : Uint256 := cr.hash256 v.sigHashBytes

/-- `Vote::SerializationOp`, writing. -/
def Vote.serialize (v : Vote) : Bytes :=
  [v.version, v.type] ++ v.proposal.toBytes ++ [v.vote] ++ writeOutPoint v.utxo ++
    writeArray v.vinhash ++ writeString v.signature

/-- `pubkey.RecoverCompact(sigHash(), signature)`: the key is set only when recovery succeeds. -/
def Vote.recoverPubKey (cr : Crypto) (v : Vote) : Vote :=
  match CPubKey.recoverCompact cr (v.sigHash cr) v.signature with
  | some pk => { v with pubkey := pk }
  | none => v

/-- Recovering the key changes the key alone. -/
theorem Vote.recoverPubKey_eq (cr : Crypto) (v : Vote) :
    ∃ pk, v.recoverPubKey cr = { v with pubkey := pk } := by
  unfold Vote.recoverPubKey
  split
  · exact ⟨_, rfl⟩
  · exact ⟨v.pubkey, rfl⟩

/-- `Vote vote(outpoint, time, blockNumber); ss >> vote`. -/
def readVote (cr : Crypto) (outpoint : OutPoint) (time blockNumber : Int) : Reader Vote := do
  let version ← readLE 1
  let type ← readLE 1
  let proposal ← readUint256
  let vote ← readLE 1
  let utxo ← readOutPoint
  let vinhash ← readArray VINHASH_SIZE
  let signature ← readVector
  pure (Vote.recoverPubKey cr
    { version := UInt8.ofNat version, type := UInt8.ofNat type, proposal,
      vote := UInt8.ofNat vote, vinhash, signature, utxo, outpoint, time, blockNumber })

/-- A written vote reads back with its wire fields, the reader's memory fields, and the key
recovered from its signature. -/
theorem readVote_serialize (cr : Crypto) {v : Vote} (hv : v.vinhash.length = VINHASH_SIZE)
    (hs : v.signature.length ≤ MAX_SIZE) (outpoint : OutPoint) (time blockNumber : Int)
    (rest : Bytes) :
    readVote cr outpoint time blockNumber (v.serialize ++ rest) =
      .ok (Vote.recoverPubKey cr
        { version := v.version, type := v.type, proposal := v.proposal, vote := v.vote,
          vinhash := v.vinhash, signature := v.signature, utxo := v.utxo, outpoint, time,
          blockNumber }, rest) := by
  have ha := readArray_write (N := VINHASH_SIZE) hv (by decide) (by decide)
  simp [readVote, Vote.serialize, readUint256_write, readOutPoint_write, ha, readVector,
    readString_write hs]

/-- A vote that is read carries the reader's block number and is unspent. -/
theorem readVote_fields {cr : Crypto} {outpoint : OutPoint} {time blockNumber : Int}
    {data rest : Bytes} {v : Vote}
    (hv : readVote cr outpoint time blockNumber data = .ok (v, rest)) :
    v.blockNumber = blockNumber ∧ v.spentBlock = 0 ∧ v.spentHash = 0 := by
  unfold readVote at hv
  simp only [Reader.run_bind, Reader.run_pure] at hv
  -- every field read either fails, or the vote is built with the defaults of `Vote`
  repeat' split at hv
  all_goals first | (cases hv; done) | skip
  all_goals
    cases hv
    obtain ⟨pk, hpk⟩ := Vote.recoverPubKey_eq cr _
    rw [hpk]
    exact ⟨rfl, rfl, rfl⟩

/-- A vote whose vin hash was written shorter than `VINHASH_SIZE` bytes is never read: the
array loop of its `vinhash` does not end. -/
theorem readVote_short_vinhash (cr : Crypto) {v : Vote} (hv : v.vinhash.length < VINHASH_SIZE)
    (outpoint : OutPoint) (time blockNumber : Int) (rest : Bytes) :
    readVote cr outpoint time blockNumber (v.serialize ++ rest) = .error .diverge := by
  have ha := readArray_write_short (N := VINHASH_SIZE) hv (by decide) (writeString v.signature ++ rest)
  simp [readVote, Vote.serialize, readUint256_write, readOutPoint_write, ha]

/-- `Vote::isValidVoteType`. -/
def isValidVoteType (voteType : UInt8) : Bool := NO ≤ voteType && voteType ≤ ABSTAIN

/-- `Vote::isValid(params)`. -/
def Vote.isValid (cr : Crypto) (params : Params) (v : Vote) : Bool :=
  (v.version == NETWORK_VERSION && v.type == VOTE && isValidVoteType v.vote) &&
  params.voteMinUtxoAmount ≤ v.amount &&
  v.keyid != 0 &&
  v.pubkey.GetID cr == v.keyid

/-- `Vote::isValidVinHash`: the vin hash is one of the transaction's. -/
def Vote.isValidVinHash (vinHashes : List Bytes) (v : Vote) : Bool := vinHashes.contains v.vinhash

/-- `Vote::isValid(vinHashes, params)`. -/
def Vote.isValidWithVinHashes (cr : Crypto) (vinHashes : List Bytes) (params : Params)
    (v : Vote) : Bool :=
  v.isValid cr params && v.isValidVinHash vinHashes

/-- `Vote::spend`. -/
def Vote.spend (v : Vote) (block : Int) (txhash : Uint256) : Vote :=
  { v with spentBlock := block, spentHash := txhash }

/-- `Vote::unspend`: only the spend by this block and transaction is undone. -/
def Vote.unspend (v : Vote) (block : Int) (txhash : Uint256) : Vote :=
  if v.spentBlock = block ∧ v.spentHash = txhash then { v with spentBlock := 0, spentHash := 0 }
  else v

/-- `Vote::spent`. -/
def Vote.spent (v : Vote) : Bool := 0 < v.spentBlock

/-- `makeVinHash`: the first `VINHASH_SIZE` bytes of the hash of a prevout. -/
def makeVinHash (cr : Crypto) (prevout : OutPoint) : Bytes :=
  (cr.hash256 (writeOutPoint prevout)).toBytes.take VINHASH_SIZE

/-! ## The vote's output -/

/-- `ValidateVoteUTXO`: the output the vote spends and its key id, `none` where the function
returns `false`. The checks run in the source's order; the dereference of
`boost::get<CKeyID>(&dest)` comes after all of them. -/
def ValidateVoteUTXO (cr : Crypto) (params : Params) (chain : Chain) (utxo : OutPoint)
    (blockNumber : Int) : Except Fault (Option (TxOut × Uint160)) :=
  match chain.getTransaction utxo.hash with
  | none => .ok none
  | some (tx, height) =>
    match tx.vout[utxo.n.toNat]? with
    | none => .ok none
    | some out =>
      match extractDestination cr out.scriptPubKey with
      | none => .ok none
      | some dest =>
        if (height : Int) < params.governanceBlock ∨ (0 < blockNumber ∧ blockNumber < height) then
          .ok none
        else
          match dest.getKeyID with
          | none => .error .nullDeref
          | some keyid => .ok (some (out, keyid))

/-- `Vote::loadVoteUTXO`: the vote with its key id and amount, `none` where it returns
`false`. -/
def Vote.loadVoteUTXO (cr : Crypto) (params : Params) (chain : Chain) (v : Vote) :
    Except Fault (Option Vote) :=
  match ValidateVoteUTXO cr params chain v.utxo v.blockNumber with
  | .error e => .error e
  | .ok none => .ok none
  | .ok (some (out, keyid)) => .ok (some { v with keyid, amount := out.nValue })

/-! ## What `ValidateVoteUTXO` accepts -/

/-- A transaction found in a chain is found the same in any longer one. -/
theorem Chain.getTransaction_append {chain : Chain} {txid : Uint256} {r : Transaction × Nat}
    (h : chain.getTransaction txid = some r) (more : List Block) :
    Chain.getTransaction (chain ++ more) txid = some r :=
  findTx_append h more

/-- A transaction found in a longer chain, whose id no added block has, is found the same in the
shorter one. -/
theorem Chain.getTransaction_of_append {chain more : Chain} {txid : Uint256}
    {r : Transaction × Nat} (h : Chain.getTransaction (chain ++ more) txid = some r)
    (hm : ∀ b ∈ more, txid ∉ b.txids) : chain.getTransaction txid = some r := by
  unfold Chain.getTransaction at h ⊢
  cases hc : findTx txid chain 0 with
  | some r' => rw [findTx_append hc more] at h; exact h ▸ rfl
  | none =>
    rw [findTx_append_none hc more, findTx_eq_none _ hm] at h
    cases h

section Utxo

variable {cr : Crypto} {params : Params} {chain : Chain} {utxo : OutPoint} {blockNumber : Int}

/-- An output it accepts is in the chain from the governance start on and by the vote's block,
and pays to a key id. -/
theorem ValidateVoteUTXO_eq_some {out : TxOut} {keyid : Uint160}
    (h : ValidateVoteUTXO cr params chain utxo blockNumber = .ok (some (out, keyid))) :
    ∃ tx height, chain.getTransaction utxo.hash = some (tx, height) ∧
      tx.vout[utxo.n.toNat]? = some out ∧
      extractDestination cr out.scriptPubKey = some (.keyID keyid) ∧
      params.governanceBlock ≤ height ∧ (blockNumber ≤ 0 ∨ (height : Int) ≤ blockNumber) := by
  unfold ValidateVoteUTXO at h
  cases hf : chain.getTransaction utxo.hash with
  | none => rw [hf] at h; cases h
  | some r =>
    obtain ⟨tx, height⟩ := r
    rw [hf] at h
    dsimp only at h
    cases ho : tx.vout[utxo.n.toNat]? with
    | none => rw [ho] at h; cases h
    | some o =>
      rw [ho] at h
      dsimp only at h
      cases hd : extractDestination cr o.scriptPubKey with
      | none => rw [hd] at h; cases h
      | some dest =>
        rw [hd] at h
        dsimp only at h
        split_ifs at h with hc
        · cases h
        · cases hk : dest.getKeyID with
          | none => rw [hk] at h; cases h
          | some id =>
            rw [hk] at h
            cases h
            have hdest : dest = .keyID keyid := by
              cases dest <;> simp_all [CTxDestination.getKeyID]
            exact ⟨tx, height, rfl, ho, hdest ▸ hd, by omega, by omega⟩

/-- Its answer does not change when blocks are added after the transaction's. -/
theorem ValidateVoteUTXO_append {r : Transaction × Nat}
    (hfind : chain.getTransaction utxo.hash = some r) (more : List Block) :
    ValidateVoteUTXO cr params (chain ++ more) utxo blockNumber =
      ValidateVoteUTXO cr params chain utxo blockNumber := by
  unfold ValidateVoteUTXO
  rw [hfind, Chain.getTransaction_append hfind]

/-- An output paying to a script hash, in the chain from the governance start on and by the vote's
block, passes every check and then has no key id to dereference. -/
theorem ValidateVoteUTXO_p2sh {tx : Transaction} {height : Nat} {value : Int} {h : Bytes}
    (hfind : chain.getTransaction utxo.hash = some (tx, height))
    (hout : tx.vout[utxo.n.toNat]? = some ⟨value, payToScriptHash h⟩) (hl : h.length = 20)
    (hstart : params.governanceBlock ≤ height) (hbefore : (height : Int) ≤ blockNumber) :
    ValidateVoteUTXO cr params chain utxo blockNumber = .error .nullDeref := by
  have hc : ¬ ((height : Int) < params.governanceBlock ∨ (0 < blockNumber ∧ blockNumber < height)) := by
    omega
  simp [ValidateVoteUTXO, hfind, hout, extractDestination_p2sh cr hl, hc,
    CTxDestination.getKeyID]

theorem loadVoteUTXO_eq_some {v v' : Vote} (h : v.loadVoteUTXO cr params chain = .ok (some v')) :
    ∃ out keyid, ValidateVoteUTXO cr params chain v.utxo v.blockNumber = .ok (some (out, keyid)) ∧
      v' = { v with keyid, amount := out.nValue } := by
  unfold Vote.loadVoteUTXO at h
  split at h
  · cases h
  · cases h
  · rename_i out keyid hv
    cases h
    exact ⟨out, keyid, hv, rfl⟩

/-- A loaded vote takes the value of the output it spends as its amount. -/
theorem loadVoteUTXO_amount {v v' : Vote} (h : v.loadVoteUTXO cr params chain = .ok (some v')) :
    v'.utxo = v.utxo ∧ ∃ tx height out, chain.getTransaction v.utxo.hash = some (tx, height) ∧
      tx.vout[v.utxo.n.toNat]? = some out ∧ v'.amount = out.nValue := by
  obtain ⟨out, keyid, hv, rfl⟩ := loadVoteUTXO_eq_some h
  obtain ⟨tx, height, hfind, hout, -⟩ := ValidateVoteUTXO_eq_some hv
  exact ⟨rfl, tx, height, out, hfind, hout, rfl⟩

theorem loadVoteUTXO_append {v : Vote} {r : Transaction × Nat}
    (hfind : chain.getTransaction v.utxo.hash = some r) (more : List Block) :
    v.loadVoteUTXO cr params (chain ++ more) = v.loadVoteUTXO cr params chain := by
  unfold Vote.loadVoteUTXO
  rw [ValidateVoteUTXO_append hfind]

theorem loadVoteUTXO_p2sh {v : Vote} {tx : Transaction} {height : Nat} {value : Int} {h : Bytes}
    (hfind : chain.getTransaction v.utxo.hash = some (tx, height))
    (hout : tx.vout[v.utxo.n.toNat]? = some ⟨value, payToScriptHash h⟩) (hl : h.length = 20)
    (hstart : params.governanceBlock ≤ height) (hbefore : (height : Int) ≤ v.blockNumber) :
    v.loadVoteUTXO cr params chain = .error .nullDeref := by
  unfold Vote.loadVoteUTXO
  rw [ValidateVoteUTXO_p2sh hfind hout hl hstart hbefore]

end Utxo

/-- `IsVoteSpent(vote, currentBlock, governanceStart)` without the mempool: the coin is gone,
or it was created before the governance start or after `currentBlock`. -/
def IsVoteSpent (coins : OutPoint → Option Coin) (v : Vote) (currentBlock governanceStart : Int) :
    Bool :=
  match coins v.utxo with
  | none => true
  | some coin => coin.nHeight < governanceStart || currentBlock < coin.nHeight

end Blocknet.Gov
