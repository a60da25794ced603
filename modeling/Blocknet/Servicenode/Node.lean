import Blocknet.Script
import Blocknet.Stream
import Blocknet.Lib.Fold

/-!
# Servicenodes, their pings, and the legacy xbridge packet

Model of `servicenode/servicenode.h`: the `ServiceNode` record, its signature hash
(`CreateSigHash`), `ServiceNode::isValid`, `markInvalid`, the servicenode ping
(`ServiceNodePing`) and its `isValid`, and `LegacyXBridgePacket::CopyFrom`.

* `isValid` reads two callbacks it is given and two globals: `TxFunc` (whether the output is
  unspent, and the transaction it names), `BlockValidFunc`, `GetChainTipHeight()` and the
  consensus limit `snMaxCollateralCount`. `Env` holds them.
* Amounts are `Int`. Collateral values come from transactions of the chain, each at most
  `MAX_MONEY`, and at most `snMaxCollateralCount` of them are added, so `total` does not wrap.
* The configuration JSON is not parsed: `services` is the list `parseConfig` leaves in the member
  of that name.
* Both `isValid`s test the OPEN tier after returning `false` for every tier but SPV; that branch
  is unreachable and is left out.
* `CopyFrom` reads through raw pointers at fixed offsets. Each read is `readAt`: the bytes, or an
  out-of-bounds read at the first index past the end.

Results:
* `isValid_error`: the only fault of `isValid` is a null dereference, at a collateral output whose
  destination is not a key id (`ScriptCollateral`). `isValid_script_collateral`: such an output
  first in the collateral faults the check of every servicenode whose header checks pass.
* `readsPast_CopyFrom`: every fault of `CopyFrom` reads at or past the end of the packet;
  `CopyFrom_ok_iff`: it returns exactly on packets of at least 141 bytes.
-/

namespace Blocknet.Sn

open Blocknet.Lib

/-! ## The servicenode record -/

/-- `ServiceNode::Tier::OPEN`. -/
def Tier.OPEN : UInt8 := 0

/-- `ServiceNode::Tier::SPV`. -/
def Tier.SPV : UInt8 := 50

/-- `COIN`. -/
def COIN : Int := 100000000

/-- A servicenode: the fields the network serializes, then the in-memory ones the modelled code
reads or writes. -/
structure ServiceNode where
  snodePubKey : CPubKey
  tier : UInt8
  paymentAddress : Uint160
  collateral : List OutPoint
  bestBlock : UInt32
  bestBlockHash : Uint256
  signature : Bytes
  pingBestBlock : UInt32
  pingBestBlockHash : Uint256
  config : Bytes
  services : List Bytes
  invalid : Bool
  invalidBlock : Int
  deriving DecidableEq, Repr

namespace ServiceNode

/-- `ServiceNode::COLLATERAL_SPV`. -/
def COLLATERAL_SPV : Int := 5000 * COIN

/-- `ServiceNode::VALID_GRACEPERIOD_BLOCKS`. -/
def VALID_GRACEPERIOD_BLOCKS : Int := 2

/-- `markInvalid(flag, blockNumber)`. -/
def markInvalid (sn : ServiceNode) (flag : Bool) (blockNumber : Int) : ServiceNode :=
  { sn with invalid := flag, invalidBlock := if flag then blockNumber else 0 }

@[simp] theorem markInvalid_snodePubKey (sn : ServiceNode) (flag : Bool) (blockNumber : Int) :
    (sn.markInvalid flag blockNumber).snodePubKey = sn.snodePubKey := rfl

@[simp] theorem markInvalid_collateral (sn : ServiceNode) (flag : Bool) (blockNumber : Int) :
    (sn.markInvalid flag blockNumber).collateral = sn.collateral := rfl

end ServiceNode

/-! ## Serialization and hashes -/

/-- `Serialize(CPubKey)`: its size, then its bytes. -/
def writePubKey (pk : CPubKey) : Bytes := writeString pk.vch

/-- `Serialize(std::vector<COutPoint>)`. -/
def writeCollateral (c : List OutPoint) : Bytes :=
  writeCompactSize c.length ++ (c.map writeOutPoint).flatten

/-- `ServiceNode::CreateSigHash`. -/
def CreateSigHash (cr : Crypto) (snodePubKey : CPubKey) (tier : UInt8) (paymentAddress : Uint160)
    (collateral : List OutPoint) (bestBlock : UInt32) (bestBlockHash : Uint256) : Uint256 :=
  cr.hash256 (writePubKey snodePubKey ++ [tier] ++ paymentAddress.toBytes ++
    writeCollateral collateral ++ leBytes 4 bestBlock.toNat ++ bestBlockHash.toBytes)

namespace ServiceNode

variable (cr : Crypto)

/-- `ServiceNode::sigHash`. -/
def sigHash (sn : ServiceNode) : Uint256 :=
  CreateSigHash cr sn.snodePubKey sn.tier sn.paymentAddress sn.collateral sn.bestBlock
    sn.bestBlockHash

/-- `ServiceNode::SerializationOp` when writing. -/
def serialize (sn : ServiceNode) : Bytes :=
  writePubKey sn.snodePubKey ++ [sn.tier] ++ sn.paymentAddress.toBytes ++
    writeCollateral sn.collateral ++ leBytes 4 sn.bestBlock.toNat ++ sn.bestBlockHash.toBytes ++
    writeString sn.signature

/-- `ServiceNode::getHash`: the serialized fields with the configuration before the signature. -/
def getHash (sn : ServiceNode) : Uint256 :=
  cr.hash256 (writePubKey sn.snodePubKey ++ [sn.tier] ++ sn.paymentAddress.toBytes ++
    writeCollateral sn.collateral ++ leBytes 4 sn.bestBlock.toNat ++ sn.bestBlockHash.toBytes ++
    writeString sn.config ++ writeString sn.signature)

end ServiceNode

/-! ## `ServiceNode::isValid` -/

/-- What `isValid` reads besides the servicenode. -/
structure Env where
  /-- `TxFunc`: whether the output is unspent, and the transaction it names, if one is found. -/
  getTxFunc : OutPoint → Bool × Option Transaction
  /-- `BlockValidFunc`: the block is an ancestor of the tip (and recent, with the stale check). -/
  isBlockValid : UInt32 → Uint256 → Bool → Bool
  /-- `GetChainTipHeight()`. -/
  chainTipHeight : Int
  /-- `Params().GetConsensus().snMaxCollateralCount`. -/
  snMaxCollateralCount : Nat

variable (cr : Crypto) (env : Env)

/-- The first two checks in the body of the collateral loop: a servicenode marked invalid keeps
its collateral, spent or not, until the grace period is over; any other needs it unspent. -/
def collateralRejected (invalidBlock : Int) (success : Bool) : Bool :=
  if 0 < invalidBlock then
    decide (ServiceNode.VALID_GRACEPERIOD_BLOCKS ≤ env.chainTipHeight - invalidBlock)
  else !success

/-- The collateral loop of `isValid`, from `ops` on, with the amount so far and the `CScriptID`s
of the scripts already checked. `some total` is the end of the loop, `none` a `return false`. -/
def collateralLoop (invalidBlock : Int) (pubkey : CPubKey) :
    List OutPoint → Int → List Uint160 → Except Fault (Option Int)
  | [], total, _ => .ok (some total)
  | op :: ops, total, processed =>
    match env.getTxFunc op with
    | (_, none) => .ok none
    | (success, some tx) =>
      if collateralRejected env invalidBlock success then .ok none
      else match tx.vout[op.n.toNat]? with
        | none => .ok none
        | some out =>
          let id := cr.hash160 out.scriptPubKey
          if id ∈ processed then collateralLoop invalidBlock pubkey ops (total + out.nValue) processed
          else match extractDestination cr out.scriptPubKey with
            | none => .ok none
            | some address =>
              -- `*boost::get<CKeyID>(&address)`: no check that the destination is a key id
              match address.getKeyID with
              | none => .error .nullDeref
              | some keyid =>
                if pubkey.GetID cr ≠ keyid then .ok none
                else collateralLoop invalidBlock pubkey ops (total + out.nValue) (id :: processed)

/-- `ServiceNode::isValid(getTxFunc, isBlockValid, checkStale)`. -/
def ServiceNode.isValid (checkStale : Bool) (sn : ServiceNode) : Except Fault Bool :=
  if !env.isBlockValid sn.pingBestBlock sn.pingBestBlockHash checkStale then .ok false
  else if !sn.snodePubKey.IsFullyValid cr then .ok false
  else if sn.tier ≠ Tier.SPV then .ok false
  else if sn.paymentAddress = 0 then .ok false
  else if sn.collateral.isEmpty ∨ env.snMaxCollateralCount < sn.collateral.length then .ok false
  -- the set of the outpoints is smaller than the list
  else if ¬ sn.collateral.Nodup then .ok false
  else match CPubKey.recoverCompact cr (sn.sigHash cr) sn.signature with
    | none => .ok false
    | some pubkey =>
      match collateralLoop cr env sn.invalidBlock pubkey sn.collateral 0 [] with
      | .error e => .error e
      | .ok none => .ok false
      | .ok (some total) =>
        .ok (sn.tier == Tier.SPV && decide (ServiceNode.COLLATERAL_SPV ≤ total))

/-- A collateral outpoint that names an output whose destination is not a key id. -/
def ScriptCollateral (op : OutPoint) : Prop :=
  ∃ tx out d, (env.getTxFunc op).2 = some tx ∧ tx.vout[op.n.toNat]? = some out ∧
    extractDestination cr out.scriptPubKey = some d ∧ d.getKeyID = none

section Faults

variable {cr env}

/-- The loop faults only by a null dereference, at an outpoint whose destination is not a key
id. -/
theorem collateralLoop_error {invalidBlock : Int} {pubkey : CPubKey} {e : Fault} :
    ∀ {ops : List OutPoint} {total : Int} {processed : List Uint160},
      collateralLoop cr env invalidBlock pubkey ops total processed = .error e →
      e = .nullDeref ∧ ∃ op ∈ ops, ScriptCollateral cr env op := by
  intro ops
  induction ops with
  | nil => intro total processed h; cases h
  | cons op ops ih =>
    intro total processed h
    -- every way on to the next iteration passes its fault through; the rest are this outpoint's
    have next : ∀ t p, collateralLoop cr env invalidBlock pubkey ops t p = .error e →
        e = .nullDeref ∧ ∃ op' ∈ op :: ops, ScriptCollateral cr env op' := by
      intro t p hn
      obtain ⟨he, op', hop', hs⟩ := ih hn
      exact ⟨he, op', List.mem_cons_of_mem op hop', hs⟩
    unfold collateralLoop at h
    split at h
    · cases h
    · rename_i success tx htx
      split at h
      · cases h
      · split at h
        · cases h
        · rename_i out hout
          dsimp only at h
          split at h
          · exact next _ _ h
          · split at h
            · cases h
            · rename_i d hd
              split at h
              · cases h
                refine ⟨rfl, op, List.mem_cons_self, tx, out, d, ?_, hout, hd, ?_⟩
                · rw [htx]
                · assumption
              · split at h
                · cases h
                · exact next _ _ h

/-- The header checks of `isValid` pass and the signature recovers `pubkey`: the result is the
collateral loop's. -/
theorem isValid_of_header {checkStale : Bool} {sn : ServiceNode} {pubkey : CPubKey}
    (hblock : env.isBlockValid sn.pingBestBlock sn.pingBestBlockHash checkStale = true)
    (hkey : sn.snodePubKey.IsFullyValid cr = true) (htier : sn.tier = Tier.SPV)
    (haddr : sn.paymentAddress ≠ 0) (hne : sn.collateral ≠ [])
    (hcount : sn.collateral.length ≤ env.snMaxCollateralCount) (hnodup : sn.collateral.Nodup)
    (hsig : CPubKey.recoverCompact cr (sn.sigHash cr) sn.signature = some pubkey) :
    sn.isValid cr env checkStale =
      (collateralLoop cr env sn.invalidBlock pubkey sn.collateral 0 []).map
        fun r => r.any fun total => decide (ServiceNode.COLLATERAL_SPV ≤ total) := by
  have hcount' : ¬ (sn.collateral.isEmpty = true ∨ env.snMaxCollateralCount < sn.collateral.length) := by
    simp only [List.isEmpty_iff, hne, false_or, not_lt]
    exact hcount
  unfold ServiceNode.isValid
  simp only [hblock, hkey, htier, haddr, hcount', hnodup, hsig, Bool.not_true, Bool.false_eq_true,
    ne_eq, not_true_eq_false, if_false, beq_self_eq_true, Bool.true_and]
  cases collateralLoop cr env sn.invalidBlock pubkey sn.collateral 0 [] with
  | error e => rfl
  | ok r => cases r <;> rfl

/-- **The only fault of `isValid`** is a null dereference, at a collateral output whose
destination is not a key id. -/
theorem isValid_error {checkStale : Bool} {sn : ServiceNode} {e : Fault}
    (h : sn.isValid cr env checkStale = .error e) :
    e = .nullDeref ∧ ∃ op ∈ sn.collateral, ScriptCollateral cr env op := by
  unfold ServiceNode.isValid at h
  split_ifs at h
  split at h
  · cases h
  · split at h
    · rename_i hloop
      cases h
      exact collateralLoop_error hloop
    · cases h
    · cases h

/-- The first collateral outpoint names an unspent output, of a servicenode not marked invalid,
whose destination is not a key id: the loop faults. -/
theorem collateralLoop_script_head {invalidBlock : Int} {pubkey : CPubKey} {op : OutPoint}
    {ops : List OutPoint} {tx : Transaction} {out : TxOut} {d : CTxDestination}
    (hfresh : invalidBlock ≤ 0) (htx : env.getTxFunc op = (true, some tx))
    (hout : tx.vout[op.n.toNat]? = some out)
    (hdest : extractDestination cr out.scriptPubKey = some d) (hd : d.getKeyID = none) :
    collateralLoop cr env invalidBlock pubkey (op :: ops) 0 [] = .error .nullDeref := by
  have hkept : collateralRejected env invalidBlock true = false := by
    simp [collateralRejected, not_lt.mpr hfresh]
  simp only [collateralLoop, htx, hkept, Bool.false_eq_true, if_false, hout, List.not_mem_nil,
    hdest, hd]

theorem isValid_script_collateral {checkStale : Bool} {sn : ServiceNode} {pubkey : CPubKey}
    {op : OutPoint} {ops : List OutPoint} {tx : Transaction} {out : TxOut} {d : CTxDestination}
    (hblock : env.isBlockValid sn.pingBestBlock sn.pingBestBlockHash checkStale = true)
    (hkey : sn.snodePubKey.IsFullyValid cr = true) (htier : sn.tier = Tier.SPV)
    (haddr : sn.paymentAddress ≠ 0) (hcol : sn.collateral = op :: ops)
    (hcount : sn.collateral.length ≤ env.snMaxCollateralCount) (hnodup : sn.collateral.Nodup)
    (hsig : CPubKey.recoverCompact cr (sn.sigHash cr) sn.signature = some pubkey)
    (hfresh : sn.invalidBlock ≤ 0) (htx : env.getTxFunc op = (true, some tx))
    (hout : tx.vout[op.n.toNat]? = some out)
    (hdest : extractDestination cr out.scriptPubKey = some d) (hd : d.getKeyID = none) :
    sn.isValid cr env checkStale = .error .nullDeref := by
  have hne : sn.collateral ≠ [] := by rw [hcol]; exact List.cons_ne_nil op ops
  rw [isValid_of_header hblock hkey htier haddr hne hcount hnodup hsig, hcol,
    collateralLoop_script_head hfresh htx hout hdest hd]
  rfl

end Faults

/-! ### A servicenode with pay-to-script-hash collateral -/

/-- The chain as `isValid` sees it: output 1 of transaction `0xA1` pays 5000 coins to `script` and
is unspent, and every block is valid. -/
def sampleEnv (script : Bytes) : Env where
  getTxFunc op :=
    if op = ⟨0xA1, 1⟩ then (true, some ⟨0xA1, [], [⟨0, []⟩, ⟨5000 * COIN, script⟩]⟩)
    else (false, none)
  isBlockValid _ _ _ := true
  chainTipHeight := 10
  snMaxCollateralCount := 10

/-- An SPV servicenode whose collateral is output 1 of transaction `0xA1`. With `Crypto.sample`
its signature recovers a key whose id is 7. -/
def sampleSnode : ServiceNode where
  snodePubKey := ⟨[2]⟩
  tier := Tier.SPV
  paymentAddress := 7
  collateral := [⟨0xA1, 1⟩]
  bestBlock := 0
  bestBlockHash := 0
  signature := 7 :: List.replicate 64 0
  pingBestBlock := 0
  pingBestBlockHash := 0
  config := []
  services := []
  invalid := false
  invalidBlock := 0

theorem isValid_p2sh_collateral :
    sampleSnode.isValid Crypto.sample (sampleEnv (payToScriptHash (List.replicate 20 3))) true =
      .error .nullDeref :=
  isValid_script_collateral rfl (by decide) rfl (by decide) rfl (by decide) (by decide)
    (show _ = some ⟨(7 :: List.replicate 64 0).take 33⟩ from rfl) (by decide) rfl rfl
    (extractDestination_p2sh Crypto.sample (by rfl)) rfl

/-! ## Pings -/

/-- `ServiceNodePing`, as read from the network (reading sets the servicenode's ping block,
configuration and services from the ping's). -/
structure ServiceNodePing where
  snodePubKey : CPubKey
  bestBlock : UInt32
  bestBlockHash : Uint256
  pingTime : UInt32
  config : Bytes
  snode : ServiceNode
  signature : Bytes
  deriving DecidableEq, Repr

namespace ServiceNodePing

/-- The fields a ping signs. -/
def signedBytes (p : ServiceNodePing) : Bytes :=
  writePubKey p.snodePubKey ++ leBytes 4 p.bestBlock.toNat ++ p.bestBlockHash.toBytes ++
    leBytes 4 p.pingTime.toNat ++ writeString p.config ++ p.snode.serialize

/-- `ServiceNodePing::sigHash`. -/
def sigHash (p : ServiceNodePing) : Uint256 := cr.hash256 p.signedBytes

/-- `ServiceNodePing::getHash`: the signed fields and the signature. -/
def getHash (p : ServiceNodePing) : Uint256 := cr.hash256 (p.signedBytes ++ writeString p.signature)

/-- `ServiceNodePing::isValid`. -/
def isValid (p : ServiceNodePing) : Except Fault Bool :=
  if !env.isBlockValid p.bestBlock p.bestBlockHash true then .ok false
  else if p.snode.tier ≠ Tier.SPV then .ok false
  else if !p.snodePubKey.IsFullyValid cr || p.snodePubKey != p.snode.snodePubKey then .ok false
  else if p.snode.services.isEmpty then .ok false
  else match CPubKey.recoverCompact cr (p.sigHash cr) p.signature with
    | none => .ok false
    | some pubkey =>
      if pubkey.GetID cr ≠ p.snodePubKey.GetID cr then .ok false
      -- the stale check is not repeated: the ping's own block was checked with it
      else p.snode.isValid cr env false

end ServiceNodePing

/-! ## The legacy xbridge packet -/

/-- `LegacyXBridgePacket`. -/
structure LegacyXBridgePacket where
  version : UInt32
  command : UInt32
  timestamp : UInt32
  bodysize : UInt32
  pubkey : CPubKey
  signature : Bytes
  body : Bytes
  deriving DecidableEq, Repr

/-- `n` bytes of `packet` from `offset`, read through a pointer into it: the bytes, or a read at
the first index past the end. -/
def readAt (packet : Bytes) (offset n : Nat) : Except Fault Bytes :=
  if offset + n ≤ packet.length then .ok ((packet.drop offset).take n)
  else .error (.outOfBounds (max offset packet.length))

/-- `*static_cast<uint32_t*>(static_cast<void*>(&packet[0] + offset))`. -/
def readUInt32At (packet : Bytes) (offset : Nat) : Except Fault UInt32 := do
  let b ← readAt packet offset 4
  pure (UInt32.ofNat (leNat b))

/-- `CPubKey(packet.begin() + offset, packet.begin() + offset + 33)`: `CPubKey::Set` reads the
header byte, and copies the 33 bytes only when the header announces that length. -/
def readPubKeyAt (packet : Bytes) (offset : Nat) : Except Fault CPubKey := do
  let header ← readAt packet offset 1
  if header.map pubKeyLen = [33] then
    let vch ← readAt packet offset 33
    pure ⟨vch⟩
  else pure ⟨[]⟩

/-- `LegacyXBridgePacket::CopyFrom`. -/
def LegacyXBridgePacket.CopyFrom (packet : Bytes) : Except Fault LegacyXBridgePacket := do
  -- the packet address (uint160) and a timestamp (uint64_t) are skipped
  let version ← readUInt32At packet 28
  let command ← readUInt32At packet 32
  let timestamp ← readUInt32At packet 36
  let bodysize ← readUInt32At packet 40
  let pubkey ← readPubKeyAt packet 44
  let signature ← readAt packet 77 64
  pure { version, command, timestamp, bodysize, pubkey, signature, body := packet.drop 141 }

section Reads

variable {α β : Type} {packet : Bytes}

/-- Every fault of `r` is a read at or past the end of `packet`. -/
def ReadsPast (packet : Bytes) (r : Except Fault α) : Prop :=
  ∀ e, r = .error e → ∃ i, packet.length ≤ i ∧ e = .outOfBounds i

theorem readsPast_pure (a : α) : ReadsPast packet (pure a : Except Fault α) := by
  intro e h
  cases h

theorem ReadsPast.bind {x : Except Fault α} {f : α → Except Fault β} (hx : ReadsPast packet x)
    (hf : ∀ a, ReadsPast packet (f a)) : ReadsPast packet (x >>= f) := by
  intro e h
  cases x with
  | error e' =>
    rw [except_error_bind] at h
    cases h
    exact hx e rfl
  | ok a => exact hf a e h

theorem readsPast_readAt (offset n : Nat) : ReadsPast packet (readAt packet offset n) := by
  intro e h
  unfold readAt at h
  split_ifs at h
  cases h
  exact ⟨_, le_max_right offset packet.length, rfl⟩

theorem readAt_ok_iff {offset n : Nat} {b : Bytes} :
    readAt packet offset n = .ok b ↔ offset + n ≤ packet.length ∧ b = (packet.drop offset).take n := by
  unfold readAt
  split_ifs with h
  · simp only [Except.ok.injEq, h, true_and]
    exact eq_comm
  · simp only [h, false_and]

theorem readsPast_readPubKeyAt (offset : Nat) : ReadsPast packet (readPubKeyAt packet offset) := by
  unfold readPubKeyAt
  refine (readsPast_readAt offset 1).bind fun header => ?_
  split_ifs
  · exact (readsPast_readAt offset 33).bind fun _ => readsPast_pure _
  · exact readsPast_pure _

/-- **Every fault of `CopyFrom`** is a read at or past the end of the packet. -/
theorem readsPast_CopyFrom : ReadsPast packet (LegacyXBridgePacket.CopyFrom packet) := by
  unfold LegacyXBridgePacket.CopyFrom readUInt32At
  refine ((readsPast_readAt 28 4).bind fun _ => readsPast_pure _).bind fun _ => ?_
  refine ((readsPast_readAt 32 4).bind fun _ => readsPast_pure _).bind fun _ => ?_
  refine ((readsPast_readAt 36 4).bind fun _ => readsPast_pure _).bind fun _ => ?_
  refine ((readsPast_readAt 40 4).bind fun _ => readsPast_pure _).bind fun _ => ?_
  refine (readsPast_readPubKeyAt 44).bind fun _ => ?_
  exact (readsPast_readAt 77 64).bind fun _ => readsPast_pure _

/-- `CopyFrom` returns exactly on packets that hold the whole fixed header. -/
theorem CopyFrom_ok_iff : (∃ p, LegacyXBridgePacket.CopyFrom packet = .ok p) ↔ 141 ≤ packet.length := by
  constructor
  · rintro ⟨p, h⟩
    unfold LegacyXBridgePacket.CopyFrom at h
    obtain ⟨_, -, h⟩ := except_bind_eq_ok h
    obtain ⟨_, -, h⟩ := except_bind_eq_ok h
    obtain ⟨_, -, h⟩ := except_bind_eq_ok h
    obtain ⟨_, -, h⟩ := except_bind_eq_ok h
    obtain ⟨_, -, h⟩ := except_bind_eq_ok h
    obtain ⟨_, hsig, -⟩ := except_bind_eq_ok h
    exact (readAt_ok_iff.mp hsig).1
  · intro h
    have hread : ∀ offset n, offset + n ≤ 141 → ∃ b, readAt packet offset n = .ok b :=
      fun offset n hn => ⟨_, readAt_ok_iff.mpr ⟨hn.trans h, rfl⟩⟩
    obtain ⟨b28, h28⟩ := hread 28 4 (by omega)
    obtain ⟨b32, h32⟩ := hread 32 4 (by omega)
    obtain ⟨b36, h36⟩ := hread 36 4 (by omega)
    obtain ⟨b40, h40⟩ := hread 40 4 (by omega)
    obtain ⟨b44, h44⟩ := hread 44 1 (by omega)
    obtain ⟨k44, hk44⟩ := hread 44 33 (by omega)
    obtain ⟨b77, h77⟩ := hread 77 64 (by omega)
    have hpk : ∃ pk, readPubKeyAt packet 44 = .ok pk := by
      unfold readPubKeyAt
      rw [h44, except_ok_bind]
      split_ifs
      · rw [hk44]; exact ⟨_, rfl⟩
      · exact ⟨_, rfl⟩
    obtain ⟨pk, hpk⟩ := hpk
    unfold LegacyXBridgePacket.CopyFrom readUInt32At
    simp only [h28, h32, h36, h40, hpk, h77, except_ok_bind]
    exact ⟨_, rfl⟩

end Reads

end Blocknet.Sn
