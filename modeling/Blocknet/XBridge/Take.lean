import Blocknet.XBridge.Client

/-!
# Taking an order, with the coin locks (`App::acceptXBridgeTransaction`)

Model of `App::acceptXBridgeTransaction` (`xbridge/xbridgeapp.cpp`) with the lock tables of
`App` that the client module leaves out: `m_feeUtxos`, the utxos of the service node fees of the
orders being taken, and `m_utxosDict`, the coins locked by currency (`lockFeeUtxos`,
`unlockFeeUtxos`, `getLockedUtxos`, `getAllLockedUtxos`, `lockCoins`).

* Both tables are sets of utxos keyed as `wallet::UtxoEntry` compares them, by txid and vout
  (`UtxoEntry` of the exchange module). A currency missing from `m_utxosDict` has no coin locked;
  `getLockedUtxos` adds an empty set for it, which locks nothing.
* An order is what the member reads and writes of it (`TakeOrder`): the order of the client
  module, the service node's key, its fee utxos and the taker's address.
* What the wallets and the node answer is `TakeEnv`, with a `TakeConnector` by currency.
  `rpc::createFeeTransaction` and `selectUtxos` are answers too; each picks utxos among those it
  is given, which their types carry. `createFeeTransaction` inserts the utxos it picks into the
  order's `feeUtxos` before it builds and signs the transaction, so it may fail with them
  inserted, and it never clears the set.
* `getUnspent` is the connector's own code over the answer of `rpc::listUnspent`: when that
  returns true, the excluded utxos and those whose script is not p2pkh are removed; when it
  returns false (an entry of the reply fails to parse), the utxos pushed before are left as they
  are, and the member, which ignores the result, goes on with them.
* The member returns an `Error`, or throws: `createFeeTransaction` throws when it is given no
  utxo, before its `try`. A call's result is its outcome with the order and the tables after it.

Results:
* `acceptXBridgeTransaction_failed`: a failed take restores the order's state and leaves the
  locked coins as they were. The fee utxos are left as they were, or the order's fee utxos are
  unlocked, or they stay locked: `lockCoins` fails after `lockFeeUtxos`, and that return does not
  call `unlockFeeUtxos`.
* `acceptXBridgeTransaction_fee_unchanged`: where `listUnspent` returns true and the order's fee
  utxos were not locked before, a failed take leaves the fee locks as they were.
* `acceptXBridgeTransaction_unlocks_stale_fee`: the returns after `lockFeeUtxos` unlock the
  order's whole `feeUtxos`, with what earlier takes of the order left in it; a fee utxo another
  order has locked since is unlocked too. `acceptXBridgeTransaction_stale_fee_sample` is a run of
  three takes where this happens.
* `acceptXBridgeTransaction_keeps_fee_locks`: where `listUnspent` fails after pushing a coin
  locked already and the selection takes it, `lockCoins` fails and the fee utxos stay locked.
* `acceptXBridgeTransaction_throws`: when every p2pkh utxo is locked the member throws, and the
  order stays at `trAccepting`.
-/

namespace Blocknet.XBridge

open Blocknet.Lib

/-! ## The lock tables -/

/-- `m_feeUtxos` and `m_utxosDict` of `App`. -/
structure Locks where
  feeUtxos : Finset UtxoEntry
  utxosDict : Map Bytes (Finset UtxoEntry)

namespace Locks

/-- `lockFeeUtxos(feeUtxos)`. -/
def lockFeeUtxos (l : Locks) (fee : Finset UtxoEntry) : Locks :=
  { l with feeUtxos := l.feeUtxos ∪ fee }

/-- `unlockFeeUtxos(feeUtxos)`. -/
def unlockFeeUtxos (l : Locks) (fee : Finset UtxoEntry) : Locks :=
  { l with feeUtxos := l.feeUtxos \ fee }

/-- `getLockedUtxos(token)`. -/
def getLockedUtxos (l : Locks) (token : Bytes) : Finset UtxoEntry :=
  (l.utxosDict.lookup token).getD ∅

/-- `getAllLockedUtxos(token)`. -/
def getAllLockedUtxos (l : Locks) (token : Bytes) : Finset UtxoEntry :=
  l.feeUtxos ∪ l.getLockedUtxos token

/-- `lockCoins(token, utxos)`: `false`, locking nothing, when one of them is locked already. -/
def lockCoins (l : Locks) (token : Bytes) (utxos : List UtxoEntry) : Bool × Locks :=
  match l.utxosDict.lookup token with
  | none => (true, { l with utxosDict := l.utxosDict.insert token utxos.toFinset })
  | some o =>
    if utxos.any fun u => decide (u ∈ o) then (false, l)
    else (true, { l with utxosDict := l.utxosDict.insert token (o ∪ utxos.toFinset) })

end Locks

/-! ## What the member reads -/

/-- `wallet::UtxoEntry` as the member reads it: the outpoint the tables key it by, its amount and
its address. -/
structure WalletUtxo where
  entry : UtxoEntry
  amount : ℚ
  address : String
  deriving DecidableEq, Repr

/-- The coin the client module keeps of a used utxo. -/
def WalletUtxo.toCoin (u : WalletUtxo) : Coin := ⟨u.amount, u.address⟩

/-- What `rpc::createFeeTransaction` does with the utxos `avail`: the utxos it inserts into the
order's `feeUtxos`, picked among `avail`, and whether it builds the transaction. -/
structure FeeTransaction (avail : List WalletUtxo) where
  inserted : List WalletUtxo
  inserted_subset : inserted ⊆ avail
  built : Bool

/-- A utxo as `rpc::listUnspent` pushes it: its outpoint, its amount and its script. -/
structure ListedUtxo where
  entry : UtxoEntry
  amount : ℚ
  scriptPubKey : Bytes
  deriving DecidableEq, Repr

/-- The script test of `getUnspent`: 25 bytes, `76 a9 14` first and `88 ac` last. -/
def isP2pkhScript (script : Bytes) : Bool :=
  script.length == 25 && script[0]? == some 0x76 && script[1]? == some 0xa9 &&
    script[2]? == some 0x14 && script[23]? == some 0x88 && script[24]? == some 0xac

/-- What a wallet connector answers while an order is taken. -/
structure TakeConnector where
  /-- `currency`: the token its coins are locked under. -/
  currency : Bytes
  /-- `isDustAmount(amount)`. -/
  isDustAmount : ℚ → Bool
  /-- `serviceNodeFee`. -/
  serviceNodeFee : ℚ
  /-- `rpc::listUnspent(m_user, m_passwd, m_ip, m_port, inputs)`: the utxos it pushes and whether
  it returns true. It returns false with the utxos pushed so far when an entry of the reply
  fails to parse. -/
  listUnspent : List ListedUtxo × Bool
  /-- `fromXAddr(keyHash)`: the address of a key hash. -/
  fromXAddr : Bytes → String
  /-- `signMessage(entry.address, entry.toString(), signature)`: the signature, `none` when it
  fails. -/
  signMessage : WalletUtxo → Option String
  /-- `toXAddr(address)`. -/
  toXAddr : String → Bytes
  /-- `newKeyPair(pubKey, privKey)`: the public key. -/
  newKeyPair : Bytes

/-- `BtcWalletConnector::getUnspent(inputs, excluded)`: the utxos `listUnspent` pushes. When it
returns false they are left as pushed, without an address; otherwise those in `excluded` and
those whose script is not p2pkh are removed, and each kept utxo takes the address of its key
hash. -/
def TakeConnector.getUnspent (c : TakeConnector) (excluded : Finset UtxoEntry) : List WalletUtxo :=
  if !c.listUnspent.2 then c.listUnspent.1.map fun u => ⟨u.entry, u.amount, ""⟩
  else
    (c.listUnspent.1.filter fun u => decide (u.entry ∉ excluded) && isP2pkhScript u.scriptPubKey).map
      fun u => ⟨u.entry, u.amount, c.fromXAddr ((u.scriptPubKey.drop 3).take 20)⟩

/-- What the wallets and the node answer while an order is taken. -/
structure TakeEnv where
  /-- `connectorByCurrency(currency)`. -/
  connector : Bytes → Option TakeConnector
  /-- `availableBalance()`. -/
  availableBalance : ℚ
  /-- `ServiceNodeMgr::getSn(pubkey)` is not null. -/
  getSn : Bytes → Bool
  /-- `CPubKey::Decompress()`: the uncompressed key, `none` when it fails. -/
  decompress : Bytes → Option Bytes
  /-- `strInfo.size() > maxBytes` once the order id is truncated. The JSON writer is left out. -/
  infoTooLarge : Bool
  /-- `rpc::unspentP2PKH(feeOutputs)`: the p2pkh utxos of the wallet. -/
  unspentP2PKH : List WalletUtxo
  /-- `rpc::createFeeTransaction(..., feeOutputs, ptr->feeUtxos, ptr->rawFeeTx)` of a non-empty
  list. -/
  createFeeTransaction : (avail : List WalletUtxo) → FeeTransaction avail
  /-- `selectUtxos(from, outputs, ...)`: the coins it picks among `outputs`, `none` when it
  fails. -/
  selectUtxos : (outputs : List WalletUtxo) → Option { coins : List WalletUtxo // coins ⊆ outputs }
  /-- `DecodeBase64(signature, &isInvalid)`: the bytes and `isInvalid`. -/
  decodeBase64 : String → Bytes × Bool

/-- An order as `acceptXBridgeTransaction` reads and writes it. -/
structure TakeOrder where
  descr : TransactionDescr
  /-- `sPubKey`: the key of the order's service node. -/
  sPubKey : Bytes
  /-- `feeUtxos`. -/
  feeUtxos : Finset UtxoEntry
  /-- `toAddr`. -/
  toAddr : String

/-- `ptr->state = s`. -/
def TakeOrder.withState (o : TakeOrder) (s : TransactionDescr.State) : TakeOrder :=
  { o with descr := { o.descr with state := s } }

/-- The outcome of a call: the error it returns, or the message of the exception it throws. -/
abbrev TakeOutcome := Except String Error

variable (env : TakeEnv)

/-- The service node of the key is known: `getSn(pksnode)`, or else `getSn` of the key
`Decompress()` gives. -/
def snodeKnown (pksnode : Bytes) : Bool :=
  env.getSn pksnode ||
    match env.decompress pksnode with
    | some uncompressed => env.getSn uncompressed
    | none => false

/-- The error the signing loop sets for one coin: the last of its checks that fails. -/
def signError (connFrom : TakeConnector) (entry : WalletUtxo) : Error :=
  let err : Error := if (connFrom.signMessage entry).isNone then .FUNDS_NOT_SIGNED else .SUCCESS
  let (signature, isInvalid) := env.decodeBase64 ((connFrom.signMessage entry).getD "")
  let err := if isInvalid then .FUNDS_NOT_SIGNED else err
  let err := if signature.length ≠ 65 then .INVALID_SIGNATURE else err
  if (connFrom.toXAddr entry.address).length ≠ 20 then .INVALID_ADDRESS else err

/-- The signing loop over the coins `selectUtxos` picked: the error of the first coin that has
one. -/
def signCoins (connFrom : TakeConnector) : List WalletUtxo → Error
  | [] => .SUCCESS
  | entry :: rest =>
    if signError env connFrom entry ≠ .SUCCESS then signError env connFrom entry
    else signCoins connFrom rest

/-- `feeOutputs` once the utxos locked for the currency are removed. -/
def feeOutputs (l : Locks) (token : Bytes) : List WalletUtxo :=
  env.unspentP2PKH.filter fun u => decide (u.entry ∉ l.getAllLockedUtxos token)

/-- The message `createFeeTransaction` throws when it is given no utxo. -/
def notEnoughUtxosToCoverFee : String :=
  "Create transaction command finished with error, not enough utxos to cover fee"

/-- The utxo selection of `acceptXBridgeTransaction`, the block under `m_utxosOrderLock`, of an
order at `trAccepting` whose state was `priorState`: the outcome where the block returns or
throws, `none` where the member goes on with the fee utxos and the coins locked. -/
def selectUtxosBlock (connFrom : TakeConnector) (priorState : TransactionDescr.State)
    (l : Locks) (o : TakeOrder) : Option TakeOutcome × TakeOrder × Locks :=
  if env.unspentP2PKH = [] then (some (.ok .INSIFFICIENT_FUNDS), o.withState priorState, l)
  -- thrown before the `try` of `createFeeTransaction`: the state stays `trAccepting`
  else if feeOutputs env l connFrom.currency = [] then (some (.error notEnoughUtxosToCoverFee), o, l)
  else
    let fee := env.createFeeTransaction (feeOutputs env l connFrom.currency)
    let o := { o with feeUtxos := o.feeUtxos ∪ (fee.inserted.map WalletUtxo.entry).toFinset }
    if !fee.built then (some (.ok .INSIFFICIENT_FUNDS), o.withState priorState, l)
    else
      let l := l.lockFeeUtxos o.feeUtxos
      match env.selectUtxos (connFrom.getUnspent (l.getAllLockedUtxos connFrom.currency)) with
      | none => (some (.ok .INSIFFICIENT_FUNDS), o.withState priorState, l.unlockFeeUtxos o.feeUtxos)
      | some outputsForUse =>
        if signCoins env connFrom outputsForUse.1 ≠ .SUCCESS then
          (some (.ok (signCoins env connFrom outputsForUse.1)), o.withState priorState,
            l.unlockFeeUtxos o.feeUtxos)
        else
          let o := { o with descr := { o.descr with
            usedCoins := outputsForUse.1.map WalletUtxo.toCoin } }
          match l.lockCoins connFrom.currency (outputsForUse.1.map WalletUtxo.entry) with
          | (true, l) => (none, o, l)
          -- the fee utxos stay locked
          | (false, l) => (some (.ok .INSIFFICIENT_FUNDS), o.withState priorState, l)

/-- `App::acceptXBridgeTransaction(id, from, to)` of an order found in `m_transactions`. -/
def App.acceptXBridgeTransaction (fromAddr toAddr : String) (l : Locks) (o : TakeOrder) :
    TakeOutcome × TakeOrder × Locks :=
  if .trAccepting ≤ o.descr.state then (.ok .BAD_REQUEST, o, l)
  else
    let priorState := o.descr.state
    let o := o.withState .trAccepting
    match env.connector o.descr.fromCurrency, env.connector o.descr.toCurrency with
    | some connFrom, some connTo =>
      if connFrom.isDustAmount (o.descr.fromAmount / TransactionDescr.COIN) then
        (.ok .DUST, o.withState priorState, l)
      else if connTo.isDustAmount (o.descr.toAmount / TransactionDescr.COIN) then
        (.ok .DUST, o.withState priorState, l)
      else if env.availableBalance < connTo.serviceNodeFee then
        (.ok .INSIFFICIENT_FUNDS_DX, o.withState priorState, l)
      else if o.sPubKey.length ≠ 33 then (.ok .NO_SERVICE_NODE, o.withState priorState, l)
      else if !snodeKnown env o.sPubKey then (.ok .NO_SERVICE_NODE, o.withState priorState, l)
      else if env.infoTooLarge then (.ok .INVALID_ONCHAIN_HISTORY, o.withState priorState, l)
      else match selectUtxosBlock env connFrom priorState l o with
        | (some r, o, l) => (r, o, l)
        | (none, o, l) =>
          (.ok .SUCCESS,
            { o with
              descr := { o.descr with
                fromAddr
                «from» := connFrom.toXAddr fromAddr
                «to» := connTo.toXAddr toAddr
                role := 'B'
                mPubKey := connTo.newKeyPair }
              toAddr }, l)
    | _, _ => (.ok .NO_SESSION, o.withState priorState, l)

/-! ## What one take does -/

namespace Locks

variable {l l' : Locks} {token : Bytes} {utxos : List UtxoEntry}

/-- A `lockCoins` that fails locks nothing. -/
theorem lockCoins_of_false (h : l.lockCoins token utxos = (false, l')) : l' = l := by
  unfold lockCoins at h
  split at h
  · cases h
  · split_ifs at h
    · cases h
      rfl
    · cases h

/-- `lockCoins` of coins one of which is locked already fails. -/
theorem lockCoins_of_mem {c : UtxoEntry} (hc : c ∈ utxos) (hl : c ∈ l.getLockedUtxos token) :
    l.lockCoins token utxos = (false, l) := by
  unfold getLockedUtxos at hl
  unfold lockCoins
  cases hlookup : l.utxosDict.lookup token with
  | none =>
    rw [hlookup] at hl
    exact absurd hl (Finset.notMem_empty c)
  | some o =>
    rw [hlookup, Option.getD_some] at hl
    have hany : (utxos.any fun u => decide (u ∈ o)) = true := List.any_eq_true.mpr ⟨c, hc, by simpa using hl⟩
    simp only [hany, if_true]

/-- `lockCoins` of coins none of which is locked for the token succeeds. -/
theorem lockCoins_of_not_mem (h : ∀ u ∈ utxos, u ∉ l.getLockedUtxos token) :
    (l.lockCoins token utxos).1 = true := by
  unfold lockCoins
  cases hlookup : l.utxosDict.lookup token with
  | none => rfl
  | some o =>
    have hany : (utxos.any fun u => decide (u ∈ o)) = false := by
      rw [List.any_eq_false]
      intro u hu
      simpa [getLockedUtxos, hlookup] using h u hu
    simp [hany]

theorem mem_getAllLockedUtxos_of_fee {u : UtxoEntry} (h : u ∈ l.feeUtxos) :
    u ∈ l.getAllLockedUtxos token :=
  Finset.mem_union_left _ h

end Locks

@[simp] theorem TakeOrder.withState_state (o : TakeOrder) (s : TransactionDescr.State) :
    (o.withState s).descr.state = s := rfl

@[simp] theorem TakeOrder.withState_feeUtxos (o : TakeOrder) (s : TransactionDescr.State) :
    (o.withState s).feeUtxos = o.feeUtxos := rfl

namespace TakeConnector

variable {c : TakeConnector} {excluded : Finset UtxoEntry}

/-- Where `listUnspent` returns true, no utxo the connector lists is excluded. -/
theorem getUnspent_not_mem (hok : c.listUnspent.2 = true) {u : WalletUtxo}
    (hu : u ∈ c.getUnspent excluded) : u.entry ∉ excluded := by
  simp only [getUnspent, hok, Bool.not_true, Bool.false_eq_true, if_false] at hu
  obtain ⟨w, hw, rfl⟩ := List.mem_map.mp hu
  have hkeep := (List.mem_filter.mp hw).2
  simp only [Bool.and_eq_true, decide_eq_true_eq] at hkeep
  exact hkeep.1

/-- Where `listUnspent` returns false, every utxo it pushed is listed, excluded or not. -/
theorem mem_getUnspent_of_failed (hfail : c.listUnspent.2 = false) {u : ListedUtxo}
    (hu : u ∈ c.listUnspent.1) : ⟨u.entry, u.amount, ""⟩ ∈ c.getUnspent excluded := by
  simp only [getUnspent, hfail, Bool.not_false, if_true]
  exact List.mem_map_of_mem hu

end TakeConnector

/-- A fee utxo `createFeeTransaction` may pick is not locked as a fee. -/
theorem entry_not_mem_of_mem_feeOutputs {l : Locks} {token : Bytes} {u : WalletUtxo}
    (h : u ∈ feeOutputs env l token) : u.entry ∉ l.feeUtxos := by
  unfold feeOutputs at h
  rw [List.mem_filter, decide_eq_true_iff] at h
  exact fun hu => h.2 (Locks.mem_getAllLockedUtxos_of_fee hu)

theorem signCoins_of_forall {connFrom : TakeConnector} {coins : List WalletUtxo}
    (h : ∀ c ∈ coins, signError env connFrom c = .SUCCESS) : signCoins env connFrom coins = .SUCCESS := by
  induction coins with
  | nil => rfl
  | cons c rest ih =>
    unfold signCoins
    rw [if_neg (not_not.mpr (h c List.mem_cons_self))]
    exact ih fun c' hc' => h c' (List.mem_cons_of_mem c hc')

theorem feeOutputs_ne_nil {l : Locks} {token : Bytes}
    (h : ∃ u ∈ env.unspentP2PKH, u.entry ∉ l.getAllLockedUtxos token) : feeOutputs env l token ≠ [] := by
  obtain ⟨u, hu, hfree⟩ := h
  exact List.ne_nil_of_mem (List.mem_filter.mpr ⟨hu, decide_eq_true hfree⟩)

theorem unspentP2PKH_ne_nil {l : Locks} {token : Bytes} (h : feeOutputs env l token ≠ []) :
    env.unspentP2PKH ≠ [] := by
  intro hnil
  exact h (by rw [feeOutputs, hnil, List.filter_nil])

/-- What a failed take can leave of `m_feeUtxos` (`before`), with `fee` the order's fee utxos
after it. -/
inductive FeeOutcome (before fee : Finset UtxoEntry) : Finset UtxoEntry → Prop
  /-- The return comes before `lockFeeUtxos`. -/
  | untouched : FeeOutcome before fee before
  /-- `unlockFeeUtxos(ptr->feeUtxos)` after `lockFeeUtxos(ptr->feeUtxos)`. -/
  | unlocked : FeeOutcome before fee ((before ∪ fee) \ fee)
  /-- `lockFeeUtxos(ptr->feeUtxos)`, and no unlock. -/
  | kept : FeeOutcome before fee (before ∪ fee)

/-- What a failed take leaves: the state it found, the locked coins as they were, and the fee
locks as `FeeOutcome` says. -/
structure FailedTake (state : TransactionDescr.State) (l : Locks) (o' : TakeOrder) (l' : Locks) :
    Prop where
  state_eq : o'.descr.state = state
  utxosDict_eq : l'.utxosDict = l.utxosDict
  feeUtxos : FeeOutcome l.feeUtxos o'.feeUtxos l'.feeUtxos

section Block

variable {env} {connFrom : TakeConnector} {priorState : TransactionDescr.State}
  {l l' : Locks} {o o' : TakeOrder}

/-- Where the utxo selection returns, it returns an error, and the take has failed. -/
theorem selectUtxosBlock_failed {e : Error}
    (h : selectUtxosBlock env connFrom priorState l o = (some (.ok e), o', l')) :
    e ≠ .SUCCESS ∧ FailedTake priorState l o' l' := by
  unfold selectUtxosBlock at h
  dsimp only at h
  split_ifs at h
  · cases h
    exact ⟨by decide, rfl, rfl, .untouched⟩
  · cases h
  · cases h
    exact ⟨by decide, rfl, rfl, .untouched⟩
  · split at h
    · cases h
      exact ⟨by decide, rfl, rfl, .unlocked⟩
    · rename_i outputsForUse _
      split_ifs at h with hsign
      · cases h
        exact ⟨hsign, rfl, rfl, .unlocked⟩
      · split at h
        · cases h
        · rename_i l'' hlock
          cases h
          rw [Locks.lockCoins_of_false hlock]
          exact ⟨by decide, rfl, rfl, .kept⟩

/-- Where `listUnspent` returns true, the connector lists no coin locked for its currency, so
`lockCoins` of the coins picked succeeds: a selection that returns leaves the fee locks as they
were or unlocks the order's fee utxos, never keeps them locked. -/
theorem selectUtxosBlock_failed_of_listUnspent {e : Error} (hok : connFrom.listUnspent.2 = true)
    (h : selectUtxosBlock env connFrom priorState l o = (some (.ok e), o', l')) :
    l'.feeUtxos = l.feeUtxos ∨ l'.feeUtxos = (l.feeUtxos ∪ o'.feeUtxos) \ o'.feeUtxos := by
  unfold selectUtxosBlock at h
  dsimp only at h
  split_ifs at h
  · cases h
    exact .inl rfl
  · cases h
  · cases h
    exact .inl rfl
  · split at h
    · cases h
      exact .inr rfl
    · rename_i outputsForUse _
      split_ifs at h
      · cases h
        exact .inr rfl
      · split at h
        · cases h
        · rename_i l'' hlock
          -- every coin picked is listed, so none is locked for the currency
          have hfree : ∀ u ∈ outputsForUse.1.map WalletUtxo.entry,
              u ∉ l.getLockedUtxos connFrom.currency := by
            intro u hu hlocked
            obtain ⟨w, hw, rfl⟩ := List.mem_map.mp hu
            exact TakeConnector.getUnspent_not_mem hok (outputsForUse.2 hw)
              (Finset.mem_union_right _ hlocked)
          have hfalse := congrArg Prod.fst hlock
          rw [Locks.lockCoins_of_not_mem] at hfalse
          · cases hfalse
          · exact hfree

/-- The utxo selection adds to the order's fee utxos only utxos that were not locked as fees. -/
theorem selectUtxosBlock_feeUtxos {r : Option TakeOutcome}
    (h : selectUtxosBlock env connFrom priorState l o = (r, o', l')) :
    ∀ u ∈ o'.feeUtxos, u ∈ o.feeUtxos ∨ u ∉ l.feeUtxos := by
  have hnew : ∀ (fee : FeeTransaction (feeOutputs env l connFrom.currency)) u,
      u ∈ o.feeUtxos ∪ (fee.inserted.map WalletUtxo.entry).toFinset →
        u ∈ o.feeUtxos ∨ u ∉ l.feeUtxos := by
    intro fee u hu
    rcases Finset.mem_union.mp hu with hu | hu
    · exact .inl hu
    · obtain ⟨w, hw, rfl⟩ := List.mem_map.mp (List.mem_toFinset.mp hu)
      exact .inr (entry_not_mem_of_mem_feeOutputs env (fee.inserted_subset hw))
  unfold selectUtxosBlock at h
  dsimp only at h
  split_ifs at h
  · cases h
    exact fun u hu => .inl hu
  · cases h
    exact fun u hu => .inl hu
  · cases h
    exact hnew _
  · split at h
    · cases h
      exact hnew _
    · split_ifs at h
      · cases h
        exact hnew _
      · split at h <;> cases h <;> exact hnew _

end Block

/-! ## A failed take -/

section Take

variable {env} {fromAddr toAddr : String} {l l' : Locks} {o o' : TakeOrder} {out : TakeOutcome}

/-- **What one take does**: it returns an error before the utxo selection, leaving the locks,
the order's fee utxos and its state as they were; or it ends where the utxo selection returns;
or the selection goes on and the take succeeds. -/
theorem acceptXBridgeTransaction_cases
    (hr : App.acceptXBridgeTransaction env fromAddr toAddr l o = (out, o', l')) :
    (l' = l ∧ o'.feeUtxos = o.feeUtxos ∧ o'.descr.state = o.descr.state ∧
        ∃ e, out = .ok e ∧ e ≠ .SUCCESS) ∨
      (∃ connFrom, env.connector o.descr.fromCurrency = some connFrom ∧
        selectUtxosBlock env connFrom o.descr.state l (o.withState .trAccepting) =
          (some out, o', l')) ∨
      (out = .ok .SUCCESS ∧ ∃ connFrom o'', selectUtxosBlock env connFrom o.descr.state l
        (o.withState .trAccepting) = (none, o'', l') ∧ o'.feeUtxos = o''.feeUtxos) := by
  unfold App.acceptXBridgeTransaction at hr
  by_cases hbelow : .trAccepting ≤ o.descr.state
  · rw [if_pos hbelow] at hr
    cases hr
    exact .inl ⟨rfl, rfl, rfl, _, rfl, by decide⟩
  rw [if_neg hbelow] at hr
  dsimp only at hr
  split at hr
  · rename_i connFrom connTo hfrom _
    split_ifs at hr
    any_goals (cases hr; exact .inl ⟨rfl, rfl, rfl, _, rfl, by decide⟩)
    split at hr
    · rename_i hblock
      cases hr
      exact .inr (.inl ⟨connFrom, hfrom, hblock⟩)
    · rename_i o'' l'' hblock
      cases hr
      exact .inr (.inr ⟨rfl, connFrom, o'', hblock, rfl⟩)
  · cases hr
    exact .inl ⟨rfl, rfl, rfl, _, rfl, by decide⟩

/-- **A failed take restores the order's state and the coin locks**; it leaves the fee locks as
they were, unlocks the order's fee utxos, or keeps them locked. -/
theorem acceptXBridgeTransaction_failed {e : Error}
    (h : (App.acceptXBridgeTransaction env fromAddr toAddr l o).1 = .ok e) (he : e ≠ .SUCCESS) :
    FailedTake o.descr.state l (App.acceptXBridgeTransaction env fromAddr toAddr l o).2.1
      (App.acceptXBridgeTransaction env fromAddr toAddr l o).2.2 := by
  generalize hr : App.acceptXBridgeTransaction env fromAddr toAddr l o = r at h ⊢
  obtain ⟨out, o', l'⟩ := r
  cases h
  rcases acceptXBridgeTransaction_cases hr with ⟨rfl, -, hstate, -⟩ | ⟨_, -, hblock⟩ | ⟨hout, -⟩
  · exact ⟨hstate, rfl, .untouched⟩
  · exact (selectUtxosBlock_failed hblock).2
  · cases hout
    exact absurd rfl he

/-- The fee utxos a take adds to the order were not locked as fees. -/
theorem acceptXBridgeTransaction_feeUtxos
    (hr : App.acceptXBridgeTransaction env fromAddr toAddr l o = (out, o', l')) :
    ∀ u ∈ o'.feeUtxos, u ∈ o.feeUtxos ∨ u ∉ l.feeUtxos := by
  rcases acceptXBridgeTransaction_cases hr with ⟨-, hfee, -⟩ | ⟨_, -, hblock⟩ | ⟨-, _, _, hblock, hfee⟩
  · exact fun u hu => .inl (hfee ▸ hu)
  · have hfresh := selectUtxosBlock_feeUtxos hblock
    exact hfresh
  · have hfresh := selectUtxosBlock_feeUtxos hblock
    exact fun u hu => hfresh u (hfee ▸ hu)

/-- Where the order's fee utxos were not locked before, its fee utxos after the take were not
locked before either. -/
theorem acceptXBridgeTransaction_fresh
    (hr : App.acceptXBridgeTransaction env fromAddr toAddr l o = (out, o', l'))
    (hfresh : Disjoint o.feeUtxos l.feeUtxos) : Disjoint l.feeUtxos o'.feeUtxos := by
  rw [Finset.disjoint_left]
  intro u hl ho'
  rcases acceptXBridgeTransaction_feeUtxos hr u ho' with ho | hnl
  · exact Finset.disjoint_left.mp hfresh ho hl
  · exact hnl hl

/-- Where the order's fee utxos were not locked before, a failed take leaves the fee locks as
they were, except after `lockCoins` fails, where it keeps the order's fee utxos locked. -/
theorem acceptXBridgeTransaction_fee_restored {e : Error}
    (h : (App.acceptXBridgeTransaction env fromAddr toAddr l o).1 = .ok e) (he : e ≠ .SUCCESS)
    (hfresh : Disjoint o.feeUtxos l.feeUtxos) :
    (App.acceptXBridgeTransaction env fromAddr toAddr l o).2.2.feeUtxos = l.feeUtxos ∨
      (App.acceptXBridgeTransaction env fromAddr toAddr l o).2.2.feeUtxos =
        l.feeUtxos ∪ (App.acceptXBridgeTransaction env fromAddr toAddr l o).2.1.feeUtxos := by
  have hfailed := acceptXBridgeTransaction_failed h he
  generalize hr : App.acceptXBridgeTransaction env fromAddr toAddr l o = r at hfailed ⊢
  obtain ⟨out, o', l'⟩ := r
  have hdisjoint := acceptXBridgeTransaction_fresh hr hfresh
  have hfee : FeeOutcome l.feeUtxos o'.feeUtxos l'.feeUtxos := hfailed.feeUtxos
  show l'.feeUtxos = l.feeUtxos ∨ l'.feeUtxos = l.feeUtxos ∪ o'.feeUtxos
  generalize l'.feeUtxos = after at hfee ⊢
  cases hfee with
  | untouched => exact .inl rfl
  | unlocked => exact .inl (by rw [Finset.union_sdiff_right, hdisjoint.sdiff_eq_left])
  | kept => exact .inr rfl

/-- **Where `listUnspent` of the order's currency returns true and the order's fee utxos were not
locked before, a failed take leaves the fee locks as they were.** -/
theorem acceptXBridgeTransaction_fee_unchanged {e : Error}
    (h : (App.acceptXBridgeTransaction env fromAddr toAddr l o).1 = .ok e) (he : e ≠ .SUCCESS)
    (hfresh : Disjoint o.feeUtxos l.feeUtxos)
    (hok : ∀ c, env.connector o.descr.fromCurrency = some c → c.listUnspent.2 = true) :
    (App.acceptXBridgeTransaction env fromAddr toAddr l o).2.2.feeUtxos = l.feeUtxos := by
  generalize hr : App.acceptXBridgeTransaction env fromAddr toAddr l o = r at h ⊢
  obtain ⟨out, o', l'⟩ := r
  cases h
  have hdisjoint := acceptXBridgeTransaction_fresh hr hfresh
  rcases acceptXBridgeTransaction_cases hr with ⟨rfl, -⟩ | ⟨connFrom, hfrom, hblock⟩ | ⟨hout, -⟩
  · rfl
  · rcases selectUtxosBlock_failed_of_listUnspent (hok connFrom hfrom) hblock with hl | hl
    · exact hl
    · rw [hl, Finset.union_sdiff_right, hdisjoint.sdiff_eq_left]
  · cases hout
    exact absurd rfl he

/-- The selection throws only when `createFeeTransaction` is given no utxo, and then leaves the
order at `trAccepting` and the locks as they were. -/
theorem selectUtxosBlock_throws {connFrom : TakeConnector} {priorState : TransactionDescr.State}
    {m : String} (h : selectUtxosBlock env connFrom priorState l o = (some (.error m), o', l')) :
    feeOutputs env l connFrom.currency = [] ∧ m = notEnoughUtxosToCoverFee ∧ o' = o ∧ l' = l := by
  unfold selectUtxosBlock at h
  dsimp only at h
  split_ifs at h with hunspent hfee
  · cases h
  · cases h
    exact ⟨hfee, rfl, rfl, rfl⟩
  · cases h
  · split at h
    · cases h
    · split_ifs at h
      · cases h
      · split at h <;> cases h

/-- **A take that throws leaves the order at `trAccepting`**: `createFeeTransaction` throws
before any return has restored the state, and no lock has been taken. -/
theorem acceptXBridgeTransaction_throws {m : String}
    (h : (App.acceptXBridgeTransaction env fromAddr toAddr l o).1 = .error m) :
    m = notEnoughUtxosToCoverFee ∧
      (App.acceptXBridgeTransaction env fromAddr toAddr l o).2.1.descr.state = .trAccepting ∧
      (App.acceptXBridgeTransaction env fromAddr toAddr l o).2.2 = l := by
  generalize hr : App.acceptXBridgeTransaction env fromAddr toAddr l o = r at h ⊢
  obtain ⟨out, o', l'⟩ := r
  cases h
  rcases acceptXBridgeTransaction_cases hr with ⟨-, -, -, _, hout, -⟩ | ⟨_, -, hblock⟩ | ⟨hout, -⟩
  · cases hout
  · obtain ⟨-, hm, rfl, rfl⟩ := selectUtxosBlock_throws hblock
    exact ⟨hm, rfl, rfl⟩
  · cases hout

end Take

/-! ## The fee locks `lockCoins` leaves behind -/

/-- The checks of `acceptXBridgeTransaction` before the utxo selection pass, with the connectors
`connFrom` and `connTo`. -/
structure PassesChecks (o : TakeOrder) (connFrom connTo : TakeConnector) : Prop where
  below : o.descr.state < .trAccepting
  connFrom_eq : env.connector o.descr.fromCurrency = some connFrom
  connTo_eq : env.connector o.descr.toCurrency = some connTo
  fromAmount_not_dust : connFrom.isDustAmount (o.descr.fromAmount / TransactionDescr.COIN) = false
  toAmount_not_dust : connTo.isDustAmount (o.descr.toAmount / TransactionDescr.COIN) = false
  funded : connTo.serviceNodeFee ≤ env.availableBalance
  sPubKey_length : o.sPubKey.length = 33
  snode : snodeKnown env o.sPubKey = true
  infoFits : env.infoTooLarge = false

section Checked

variable {env} {fromAddr toAddr : String} {l : Locks} {o : TakeOrder}
  {connFrom connTo : TakeConnector}

/-- Past the checks, a take that returns in the utxo selection returns what it does. -/
theorem acceptXBridgeTransaction_of_selectUtxosBlock (hc : PassesChecks env o connFrom connTo)
    {r : TakeOutcome} {o' : TakeOrder} {l' : Locks}
    (hb : selectUtxosBlock env connFrom o.descr.state l (o.withState .trAccepting) = (some r, o', l')) :
    App.acceptXBridgeTransaction env fromAddr toAddr l o = (r, o', l') := by
  have hbelow : ¬ .trAccepting ≤ o.descr.state := fun h =>
    TransactionDescr.State.not_lt_of_le h hc.below
  unfold App.acceptXBridgeTransaction
  rw [if_neg hbelow]
  simp only [TakeOrder.withState, hc.connFrom_eq, hc.connTo_eq]
  simp only [TakeOrder.withState] at hb
  simp [hc.fromAmount_not_dust, hc.toAmount_not_dust, not_lt.mpr hc.funded, hc.sPubKey_length,
    hc.snode, hc.infoFits, hb]

/-- The selection of a connector whose `listUnspent` fails after pushing a coin locked already,
and a `selectUtxos` that takes every coin listed: `lockCoins` fails after `lockFeeUtxos`, and the
fee utxos stay locked. -/
theorem selectUtxosBlock_of_locked_coin (priorState : TransactionDescr.State)
    (hfee : feeOutputs env l connFrom.currency ≠ [])
    (hbuilt : (env.createFeeTransaction (feeOutputs env l connFrom.currency)).built = true)
    (hselect : ∀ outputs, env.selectUtxos outputs = some ⟨outputs, List.Subset.refl outputs⟩)
    (hfail : connFrom.listUnspent.2 = false)
    (hlisted : ∃ c ∈ connFrom.listUnspent.1, c.entry ∈ l.getLockedUtxos connFrom.currency)
    (hsigned : ∀ c, signError env connFrom c = .SUCCESS) :
    ∃ o', selectUtxosBlock env connFrom priorState l o =
        (some (.ok .INSIFFICIENT_FUNDS), o', l.lockFeeUtxos o'.feeUtxos) ∧
      o'.descr.state = priorState ∧
      o'.feeUtxos = o.feeUtxos ∪
        ((env.createFeeTransaction (feeOutputs env l connFrom.currency)).inserted.map WalletUtxo.entry).toFinset := by
  -- the fee utxos after `createFeeTransaction`, and what the connector lists once they are locked
  let F := o.feeUtxos ∪
    ((env.createFeeTransaction (feeOutputs env l connFrom.currency)).inserted.map WalletUtxo.entry).toFinset
  let outputs := connFrom.getUnspent ((l.lockFeeUtxos F).getAllLockedUtxos connFrom.currency)
  -- the reply fails after pushing a coin locked already, which is listed unfiltered
  obtain ⟨c, hc, hlocked⟩ := hlisted
  have hc' := @TakeConnector.mem_getUnspent_of_failed connFrom
    ((l.lockFeeUtxos F).getAllLockedUtxos connFrom.currency) hfail c hc
  have hlock : (l.lockFeeUtxos F).lockCoins connFrom.currency (outputs.map WalletUtxo.entry) =
      (false, l.lockFeeUtxos F) :=
    Locks.lockCoins_of_mem (List.mem_map_of_mem hc') hlocked
  refine ⟨TakeOrder.withState { o with
      feeUtxos := F
      descr := { o.descr with usedCoins := outputs.map WalletUtxo.toCoin } } priorState,
    ?_, rfl, rfl⟩
  unfold selectUtxosBlock
  simp only [unspentP2PKH_ne_nil env hfee, hfee, hbuilt, hselect,
    signCoins_of_forall env (fun c _ => hsigned c), if_false, Bool.not_true, Bool.false_eq_true,
    ne_eq, not_true_eq_false]
  simp only [F, outputs] at hlock
  rw [hlock]
  rfl

/-- **A failed take can leave its fee utxos locked**: past the checks, with a free p2pkh utxo, a
fee transaction that is built, a `listUnspent` that fails after pushing a coin locked already
and a selection that takes it, the take fails with `INSIFFICIENT_FUNDS`, restores the order's
state and the coin locks, and leaves locked as fees utxos that were not. -/
theorem acceptXBridgeTransaction_keeps_fee_locks (hc : PassesChecks env o connFrom connTo)
    (hfree : ∃ u ∈ env.unspentP2PKH, u.entry ∉ l.getAllLockedUtxos connFrom.currency)
    (hfee : ∀ avail, avail ≠ [] →
      (env.createFeeTransaction avail).built = true ∧ (env.createFeeTransaction avail).inserted ≠ [])
    (hselect : ∀ outputs, env.selectUtxos outputs = some ⟨outputs, List.Subset.refl outputs⟩)
    (hfail : connFrom.listUnspent.2 = false)
    (hlisted : ∃ c ∈ connFrom.listUnspent.1, c.entry ∈ l.getLockedUtxos connFrom.currency)
    (hsigned : ∀ c, signError env connFrom c = .SUCCESS) :
    (App.acceptXBridgeTransaction env fromAddr toAddr l o).1 = .ok .INSIFFICIENT_FUNDS ∧
      (App.acceptXBridgeTransaction env fromAddr toAddr l o).2.1.descr.state = o.descr.state ∧
      (App.acceptXBridgeTransaction env fromAddr toAddr l o).2.2.utxosDict = l.utxosDict ∧
      ∃ u ∈ (App.acceptXBridgeTransaction env fromAddr toAddr l o).2.2.feeUtxos, u ∉ l.feeUtxos := by
  have hne := feeOutputs_ne_nil env hfree
  obtain ⟨hbuilt, hinserted⟩ := hfee _ hne
  obtain ⟨o', hb, hstate, hfees⟩ := selectUtxosBlock_of_locked_coin (o := o.withState .trAccepting)
    o.descr.state hne hbuilt hselect hfail hlisted hsigned
  rw [acceptXBridgeTransaction_of_selectUtxosBlock hc hb]
  obtain ⟨w, hw⟩ := List.exists_mem_of_ne_nil _ hinserted
  refine ⟨rfl, hstate, rfl, w.entry, ?_, ?_⟩
  · refine Finset.mem_union_right _ ?_
    rw [hfees]
    exact Finset.mem_union_right _ (List.mem_toFinset.mpr (List.mem_map_of_mem hw))
  · exact entry_not_mem_of_mem_feeOutputs env
      ((env.createFeeTransaction (feeOutputs env l connFrom.currency)).inserted_subset hw)

/-- With every p2pkh utxo locked, `createFeeTransaction` is given no utxo and throws. -/
theorem acceptXBridgeTransaction_of_all_locked (hc : PassesChecks env o connFrom connTo)
    (hne : env.unspentP2PKH ≠ [])
    (hall : ∀ u ∈ env.unspentP2PKH, u.entry ∈ l.getAllLockedUtxos connFrom.currency) :
    (App.acceptXBridgeTransaction env fromAddr toAddr l o).1 = .error notEnoughUtxosToCoverFee := by
  have hempty : feeOutputs env l connFrom.currency = [] := by
    rw [feeOutputs, List.filter_eq_nil_iff]
    intro u hu
    simpa using hall u hu
  have hb : selectUtxosBlock env connFrom o.descr.state l (o.withState .trAccepting) =
      (some (.error notEnoughUtxosToCoverFee), o.withState .trAccepting, l) := by
    unfold selectUtxosBlock
    rw [if_neg hne, if_pos hempty]
  rw [acceptXBridgeTransaction_of_selectUtxosBlock hc hb]

/-- Where `selectUtxos` fails after the fee utxos are locked, the selection unlocks them all:
the order's fee utxos of earlier takes with those `createFeeTransaction` added. -/
theorem selectUtxosBlock_of_select_none (priorState : TransactionDescr.State)
    (hfee : feeOutputs env l connFrom.currency ≠ [])
    (hbuilt : (env.createFeeTransaction (feeOutputs env l connFrom.currency)).built = true)
    (hnone : ∀ outputs, env.selectUtxos outputs = none) :
    ∃ o', selectUtxosBlock env connFrom priorState l o =
        (some (.ok .INSIFFICIENT_FUNDS), o', (l.lockFeeUtxos o'.feeUtxos).unlockFeeUtxos o'.feeUtxos) ∧
      o'.descr.state = priorState ∧ o.feeUtxos ⊆ o'.feeUtxos := by
  refine ⟨TakeOrder.withState { o with
      feeUtxos := o.feeUtxos ∪ ((env.createFeeTransaction
        (feeOutputs env l connFrom.currency)).inserted.map WalletUtxo.entry).toFinset } priorState,
    ?_, rfl, Finset.subset_union_left⟩
  unfold selectUtxosBlock
  simp only [unspentP2PKH_ne_nil env hfee, hfee, hbuilt, hnone, if_false, Bool.not_true,
    Bool.false_eq_true]
  rfl

/-- **A failed take unlocks every fee utxo its order held**: past the checks, with a fee
transaction that is built and a `selectUtxos` that fails, the take returns `INSIFFICIENT_FUNDS`
and unlocks the order's whole `feeUtxos`, those of earlier takes of the order included, even
where another order has locked them since. -/
theorem acceptXBridgeTransaction_unlocks_stale_fee (hc : PassesChecks env o connFrom connTo)
    (hfee : feeOutputs env l connFrom.currency ≠ [])
    (hbuilt : (env.createFeeTransaction (feeOutputs env l connFrom.currency)).built = true)
    (hnone : ∀ outputs, env.selectUtxos outputs = none) :
    (App.acceptXBridgeTransaction env fromAddr toAddr l o).1 = .ok .INSIFFICIENT_FUNDS ∧
      (App.acceptXBridgeTransaction env fromAddr toAddr l o).2.1.descr.state = o.descr.state ∧
      ∀ u ∈ o.feeUtxos, u ∉ (App.acceptXBridgeTransaction env fromAddr toAddr l o).2.2.feeUtxos := by
  obtain ⟨o', hb, hstate, hsub⟩ := selectUtxosBlock_of_select_none (o := o.withState .trAccepting)
    o.descr.state hfee hbuilt hnone
  rw [acceptXBridgeTransaction_of_selectUtxosBlock hc hb]
  refine ⟨rfl, hstate, fun u hu hlocked => ?_⟩
  exact (Finset.mem_sdiff.mp hlocked).2 (hsub hu)

/-! ## A fee utxo unlocked under another order

The first take of an order fails once `createFeeTransaction` has inserted a fee utxo into the
order's `feeUtxos` (it cannot sign the fee transaction), before `lockFeeUtxos`. A take of another
order then picks that utxo as its fee and locks it. A second take of the first order fails in
`selectUtxos` and unlocks the order's whole `feeUtxos`: the other order's fee utxo with it. -/

/-- Two p2pkh fee utxos of the BLOCK wallet. -/
def staleFee : WalletUtxo := ⟨⟨[10], 0⟩, 1, "fee"⟩

def freshFee : WalletUtxo := ⟨⟨[12], 0⟩, 1, "fee"⟩

/-- A p2pkh coin of the currency \[66\]. -/
def walletCoin : ListedUtxo :=
  ⟨⟨[11], 0⟩, 5, [0x76, 0xa9, 0x14] ++ List.replicate 20 7 ++ [0x88, 0xac]⟩

/-- A connector for \[66\] whose wallet lists `walletCoin`, and which signs every coin. -/
def coinConnector : TakeConnector where
  currency := [66]
  isDustAmount _ := false
  serviceNodeFee := 0
  listUnspent := ([walletCoin], true)
  fromXAddr _ := "coin"
  signMessage _ := some "signature"
  toXAddr _ := List.replicate 20 1
  newKeyPair := List.replicate 33 2

/-- The wallets and the node: `createFeeTransaction` inserts the first utxo it is given and
builds the transaction when `built`; `selectUtxos` takes every coin listed when `funded`. -/
def takeEnv (built funded : Bool) : TakeEnv where
  connector _ := some coinConnector
  availableBalance := 1
  getSn _ := true
  decompress _ := none
  infoTooLarge := false
  unspentP2PKH := [staleFee, freshFee]
  createFeeTransaction avail := ⟨avail.take 1, List.take_subset 1 avail, built⟩
  selectUtxos outputs := if funded then some ⟨outputs, List.Subset.refl outputs⟩ else none
  decodeBase64 _ := (List.replicate 65 3, false)

/-- The client module's taker order, pending. -/
def pendingTake : TakeOrder where
  descr := { sampleTaker.descr with state := .trPending }
  sPubKey := List.replicate 33 4
  feeUtxos := ∅
  toAddr := ""

/-- Another pending order. -/
def otherTake : TakeOrder := { pendingTake with toAddr := "d" }

/-- Tables that lock nothing. -/
def emptyLocks : Locks := ⟨∅, ∅⟩

/-- The run: the first take of `pendingTake` cannot sign its fee transaction, `otherTake` is
taken, and the second take of `pendingTake` finds no coins. -/
def firstTake : TakeOutcome × TakeOrder × Locks :=
  App.acceptXBridgeTransaction (takeEnv false true) "a" "b" emptyLocks pendingTake

def otherTaken : TakeOutcome × TakeOrder × Locks :=
  App.acceptXBridgeTransaction (takeEnv true true) "c" "d" firstTake.2.2 otherTake

def secondTake : TakeOutcome × TakeOrder × Locks :=
  App.acceptXBridgeTransaction (takeEnv true false) "a" "b" otherTaken.2.2 firstTake.2.1

theorem acceptXBridgeTransaction_stale_fee_sample :
    firstTake.1 = .ok .INSIFFICIENT_FUNDS ∧ staleFee.entry ∈ firstTake.2.1.feeUtxos ∧
      otherTaken.1 = .ok .SUCCESS ∧ staleFee.entry ∈ otherTaken.2.1.feeUtxos ∧
      staleFee.entry ∈ otherTaken.2.2.feeUtxos ∧
      secondTake.1 = .ok .INSIFFICIENT_FUNDS ∧ secondTake.2.1.descr.state = .trPending ∧
      staleFee.entry ∉ secondTake.2.2.feeUtxos := by
  have h1 : firstTake.1 = .ok .INSIFFICIENT_FUNDS ∧ staleFee.entry ∈ firstTake.2.1.feeUtxos := by
    decide +kernel
  have h2 : otherTaken.1 = .ok .SUCCESS ∧ staleFee.entry ∈ otherTaken.2.1.feeUtxos ∧
      staleFee.entry ∈ otherTaken.2.2.feeUtxos := by
    decide +kernel
  obtain ⟨h3, hstate, hunlocked⟩ := @acceptXBridgeTransaction_unlocks_stale_fee (takeEnv true false)
    "a" "b" otherTaken.2.2 firstTake.2.1 coinConnector coinConnector
    { below := by decide +kernel
      connFrom_eq := rfl
      connTo_eq := rfl
      fromAmount_not_dust := rfl
      toAmount_not_dust := rfl
      funded := by norm_num [takeEnv, coinConnector]
      sPubKey_length := by decide +kernel
      snode := rfl
      infoFits := rfl }
    (by decide +kernel) rfl (fun _ => rfl)
  have hprior : firstTake.2.1.descr.state = .trPending := by decide +kernel
  exact ⟨h1.1, h1.2, h2.1, h2.2.1, h2.2.2, h3, hstate.trans hprior, hunlocked _ h1.2⟩

end Checked

end Blocknet.XBridge
