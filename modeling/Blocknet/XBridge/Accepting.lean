import Blocknet.XBridge.Client

/-!
# A taker's accept on the hub (`Session::Impl::processTransactionAccepting`)

Model of the servicenode's handler of `xbcTransactionAccepting` (`xbridge/xbridgesession.cpp`): it
marks the pending order as being accepted (`setAccepting(true)`), checks the maker's and the
taker's utxos, and hands the order to `Exchange::acceptTransaction`, which joins it and moves it
to the accepted orders.

* The hub (`AcceptHub`) is the exchange of the exchange module and the ids of the pending orders
  whose `accepting()` flag is set. A flag belongs to the order object; `cancel()` clears it.
* A packet is the fields the handler reads (`AcceptingPacket`): the request of the taker, its
  utxo items, and the outcome of the checks on the raw packet (`checkPacketAddress`, the size,
  the signature, and whether it holds every item its count announces).
* What the wallets answer while the packet is handled is `AcceptEnv`. `commonAmount` is a
  `double`, a rational here.

Results:
* `processTransactionAccepting_cases`: the handler leaves the hub as it was, or cancels the order
  for a spent maker utxo, or sets the flag and hands the order to `acceptTransaction`. Every
  return between the two clears the flag it set.
* `processTransactionAccepting_freezes`: the one path that does not is `acceptTransaction`
  failing. A taker whose request does not match the order (here: another amount) leaves the order
  pending with its flag set, and from then on the handler drops every accept of that order
  unchanged.
-/

namespace Blocknet.XBridge

open Blocknet.Lib

/-- The hub as `processTransactionAccepting` sees it: the exchange, and the ids of the pending
orders whose `accepting()` flag is set. -/
structure AcceptHub where
  ex : Exchange
  accepting : List Uint256

/-- What the handler reads of an `xbcTransactionAccepting` packet. -/
structure AcceptingPacket where
  /-- `checkPacketAddress(packet)`: the packet is addressed to this hub. -/
  addressed : Bool
  /-- `packet->size()`. -/
  size : Nat
  id : Uint256
  /-- `scurrency`, `samount`, `dcurrency` and `damount`. -/
  req : Request
  /-- `packet->verify(mpubkey)`. -/
  verified : Bool
  /-- The utxo items, as far as the packet holds them. -/
  items : List UtxoEntry
  /-- The packet holds every item its count announces. -/
  itemsComplete : Bool

/-- What the wallets answer while one packet is handled. -/
structure AcceptEnv where
  /-- `connectorByCurrency(currency)` is not null. -/
  hasConnector : Bytes → Bool
  /-- `makerConn->getTxOut(entry)` holds of every maker utxo of the order. -/
  makerUtxosUnspent : Bool
  /-- `conn->getTxOut(entry)`: the amount of a taker's utxo, where it is found. -/
  getTxOut : UtxoEntry → Option ℚ
  /-- `conn->verifyMessage(...)` of the entry's signature. -/
  verifyMessage : UtxoEntry → Bool
  /-- `conn->isDustAmount(amount)`. -/
  isDustAmount : ℚ → Bool

variable (node : Node) (env : AcceptEnv)

/-- The taker's utxo items that are found and signed: `utxoItems`. -/
def takerItems (items : List UtxoEntry) : List UtxoEntry :=
  items.filter fun e => (env.getTxOut e).isSome && env.verifyMessage e

/-- `commonAmount`: the amount of the taker's items, in coins. -/
def commonAmount (items : List UtxoEntry) : ℚ :=
  ((takerItems env items).map fun e => (env.getTxOut e).getD 0).sum

/-- `setAccepting(false)` of a pending order. -/
def AcceptHub.clearAccepting (h : AcceptHub) (id : Uint256) : AcceptHub :=
  { h with accepting := h.accepting.erase id }

/-- `sendCancelTransaction(trPending, crBadUtxo)` on the hub: `cancel()` clears the flag, and the
pending order and its locks are deleted. -/
def AcceptHub.cancelPending (h : AcceptHub) (id : Uint256) : AcceptHub :=
  { ex := h.ex.deletePendingTransaction id, accepting := h.accepting.erase id }

/-- `Session::Impl::processTransactionAccepting(packet)`: its result and the hub after it. -/
def processTransactionAccepting (h : AcceptHub) (p : AcceptingPacket) : Bool × AcceptHub :=
  if !node.started then (true, h)
  else if !p.addressed then (true, h)
  else if p.size < 164 then (false, h)
  -- an order already accepted
  else if (h.ex.transactions.lookup p.id).isSome then (true, h)
  else if !p.verified then (true, h)
  else if !env.hasConnector p.req.sourceCurrency then (true, h)
  else match h.ex.pendingTransactions.lookup p.id with
    | none => (true, h)
    | some pending =>
      if p.id ∈ h.accepting then (true, h)
      else
        let h := { h with accepting := p.id :: h.accepting }
        if !env.hasConnector pending.sourceCurrency then (true, h.clearAccepting p.id)
        else if !env.makerUtxosUnspent then (false, h.cancelPending p.id)
        else if !p.itemsComplete then (true, h.clearAccepting p.id)
        else
          let utxoItems := takerItems env p.items
          let amount : ℚ := commonAmount env p.items
          if amount * TransactionDescr.COIN < p.req.sourceAmount then (true, h.clearAccepting p.id)
          else if env.isDustAmount (p.req.sourceAmount / TransactionDescr.COIN) ||
              env.isDustAmount (amount - p.req.sourceAmount / TransactionDescr.COIN) then
            (true, h.clearAccepting p.id)
          else if !h.ex.checkUtxoItems node p.id utxoItems then (true, h.clearAccepting p.id)
          -- the flag stays set whatever `acceptTransaction` returns
          else (true, { h with ex := (h.ex.acceptTransaction node p.id p.req utxoItems).2 })

/-! ## What the handler does -/

section Cases

variable {node env} {h : AcceptHub} {p : AcceptingPacket}

@[simp] theorem clearAccepting_cons (h : AcceptHub) (id : Uint256) :
    ({ h with accepting := id :: h.accepting } : AcceptHub).clearAccepting id = h := by
  simp [AcceptHub.clearAccepting]

/-- **What one accept can do**: leave the hub as it was; cancel a pending order that was not
being accepted; or set the flag of such an order and hand it to `acceptTransaction` with the
taker's items, which `checkUtxoItems` passed. -/
theorem processTransactionAccepting_cases :
    (processTransactionAccepting node env h p).2 = h ∨
    (p.id ∉ h.accepting ∧ (processTransactionAccepting node env h p).2 =
      { ex := h.ex.deletePendingTransaction p.id, accepting := h.accepting }) ∨
    (∃ pending, h.ex.pendingTransactions.lookup p.id = some pending ∧ p.id ∉ h.accepting ∧
      h.ex.checkUtxoItems node p.id (takerItems env p.items) = true ∧
      (processTransactionAccepting node env h p).2 =
        { ex := (h.ex.acceptTransaction node p.id p.req (takerItems env p.items)).2
          accepting := p.id :: h.accepting }) := by
  -- `split` on the whole handler runs out of simp steps: the checks before the lookup are taken
  -- one at a time
  unfold processTransactionAccepting
  by_cases hstarted : (!node.started) = true
  · exact .inl (by rw [if_pos hstarted])
  rw [if_neg hstarted]
  by_cases haddressed : (!p.addressed) = true
  · exact .inl (by rw [if_pos haddressed])
  rw [if_neg haddressed]
  by_cases hsize : p.size < 164
  · exact .inl (by rw [if_pos hsize])
  rw [if_neg hsize]
  by_cases haccepted : (h.ex.transactions.lookup p.id).isSome = true
  · exact .inl (by rw [if_pos haccepted])
  rw [if_neg haccepted]
  by_cases hverified : (!p.verified) = true
  · exact .inl (by rw [if_pos hverified])
  rw [if_neg hverified]
  by_cases hconnector : (!env.hasConnector p.req.sourceCurrency) = true
  · exact .inl (by rw [if_pos hconnector])
  rw [if_neg hconnector]
  split
  · exact .inl rfl
  · rename_i pending hpending
    dsimp only
    split_ifs with hacc hmaker hunspent hcomplete hamount hdust hcheck
    · exact .inl rfl
    · exact .inl (clearAccepting_cons h p.id)
    · exact .inr (.inl ⟨hacc, by simp [AcceptHub.cancelPending]⟩)
    · exact .inl (clearAccepting_cons h p.id)
    · exact .inl (clearAccepting_cons h p.id)
    · exact .inl (clearAccepting_cons h p.id)
    · exact .inl (clearAccepting_cons h p.id)
    · exact .inr (.inr ⟨pending, hpending, hacc, by simpa using hcheck, rfl⟩)

/-- A pending order whose flag is set: the handler drops every accept of it unchanged. -/
theorem processTransactionAccepting_of_accepting {pending : Order}
    (hpending : h.ex.pendingTransactions.lookup p.id = some pending) (hacc : p.id ∈ h.accepting) :
    (processTransactionAccepting node env h p).2 = h := by
  unfold processTransactionAccepting
  split_ifs
  any_goals rfl
  rw [hpending]

end Cases

/-- What brings an accept to `acceptTransaction`: the packet passes every check before it, the
order is pending and not being accepted, the maker's utxos are unspent, and the taker's items
cover the amount, are not dust and pass `checkUtxoItems`. -/
structure ReachesAccept (h : AcceptHub) (p : AcceptingPacket) (pending : Order) : Prop where
  started : node.started = true
  addressed : p.addressed = true
  size_ge : 164 ≤ p.size
  not_accepted : h.ex.transactions.lookup p.id = none
  verified : p.verified = true
  connector : env.hasConnector p.req.sourceCurrency = true
  lookup_pending : h.ex.pendingTransactions.lookup p.id = some pending
  not_accepting : p.id ∉ h.accepting
  makerConnector : env.hasConnector pending.sourceCurrency = true
  makerUtxos : env.makerUtxosUnspent = true
  complete : p.itemsComplete = true
  covered : ¬ commonAmount env p.items * TransactionDescr.COIN < p.req.sourceAmount
  notDust : env.isDustAmount (p.req.sourceAmount / TransactionDescr.COIN) = false ∧
    env.isDustAmount (commonAmount env p.items - p.req.sourceAmount / TransactionDescr.COIN) = false
  checked : h.ex.checkUtxoItems node p.id (takerItems env p.items) = true

section Reach

variable {node env} {h : AcceptHub} {p : AcceptingPacket} {pending : Order}

theorem processTransactionAccepting_of_reachesAccept (hr : ReachesAccept node env h p pending) :
    processTransactionAccepting node env h p =
      (true, { ex := (h.ex.acceptTransaction node p.id p.req (takerItems env p.items)).2
               accepting := p.id :: h.accepting }) := by
  simp [processTransactionAccepting, hr.started, hr.addressed, Nat.not_lt.mpr hr.size_ge,
    hr.not_accepted, hr.verified, hr.connector, hr.lookup_pending, hr.not_accepting, hr.makerConnector,
    hr.makerUtxos, hr.complete, hr.covered, hr.notDust.1, hr.notDust.2, hr.checked]

end Reach

/-- Orders of other amounts are not joined. -/
theorem Order.tryJoin_of_sourceAmount_ne {o other : Order} (h : o.sourceAmount ≠ other.destAmount) :
    o.tryJoin other = none := by
  simp [Order.tryJoin, h]

/-- A taker asking for another amount than the order offers is not joined: `acceptTransaction`
of a pending order that has not expired then leaves the exchange as it was. -/
theorem acceptTransaction_of_amount_ne {ex : Exchange} {txid : Uint256} {req : Request}
    {items : List UtxoEntry} {pending : Order}
    (hpending : ex.pendingTransactions.lookup txid = some pending)
    (hfresh : pending.isExpired node = false) (hne : req.destAmount ≠ pending.sourceAmount) :
    (ex.acceptTransaction node txid req items).2 = ex := by
  have hjoin : ∀ created blockHash,
      pending.tryJoin (newOrder node txid req created blockHash) = none := fun _ _ =>
    Order.tryJoin_of_sourceAmount_ne (Ne.symm hne)
  unfold Exchange.acceptTransaction
  split_ifs
  any_goals rfl
  simp [hpending, hfresh, hjoin]

/-- **A failed accept freezes the order**: an accept that reaches `acceptTransaction` with a
request of another amount than the order's leaves the order pending with its flag set, and from
then on the handler drops every accept of that order, leaving the hub as it is. -/
theorem processTransactionAccepting_freezes {h : AcceptHub} {p : AcceptingPacket} {pending : Order}
    (hr : ReachesAccept node env h p pending) (hfresh : pending.isExpired node = false)
    (hne : p.req.destAmount ≠ pending.sourceAmount) :
    (processTransactionAccepting node env h p).2.ex.pendingTransactions.lookup p.id =
        some pending ∧
      p.id ∈ (processTransactionAccepting node env h p).2.accepting ∧
      ∀ (node' : Node) (env' : AcceptEnv) (p' : AcceptingPacket), p'.id = p.id →
        (processTransactionAccepting node' env' (processTransactionAccepting node env h p).2 p').2 =
          (processTransactionAccepting node env h p).2 := by
  rw [processTransactionAccepting_of_reachesAccept hr,
    acceptTransaction_of_amount_ne node hr.lookup_pending hfresh hne]
  refine ⟨hr.lookup_pending, List.mem_cons_self, fun node' env' p' hid => ?_⟩
  exact processTransactionAccepting_of_accepting (by rw [hid]; exact hr.lookup_pending)
    (by rw [hid]; exact List.mem_cons_self)

/-- Wallets that answer every call: each taker utxo is found with one coin and signed, and no
amount is dust. -/
def acceptEnvAll : AcceptEnv where
  hasConnector _ := true
  makerUtxosUnspent := true
  getTxOut _ := some 1
  verifyMessage _ := true
  isDustAmount _ := false

/-- A taker's accept of order 1 of the exchange module that asks 9 of \[66\] where the order
offers 10, paying with the utxo \[3\]:0. -/
def shortAccept : AcceptingPacket where
  addressed := true
  size := 164
  id := 1
  req := ⟨[76], 20, [66], 9⟩
  verified := true
  items := [⟨[3], 0⟩]
  itemsComplete := true

theorem shortAccept_freezes_oneOrder :
    (processTransactionAccepting (sampleNode 0) acceptEnvAll ⟨oneOrder, []⟩
        shortAccept).2.ex.pendingTransactions.lookup 1 =
        some (newOrder (sampleNode 0) 1 makerReq 0 5) ∧
      1 ∈ (processTransactionAccepting (sampleNode 0) acceptEnvAll ⟨oneOrder, []⟩
        shortAccept).2.accepting ∧
      ∀ (node' : Node) (env' : AcceptEnv) (p' : AcceptingPacket), p'.id = 1 →
        (processTransactionAccepting node' env'
            (processTransactionAccepting (sampleNode 0) acceptEnvAll ⟨oneOrder, []⟩ shortAccept).2
            p').2 =
          (processTransactionAccepting (sampleNode 0) acceptEnvAll ⟨oneOrder, []⟩ shortAccept).2 :=
  @processTransactionAccepting_freezes (sampleNode 0) acceptEnvAll ⟨oneOrder, []⟩ shortAccept
    (newOrder (sampleNode 0) 1 makerReq 0 5)
    { started := rfl
      addressed := rfl
      size_ge := by decide
      not_accepted := by decide +kernel
      verified := rfl
      connector := rfl
      lookup_pending := by decide +kernel
      not_accepting := List.not_mem_nil
      makerConnector := rfl
      makerUtxos := rfl
      complete := rfl
      covered := by norm_num [commonAmount, takerItems, acceptEnvAll, shortAccept,
        TransactionDescr.COIN]
      notDust := ⟨rfl, rfl⟩
      checked := by decide +kernel }
    (by decide) (by decide)

end Blocknet.XBridge
