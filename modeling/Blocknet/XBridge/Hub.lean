import Blocknet.XBridge.Packet
import Blocknet.XBridge.Exchange

/-!
# The hub's trader confirmations

Model of the servicenode side of an order's progress: the handlers of
`Session::Impl` (`xbridge/xbridgesession.cpp`) for `xbcTransactionHoldApply`,
`xbcTransactionInitialized`, `xbcTransactionCreatedA/B`, `xbcTransactionConfirmedA/B` and
`xbcTransactionCancel`, and the members of `xbridge::Transaction` and `Exchange` they call:
`increaseStateCounter`, `setKeys`, `setBinTxId`, `cancel` and the
`updateTransactionWhen...Received` functions.

* An order on the hub (`HubOrder`) holds its traders (`m_a` the maker, `m_b` the taker), each
  with its addresses and the key the hub checks their packets with, its state, the two flags of
  `increaseStateCounter` and the deposit ids `setBinTxId` stores. The lock times, refund and
  payment transactions the handlers store are read by no handler here and are left out, as are
  the packets the hub sends back.
* `Exchange::transaction(id)` of an id that is not an accepted order returns a fresh
  `Transaction`; `verify` then fails on its empty keys, so such a packet changes nothing.
* A packet reaches a handler as the receive path leaves it (`XBridgePacket`); `sigOk` is the
  signature check of `verify()`.

Results:
* `countConfirmation_eq`: a branch of `increaseStateCounter` credits the trader the `from`
  address names (`credits`), whoever signed the packet, and moves the order on once both are.
* `processTraderPacket_eq`: the hold-apply and initialized handlers either leave the hub as it
  is, or change the order of the packet's id once the packet verifies with either of the two
  stored keys, and credit the trader the `from` address names.
* `processTransactionCancel_ofData`: a cancel packet for an order the hub holds, signed with
  either trader's key, cancels it in any state, a finished one included.
* `holdApply_one_signer`: two `xbcTransactionHoldApply` packets signed by the maker alone, with
  the two traders' source addresses, move an order from `trJoined` to `trHold`.
  `initialized_replaces_taker_key`: an `xbcTransactionInitialized` packet signed by the maker with
  the taker's destination address stores the maker's key as the taker's.
-/

namespace Blocknet.XBridge

open Blocknet.Lib Blocknet.Sn

/-- `XBridgeTransactionMember`: a trader's source and destination addresses, and its key. -/
structure Member where
  source : Bytes
  dest : Bytes
  mpubkey : Bytes
  deriving DecidableEq, Repr

/-- An order as the hub keeps it (`xbridge::Transaction`). -/
structure HubOrder where
  id : Uint256
  state : State
  a : Member
  b : Member
  aStateChanged : Bool := false
  bStateChanged : Bool := false
  bintxid1 : Bytes := []
  bintxid2 : Bytes := []
  deriving DecidableEq, Repr

namespace HubOrder

/-- One branch of `increaseStateCounter`: the flag of the trader whose address `addr` is
`fromAddr` is set; with both set, the order moves to `next` and the flags are cleared. -/
def countConfirmation (t : HubOrder) (addr : Member → Bytes) (next : State) (fromAddr : Bytes) :
    HubOrder :=
  let t := if fromAddr = addr t.a then { t with aStateChanged := true }
    else if fromAddr = addr t.b then { t with bStateChanged := true } else t
  if t.aStateChanged && t.bStateChanged then
    { t with state := next, aStateChanged := false, bStateChanged := false }
  else t

/-- `Transaction::increaseStateCounter(state, from)`: the order, and the state it returns. -/
def increaseStateCounter (t : HubOrder) (state : State) (fromAddr : Bytes) : HubOrder × State :=
  let count (addr : Member → Bytes) (next : State) :=
    let t := t.countConfirmation addr next fromAddr
    (t, t.state)
  if state = .trJoined ∧ t.state = state then count Member.source .trHold
  else if state = .trHold ∧ t.state = state then count Member.dest .trInitialized
  else if state = .trInitialized ∧ t.state = state then count Member.source .trCreated
  else if state = .trCreated ∧ t.state = state then count Member.dest .trFinished
  else (t, .trInvalid)

/-- `Transaction::setKeys(addr, pk)`: the order when a trader's destination is `addr`. -/
def setKeys (t : HubOrder) (addr pk : Bytes) : Option HubOrder :=
  if t.b.dest = addr then some { t with b := { t.b with mpubkey := pk } }
  else if t.a.dest = addr then some { t with a := { t.a with mpubkey := pk } }
  else none

/-- `Transaction::setBinTxId(addr, id)`: the order when a trader's source is `addr`. -/
def setBinTxId (t : HubOrder) (addr id : Bytes) : Option HubOrder :=
  if t.b.source = addr then some { t with bintxid2 := id }
  else if t.a.source = addr then some { t with bintxid1 := id }
  else none

/-- `Transaction::cancel()`. -/
def cancel (t : HubOrder) : HubOrder := { t with state := .trCancelled }

/-- `Session::Impl::isAddressInTransaction`. -/
def isAddressInTransaction (t : HubOrder) (address : Bytes) : Bool :=
  t.a.source == address || t.b.source == address || t.a.dest == address || t.b.dest == address

/-- `Exchange::updateTransactionWhenHoldApplyReceived`. -/
def updateTransactionWhenHoldApplyReceived (t : HubOrder) (fromAddr : Bytes) : HubOrder × Bool :=
  let r := t.increaseStateCounter .trJoined fromAddr
  (r.1, r.2 == .trHold)

/-- `Exchange::updateTransactionWhenInitializedReceived`. -/
def updateTransactionWhenInitializedReceived (t : HubOrder) (fromAddr pk : Bytes) :
    HubOrder × Bool :=
  match t.setKeys fromAddr pk with
  | none => (t, false)
  | some t =>
    let r := t.increaseStateCounter .trHold fromAddr
    (r.1, r.2 == .trInitialized)

/-- `Exchange::updateTransactionWhenCreatedReceived`. -/
def updateTransactionWhenCreatedReceived (t : HubOrder) (fromAddr binTxId : Bytes) :
    HubOrder × Bool :=
  match t.setBinTxId fromAddr binTxId with
  | none => (t, false)
  | some t =>
    let r := t.increaseStateCounter .trInitialized fromAddr
    (r.1, r.2 == .trCreated)

/-- `Exchange::updateTransactionWhenConfirmedReceived`. -/
def updateTransactionWhenConfirmedReceived (t : HubOrder) (fromAddr : Bytes) : HubOrder × Bool :=
  let r := t.increaseStateCounter .trCreated fromAddr
  (r.1, r.2 == .trFinished)

end HubOrder

/-- The hub: its session address `m_myid`, whether the exchange is started, and the accepted
orders by id. -/
structure Hub where
  myid : Bytes
  started : Bool
  orders : Map Uint256 HubOrder

namespace Hub

/-- The hub with the order stored under its id. -/
def setOrder (hub : Hub) (t : HubOrder) : Hub := { hub with orders := hub.orders.insert t.id t }

/-- `Session::Impl::checkPacketAddress`: the packet is addressed to this session. -/
def checkPacketAddress (hub : Hub) (p : XBridgePacket) : Except Fault Bool :=
  if p.size < 20 then pure false
  else do
    let address ← p.data 0 addressSize
    pure (address == hub.myid)

variable (sigOk : XBridgePacket → Bool)

/-- The part of a handler after the order is found: the order of `id` that matches it, if any. -/
def order? (hub : Hub) (id : Uint256) : Option HubOrder :=
  match hub.orders.lookup id with
  | some t => if t.id = id then some t else none
  | none => none

/-- The handlers of `xbcTransactionHoldApply` and `xbcTransactionInitialized` on the hub: a packet
of `size` bytes for an order in `state`, that verifies with either trader's key, is passed to
`update` with its `from` address and its key; a `from` address of neither trader cancels the
order. -/
def processTraderPacket (size : Nat) (state : State) (update : HubOrder → Bytes → Bytes → HubOrder)
    (hub : Hub) (p : XBridgePacket) : Except Fault (Bool × Hub) := do
  if p.size != size then return (false, hub)
  if !(← hub.checkPacketAddress p) then return (true, hub)
  if !hub.started then return (true, hub)
  let fromAddr ← p.data addressSize addressSize
  let sid ← p.data (2 * addressSize) hashSize
  let pk1 := p.pubkey
  match hub.order? (Uint256.ofBytes sid) with
  | none => return (true, hub)
  | some tr =>
    if !p.verifyKey sigOk tr.a.mpubkey && !p.verifyKey sigOk tr.b.mpubkey then return (true, hub)
    if tr.state != state then return (true, hub)
    if !tr.isAddressInTransaction fromAddr then return (true, hub.setOrder tr.cancel)
    return (true, hub.setOrder (update tr fromAddr pk1))

/-- `Session::Impl::processTransactionHoldApply` on the hub. -/
def processTransactionHoldApply (hub : Hub) (p : XBridgePacket) : Except Fault (Bool × Hub) :=
  processTraderPacket sigOk 72 .trJoined
    (fun tr fromAddr _ => (tr.updateTransactionWhenHoldApplyReceived fromAddr).1) hub p

/-- `Session::Impl::processTransactionInitialized` on the hub: the packet's key is stored for the
trader whose destination is the `from` address. -/
def processTransactionInitialized (hub : Hub) (p : XBridgePacket) : Except Fault (Bool × Hub) :=
  processTraderPacket sigOk 104 .trHold
    (fun tr fromAddr pk1 => (tr.updateTransactionWhenInitializedReceived fromAddr pk1).1) hub p

/-- `Session::Impl::processTransactionCreatedA` on the hub: the maker's deposit. -/
def processTransactionCreatedA (hub : Hub) (p : XBridgePacket) : Except Fault (Bool × Hub) := do
  if p.size ≤ 76 then return (false, hub)
  if !(← hub.checkPacketAddress p) then return (true, hub)
  if !hub.started then return (true, hub)
  let stxid ← p.data addressSize hashSize
  let offset := addressSize + hashSize
  let binTxId ← p.dataString offset
  let offset := offset + binTxId.length + 1
  let _hx ← p.data offset addressSize
  let offset := offset + addressSize
  let _lockTimeA ← p.data offset 4
  let offset := offset + 4
  let refTxId ← p.dataString offset
  let offset := offset + refTxId.length + 1
  let _refTx ← p.dataString offset
  match hub.order? (Uint256.ofBytes stxid) with
  | none => return (true, hub)
  | some tr =>
    if !p.verifyKey sigOk tr.a.mpubkey then return (true, hub)
    if tr.state != .trInitialized then return (true, hub)
    return (true, hub.setOrder (tr.updateTransactionWhenCreatedReceived tr.a.source binTxId).1)

/-- `Session::Impl::processTransactionCreatedB` on the hub: the taker's deposit. -/
def processTransactionCreatedB (hub : Hub) (p : XBridgePacket) : Except Fault (Bool × Hub) := do
  if p.size ≤ 56 then return (false, hub)
  if !(← hub.checkPacketAddress p) then return (true, hub)
  if !hub.started then return (true, hub)
  let stxid ← p.data addressSize hashSize
  let offset := addressSize + hashSize
  let binTxId ← p.dataString offset
  let offset := offset + binTxId.length + 1
  let _lockTimeB ← p.data offset 4
  let offset := offset + 4
  let refTxId ← p.dataString offset
  let offset := offset + refTxId.length + 1
  let _refTx ← p.dataString offset
  match hub.order? (Uint256.ofBytes stxid) with
  | none => return (true, hub)
  | some tr =>
    if !p.verifyKey sigOk tr.b.mpubkey then return (true, hub)
    if tr.state != .trInitialized then return (true, hub)
    return (true, hub.setOrder (tr.updateTransactionWhenCreatedReceived tr.b.source binTxId).1)

/-- `Session::Impl::processTransactionConfirmedA` and `...B` on the hub: a trader's payment,
checked with that trader's key and credited to its destination address. -/
def processTransactionConfirmed (member : HubOrder → Member) (hub : Hub) (p : XBridgePacket) :
    Except Fault (Bool × Hub) := do
  if p.size ≤ 52 || p.size > 1000 then return (false, hub)
  if !(← hub.checkPacketAddress p) then return (true, hub)
  if !hub.started then return (true, hub)
  let stxid ← p.data addressSize hashSize
  let _payTxId ← p.dataString (addressSize + hashSize)
  match hub.order? (Uint256.ofBytes stxid) with
  | none => return (true, hub)
  | some tr =>
    if !p.verifyKey sigOk (member tr).mpubkey then return (true, hub)
    if tr.state != .trCreated then return (true, hub)
    return (true, hub.setOrder (tr.updateTransactionWhenConfirmedReceived (member tr).dest).1)

/-- `Session::Impl::processTransactionConfirmedA`. -/
def processTransactionConfirmedA (hub : Hub) (p : XBridgePacket) : Except Fault (Bool × Hub) :=
  processTransactionConfirmed sigOk HubOrder.a hub p

/-- `Session::Impl::processTransactionConfirmedB`. -/
def processTransactionConfirmedB (hub : Hub) (p : XBridgePacket) : Except Fault (Bool × Hub) :=
  processTransactionConfirmed sigOk HubOrder.b hub p

/-- `Session::Impl::processTransactionCancel` on the hub: a packet of 36 bytes, the order id then
the reason, that verifies with either trader's key cancels the order of that id, whatever its
state (`sendCancelTransaction`). The handler asks `pendingTransaction(txid)` first, which finds
no order the hub accepted, since acceptance moved it out of the pending ones. The broadcast of
the cancel, and `deletePendingTransaction`, which unlocks the utxos of a pending order, change
no accepted order. A hub that is not started runs the client's path, on the client's orders. -/
def processTransactionCancel (hub : Hub) (p : XBridgePacket) : Except Fault (Bool × Hub) := do
  if p.size != 36 then return (false, hub)
  let stxid ← p.data 0 hashSize
  let _reason ← p.data hashSize 4
  if !hub.started then return (true, hub)
  match hub.order? (Uint256.ofBytes stxid) with
  | none => return (true, hub)
  | some tr =>
    if !p.verifyKey sigOk tr.a.mpubkey && !p.verifyKey sigOk tr.b.mpubkey then return (true, hub)
    return (true, hub.setOrder tr.cancel)

end Hub

/-- The commands whose packets change an order on the hub. -/
inductive HubCommand where
  | holdApply
  | initialized
  | createdA
  | createdB
  | confirmedA
  | confirmedB
  | cancel
  deriving DecidableEq, Repr

/-- The handler `Session::processPacket` calls for the command. -/
def Hub.processPacket (sigOk : XBridgePacket → Bool) (hub : Hub) :
    HubCommand → XBridgePacket → Except Fault (Bool × Hub)
  | .holdApply, p => hub.processTransactionHoldApply sigOk p
  | .initialized, p => hub.processTransactionInitialized sigOk p
  | .createdA, p => hub.processTransactionCreatedA sigOk p
  | .createdB, p => hub.processTransactionCreatedB sigOk p
  | .confirmedA, p => hub.processTransactionConfirmedA sigOk p
  | .confirmedB, p => hub.processTransactionConfirmedB sigOk p
  | .cancel, p => hub.processTransactionCancel sigOk p

/-- A run of the hub over packets, to the first fault. -/
def Hub.run (sigOk : XBridgePacket → Bool) (hub : Hub) (packets : List (HubCommand × XBridgePacket)) :
    Except Fault Hub :=
  packets.foldlM (fun hub cp => (·.2) <$> hub.processPacket sigOk cp.1 cp.2) hub

/-! ## What a confirmation does -/

namespace HubOrder

variable {t : HubOrder} {addr : Member → Bytes} {next : State} {fromAddr : Bytes}

/-- The trader a `from` address credits: the maker when it is the maker's address, else the
taker when it is the taker's. -/
def credits (t : HubOrder) (addr : Member → Bytes) (fromAddr : Bytes) : Bool × Bool :=
  (decide (fromAddr = addr t.a), decide (fromAddr ≠ addr t.a ∧ fromAddr = addr t.b))

/-- A branch of `increaseStateCounter` sets the flags the `from` address credits, and moves the
order on, clearing them, once both are set. -/
theorem countConfirmation_eq : t.countConfirmation addr next fromAddr =
    if (t.aStateChanged || (t.credits addr fromAddr).1) &&
        (t.bStateChanged || (t.credits addr fromAddr).2) then
      { t with state := next, aStateChanged := false, bStateChanged := false }
    else
      { t with aStateChanged := t.aStateChanged || (t.credits addr fromAddr).1,
               bStateChanged := t.bStateChanged || (t.credits addr fromAddr).2 } := by
  unfold countConfirmation credits
  by_cases ha : fromAddr = addr t.a
  · simp [ha]
  · by_cases hb : fromAddr = addr t.b
    · have hba : addr t.b ≠ addr t.a := fun h => ha (hb.trans h)
      simp [hb, hba]
    · simp [ha, hb]

@[simp] theorem id_countConfirmation : (t.countConfirmation addr next fromAddr).id = t.id := by
  rw [countConfirmation_eq]
  split_ifs <;> rfl

@[simp] theorem a_countConfirmation : (t.countConfirmation addr next fromAddr).a = t.a := by
  rw [countConfirmation_eq]
  split_ifs <;> rfl

@[simp] theorem b_countConfirmation : (t.countConfirmation addr next fromAddr).b = t.b := by
  rw [countConfirmation_eq]
  split_ifs <;> rfl

@[simp] theorem id_increaseStateCounter {state : State} :
    (t.increaseStateCounter state fromAddr).1.id = t.id := by
  unfold increaseStateCounter
  split_ifs <;> simp

@[simp] theorem b_increaseStateCounter {state : State} :
    (t.increaseStateCounter state fromAddr).1.b = t.b := by
  unfold increaseStateCounter
  split_ifs <;> simp

@[simp] theorem id_setKeys {pk : Bytes} {t' : HubOrder} (h : t.setKeys fromAddr pk = some t') :
    t'.id = t.id := by
  unfold setKeys at h
  split_ifs at h <;> cases h <;> rfl

end HubOrder

namespace Hub

variable {sigOk : XBridgePacket → Bool} {hub hub' : Hub} {p : XBridgePacket} {r : Bool}

theorem order?_setOrder (hub : Hub) (t : HubOrder) (id : Uint256) :
    (hub.setOrder t).order? id = if t.id = id then some t else hub.order? id := by
  unfold order? setOrder
  rw [Map.lookup_insert_eq_ite]
  by_cases h : id = t.id
  · subst h
    simp
  · simp [h, Ne.symm h]

theorem id_of_order? {id : Uint256} {t : HubOrder} (h : hub.order? id = some t) : t.id = id := by
  unfold order? at h
  split at h
  · split_ifs at h with hid
    cases h
    exact hid
  · cases h

/-- A trader packet either leaves the hub as it is or, for an order in `state` whose stored keys
include the packet's, cancels it or passes it to `update` with the packet's `from` address and
key. -/
theorem processTraderPacket_eq {size : Nat} {state : State}
    {update : HubOrder → Bytes → Bytes → HubOrder}
    (h : hub.processTraderPacket sigOk size state update p = .ok (r, hub')) :
    hub' = hub ∨ ∃ t fromAddr, p.data addressSize addressSize = .ok fromAddr ∧
      (p.verifyKey sigOk t.a.mpubkey ∨ p.verifyKey sigOk t.b.mpubkey) ∧ t.state = state ∧
      (∃ sid, p.data (2 * addressSize) hashSize = .ok sid ∧ hub.order? (Uint256.ofBytes sid) = some t) ∧
      (hub' = hub.setOrder t.cancel ∨ hub' = hub.setOrder (update t fromAddr p.pubkey)) := by
  unfold processTraderPacket at h
  split at h
  · cases h
    exact .inl rfl
  obtain ⟨_, -, h⟩ := except_bind_eq_ok h
  split at h
  · cases h
    exact .inl rfl
  split at h
  · cases h
    exact .inl rfl
  obtain ⟨fromAddr, hfrom, h⟩ := except_bind_eq_ok h
  obtain ⟨sid, hsid, h⟩ := except_bind_eq_ok h
  split at h
  · cases h
    exact .inl rfl
  rename_i t ht
  split at h
  · cases h
    exact .inl rfl
  rename_i hv
  split at h
  · cases h
    exact .inl rfl
  rename_i hs
  have hv : p.verifyKey sigOk t.a.mpubkey ∨ p.verifyKey sigOk t.b.mpubkey := by
    cases ha : p.verifyKey sigOk t.a.mpubkey
    · simp only [ha, Bool.not_false, Bool.true_and, Bool.not_eq_true', Bool.not_eq_false] at hv
      exact .inr hv
    · exact .inl rfl
  have hs : t.state = state := by simpa using hs
  split at h
  · cases h
    exact .inr ⟨t, fromAddr, hfrom, hv, hs, ⟨sid, hsid, ht⟩, .inl rfl⟩
  · cases h
    exact .inr ⟨t, fromAddr, hfrom, hv, hs, ⟨sid, hsid, ht⟩, .inr rfl⟩

end Hub

/-! ## Packets a trader signs -/

/-- The data of a trader packet to the hub: the hub's address, the `from` address, the order id,
then the rest. -/
def traderData (hubAddress fromAddr : Bytes) (id : Uint256) (rest : Bytes) : Bytes :=
  hubAddress ++ fromAddr ++ id.toBytes ++ rest

section TraderData

variable {pk hubAddress fromAddr rest : Bytes} {id : Uint256}
  (ha : hubAddress.length = addressSize) (hf : fromAddr.length = addressSize)

include ha hf

theorem length_traderData : (traderData hubAddress fromAddr id rest).length = rest.length + 72 := by
  simp [traderData, ha, hf, addressSize]
  omega

theorem data_hub_traderData :
    (XBridgePacket.ofData pk (traderData hubAddress fromAddr id rest)).data 0 addressSize =
      .ok hubAddress := by
  rw [XBridgePacket.data_ofData (by rw [length_traderData ha hf]; simp [addressSize])]
  simp [traderData, List.append_assoc, ha]

theorem data_from_traderData :
    (XBridgePacket.ofData pk (traderData hubAddress fromAddr id rest)).data addressSize addressSize =
      .ok fromAddr := by
  rw [XBridgePacket.data_ofData (by rw [length_traderData ha hf]; simp [addressSize])]
  simp [traderData, List.append_assoc, ha, hf]

theorem data_id_traderData :
    (XBridgePacket.ofData pk (traderData hubAddress fromAddr id rest)).data (2 * addressSize)
      hashSize = .ok id.toBytes := by
  rw [XBridgePacket.data_ofData (by rw [length_traderData ha hf]; simp [addressSize, hashSize])]
  have h2 : 2 * addressSize = hubAddress.length + fromAddr.length := by
    rw [ha, hf]
    rfl
  have h32 : hashSize = id.toBytes.length := (Uint256.length_toBytes id).symm
  simp only [traderData, List.append_assoc]
  rw [h2, ← List.drop_drop, List.drop_left, List.drop_left, h32, List.take_left]

end TraderData

namespace Hub

variable {sigOk : XBridgePacket → Bool} {hub : Hub} {size : Nat} {state : State}
  {update : HubOrder → Bytes → Bytes → HubOrder} {pk fromAddr rest : Bytes} {t : HubOrder}

/-- A trader packet to the hub for one of its orders, signed by a key of 33 bytes: the handler's
checks, on what the packet carries. -/
theorem processTraderPacket_traderData (hstarted : hub.started = true)
    (hmyid : hub.myid.length = addressSize) (hf : fromAddr.length = addressSize)
    (hsize : rest.length + 72 = size) (hsmall : size < 2 ^ 32) (hpk : pk.length = pubkeySize)
    (ht : hub.order? t.id = some t) :
    let p := XBridgePacket.ofData pk (traderData hub.myid fromAddr t.id rest)
    hub.processTraderPacket sigOk size state update p =
      .ok (true,
        if !p.verifyKey sigOk t.a.mpubkey && !p.verifyKey sigOk t.b.mpubkey then hub
        else if t.state != state then hub
        else if !t.isAddressInTransaction fromAddr then hub.setOrder t.cancel
        else hub.setOrder (update t fromAddr pk)) := by
  intro p
  have hsz : p.size = size := by
    rw [XBridgePacket.size_ofData, length_traderData hmyid hf, hsize, Nat.mod_eq_of_lt hsmall]
  have haddr : hub.checkPacketAddress p = .ok true := by
    unfold checkPacketAddress
    rw [if_neg (by omega), data_hub_traderData hmyid hf]
    simp
  have hfrom : p.data addressSize addressSize = .ok fromAddr := data_from_traderData hmyid hf
  have hid : p.data (2 * addressSize) hashSize = .ok t.id.toBytes := data_id_traderData hmyid hf
  have hpub : p.pubkey = pk := XBridgePacket.pubkey_ofData hpk
  unfold processTraderPacket
  simp only [hsz, bne_self_eq_false, Bool.false_eq_true, if_false, haddr, hstarted, except_ok_bind,
    Bool.not_true, hfrom, hid, Uint256.ofBytes_toBytes, ht, hpub]
  split_ifs <;> rfl

/-- A packet of a key of 33 bytes, which that key signed, verifies with it. -/
theorem verifyKey_ofData {data : Bytes} (hpk : pk.length = pubkeySize)
    (hsig : sigOk (.ofData pk data) = true) : (XBridgePacket.ofData pk data).verifyKey sigOk pk := by
  simp [XBridgePacket.verifyKey, XBridgePacket.verify, XBridgePacket.pubkey_ofData hpk, hpk, hsig]

/-- A cancel packet for an order the hub holds, of its id and a reason of four bytes, signed by a
key of 33 bytes that one of the order's traders has, cancels the order whatever its state. -/
theorem processTransactionCancel_ofData {reason : Bytes} (hstarted : hub.started = true)
    (ht : hub.order? t.id = some t) (hreason : reason.length = 4)
    (hv : (XBridgePacket.ofData pk (t.id.toBytes ++ reason)).verifyKey sigOk t.a.mpubkey ∨
      (XBridgePacket.ofData pk (t.id.toBytes ++ reason)).verifyKey sigOk t.b.mpubkey) :
    hub.processTransactionCancel sigOk (.ofData pk (t.id.toBytes ++ reason)) =
      .ok (true, hub.setOrder t.cancel) := by
  have hlen : (t.id.toBytes ++ reason).length = 36 := by
    rw [List.length_append, Uint256.length_toBytes, hreason]
  have hsz : (XBridgePacket.ofData pk (t.id.toBytes ++ reason)).size = 36 := by
    rw [XBridgePacket.size_ofData, hlen]
    rfl
  -- the two reads of the handler: the id, then the reason after it
  have hhash : hashSize = t.id.toBytes.length := (Uint256.length_toBytes t.id).symm
  have hid : (XBridgePacket.ofData pk (t.id.toBytes ++ reason)).data 0 hashSize =
      .ok t.id.toBytes := by
    rw [XBridgePacket.data_ofData (by rw [hlen]; decide), List.drop_zero, hhash, List.take_left]
  have hr : (XBridgePacket.ofData pk (t.id.toBytes ++ reason)).data hashSize 4 = .ok reason := by
    rw [XBridgePacket.data_ofData (by rw [hlen]; decide), hhash, List.drop_left,
      List.take_of_length_le (by rw [hreason])]
  have hv' : (!(XBridgePacket.ofData pk (t.id.toBytes ++ reason)).verifyKey sigOk t.a.mpubkey &&
      !(XBridgePacket.ofData pk (t.id.toBytes ++ reason)).verifyKey sigOk t.b.mpubkey) = false := by
    rcases hv with hv | hv <;> simp [hv]
  unfold processTransactionCancel
  simp only [hsz, bne_self_eq_false, Bool.false_eq_true, if_false, hid, hr, except_ok_bind,
    hstarted, Bool.not_true, Uint256.ofBytes_toBytes, ht, hv']
  rfl

theorem isAddressInTransaction_source_a : t.isAddressInTransaction t.a.source := by
  simp [HubOrder.isAddressInTransaction]

theorem run_cons {hub : Hub} {c : HubCommand} {p : XBridgePacket} {rest : List (HubCommand × XBridgePacket)}
    {r : Bool} {hub₁ : Hub} (h : hub.processPacket sigOk c p = .ok (r, hub₁)) :
    hub.run sigOk ((c, p) :: rest) = hub₁.run sigOk rest := by
  simp [run, List.foldlM_cons, h]

/-- Two hold-apply packets signed by the maker alone, one with each trader's source address, move
an order from `trJoined` to `trHold`: the hub credits the taker with a confirmation the taker
never signed. -/
theorem holdApply_one_signer (hstarted : hub.started = true) (hmyid : hub.myid.length = addressSize)
    (ht : hub.order? t.id = some t) (hjoined : t.state = .trJoined)
    (hflags : t.aStateChanged = false ∧ t.bStateChanged = false)
    (hsa : t.a.source.length = addressSize) (hsb : t.b.source.length = addressSize)
    (hab : t.a.source ≠ t.b.source) (hpk : t.a.mpubkey.length = pubkeySize)
    (hsig : ∀ data, sigOk (.ofData t.a.mpubkey data) = true) :
    let p₁ := XBridgePacket.ofData t.a.mpubkey (traderData hub.myid t.a.source t.id [])
    let p₂ := XBridgePacket.ofData t.a.mpubkey (traderData hub.myid t.b.source t.id [])
    (p₁.pubkey = t.a.mpubkey ∧ p₂.pubkey = t.a.mpubkey) ∧
      ∃ hub', hub.run sigOk [(.holdApply, p₁), (.holdApply, p₂)] = .ok hub' ∧
        (hub'.order? t.id).map HubOrder.state = some .trHold := by
  intro p₁ p₂
  refine ⟨⟨XBridgePacket.pubkey_ofData hpk, XBridgePacket.pubkey_ofData hpk⟩, ?_⟩
  -- the maker's packet with its own address sets the maker's flag
  let t₁ : HubOrder := { t with aStateChanged := true }
  have hup₁ : (t.updateTransactionWhenHoldApplyReceived t.a.source).1 = t₁ := by
    simp [t₁, HubOrder.updateTransactionWhenHoldApplyReceived, HubOrder.increaseStateCounter,
      hjoined, HubOrder.countConfirmation_eq, HubOrder.credits, hflags.1, hflags.2]
  have h₁ : hub.processPacket sigOk .holdApply p₁ = .ok (true, hub.setOrder t₁) := by
    simp only [p₁, processPacket, processTransactionHoldApply]
    rw [processTraderPacket_traderData hstarted hmyid hsa ?_ ?_ hpk ht]
    · simp [verifyKey_ofData hpk (hsig _), hjoined, isAddressInTransaction_source_a, hup₁]
    · rfl
    · decide
  -- the maker's packet with the taker's address sets the taker's flag, and the order moves on
  let t₂ : HubOrder := { t₁ with state := .trHold, aStateChanged := false, bStateChanged := false }
  have hup₂ : (t₁.updateTransactionWhenHoldApplyReceived t.b.source).1 = t₂ := by
    simp [t₁, t₂, HubOrder.updateTransactionWhenHoldApplyReceived, HubOrder.increaseStateCounter,
      hjoined, HubOrder.countConfirmation_eq, HubOrder.credits, hflags.2, Ne.symm hab]
  have ht₁ : (hub.setOrder t₁).order? t₁.id = some t₁ := by
    rw [order?_setOrder, if_pos rfl]
  have h₂ : (hub.setOrder t₁).processPacket sigOk .holdApply p₂ =
      .ok (true, (hub.setOrder t₁).setOrder t₂) := by
    simp only [p₂, processPacket, processTransactionHoldApply]
    show processTraderPacket sigOk 72 .trJoined _ (hub.setOrder t₁)
      (.ofData t.a.mpubkey (traderData (hub.setOrder t₁).myid t.b.source t₁.id [])) = _
    rw [processTraderPacket_traderData (show (hub.setOrder t₁).started = true from hstarted)
      (show (hub.setOrder t₁).myid.length = addressSize from hmyid) hsb ?_ ?_ hpk ht₁]
    · have ht₁a : t₁.a = t.a := rfl
      have ht₁b : t₁.b = t.b := rfl
      have ht₁s : t₁.state = .trJoined := hjoined
      simp [ht₁a, ht₁b, ht₁s, verifyKey_ofData hpk (hsig _), HubOrder.isAddressInTransaction, hup₂]
    · rfl
    · decide
  refine ⟨(hub.setOrder t₁).setOrder t₂, ?_, ?_⟩
  · rw [run_cons h₁, run_cons h₂]
    rfl
  · rw [order?_setOrder, if_pos rfl]
    rfl


/-- An initialized packet signed by the maker, with the taker's destination address, stores the
maker's key as the taker's: the hub then checks the taker's packets against the maker's key. -/
theorem initialized_replaces_taker_key (hstarted : hub.started = true)
    (hmyid : hub.myid.length = addressSize) (ht : hub.order? t.id = some t)
    (hhold : t.state = .trHold) (hdb : t.b.dest.length = addressSize)
    (hpk : t.a.mpubkey.length = pubkeySize) (hsig : ∀ data, sigOk (.ofData t.a.mpubkey data) = true)
    (hrest : rest.length = 32) :
    let p := XBridgePacket.ofData t.a.mpubkey (traderData hub.myid t.b.dest t.id rest)
    p.pubkey = t.a.mpubkey ∧ ∃ hub', hub.run sigOk [(.initialized, p)] = .ok hub' ∧
      (hub'.order? t.id).map (·.b.mpubkey) = some t.a.mpubkey := by
  intro p
  refine ⟨XBridgePacket.pubkey_ofData hpk, ?_⟩
  -- `setKeys` finds the taker's destination first and stores the packet's key there
  let t₁ : HubOrder := { t with b := { t.b with mpubkey := t.a.mpubkey } }
  have hset : t.setKeys t.b.dest t.a.mpubkey = some t₁ := by
    simp [HubOrder.setKeys, t₁]
  let t₂ := (t₁.increaseStateCounter .trHold t.b.dest).1
  have hup : (t.updateTransactionWhenInitializedReceived t.b.dest t.a.mpubkey).1 = t₂ := by
    simp only [HubOrder.updateTransactionWhenInitializedReceived, hset, t₂]
  have h : hub.processPacket sigOk .initialized p = .ok (true, hub.setOrder t₂) := by
    simp only [p, processPacket, processTransactionInitialized]
    rw [processTraderPacket_traderData hstarted hmyid hdb ?_ ?_ hpk ht]
    · simp [verifyKey_ofData hpk (hsig _), hhold, HubOrder.isAddressInTransaction, hup]
    · rw [hrest]
    · decide
  have hid : t₂.id = t.id := HubOrder.id_increaseStateCounter
  refine ⟨hub.setOrder t₂, by rw [run_cons h]; rfl, ?_⟩
  rw [order?_setOrder, if_pos hid, Option.map_some, HubOrder.b_increaseStateCounter]

end Hub

/-! ## A maker alone -/

/-- An order in `trJoined` between a maker and a taker with different addresses and keys. -/
def sampleOrder : HubOrder :=
  { id := 5, state := .trJoined,
    a := ⟨List.replicate 20 1, List.replicate 20 2, List.replicate 33 3⟩,
    b := ⟨List.replicate 20 4, List.replicate 20 5, List.replicate 33 6⟩ }

/-- A started hub that holds it. -/
def sampleHub : Hub :=
  { myid := List.replicate 20 9, started := true,
    orders := (∅ : Map Uint256 HubOrder).insert 5 sampleOrder }

theorem holdApply_one_signer_sample :
    (sampleHub.started = true ∧ sampleHub.myid.length = addressSize ∧
      sampleHub.order? sampleOrder.id = some sampleOrder ∧ sampleOrder.state = .trJoined ∧
      (sampleOrder.aStateChanged = false ∧ sampleOrder.bStateChanged = false) ∧
      sampleOrder.a.source.length = addressSize ∧ sampleOrder.b.source.length = addressSize ∧
      sampleOrder.a.source ≠ sampleOrder.b.source ∧ sampleOrder.a.mpubkey.length = pubkeySize) ∧
    let p₁ := XBridgePacket.ofData sampleOrder.a.mpubkey
      (traderData sampleHub.myid sampleOrder.a.source sampleOrder.id [])
    let p₂ := XBridgePacket.ofData sampleOrder.a.mpubkey
      (traderData sampleHub.myid sampleOrder.b.source sampleOrder.id [])
    (p₁.pubkey = sampleOrder.a.mpubkey ∧ p₂.pubkey = sampleOrder.a.mpubkey) ∧
      ∃ hub', sampleHub.run (fun _ => true) [(.holdApply, p₁), (.holdApply, p₂)] = .ok hub' ∧
        (hub'.order? sampleOrder.id).map HubOrder.state = some .trHold :=
  ⟨⟨rfl, rfl, by decide, rfl, ⟨rfl, rfl⟩, rfl, rfl, by decide, rfl⟩,
    Hub.holdApply_one_signer rfl rfl (by decide) rfl ⟨rfl, rfl⟩ rfl rfl (by decide) rfl
      fun _ => rfl⟩

end Blocknet.XBridge
