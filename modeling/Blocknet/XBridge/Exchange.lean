import Blocknet.Primitives
import Blocknet.Lib.Owners
import Blocknet.Lib.Steps

/-!
# The xbridge exchange: orders and utxo locks

Model of `xbridge::Exchange` (`xbridge/xbridgeexchange.cpp`) on a servicenode: the pending orders
`m_pendingTransactions`, the accepted ones `m_transactions`, and the utxo locks, the set
`m_utxoItems` and the lists `m_utxoTxMap[id]`. The members modelled are `checkUtxoItems`,
`lockUtxos`, `unlockUtxos`, `createTransaction`, `acceptTransaction`, `deletePendingTransaction`,
`deleteTransaction`, `eraseExpiredTransactions` and `updateTimestampOrRemoveExpired`, with the parts
of `xbridge::Transaction` they read: `isValid`, `isExpired`, `isExpiredByBlockNumber`,
`updateTimestamp`, `updateTooSoon` and `tryJoin`.

* `wallet::UtxoEntry` compares by its transaction id and output only (`operator<`,
  `operator==`), so a utxo is those two fields. The others are stored, and read by nothing here.
* Times are microseconds (`boost::posix_time`); `total_seconds()` truncates toward zero. A call
  reads the node (`Node`): the clock, the connected wallets with their dust amounts,
  `CoinValidator::IsCoinValid`, whether the exchange is started, and the chain as
  `LookupBlockIndex` and `chainActive.Height()` see it. Each call takes any `Node`, since all of
  them change between calls.
* An order's addresses and keys, and the party B data `tryJoin` copies, are not read by the
  modelled members and are left out.
* `updateTimestampOrRemoveExpired` reads `m_pendingTransactions[txid]` through `operator[]`; for an
  id that is not pending that is a null pointer, dereferenced at once.
* Every call changes the state by locks (`lockUtxos`), unlocks (`unlockUtxos`) and changes of the
  two order maps: `Call.run_changes` shows each run is a `Steps` run of those (`Change`).

Results:
* `reachable_itemsLocked`: in every reachable state every item of `m_utxoItems` is locked under
  some order id.
* `Call.run_locksExclusive`, `reachableBy_lockInv`: a call whose order id has no locks when it
  starts keeps the locks exclusive and listed in `m_utxoItems`, and so does every run of such
  calls. `acceptTransaction_locks_taken_utxo`: when the id has locks, `checkUtxoItems` passes
  the taker's utxos unchecked, one that another order holds is locked under both, and deleting
  the accepted order then takes it out of `m_utxoItems` while the other order still holds it.
* `Call.run_noOrphans`, `reachableBy_noOrphans`: only `acceptTransaction` and
  `updateTimestampOrRemoveExpired` on an expired pending order leave an order id with locks and
  no order. `acceptTransaction_expired_orphans` shows the first does.
* `Call.run_ordersKeyed`, `reachable_ordersKeyed`: every call keeps each pending order under its
  own id, so every reachable exchange does.
* `eraseExpiredTransactions_spec`: on such an exchange the sweep erases exactly the expired
  pending orders, counts them, and unlocks exactly their ids.
-/

namespace Blocknet.XBridge

open Blocknet.Lib

/-! ## Orders -/

/-- `xbridge::Transaction::State`. -/
inductive State where
  | trInvalid
  | trNew
  | trJoined
  | trHold
  | trInitialized
  | trCreated
  | trSigned
  | trCommited
  | trFinished
  | trCancelled
  | trDropped
  deriving DecidableEq, Repr

/-- The value of the enumerator. -/
def State.toNat : State → Nat
  | .trInvalid => 0
  | .trNew => 1
  | .trJoined => 2
  | .trHold => 3
  | .trInitialized => 4
  | .trCreated => 5
  | .trSigned => 6
  | .trCommited => 7
  | .trFinished => 8
  | .trCancelled => 9
  | .trDropped => 10

/-- `pendingTTL`, in seconds. -/
def pendingTTL : Int := 60 * 6

/-- `TTL`, in seconds. -/
def TTL : Int := 60 * 60

/-- `deadlineTTL`, in seconds. -/
def deadlineTTL : Int := 60 * 60 * 24 * 7

/-- `blocksTTL`, in blocks. -/
def blocksTTL : Int := 1440 * 7

/-- `time_duration::total_seconds()` of a duration in microseconds. -/
def totalSeconds (d : Int) : Int := d.tdiv 1000000

/-- `wallet::UtxoEntry`, as its comparisons see it. -/
structure UtxoEntry where
  txId : Bytes
  vout : UInt32
  deriving DecidableEq, Repr

/-- An order (`xbridge::Transaction`): the fields the modelled members read. `created` and
`last` are `m_created` and `m_last`. -/
structure Order where
  id : Uint256
  state : State
  sourceCurrency : Bytes
  destCurrency : Bytes
  sourceAmount : Nat
  destAmount : Nat
  created : Int
  last : Int
  blockHash : Uint256
  deriving DecidableEq, Repr

/-- What a call reads of the node. -/
structure Node where
  /-- `microsec_clock::universal_time()`, in microseconds. -/
  now : Int
  /-- `m_wallets`: the connected wallets by currency, with their `dustAmount`. -/
  wallets : Map Bytes Nat
  /-- `CoinValidator::IsCoinValid(txId)`. -/
  isCoinValid : Bytes → Bool
  /-- `isStarted()`. -/
  started : Bool
  /-- `LookupBlockIndex(hash)->nHeight`, for a block the node knows. -/
  blockHeight : Uint256 → Option Int
  /-- `chainActive.Height()`. -/
  chainHeight : Int

variable (node : Node)

namespace Order

/-- `isExpired()`. -/
def isExpired (o : Order) : Bool :=
  let tdLast := totalSeconds (node.now - o.last)
  let tdCreated := totalSeconds (node.now - o.created)
  (o.state == .trNew && decide (deadlineTTL < tdCreated)) ||
    (o.state == .trNew && decide (pendingTTL < tdLast)) ||
    (decide (State.trNew.toNat < o.state.toNat) && decide (TTL < tdLast))

/-- `isFinished()`. -/
def isFinished (o : Order) : Bool :=
  o.state == .trCancelled || o.state == .trFinished || o.state == .trDropped

/-- `isExpiredByBlockNumber()`: an order past `trNew` that is not finished never is. -/
def isExpiredByBlockNumber (o : Order) : Bool :=
  if decide (State.trNew.toNat < o.state.toNat) && !o.isFinished then false
  else match node.blockHeight o.blockHash with
    | none => true
    | some height => decide (blocksTTL < node.chainHeight - height)

/-- `isValid()`. -/
def isValid (o : Order) : Bool := o.state != .trInvalid

/-- `updateTimestamp()`. -/
def updateTimestamp (o : Order) : Order := { o with last := node.now }

/-- `updateTooSoon()`. -/
def updateTooSoon (o : Order) : Bool := decide (totalSeconds (node.now - o.last) < pendingTTL / 2)

/-- `tryJoin(other)`: the joined order, or `none` where it returns `false`. -/
def tryJoin (o other : Order) : Option Order :=
  if o.state ≠ .trNew ∨ other.state ≠ .trNew then none
  else if o.sourceCurrency ≠ other.destCurrency ∨ o.destCurrency ≠ other.sourceCurrency then none
  else if o.sourceAmount ≠ other.destAmount ∨ o.destAmount ≠ other.sourceAmount then none
  else some { o with state := .trJoined }

@[simp] theorem updateTimestamp_id (o : Order) : (o.updateTimestamp node).id = o.id := rfl

end Order

/-- The order fields `createTransaction` and `acceptTransaction` are given. -/
structure Request where
  sourceCurrency : Bytes
  sourceAmount : Nat
  destCurrency : Bytes
  destAmount : Nat
  deriving DecidableEq, Repr

/-- The constructor `Transaction(id, ..., created, blockHash, ...)`: a new order, last updated
now. -/
def newOrder (id : Uint256) (req : Request) (created : Int) (blockHash : Uint256) : Order where
  id := id
  state := .trNew
  sourceCurrency := req.sourceCurrency
  destCurrency := req.destCurrency
  sourceAmount := req.sourceAmount
  destAmount := req.destAmount
  created := created
  last := node.now
  blockHash := blockHash

@[simp] theorem newOrder_isValid (id : Uint256) (req : Request) (created : Int)
    (blockHash : Uint256) : (newOrder node id req created blockHash).isValid = true := rfl

/-! ## The exchange -/

/-- The data members of `Exchange::Impl` that the modelled members read and write. -/
structure Exchange where
  pendingTransactions : Map Uint256 Order := ∅
  transactions : Map Uint256 Order := ∅
  utxoItems : List UtxoEntry := []
  utxoTxMap : Map Uint256 (List UtxoEntry) := ∅

namespace Exchange

/-- `haveConnectedWallet(currency)`. -/
def haveConnectedWallet (currency : Bytes) : Bool := currency ∈ node.wallets

/-- `wp.dustAmount && wp.dustAmount > amount` for the wallet of `currency`. -/
def belowDust (currency : Bytes) (amount : Nat) : Bool :=
  let dustAmount := (node.wallets.lookup currency).getD 0
  dustAmount != 0 && decide (amount < dustAmount)

/-- `checkUtxoItems(txid, items)`. -/
def checkUtxoItems (ex : Exchange) (txid : Uint256) (items : List UtxoEntry) : Bool :=
  -- an order id that has locks is not checked
  if txid ∈ ex.utxoTxMap then true
  else items.all fun item => item ∉ ex.utxoItems && node.isCoinValid item.txId

/-- The loop of `lockUtxos`, on `m_utxoItems` and the order's list: each item goes into the set,
and onto the list unless it is there already. -/
def lockLoop (items set list : List UtxoEntry) : List UtxoEntry × List UtxoEntry :=
  items.foldl (fun r item => (r.1.insert item, if item ∈ r.2 then r.2 else r.2 ++ [item]))
    (set, list)

/-- `lockUtxos(id, items)`. -/
def lockUtxos (ex : Exchange) (id : Uint256) (items : List UtxoEntry) : Exchange :=
  if items.isEmpty then ex
  else
    let r := lockLoop items ex.utxoItems ((ex.utxoTxMap.lookup id).getD [])
    { ex with utxoItems := r.1, utxoTxMap := ex.utxoTxMap.insert id r.2 }

/-- `unlockUtxos(id)`: the order's items leave `m_utxoItems`, and its list is erased. -/
def unlockUtxos (ex : Exchange) (id : Uint256) : Exchange :=
  match ex.utxoTxMap.lookup id with
  | none => ex
  | some items =>
    { ex with
      utxoItems := items.foldl (fun set item => set.filter (· ≠ item)) ex.utxoItems
      utxoTxMap := ex.utxoTxMap.erase id }

/-- `createTransaction`: what it returns, `isCreated`, and the exchange. -/
def createTransaction (ex : Exchange) (txid : Uint256) (req : Request) (timestamp : Int)
    (blockHash : Uint256) (items : List UtxoEntry) : Bool × Bool × Exchange :=
  if !haveConnectedWallet node req.sourceCurrency || !haveConnectedWallet node req.destCurrency then
    (false, false, ex)
  else if !ex.checkUtxoItems node txid items then (false, false, ex)
  else if belowDust node req.sourceCurrency req.sourceAmount then (false, false, ex)
  else if belowDust node req.destCurrency req.destAmount then (false, false, ex)
  else
    let tr := newOrder node txid req timestamp blockHash
    if !tr.isValid then (false, false, ex)
    else if tr.isExpiredByBlockNumber node then (false, false, ex)
    else
      let (isCreated, pending) := match ex.pendingTransactions.lookup txid with
        | none => (true, ex.pendingTransactions.insert txid tr)
        | some old =>
          if !old.isExpired node then
            (false, ex.pendingTransactions.insert txid (old.updateTimestamp node))
          -- the expired order is erased and replaced; its locks stay
          else (false, ex.pendingTransactions.insert txid tr)
      (true, isCreated, lockUtxos { ex with pendingTransactions := pending } txid items)

/-- `acceptTransaction`. -/
def acceptTransaction (ex : Exchange) (txid : Uint256) (req : Request) (items : List UtxoEntry) :
    Bool × Exchange :=
  if !haveConnectedWallet node req.sourceCurrency || !haveConnectedWallet node req.destCurrency then
    (false, ex)
  else if !ex.checkUtxoItems node txid items then (false, ex)
  else
    -- created at `std::time(0)`, in seconds
    let tr := newOrder node txid req (totalSeconds node.now) 0
    if !tr.isValid then (false, ex)
    else match ex.pendingTransactions.lookup txid with
      | none => (false, ex)
      | some pending =>
        -- the expired order is erased; its locks stay
        if pending.isExpired node then
          (false, { ex with pendingTransactions := ex.pendingTransactions.erase txid })
        else match pending.tryJoin tr with
          | none => (false, ex)
          | some joined =>
            (true, lockUtxos { ex with
              transactions := ex.transactions.insert txid joined
              pendingTransactions := ex.pendingTransactions.erase txid } txid items)

/-- `deletePendingTransaction(id)`. -/
def deletePendingTransaction (ex : Exchange) (id : Uint256) : Exchange :=
  let ex := ex.unlockUtxos id
  { ex with pendingTransactions := ex.pendingTransactions.erase id }

/-- `deleteTransaction(txid)`. -/
def deleteTransaction (ex : Exchange) (txid : Uint256) : Exchange :=
  unlockUtxos { ex with transactions := ex.transactions.erase txid } txid

/-- One iteration of `eraseExpiredTransactions`: the count so far and the exchange. -/
def eraseExpiredStep (r : Nat × Exchange) (item : (_ : Uint256) × Order) : Nat × Exchange :=
  if item.2.isExpiredByBlockNumber node || item.2.isExpired node then
    let ex := { r.2 with pendingTransactions := r.2.pendingTransactions.erase item.1 }
    (r.1 + 1, ex.unlockUtxos item.2.id)
  else r

/-- `eraseExpiredTransactions()`: the number of orders erased, and the exchange. -/
def eraseExpiredTransactions (ex : Exchange) : Nat × Exchange :=
  if !node.started then (0, ex)
  else ex.pendingTransactions.entries.foldl (eraseExpiredStep node) (0, ex)

/-- `updateTimestampOrRemoveExpired(tx)`, for the order id `tx->id()`. -/
def updateTimestampOrRemoveExpired (ex : Exchange) (txid : Uint256) :
    Except Fault (Bool × Exchange) :=
  match ex.pendingTransactions.lookup txid with
  | none => .error .nullDeref
  | some tx =>
    if !tx.isExpired node then
      if tx.updateTooSoon node then .ok (false, ex)
      else .ok (true, { ex with
        pendingTransactions := ex.pendingTransactions.insert txid (tx.updateTimestamp node) })
    -- the expired order is erased; its locks stay
    else .ok (false, { ex with pendingTransactions := ex.pendingTransactions.erase txid })

end Exchange

/-- A call into the exchange, with the order id and the utxos the session delivers. -/
inductive Call where
  | createTransaction (txid : Uint256) (req : Request) (timestamp : Int) (blockHash : Uint256)
      (items : List UtxoEntry)
  | acceptTransaction (txid : Uint256) (req : Request) (items : List UtxoEntry)
  | deletePendingTransaction (id : Uint256)
  | deleteTransaction (txid : Uint256)
  | eraseExpiredTransactions
  | updateTimestampOrRemoveExpired (txid : Uint256)

/-- The exchange after a call. -/
def Call.run (ex : Exchange) : Call → Except Fault Exchange
  | .createTransaction txid req timestamp blockHash items =>
    .ok (ex.createTransaction node txid req timestamp blockHash items).2.2
  | .acceptTransaction txid req items => .ok (ex.acceptTransaction node txid req items).2
  | .deletePendingTransaction id => .ok (ex.deletePendingTransaction id)
  | .deleteTransaction txid => .ok (ex.deleteTransaction txid)
  | .eraseExpiredTransactions => .ok (ex.eraseExpiredTransactions node).2
  | .updateTimestampOrRemoveExpired txid => (ex.updateTimestampOrRemoveExpired node txid).map (·.2)

/-- The exchanges reached from the empty one by calls that return. -/
def Reachable : Exchange → Prop :=
  Relation.ReflTransGen (fun ex ex' => ∃ node c, Call.run node ex c = .ok ex') {}

/-- The exchanges reached from the empty one by calls that return and that `allowed` admits. -/
def ReachableBy (allowed : Node → Exchange → Call → Prop) : Exchange → Prop :=
  Relation.ReflTransGen
    (fun ex ex' => ∃ node c, allowed node ex c ∧ Call.run node ex c = .ok ex') {}

/-! ## Locks -/

namespace Exchange

/-- `a` is locked under the order id `id`: it is on the list `m_utxoTxMap[id]`. -/
def Locked (ex : Exchange) (id : Uint256) (a : UtxoEntry) : Prop :=
  Map.Holds (fun items : List UtxoEntry => items) ex.utxoTxMap id a

/-- Every item of `m_utxoItems` is locked under some order id. -/
def ItemsLocked (ex : Exchange) : Prop :=
  ∀ a ∈ ex.utxoItems, ∃ id, ex.Locked id a

/-- Every locked utxo is in `m_utxoItems`. -/
def LocksListed (ex : Exchange) : Prop :=
  ∀ ⦃id a⦄, ex.Locked id a → a ∈ ex.utxoItems

/-- No utxo is locked under two order ids. -/
def LocksExclusive (ex : Exchange) : Prop :=
  Map.Exclusive (fun items : List UtxoEntry => items) ex.utxoTxMap

/-- Every order of the map is stored under its own id. -/
def OrdersKeyed (m : Map Uint256 Order) : Prop :=
  ∀ ⦃k o⦄, m.lookup k = some o → o.id = k

/-- Every order id with locks is the id of a pending or an accepted order. -/
def NoOrphans (ex : Exchange) : Prop :=
  ∀ id ∈ ex.utxoTxMap, id ∈ ex.pendingTransactions ∨ id ∈ ex.transactions

section Locks

variable {ex : Exchange} {id k : Uint256} {items : List UtxoEntry} {a : UtxoEntry}

theorem locked_iff : ex.Locked k a ↔ a ∈ (ex.utxoTxMap.lookup k).getD [] := by
  unfold Locked Map.Holds
  cases ex.utxoTxMap.lookup k <;> simp

theorem mem_lockLoop (items : List UtxoEntry) : ∀ set list : List UtxoEntry,
    (a ∈ (lockLoop items set list).1 ↔ a ∈ set ∨ a ∈ items) ∧
      (a ∈ (lockLoop items set list).2 ↔ a ∈ list ∨ a ∈ items) := by
  induction items with
  | nil => simp [lockLoop]
  | cons x xs ih =>
    intro set list
    obtain ⟨hset, hlist⟩ := ih (set.insert x) (if x ∈ list then list else list ++ [x])
    simp only [lockLoop, List.foldl_cons] at hset hlist ⊢
    constructor
    · rw [hset, List.mem_insert_iff, List.mem_cons]
      tauto
    · rw [hlist, List.mem_cons]
      split_ifs with hx
      · constructor
        · tauto
        · rintro (h | rfl | h) <;> simp [*]
      · simp [or_assoc]

theorem mem_unlockLoop (items : List UtxoEntry) : ∀ set : List UtxoEntry,
    a ∈ items.foldl (fun set item => set.filter (· ≠ item)) set ↔ a ∈ set ∧ a ∉ items := by
  induction items with
  | nil => simp
  | cons x xs ih =>
    intro set
    rw [List.foldl_cons, ih, List.mem_filter, List.mem_cons]
    simp only [ne_eq, decide_not, Bool.not_eq_eq_eq_not, Bool.not_true, decide_eq_false_iff_not]
    tauto

@[simp] theorem lockUtxos_pendingTransactions :
    (ex.lockUtxos id items).pendingTransactions = ex.pendingTransactions := by
  unfold lockUtxos
  split_ifs <;> rfl

@[simp] theorem lockUtxos_transactions :
    (ex.lockUtxos id items).transactions = ex.transactions := by
  unfold lockUtxos
  split_ifs <;> rfl

@[simp] theorem unlockUtxos_pendingTransactions :
    (ex.unlockUtxos id).pendingTransactions = ex.pendingTransactions := by
  unfold unlockUtxos
  split <;> rfl

@[simp] theorem unlockUtxos_transactions :
    (ex.unlockUtxos id).transactions = ex.transactions := by
  unfold unlockUtxos
  split <;> rfl

theorem mem_lockUtxos_utxoItems :
    a ∈ (ex.lockUtxos id items).utxoItems ↔ a ∈ ex.utxoItems ∨ a ∈ items := by
  unfold lockUtxos
  split_ifs with h
  · simp [List.isEmpty_iff.mp h]
  · exact (mem_lockLoop items _ _).1

theorem locked_lockUtxos :
    (ex.lockUtxos id items).Locked k a ↔ ex.Locked k a ∨ (k = id ∧ a ∈ items) := by
  unfold lockUtxos
  split_ifs with h
  · simp [List.isEmpty_iff.mp h]
  · simp only [locked_iff, Map.lookup_insert_eq_ite]
    split_ifs with hk
    · subst hk
      simp [(mem_lockLoop items _ _).2]
    · simp [hk]

theorem mem_utxoTxMap_lockUtxos (h : k ∈ (ex.lockUtxos id items).utxoTxMap) :
    k ∈ ex.utxoTxMap ∨ k = id := by
  unfold lockUtxos at h
  split_ifs at h
  · exact .inl h
  · rw [AList.mem_insert] at h
    exact h.symm

@[simp] theorem deletePendingTransaction_pendingTransactions :
    (ex.deletePendingTransaction id).pendingTransactions = ex.pendingTransactions.erase id := by
  simp [deletePendingTransaction]

@[simp] theorem deletePendingTransaction_transactions :
    (ex.deletePendingTransaction id).transactions = ex.transactions := by
  simp [deletePendingTransaction]

@[simp] theorem deletePendingTransaction_utxoTxMap :
    (ex.deletePendingTransaction id).utxoTxMap = (ex.unlockUtxos id).utxoTxMap := rfl

theorem mem_unlockUtxos_utxoItems :
    a ∈ (ex.unlockUtxos id).utxoItems ↔ a ∈ ex.utxoItems ∧ ¬ ex.Locked id a := by
  unfold unlockUtxos
  rw [locked_iff]
  split <;> rename_i h
  · simp [h]
  · rw [h, Option.getD_some]
    exact mem_unlockLoop _ _

theorem locked_unlockUtxos : (ex.unlockUtxos id).Locked k a ↔ k ≠ id ∧ ex.Locked k a := by
  unfold unlockUtxos
  split
  · rename_i h
    have hid : ¬ ex.Locked id a := by simp [locked_iff, h]
    constructor
    · intro hk
      exact ⟨fun hki => hid (hki ▸ hk), hk⟩
    · exact And.right
  · exact Map.holds_erase

theorem mem_utxoTxMap_unlockUtxos (h : k ∈ (ex.unlockUtxos id).utxoTxMap) :
    k ≠ id ∧ k ∈ ex.utxoTxMap := by
  unfold unlockUtxos at h
  split at h
  · rename_i hnone
    refine ⟨?_, h⟩
    rintro rfl
    simp [← AList.lookup_isSome, hnone] at h
  · exact AList.mem_erase.mp h

end Locks

/-! ## What each member can do -/

section Cases

variable {node} {ex ex' : Exchange} {txid : Uint256} {req : Request} {items : List UtxoEntry}

/-- `createTransaction` changes nothing, or it passed `checkUtxoItems` and puts a new order, or the
old one with a new timestamp, under `txid` and locks the items there. -/
theorem createTransaction_cases (timestamp : Int) (blockHash : Uint256) :
    (ex.createTransaction node txid req timestamp blockHash items).2.2 = ex ∨
      ex.checkUtxoItems node txid items = true ∧ ∃ o : Order,
        (o = newOrder node txid req timestamp blockHash ∨
          ∃ old, ex.pendingTransactions.lookup txid = some old ∧ o = old.updateTimestamp node) ∧
        (ex.createTransaction node txid req timestamp blockHash items).2.2 =
          lockUtxos { ex with pendingTransactions := ex.pendingTransactions.insert txid o }
            txid items := by
  unfold createTransaction
  dsimp only
  split_ifs with hw hc
  any_goals exact .inl rfl
  refine .inr ⟨by simpa using hc, ?_⟩
  cases hold : ex.pendingTransactions.lookup txid with
  | none => exact ⟨_, .inl rfl, rfl⟩
  | some old =>
    dsimp only
    split_ifs
    · exact ⟨_, .inr ⟨old, rfl, rfl⟩, rfl⟩
    · exact ⟨_, .inl rfl, rfl⟩

/-- `acceptTransaction` changes nothing, or erases an expired pending order and nothing else, or
it passed `checkUtxoItems`, moves the joined order to the accepted ones and locks the items. -/
theorem acceptTransaction_cases :
    (ex.acceptTransaction node txid req items).2 = ex ∨
      (∃ o, ex.pendingTransactions.lookup txid = some o ∧ o.isExpired node = true ∧
        (ex.acceptTransaction node txid req items).2 =
          { ex with pendingTransactions := ex.pendingTransactions.erase txid }) ∨
      ex.checkUtxoItems node txid items = true ∧ ∃ joined : Order,
        (ex.acceptTransaction node txid req items).2 = lockUtxos { ex with
          transactions := ex.transactions.insert txid joined
          pendingTransactions := ex.pendingTransactions.erase txid } txid items := by
  unfold acceptTransaction
  dsimp only
  split_ifs with hw hc
  any_goals exact .inl rfl
  split
  · exact .inl rfl
  · rename_i o ho
    split_ifs with he
    · exact .inr (.inl ⟨o, ho, he, rfl⟩)
    · split
      · exact .inl rfl
      · exact .inr (.inr ⟨by simpa using hc, _, rfl⟩)

/-- With both wallets connected, `acceptTransaction` for an order id that has locks checks no utxo:
it erases the pending order if it is expired, and joins it otherwise. -/
theorem acceptTransaction_of_locked {o : Order}
    (hwallets : haveConnectedWallet node req.sourceCurrency = true ∧
      haveConnectedWallet node req.destCurrency = true)
    (hlocked : txid ∈ ex.utxoTxMap) (hpending : ex.pendingTransactions.lookup txid = some o) :
    ex.acceptTransaction node txid req items =
      if o.isExpired node then
        (false, { ex with pendingTransactions := ex.pendingTransactions.erase txid })
      else match o.tryJoin (newOrder node txid req (totalSeconds node.now) 0) with
        | none => (false, ex)
        | some joined =>
          (true, lockUtxos { ex with
            transactions := ex.transactions.insert txid joined
            pendingTransactions := ex.pendingTransactions.erase txid } txid items) := by
  have hcheck : ex.checkUtxoItems node txid items = true := by
    simp [checkUtxoItems, hlocked]
  simp only [acceptTransaction, hwallets.1, hwallets.2, hcheck, hpending, newOrder_isValid,
    Bool.not_true, Bool.or_self, Bool.false_eq_true, ↓reduceIte]

/-- `updateTimestampOrRemoveExpired` on a pending order changes nothing, renews its timestamp, or
erases it if it is expired. -/
theorem updateTimestampOrRemoveExpired_cases
    (h : (ex.updateTimestampOrRemoveExpired node txid).map (·.2) = .ok ex') :
    ∃ o, ex.pendingTransactions.lookup txid = some o ∧
      (ex' = ex ∨
        ex' = { ex with
          pendingTransactions := ex.pendingTransactions.insert txid (o.updateTimestamp node) } ∨
        o.isExpired node = true ∧
          ex' = { ex with pendingTransactions := ex.pendingTransactions.erase txid }) := by
  obtain ⟨⟨r, ex''⟩, hu, rfl⟩ := except_map_eq_ok h
  unfold updateTimestampOrRemoveExpired at hu
  split at hu
  · cases hu
  · rename_i o ho
    refine ⟨o, ho, ?_⟩
    split_ifs at hu with hlive hsoon <;> cases hu
    · exact .inl rfl
    · exact .inr (.inl rfl)
    · exact .inr (.inr ⟨by simpa using hlive, rfl⟩)

theorem eraseExpiredStep_cases (r : Nat × Exchange) (item : (_ : Uint256) × Order) :
    eraseExpiredStep node r item = r ∨
      (eraseExpiredStep node r item).2 = unlockUtxos
        { r.2 with pendingTransactions := r.2.pendingTransactions.erase item.1 } item.2.id := by
  unfold eraseExpiredStep
  split_ifs
  · exact .inr rfl
  · exact .inl rfl

/-- A run of `eraseExpiredTransactions` keeps what each erasure of a pending order with the unlock
of its id keeps. -/
theorem eraseExpiredTransactions_inv (P : Exchange → Prop)
    (hstep : ∀ r (item : (_ : Uint256) × Order), item ∈ ex.pendingTransactions.entries → P r →
      P (unlockUtxos
        { r with pendingTransactions := r.pendingTransactions.erase item.1 } item.2.id))
    (hex : P ex) : P (ex.eraseExpiredTransactions node).2 := by
  unfold eraseExpiredTransactions
  split_ifs
  · exact hex
  · refine foldl_inv (fun r => P r.2) (eraseExpiredStep node) ?_ (show P (0, ex).2 from hex)
    intro r item hitem hr
    rcases eraseExpiredStep_cases r item with h | h
    · rwa [h]
    · rw [h]
      exact hstep r.2 item hitem hr

end Cases

end Exchange

/-! ## Changes

Every call changes the exchange by locks, unlocks and new order maps, and by nothing else. -/

/-- A primitive change of the exchange. -/
inductive Change where
  | lock (id : Uint256) (items : List UtxoEntry)
  | unlock (id : Uint256)
  | orders (pending transactions : Map Uint256 Order)

/-- The exchange after a change. -/
def Exchange.apply (ex : Exchange) : Change → Exchange
  | .lock id items => ex.lockUtxos id items
  | .unlock id => ex.unlockUtxos id
  | .orders pending transactions =>
    { ex with pendingTransactions := pending, transactions := transactions }

section Changes

variable {node} {ex ex' : Exchange}

theorem Exchange.steps_orders (ex : Exchange) (pending transactions : Map Uint256 Order) :
    Steps Exchange.apply ex
      { ex with pendingTransactions := pending, transactions := transactions } :=
  Steps.single ex (Change.orders pending transactions)

/-- Each run of a call is a run of changes. -/
theorem Call.run_changes {c : Call} (h : c.run node ex = .ok ex') : Steps Exchange.apply ex ex' := by
  cases c with
  | createTransaction txid req timestamp blockHash items =>
    cases h
    rcases Exchange.createTransaction_cases timestamp blockHash with hex | ⟨-, o, -, hex⟩
    · exact Steps.of_eq hex.symm
    · rw [hex]
      exact (Exchange.steps_orders _ _ _).trans (Steps.single _ (Change.lock txid items))
  | acceptTransaction txid req items =>
    cases h
    rcases Exchange.acceptTransaction_cases with hex | ⟨o, -, -, hex⟩ | ⟨-, joined, hex⟩
    · exact Steps.of_eq hex.symm
    · rw [hex]
      exact Exchange.steps_orders _ _ _
    · rw [hex]
      exact (Exchange.steps_orders _ _ _).trans (Steps.single _ (Change.lock txid items))
  | deletePendingTransaction id =>
    cases h
    exact (Steps.single ex (Change.unlock id)).trans (Exchange.steps_orders _ _ _)
  | deleteTransaction txid =>
    cases h
    exact (Exchange.steps_orders _ _ _).trans (Steps.single _ (Change.unlock txid))
  | eraseExpiredTransactions =>
    cases h
    refine Exchange.eraseExpiredTransactions_inv (Steps Exchange.apply ex) ?_ (Steps.refl ex)
    intro r item _ hr
    exact hr.trans ((Exchange.steps_orders _ _ _).trans (Steps.single _ (Change.unlock item.2.id)))
  | updateTimestampOrRemoveExpired txid =>
    obtain ⟨o, -, hex | hex | ⟨-, hex⟩⟩ := Exchange.updateTimestampOrRemoveExpired_cases h
    · exact Steps.of_eq hex.symm
    · rw [hex]
      exact Exchange.steps_orders _ _ _
    · rw [hex]
      exact Exchange.steps_orders _ _ _

end Changes

/-! ## Locked items -/

namespace Exchange

variable {node} {ex ex' : Exchange}

theorem ItemsLocked.apply (h : ex.ItemsLocked) (c : Change) : (ex.apply c).ItemsLocked := by
  cases c with
  | lock id items =>
    intro a ha
    rcases mem_lockUtxos_utxoItems.mp ha with ha | ha
    · obtain ⟨k, hk⟩ := h a ha
      exact ⟨k, locked_lockUtxos.mpr (.inl hk)⟩
    · exact ⟨id, locked_lockUtxos.mpr (.inr ⟨rfl, ha⟩)⟩
  | unlock id =>
    intro a ha
    obtain ⟨ha, hid⟩ := mem_unlockUtxos_utxoItems.mp ha
    obtain ⟨k, hk⟩ := h a ha
    exact ⟨k, locked_unlockUtxos.mpr ⟨fun hki => hid (hki ▸ hk), hk⟩⟩
  | orders pending transactions => exact h

end Exchange

/-- In every reachable state every item of `m_utxoItems` is locked under some order id. -/
theorem reachable_itemsLocked {ex : Exchange} (h : Reachable ex) : ex.ItemsLocked := by
  induction h with
  | refl =>
    intro a ha
    cases ha
  | tail _ hstep ih =>
    obtain ⟨node, c, hrun⟩ := hstep
    exact Steps.inv _ (fun _ c hs => hs.apply c) (Call.run_changes hrun) ih

/-! ## Exclusive locks -/

namespace Exchange

/-- The locks are listed in `m_utxoItems` and exclusive. -/
structure LockInv (ex : Exchange) : Prop where
  listed : ex.LocksListed
  exclusive : ex.LocksExclusive

variable {node} {ex ex' : Exchange} {id txid : Uint256} {items : List UtxoEntry}

theorem LockInv.orders (h : ex.LockInv) (pending transactions : Map Uint256 Order) :
    LockInv { ex with pendingTransactions := pending, transactions := transactions } :=
  ⟨h.listed, h.exclusive⟩

theorem LockInv.unlock (h : ex.LockInv) (id : Uint256) : (ex.unlockUtxos id).LockInv where
  listed := by
    intro k a hk
    obtain ⟨hne, hk⟩ := locked_unlockUtxos.mp hk
    exact mem_unlockUtxos_utxoItems.mpr ⟨h.listed hk, fun hid => hne (h.exclusive hk hid)⟩
  exclusive := h.exclusive.mono fun _ _ hk => (locked_unlockUtxos.mp hk).2

/-- Locking items that no other order id holds keeps the invariant. -/
theorem LockInv.lock (h : ex.LockInv) (hfree : ∀ a ∈ items, ∀ k, ex.Locked k a → k = id) :
    (ex.lockUtxos id items).LockInv where
  listed := by
    intro k a hk
    rcases locked_lockUtxos.mp hk with hk | ⟨-, ha⟩
    · exact mem_lockUtxos_utxoItems.mpr (.inl (h.listed hk))
    · exact mem_lockUtxos_utxoItems.mpr (.inr ha)
  exclusive := by
    intro k k' a hk hk'
    rcases locked_lockUtxos.mp hk with hold | ⟨rfl, ha⟩ <;>
      rcases locked_lockUtxos.mp hk' with hold' | ⟨rfl, ha'⟩
    · exact h.exclusive hold hold'
    · exact hfree a ha' k hold
    · exact (hfree a ha k' hold').symm
    · rfl

/-- For an order id without locks, `checkUtxoItems` passes only items that are not locked. -/
theorem free_of_checkUtxoItems (h : ex.LocksListed) (hfresh : txid ∉ ex.utxoTxMap)
    (hc : ex.checkUtxoItems node txid items = true) : ∀ a ∈ items, ∀ k, ex.Locked k a → k = txid := by
  intro a ha k hk
  unfold checkUtxoItems at hc
  rw [if_neg hfresh, List.all_eq_true] at hc
  have hfree := hc a ha
  simp only [Bool.and_eq_true, decide_eq_true_eq] at hfree
  exact absurd (h hk) hfree.1

end Exchange

/-- The order id a call locks utxos under. -/
def Call.lockId : Call → Option Uint256
  | .createTransaction txid .. | .acceptTransaction txid .. => some txid
  | _ => none

section LockRuns

variable {node} {ex ex' : Exchange}

/-- A call whose order id has no locks when it starts keeps the locks listed and exclusive. -/
theorem Call.run_locksExclusive {c : Call} (h : ex.LockInv) (hrun : c.run node ex = .ok ex')
    (hfresh : ∀ txid, c.lockId = some txid → txid ∉ ex.utxoTxMap) : ex'.LockInv := by
  cases c with
  | createTransaction txid req timestamp blockHash items =>
    cases hrun
    rcases Exchange.createTransaction_cases timestamp blockHash with hex | ⟨hc, o, -, hex⟩
    · rwa [hex]
    · rw [hex]
      exact (h.orders _ _).lock
        (Exchange.free_of_checkUtxoItems h.listed (hfresh txid rfl) hc)
  | acceptTransaction txid req items =>
    cases hrun
    rcases Exchange.acceptTransaction_cases with hex | ⟨o, -, -, hex⟩ | ⟨hc, joined, hex⟩
    · rwa [hex]
    · rw [hex]
      exact h.orders _ _
    · rw [hex]
      exact (h.orders _ _).lock
        (Exchange.free_of_checkUtxoItems h.listed (hfresh txid rfl) hc)
  | deletePendingTransaction id =>
    cases hrun
    exact (h.unlock id).orders _ _
  | deleteTransaction txid =>
    cases hrun
    exact (h.orders _ _).unlock txid
  | eraseExpiredTransactions =>
    cases hrun
    exact Exchange.eraseExpiredTransactions_inv Exchange.LockInv
      (fun _ item _ hr => (hr.orders _ _).unlock item.2.id) h
  | updateTimestampOrRemoveExpired txid =>
    obtain ⟨o, -, hex | hex | ⟨-, hex⟩⟩ := Exchange.updateTimestampOrRemoveExpired_cases hrun
    · rwa [hex]
    · rw [hex]
      exact h.orders _ _
    · rw [hex]
      exact h.orders _ _

/-- Along runs in which every call that locks does so under an order id without locks, the locks
stay listed and exclusive. -/
theorem reachableBy_lockInv
    (h : ReachableBy (fun _ ex c => ∀ txid, c.lockId = some txid → txid ∉ ex.utxoTxMap) ex) :
    ex.LockInv := by
  induction h with
  | refl =>
    refine ⟨fun _ _ hk => ?_, Map.exclusive_empty⟩
    obtain ⟨_, hv, -⟩ := hk
    cases hv
  | tail _ hstep ih =>
    obtain ⟨node, c, hfresh, hrun⟩ := hstep
    exact Call.run_locksExclusive ih hrun hfresh

/-- The taker's `acceptTransaction` on a pending order that has locks: `checkUtxoItems` does not
look at the taker's utxos, so one that another order holds is locked under this order too, and
deleting this order then releases it while the other still holds it. -/
theorem acceptTransaction_locks_taken_utxo {txid other : Uint256} {req : Request}
    {items : List UtxoEntry} {o joined : Order} {u : UtxoEntry}
    (hwallets : Exchange.haveConnectedWallet node req.sourceCurrency = true ∧
      Exchange.haveConnectedWallet node req.destCurrency = true)
    (hlocked : txid ∈ ex.utxoTxMap) (hpending : ex.pendingTransactions.lookup txid = some o)
    (hlive : o.isExpired node = false)
    (hjoin : o.tryJoin (newOrder node txid req (totalSeconds node.now) 0) = some joined)
    (hu : u ∈ items) (hother : ex.Locked other u) (hne : other ≠ txid) :
    (ex.acceptTransaction node txid req items).1 = true ∧
      ¬ (ex.acceptTransaction node txid req items).2.LocksExclusive ∧
      ¬ ((ex.acceptTransaction node txid req items).2.deleteTransaction txid).LocksListed := by
  have hacc : ex.acceptTransaction node txid req items = (true, Exchange.lockUtxos { ex with
      transactions := ex.transactions.insert txid joined
      pendingTransactions := ex.pendingTransactions.erase txid } txid items) := by
    rw [Exchange.acceptTransaction_of_locked hwallets hlocked hpending, hlive, hjoin]
    rfl
  rw [hacc]
  have hmine : (Exchange.lockUtxos { ex with
      transactions := ex.transactions.insert txid joined
      pendingTransactions := ex.pendingTransactions.erase txid } txid items).Locked txid u :=
    Exchange.locked_lockUtxos.mpr (.inr ⟨rfl, hu⟩)
  have htheirs : (Exchange.lockUtxos { ex with
      transactions := ex.transactions.insert txid joined
      pendingTransactions := ex.pendingTransactions.erase txid } txid items).Locked other u :=
    Exchange.locked_lockUtxos.mpr (.inl hother)
  refine ⟨rfl, Map.not_exclusive htheirs hmine hne, fun hlisted => ?_⟩
  have hkept : (Exchange.deleteTransaction _ txid).Locked other u :=
    Exchange.locked_unlockUtxos.mpr ⟨hne, htheirs⟩
  exact (Exchange.mem_unlockUtxos_utxoItems.mp (hlisted hkept)).2 hmine

/-! ### A maker's utxo locked again by a taker -/

/-- A node whose clock reads `now` (microseconds), with wallets for the currencies `[66]` and
`[76]` and no dust amounts, every coin valid, started, and block `5` at the tip, height 100. -/
def sampleNode (now : Int) : Node where
  now := now
  wallets := (∅ : Map Bytes Nat).insert [66] 0 |>.insert [76] 0
  isCoinValid _ := true
  started := true
  blockHeight h := if h = 5 then some 100 else none
  chainHeight := 100

/-- A maker's order: 10 of `[66]` for 20 of `[76]`. -/
def makerReq : Request := ⟨[66], 10, [76], 20⟩

/-- The taker's side of `makerReq`. -/
def takerReq : Request := ⟨[76], 20, [66], 10⟩

/-- Order 1, created at time 0 with the maker utxo `[1]:0`. -/
def oneOrder : Exchange :=
  (({} : Exchange).createTransaction (sampleNode 0) 1 makerReq 0 5 [⟨[1], 0⟩]).2.2

/-- Order 2 created after it, with the maker utxo `[2]:0`. -/
def twoOrders : Exchange :=
  (oneOrder.createTransaction (sampleNode 0) 2 makerReq 0 5 [⟨[2], 0⟩]).2.2

theorem reachable_oneOrder : Reachable oneOrder :=
  .single ⟨sampleNode 0, .createTransaction 1 makerReq 0 5 [⟨[1], 0⟩], rfl⟩

theorem reachable_twoOrders : Reachable twoOrders :=
  .tail reachable_oneOrder ⟨sampleNode 0, .createTransaction 2 makerReq 0 5 [⟨[2], 0⟩], rfl⟩

/-- A taker accepts order 2 with the utxo `[1]:0` that order 1 holds. -/
theorem accept_taken_utxo_sample :
    ∃ ex, Reachable ex ∧ ¬ ex.LocksExclusive ∧ ¬ (ex.deleteTransaction 2).LocksListed :=
  have h := @acceptTransaction_locks_taken_utxo (sampleNode 0) twoOrders 2 1 takerReq [⟨[1], 0⟩]
    (newOrder (sampleNode 0) 2 makerReq 0 5)
    { newOrder (sampleNode 0) 2 makerReq 0 5 with state := .trJoined } ⟨[1], 0⟩
    (by decide) (by decide +kernel) (by decide +kernel) (by decide +kernel) (by decide +kernel)
    (by simp) (Exchange.locked_iff.mpr (by decide +kernel)) (by decide)
  ⟨_, .tail reachable_twoOrders ⟨sampleNode 0, .acceptTransaction 2 takerReq [⟨[1], 0⟩], rfl⟩,
    h.2⟩

end LockRuns

/-! ## Orphaned locks -/

namespace Exchange

variable {node} {ex ex' : Exchange} {id txid k : Uint256} {items : List UtxoEntry}

theorem OrdersKeyed.insert {m : Map Uint256 Order} (h : OrdersKeyed m) {o : Order} (ho : o.id = k) :
    OrdersKeyed (m.insert k o) := by
  intro k' o' hk'
  rw [Map.lookup_insert_eq_ite] at hk'
  split_ifs at hk' with hk
  · cases hk'
    exact ho.trans hk.symm
  · exact h hk'

theorem OrdersKeyed.erase {m : Map Uint256 Order} (h : OrdersKeyed m) (k : Uint256) :
    OrdersKeyed (m.erase k) := by
  intro k' o' hk'
  rw [Map.lookup_erase_eq_ite] at hk'
  split_ifs at hk'
  exact h hk'

/-- Locking under an order id that has an order keeps every lock owned. -/
theorem NoOrphans.lock (h : ex.NoOrphans)
    (hid : id ∈ ex.pendingTransactions ∨ id ∈ ex.transactions) :
    (ex.lockUtxos id items).NoOrphans := by
  intro k hk
  rw [lockUtxos_pendingTransactions, lockUtxos_transactions]
  rcases mem_utxoTxMap_lockUtxos hk with hk | rfl
  · exact h k hk
  · exact hid

theorem NoOrphans.insertPending (h : ex.NoOrphans) (o : Order) :
    NoOrphans { ex with pendingTransactions := ex.pendingTransactions.insert k o } := by
  intro k' hk'
  rcases h k' hk' with hp | ht
  · exact .inl ((AList.mem_insert _).mpr (.inr hp))
  · exact .inr ht

/-- A change that drops the order `id` together with its locks, and keeps every other order,
keeps every lock owned. -/
theorem NoOrphans.drop (h : ex.NoOrphans)
    (hmap : ∀ k ∈ ex'.utxoTxMap, k ≠ id ∧ k ∈ ex.utxoTxMap)
    (hpending : ∀ k ≠ id, k ∈ ex.pendingTransactions → k ∈ ex'.pendingTransactions)
    (htransactions : ∀ k ≠ id, k ∈ ex.transactions → k ∈ ex'.transactions) : ex'.NoOrphans := by
  intro k hk
  obtain ⟨hne, hk⟩ := hmap k hk
  rcases h k hk with hp | ht
  · exact .inl (hpending k hne hp)
  · exact .inr (htransactions k hne ht)

theorem NoOrphans.unlock_erase (h : ex.NoOrphans) (k₀ : Uint256) :
    NoOrphans (unlockUtxos { ex with pendingTransactions := ex.pendingTransactions.erase k₀ } k₀) :=
  h.drop (fun _ hk => by
      have hk' := mem_utxoTxMap_unlockUtxos hk
      exact hk')
    (fun _ hne hp => by
      rw [unlockUtxos_pendingTransactions]
      exact AList.mem_erase.mpr ⟨hne, hp⟩)
    (fun _ _ ht => by
      rw [unlockUtxos_transactions]
      exact ht)

end Exchange

/-- The call finds its pending order expired and erases it without unlocking it: the expiry
branches of `acceptTransaction` and `updateTimestampOrRemoveExpired`. -/
def Call.DropsExpired (node : Node) (ex : Exchange) : Call → Prop
  | .acceptTransaction txid .. | .updateTimestampOrRemoveExpired txid =>
    ∃ o, ex.pendingTransactions.lookup txid = some o ∧ o.isExpired node = true
  | _ => False

section OrphanRuns

variable {node} {ex ex' : Exchange}

/-- Every call keeps each pending order under its own id. -/
theorem Call.run_ordersKeyed {c : Call} (h : Exchange.OrdersKeyed ex.pendingTransactions)
    (hrun : c.run node ex = .ok ex') : Exchange.OrdersKeyed ex'.pendingTransactions := by
  cases c with
  | createTransaction txid req timestamp blockHash items =>
    cases hrun
    rcases Exchange.createTransaction_cases timestamp blockHash with hex | ⟨-, o, ho, hex⟩
    · rwa [hex]
    · rw [hex, Exchange.lockUtxos_pendingTransactions]
      refine h.insert ?_
      rcases ho with rfl | ⟨old, hold, rfl⟩
      · rfl
      · exact (Order.updateTimestamp_id node old).trans (h hold)
  | acceptTransaction txid req items =>
    cases hrun
    rcases Exchange.acceptTransaction_cases with hex | ⟨o, -, -, hex⟩ | ⟨-, joined, hex⟩
    · rwa [hex]
    · rw [hex]
      exact h.erase txid
    · rw [hex, Exchange.lockUtxos_pendingTransactions]
      exact h.erase txid
  | deletePendingTransaction id =>
    cases hrun
    rw [Exchange.deletePendingTransaction_pendingTransactions]
    exact h.erase id
  | deleteTransaction txid =>
    cases hrun
    rw [Exchange.deleteTransaction, Exchange.unlockUtxos_pendingTransactions]
    exact h
  | eraseExpiredTransactions =>
    cases hrun
    exact Exchange.eraseExpiredTransactions_inv (fun r => Exchange.OrdersKeyed r.pendingTransactions)
      (fun _ item _ hr => by
        rw [Exchange.unlockUtxos_pendingTransactions]
        exact hr.erase item.1) h
  | updateTimestampOrRemoveExpired txid =>
    obtain ⟨o, ho, hex | hex | ⟨-, hex⟩⟩ := Exchange.updateTimestampOrRemoveExpired_cases hrun
    · rwa [hex]
    · rw [hex]
      exact h.insert ((Order.updateTimestamp_id node o).trans (h ho))
    · rw [hex]
      exact h.erase txid

/-- Every exchange reached by calls keeps each pending order under its own id. -/
theorem reachable_ordersKeyed (h : Reachable ex) : Exchange.OrdersKeyed ex.pendingTransactions := by
  induction h with
  | refl =>
    intro _ _ hk
    cases hk
  | tail _ hstep ih =>
    obtain ⟨node, c, hrun⟩ := hstep
    exact Call.run_ordersKeyed ih hrun

/-- A call that does not erase an expired pending order without unlocking it leaves no order id
with locks and no order. -/
theorem Call.run_noOrphans {c : Call} (hkeyed : Exchange.OrdersKeyed ex.pendingTransactions)
    (h : ex.NoOrphans) (hrun : c.run node ex = .ok ex') (hdrop : ¬ c.DropsExpired node ex) :
    ex'.NoOrphans := by
  cases c with
  | createTransaction txid req timestamp blockHash items =>
    cases hrun
    rcases Exchange.createTransaction_cases timestamp blockHash with hex | ⟨-, o, -, hex⟩
    · rwa [hex]
    · rw [hex]
      exact (h.insertPending o).lock (.inl ((AList.mem_insert _).mpr (.inl rfl)))
  | acceptTransaction txid req items =>
    cases hrun
    rcases Exchange.acceptTransaction_cases with hex | ⟨o, ho, he, -⟩ | ⟨-, joined, hex⟩
    · rwa [hex]
    · exact absurd ⟨o, ho, he⟩ hdrop
    · rw [hex]
      refine Exchange.NoOrphans.lock (fun k hk => ?_) (.inr (AList.mem_insert _ |>.mpr (.inl rfl)))
      by_cases hk' : k = txid
      · exact .inr ((AList.mem_insert _).mpr (.inl hk'))
      · rcases h k hk with hp | ht
        · exact .inl (AList.mem_erase.mpr ⟨hk', hp⟩)
        · exact .inr ((AList.mem_insert _).mpr (.inr ht))
  | deletePendingTransaction id =>
    cases hrun
    refine h.drop (fun _ hk => ?_) (fun _ (hne : _ ≠ id) hp => ?_) (fun _ _ ht => ?_)
    · rw [Exchange.deletePendingTransaction_utxoTxMap] at hk
      exact Exchange.mem_utxoTxMap_unlockUtxos hk
    · rw [Exchange.deletePendingTransaction_pendingTransactions]
      exact AList.mem_erase.mpr ⟨hne, hp⟩
    · rwa [Exchange.deletePendingTransaction_transactions]
  | deleteTransaction txid =>
    cases hrun
    rw [Exchange.deleteTransaction]
    refine h.drop (fun _ hk => ?_) (fun _ _ hp => ?_) (fun _ (hne : _ ≠ txid) ht => ?_)
    · have hk' := Exchange.mem_utxoTxMap_unlockUtxos hk
      exact hk'
    · rwa [Exchange.unlockUtxos_pendingTransactions]
    · rw [Exchange.unlockUtxos_transactions]
      exact AList.mem_erase.mpr ⟨hne, ht⟩
  | eraseExpiredTransactions =>
    cases hrun
    refine Exchange.eraseExpiredTransactions_inv Exchange.NoOrphans (fun r item hitem hr => ?_) h
    -- the order is stored under its own id, so the unlock is of the erased id
    have hid : item.2.id = item.1 := hkeyed (AList.mem_lookup_iff.mpr hitem)
    rw [hid]
    exact hr.unlock_erase item.1
  | updateTimestampOrRemoveExpired txid =>
    obtain ⟨o, ho, hex | hex | ⟨he, -⟩⟩ := Exchange.updateTimestampOrRemoveExpired_cases hrun
    · rwa [hex]
    · rw [hex]
      exact h.insertPending _
    · exact absurd ⟨o, ho, he⟩ hdrop

/-- Along runs in which no call erases an expired pending order without unlocking it, every order
id with locks has an order. -/
theorem reachableBy_noOrphans (h : ReachableBy (fun node ex c => ¬ c.DropsExpired node ex) ex) :
    ex.NoOrphans ∧ Exchange.OrdersKeyed ex.pendingTransactions := by
  induction h with
  | refl =>
    refine ⟨fun _ hk => ?_, fun _ _ hk => ?_⟩
    · simp at hk
    · cases hk
  | tail _ hstep ih =>
    obtain ⟨node, c, hdrop, hrun⟩ := hstep
    exact ⟨Call.run_noOrphans ih.2 ih.1 hrun hdrop, Call.run_ordersKeyed ih.2 hrun⟩

/-- `acceptTransaction` on an expired pending order with locks that is not accepted erases it and
keeps its locks: the order id is left with locks and no order. -/
theorem acceptTransaction_expired_orphans {txid : Uint256} {req : Request}
    {items : List UtxoEntry} {o : Order}
    (hwallets : Exchange.haveConnectedWallet node req.sourceCurrency = true ∧
      Exchange.haveConnectedWallet node req.destCurrency = true)
    (hlocked : txid ∈ ex.utxoTxMap) (hpending : ex.pendingTransactions.lookup txid = some o)
    (hexpired : o.isExpired node = true) (haccepted : txid ∉ ex.transactions) :
    ¬ (ex.acceptTransaction node txid req items).2.NoOrphans := by
  rw [Exchange.acceptTransaction_of_locked hwallets hlocked hpending, hexpired, if_pos rfl]
  intro h
  rcases h txid hlocked with hp | ht
  · exact (AList.mem_erase.mp hp).1 rfl
  · exact haccepted ht

/-- A taker accepts order 1 at 361 seconds, when it has been pending too long. -/
theorem accept_expired_sample : ∃ ex, Reachable ex ∧ ¬ ex.NoOrphans :=
  ⟨_, .tail reachable_oneOrder ⟨sampleNode 361000000, .acceptTransaction 1 takerReq [⟨[3], 0⟩], rfl⟩,
    @acceptTransaction_expired_orphans (sampleNode 361000000) oneOrder 1 takerReq [⟨[3], 0⟩]
      (newOrder (sampleNode 0) 1 makerReq 0 5) (by decide) (by decide +kernel) (by decide +kernel)
      (by decide +kernel) (by decide +kernel)⟩

end OrphanRuns

/-! ## What `eraseExpiredTransactions` erases -/

namespace Exchange

variable {node} {ex : Exchange}

theorem mem_utxoTxMap_unlockUtxos_iff {id k : Uint256} :
    k ∈ (ex.unlockUtxos id).utxoTxMap ↔ k ≠ id ∧ k ∈ ex.utxoTxMap := by
  refine ⟨mem_utxoTxMap_unlockUtxos, fun ⟨hne, hk⟩ => ?_⟩
  unfold unlockUtxos
  split
  · exact hk
  · exact AList.mem_erase.mpr ⟨hne, hk⟩

theorem locked_withPending {p : Map Uint256 Order} {id : Uint256} {a : UtxoEntry} :
    ({ ex with pendingTransactions := p } : Exchange).Locked id a ↔ ex.Locked id a := Iff.rfl

section Loop

variable {r : Nat × Exchange} {e : (_ : Uint256) × Order}

theorem eraseExpiredStep_of_expired
    (he : (e.2.isExpiredByBlockNumber node || e.2.isExpired node) = true) :
    eraseExpiredStep node r e =
      (r.1 + 1, unlockUtxos { r.2 with pendingTransactions := r.2.pendingTransactions.erase e.1 }
        e.2.id) := by
  simp [eraseExpiredStep, he]

theorem eraseExpiredStep_of_live
    (he : (e.2.isExpiredByBlockNumber node || e.2.isExpired node) = false) :
    eraseExpiredStep node r e = r := by
  simp [eraseExpiredStep, he]

variable (es : List ((_ : Uint256) × Order))

/-- The loop erases the key of each expired entry it meets, and no other. -/
theorem foldl_eraseExpiredStep_lookup (r : Nat × Exchange) (k : Uint256) (o : Order) :
    (es.foldl (eraseExpiredStep node) r).2.pendingTransactions.lookup k = some o ↔
      r.2.pendingTransactions.lookup k = some o ∧ ∀ e ∈ es, e.1 = k →
        (e.2.isExpiredByBlockNumber node || e.2.isExpired node) = false := by
  induction es generalizing r with
  | nil => simp
  | cons e es ih =>
    rw [List.foldl_cons, ih, List.forall_mem_cons]
    cases he : (e.2.isExpiredByBlockNumber node || e.2.isExpired node)
    · simp [eraseExpiredStep_of_live he]
    · by_cases hk : e.1 = k
      · simp [eraseExpiredStep_of_expired he, hk]
      · simp [eraseExpiredStep_of_expired he, hk, Ne.symm hk]

/-- The loop counts the expired entries. -/
theorem foldl_eraseExpiredStep_count (r : Nat × Exchange) :
    (es.foldl (eraseExpiredStep node) r).1 =
      r.1 + (es.filter fun e => e.2.isExpiredByBlockNumber node || e.2.isExpired node).length := by
  induction es generalizing r with
  | nil => simp
  | cons e es ih =>
    rw [List.foldl_cons, ih, List.filter_cons]
    cases he : (e.2.isExpiredByBlockNumber node || e.2.isExpired node)
    · simp [eraseExpiredStep_of_live he]
    · simp only [eraseExpiredStep_of_expired he, if_true, List.length_cons]
      omega

theorem foldl_eraseExpiredStep_transactions (r : Nat × Exchange) :
    (es.foldl (eraseExpiredStep node) r).2.transactions = r.2.transactions := by
  induction es generalizing r with
  | nil => rfl
  | cons e es ih =>
    rw [List.foldl_cons, ih]
    cases he : (e.2.isExpiredByBlockNumber node || e.2.isExpired node)
    · rw [eraseExpiredStep_of_live he]
    · simp [eraseExpiredStep_of_expired he]

/-- The loop unlocks the order id of each expired entry. -/
theorem foldl_eraseExpiredStep_utxoTxMap (r : Nat × Exchange) (id : Uint256) :
    id ∈ (es.foldl (eraseExpiredStep node) r).2.utxoTxMap ↔
      id ∈ r.2.utxoTxMap ∧ ∀ e ∈ es,
        (e.2.isExpiredByBlockNumber node || e.2.isExpired node) = true → e.2.id ≠ id := by
  induction es generalizing r with
  | nil => simp
  | cons e es ih =>
    rw [List.foldl_cons, ih, List.forall_mem_cons]
    cases he : (e.2.isExpiredByBlockNumber node || e.2.isExpired node)
    · simp [eraseExpiredStep_of_live he]
    · simp only [eraseExpiredStep_of_expired he, mem_utxoTxMap_unlockUtxos_iff, true_implies]
      exact ⟨fun ⟨⟨hne, hid⟩, hrest⟩ => ⟨hid, Ne.symm hne, hrest⟩,
        fun ⟨hid, hne, hrest⟩ => ⟨⟨Ne.symm hne, hid⟩, hrest⟩⟩

/-- The loop takes out of `m_utxoItems` what the expired entries' ids lock. -/
theorem foldl_eraseExpiredStep_utxoItems (r : Nat × Exchange) (a : UtxoEntry) :
    a ∈ (es.foldl (eraseExpiredStep node) r).2.utxoItems ↔
      a ∈ r.2.utxoItems ∧ ∀ e ∈ es,
        (e.2.isExpiredByBlockNumber node || e.2.isExpired node) = true → ¬ r.2.Locked e.2.id a := by
  induction es generalizing r with
  | nil => simp
  | cons e es ih =>
    rw [List.foldl_cons, ih, List.forall_mem_cons]
    cases he : (e.2.isExpiredByBlockNumber node || e.2.isExpired node)
    · simp [eraseExpiredStep_of_live he]
    · simp only [eraseExpiredStep_of_expired he, mem_unlockUtxos_utxoItems, locked_unlockUtxos,
        locked_withPending, true_implies]
      -- an id unlocked here has nothing left to unlock when a later entry carries it again
      constructor
      · rintro ⟨⟨ha, hnot⟩, hrest⟩
        exact ⟨ha, hnot, fun e' he' hexp hl => hrest e' he' hexp ⟨fun heq => hnot (heq ▸ hl), hl⟩⟩
      · rintro ⟨ha, hnot, hrest⟩
        exact ⟨⟨ha, hnot⟩, fun e' he' hexp hl => hrest e' he' hexp hl.2⟩

end Loop

/-- **`eraseExpiredTransactions` erases exactly the expired pending orders, and their locks**: on
a started exchange whose pending orders are kept under their own ids (every reachable one, by
`reachable_ordersKeyed`), the pending orders left are
those that are neither expired by block number nor by time; the count is the number of those
erased; the accepted orders stay; and exactly the erased orders' ids lose their locks, whose items
leave `m_utxoItems`. -/
theorem eraseExpiredTransactions_spec (hkeyed : OrdersKeyed ex.pendingTransactions)
    (hstarted : node.started = true) :
    (∀ k o, (ex.eraseExpiredTransactions node).2.pendingTransactions.lookup k = some o ↔
        ex.pendingTransactions.lookup k = some o ∧
          (o.isExpiredByBlockNumber node || o.isExpired node) = false) ∧
      (ex.eraseExpiredTransactions node).1 =
        (ex.pendingTransactions.entries.filter fun e =>
          e.2.isExpiredByBlockNumber node || e.2.isExpired node).length ∧
      (ex.eraseExpiredTransactions node).2.transactions = ex.transactions ∧
      (∀ id, id ∈ (ex.eraseExpiredTransactions node).2.utxoTxMap ↔
        id ∈ ex.utxoTxMap ∧ ∀ o, ex.pendingTransactions.lookup id = some o →
          (o.isExpiredByBlockNumber node || o.isExpired node) = false) ∧
      (∀ a, a ∈ (ex.eraseExpiredTransactions node).2.utxoItems ↔
        a ∈ ex.utxoItems ∧ ∀ id o, ex.pendingTransactions.lookup id = some o →
          (o.isExpiredByBlockNumber node || o.isExpired node) = true → ¬ ex.Locked id a) := by
  have hrun : ex.eraseExpiredTransactions node =
      ex.pendingTransactions.entries.foldl (eraseExpiredStep node) (0, ex) := by
    simp [eraseExpiredTransactions, hstarted]
  -- an entry of the map is a lookup, and its order's id is its key
  have hentry : ∀ e, e ∈ ex.pendingTransactions.entries ↔
      ex.pendingTransactions.lookup e.1 = some e.2 := fun e => AList.mem_lookup_iff.symm
  rw [hrun]
  refine ⟨fun k o => ?_, ?_, foldl_eraseExpiredStep_transactions _ _, fun id => ?_, fun a => ?_⟩
  · rw [foldl_eraseExpiredStep_lookup]
    refine and_congr_right fun hk => ⟨fun h => h ⟨k, o⟩ ((hentry ⟨k, o⟩).mpr hk) rfl,
      fun h e he hek => ?_⟩
    subst hek
    rw [(hentry e).mp he] at hk
    cases hk
    exact h
  · rw [foldl_eraseExpiredStep_count]
    simp
  · rw [foldl_eraseExpiredStep_utxoTxMap]
    refine and_congr_right fun _ => ⟨fun h o ho => ?_, fun h e he hexp hid => ?_⟩
    · by_contra hexp
      exact h ⟨id, o⟩ ((hentry ⟨id, o⟩).mpr ho) (by simpa only [Bool.not_eq_false] using hexp)
        (hkeyed ho)
    · have hlk := (hentry e).mp he
      rw [hkeyed hlk] at hid
      subst hid
      simp [h e.2 hlk] at hexp
  · rw [foldl_eraseExpiredStep_utxoItems]
    refine and_congr_right fun _ => ⟨fun h id o ho hexp => ?_, fun h e he hexp => ?_⟩
    · have := h ⟨id, o⟩ ((hentry ⟨id, o⟩).mpr ho) hexp
      rwa [hkeyed ho] at this
    · have hlk := (hentry e).mp he
      rw [hkeyed hlk]
      exact h e.1 e.2 hlk hexp

/-- At 400 seconds both orders of `twoOrders` have been pending too long, and both are erased. -/
theorem eraseExpiredTransactions_twoOrders :
    OrdersKeyed twoOrders.pendingTransactions ∧ (sampleNode 400000000).started = true ∧
      (twoOrders.eraseExpiredTransactions (sampleNode 400000000)).1 = 2 := by
  have hkeyed : OrdersKeyed twoOrders.pendingTransactions := reachable_ordersKeyed reachable_twoOrders
  exact ⟨hkeyed, rfl, (eraseExpiredTransactions_spec hkeyed rfl).2.1.trans (by decide +kernel)⟩

end Exchange

end Blocknet.XBridge
