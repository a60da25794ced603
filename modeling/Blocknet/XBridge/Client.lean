import Mathlib.Data.Rat.Floor
import Blocknet.Lib.Outputs
import Blocknet.XBridge.Hub

/-!
# A trader's order, and its deposit

Model of an order on a trader's node (`TransactionDescr`, `xbridge/xbridgetransactiondescr.h`)
and of every code there that writes its state: the client handlers of `Session::Impl`
(`xbridge/xbridgesession.cpp`: `processPendingTransaction`, `processTransactionHold`, `Init`,
`CreateA`, `CreateB`, `ConfirmA`, `ConfirmB`, `Cancel` and `Finished`, with
`sendCancelTransaction`, `redeemOrderDeposit` and `redeemOrderCounterpartyDeposit`), and the
members of `App` (`xbridge/xbridgeapp.cpp`) `acceptXBridgeTransaction`,
`cancelXBridgeTransaction`, `flushCancelledOrders`, `checkAndEraseExpiredTransactions` and
`checkWatchesOnDepositSpends`.

* An order is one object. `ClientOrder` adds where `App` keeps it (`m_transactions`,
  `m_historicTransactions`, or neither once erased) and whether it is in `m_watchDeposits`. The
  handlers find it by its id, so no packet reaches an erased order. `processPendingTransaction`
  of a cancelled order builds a fresh object, which `appendTransaction` drops while the id is
  known; the old object then only has its timestamps updated.
* A packet is the fields its handler reads and whether it verifies with the key the handler
  checks (`verified`); its layout is the packet module's. A packet of a wrong size changes
  nothing. A packet `processLater` keeps is delivered again as one more event.
* What the wallets and the node answer while one event is handled is `ClientEnv`: the
  connectors by currency (`Connector`), the clock and the broadcast of the taker's fee. The
  transactions the handlers build are the strings the connector returns; `double` amounts are
  rationals. The coin locks of `App` and the fields no modelled branch reads are left out.
* Events are handled one at a time, each to its end.
* What handling an event does outside the order is a list of `Effect`s: the order's own deposit,
  `sendRawTransaction(binTx)` of the create handlers, or an `Action` (a packet, a broadcast, a
  call of `App`). Only `sendDeposit`, the end of the two create handlers, emits a deposit.

Results:
* `processTransactionCancel_state`: a cancel leaves the state as it is, or ends at `trCreated`
  or above; `step_created`: so no event takes an order at `trCreated` or above back below it.
* `deposit_mem_step`: an event that sends the deposit is a create packet for the order's role,
  handled below `trCreated`; the taker's first checks the maker's lock time and deposit.
* `deposit_at_most_once`: in every run, the order's deposit is sent at most once, each time so.
* `acceptXBridgeTransaction_error`: a failed accept leaves the order as it was.
-/

namespace Blocknet.XBridge

open Blocknet.Lib

/-! ## Orders -/

/-- `TransactionDescr::State`. -/
inductive TransactionDescr.State where
  | trExpired
  | trNew
  | trOffline
  | trPending
  | trAccepting
  | trHold
  | trInitialized
  | trCreated
  | trSigned
  | trCommited
  | trFinished
  | trRollback
  | trRollbackFailed
  | trDropped
  | trCancelled
  | trInvalid
  deriving DecidableEq, Repr

namespace TransactionDescr.State

/-- The value of the enumerator: `trExpired` is `-1`. -/
@[simp] def toInt : State → Int
  | .trExpired => -1
  | .trNew => 0
  | .trOffline => 1
  | .trPending => 2
  | .trAccepting => 3
  | .trHold => 4
  | .trInitialized => 5
  | .trCreated => 6
  | .trSigned => 7
  | .trCommited => 8
  | .trFinished => 9
  | .trRollback => 10
  | .trRollbackFailed => 11
  | .trDropped => 12
  | .trCancelled => 13
  | .trInvalid => 14

/-- States compare by their values, as the handlers' `state < ...` do. -/
instance : LT State := ⟨fun a b => a.toInt < b.toInt⟩

instance : LE State := ⟨fun a b => a.toInt ≤ b.toInt⟩

instance (a b : State) : Decidable (a < b) := inferInstanceAs (Decidable (a.toInt < b.toInt))

instance (a b : State) : Decidable (a ≤ b) := inferInstanceAs (Decidable (a.toInt ≤ b.toInt))

@[simp] theorem lt_iff {a b : State} : a < b ↔ a.toInt < b.toInt := Iff.rfl

@[simp] theorem le_iff {a b : State} : a ≤ b ↔ a.toInt ≤ b.toInt := Iff.rfl

theorem le_trans {a b c : State} (hab : a ≤ b) (hbc : b ≤ c) : a ≤ c := Int.le_trans hab hbc

theorem lt_of_lt_of_le {a b c : State} (hab : a < b) (hbc : b ≤ c) : a < c :=
  Int.lt_of_lt_of_le hab hbc

theorem not_lt_of_le {a b : State} (h : a ≤ b) : ¬b < a := Int.not_lt.mpr h

end TransactionDescr.State

/-- `TransactionDescr::COIN`. -/
def TransactionDescr.COIN : Nat := 1000000

/-- `TxCancelReason`. -/
inductive TxCancelReason where
  | crUnknown
  | crBadSettings
  | crUserRequest
  | crNoMoney
  | crBadUtxo
  | crDust
  | crRpcError
  | crNotSigned
  | crNotAccepted
  | crRollback
  | crRpcRequest
  | crXbridgeRejected
  | crInvalidAddress
  | crBlocknetError
  | crBadADepositTx
  | crBadBDepositTx
  | crTimeout
  deriving DecidableEq, Repr

/-- The values of `xbridge::Error` that `acceptXBridgeTransaction` and
`cancelXBridgeTransaction` return. -/
inductive Error where
  | SUCCESS
  | BAD_REQUEST
  | NO_SESSION
  | INSIFFICIENT_FUNDS
  | FUNDS_NOT_SIGNED
  | TRANSACTION_NOT_FOUND
  | INVALID_ADDRESS
  | INVALID_SIGNATURE
  | INVALID_STATE
  | DUST
  | INSIFFICIENT_FUNDS_DX
  | NO_SERVICE_NODE
  | INVALID_ONCHAIN_HISTORY
  deriving DecidableEq, Repr

/-- `RPC_VERIFY_ERROR`. -/
def RPC_VERIFY_ERROR : Int := -25

/-- `RPC_VERIFY_ALREADY_IN_CHAIN`. -/
def RPC_VERIFY_ALREADY_IN_CHAIN : Int := -27

/-- `wallet::UtxoEntry` as the create handlers read it: its amount, a `double`, and address. -/
structure Coin where
  amount : ℚ
  address : String
  deriving DecidableEq, Repr

/-- An order on a trader's node (`TransactionDescr`): the fields the modelled code reads.
`«from»` and `«to»` are the trader's addresses, empty on another trader's order; the secret of
the swap is kept in `xPubKey`. -/
structure TransactionDescr where
  role : Char
  «from» : Bytes
  fromCurrency : Bytes
  fromAmount : Nat
  fromAddr : String
  «to» : Bytes
  toCurrency : Bytes
  toAmount : Nat
  state : TransactionDescr.State
  created : Int
  txtime : Int
  lockTime : Nat
  opponentLockTime : Nat
  oHashedSecret : Bytes
  binTx : String
  refTx : String
  payTx : String
  oPayTxId : String
  oPayTxTries : Nat
  mPubKey : Bytes
  oPubKey : Bytes
  xPubKey : Bytes
  usedCoins : List Coin
  watchingDone : Bool
  redeemedCounterpartyDeposit : Bool
  depositSent : Bool

namespace TransactionDescr

/-- `isLocal()`: the order has both addresses, as the trader's own orders do. -/
def isLocal (x : TransactionDescr) : Bool := x.«from» != [] && x.«to» != []

/-- `hasSecret()`. -/
def hasSecret (x : TransactionDescr) : Bool := x.xPubKey.length == 33

/-- `refundAddress()`: `fromAddr`, or else the address of a largest coin used (the first of
them: `std::sort` leaves the order of equal amounts open), or else empty. -/
def refundAddress (x : TransactionDescr) : String :=
  if x.fromAddr ≠ "" then x.fromAddr
  else match x.usedCoins with
    | [] => ""
    | c :: cs => (cs.foldl (fun best c => if best.amount < c.amount then c else best) c).address

end TransactionDescr

/-! ## What the node answers -/

/-- What a wallet connector answers while one event is handled. -/
structure Connector where
  /-- `lockTime(role)`. -/
  lockTime : Char → Nat
  /-- `acceptableLockTimeDrift(role, lockTime)`. -/
  acceptableLockTimeDrift : Char → Nat → Bool
  /-- `minTxFee1(inputs, outputs)`. -/
  minTxFee1 : Nat → Nat → ℚ
  /-- `minTxFee2(inputs, outputs)`. -/
  minTxFee2 : Nat → Nat → ℚ
  /-- `getKeyId(pubkey)`. -/
  getKeyId : Bytes → Bytes
  /-- `scriptIdToString(getScriptId(script))` of the script `createDepositUnlockScript` builds
  of two keys, a hashed secret and a lock time. -/
  depositP2SH : Bytes → Bytes → Bytes → Nat → String
  /-- `checkDepositTransaction(txid, "", amount, vout, p2sh, ...)`: `none` when the call fails,
  else `isGood`. -/
  checkDepositTransaction : String → ℚ → String → Option Bool
  /-- `createDepositTransaction`: the `binTx` it builds. -/
  createDepositTransaction : Option String
  /-- `getNewAddress`. -/
  getNewAddress : Option String
  /-- `createRefundTransaction` paying an address: the `refTx` it builds. -/
  createRefundTransaction : String → Option String
  /-- `createPaymentTransaction`: the `payTx` it builds. -/
  createPaymentTransaction : Option String
  /-- `getSecretFromPaymentTransaction(payTxId, ..., hashedSecret, ...)`: `none` when the call
  fails, `some none` when the secret is not found. -/
  getSecretFromPaymentTransaction : String → Bytes → Option (Option Bytes)
  /-- `getInfo`: the block count. -/
  getInfo : Option Nat
  /-- `sendRawTransaction(tx)`: success, or the RPC error code. -/
  sendRawTransaction : String → Except Int Unit

/-- What the node answers while one event is handled. -/
structure ClientEnv where
  /-- `microsec_clock::universal_time()`, in microseconds. -/
  now : Int
  /-- `connectorByCurrency(currency)`. -/
  connector : Bytes → Option Connector
  /-- `rpc::storeDataIntoBlockchain(rawFeeTx, txid)`: `none` when it fails, else the id. -/
  storeDataIntoBlockchain : Option Uint256

/-- What a handler does outside the order. -/
inductive Action where
  /-- `sendPacket(hubAddress, reply)`, by the reply's command. -/
  | sendPacket (command : HubCommand)
  /-- `sendAcceptingTransaction`: the `xbcTransactionAccepting` packet. -/
  | sendAccepting
  /-- The broadcast of `sendCancelTransaction`'s packet. -/
  | sendCancel (reason : TxCancelReason)
  /-- `storeDataIntoBlockchain(rawFeeTx)`: the taker's fee. -/
  | storeFee
  /-- `sendRawTransaction(refTx)`. -/
  | refund (refTx : String)
  /-- `sendRawTransaction(payTx)`. -/
  | payment (payTx : String)
  /-- `processLater(txid, packet)`. -/
  | processLater
  | moveTransactionToHistory
  /-- `m_transactions.erase(id)`, or the erase of `flushCancelledOrders`. -/
  | eraseTransaction
  | watchForSpentDeposit
  | unwatchSpentDeposit
  deriving DecidableEq, Repr

/-- What handling an event does outside the order. -/
inductive Effect where
  /-- `sendRawTransaction(binTx)`: the order's own deposit. -/
  | deposit (binTx : String)
  | act (a : Action)
  deriving DecidableEq, Repr

def Effect.isDeposit : Effect → Bool
  | .deposit _ => true
  | .act _ => false

/-- A handler's result whose effects are all actions. -/
def liftActions (r : TransactionDescr × List Action) : TransactionDescr × List Effect :=
  (r.1, r.2.map .act)

/-! ## Packets and events -/

/-- Where `App` keeps an order. -/
inductive Listed where
  /-- `m_transactions`. -/
  | transactions
  /-- `m_historicTransactions`. -/
  | history
  /-- Neither. -/
  | erased
  deriving DecidableEq, Repr

/-- The fields of an `xbcPendingTransaction` packet the handler reads of a known order. -/
structure PendingPacket where
  verified : Bool
  scurrency : Bytes
  dcurrency : Bytes
  created : Int

/-- The fields of an `xbcTransactionCreateA` packet: the taker's key. -/
structure CreateAPacket where
  verified : Bool
  mPubKey : Bytes

/-- The fields of an `xbcTransactionCreateB` packet: the maker's key, deposit, hashed secret and
lock time. -/
structure CreateBPacket where
  verified : Bool
  mPubKey : Bytes
  binATxId : String
  hx : Bytes
  lockTimeA : Nat

/-- The fields of an `xbcTransactionConfirmA` packet: the taker's deposit and lock time. -/
structure ConfirmAPacket where
  verified : Bool
  binTxId : String
  lockTimeB : Nat

/-- The fields of an `xbcTransactionConfirmB` packet: the maker's payment. -/
structure ConfirmBPacket where
  verified : Bool
  payTxId : String

/-- What `acceptXBridgeTransaction` obtains after its state and connector checks: the taker's
addresses as the connectors encode them, the coins it selected and its new key. -/
structure Accepted where
  «from» : Bytes
  «to» : Bytes
  usedCoins : List Coin
  mPubKey : Bytes

/-- What can happen to an order on a trader's node. -/
inductive Event where
  | pendingTransaction (p : PendingPacket)
  /-- `snodeValid`: the packet's servicenode key is valid and listed. -/
  | transactionHold (verified snodeValid : Bool)
  | transactionInit (verified : Bool)
  | transactionCreateA (p : CreateAPacket)
  | transactionCreateB (p : CreateBPacket)
  | transactionConfirmA (p : ConfirmAPacket)
  | transactionConfirmB (p : ConfirmBPacket)
  /-- `verified`: the packet verifies with the servicenode's key or either trader's. -/
  | transactionCancel (verified : Bool)
  | transactionFinished (verified : Bool)
  /-- `acceptXBridgeTransaction(id, fromAddr, toAddr)`: what its later checks obtain, or the
  first failed one's error. -/
  | accept (fromAddr : String) (answer : Except Error Accepted)
  /-- `cancelXBridgeTransaction(id, reason)`. -/
  | cancel (reason : TxCancelReason)
  /-- The timer's `checkAndEraseExpiredTransactions`. -/
  | checkAndEraseExpired
  /-- `flushCancelledOrders(minAge)`. -/
  | flushCancelled (minAge : Int)
  /-- `checkWatchesOnDepositSpends`, with what its scan for the counterparty's payment found:
  `none` when one of the scan's calls fails. -/
  | checkWatches (scan : Option (Option String))

/-! ## Handlers -/

section Handlers

variable (env : ClientEnv)

/-- `redeemOrderDeposit`: the refund of the order's deposit once its lock time has passed; and
whether the order is done with. -/
def redeemOrderDeposit (x : TransactionDescr) : Bool × TransactionDescr × List Action :=
  match env.connector x.fromCurrency with
  | none => (false, x, [])
  | some cf =>
    if x.state < .trCreated then (true, x, [])
    else if x.refTx = "" then (true, x, [])
    -- the refund is not valid before the lock time
    else if cf.getInfo.any (fun blocks => blocks < x.lockTime) then (false, x, [])
    else match cf.sendRawTransaction x.refTx with
      | .ok () => (true, { x with state := .trRollback }, [.refund x.refTx])
      | .error _ => (false, { x with state := .trRollbackFailed }, [.refund x.refTx])

/-- `processTransactionCancel` of a packet that reaches the order. -/
def processTransactionCancel (verified : Bool) (x : TransactionDescr) :
    TransactionDescr × List Action :=
  if !verified then (x, [])
  else if (env.connector x.fromCurrency).isNone then (x, [])
  -- no deposit yet: the order is cancelled and moved to the history
  else if x.state < .trCreated then ({ x with state := .trCancelled }, [.moveTransactionToHistory])
  else if x.state = .trCancelled then (x, [])
  else if !x.depositSent then ({ x with state := .trCancelled }, [])
  else if x.redeemedCounterpartyDeposit then (x, [])
  else if x.refTx = "" then ({ x with state := .trCancelled }, [])
  -- the deposit was sent: roll back, refunding it once its lock time has passed
  else
    let r := redeemOrderDeposit env { x with state := .trRollback }
    (r.2.1, if r.1 then r.2.2 else r.2.2 ++ [.processLater])

/-- `sendCancelTransaction`: the order's own cancel packet is processed at once, then broadcast. -/
def sendCancelTransaction (x : TransactionDescr) (reason : TxCancelReason) :
    TransactionDescr × List Action :=
  let r := processTransactionCancel env true x
  (r.1, r.2 ++ [.sendCancel reason])

/-- `processPendingTransaction` of a packet for a known order, on a node whose exchange is off;
`listed` is where `App` keeps the order. -/
def processPendingTransaction (listed : Listed) (p : PendingPacket) (x : TransactionDescr) :
    TransactionDescr × List Action :=
  if !p.verified then (x, [])
  else if (env.connector p.scurrency).isNone || (env.connector p.dcurrency).isNone then (x, [])
  else if x.state ≠ .trCancelled then
    if .trPending < x.state then (x, [])
    else ({ x with state := if x.state = .trNew then .trPending else x.state, txtime := env.now }, [])
  -- the fresh order built of the packet is dropped by `appendTransaction`, which only updates the
  -- timestamps of the one in `m_transactions`
  else if listed = .transactions then
    ({ x with txtime := env.now, created := min x.created p.created }, [])
  else (x, [])

/-- `processTransactionHold`. -/
def processTransactionHold (verified snodeValid : Bool) (x : TransactionDescr) :
    TransactionDescr × List Action :=
  if !verified then (x, [])
  else if !snodeValid then (x, [])
  else if .trHold ≤ x.state then (x, [])
  -- another trader's order leaves the book
  else if !x.isLocal then ({ x with state := .trFinished }, [.moveTransactionToHistory])
  else if (env.connector x.toCurrency).isNone then (x, [])
  else ({ x with state := .trHold }, [.sendPacket .holdApply])

/-- `processTransactionInit`. Its check that the packet matches the order needs the order's id to
differ from the one it was found by, so it never rejects, and is left out. -/
def processTransactionInit (verified : Bool) (x : TransactionDescr) :
    TransactionDescr × List Action :=
  if !x.isLocal then (x, [])
  else if !verified then (x, [])
  else if .trInitialized ≤ x.state then (x, [])
  -- the taker first broadcasts its fee
  else if x.role = 'B' then
    if (env.connector x.toCurrency).isNone then (x, [])
    else match env.storeDataIntoBlockchain with
      | none =>
        let r := sendCancelTransaction env x .crBlocknetError
        (r.1, .storeFee :: r.2)
      | some txid =>
        if txid = 0 then (x, [.storeFee, .processLater])
        else ({ x with state := .trInitialized }, [.storeFee, .sendPacket .initialized])
  else ({ x with state := .trInitialized }, [.sendPacket .initialized])

/-- The input loop of the create handlers: coins are taken in order, `fee1` recomputed for their
number, until they cover the amount and both fees; the amount taken and the last `fee1`. -/
def takeInputs (minTxFee1 : Nat → Nat → ℚ) (outAmount fee2 : ℚ) :
    List Coin → Nat → ℚ → ℚ → ℚ × ℚ
  | [], _, inAmount, fee1 => (inAmount, fee1)
  | c :: coins, n, inAmount, _ =>
    if outAmount + minTxFee1 (n + 1) 3 + fee2 ≤ inAmount + c.amount then
      (inAmount + c.amount, minTxFee1 (n + 1) 3)
    else takeInputs minTxFee1 outAmount fee2 coins (n + 1) (inAmount + c.amount)
      (minTxFee1 (n + 1) 3)

/-- The funds check of the create handlers: the coins used cover the amount and the fees. -/
def TransactionDescr.coversAmount (cf : Connector) (x : TransactionDescr) : Bool :=
  let outAmount : ℚ := x.fromAmount / TransactionDescr.COIN
  let fee2 := cf.minTxFee2 1 1
  let r := takeInputs cf.minTxFee1 outAmount fee2 x.usedCoins 0 0 0
  !(r.1 < outAmount + r.2 + fee2)

/-- The deposit and the refund the create handlers build; `false` when the wallet fails to build
one, and the handler then cancels. -/
def createDepositAndRefund (cf : Connector) (x : TransactionDescr) : TransactionDescr × Bool :=
  match cf.createDepositTransaction with
  | none => (x, false)
  | some binTx =>
    let x := { x with binTx }
    -- the refund pays the refund address, or a new one when there is none
    let addr := if x.refundAddress = "" then cf.getNewAddress else some x.refundAddress
    match addr.bind cf.createRefundTransaction with
    | none => (x, false)
    | some refTx => ({ x with refTx }, true)

/-- The end of both create handlers: the order is `trCreated` and its deposit marked sent before
`sendRawTransaction(binTx)`; when that fails the mark is taken back and the order cancelled. -/
def sendDeposit (cf : Connector) (x : TransactionDescr) (onSent : List Action) :
    TransactionDescr × List Effect :=
  let y := { x with state := .trCreated, depositSent := true }
  match cf.sendRawTransaction y.binTx with
  | .ok () => (y, .deposit y.binTx :: onSent.map .act)
  | .error _ =>
    let r := sendCancelTransaction env { y with depositSent := false } .crRpcError
    (r.1, .deposit y.binTx :: r.2.map .act)

/-- `processTransactionCreateA`: the maker's deposit. -/
def processTransactionCreateA (p : CreateAPacket) (x : TransactionDescr) :
    TransactionDescr × List Effect :=
  if !x.isLocal then (x, [])
  else if !p.verified then (x, [])
  else if x.role ≠ 'A' then (x, [])
  else if .trCreated ≤ x.state then (x, [])
  else match env.connector x.fromCurrency, env.connector x.toCurrency with
    | some cf, some ct =>
      if !x.coversAmount cf then liftActions (sendCancelTransaction env x .crNoMoney)
      else
        let x := { x with lockTime := cf.lockTime x.role, opponentLockTime := ct.lockTime 'B' }
        if x.lockTime = 0 ∨ x.opponentLockTime = 0 then
          liftActions (sendCancelTransaction env x .crRpcError)
        else match createDepositAndRefund cf { x with oPubKey := p.mPubKey } with
          | (x, false) => liftActions (sendCancelTransaction env x .crRpcError)
          | (x, true) => sendDeposit env cf x [.sendPacket .createdA]
    | _, _ => liftActions (sendCancelTransaction env x .crRpcError)

/-- `processTransactionCreateB`: the taker's deposit, once the maker's is checked. -/
def processTransactionCreateB (p : CreateBPacket) (x : TransactionDescr) :
    TransactionDescr × List Effect :=
  if !x.isLocal then (x, [])
  else if !p.verified then (x, [])
  else if .trCreated ≤ x.state then (x, [])
  else if p.binATxId = "" then liftActions (sendCancelTransaction env x .crBadADepositTx)
  else if x.role ≠ 'B' then (x, [])
  else if x.xPubKey ≠ [] then (x, [])
  else match env.connector x.fromCurrency, env.connector x.toCurrency with
    | some cf, some ct =>
      -- the maker's lock time, then its deposit to the script of both keys
      if p.lockTimeA = 0 ∨ !ct.acceptableLockTimeDrift 'A' p.lockTimeA then
        liftActions (sendCancelTransaction env x .crBadADepositTx)
      else
        let x := { x with oHashedSecret := p.hx, lockTime := cf.lockTime 'B',
                          opponentLockTime := p.lockTimeA }
        match ct.checkDepositTransaction p.binATxId (x.toAmount / TransactionDescr.COIN)
            (ct.depositP2SH p.mPubKey x.mPubKey x.oHashedSecret x.opponentLockTime) with
        | none => (x, [.act .processLater])
        | some false => liftActions (sendCancelTransaction env x .crBadADepositTx)
        | some true =>
          if !x.coversAmount cf then liftActions (sendCancelTransaction env x .crNoMoney)
          else match createDepositAndRefund cf { x with oPubKey := p.mPubKey } with
            | (x, false) => liftActions (sendCancelTransaction env x .crRpcError)
            | (x, true) =>
              if cf.getInfo.isNone then liftActions (sendCancelTransaction env x .crRpcError)
              else sendDeposit env cf x [.watchForSpentDeposit, .sendPacket .createdB]
    | _, _ => liftActions (sendCancelTransaction env x .crRpcError)

/-- The secret of the swap, when the order does not have it yet, as
`getSecretFromPaymentTransaction` finds it in the counterparty's payment; the watch for that
payment then ends. -/
def findSecret (cf : Connector) (x : TransactionDescr) : Option (TransactionDescr × List Action) :=
  if x.hasSecret then some (x, [])
  else match cf.getSecretFromPaymentTransaction x.oPayTxId x.oHashedSecret with
    | some (some secret) =>
      some ({ x with xPubKey := secret, watchingDone := true }, [.unwatchSpentDeposit])
    | _ => none

/-- `redeemOrderCounterpartyDeposit`: the payment of the counterparty's deposit to the trader,
with the secret found in the counterparty's payment when it is not known yet. -/
def redeemOrderCounterpartyDeposit (x : TransactionDescr) :
    Except Int Unit × TransactionDescr × List Action :=
  match env.connector x.fromCurrency, env.connector x.toCurrency with
  | some cf, some ct =>
    match findSecret cf x with
    | none => (.error 0, x, [])
    | some (y, acts) =>
      match ct.createPaymentTransaction with
      | none => (.error 0, y, acts)
      | some payTx =>
        let y := { y with payTx }
        match ct.sendRawTransaction payTx with
        | .ok () => (.ok (), { y with redeemedCounterpartyDeposit := true }, acts ++ [.payment payTx])
        | .error code =>
          -- a payment already in the chain counts as made
          if code = RPC_VERIFY_ALREADY_IN_CHAIN then
            (.ok (), { y with redeemedCounterpartyDeposit := true }, acts ++ [.payment payTx])
          else (.error code, y, acts ++ [.payment payTx])
  | _, _ => (.error 0, x, [])

/-- `processTransactionConfirmA`: the maker checks the taker's deposit and takes it. -/
def processTransactionConfirmA (p : ConfirmAPacket) (x : TransactionDescr) :
    TransactionDescr × List Action :=
  if !x.isLocal then (x, [])
  else if !p.verified then (x, [])
  else if .trCommited ≤ x.state then (x, [])
  else if x.role ≠ 'A' then (x, [])
  else match env.connector x.fromCurrency, env.connector x.toCurrency with
    | some _, some ct =>
      if p.lockTimeB = 0 ∨ !ct.acceptableLockTimeDrift 'B' p.lockTimeB then
        sendCancelTransaction env x .crBadBDepositTx
      else
        let x := { x with opponentLockTime := p.lockTimeB }
        match ct.checkDepositTransaction p.binTxId (x.toAmount / TransactionDescr.COIN)
            (ct.depositP2SH x.oPubKey x.mPubKey (ct.getKeyId x.xPubKey) x.opponentLockTime) with
        | none => (x, [.processLater])
        | some false => sendCancelTransaction env x .crBadBDepositTx
        | some true =>
          match redeemOrderCounterpartyDeposit env x with
          | (.ok (), y, acts) => ({ y with state := .trCommited }, acts ++ [.sendPacket .confirmedA])
          | (.error code, y, acts) =>
            -- the taker's deposit is not in the chain yet
            if code = RPC_VERIFY_ERROR then (y, acts ++ [.processLater])
            else
              let r := sendCancelTransaction env y .crRpcError
              (r.1, acts ++ r.2)
    | _, _ => sendCancelTransaction env x .crRpcError

/-- The maker's payment id an `xbcTransactionConfirmB` packet carries, taken from the first
two packets only (`setOtherPayTxId`, `tryOtherPayTx`) while the watch goes on. -/
def tryOtherPayTx (payTxId : String) (x : TransactionDescr) : TransactionDescr :=
  if x.oPayTxTries < 2 && !x.watchingDone then
    { x with oPayTxId := payTxId, oPayTxTries := x.oPayTxTries + 1 }
  else x

@[simp] theorem tryOtherPayTx_state (payTxId : String) (x : TransactionDescr) :
    (tryOtherPayTx payTxId x).state = x.state := by
  unfold tryOtherPayTx
  split_ifs <;> rfl

/-- `processTransactionConfirmB`: the taker takes the maker's deposit. -/
def processTransactionConfirmB (p : ConfirmBPacket) (x : TransactionDescr) :
    TransactionDescr × List Action :=
  if !x.isLocal then (x, [])
  else if !p.verified then (x, [])
  else if .trCommited ≤ x.state then (x, [])
  else
    let x := tryOtherPayTx p.payTxId x
    if (env.connector x.fromCurrency).isNone || (env.connector x.toCurrency).isNone then
      (x, [.processLater])
    else match redeemOrderCounterpartyDeposit env x with
      | (.ok (), y, acts) => ({ y with state := .trCommited }, acts ++ [.sendPacket .confirmedB])
      | (.error _, y, acts) => (y, acts ++ [.processLater])

/-- `processTransactionFinished`. -/
def processTransactionFinished (verified : Bool) (x : TransactionDescr) :
    TransactionDescr × List Action :=
  if !verified then (x, []) else ({ x with state := .trFinished }, [.moveTransactionToHistory])

/-- `acceptXBridgeTransaction` of an order in `m_transactions`. The source sets `trAccepting`
first and restores the state it found on every failure. -/
def acceptXBridgeTransaction (fromAddr : String) (answer : Except Error Accepted)
    (x : TransactionDescr) : Error × TransactionDescr × List Action :=
  if .trAccepting ≤ x.state then (.BAD_REQUEST, x, [])
  else if (env.connector x.fromCurrency).isNone || (env.connector x.toCurrency).isNone then
    (.NO_SESSION, x, [])
  else match answer with
    | .error e => (e, x, [])
    | .ok a =>
      (.SUCCESS, { x with state := .trAccepting, fromAddr, «from» := a.«from», «to» := a.«to»,
                          role := 'B', usedCoins := a.usedCoins, mPubKey := a.mPubKey },
        [.sendAccepting])

/-- `cancelXBridgeTransaction` of a known order. -/
def cancelXBridgeTransaction (reason : TxCancelReason) (x : TransactionDescr) :
    Error × TransactionDescr × List Action :=
  if !x.isLocal then (.TRANSACTION_NOT_FOUND, x, [])
  else if .trCreated < x.state then (.INVALID_STATE, x, [])
  else if (env.connector x.fromCurrency).isNone then (.NO_SESSION, x, [])
  else
    let r := sendCancelTransaction env x reason
    (.SUCCESS, r.1, r.2)

/-- `checkAndEraseExpiredTransactions` of an order in `m_transactions`: orders nobody takes go
offline or expire, come back while the servicenode still announces them, and are erased in
the end. -/
def checkAndEraseExpiredTransactions (x : TransactionDescr) : TransactionDescr × List Action :=
  let td := totalSeconds (env.now - x.txtime)
  let tc := totalSeconds (env.now - x.created)
  if x.state = .trNew ∧ pendingTTL < td then ({ x with state := .trOffline }, [])
  else if x.state = .trPending ∧ pendingTTL < td then ({ x with state := .trExpired }, [])
  else if (x.state = .trExpired ∨ x.state = .trOffline) ∧ td < pendingTTL then
    ({ x with state := .trPending }, [])
  else if (x.state = .trExpired ∨ x.state = .trOffline) ∧ TTL < td then (x, [.eraseTransaction])
  else if x.state = .trPending ∧ deadlineTTL < tc then (x, [.eraseTransaction])
  else (x, [])

/-- `flushCancelledOrders(minAge)`: cancelled orders older than `minAge` are erased. -/
def flushCancelledOrders (minAge : Int) (x : TransactionDescr) : TransactionDescr × List Action :=
  if x.state = .trCancelled ∧ x.txtime < env.now - minAge then (x, [.eraseTransaction])
  else (x, [])

/-- The scan of the watch loop, which looks for the counterparty's payment spending the deposit
while the secret is not known: `none` when one of its calls fails; a payment found is recorded
and ends the watch. -/
def scanForPayment (scan : Option (Option String)) (x : TransactionDescr) :
    Option TransactionDescr :=
  if x.hasSecret then some x
  else match scan with
    | none => none
    | some none => some x
    | some (some payTxId) => some { x with oPayTxId := payTxId, watchingDone := true }

/-- The watch loop's refund, once the deposit's lock time has passed; whether it is done. -/
def redeemExpiredDeposit (blocks : Nat) (x : TransactionDescr) :
    Bool × TransactionDescr × List Action :=
  if x.lockTime ≤ blocks then redeemOrderDeposit env x else (false, x, [])

/-- The watch loop's payment of the counterparty's deposit, once the payment revealing the
secret was found; whether it is done. -/
def redeemFoundPayment (x : TransactionDescr) : Bool × TransactionDescr × List Action :=
  if x.watchingDone && !x.redeemedCounterpartyDeposit then
    let r := redeemOrderCounterpartyDeposit env x
    (r.1.isOk, r.2)
  else (false, x, [])

/-- `checkWatchesOnDepositSpends` of a watched order. -/
def checkWatchesOnDepositSpends (scan : Option (Option String)) (x : TransactionDescr) :
    TransactionDescr × List Action :=
  match env.connector x.fromCurrency with
  | none => (x, [])
  | some cf =>
    match cf.getInfo with
    | none => (x, [])
    | some blocks =>
      match scanForPayment scan x with
      | none => (x, [])
      | some x =>
        let r1 := redeemExpiredDeposit env blocks x
        let r2 := redeemFoundPayment env r1.2.1
        if r1.1 || r2.1 then
          ({ r2.2.1 with watchingDone := true }, r1.2.2 ++ r2.2.2 ++ [.unwatchSpentDeposit])
        else (r2.2.1, r1.2.2 ++ r2.2.2)

end Handlers

/-! ## The order on the node -/

/-- An order on a trader's node, where `App` keeps it, and whether it is in `m_watchDeposits`. -/
structure ClientOrder where
  descr : TransactionDescr
  listed : Listed
  watched : Bool

namespace ClientOrder

/-- What an action does to where `App` keeps the order. -/
def record (o : ClientOrder) : Effect → ClientOrder
  | .act .moveTransactionToHistory =>
    if o.listed = .transactions then { o with listed := .history } else o
  | .act .eraseTransaction => { o with listed := .erased }
  | .act .watchForSpentDeposit => { o with watched := true }
  | .act .unwatchSpentDeposit => { o with watched := false }
  | _ => o

/-- A handler, run when `App` still holds the order (`xapp.transaction(id)`). -/
def found (o : ClientOrder) (f : TransactionDescr → TransactionDescr × List Effect) :
    TransactionDescr × List Effect :=
  if o.listed = .erased then (o.descr, []) else f o.descr

/-- How an event reaches the order: a packet or a call by its id, `acceptXBridgeTransaction` and
the timer through `m_transactions`, the watch loop through `m_watchDeposits`. -/
def handle (env : ClientEnv) (o : ClientOrder) : Event → TransactionDescr × List Effect
  | .pendingTransaction p => o.found fun x => liftActions (processPendingTransaction env o.listed p x)
  | .transactionHold verified snodeValid =>
    o.found fun x => liftActions (processTransactionHold env verified snodeValid x)
  | .transactionInit verified => o.found fun x => liftActions (processTransactionInit env verified x)
  | .transactionCreateA p => o.found (processTransactionCreateA env p)
  | .transactionCreateB p => o.found (processTransactionCreateB env p)
  | .transactionConfirmA p => o.found fun x => liftActions (processTransactionConfirmA env p x)
  | .transactionConfirmB p => o.found fun x => liftActions (processTransactionConfirmB env p x)
  | .transactionCancel verified =>
    o.found fun x => liftActions (processTransactionCancel env verified x)
  | .transactionFinished verified =>
    o.found fun x => liftActions (processTransactionFinished verified x)
  | .accept fromAddr answer =>
    if o.listed = .transactions then
      liftActions (acceptXBridgeTransaction env fromAddr answer o.descr).2
    else (o.descr, [])
  | .cancel reason => o.found fun x => liftActions (cancelXBridgeTransaction env reason x).2
  | .checkAndEraseExpired =>
    if o.listed = .transactions then liftActions (checkAndEraseExpiredTransactions env o.descr)
    else (o.descr, [])
  | .flushCancelled minAge => o.found fun x => liftActions (flushCancelledOrders env minAge x)
  | .checkWatches scan =>
    if o.watched then liftActions (checkWatchesOnDepositSpends env scan o.descr)
    else (o.descr, [])

/-- One event: the order as the handler leaves it, kept where its actions put it. -/
def step (o : ClientOrder) (ee : ClientEnv × Event) : ClientOrder × List Effect :=
  let r := o.handle ee.1 ee.2
  ({ r.2.foldl record o with descr := r.1 }, r.2)

/-- A run of events, with everything they did outside the order. -/
def run (o : ClientOrder) (events : List (ClientEnv × Event)) : ClientOrder × List Effect :=
  runOutputs step o events

@[simp] theorem step_descr (o : ClientOrder) (ee : ClientEnv × Event) :
    (o.step ee).1.descr = (o.handle ee.1 ee.2).1 := rfl

@[simp] theorem step_snd (o : ClientOrder) (ee : ClientEnv × Event) :
    (o.step ee).2 = (o.handle ee.1 ee.2).2 := rfl

end ClientOrder

/-! ## States at `trCreated` and above are kept -/

section Kept

variable {env : ClientEnv}

/-- `y` has `x`'s state, or one at `trCreated` or above. -/
def StateKept (x y : TransactionDescr) : Prop := y.state = x.state ∨ .trCreated ≤ y.state

theorem StateKept.refl (x : TransactionDescr) : StateKept x x := .inl rfl

theorem StateKept.trans {x y z : TransactionDescr} (hxy : StateKept x y) (hyz : StateKept y z) :
    StateKept x z := by
  rcases hyz with hz | hz
  · rw [StateKept, hz]
    exact hxy
  · exact .inr hz

theorem StateKept.of_state_eq {x y z : TransactionDescr} (hxy : y.state = x.state)
    (hyz : StateKept y z) : StateKept x z :=
  StateKept.trans (.inl hxy) hyz

/-- A handler that writes a state at `trCreated` or above. -/
theorem StateKept.of_created {x y : TransactionDescr} (s : TransactionDescr.State)
    (hy : y.state = s) (hs : .trCreated ≤ s) : StateKept x y :=
  .inr (hy ▸ hs)

theorem StateKept.created {x y : TransactionDescr} (h : StateKept x y)
    (hx : .trCreated ≤ x.state) : .trCreated ≤ y.state := by
  rcases h with h | h
  · rw [h]
    exact hx
  · exact h

/-- Each branch of a check keeps the state, so the check does. -/
theorem StateKept.ite {α : Type} {c : Prop} [Decidable c] {x : TransactionDescr}
    {a b : TransactionDescr × α} (ha : StateKept x a.1) (hb : StateKept x b.1) :
    StateKept x (if c then a else b).1 := by
  split
  · exact ha
  · exact hb

theorem redeemOrderDeposit_state (x : TransactionDescr) :
    StateKept x (redeemOrderDeposit env x).2.1 := by
  unfold redeemOrderDeposit
  split
  · exact .refl x
  · split_ifs
    · exact .refl x
    · exact .refl x
    · exact .refl x
    · split <;> exact .inr (by simp)

/-- A cancel leaves the state as it is, or ends at `trCreated` or above: `trCancelled`,
`trRollback` or `trRollbackFailed`. -/
theorem processTransactionCancel_state (verified : Bool) (x : TransactionDescr) :
    StateKept x (processTransactionCancel env verified x).1 := by
  unfold processTransactionCancel
  apply StateKept.ite (.refl x)
  apply StateKept.ite (.refl x)
  apply StateKept.ite (.of_created .trCancelled rfl (by decide))
  apply StateKept.ite (.refl x)
  apply StateKept.ite (.of_created .trCancelled rfl (by decide))
  apply StateKept.ite (.refl x)
  apply StateKept.ite (.of_created .trCancelled rfl (by decide))
  -- the rollback starts at `trRollback`, and the refund keeps the order at or above it
  exact .inr ((redeemOrderDeposit_state _).created
    (by decide : TransactionDescr.State.trCreated ≤ .trRollback))

theorem sendCancelTransaction_state (x : TransactionDescr) (reason : TxCancelReason) :
    StateKept x (sendCancelTransaction env x reason).1 :=
  processTransactionCancel_state true x

theorem findSecret_state {cf : Connector} {x y : TransactionDescr} {acts : List Action}
    (h : findSecret cf x = some (y, acts)) : y.state = x.state := by
  unfold findSecret at h
  split_ifs at h
  · cases h
    rfl
  · split at h
    · cases h
      rfl
    · cases h

theorem redeemOrderCounterpartyDeposit_state {x y : TransactionDescr} {r : Except Int Unit}
    {acts : List Action} (h : redeemOrderCounterpartyDeposit env x = (r, y, acts)) :
    y.state = x.state := by
  rw [← show (redeemOrderCounterpartyDeposit env x).2.1 = y from by rw [h]]
  unfold redeemOrderCounterpartyDeposit
  split
  · split
    · rfl
    · rename_i hfound
      have hy := findSecret_state hfound
      split
      · exact hy
      · split
        · exact hy
        · split_ifs <;> exact hy
  · rfl

theorem scanForPayment_state {scan : Option (Option String)} {x y : TransactionDescr}
    (h : scanForPayment scan x = some y) : y.state = x.state := by
  unfold scanForPayment at h
  split_ifs at h
  · cases h
    rfl
  · split at h
    · cases h
    · cases h
      rfl
    · cases h
      rfl

theorem redeemExpiredDeposit_state (blocks : Nat) (x : TransactionDescr) :
    StateKept x (redeemExpiredDeposit env blocks x).2.1 := by
  unfold redeemExpiredDeposit
  split_ifs
  · exact redeemOrderDeposit_state x
  · exact .refl x

theorem redeemFoundPayment_state (x : TransactionDescr) :
    (redeemFoundPayment env x).2.1.state = x.state := by
  unfold redeemFoundPayment
  split_ifs
  · exact redeemOrderCounterpartyDeposit_state rfl
  · rfl

theorem checkWatchesOnDepositSpends_state (scan : Option (Option String)) (x : TransactionDescr) :
    StateKept x (checkWatchesOnDepositSpends env scan x).1 := by
  unfold checkWatchesOnDepositSpends
  split
  · exact .refl x
  · split
    · exact .refl x
    · split
      · exact .refl x
      · rename_i blocks _ _ y hscan
        -- the refund may move the state on; the payment and the end of the watch keep it
        have hkept : StateKept x (redeemFoundPayment env (redeemExpiredDeposit env blocks y).2.1).2.1 :=
          .of_state_eq (scanForPayment_state hscan)
            ((redeemExpiredDeposit_state blocks y).trans (.inl (redeemFoundPayment_state _)))
        dsimp only
        split_ifs
        · exact hkept
        · exact hkept

theorem processTransactionConfirmA_state (p : ConfirmAPacket) (x : TransactionDescr) :
    StateKept x (processTransactionConfirmA env p x).1 := by
  unfold processTransactionConfirmA
  apply StateKept.ite (.refl x)
  apply StateKept.ite (.refl x)
  apply StateKept.ite (.refl x)
  apply StateKept.ite (.refl x)
  split
  · apply StateKept.ite (sendCancelTransaction_state x _)
    dsimp only
    split
    · exact .inl rfl
    · exact .of_state_eq rfl (sendCancelTransaction_state _ _)
    · split
      · exact .inr (by simp)
      · rename_i hredeem
        have hy := redeemOrderCounterpartyDeposit_state hredeem
        apply StateKept.ite (.inl hy)
        exact .of_state_eq hy (sendCancelTransaction_state _ .crRpcError)
  · exact sendCancelTransaction_state x _

theorem processTransactionConfirmB_state (p : ConfirmBPacket) (x : TransactionDescr) :
    StateKept x (processTransactionConfirmB env p x).1 := by
  unfold processTransactionConfirmB
  apply StateKept.ite (.refl x)
  apply StateKept.ite (.refl x)
  apply StateKept.ite (.refl x)
  dsimp only
  apply StateKept.ite (.inl (tryOtherPayTx_state _ x))
  split
  · exact .inr (by simp)
  · rename_i hredeem
    exact .inl ((redeemOrderCounterpartyDeposit_state hredeem).trans (tryOtherPayTx_state _ x))

theorem processTransactionFinished_state (verified : Bool) (x : TransactionDescr) :
    StateKept x (processTransactionFinished verified x).1 := by
  unfold processTransactionFinished
  split_ifs
  · exact .refl x
  · exact .inr (by simp)

theorem cancelXBridgeTransaction_state (reason : TxCancelReason) (x : TransactionDescr) :
    StateKept x (cancelXBridgeTransaction env reason x).2.1 := by
  unfold cancelXBridgeTransaction
  split_ifs
  · exact .refl x
  · exact .refl x
  · exact .refl x
  · exact sendCancelTransaction_state x reason

theorem flushCancelledOrders_fst (minAge : Int) (x : TransactionDescr) :
    (flushCancelledOrders env minAge x).1 = x := by
  unfold flushCancelledOrders
  split_ifs <;> rfl

/-! The handlers that move an order on below `trCreated` check its state first. -/

theorem processPendingTransaction_of_created {listed : Listed} {p : PendingPacket}
    {x : TransactionDescr} (h : .trCreated ≤ x.state) :
    (processPendingTransaction env listed p x).1.state = x.state := by
  unfold processPendingTransaction
  split
  · rfl
  split
  · rfl
  split
  -- an order at `trCreated` or above is past `trPending`
  · rw [if_pos (TransactionDescr.State.lt_of_lt_of_le (by decide) h)]
  split
  · rfl
  · rfl

theorem processTransactionHold_of_le {verified snodeValid : Bool} {x : TransactionDescr}
    (h : .trHold ≤ x.state) : processTransactionHold env verified snodeValid x = (x, []) := by
  simp only [processTransactionHold, if_pos h, ite_self]

theorem processTransactionInit_of_le {verified : Bool} {x : TransactionDescr}
    (h : .trInitialized ≤ x.state) : processTransactionInit env verified x = (x, []) := by
  simp only [processTransactionInit, if_pos h, ite_self]

theorem processTransactionCreateA_of_created {p : CreateAPacket} {x : TransactionDescr}
    (h : .trCreated ≤ x.state) : processTransactionCreateA env p x = (x, []) := by
  simp only [processTransactionCreateA, if_pos h, ite_self]

theorem processTransactionCreateB_of_created {p : CreateBPacket} {x : TransactionDescr}
    (h : .trCreated ≤ x.state) : processTransactionCreateB env p x = (x, []) := by
  simp only [processTransactionCreateB, if_pos h, ite_self]

theorem acceptXBridgeTransaction_of_le {fromAddr : String} {answer : Except Error Accepted}
    {x : TransactionDescr} (h : .trAccepting ≤ x.state) :
    acceptXBridgeTransaction env fromAddr answer x = (.BAD_REQUEST, x, []) := by
  unfold acceptXBridgeTransaction
  rw [if_pos h]

/-- A failed accept leaves the order as it was: every check restores the state it found. -/
theorem acceptXBridgeTransaction_error {fromAddr : String} {answer : Except Error Accepted}
    {x : TransactionDescr} (h : (acceptXBridgeTransaction env fromAddr answer x).1 ≠ .SUCCESS) :
    (acceptXBridgeTransaction env fromAddr answer x).2 = (x, []) := by
  unfold acceptXBridgeTransaction at h ⊢
  split_ifs at h ⊢
  · rfl
  · rfl
  · cases answer with
    | error e => rfl
    | ok a => exact absurd rfl h

/-- The timer only moves orders that are new, pending, expired or offline. -/
theorem checkAndEraseExpiredTransactions_of_created {x : TransactionDescr}
    (h : .trCreated ≤ x.state) : checkAndEraseExpiredTransactions env x = (x, []) := by
  have hne : x.state ≠ .trNew ∧ x.state ≠ .trPending ∧ x.state ≠ .trExpired ∧
      x.state ≠ .trOffline := by
    refine ⟨?_, ?_, ?_, ?_⟩ <;>
    · intro hs
      rw [hs] at h
      exact absurd h (by decide)
  unfold checkAndEraseExpiredTransactions
  simp [hne]

end Kept

/-! ## The deposit -/

/-- The taker's checks of the maker's deposit before its own, in `processTransactionCreateB`: the
maker's lock time is set and within the drift the `to` connector accepts, and that connector
reports the maker's transaction a good deposit to the script of both keys, the hashed secret and
that lock time. -/
def CounterpartyDepositChecked (env : ClientEnv) (x : TransactionDescr) (p : CreateBPacket) :
    Prop :=
  ∃ ct, env.connector x.toCurrency = some ct ∧ p.lockTimeA ≠ 0 ∧
    ct.acceptableLockTimeDrift 'A' p.lockTimeA = true ∧
    ct.checkDepositTransaction p.binATxId (x.toAmount / TransactionDescr.COIN)
      (ct.depositP2SH p.mPubKey x.mPubKey p.hx p.lockTimeA) = some true

/-- When an event may send the order's deposit: the order is the trader's own and below
`trCreated`, the event is the create packet of its role, and the taker has checked the maker's
deposit. -/
def DepositAllowed (env : ClientEnv) (x : TransactionDescr) (e : Event) : Prop :=
  x.isLocal ∧ x.state < .trCreated ∧
    ((x.role = 'A' ∧ ∃ p, e = .transactionCreateA p) ∨
      (x.role = 'B' ∧ ∃ p, e = .transactionCreateB p ∧ CounterpartyDepositChecked env x p))

section Deposit

variable {env : ClientEnv}

@[simp] theorem countP_map_act (l : List Action) :
    (l.map Effect.act).countP Effect.isDeposit = 0 := by
  simp [List.countP_map, Function.comp_def, Effect.isDeposit]

@[simp] theorem countP_liftActions (r : TransactionDescr × List Action) :
    (liftActions r).2.countP Effect.isDeposit = 0 :=
  countP_map_act r.2

theorem sendDeposit_created (cf : Connector) (x : TransactionDescr) (onSent : List Action) :
    .trCreated ≤ (sendDeposit env cf x onSent).1.state := by
  unfold sendDeposit
  dsimp only
  split
  · simp
  -- a failed send cancels from `trCreated`
  · dsimp only
    exact (sendCancelTransaction_state _ _).created (by simp)

theorem countP_sendDeposit (cf : Connector) (x : TransactionDescr) (onSent : List Action) :
    (sendDeposit env cf x onSent).2.countP Effect.isDeposit = 1 := by
  unfold sendDeposit
  dsimp only
  split <;> rw [List.countP_cons, countP_map_act] <;> rfl

/-- The maker's create handler sends no deposit, or one, for its own order below `trCreated`,
which it leaves at `trCreated` or above. -/
theorem processTransactionCreateA_cases {p : CreateAPacket} {x : TransactionDescr}
    {r : TransactionDescr × List Effect} (hr : processTransactionCreateA env p x = r) :
    r.2.countP Effect.isDeposit = 0 ∨
      (x.isLocal ∧ x.state < .trCreated ∧ x.role = 'A' ∧ r.2.countP Effect.isDeposit = 1 ∧
        .trCreated ≤ r.1.state) := by
  unfold processTransactionCreateA at hr
  -- the checks that return at once
  by_cases hlocal : (!x.isLocal) = true
  · rw [if_pos hlocal] at hr
    subst hr
    exact .inl rfl
  rw [if_neg hlocal] at hr
  by_cases hverified : (!p.verified) = true
  · rw [if_pos hverified] at hr
    subst hr
    exact .inl rfl
  rw [if_neg hverified] at hr
  by_cases hrole : x.role ≠ 'A'
  · rw [if_pos hrole] at hr
    subst hr
    exact .inl rfl
  rw [if_neg hrole] at hr
  by_cases hstate : TransactionDescr.State.trCreated ≤ x.state
  · rw [if_pos hstate] at hr
    subst hr
    exact .inl rfl
  rw [if_neg hstate] at hr
  split at hr
  · split at hr
    · subst hr
      exact .inl (countP_liftActions _)
    · dsimp only at hr
      split at hr
      · subst hr
        exact .inl (countP_liftActions _)
      · split at hr
        · subst hr
          exact .inl (countP_liftActions _)
        -- the one branch that sends the deposit
        · subst hr
          exact .inr ⟨by simpa using hlocal, by simpa using hstate, not_not.mp hrole,
            countP_sendDeposit _ _ _, sendDeposit_created _ _ _⟩
  · subst hr
    exact .inl (countP_liftActions _)

/-- The taker's create handler sends no deposit, or one, for its own order below `trCreated` once
it has checked the maker's deposit; it then leaves the order at `trCreated` or above. -/
theorem processTransactionCreateB_cases {p : CreateBPacket} {x : TransactionDescr}
    {r : TransactionDescr × List Effect} (hr : processTransactionCreateB env p x = r) :
    r.2.countP Effect.isDeposit = 0 ∨
      (x.isLocal ∧ x.state < .trCreated ∧ x.role = 'B' ∧ CounterpartyDepositChecked env x p ∧
        r.2.countP Effect.isDeposit = 1 ∧ .trCreated ≤ r.1.state) := by
  unfold processTransactionCreateB at hr
  -- the checks that return at once
  by_cases hlocal : (!x.isLocal) = true
  · rw [if_pos hlocal] at hr
    subst hr
    exact .inl rfl
  rw [if_neg hlocal] at hr
  by_cases hverified : (!p.verified) = true
  · rw [if_pos hverified] at hr
    subst hr
    exact .inl rfl
  rw [if_neg hverified] at hr
  by_cases hstate : TransactionDescr.State.trCreated ≤ x.state
  · rw [if_pos hstate] at hr
    subst hr
    exact .inl rfl
  rw [if_neg hstate] at hr
  by_cases htxid : p.binATxId = ""
  · rw [if_pos htxid] at hr
    subst hr
    exact .inl (countP_liftActions _)
  rw [if_neg htxid] at hr
  by_cases hrole : x.role ≠ 'B'
  · rw [if_pos hrole] at hr
    subst hr
    exact .inl rfl
  rw [if_neg hrole] at hr
  by_cases hsecret : x.xPubKey ≠ []
  · rw [if_pos hsecret] at hr
    subst hr
    exact .inl rfl
  rw [if_neg hsecret] at hr
  split at hr
  · rename_i cf ct _ hct
    split at hr
    · subst hr
      exact .inl (countP_liftActions _)
    · rename_i hlock
      dsimp only at hr
      split at hr
      · subst hr
        exact .inl rfl
      · subst hr
        exact .inl (countP_liftActions _)
      · rename_i hcheck
        split at hr
        · subst hr
          exact .inl (countP_liftActions _)
        · split at hr
          · subst hr
            exact .inl (countP_liftActions _)
          · split at hr
            · subst hr
              exact .inl (countP_liftActions _)
            -- the one branch that sends the deposit, past the checks of the maker's
            · subst hr
              obtain ⟨hlock0, hdrift⟩ :
                  p.lockTimeA ≠ 0 ∧ ct.acceptableLockTimeDrift 'A' p.lockTimeA = true := by
                simpa using hlock
              exact .inr ⟨by simpa using hlocal, by simpa using hstate, not_not.mp hrole,
                ⟨ct, hct, hlock0, hdrift, hcheck⟩, countP_sendDeposit _ _ _,
                sendDeposit_created _ _ _⟩
  · subst hr
    exact .inl (countP_liftActions _)

end Deposit

namespace ClientOrder

variable {env : ClientEnv}

theorem found_created {o : ClientOrder} {f : TransactionDescr → TransactionDescr × List Effect}
    (h : .trCreated ≤ o.descr.state) (hf : .trCreated ≤ (f o.descr).1.state) :
    .trCreated ≤ (o.found f).1.state := by
  unfold found
  split_ifs
  · exact h
  · exact hf

theorem found_countP {o : ClientOrder} {f : TransactionDescr → TransactionDescr × List Effect}
    (hf : ∀ x, (f x).2.countP Effect.isDeposit = 0) :
    (o.found f).2.countP Effect.isDeposit = 0 := by
  unfold found
  split_ifs
  · rfl
  · exact hf o.descr

/-- No event takes an order at `trCreated` or above back below it. -/
theorem handle_created {o : ClientOrder} (e : Event) (h : .trCreated ≤ o.descr.state) :
    .trCreated ≤ (o.handle env e).1.state := by
  have hhold : TransactionDescr.State.trHold ≤ o.descr.state :=
    TransactionDescr.State.le_trans (by decide) h
  have hinit : TransactionDescr.State.trInitialized ≤ o.descr.state :=
    TransactionDescr.State.le_trans (by decide) h
  have haccept : TransactionDescr.State.trAccepting ≤ o.descr.state :=
    TransactionDescr.State.le_trans (by decide) h
  cases e with
  | pendingTransaction p =>
    refine found_created h ?_
    rw [liftActions, processPendingTransaction_of_created h]
    exact h
  | transactionHold verified snodeValid =>
    refine found_created h ?_
    rw [processTransactionHold_of_le hhold]
    exact h
  | transactionInit verified =>
    refine found_created h ?_
    rw [processTransactionInit_of_le hinit]
    exact h
  | transactionCreateA p =>
    refine found_created h ?_
    rw [processTransactionCreateA_of_created h]
    exact h
  | transactionCreateB p =>
    refine found_created h ?_
    rw [processTransactionCreateB_of_created h]
    exact h
  | transactionConfirmA p => exact found_created h ((processTransactionConfirmA_state p _).created h)
  | transactionConfirmB p => exact found_created h ((processTransactionConfirmB_state p _).created h)
  | transactionCancel verified =>
    exact found_created h ((processTransactionCancel_state verified _).created h)
  | transactionFinished verified =>
    exact found_created h ((processTransactionFinished_state verified _).created h)
  | accept fromAddr answer =>
    dsimp only [handle]
    split_ifs
    · rw [acceptXBridgeTransaction_of_le haccept]
      exact h
    · exact h
  | cancel reason =>
    exact found_created h ((cancelXBridgeTransaction_state reason _).created h)
  | checkAndEraseExpired =>
    dsimp only [handle]
    split_ifs
    · rw [checkAndEraseExpiredTransactions_of_created h]
      exact h
    · exact h
  | flushCancelled minAge =>
    refine found_created h ?_
    rw [liftActions, flushCancelledOrders_fst]
    exact h
  | checkWatches scan =>
    dsimp only [handle]
    split_ifs
    · exact (checkWatchesOnDepositSpends_state scan _).created h
    · exact h

theorem step_created {o : ClientOrder} (ee : ClientEnv × Event) (h : .trCreated ≤ o.descr.state) :
    .trCreated ≤ (o.step ee).1.descr.state :=
  handle_created ee.2 h

/-- What an event does about the deposit: nothing, or, when the deposit is allowed, send it once
and leave the order at `trCreated` or above. -/
theorem handle_cases (env : ClientEnv) (o : ClientOrder) (e : Event) :
    (o.handle env e).2.countP Effect.isDeposit = 0 ∨
      (DepositAllowed env o.descr e ∧ (o.handle env e).2.countP Effect.isDeposit = 1 ∧
        .trCreated ≤ (o.handle env e).1.state) := by
  cases e
  case transactionCreateA p =>
    dsimp only [handle, found]
    split_ifs
    · exact .inl rfl
    · rcases processTransactionCreateA_cases
          (show processTransactionCreateA env p o.descr = _ from rfl) with
        h0 | ⟨hlocal, hstate, hrole, h1, hcreated⟩
      · exact .inl h0
      · exact .inr ⟨⟨hlocal, hstate, .inl ⟨hrole, p, rfl⟩⟩, h1, hcreated⟩
  case transactionCreateB p =>
    dsimp only [handle, found]
    split_ifs
    · exact .inl rfl
    · rcases processTransactionCreateB_cases
          (show processTransactionCreateB env p o.descr = _ from rfl) with
        h0 | ⟨hlocal, hstate, hrole, hchecked, h1, hcreated⟩
      · exact .inl h0
      · exact .inr ⟨⟨hlocal, hstate, .inr ⟨hrole, p, rfl, hchecked⟩⟩, h1, hcreated⟩
  -- every other handler's effects are actions
  all_goals
    left
    dsimp only [handle]
  any_goals exact found_countP fun _ => countP_liftActions _
  all_goals
    split_ifs
    · exact countP_liftActions _
    · rfl

theorem countP_step_le_one (o : ClientOrder) (ee : ClientEnv × Event) :
    (o.step ee).2.countP Effect.isDeposit ≤ 1 := by
  rw [step_snd]
  rcases handle_cases ee.1 o ee.2 with h0 | ⟨-, h1, -⟩
  · omega
  · omega

theorem step_created_of_deposit {o : ClientOrder} {ee : ClientEnv × Event}
    (h : 0 < (o.step ee).2.countP Effect.isDeposit) : .trCreated ≤ (o.step ee).1.descr.state := by
  rw [step_snd] at h
  rw [step_descr]
  rcases handle_cases ee.1 o ee.2 with h0 | ⟨-, -, hcreated⟩
  · omega
  · exact hcreated

theorem countP_step_of_created {o : ClientOrder} (ee : ClientEnv × Event)
    (h : .trCreated ≤ o.descr.state) : (o.step ee).2.countP Effect.isDeposit = 0 := by
  rw [step_snd]
  rcases handle_cases ee.1 o ee.2 with h0 | ⟨⟨-, hlt, -⟩, -, -⟩
  · exact h0
  · exact absurd hlt (TransactionDescr.State.not_lt_of_le h)

/-- An event that sends the order's deposit is allowed to. -/
theorem deposit_mem_step {o : ClientOrder} {env : ClientEnv} {e : Event} {binTx : String}
    (h : Effect.deposit binTx ∈ (o.step (env, e)).2) : DepositAllowed env o.descr e := by
  have hpos : 0 < (o.handle env e).2.countP Effect.isDeposit :=
    List.countP_pos_iff.mpr ⟨_, h, rfl⟩
  rcases handle_cases env o e with h0 | ⟨hallowed, -, -⟩
  · omega
  · exact hallowed

/-- A trader's node sends an order's deposit at most once over any run of events, and each
deposit it sends comes from an event that is allowed to send it. -/
theorem deposit_at_most_once (o : ClientOrder) (events : List (ClientEnv × Event)) :
    (o.run events).2.countP Effect.isDeposit ≤ 1 ∧
      ∀ binTx, Effect.deposit binTx ∈ (o.run events).2 →
        ∃ pre env e post, events = pre ++ (env, e) :: post ∧
          Effect.deposit binTx ∈ ((o.run pre).1.step (env, e)).2 ∧
          DepositAllowed env (o.run pre).1.descr e := by
  constructor
  -- no step leaves `trCreated` and above, and a step that sends the deposit ends there
  · exact countP_runOutputs_le_one (fun o : ClientOrder => .trCreated ≤ o.descr.state)
      Effect.isDeposit (fun _ ee h => step_created ee h) (fun _ ee h => countP_step_of_created ee h)
      countP_step_le_one (fun _ _ h => step_created_of_deposit h) o events
  · intro binTx hmem
    obtain ⟨pre, ⟨env, e⟩, post, hsplit, hstep⟩ := exists_of_mem_runOutputs step hmem
    exact ⟨pre, env, e, post, hsplit, hstep, deposit_mem_step hstep⟩

end ClientOrder

/-! ## A replayed create packet -/

/-- A connector whose every call succeeds, at no fee. -/
def sampleConnector : Connector where
  lockTime _ := 50
  acceptableLockTimeDrift _ _ := true
  minTxFee1 _ _ := 0
  minTxFee2 _ _ := 0
  getKeyId pubkey := pubkey
  depositP2SH _ _ _ _ := "p2sh"
  checkDepositTransaction _ _ _ := some true
  createDepositTransaction := some "deposit"
  getNewAddress := some "refund address"
  createRefundTransaction _ := some "refund"
  createPaymentTransaction := some "payment"
  getSecretFromPaymentTransaction _ _ := none
  getInfo := some 10
  sendRawTransaction _ := .ok ()

def sampleEnv : ClientEnv := ⟨0, fun _ => some sampleConnector, some 1⟩

/-- A taker's order, initialized, with a coin of two units for the one it sends. -/
def sampleTaker : ClientOrder where
  descr :=
    { role := 'B', «from» := [1], fromCurrency := [66], fromAmount := 1000000, fromAddr := "b",
      «to» := [2], toCurrency := [76], toAmount := 2000000, state := .trInitialized, created := 0,
      txtime := 0, lockTime := 0, opponentLockTime := 0, oHashedSecret := [], binTx := "",
      refTx := "", payTx := "", oPayTxId := "", oPayTxTries := 0, mPubKey := [3], oPubKey := [],
      xPubKey := [], usedCoins := [⟨2, "b"⟩], watchingDone := false,
      redeemedCounterpartyDeposit := false, depositSent := false }
  listed := .transactions
  watched := false

def sampleCreateB : CreateBPacket := ⟨true, [4], "maker deposit", [5], 100⟩

/-- The maker's create packet for the taker, delivered twice. -/
def sampleReplay : List (ClientEnv × Event) :=
  [(sampleEnv, .transactionCreateB sampleCreateB), (sampleEnv, .transactionCreateB sampleCreateB)]

theorem deposit_at_most_once_sample :
    Effect.deposit "deposit" ∈ (sampleTaker.run sampleReplay).2 ∧
      (sampleTaker.run sampleReplay).2.countP Effect.isDeposit ≤ 1 ∧
      ∃ pre env e post, sampleReplay = pre ++ (env, e) :: post ∧
        DepositAllowed env (sampleTaker.run pre).1.descr e := by
  have hmem : Effect.deposit "deposit" ∈ (sampleTaker.run sampleReplay).2 := by decide +kernel
  have h := ClientOrder.deposit_at_most_once sampleTaker sampleReplay
  obtain ⟨pre, env, e, post, hsplit, -, hallowed⟩ := h.2 "deposit" hmem
  exact ⟨hmem, h.1, pre, env, e, post, hsplit, hallowed⟩

/-- The replay is ignored: the order is `trCreated` by then. -/
example : (sampleTaker.run sampleReplay).2 =
    [.deposit "deposit", .act .watchForSpentDeposit, .act (.sendPacket .createdB)] := by
  decide +kernel

end Blocknet.XBridge
