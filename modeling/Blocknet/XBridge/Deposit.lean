import Mathlib.Data.Rat.Floor
import Blocknet.Script.Interpreter

/-!
# The swap deposit and its redeem transactions (`xbridgewalletconnectorbtc.cpp`)

Model of the parts of `BtcWalletConnector` that build the deposit script of a swap and the two
transactions that spend it, and of the search for the secret in a payment.

* `createDepositUnlockScript` builds the script of the pay-to-script-hash deposit:
  `IF <lockTime> CHECKLOCKTIMEVERIFY DROP DUP HASH160 <id(myPub)> EQUALVERIFY CHECKSIG
  ELSE DUP HASH160 <id(otherPub)> EQUALVERIFY CHECKSIGVERIFY SIZE 33 EQUALVERIFY HASH160 <secretHash>
  EQUAL ENDIF`, the refund branch (`refundBranch`) and the payment branch (`paymentBranch`).
* `createRefundTransaction` signs a transaction with the lock time and an input one below final,
  then copies the fields the signature covers into a second transaction whose input carries
  `<sig> <myPub> OP_TRUE <script>`; `createPaymentTransaction` does the same with no lock time and
  `<x> <sig> <otherPub> OP_FALSE <script>`. The transaction returned is the one `rawTx`
  serializes; the `decoderawtransaction` call after it only fills `txId`. An input list given as
  outpoints stands for the `XTxIn`s whose `txid` `uint256S` parses.
* `xbridgeSignatureHash` is the connector's own `SignatureHash`: its
  `CTransactionSignatureSerializer` asserts in `SerializeInput` on each input but the one signed,
  so with more than one input (and no `ANYONECANPAY`) signing aborts, which is the
  `Fault.exception` with the assertion's text.
* `getSecretFromPaymentTransaction` reads the payment as `getrawtransaction` decodes it: in the
  first input spending the deposit, the first instruction whose data's `Hash160` starts with `hx`.
  A failed `GetOp` in that loop leaves `pc` where `GetScriptOp` stopped, and the loop goes on from
  there. `getKeyId` of no bytes is the hash of no bytes.

ECDSA and `Hash160` are the functions of `Ecdsa` and `Crypto`. The theorems assume of them only
what an ideal signature scheme and a collision-free hash give, as hypotheses: `SignsFor` (what the
signer signs with the private key verifies under the public key, a valid key, and has the size of
a DER signature) and `NoCollision` (no other bytes have the same `Hash160`).
-/

namespace Blocknet.XBridge

open Blocknet.Lib

/-- `getKeyId`: `Hash160` of the key's bytes. -/
def getKeyId (cr : Crypto) (pubkey : Bytes) : Bytes := (cr.hash160 pubkey).toBytes

/-! ## The deposit script -/

/-- The refund branch: after the lock time, a signature by `myPubKey`. -/
def refundBranch (cr : Crypto) (myPubKey : Bytes) (lockTime : UInt32) : List ScriptItem :=
  [.num lockTime.toNat, .op OP_CHECKLOCKTIMEVERIFY, .op OP_DROP,
    .op OP_DUP, .op OP_HASH160, .data (getKeyId cr myPubKey), .op OP_EQUALVERIFY, .op OP_CHECKSIG]

/-- The payment branch: a signature by `otherPubKey` and a 33-byte secret hashing to `secretHash`. -/
def paymentBranch (cr : Crypto) (otherPubKey secretHash : Bytes) : List ScriptItem :=
  [.op OP_DUP, .op OP_HASH160, .data (getKeyId cr otherPubKey), .op OP_EQUALVERIFY,
    .op OP_CHECKSIGVERIFY, .op OP_SIZE, .num 33, .op OP_EQUALVERIFY, .op OP_HASH160,
    .data secretHash, .op OP_EQUAL]

/-- The items `createDepositUnlockScript` appends to `inner`. -/
def depositUnlockItems (cr : Crypto) (myPubKey otherPubKey secretHash : Bytes) (lockTime : UInt32) :
    List ScriptItem :=
  [.op OP_IF] ++ refundBranch cr myPubKey lockTime ++ [.op OP_ELSE] ++
    paymentBranch cr otherPubKey secretHash ++ [.op OP_ENDIF]

/-- `createDepositUnlockScript`. -/
def createDepositUnlockScript (cr : Crypto) (myPubKey otherPubKey secretHash : Bytes)
    (lockTime : UInt32) : Bytes :=
  buildScript (depositUnlockItems cr myPubKey otherPubKey secretHash lockTime)

/-! ## Building the redeem transactions -/

/-- The members of `BtcWalletConnector` the builders read. -/
structure BtcConnector where
  COIN : Nat
  txVersion : UInt32
  txWithTimeField : Bool
  toXAddr : String → Bytes

/-- A `double` amount converted to `CAmount`, toward zero. -/
def toAmount (q : ℚ) : Int := if q < 0 then ⌈q⌉ else ⌊q⌋

/-- `createTransaction(conn, inputs, outputs, COIN, txversion, lockTime, txWithTimeField)`: inputs
with no script and a final sequence, outputs paying the key hash of each address; `now` is
`time(nullptr)`. -/
def createTransaction (conn : BtcConnector) (now : UInt32) (inputs : List OutPoint)
    (outputs : List (String × ℚ)) (txversion lockTime : UInt32) : MutableTransaction where
  nVersion := txversion.toNat
  nTime := if conn.txWithTimeField then some now else none
  vin := inputs.map fun o => ⟨o, [], SEQUENCE_FINAL⟩
  vout := outputs.map fun out =>
    ⟨toAmount (out.2 * conn.COIN),
      buildScript [.op OP_DUP, .op OP_HASH160, .data (conn.toXAddr out.1), .op OP_EQUALVERIFY,
        .op OP_CHECKSIG]⟩
  nLockTime := lockTime

/-- The connector's `SignatureHash`. -/
def xbridgeSignatureHash (cr : Crypto) (scriptCode : Bytes) (tx : MutableTransaction)
    (nIn nHashType : Nat) : Except Fault Uint256 :=
  if tx.vin.length ≤ nIn then .ok 1
  else if nHashType &&& 0x1f = SIGHASH_SINGLE ∧ tx.vout.length ≤ nIn then .ok 1
  -- `SerializeInput` asserts on every other input it serializes
  else if nHashType &&& SIGHASH_ANYONECANPAY = 0 ∧ 1 < tx.vin.length then
    .error (.exception "CScriptBase not defined")
  else .ok (cr.hash256 (signatureImage scriptCode tx nIn nHashType))

/-- `createRefundTransaction`: `none` where signing fails. -/
def createRefundTransaction (cr : Crypto) (ec : Ecdsa) (conn : BtcConnector) (now : UInt32)
    (inputs : List OutPoint) (outputs : List (String × ℚ)) (mpubKey mprivKey innerScript : Bytes)
    (lockTime : UInt32) : Except Fault (Option MutableTransaction) :=
  let txUnsigned := createTransaction conn now inputs outputs conn.txVersion lockTime
  -- a lock time needs an input below final
  let sequence := if 0 < lockTime then SEQUENCE_FINAL - 1 else SEQUENCE_FINAL
  match txUnsigned.vin with
  | [] => .error (.outOfBounds 0)
  | txin0 :: more => do
    let txUnsigned := { txUnsigned with vin := { txin0 with nSequence := sequence } :: more }
    let inner := innerScript
    let tmp := buildScript [.data mpubKey, .op OP_1, .data inner]
    let hash ← xbridgeSignatureHash cr inner txUnsigned 0 SIGHASH_ALL
    match ec.sign mprivKey hash with
    | none => pure none
    | some signature =>
      let redeem := buildScript [.data (signature ++ [UInt8.ofNat SIGHASH_ALL])] ++ tmp
      pure (some {
        nVersion := txUnsigned.nVersion, nTime := txUnsigned.nTime,
        vin := [⟨txin0.prevout, redeem, sequence⟩], vout := txUnsigned.vout,
        nLockTime := txUnsigned.nLockTime })

/-- `createPaymentTransaction`: `none` where signing fails. -/
def createPaymentTransaction (cr : Crypto) (ec : Ecdsa) (conn : BtcConnector) (now : UInt32)
    (inputs : List OutPoint) (outputs : List (String × ℚ))
    (mpubKey mprivKey xpubKey innerScript : Bytes) : Except Fault (Option MutableTransaction) := do
  let txUnsigned := createTransaction conn now inputs outputs conn.txVersion 0
  let inner := innerScript
  let hash ← xbridgeSignatureHash cr inner txUnsigned 0 SIGHASH_ALL
  match ec.sign mprivKey hash with
  | none => pure none
  | some signature =>
    let redeem := buildScript [.data xpubKey, .data (signature ++ [UInt8.ofNat SIGHASH_ALL]),
      .data mpubKey, .op OP_0, .data inner]
    match txUnsigned.vin with
    | [] => throw (.outOfBounds 0)
    | txin0 :: _ =>
      -- the second transaction keeps its own lock time, `0` as the signed one's
      pure (some {
        nVersion := txUnsigned.nVersion, nTime := txUnsigned.nTime,
        vin := [⟨txin0.prevout, redeem, SEQUENCE_FINAL⟩], vout := txUnsigned.vout, nLockTime := 0 })

/-! ## Finding the secret -/

/-- The loop `while (pc < scriptSig.end()) { if (GetOp(pc, op, chk) && memcmp(getKeyId(chk), hx,
hx.size()) == 0) ... }`: the first data whose key id starts with `hx`. `memcmp` reads past the
20-byte key id when `hx` is longer. -/
def scanSecret (cr : Crypto) (hx : Bytes) : Nat → Bytes → Except Fault (Option Bytes)
  | 0, _ => .ok none
  | _ + 1, [] => .ok none
  | fuel + 1, b :: s =>
    match getScriptOp (b :: s) with
    | (true, _, chk, rest) =>
      if 20 < hx.length then .error (.outOfBounds 20)
      else if (getKeyId cr chk).take hx.length = hx then .ok (some chk)
      else scanSecret cr hx fuel rest
    | (false, _, _, rest) => scanSecret cr hx fuel rest

/-- `getSecretFromPaymentTransaction` on the transaction `getrawtransaction` returned (`none` where
the call or the JSON read failed): whether the search is complete, and the secret where one was
found (`isGood`). -/
def getSecretFromPaymentTransaction (cr : Crypto) (paymentTx : Option MutableTransaction)
    (depositTxId : Uint256) (depositTxVOut : UInt32) (hx : Bytes) : Except Fault (Bool × Option Bytes) :=
  match paymentTx with
  | none => .ok (false, none)
  | some tx =>
    match tx.vin.find? (fun txin => txin.prevout.hash == depositTxId && txin.prevout.n == depositTxVOut) with
    | none => .ok (true, none)
    | some txin => (scanSecret cr hx txin.scriptSig.length txin.scriptSig).map fun secret => (true, secret)

/-! ## What the theorems assume of the primitives -/

/-- An ideal signer: what it signs with `priv` verifies under `pub`, a valid key, and has the size
of a DER signature (at most 72 bytes; one below 20 needs both `r` and `s` below `2 ^ 56`). -/
def SignsFor (ec : Ecdsa) (priv pub : Bytes) : Prop :=
  validSize pub = true ∧ ∀ hash sig, ec.sign priv hash = some sig →
    ec.verify (CPubKey.ofBytes pub) hash sig = true ∧ 20 ≤ sig.length ∧ sig.length ≤ 72

/-- No other bytes have the `Hash160` of `a`. -/
def NoCollision (cr : Crypto) (a : Bytes) : Prop := ∀ b, cr.hash160 b = cr.hash160 a → b = a

end Blocknet.XBridge
