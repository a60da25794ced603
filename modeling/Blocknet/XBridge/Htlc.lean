import Blocknet.XBridge.DepositScript

/-!
# The deposit is a hashed time-locked contract

The swap's deposit pays to the script hash of `inner = createDepositUnlockScript(myPub, otherPub,
Hash160(x), lockTime)`. With ECDSA and `Hash160` as ideal oracles (`SignsFor`, `NoCollision`),
`inner` is the contract the swap needs (`Htlc`):

* `createPaymentTransaction_verifies`: the payment `createPaymentTransaction` builds on one input,
  with the counterparty's key and the secret, verifies against the deposit;
  `createRefundTransaction_verifies`: so does the refund, from the lock time on.
* `spendKind_of_verifyInput`: every input that verifies against the deposit is a refund
  (`RefundSpend`: a signature by `myPub`, the lock time reached, an input that is not final) or a
  payment (`PaymentSpend`: a signature by `otherPub` and a pushed 33-byte preimage of
  `Hash160(x)`).
* `getSecretFromPaymentTransaction_of_paymentSpend`: on a payment, the search for the secret
  returns `x`.
* `createDepositUnlockScript_htlc` puts the four together.

Both builders sign one transaction and copy its fields into the one they return. The hash the
interpreter checks is the signed one because `SignatureHash` does not read scriptSigs
(`signatureHash_withoutScripts`) and every other field is copied.
-/

namespace Blocknet.XBridge

open Blocknet.Lib

/-! ## The builders on one input -/

section Builders

variable {cr : Crypto} {ec : Ecdsa}

/-- With one input and `SIGHASH_ALL`, the connector's hash is the interpreter's. -/
theorem xbridgeSignatureHash_single {tx : MutableTransaction} (h1 : tx.vin.length = 1)
    (scriptCode : Bytes) :
    xbridgeSignatureHash cr scriptCode tx 0 SIGHASH_ALL =
      .ok (signatureHash cr scriptCode tx 0 SIGHASH_ALL) := by
  simp [xbridgeSignatureHash, signatureHash, h1, SIGHASH_ALL, SIGHASH_SINGLE, SIGHASH_ANYONECANPAY]

/-- The payment on one input: the unsigned transaction, with the redeem script in its input. -/
theorem createPaymentTransaction_single (conn : BtcConnector) (now : UInt32) (o : OutPoint)
    (outputs : List (String × ℚ)) (mpubKey mprivKey xpubKey innerScript : Bytes) {sig : Bytes}
    (hsign : ec.sign mprivKey (signatureHash cr innerScript
      (createTransaction conn now [o] outputs conn.txVersion 0) 0 SIGHASH_ALL) = some sig) :
    createPaymentTransaction cr ec conn now [o] outputs mpubKey mprivKey xpubKey innerScript =
      .ok (some { createTransaction conn now [o] outputs conn.txVersion 0 with
        vin := [⟨o, buildScript [.data xpubKey, .data (sig ++ [UInt8.ofNat SIGHASH_ALL]),
          .data mpubKey, .op OP_0, .data innerScript], SEQUENCE_FINAL⟩] }) := by
  unfold createPaymentTransaction
  dsimp only
  rw [xbridgeSignatureHash_single rfl, except_ok_bind, hsign]
  rfl

/-- The refund on one input, with a lock time: the unsigned transaction with its input one below
final, and the redeem script in that input. -/
theorem createRefundTransaction_single (conn : BtcConnector) (now : UInt32) (o : OutPoint)
    (outputs : List (String × ℚ)) (mpubKey mprivKey innerScript : Bytes) {lockTime : UInt32}
    (hlock : 0 < lockTime) {sig : Bytes}
    (hsign : ec.sign mprivKey (signatureHash cr innerScript
      { createTransaction conn now [o] outputs conn.txVersion lockTime with
        vin := [⟨o, [], SEQUENCE_FINAL - 1⟩] } 0 SIGHASH_ALL) = some sig) :
    createRefundTransaction cr ec conn now [o] outputs mpubKey mprivKey innerScript lockTime =
      .ok (some { createTransaction conn now [o] outputs conn.txVersion lockTime with
        vin := [⟨o, buildScript [.data (sig ++ [UInt8.ofNat SIGHASH_ALL])] ++
          buildScript [.data mpubKey, .op OP_1, .data innerScript], SEQUENCE_FINAL - 1⟩] }) := by
  unfold createRefundTransaction
  dsimp only
  rw [if_pos hlock]
  simp only [createTransaction, List.map_cons, List.map_nil]
  rw [xbridgeSignatureHash_single rfl, except_ok_bind]
  simp only [createTransaction] at hsign
  rw [hsign]
  rfl

/-- The script check of the only input of a transaction. -/
theorem verifyInput_single {tx : MutableTransaction} {txin : MutableTxIn} (h : tx.vin = [txin])
    (scriptPubKey : Bytes) :
    verifyInput cr ec tx 0 scriptPubKey =
      verifyScript cr ec ⟨tx, 0, by rw [h]; exact Nat.zero_lt_one⟩ txin.scriptSig scriptPubKey := by
  obtain ⟨nVersion, nTime, vin, vout, nLockTime⟩ := tx
  dsimp only at h
  subst h
  rfl

end Builders

/-! ## The signature is not in the deposit script -/

section FindAndDelete

variable {cr : Crypto} {myPubKey otherPubKey secretHash : Bytes} {lockTime : UInt32}

/-- Every item of the deposit script starts with an opcode above `OP_PUSHDATA4`, `OP_0`, or the
length of a push of at most 20 bytes. -/
theorem depositUnlockItems_head (hsh : secretHash.length = 20) :
    ∀ i ∈ depositUnlockItems cr myPubKey otherPubKey secretHash lockTime,
      ∃ c rest, i.bytes = c :: rest ∧ (c.toNat ≤ 20 ∨ 73 < c.toNat) := by
  have hdata : ∀ d : Bytes, d.length = 20 →
      ∃ c rest, (ScriptItem.data d).bytes = c :: rest ∧ (c.toNat ≤ 20 ∨ 73 < c.toNat) := by
    intro d hd
    refine ⟨_, _, pushData_of_lt (by omega), .inl ?_⟩
    simp only [UInt8.toNat_ofNat', Nat.reducePow]
    omega
  have hnum : ∀ n : Int, n.natAbs < 2 ^ 32 →
      ∃ c rest, (ScriptItem.num n).bytes = c :: rest ∧ (c.toNat ≤ 20 ∨ 73 < c.toNat) := by
    intro n hn
    obtain ⟨c, rest, hbytes, hc⟩ := pushInt64_head hn
    exact ⟨c, rest, hbytes, by omega⟩
  exact forall_depositUnlockItems (fun o ho => ⟨o, [], rfl, .inr (by omega)⟩)
    (fun k => hdata _ (length_getKeyId cr k)) (hdata _ hsh) (hnum _ (by simpa using lockTime.toNat_lt))
    (hnum _ (by decide))

/-- `FindAndDelete` of a pushed signature of 21 to 73 bytes leaves the deposit script as it is. -/
theorem findAndDelete_depositUnlockScript {d : Bytes} (hd : 20 < d.length ∧ d.length ≤ 73)
    (hsh : secretHash.length = 20) :
    findAndDelete (createDepositUnlockScript cr myPubKey otherPubKey secretHash lockTime) (pushData d) =
      (createDepositUnlockScript cr myPubKey otherPubKey secretHash lockTime, 0) := by
  have hpush : pushData d = UInt8.ofNat d.length :: d := pushData_of_lt (by omega)
  have hlen : (UInt8.ofNat d.length).toNat = d.length := by
    simp only [UInt8.toNat_ofNat', Nat.reducePow]
    omega
  unfold createDepositUnlockScript
  refine findAndDelete_buildScript (by simp [hpush])
    (depositUnlockItems_wellFormed (by rw [hsh]; decide)) ?_
  intro i hi rest
  obtain ⟨c, r, hbytes, hc⟩ := depositUnlockItems_head hsh i hi
  -- the push's first byte is its length, which no item starts with
  have hne : UInt8.ofNat d.length ≠ c := by
    rintro rfl
    omega
  simp [hpush, hbytes, List.isPrefixOf, hne]

end FindAndDelete

/-! ## The redeem transactions verify -/

section Redeem

variable {cr : Crypto} {ec : Ecdsa} {myPubKey otherPubKey x : Bytes} {lockTime : UInt32}

theorem length_le_max_of_validSize {pub : Bytes} (h : validSize pub = true) :
    pub.length ≤ MAX_SCRIPT_ELEMENT_SIZE := by
  match pub, h with
  | b :: rest, h =>
    simp only [validSize, beq_iff_eq] at h
    rw [← h]
    unfold pubKeyLen
    split_ifs <;> decide

/-- A signature, with its hash type, has the size of a push of 21 to 73 bytes. -/
theorem SignsFor.length_sign {priv pub : Bytes} (hsigns : SignsFor ec priv pub) {hash : Uint256}
    {sig : Bytes} (hsign : ec.sign priv hash = some sig) (nHashType : UInt8) :
    20 < (sig ++ [nHashType]).length ∧ (sig ++ [nHashType]).length ≤ 73 := by
  obtain ⟨-, hlo, hhi⟩ := hsigns.2 _ _ hsign
  simp only [List.length_append, List.length_singleton]
  omega

theorem length_createDepositUnlockScript_le_max {secretHash : Bytes} (hsh : secretHash.length = 20) :
    (createDepositUnlockScript cr myPubKey otherPubKey secretHash lockTime).length ≤
      MAX_SCRIPT_ELEMENT_SIZE := by
  have hlen := @length_createDepositUnlockScript_le_add cr myPubKey otherPubKey secretHash lockTime
  simp only [MAX_SCRIPT_ELEMENT_SIZE]
  omega

/-- A signature the signer made over the unsigned transaction checks in the transaction that
carries it, against the deposit script. -/
theorem checkSig_signed {secretHash : Bytes} (hsh : secretHash.length = 20)
    {tx txUnsigned : MutableTransaction} (hwo : tx.withoutScripts = txUnsigned) (h0 : 0 < tx.vin.length)
    {priv pub sig : Bytes} (hsigns : SignsFor ec priv pub)
    (hsign : ec.sign priv (signatureHash cr (createDepositUnlockScript cr myPubKey otherPubKey secretHash
      lockTime) txUnsigned 0 SIGHASH_ALL) = some sig) :
    Checker.checkSig cr ec ⟨tx, 0, h0⟩ (sig ++ [UInt8.ofNat SIGHASH_ALL]) pub
      (findAndDelete (createDepositUnlockScript cr myPubKey otherPubKey secretHash lockTime)
        (pushData (sig ++ [UInt8.ofNat SIGHASH_ALL]))).1 = true := by
  rw [findAndDelete_depositUnlockScript (hsigns.length_sign hsign _) hsh, checkSig_append_hashType hsigns.1]
  show ec.verify _ (signatureHash cr _ tx 0 (UInt8.ofNat SIGHASH_ALL).toNat) sig = true
  rw [show (UInt8.ofNat SIGHASH_ALL).toNat = SIGHASH_ALL from rfl, ← signatureHash_withoutScripts, hwo]
  exact (hsigns.2 _ _ hsign).1

/-- The deposit script on a payment's stack: an empty flag, `otherPubKey`, a signature that
checks, and the secret. -/
theorem evalScript_deposit_payment {ck : Checker} {sig : Bytes}
    (hsig : ck.checkSig cr ec sig otherPubKey (findAndDelete (createDepositUnlockScript cr myPubKey
      otherPubKey (cr.hash160 x).toBytes lockTime) (pushData sig)).1 = true) (hx : x.length = 33) :
    evalScript cr ec ck (createDepositUnlockScript cr myPubKey otherPubKey (cr.hash160 x).toBytes lockTime)
      [[], otherPubKey, sig, x] = .ok [[1]] := by
  rw [← toOption_eq_some_iff, evalScript_depositUnlockScript (by simp [MAX_SCRIPT_ELEMENT_SIZE])]
  simp only [depositOutcome, castToBool_nil, paymentOutcome, Bool.false_eq_true, if_false]
  rw [if_pos ⟨rfl, hsig, hx⟩, if_true]

/-- The deposit script on a refund's stack: the flag, `myPubKey` and a signature that checks, with
the lock time reached. -/
theorem evalScript_deposit_refund {secretHash : Bytes} (hsh : secretHash.length ≤ MAX_SCRIPT_ELEMENT_SIZE)
    {ck : Checker} {sig : Bytes} (hlock : ck.checkLockTime lockTime.toNat = true)
    (hsig : ck.checkSig cr ec sig myPubKey (findAndDelete (createDepositUnlockScript cr myPubKey
      otherPubKey secretHash lockTime) (pushData sig)).1 = true) :
    evalScript cr ec ck (createDepositUnlockScript cr myPubKey otherPubKey secretHash lockTime)
      [[1], myPubKey, sig] = .ok [[1]] := by
  rw [← toOption_eq_some_iff, evalScript_depositUnlockScript hsh]
  simp only [depositOutcome, castToBool_one, if_true, refundOutcome]
  rw [if_pos ⟨hlock, rfl⟩, if_pos hsig]

/-- The items of the refund's scriptSig: the signature, the key, `OP_TRUE` and the script. -/
theorem refundScriptSig_eq (sig pub inner : Bytes) :
    buildScript [.data sig] ++ buildScript [.data pub, .op OP_1, .data inner] =
      buildScript [.data sig, .data pub, .op OP_1, .data inner] := by
  simp only [buildScript_cons, buildScript_nil, List.append_nil]

section RefundScriptSig

variable {sig pub inner : Bytes} (hsig : sig.length ≤ MAX_SCRIPT_ELEMENT_SIZE)
  (hpub : pub.length ≤ MAX_SCRIPT_ELEMENT_SIZE) (hinner : inner.length ≤ MAX_SCRIPT_ELEMENT_SIZE)
include hsig hpub hinner

theorem refundScriptSig_wellFormed :
    ∀ i ∈ [ScriptItem.data sig, .data pub, .op OP_1, .data inner], i.WellFormed := by
  simp only [MAX_SCRIPT_ELEMENT_SIZE] at hsig hpub hinner
  simp only [List.mem_cons, List.not_mem_nil, or_false]
  rintro i (rfl | rfl | rfl | rfl)
  · show sig.length < 2 ^ 32
    omega
  · show pub.length < 2 ^ 32
    omega
  · exact Or.inr (by decide)
  · show inner.length < 2 ^ 32
    omega

theorem isPushOnly_refundScriptSig :
    isPushOnly (buildScript [.data sig] ++ buildScript [.data pub, .op OP_1, .data inner]) = true := by
  rw [refundScriptSig_eq]
  refine isPushOnly_buildScript (refundScriptSig_wellFormed hsig hpub hinner) ?_
  simp only [List.mem_cons, List.not_mem_nil, or_false]
  rintro i (rfl | rfl | rfl | rfl)
  · exact pushOpcode_le_op16 sig
  · exact pushOpcode_le_op16 pub
  · decide
  · exact pushOpcode_le_op16 inner

/-- The refund's scriptSig leaves the script, `1`, the key and the signature. -/
theorem evalScript_refundScriptSig {ck : Checker} :
    evalScript cr ec ck (buildScript [.data sig] ++ buildScript [.data pub, .op OP_1, .data inner]) [] =
      .ok [inner, [1], pub, sig] := by
  have hsize : (buildScript [.data sig, .data pub, .op OP_1, .data inner]).length ≤ MAX_SCRIPT_SIZE := by
    have h1 := length_pushData_le sig
    have h2 := length_pushData_le pub
    have h3 := length_pushData_le inner
    simp only [MAX_SCRIPT_ELEMENT_SIZE] at hsig hpub hinner
    simp only [buildScript_cons, buildScript_nil, ScriptItem.bytes, List.length_append,
      List.length_cons, List.length_nil, MAX_SCRIPT_SIZE]
    omega
  have hone : ScriptItem.instr (.op OP_1) = (ScriptItem.num 1).instr := by decide
  have hdata : ∀ d, (ScriptItem.data d).instr = (pushOpcode d, d) := fun _ => rfl
  rw [refundScriptSig_eq,
    evalScript_of_reads (reads_buildScript (refundScriptSig_wellFormed hsig hpub hinner)) hsize]
  simp only [List.map_cons, List.map_nil, hone, hdata, List.foldlM_cons, List.foldlM_nil]
  rw [step_push _ hsig rfl, except_ok_bind, step_push _ hpub rfl, except_ok_bind,
    step_num (by decide) rfl, except_ok_bind, step_push _ hinner rfl, except_ok_bind]
  rfl

end RefundScriptSig

/-- **The payment verifies**: on one input, `createPaymentTransaction` with the counterparty's key
and the secret builds a transaction, and its input spends the deposit. -/
theorem createPaymentTransaction_verifies {otherPrivKey : Bytes} (hsigns : SignsFor ec otherPrivKey otherPubKey)
    (hsome : ∀ hash, (ec.sign otherPrivKey hash).isSome) (hx : x.length = 33)
    (conn : BtcConnector) (now : UInt32) (o : OutPoint) (outputs : List (String × ℚ)) :
    ∃ tx, createPaymentTransaction cr ec conn now [o] outputs otherPubKey otherPrivKey x
        (createDepositUnlockScript cr myPubKey otherPubKey (cr.hash160 x).toBytes lockTime) = .ok (some tx) ∧
      verifyInput cr ec tx 0 (payToScriptHash (cr.hash160
        (createDepositUnlockScript cr myPubKey otherPubKey (cr.hash160 x).toBytes lockTime)).toBytes) = .ok () := by
  obtain ⟨sig, hsign⟩ := Option.isSome_iff_exists.mp (hsome (signatureHash cr
    (createDepositUnlockScript cr myPubKey otherPubKey (cr.hash160 x).toBytes lockTime)
    (createTransaction conn now [o] outputs conn.txVersion 0) 0 SIGHASH_ALL))
  refine ⟨_, createPaymentTransaction_single conn now o outputs _ _ _ _ hsign, ?_⟩
  rw [verifyInput_single rfl, verifyScript_payToScriptHash (Uint160.length_toBytes _)]
  -- the scriptSig pushes `x`, the signature, the key, an empty flag and the deposit script
  have hscript : buildScript [.data x, .data (sig ++ [UInt8.ofNat SIGHASH_ALL]), .data otherPubKey,
      .op OP_0, .data (createDepositUnlockScript cr myPubKey otherPubKey (cr.hash160 x).toBytes lockTime)] =
      buildScript ([x, sig ++ [UInt8.ofNat SIGHASH_ALL], otherPubKey, [],
        createDepositUnlockScript cr myPubKey otherPubKey (cr.hash160 x).toBytes lockTime].map ScriptItem.data) :=
    rfl
  have hds : ∀ d ∈ [x, sig ++ [UInt8.ofNat SIGHASH_ALL], otherPubKey, [],
      createDepositUnlockScript cr myPubKey otherPubKey (cr.hash160 x).toBytes lockTime],
      d.length ≤ MAX_SCRIPT_ELEMENT_SIZE := by
    simp only [List.mem_cons, List.not_mem_nil, or_false]
    rintro d (rfl | rfl | rfl | rfl | rfl)
    · rw [hx]
      decide
    · exact le_trans (hsigns.length_sign hsign _).2 (by decide)
    · exact length_le_max_of_validSize hsigns.1
    · exact Nat.zero_le _
    · exact length_createDepositUnlockScript_le_max (Uint160.length_toBytes _)
  refine ⟨?_, _, [[], otherPubKey, sig ++ [UInt8.ofNat SIGHASH_ALL], x], [[1]], ?_, rfl, ?_, rfl⟩
  · rw [hscript]
    exact isPushOnly_pushes fun d hd => lt_of_le_of_lt (hds d hd) (by decide)
  · rw [hscript, evalScript_pushes hds (by simp)]
    rfl
  · exact evalScript_deposit_payment (checkSig_signed (Uint160.length_toBytes _) rfl _ hsigns hsign) hx

/-- **The refund verifies**: on one input and with a lock time, `createRefundTransaction` with the
maker's key builds a transaction, and its input spends the deposit. -/
theorem createRefundTransaction_verifies {myPrivKey : Bytes} (hsigns : SignsFor ec myPrivKey myPubKey)
    (hsome : ∀ hash, (ec.sign myPrivKey hash).isSome) (hlock : 0 < lockTime)
    (conn : BtcConnector) (now : UInt32) (o : OutPoint) (outputs : List (String × ℚ)) :
    ∃ tx, createRefundTransaction cr ec conn now [o] outputs myPubKey myPrivKey
        (createDepositUnlockScript cr myPubKey otherPubKey (cr.hash160 x).toBytes lockTime) lockTime =
          .ok (some tx) ∧
      verifyInput cr ec tx 0 (payToScriptHash (cr.hash160
        (createDepositUnlockScript cr myPubKey otherPubKey (cr.hash160 x).toBytes lockTime)).toBytes) = .ok () := by
  obtain ⟨sig, hsign⟩ := Option.isSome_iff_exists.mp (hsome (signatureHash cr
    (createDepositUnlockScript cr myPubKey otherPubKey (cr.hash160 x).toBytes lockTime)
    { createTransaction conn now [o] outputs conn.txVersion lockTime with
      vin := [⟨o, [], SEQUENCE_FINAL - 1⟩] } 0 SIGHASH_ALL))
  refine ⟨_, createRefundTransaction_single conn now o outputs _ _ _ hlock hsign, ?_⟩
  have hsigLen := le_trans (hsigns.length_sign hsign (UInt8.ofNat SIGHASH_ALL)).2
    (by decide : 73 ≤ MAX_SCRIPT_ELEMENT_SIZE)
  have hpub := length_le_max_of_validSize hsigns.1
  have hinner : (createDepositUnlockScript cr myPubKey otherPubKey (cr.hash160 x).toBytes lockTime).length ≤
      MAX_SCRIPT_ELEMENT_SIZE :=
    length_createDepositUnlockScript_le_max (Uint160.length_toBytes _)
  rw [verifyInput_single rfl, verifyScript_payToScriptHash (Uint160.length_toBytes _)]
  refine ⟨isPushOnly_refundScriptSig hsigLen hpub hinner, _,
    [[1], myPubKey, sig ++ [UInt8.ofNat SIGHASH_ALL]], [[1]],
    evalScript_refundScriptSig hsigLen hpub hinner, rfl,
    evalScript_deposit_refund (by simp [MAX_SCRIPT_ELEMENT_SIZE]) ?_
      (checkSig_signed (Uint160.length_toBytes _) rfl _ hsigns hsign), rfl⟩
  -- the transaction carries the lock time, and its input is one below final
  exact (checkLockTime_iff _).mpr ⟨Iff.rfl, le_refl _, show SEQUENCE_FINAL - 1 ≠ SEQUENCE_FINAL by decide⟩

end Redeem

/-! ## Every spend is a refund or a payment -/

/-- A refund of the deposit: a signature by `myPubKey` that checks against the deposit script, on
a transaction whose lock time is of the kind of `lockTime` and not before it, from an input that is
not final. -/
def RefundSpend (cr : Crypto) (ec : Ecdsa) (ck : Checker) (inner myPubKey : Bytes) (lockTime : UInt32) :
    Prop :=
  (∃ sig, ck.checkSig cr ec sig myPubKey (findAndDelete inner (pushData sig)).1 = true) ∧
    (ck.tx.nLockTime.toNat < LOCKTIME_THRESHOLD ↔ lockTime.toNat < LOCKTIME_THRESHOLD) ∧
    lockTime.toNat ≤ ck.tx.nLockTime.toNat ∧ ck.txin.nSequence ≠ SEQUENCE_FINAL

/-- A payment of the deposit: a signature by `otherPubKey` that checks against the deposit script,
and a 33-byte value with the `Hash160` of `x` that the input's scriptSig pushes. -/
def PaymentSpend (cr : Crypto) (ec : Ecdsa) (ck : Checker) (inner otherPubKey x : Bytes) : Prop :=
  (∃ sig, ck.checkSig cr ec sig otherPubKey (findAndDelete inner (pushData sig)).1 = true) ∧
    ∃ v, v.length = 33 ∧ cr.hash160 v = cr.hash160 x ∧
      ∃ ts op, Reads readOp ck.txin.scriptSig ts ∧ (op, v) ∈ ts

section Spends

variable {cr : Crypto} {ec : Ecdsa} {myPubKey otherPubKey x : Bytes} {lockTime : UInt32}

/-- **Every spend is a refund or a payment**: an input that verifies against the deposit's script
hash, where no other bytes hash as the script and the keys do, is one of the two. -/
theorem spendKind_of_verifyInput
    (hinner : NoCollision cr (createDepositUnlockScript cr myPubKey otherPubKey (cr.hash160 x).toBytes lockTime))
    (hmy : NoCollision cr myPubKey) (hother : NoCollision cr otherPubKey)
    {tx : MutableTransaction} {nIn : Nat} (h : nIn < tx.vin.length)
    (hv : verifyInput cr ec tx nIn (payToScriptHash (cr.hash160
      (createDepositUnlockScript cr myPubKey otherPubKey (cr.hash160 x).toBytes lockTime)).toBytes) = .ok ()) :
    RefundSpend cr ec ⟨tx, nIn, h⟩ (createDepositUnlockScript cr myPubKey otherPubKey (cr.hash160 x).toBytes
        lockTime) myPubKey lockTime ∨
      PaymentSpend cr ec ⟨tx, nIn, h⟩ (createDepositUnlockScript cr myPubKey otherPubKey
        (cr.hash160 x).toBytes lockTime) otherPubKey x := by
  unfold verifyInput at hv
  rw [dif_pos h, verifyScript_payToScriptHash (Uint160.length_toBytes _)] at hv
  obtain ⟨hpush, y, rest, S, hsig, hy, heval, htop⟩ := hv
  -- the pushed script is the deposit script, and its run is `depositOutcome`
  obtain rfl := hinner y (Uint160.toBytes_injective hy)
  have hout := @evalScript_depositUnlockScript cr ec ⟨tx, nIn, h⟩ myPubKey otherPubKey
    (cr.hash160 x).toBytes lockTime (by simp [MAX_SCRIPT_ELEMENT_SIZE]) rest
  rw [heval, toOption_ok] at hout
  obtain ⟨ts, hts, hpushed⟩ := evalScript_pushOnly hsig hpush
  rcases rest with _ | ⟨flag, r⟩
  · cases hout
  by_cases hflag : castToBool flag = true
  · -- the refund branch
    left
    rw [depositOutcome, if_pos hflag] at hout
    obtain ⟨pubkey, sig, rest, rfl, hlock, hkey, rfl⟩ := refundOutcome_eq_some hout.symm
    obtain rfl := hmy pubkey (Uint160.toBytes_injective hkey)
    obtain ⟨hkind, hle, hseq⟩ := (checkLockTime_iff _).mp hlock
    refine ⟨⟨sig, of_checkTop_ite htop⟩, ?_, by omega, hseq⟩
    simp only [LOCKTIME_THRESHOLD] at hkind ⊢
    omega
  · -- the payment branch
    right
    rw [depositOutcome, if_neg hflag] at hout
    obtain ⟨pubkey, sig, secret, rest, rfl, hkey, hcheck, hlen, rfl⟩ := paymentOutcome_eq_some hout.symm
    obtain rfl := hother pubkey (Uint160.toBytes_injective hkey)
    refine ⟨⟨sig, hcheck⟩, secret, hlen, Uint160.toBytes_injective (of_checkTop_ite htop), ts, ?_⟩
    -- a value of 33 bytes on the stack was pushed as data
    rcases hpushed secret (by simp) with hshort | ⟨op, hop⟩
    · omega
    · exact ⟨op, hts, hop⟩

end Spends

/-! ## A payment reveals the secret -/

section Secret

variable {cr : Crypto}

/-- The search for the secret over a script that reads as `ts`, with enough fuel: the data of the
first instruction whose key id starts with `hx`. -/
theorem scanSecret_of_reads {hx : Bytes} (hlen : hx.length ≤ 20) {s : Bytes}
    {ts : List (UInt8 × Bytes)} (h : Reads readOp s ts) :
    ∀ fuel, s.length ≤ fuel → scanSecret cr hx fuel s =
      .ok ((ts.find? fun t => (getKeyId cr t.2).take hx.length = hx).map Prod.snd) := by
  induction h with
  | nil =>
    intro fuel _
    cases fuel <;> rfl
  | @cons s r t ts hread hrest ih =>
    intro fuel hfuel
    obtain ⟨op, d⟩ := t
    have hlt := readOp_consumes s (op, d) r hread
    have hget := getScriptOp_of_getOp (getOp_of_readOp hread)
    obtain ⟨f, rfl⟩ : ∃ f, fuel = f + 1 := ⟨fuel - 1, by omega⟩
    cases s with
    | nil => simp at hlt
    | cons b s' =>
      rw [scanSecret, hget]
      dsimp only
      rw [if_neg (by omega), List.find?_cons]
      by_cases hmatch : (getKeyId cr d).take hx.length = hx
      · rw [if_pos hmatch]
        simp [hmatch]
      · rw [if_neg hmatch, ih f (by simp only [List.length_cons] at hlt hfuel; omega)]
        simp [hmatch]

/-- **A payment reveals the secret**: where no other bytes hash as `x` does, on the first input
that spends the deposit's outpoint, the value a payment pushes with the `Hash160` of `x` is `x`,
and `getSecretFromPaymentTransaction` finds it. -/
theorem getSecretFromPaymentTransaction_of_paymentSpend {ec : Ecdsa} {inner otherPubKey x : Bytes}
    (hx : NoCollision cr x) {tx : MutableTransaction} {nIn : Nat} (h : nIn < tx.vin.length)
    (hpay : PaymentSpend cr ec ⟨tx, nIn, h⟩ inner otherPubKey x)
    (hfirst : ∀ j (hj : j < nIn), (tx.vin.get ⟨j, hj.trans h⟩).prevout ≠ (tx.vin.get ⟨nIn, h⟩).prevout) :
    getSecretFromPaymentTransaction cr (some tx) (tx.vin.get ⟨nIn, h⟩).prevout.hash
      (tx.vin.get ⟨nIn, h⟩).prevout.n (cr.hash160 x).toBytes = .ok (true, some x) := by
  obtain ⟨-, v, -, hv, ts, op, hts, hmem⟩ := hpay
  -- the input found is input `nIn`
  have hfind : tx.vin.find? (fun txin => txin.prevout.hash == (tx.vin.get ⟨nIn, h⟩).prevout.hash &&
      txin.prevout.n == (tx.vin.get ⟨nIn, h⟩).prevout.n) = some (tx.vin.get ⟨nIn, h⟩) := by
    rw [List.find?_eq_some_iff_getElem]
    refine ⟨by simp, nIn, h, rfl, fun j hj => ?_⟩
    have hne := hfirst j hj
    -- an earlier input has another outpoint, so another hash or another index
    have hdiff : tx.vin[j].prevout.hash ≠ tx.vin[nIn].prevout.hash ∨
        tx.vin[j].prevout.n ≠ tx.vin[nIn].prevout.n := by
      by_cases hhash : tx.vin[j].prevout.hash = tx.vin[nIn].prevout.hash
      · refine .inr fun hn => hne ?_
        simp only [List.get_eq_getElem]
        cases hj1 : tx.vin[j].prevout
        cases hj2 : tx.vin[nIn].prevout
        rw [hj1, hj2] at hhash hn
        simp only at hhash hn
        rw [hhash, hn]
      · exact .inl hhash
    simpa using hdiff
  -- the first data with the key id of `Hash160(x)` is `x`
  have hp : ∀ t : UInt8 × Bytes,
      decide ((getKeyId cr t.2).take (cr.hash160 x).toBytes.length = (cr.hash160 x).toBytes) = true ↔
        t.2 = x := by
    intro t
    rw [decide_eq_true_iff, Uint160.length_toBytes, List.take_of_length_le (by simp [length_getKeyId])]
    constructor
    · intro hid
      exact hx t.2 (Uint160.toBytes_injective hid)
    · intro ht
      rw [ht]
      rfl
  have hsome : (ts.find? fun t =>
      decide ((getKeyId cr t.2).take (cr.hash160 x).toBytes.length = (cr.hash160 x).toBytes)).isSome :=
    List.find?_isSome.mpr ⟨(op, v), hmem, (hp _).mpr (hx v hv)⟩
  obtain ⟨t, ht⟩ := Option.isSome_iff_exists.mp hsome
  have hpt := List.find?_some ht
  have htx : t.2 = x := (hp t).mp hpt
  rw [getSecretFromPaymentTransaction, hfind]
  dsimp only
  have hts' : Reads readOp (tx.vin.get ⟨nIn, h⟩).scriptSig ts := hts
  rw [scanSecret_of_reads (by simp) hts' _ le_rfl, ht, Option.map_some, htx]
  rfl

end Secret

/-! ## The contract -/

/-- What makes `inner` the hashed time-locked contract of a swap, for the keys of both parties,
the secret `x` and the lock time: each party's redeem transaction verifies, every spend is one of
the two, and a payment gives the secret away. -/
structure Htlc (cr : Crypto) (ec : Ecdsa) (myPubKey myPrivKey otherPubKey otherPrivKey x : Bytes)
    (lockTime : UInt32) (inner : Bytes) : Prop where
  /-- The counterparty's payment on one input verifies. -/
  payment_verifies : ∀ conn now o outputs, ∃ tx,
    createPaymentTransaction cr ec conn now [o] outputs otherPubKey otherPrivKey x inner = .ok (some tx) ∧
      verifyInput cr ec tx 0 (payToScriptHash (cr.hash160 inner).toBytes) = .ok ()
  /-- The maker's refund on one input verifies. -/
  refund_verifies : ∀ conn now o outputs, ∃ tx,
    createRefundTransaction cr ec conn now [o] outputs myPubKey myPrivKey inner lockTime = .ok (some tx) ∧
      verifyInput cr ec tx 0 (payToScriptHash (cr.hash160 inner).toBytes) = .ok ()
  /-- Every input that spends the deposit is a refund or a payment. -/
  spend_kinds : ∀ tx nIn (h : nIn < tx.vin.length),
    verifyInput cr ec tx nIn (payToScriptHash (cr.hash160 inner).toBytes) = .ok () →
      RefundSpend cr ec ⟨tx, nIn, h⟩ inner myPubKey lockTime ∨
        PaymentSpend cr ec ⟨tx, nIn, h⟩ inner otherPubKey x
  /-- On the first input that spends its outpoint, a payment gives `x` to the search for the
  secret. -/
  secret_found : ∀ tx nIn (h : nIn < tx.vin.length),
    PaymentSpend cr ec ⟨tx, nIn, h⟩ inner otherPubKey x →
    (∀ j (hj : j < nIn), (tx.vin.get ⟨j, hj.trans h⟩).prevout ≠ (tx.vin.get ⟨nIn, h⟩).prevout) →
    getSecretFromPaymentTransaction cr (some tx) (tx.vin.get ⟨nIn, h⟩).prevout.hash
      (tx.vin.get ⟨nIn, h⟩).prevout.n (cr.hash160 x).toBytes = .ok (true, some x)

/-- **The deposit script is a hashed time-locked contract**, for signers that always sign, a
`Hash160` with no collision on the script, the keys and the secret, a secret of 33 bytes and a lock
time. -/
theorem createDepositUnlockScript_htlc {cr : Crypto} {ec : Ecdsa}
    {myPubKey myPrivKey otherPubKey otherPrivKey x : Bytes} {lockTime : UInt32}
    (hmySigns : SignsFor ec myPrivKey myPubKey) (hotherSigns : SignsFor ec otherPrivKey otherPubKey)
    (hmySome : ∀ hash, (ec.sign myPrivKey hash).isSome)
    (hotherSome : ∀ hash, (ec.sign otherPrivKey hash).isSome)
    (hx : x.length = 33) (hlock : 0 < lockTime)
    (hinner : NoCollision cr (createDepositUnlockScript cr myPubKey otherPubKey (cr.hash160 x).toBytes lockTime))
    (hmy : NoCollision cr myPubKey) (hother : NoCollision cr otherPubKey) (hsecret : NoCollision cr x) :
    Htlc cr ec myPubKey myPrivKey otherPubKey otherPrivKey x lockTime
      (createDepositUnlockScript cr myPubKey otherPubKey (cr.hash160 x).toBytes lockTime) where
  payment_verifies := createPaymentTransaction_verifies hotherSigns hotherSome hx
  refund_verifies := createRefundTransaction_verifies hmySigns hmySome hlock
  spend_kinds _ _ h hv := spendKind_of_verifyInput hinner hmy hother h hv
  secret_found _ _ h hpay hfirst := getSecretFromPaymentTransaction_of_paymentSpend hsecret h hpay hfirst

/-! ### A sample swap -/

/-- The keys and the secret of a sample swap. -/
def htlcMyKey : Bytes := 2 :: List.replicate 32 1

def htlcOtherKey : Bytes := 3 :: List.replicate 32 1

def htlcSecret : Bytes := List.replicate 33 7

/-- A `Hash160` of the keys and the secret: their place in the list, and `0` for other bytes. -/
def htlcKeyHash (b : Bytes) : Uint160 :=
  if b = htlcMyKey then 1 else if b = htlcOtherKey then 2 else if b = htlcSecret then 3 else 0

/-- The sample deposit script, with a lock time of 5. -/
def htlcInner : Bytes :=
  createDepositUnlockScript ⟨fun _ => 0, htlcKeyHash, fun _ _ => none, fun _ => true⟩ htlcMyKey
    htlcOtherKey (3 : Uint160).toBytes 5

/-- The sample `Hash160`, which also gives the deposit script a hash of its own. -/
def htlcCrypto : Crypto where
  hash256 _ := 0
  hash160 b := if b = htlcInner then 4 else htlcKeyHash b
  recover _ _ := none
  parses _ := true

/-- A signer that signs every hash with a 20-byte signature, and a check that accepts it. -/
def htlcEcdsa : Ecdsa where
  verify _ _ _ := true
  sign _ _ := some (List.replicate 20 0x30)

/-- The bytes of each value of the sample's hash. -/
def htlcPreimage (h : Uint160) : Option Bytes :=
  if h = 4 then some htlcInner else if h = 1 then some htlcMyKey else if h = 2 then some htlcOtherKey
  else if h = 3 then some htlcSecret else none

theorem htlcPreimage_hash160 {b : Bytes} (hb : htlcCrypto.hash160 b ≠ 0) :
    htlcPreimage (htlcCrypto.hash160 b) = some b := by
  simp only [htlcCrypto, htlcKeyHash] at hb ⊢
  split_ifs at hb ⊢ with h1 h2 h3 h4
  all_goals first
    | (subst_vars; decide)
    | exact absurd rfl hb

theorem htlcCrypto_noCollision {a : Bytes} (ha : htlcCrypto.hash160 a ≠ 0) : NoCollision htlcCrypto a := by
  intro b hb
  have hpre := htlcPreimage_hash160 (hb ▸ ha)
  rw [hb, htlcPreimage_hash160 ha] at hpre
  exact (Option.some.inj hpre).symm

theorem createDepositUnlockScript_htlcCrypto :
    createDepositUnlockScript htlcCrypto htlcMyKey htlcOtherKey (htlcCrypto.hash160 htlcSecret).toBytes 5 =
      htlcInner := by
  decide

theorem signsFor_htlcEcdsa {priv pub : Bytes} (hpub : validSize pub = true) : SignsFor htlcEcdsa priv pub := by
  refine ⟨hpub, fun hash sig hsig => ?_⟩
  cases hsig
  exact ⟨rfl, by decide, by decide⟩

theorem createDepositUnlockScript_htlc_sample :
    Htlc htlcCrypto htlcEcdsa htlcMyKey [] htlcOtherKey [] htlcSecret 5
      (createDepositUnlockScript htlcCrypto htlcMyKey htlcOtherKey (htlcCrypto.hash160 htlcSecret).toBytes 5) :=
  createDepositUnlockScript_htlc (signsFor_htlcEcdsa (by decide)) (signsFor_htlcEcdsa (by decide))
    (fun _ => rfl) (fun _ => rfl) (by decide) (by decide)
    (htlcCrypto_noCollision (by rw [createDepositUnlockScript_htlcCrypto]; decide))
    (htlcCrypto_noCollision (by decide)) (htlcCrypto_noCollision (by decide))
    (htlcCrypto_noCollision (by decide))

end Blocknet.XBridge
