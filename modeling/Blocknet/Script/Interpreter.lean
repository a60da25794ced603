import Blocknet.Script.Num
import Blocknet.Stream
import Blocknet.Lib.Fold
import Mathlib.Data.Nat.Bitwise

/-!
# The script interpreter (`script/interpreter.cpp`)

Model of `EvalScript`, `VerifyScript`, `FindAndDelete`, `SignatureHash` and the transaction
signature checker, for the verification flags `SCRIPT_VERIFY_P2SH | SCRIPT_VERIFY_CHECKLOCKTIMEVERIFY`.
The other flags are off: no `MINIMALDATA`, `DERSIG`, `LOW_S`, `STRICTENC`, `NULLFAIL`,
`CLEANSTACK`, `SIGPUSHONLY`, `CONST_SCRIPTCODE`, `CHECKSEQUENCEVERIFY` or witness rules.

* A stack is a list with its top first (`stacktop(-1)` is the head); `vfExec` likewise.
* `step` is one iteration of the main loop after `GetOp`: the push-size, op-count and disabled
  checks, the push of an executed push opcode, and `execOpcode`, the `switch (opcode)`. The cases
  of the switch modelled are the number pushes, the NOPs (with `OP_CHECKSEQUENCEVERIFY`, a NOP
  under these flags), `OP_CHECKLOCKTIMEVERIFY`, the conditionals, `OP_VERIFY`, `OP_RETURN`,
  `OP_DROP`, `OP_DUP`, `OP_SIZE`, `OP_EQUAL(VERIFY)`, `OP_HASH160` and `OP_CHECKSIG(VERIFY)`; the
  opcodes the switch has no case for fail with `BAD_OPCODE` as in the source. The remaining cases
  (the alt stack, the other stack and arithmetic operations, the other hashes,
  `OP_CODESEPARATOR`, `OP_CHECKMULTISIG`) fail with `unmodelled`: the deposit scripts of xbridge
  use none of them, and a scriptSig that uses one is not push-only, which `VerifyScript` rejects
  for a pay-to-script-hash output whatever its evaluation did. Since `OP_CODESEPARATOR` is not
  executed, the code hashed by `OP_CHECKSIG` starts at the start of the script.
* `evalScript` runs `step` over the instructions `GetOp` reads (`readLoop`), and fails on an
  unbalanced conditional at the end.
* `signatureHash` is the legacy `SignatureHash`, the hash of `signatureImage`, the bytes
  `CTransactionSignatureSerializer` writes; `Checker.checkSig` and `Checker.checkLockTime` are
  those of `GenericTransactionSignatureChecker`, with secp256k1 as the functions of `Ecdsa`.
-/

namespace Blocknet

open Blocknet.Lib

/-! ## Opcodes -/

def OP_RESERVED : UInt8 := 0x50
def OP_NOP : UInt8 := 0x61
def OP_VER : UInt8 := 0x62
def OP_IF : UInt8 := 0x63
def OP_NOTIF : UInt8 := 0x64
def OP_VERIF : UInt8 := 0x65
def OP_VERNOTIF : UInt8 := 0x66
def OP_ELSE : UInt8 := 0x67
def OP_ENDIF : UInt8 := 0x68
def OP_VERIFY : UInt8 := 0x69
def OP_DROP : UInt8 := 0x75
def OP_SIZE : UInt8 := 0x82
def OP_RESERVED1 : UInt8 := 0x89
def OP_RESERVED2 : UInt8 := 0x8a
def OP_CHECKSIGVERIFY : UInt8 := 0xad
def OP_NOP1 : UInt8 := 0xb0
def OP_CHECKLOCKTIMEVERIFY : UInt8 := 0xb1
def OP_CHECKSEQUENCEVERIFY : UInt8 := 0xb2
def OP_NOP4 : UInt8 := 0xb3
def OP_NOP10 : UInt8 := 0xb9

/-- `OP_CAT`, `OP_SUBSTR`, `OP_LEFT`, `OP_RIGHT`, `OP_INVERT`, `OP_AND`, `OP_OR`, `OP_XOR`,
`OP_2MUL`, `OP_2DIV`, `OP_MUL`, `OP_DIV`, `OP_MOD`, `OP_LSHIFT`, `OP_RSHIFT`. -/
def disabledOpcodes : List UInt8 :=
  [0x7e, 0x7f, 0x80, 0x81, 0x83, 0x84, 0x85, 0x86, 0x8d, 0x8e, 0x95, 0x96, 0x97, 0x98, 0x99]

/-- The opcodes `switch (opcode)` has no case for. -/
def isBadOpcode (op : UInt8) : Bool :=
  op = OP_RESERVED || op = OP_VER || op = OP_VERIF || op = OP_VERNOTIF || op = OP_RESERVED1 ||
    op = OP_RESERVED2 || OP_NOP10 < op

/-! ## Errors, limits and the transaction -/

/-- `ScriptError`, for the checks modelled; `unmodelled` is an executed opcode whose case of the
switch is not modelled. -/
inductive ScriptError where
  | UNKNOWN_ERROR
  | EVAL_FALSE
  | OP_RETURN
  | SCRIPT_SIZE
  | PUSH_SIZE
  | OP_COUNT
  | VERIFY
  | EQUALVERIFY
  | CHECKSIGVERIFY
  | BAD_OPCODE
  | DISABLED_OPCODE
  | INVALID_STACK_OPERATION
  | UNBALANCED_CONDITIONAL
  | NEGATIVE_LOCKTIME
  | UNSATISFIED_LOCKTIME
  | SIG_PUSHONLY
  | unmodelled (op : UInt8)
  deriving DecidableEq, Repr

def MAX_SCRIPT_ELEMENT_SIZE : Nat := 520
def MAX_OPS_PER_SCRIPT : Nat := 201
def MAX_SCRIPT_SIZE : Nat := 10000
def LOCKTIME_THRESHOLD : Nat := 500000000
def SEQUENCE_FINAL : UInt32 := 0xffffffff
def SIGHASH_ALL : Nat := 1
def SIGHASH_NONE : Nat := 2
def SIGHASH_SINGLE : Nat := 3
def SIGHASH_ANYONECANPAY : Nat := 0x80

/-- `CTxIn` with its `nSequence`. -/
structure MutableTxIn where
  prevout : OutPoint
  scriptSig : Bytes
  nSequence : UInt32
  deriving DecidableEq, Repr

/-- `CMutableTransaction`, with the `nTime` field of the chains whose transactions carry one. -/
structure MutableTransaction where
  nVersion : Int
  nTime : Option UInt32
  vin : List MutableTxIn
  vout : List TxOut
  nLockTime : UInt32
  deriving DecidableEq, Repr

/-- secp256k1: `CPubKey::Verify`, and the signer of the wallet's crypto provider. -/
structure Ecdsa where
  verify : CPubKey → Uint256 → Bytes → Bool
  sign : Bytes → Uint256 → Option Bytes

/-- A `TransactionSignatureChecker`: the spending transaction and the input being checked. -/
structure Checker where
  tx : MutableTransaction
  nIn : Nat
  nIn_lt : nIn < tx.vin.length

/-- `txTo->vin[nIn]`. -/
def Checker.txin (ck : Checker) : MutableTxIn := ck.tx.vin.get ⟨ck.nIn, ck.nIn_lt⟩

/-! ## Reading instructions with their position -/

/-- `GetScriptOp`, with where it leaves `pc`: whether it read an instruction, the opcode
(`OP_INVALIDOPCODE` on failure), the data, and the bytes after `pc`. A failed read leaves `pc`
after the bytes it consumed. -/
def getScriptOp : Bytes → Bool × UInt8 × Bytes × Bytes
  | [] => (false, 0xff, [], [])
  | op :: rest =>
    if op ≤ OP_PUSHDATA4 then
      match pushSize op rest with
      | none => (false, 0xff, [], rest)
      | some (n, rest') =>
        if rest'.length < n then (false, 0xff, [], rest') else (true, op, rest'.take n, rest'.drop n)
    else (true, op, [], rest)

/-- The bytes `SerializeScriptCode` writes after the size, and the `OP_CODESEPARATOR`s it counts:
each instruction but those, and at a failed `GetOp` the bytes that read consumed. -/
def scriptCodeBody : Nat → Bytes → Bytes × Nat
  | 0, _ => ([], 0)
  | _ + 1, [] => ([], 0)
  | fuel + 1, b :: s =>
    match getScriptOp (b :: s) with
    | (false, _, _, rest) => ((b :: s).take ((b :: s).length - rest.length), 0)
    | (true, op, _, rest) =>
      let r := scriptCodeBody fuel rest
      if op = 0xab then (r.1, r.2 + 1)
      else ((b :: s).take ((b :: s).length - rest.length) ++ r.1, r.2)

/-- `SerializeScriptCode`: the script without its `OP_CODESEPARATOR`s (`0xab`), after its size. -/
def serializeScriptCode (scriptCode : Bytes) : Bytes :=
  let r := scriptCodeBody scriptCode.length scriptCode
  writeCompactSize (scriptCode.length - r.2) ++ r.1

/-! ## The signature hash -/

/-- `Serialize(CTxOut)`. -/
def writeTxOut (o : TxOut) : Bytes := writeSigned 8 o.nValue ++ writeString o.scriptPubKey

/-- The bytes `CTransactionSignatureSerializer::Serialize` writes, then the hash type. -/
def signatureImage (scriptCode : Bytes) (tx : MutableTransaction) (nIn nHashType : Nat) : Bytes :=
  let anyoneCanPay := nHashType &&& SIGHASH_ANYONECANPAY ≠ 0
  let hashSingle := nHashType &&& 0x1f = SIGHASH_SINGLE
  let hashNone := nHashType &&& 0x1f = SIGHASH_NONE
  -- `SerializeInput`: other inputs have no script, and with `SINGLE` or `NONE` no sequence
  let input (nInput : Nat) (txin : MutableTxIn) : Bytes :=
    writeOutPoint txin.prevout ++
      (if nInput ≠ nIn then writeString [] else serializeScriptCode scriptCode) ++
      (if nInput ≠ nIn ∧ (hashSingle ∨ hashNone) then leBytes 4 0 else leBytes 4 txin.nSequence.toNat)
  let inputs : List Bytes :=
    if anyoneCanPay then
      match tx.vin[nIn]? with
      | some txin => [input nIn txin]
      | none => []
    else tx.vin.mapIdx input
  -- `SerializeOutput`: with `SINGLE`, the outputs before `nIn` are `CTxOut()`
  let outputs : List Bytes :=
    if hashNone then []
    else if hashSingle then
      (tx.vout.take (nIn + 1)).mapIdx fun i o => if i ≠ nIn then writeTxOut ⟨-1, []⟩ else writeTxOut o
    else tx.vout.map writeTxOut
  writeSigned 4 tx.nVersion ++ (match tx.nTime with | some t => leBytes 4 t.toNat | none => []) ++
    writeCompactSize inputs.length ++ inputs.flatten ++ writeCompactSize outputs.length ++
    outputs.flatten ++ leBytes 4 tx.nLockTime.toNat ++ writeSigned 4 nHashType

/-- `SignatureHash` for pre-segwit scripts: `one` for an input or a `SINGLE` output that is not
there (where the interpreter's copy asserts the input is there), else the hash of the image. -/
def signatureHash (cr : Crypto) (scriptCode : Bytes) (tx : MutableTransaction) (nIn nHashType : Nat) :
    Uint256 :=
  if tx.vin.length ≤ nIn then 1
  else if nHashType &&& 0x1f = SIGHASH_SINGLE ∧ tx.vout.length ≤ nIn then 1
  else cr.hash256 (signatureImage scriptCode tx nIn nHashType)

/-! ## The signature checker -/

/-- `GenericTransactionSignatureChecker::CheckSig`: a valid key, and a signature whose last byte is
the hash type. -/
def Checker.checkSig (cr : Crypto) (ec : Ecdsa) (ck : Checker) (vchSigIn vchPubKey scriptCode : Bytes) :
    Bool :=
  let pubkey := CPubKey.ofBytes vchPubKey
  if !pubkey.IsValid then false
  else
    match vchSigIn.getLast? with
    | none => false
    | some nHashType =>
      ec.verify pubkey (signatureHash cr scriptCode ck.tx ck.nIn nHashType.toNat) vchSigIn.dropLast

/-- `GenericTransactionSignatureChecker::CheckLockTime`: a lock time of the transaction's kind
(height or time), not after it, on an input that is not final. -/
def Checker.checkLockTime (ck : Checker) (nLockTime : Int) : Bool :=
  decide ((((ck.tx.nLockTime.toNat : Int) < LOCKTIME_THRESHOLD ∧ nLockTime < LOCKTIME_THRESHOLD) ∨
      (LOCKTIME_THRESHOLD ≤ (ck.tx.nLockTime.toNat : Int) ∧ LOCKTIME_THRESHOLD ≤ nLockTime)) ∧
    nLockTime ≤ ck.tx.nLockTime.toNat ∧ ck.txin.nSequence ≠ SEQUENCE_FINAL)

/-! ## `FindAndDelete` -/

/-- The inner loop of `FindAndDelete`: the copies of `b` at the front of `pc`, dropped and counted. -/
def dropCopies (b : Bytes) : Nat → Bytes → Bytes × Nat
  | 0, pc => (pc, 0)
  | fuel + 1, pc =>
    if b.isPrefixOf pc then
      let r := dropCopies b fuel (pc.drop b.length)
      (r.1, r.2 + 1)
    else (pc, 0)

/-- The `do { ... } while (script.GetOp(pc, opcode))` loop of `FindAndDelete`: the bytes it keeps
and the copies it drops, at each instruction boundary. -/
def findAndDeleteLoop (b : Bytes) : Nat → Bytes → Bytes × Nat
  | 0, pc => (pc, 0)
  | fuel + 1, pc =>
    let d := dropCopies b pc.length pc
    match getOp d.1 with
    | none => d
    | some (_, _, rest) =>
      let r := findAndDeleteLoop b fuel rest
      (d.1.take (d.1.length - rest.length) ++ r.1, d.2 + r.2)

/-- `FindAndDelete(script, b)`: the script without the copies of `b` that start at an instruction,
and their number; the script is left as it is when there is none. -/
def findAndDelete (script b : Bytes) : Bytes × Nat :=
  if b = [] then (script, 0)
  else
    let r := findAndDeleteLoop b (script.length + 1) script
    if 0 < r.2 then r else (script, 0)

/-! ## Evaluation -/

/-- `CastToBool`: some byte is not zero, and not only the sign bit of the last one. -/
def castToBool : Bytes → Bool
  | [] => false
  | b :: rest => if b ≠ 0 then !(rest = [] ∧ b = 0x80) else castToBool rest

/-- The state of `EvalScript`'s loop: the stack, `vfExec` and `nOpCount`. -/
structure ExecState where
  stack : List Bytes
  vfExec : List Bool
  nOpCount : Nat
  deriving DecidableEq, Repr

section Ops

variable (st : ExecState)

/-- `OP_IF` and `OP_NOTIF`: where executed, the top of the stack decides the branch. -/
def opIf (fExec notif : Bool) : Except ScriptError ExecState :=
  if fExec then
    match st.stack with
    | [] => .error .UNBALANCED_CONDITIONAL
    | vch :: rest =>
      let fValue := if notif then !castToBool vch else castToBool vch
      .ok { st with stack := rest, vfExec := fValue :: st.vfExec }
  else .ok { st with vfExec := false :: st.vfExec }

/-- `OP_ELSE`. -/
def opElse : Except ScriptError ExecState :=
  match st.vfExec with
  | [] => .error .UNBALANCED_CONDITIONAL
  | b :: rest => .ok { st with vfExec := (!b) :: rest }

/-- `OP_ENDIF`. -/
def opEndif : Except ScriptError ExecState :=
  match st.vfExec with
  | [] => .error .UNBALANCED_CONDITIONAL
  | _ :: rest => .ok { st with vfExec := rest }

/-- `OP_VERIFY`. -/
def opVerify : Except ScriptError ExecState :=
  match st.stack with
  | [] => .error .INVALID_STACK_OPERATION
  | vch :: rest => if castToBool vch then .ok { st with stack := rest } else .error .VERIFY

/-- `OP_DROP`. -/
def opDrop : Except ScriptError ExecState :=
  match st.stack with
  | [] => .error .INVALID_STACK_OPERATION
  | _ :: rest => .ok { st with stack := rest }

/-- `OP_DUP`. -/
def opDup : Except ScriptError ExecState :=
  match st.stack with
  | [] => .error .INVALID_STACK_OPERATION
  | vch :: rest => .ok { st with stack := vch :: vch :: rest }

/-- `OP_SIZE`: the size of the top element, as a script number. -/
def opSize : Except ScriptError ExecState :=
  match st.stack with
  | [] => .error .INVALID_STACK_OPERATION
  | vch :: rest => .ok { st with stack := scriptNumSerialize vch.length :: vch :: rest }

/-- `OP_EQUAL` and `OP_EQUALVERIFY`. -/
def opEqual (verify : Bool) : Except ScriptError ExecState :=
  match st.stack with
  | vch2 :: vch1 :: rest =>
    if verify then
      if vch1 = vch2 then .ok { st with stack := rest } else .error .EQUALVERIFY
    else .ok { st with stack := (if vch1 = vch2 then [1] else []) :: rest }
  | _ => .error .INVALID_STACK_OPERATION

/-- `OP_HASH160`. -/
def opHash160 (cr : Crypto) : Except ScriptError ExecState :=
  match st.stack with
  | [] => .error .INVALID_STACK_OPERATION
  | vch :: rest => .ok { st with stack := (cr.hash160 vch).toBytes :: rest }

/-- `OP_CHECKSIG` and `OP_CHECKSIGVERIFY`: the signature is checked against the script with its
pushes of the signature deleted. -/
def opCheckSig (cr : Crypto) (ec : Ecdsa) (ck : Checker) (script : Bytes) (verify : Bool) :
    Except ScriptError ExecState :=
  match st.stack with
  | vchPubKey :: vchSig :: rest =>
    let scriptCode := (findAndDelete script (pushData vchSig)).1
    let fSuccess := ck.checkSig cr ec vchSig vchPubKey scriptCode
    if verify then
      if fSuccess then .ok { st with stack := rest } else .error .CHECKSIGVERIFY
    else .ok { st with stack := (if fSuccess then [1] else []) :: rest }
  | _ => .error .INVALID_STACK_OPERATION

/-- `OP_CHECKLOCKTIMEVERIFY`: the top element, a script number of at most 5 bytes, is a lock
time the transaction satisfies; a longer one throws `scriptnum_error`, which `EvalScript`
catches as `UNKNOWN_ERROR`. -/
def opCheckLockTimeVerify (ck : Checker) : Except ScriptError ExecState :=
  match st.stack with
  | [] => .error .INVALID_STACK_OPERATION
  | vch :: _ =>
    match CScriptNum.ofBytes vch 5 with
    | none => .error .UNKNOWN_ERROR
    | some nLockTime =>
      if nLockTime < 0 then .error .NEGATIVE_LOCKTIME
      else if !ck.checkLockTime nLockTime then .error .UNSATISFIED_LOCKTIME
      else .ok st

end Ops

/-- The `switch (opcode)` of `EvalScript`, for an instruction that is executed (or conditional). -/
def execOpcode (cr : Crypto) (ec : Ecdsa) (ck : Checker) (script : Bytes) (fExec : Bool) (op : UInt8)
    (st : ExecState) : Except ScriptError ExecState :=
  if op = OP_1NEGATE ∨ (OP_1 ≤ op ∧ op ≤ OP_16) then
    .ok { st with stack := scriptNumSerialize ((op.toNat : Int) - (OP_1.toNat - 1)) :: st.stack }
  else if op = OP_NOP ∨ op = OP_NOP1 ∨ op = OP_CHECKSEQUENCEVERIFY ∨ (OP_NOP4 ≤ op ∧ op ≤ OP_NOP10) then
    .ok st
  else if op = OP_CHECKLOCKTIMEVERIFY then opCheckLockTimeVerify st ck
  else if op = OP_IF ∨ op = OP_NOTIF then opIf st fExec (op = OP_NOTIF)
  else if op = OP_ELSE then opElse st
  else if op = OP_ENDIF then opEndif st
  else if op = OP_VERIFY then opVerify st
  else if op = OP_RETURN then .error .OP_RETURN
  else if op = OP_DROP then opDrop st
  else if op = OP_DUP then opDup st
  else if op = OP_SIZE then opSize st
  else if op = OP_EQUAL ∨ op = OP_EQUALVERIFY then opEqual st (op = OP_EQUALVERIFY)
  else if op = OP_HASH160 then opHash160 st cr
  else if op = OP_CHECKSIG ∨ op = OP_CHECKSIGVERIFY then opCheckSig st cr ec ck script (op = OP_CHECKSIGVERIFY)
  else if isBadOpcode op then .error .BAD_OPCODE
  else .error (.unmodelled op)

/-- One iteration of `EvalScript`'s loop on the instruction `GetOp` read. -/
def step (cr : Crypto) (ec : Ecdsa) (ck : Checker) (script : Bytes) (st : ExecState) :
    UInt8 × Bytes → Except ScriptError ExecState
  | (op, vchPushValue) =>
    let fExec := st.vfExec.all id
    if MAX_SCRIPT_ELEMENT_SIZE < vchPushValue.length then .error .PUSH_SIZE
    else if OP_16 < op ∧ MAX_OPS_PER_SCRIPT < st.nOpCount + 1 then .error .OP_COUNT
    else
      -- `OP_RESERVED` and the pushes do not count towards the opcode limit
      let st := if OP_16 < op then { st with nOpCount := st.nOpCount + 1 } else st
      if op ∈ disabledOpcodes then .error .DISABLED_OPCODE
      else if fExec ∧ op ≤ OP_PUSHDATA4 then .ok { st with stack := vchPushValue :: st.stack }
      else if fExec ∨ (OP_IF ≤ op ∧ op ≤ OP_ENDIF) then execOpcode cr ec ck script fExec op st
      else .ok st

/-- `EvalScript` from the stack `stack`. -/
def evalScript (cr : Crypto) (ec : Ecdsa) (ck : Checker) (script : Bytes) (stack : List Bytes) :
    Except ScriptError (List Bytes) :=
  if MAX_SCRIPT_SIZE < script.length then .error .SCRIPT_SIZE
  else
    match readLoop readOp (step cr ec ck script) .BAD_OPCODE script.length script ⟨stack, [], 0⟩ with
    | .error e => .error e
    | .ok st => if st.vfExec = [] then .ok st.stack else .error .UNBALANCED_CONDITIONAL

/-- The check after an evaluation in `VerifyScript`: a stack whose top is true. -/
def checkTop : List Bytes → Except ScriptError Unit
  | [] => .error .EVAL_FALSE
  | vch :: _ => if castToBool vch then .ok () else .error .EVAL_FALSE

/-- `VerifyScript`: the scriptSig, then the scriptPubKey on what it left; for a pay-to-script-hash
output, a push-only scriptSig whose last push is the script then run on the pushes below it. -/
def verifyScript (cr : Crypto) (ec : Ecdsa) (ck : Checker) (scriptSig scriptPubKey : Bytes) :
    Except ScriptError Unit := do
  let stack ← evalScript cr ec ck scriptSig []
  let stackCopy := stack
  let stack ← evalScript cr ec ck scriptPubKey stack
  checkTop stack
  if isPayToScriptHash scriptPubKey then
    if !isPushOnly scriptSig then throw .SIG_PUSHONLY
    match stackCopy with
    -- `assert(!stack.empty())`: the pay-to-script-hash template fails on an empty stack
    | [] => throw .UNKNOWN_ERROR
    | pubKeySerialized :: rest =>
      let stack ← evalScript cr ec ck pubKeySerialized rest
      checkTop stack

/-- The script check of input `nIn` of `tx` against the output it spends (`CScriptCheck`). -/
def verifyInput (cr : Crypto) (ec : Ecdsa) (tx : MutableTransaction) (nIn : Nat) (scriptPubKey : Bytes) :
    Except ScriptError Unit :=
  if h : nIn < tx.vin.length then
    verifyScript cr ec ⟨tx, nIn, h⟩ (tx.vin.get ⟨nIn, h⟩).scriptSig scriptPubKey
  else .error .UNKNOWN_ERROR

/-! ## The hash bytes -/

@[simp] theorem Uint160.length_toBytes (x : Uint160) : x.toBytes.length = 20 := length_leBytes 20 _

theorem Uint160.ofBytes_toBytes (x : Uint160) : Uint160.ofBytes x.toBytes = x := by
  have hx : x.toNat < 256 ^ 20 := x.isLt
  rw [Uint160.ofBytes, Uint160.toBytes, leNat_leBytes, Nat.mod_eq_of_lt hx, BitVec.ofNat_toNat,
    BitVec.setWidth_eq]

/-- Two hashes with the same bytes are the same. -/
theorem Uint160.toBytes_injective {x y : Uint160} (h : x.toBytes = y.toBytes) : x = y := by
  rw [← Uint160.ofBytes_toBytes x, h, Uint160.ofBytes_toBytes]

/-! ## One instruction -/

section Step

variable {cr : Crypto} {ec : Ecdsa} {ck : Checker} {script : Bytes} {st : ExecState}

@[simp] theorem castToBool_one : castToBool [1] = true := rfl

@[simp] theorem castToBool_nil : castToBool [] = false := rfl

theorem pushOpcode_le (d : Bytes) : pushOpcode d ≤ OP_PUSHDATA4 := by
  unfold pushOpcode
  split_ifs with h1
  · have hb : (UInt8.ofNat d.length).toNat = d.length % 256 := by simp
    have h76 : OP_PUSHDATA1.toNat = 76 := rfl
    rw [UInt8.le_iff_toNat_le, hb]
    show d.length % 256 ≤ 78
    omega
  all_goals decide

/-- The push opcodes lie below `OP_16`. -/
theorem not_lt_of_le_pushdata4 {op : UInt8} (h : op ≤ OP_PUSHDATA4) : ¬ OP_16 < op := by
  rw [UInt8.le_iff_toNat_le] at h
  rw [UInt8.lt_iff_toNat_lt]
  show ¬ 96 < op.toNat
  exact fun h' => absurd (lt_of_lt_of_le h' h) (by decide)

theorem not_mem_disabled_of_le {op : UInt8} (h : op ≤ OP_16) : op ∉ disabledOpcodes := by
  intro hmem
  simp only [disabledOpcodes, List.mem_cons, List.not_mem_nil, or_false] at hmem
  rcases hmem with rfl | rfl | rfl | rfl | rfl | rfl | rfl | rfl | rfl | rfl | rfl | rfl | rfl | rfl | rfl <;>
    exact absurd h (by decide)

/-- An executed push puts its data on the stack. -/
theorem step_push (d : Bytes) (hd : d.length ≤ MAX_SCRIPT_ELEMENT_SIZE) (hexec : st.vfExec.all id = true) :
    step cr ec ck script st (pushOpcode d, d) = .ok { st with stack := d :: st.stack } := by
  have hle := pushOpcode_le d
  have h16 : pushOpcode d ≤ OP_16 := by
    rw [UInt8.le_iff_toNat_le] at hle ⊢
    exact le_trans hle (by decide)
  simp only [step, hexec, Nat.not_lt.mpr hd, not_lt_of_le_pushdata4 hle, false_and, if_false,
    not_mem_disabled_of_le h16, hle, and_self, if_true]

/-- An executed opcode above `OP_16` is counted and run by the switch. -/
theorem step_op {op : UInt8} (hop : OP_16 < op) (hdis : op ∉ disabledOpcodes)
    (hcount : st.nOpCount < MAX_OPS_PER_SCRIPT) (hexec : st.vfExec.all id = true) :
    step cr ec ck script st (op, []) =
      execOpcode cr ec ck script true op { st with nOpCount := st.nOpCount + 1 } := by
  have hpush : ¬ op ≤ OP_PUSHDATA4 := fun h => not_lt_of_le_pushdata4 h hop
  simp only [step, List.length_nil, Nat.not_lt_zero, if_false, hop,
    show ¬ MAX_OPS_PER_SCRIPT < st.nOpCount + 1 by omega, if_true, hdis, hexec, hpush, and_false,
    true_or]

/-- An instruction that is not executed and not a conditional is only counted. -/
theorem step_skip {op : UInt8} {d : Bytes} (hd : d.length ≤ MAX_SCRIPT_ELEMENT_SIZE)
    (hcount : st.nOpCount < MAX_OPS_PER_SCRIPT) (hdis : op ∉ disabledOpcodes)
    (hcond : ¬ (OP_IF ≤ op ∧ op ≤ OP_ENDIF)) (hskip : st.vfExec.all id = false) :
    step cr ec ck script st (op, d) =
      .ok (if OP_16 < op then { st with nOpCount := st.nOpCount + 1 } else st) := by
  simp only [step, Nat.not_lt.mpr hd, if_false, show ¬ MAX_OPS_PER_SCRIPT < st.nOpCount + 1 by omega,
    and_false, hskip, Bool.false_eq_true, false_and, false_or, hcond, hdis]

@[simp] theorem execOpcode_if (fExec : Bool) :
    execOpcode cr ec ck script fExec OP_IF st = opIf st fExec false := rfl

@[simp] theorem execOpcode_else (fExec : Bool) :
    execOpcode cr ec ck script fExec OP_ELSE st = opElse st := rfl

@[simp] theorem execOpcode_endif (fExec : Bool) :
    execOpcode cr ec ck script fExec OP_ENDIF st = opEndif st := rfl

@[simp] theorem execOpcode_checkLockTimeVerify (fExec : Bool) :
    execOpcode cr ec ck script fExec OP_CHECKLOCKTIMEVERIFY st = opCheckLockTimeVerify st ck := rfl

@[simp] theorem execOpcode_drop (fExec : Bool) :
    execOpcode cr ec ck script fExec OP_DROP st = opDrop st := rfl

@[simp] theorem execOpcode_dup (fExec : Bool) :
    execOpcode cr ec ck script fExec OP_DUP st = opDup st := rfl

@[simp] theorem execOpcode_size (fExec : Bool) :
    execOpcode cr ec ck script fExec OP_SIZE st = opSize st := rfl

@[simp] theorem execOpcode_equal (fExec : Bool) :
    execOpcode cr ec ck script fExec OP_EQUAL st = opEqual st false := rfl

@[simp] theorem execOpcode_equalVerify (fExec : Bool) :
    execOpcode cr ec ck script fExec OP_EQUALVERIFY st = opEqual st true := rfl

@[simp] theorem execOpcode_hash160 (fExec : Bool) :
    execOpcode cr ec ck script fExec OP_HASH160 st = opHash160 st cr := rfl

@[simp] theorem execOpcode_checkSig (fExec : Bool) :
    execOpcode cr ec ck script fExec OP_CHECKSIG st = opCheckSig st cr ec ck script false := rfl

@[simp] theorem execOpcode_checkSigVerify (fExec : Bool) :
    execOpcode cr ec ck script fExec OP_CHECKSIGVERIFY st = opCheckSig st cr ec ck script true := rfl

end Step

/-! ## Number pushes -/

/-- A number below `128` in magnitude is one byte at most. -/
theorem length_scriptNumSerialize_small {n : Int} (h : n.natAbs < 128) :
    (scriptNumSerialize n).length ≤ 1 := by
  by_cases h0 : n = 0
  · subst h0
    simp [scriptNumSerialize]
  have hmag : magBytes 8 n.natAbs = [UInt8.ofNat n.natAbs] := by
    have hdiv : n.natAbs / 256 = 0 := by omega
    simp [magBytes, h0, hdiv]
  have hbit : ¬ (UInt8.ofNat n.natAbs &&& 0x80 ≠ 0) := by
    have hb : (UInt8.ofNat n.natAbs).toNat = n.natAbs := by simp; omega
    intro hne
    apply hne
    apply UInt8.toNat_inj.mp
    rw [UInt8.toNat_and, hb]
    show n.natAbs &&& 2 ^ 7 = 0
    rw [Nat.and_two_pow, Nat.testBit_lt_two_pow (by omega : n.natAbs < 2 ^ 7)]
    rfl
  have hlast : [UInt8.ofNat n.natAbs].getLastD 0 = UInt8.ofNat n.natAbs := rfl
  simp only [scriptNumSerialize, h0, if_false, hmag, hlast, hbit]
  split <;> simp

section Step

variable {cr : Crypto} {ec : Ecdsa} {ck : Checker} {script : Bytes} {st : ExecState}

/-- An executed `int64_t` push, by an opcode or by its serialization, puts the serialization on
the stack. -/
theorem step_num {n : Int} (hn : n.natAbs < 2 ^ 32) (hexec : st.vfExec.all id = true) :
    step cr ec ck script st (ScriptItem.num n).instr =
      .ok { st with stack := scriptNumSerialize n :: st.stack } := by
  simp only [ScriptItem.instr]
  split
  · -- `OP_1NEGATE` and `OP_1` to `OP_16`
    rename_i hsmall
    have h81 : (OP_1.toNat : Int) = 81 := rfl
    have hk : 78 < (n + (OP_1.toNat - 1 : Int)).toNat ∧ (n + (OP_1.toNat - 1 : Int)).toNat ≤ 96 := by
      omega
    have hop : (UInt8.ofNat (n + (OP_1.toNat - 1 : Int)).toNat).toNat = (n + (OP_1.toNat - 1 : Int)).toNat := by
      simp; omega
    set op := UInt8.ofNat (n + (OP_1.toNat - 1 : Int)).toNat with hopdef
    have h16 : ¬ OP_16 < op := by rw [UInt8.lt_iff_toNat_lt, hop]; show ¬ 96 < _; omega
    have hpush : ¬ op ≤ OP_PUSHDATA4 := by rw [UInt8.le_iff_toNat_le, hop]; show ¬ _ ≤ 78; omega
    have hdis : op ∉ disabledOpcodes := not_mem_disabled_of_le (by rw [UInt8.le_iff_toNat_le, hop]; exact hk.2)
    have hcase : op = OP_1NEGATE ∨ (OP_1 ≤ op ∧ op ≤ OP_16) := by
      rcases hsmall with rfl | ⟨h1, h2⟩
      · left
        apply UInt8.toNat_inj.mp
        rw [hop]
        decide
      · right
        rw [UInt8.le_iff_toNat_le, UInt8.le_iff_toNat_le, hop]
        exact ⟨by show 81 ≤ _; omega, by show _ ≤ 96; omega⟩
    have hval : ((op.toNat : Int) - (OP_1.toNat - 1)) = n := by rw [hop, h81]; omega
    simp only [step, List.length_nil, Nat.not_lt_zero, if_false, h16, false_and, hdis, hexec,
      hpush, and_false, true_or, if_true, execOpcode, hcase, hval]
  split
  · -- `OP_0`, the push of nothing
    rename_i _ h0
    subst h0
    exact step_push [] (by decide) hexec
  · have hlen : (scriptNumSerialize n).length ≤ MAX_SCRIPT_ELEMENT_SIZE := by
      have := length_scriptNumSerialize_le (k := 4) (by simpa using hn)
      show _ ≤ 520
      omega
    exact step_push _ hlen hexec

end Step

/-! ## Scripts that read as instructions -/

section Eval

variable {cr : Crypto} {ec : Ecdsa} {ck : Checker}

theorem getOp_of_readOp {s : Bytes} {op : UInt8} {d r : Bytes} (h : readOp s = some ((op, d), r)) :
    getOp s = some (op, d, r) := by
  unfold readOp at h
  cases hg : getOp s with
  | none => rw [hg] at h; cases h
  | some p => rw [hg] at h; cases h; rfl

/-- The evaluation of a script that reads as `ts` is the fold of `step` over `ts`. -/
theorem evalScript_of_reads {script : Bytes} {ts : List (UInt8 × Bytes)} (h : Reads readOp script ts)
    (hsize : script.length ≤ MAX_SCRIPT_SIZE) (stack : List Bytes) :
    evalScript cr ec ck script stack =
      match ts.foldlM (step cr ec ck script) ⟨stack, [], 0⟩ with
      | .error e => .error e
      | .ok st => if st.vfExec = [] then .ok st.stack else .error .UNBALANCED_CONDITIONAL := by
  unfold evalScript
  rw [if_neg (Nat.not_lt.mpr hsize), readLoop_eq_foldlM readOp_consumes _ _ h _ le_rfl]

/-- A script that evaluated read to its end, and its instructions left a balanced state. -/
theorem exists_reads_of_evalScript {script : Bytes} {stack stack' : List Bytes}
    (h : evalScript cr ec ck script stack = .ok stack') :
    ∃ ts st, Reads readOp script ts ∧ ts.foldlM (step cr ec ck script) ⟨stack, [], 0⟩ = .ok st ∧
      st.vfExec = [] ∧ st.stack = stack' := by
  unfold evalScript at h
  split at h
  · cases h
  split at h
  · cases h
  · rename_i st hloop
    split at h
    · cases h
      obtain ⟨ts, hts, hfold⟩ := exists_reads_of_readLoop readOp_consumes _ _ le_rfl hloop
      exact ⟨ts, st, hts, hfold, by assumption, rfl⟩
    · cases h

/-- `IsPushOnly` of a script that reads as `ts`: no opcode of `ts` is above `OP_16`. -/
theorem isPushOnly_iff_of_reads {s : Bytes} {ts : List (UInt8 × Bytes)} (h : Reads readOp s ts) :
    isPushOnly s = true ↔ ∀ t ∈ ts, t.1 ≤ OP_16 := by
  -- the scan of `IsPushOnly` stops at the first opcode above `OP_16`
  have hscan : ∀ {s : Bytes} {ts : List (UInt8 × Bytes)}, Reads readOp s ts →
      ∀ {fuel : Nat} {last : Option (UInt8 × Bytes)}, s.length ≤ fuel →
        ((∃ l, scanOps (fun op _ => OP_16 < op) fuel last s = .exhausted l) ↔ ∀ t ∈ ts, t.1 ≤ OP_16) := by
    intro s ts h
    induction h with
    | nil =>
      intro fuel last _
      cases fuel <;> simp [scanOps]
    | @cons s r t ts hread _ ih =>
      intro fuel last hfuel
      have hlt := readOp_consumes s t r hread
      obtain ⟨fuel, rfl⟩ : ∃ f, fuel = f + 1 := ⟨fuel - 1, by omega⟩
      rw [scanOps_succ_of_getOp (getOp_of_readOp hread)]
      by_cases hstop : OP_16 < t.1
      · simp only [hstop, decide_true, if_true, reduceCtorEq, exists_const, false_iff, not_forall]
        exact ⟨t, List.mem_cons_self, fun hle => absurd hstop (by
          rw [UInt8.lt_iff_toNat_lt]; rw [UInt8.le_iff_toNat_le] at hle; omega)⟩
      · simp only [hstop, decide_false, Bool.false_eq_true, if_false, List.mem_cons, forall_eq_or_imp]
        rw [ih (by omega)]
        have hle : t.1 ≤ OP_16 := by
          rw [UInt8.le_iff_toNat_le]; rw [UInt8.lt_iff_toNat_lt] at hstop; omega
        simp [hle]
  have key := @hscan s ts h s.length none le_rfl
  unfold isPushOnly scan
  rw [← key]
  split <;> simp_all

end Eval

/-! ## Push-only scripts -/

section PushOnly

variable {cr : Crypto} {ec : Ecdsa} {ck : Checker} {script : Bytes}

/-- A push-only instruction, executed outside any conditional, pushes its data, pushes a number
of one byte, or fails. -/
theorem step_of_le_op16 {st st' : ExecState} {op : UInt8} {d : Bytes} (hop : op ≤ OP_16)
    (hvf : st.vfExec = []) (h : step cr ec ck script st (op, d) = .ok st') :
    st'.vfExec = [] ∧ (st'.stack = d :: st.stack ∨ ∃ v, st'.stack = v :: st.stack ∧ v.length ≤ 1) := by
  have h16 : ¬ OP_16 < op := by
    rw [UInt8.le_iff_toNat_le] at hop
    rw [UInt8.lt_iff_toNat_lt]
    omega
  simp only [step, hvf, List.all_nil, h16, false_and, if_false, not_mem_disabled_of_le hop,
    true_and, true_or, if_true] at h
  split at h
  · cases h
  split at h
  · cases h
    exact ⟨rfl, .inl rfl⟩
  · -- above the push opcodes: `OP_1NEGATE`, `OP_RESERVED` or `OP_1` to `OP_16`
    rename_i hpush
    rw [UInt8.le_iff_toNat_le] at hop hpush
    have hop' : 78 < op.toNat ∧ op.toNat ≤ 96 := ⟨by simpa [OP_PUSHDATA4] using hpush, hop⟩
    by_cases hc : op = OP_1NEGATE ∨ (OP_1 ≤ op ∧ op ≤ OP_16)
    · simp only [execOpcode, if_pos hc] at h
      cases h
      refine ⟨hvf, .inr ⟨_, rfl, length_scriptNumSerialize_small ?_⟩⟩
      have h81 : OP_1.toNat = 81 := rfl
      omega
    · -- the one left is `OP_RESERVED`, which the switch has no case for
      have hres : op = OP_RESERVED := by
        apply UInt8.toNat_inj.mp
        show op.toNat = 80
        by_contra hne
        apply hc
        rcases Nat.lt_or_gt_of_ne hne with hlt | hgt
        · left
          apply UInt8.toNat_inj.mp
          show op.toNat = 79
          omega
        · right
          rw [UInt8.le_iff_toNat_le, UInt8.le_iff_toNat_le]
          exact ⟨by show 81 ≤ op.toNat; omega, hop⟩
      subst hres
      cases h

/-- From an empty stack, a push-only script leaves the data of its pushes and one-byte numbers. -/
theorem evalScript_pushOnly {s : Bytes} {S : List Bytes} (h : evalScript cr ec ck s [] = .ok S)
    (hpush : isPushOnly s = true) :
    ∃ ts, Reads readOp s ts ∧ ∀ v ∈ S, v.length ≤ 1 ∨ ∃ op, (op, v) ∈ ts := by
  obtain ⟨ts, st, hts, hfold, -, rfl⟩ := exists_reads_of_evalScript h
  have hops := (isPushOnly_iff_of_reads hts).mp hpush
  refine ⟨ts, hts, ?_⟩
  -- the invariant: outside any conditional, every element is pushed data or a small number
  let Inv : ExecState → Prop := fun st =>
    st.vfExec = [] ∧ ∀ v ∈ st.stack, v.length ≤ 1 ∨ ∃ op, (op, v) ∈ ts
  have hinv : Inv st := by
    refine foldlM_inv Inv (step cr ec ck s) ?_ ⟨rfl, by simp⟩ hfold
    rintro st₁ ⟨op, d⟩ st₂ hmem ⟨hvf, hstack⟩ hstep
    obtain ⟨hvf₂, hcases⟩ := step_of_le_op16 (hops _ hmem) hvf hstep
    refine ⟨hvf₂, ?_⟩
    rcases hcases with hpushed | ⟨v, hv, hlen⟩
    · rw [hpushed]
      rintro w (_ | ⟨_, hw⟩)
      · exact .inr ⟨op, hmem⟩
      · exact hstack w hw
    · rw [hv]
      rintro w (_ | ⟨_, hw⟩)
      · exact .inl hlen
      · exact hstack w hw
  exact hinv.2

end PushOnly

/-! ## `FindAndDelete` of a built script -/

theorem dropCopies_of_not_prefix {b pc : Bytes} (h : b.isPrefixOf pc = false) (fuel : Nat) :
    dropCopies b fuel pc = (pc, 0) := by
  cases fuel <;> simp [dropCopies, h]

/-- A built script with no copy of `b` at the start of an item has none at any instruction. -/
theorem findAndDeleteLoop_buildScript {b : Bytes} (hb : b ≠ []) :
    ∀ {items : List ScriptItem}, (∀ i ∈ items, i.WellFormed) →
      (∀ i ∈ items, ∀ rest, b.isPrefixOf (i.bytes ++ rest) = false) →
      ∀ fuel, (findAndDeleteLoop b fuel (buildScript items)).2 = 0
  | _, _, _, 0 => rfl
  | [], _, _, fuel + 1 => by
    have hnil : b.isPrefixOf [] = false := by
      cases b with
      | nil => exact absurd rfl hb
      | cons _ _ => rfl
    simp [findAndDeleteLoop, dropCopies_of_not_prefix hnil, getOp]
  | i :: items, hwf, hno, fuel + 1 => by
    have hread := getOp_of_readOp (readOp_item (hwf i List.mem_cons_self) (buildScript items))
    simp only [findAndDeleteLoop, buildScript_cons,
      dropCopies_of_not_prefix (hno i List.mem_cons_self _), hread, Nat.zero_add]
    exact findAndDeleteLoop_buildScript hb (fun j hj => hwf j (List.mem_cons_of_mem i hj))
      (fun j hj => hno j (List.mem_cons_of_mem i hj)) fuel

/-- `FindAndDelete` leaves a built script as it is when no item starts with `b`. -/
theorem findAndDelete_buildScript {b : Bytes} (hb : b ≠ []) {items : List ScriptItem}
    (hwf : ∀ i ∈ items, i.WellFormed) (hno : ∀ i ∈ items, ∀ rest, b.isPrefixOf (i.bytes ++ rest) = false) :
    findAndDelete (buildScript items) b = (buildScript items, 0) := by
  simp only [findAndDelete, hb, if_false, findAndDeleteLoop_buildScript hb hwf hno, Nat.lt_irrefl]

/-! ## What the signature commits to -/

/-- A transaction with its scriptSigs emptied. -/
def MutableTransaction.withoutScripts (tx : MutableTransaction) : MutableTransaction :=
  { tx with vin := tx.vin.map fun txin => { txin with scriptSig := [] } }

theorem mapIdx_map_eq {α β γ : Type} (f : Nat → β → γ) (g : α → β) :
    ∀ (l : List α), (l.map g).mapIdx f = l.mapIdx fun i a => f i (g a)
  | [] => rfl
  | a :: l => by
    simp only [List.map_cons, List.mapIdx_cons]
    rw [mapIdx_map_eq (fun i => f (i + 1)) g l]

/-- The signature image does not read the scriptSigs. -/
theorem signatureImage_withoutScripts (scriptCode : Bytes) (tx : MutableTransaction) (nIn nHashType : Nat) :
    signatureImage scriptCode tx.withoutScripts nIn nHashType = signatureImage scriptCode tx nIn nHashType := by
  simp only [signatureImage, MutableTransaction.withoutScripts, List.getElem?_map, mapIdx_map_eq]
  cases tx.vin[nIn]? <;> rfl

/-- The signature hash commits to the transaction without its scriptSigs. -/
theorem signatureHash_withoutScripts (cr : Crypto) (scriptCode : Bytes) (tx : MutableTransaction)
    (nIn nHashType : Nat) :
    signatureHash cr scriptCode tx.withoutScripts nIn nHashType = signatureHash cr scriptCode tx nIn nHashType := by
  have hlen : tx.withoutScripts.vin.length = tx.vin.length := by
    simp [MutableTransaction.withoutScripts]
  have hvout : tx.withoutScripts.vout = tx.vout := rfl
  simp only [signatureHash, signatureImage_withoutScripts, hlen, hvout]

/-! ## A branch not taken -/

/-- The instructions of a branch that is not taken are only counted. -/
theorem foldlM_step_skip {cr : Crypto} {ec : Ecdsa} {ck : Checker} {script : Bytes} :
    ∀ {ts : List (UInt8 × Bytes)}, (∀ t ∈ ts, t.2.length ≤ MAX_SCRIPT_ELEMENT_SIZE ∧
        t.1 ∉ disabledOpcodes ∧ ¬ (OP_IF ≤ t.1 ∧ t.1 ≤ OP_ENDIF)) →
      ∀ {st : ExecState}, st.vfExec.all id = false → st.nOpCount + ts.length ≤ MAX_OPS_PER_SCRIPT →
        ts.foldlM (step cr ec ck script) st =
          .ok { st with nOpCount := st.nOpCount + ts.countP fun t => OP_16 < t.1 }
  | [], _, st, _, _ => rfl
  | (op, d) :: ts, hts, st, hskip, hcount => by
    obtain ⟨hd, hdis, hcond⟩ := hts (op, d) List.mem_cons_self
    have hrest : ∀ t ∈ ts, t.2.length ≤ MAX_SCRIPT_ELEMENT_SIZE ∧ t.1 ∉ disabledOpcodes ∧
        ¬ (OP_IF ≤ t.1 ∧ t.1 ≤ OP_ENDIF) := fun t ht => hts t (List.mem_cons_of_mem _ ht)
    simp only [List.length_cons] at hcount
    rw [List.foldlM_cons, step_skip hd (by omega) hdis hcond hskip]
    split
    · rename_i h16
      rw [except_ok_bind, @foldlM_step_skip cr ec ck script ts hrest
        { st with nOpCount := st.nOpCount + 1 } hskip (by simp only; omega)]
      simp only [List.countP_cons, h16, decide_true, if_true, Except.ok.injEq, ExecState.mk.injEq,
        true_and]
      omega
    · rename_i h16
      rw [except_ok_bind, foldlM_step_skip hrest hskip (by omega)]
      simp only [List.countP_cons, h16, decide_false, Bool.false_eq_true, if_false, Nat.add_zero]

end Blocknet
