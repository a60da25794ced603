import Blocknet.XBridge.Deposit
import Blocknet.Script.Spend

/-!
# What the deposit script does

The deposit script of a swap (`createDepositUnlockScript`) is
`IF <lockTime> CHECKLOCKTIMEVERIFY DROP DUP HASH160 <id(myPub)> EQUALVERIFY CHECKSIG ELSE DUP
HASH160 <id(otherPub)> EQUALVERIFY CHECKSIGVERIFY SIZE 33 EQUALVERIFY HASH160 <secretHash> EQUAL
ENDIF`. This module says what it leaves of any stack it is run on, and proves that the interpreter
of `Script.Interpreter` does exactly that.

* `depositOutcome`: a flag on top chooses the branch. The refund branch (`refundOutcome`) takes a
  key hashing to `id(myPubKey)` and a signature, and checks the lock time; the payment branch
  (`paymentOutcome`) takes a key hashing to `id(otherPubKey)`, a signature that checks, and a
  secret of 33 bytes, whose hash it compares with `secretHash`. Each leaves the result of its last
  check on top; `none` is any failure of the run.
* `evalScript_depositUnlockScript`: `EvalScript` of the deposit script on any stack succeeds exactly
  when `depositOutcome` gives a stack, and leaves that stack. The taken branch is run idiom by idiom
  (`Script.Spend`); the other one is skipped, its opcodes counted.
-/

namespace Blocknet.XBridge

open Blocknet.Lib

/-! ## The outcome -/

section Outcome

variable (cr : Crypto) (ec : Ecdsa) (ck : Checker) (script myPubKey otherPubKey secretHash : Bytes)
  (lockTime : UInt32)

/-- The refund branch on the stack below the flag: the lock time is reached, the key hashes to
`id(myPubKey)`, and the signature check's result is left on top. -/
def refundOutcome : List Bytes → Option (List Bytes)
  | pubkey :: sig :: rest =>
    if ck.checkLockTime lockTime.toNat = true ∧ (cr.hash160 pubkey).toBytes = getKeyId cr myPubKey then
      some ((if ck.checkSig cr ec sig pubkey (findAndDelete script (pushData sig)).1 then [1] else []) ::
        rest)
    else none
  | _ => none

/-- The payment branch on the stack below the flag: the key hashes to `id(otherPubKey)`, its
signature checks, the secret has 33 bytes, and whether it hashes to `secretHash` is left on top. -/
def paymentOutcome : List Bytes → Option (List Bytes)
  | pubkey :: sig :: secret :: rest =>
    if (cr.hash160 pubkey).toBytes = getKeyId cr otherPubKey ∧
        ck.checkSig cr ec sig pubkey (findAndDelete script (pushData sig)).1 = true ∧
        secret.length = 33 then
      some ((if (cr.hash160 secret).toBytes = secretHash then [1] else []) :: rest)
    else none
  | _ => none

/-- The deposit script on a stack: the flag on top picks the branch. -/
def depositOutcome : List Bytes → Option (List Bytes)
  | [] => none
  | flag :: rest =>
    if castToBool flag then refundOutcome cr ec ck script myPubKey lockTime rest
    else paymentOutcome cr ec ck script otherPubKey secretHash rest

end Outcome

variable {cr : Crypto} {ec : Ecdsa} {ck : Checker} {script myPubKey otherPubKey secretHash : Bytes}
  {lockTime : UInt32}

/-- What a refund's stack is made of, where the branch succeeds. -/
theorem refundOutcome_eq_some {r S : List Bytes}
    (h : refundOutcome cr ec ck script myPubKey lockTime r = some S) :
    ∃ pubkey sig rest, r = pubkey :: sig :: rest ∧ ck.checkLockTime lockTime.toNat = true ∧
      (cr.hash160 pubkey).toBytes = getKeyId cr myPubKey ∧
      S = (if ck.checkSig cr ec sig pubkey (findAndDelete script (pushData sig)).1 then [1] else []) :: rest := by
  rcases r with _ | ⟨pubkey, _ | ⟨sig, rest⟩⟩
  · cases h
  · cases h
  · by_cases hc : ck.checkLockTime lockTime.toNat = true ∧ (cr.hash160 pubkey).toBytes = getKeyId cr myPubKey
    · rw [refundOutcome, if_pos hc] at h
      exact ⟨pubkey, sig, rest, rfl, hc.1, hc.2, (Option.some.inj h).symm⟩
    · rw [refundOutcome, if_neg hc] at h
      cases h

/-- What a payment's stack is made of, where the branch succeeds. -/
theorem paymentOutcome_eq_some {r S : List Bytes}
    (h : paymentOutcome cr ec ck script otherPubKey secretHash r = some S) :
    ∃ pubkey sig secret rest, r = pubkey :: sig :: secret :: rest ∧
      (cr.hash160 pubkey).toBytes = getKeyId cr otherPubKey ∧
      ck.checkSig cr ec sig pubkey (findAndDelete script (pushData sig)).1 = true ∧ secret.length = 33 ∧
      S = (if (cr.hash160 secret).toBytes = secretHash then [1] else []) :: rest := by
  rcases r with _ | ⟨pubkey, _ | ⟨sig, _ | ⟨secret, rest⟩⟩⟩
  · cases h
  · cases h
  · cases h
  · by_cases hc : (cr.hash160 pubkey).toBytes = getKeyId cr otherPubKey ∧
        ck.checkSig cr ec sig pubkey (findAndDelete script (pushData sig)).1 = true ∧ secret.length = 33
    · rw [paymentOutcome, if_pos hc] at h
      exact ⟨pubkey, sig, secret, rest, rfl, hc.1, hc.2.1, hc.2.2, (Option.some.inj h).symm⟩
    · rw [paymentOutcome, if_neg hc] at h
      cases h

theorem length_getKeyId (cr : Crypto) (pubkey : Bytes) : (getKeyId cr pubkey).length = 20 := by
  simp [getKeyId]

theorem getKeyId_le_max (cr : Crypto) (pubkey : Bytes) :
    (getKeyId cr pubkey).length ≤ MAX_SCRIPT_ELEMENT_SIZE := by
  simp [length_getKeyId, MAX_SCRIPT_ELEMENT_SIZE]

/-! ## The branches -/

theorem refundBranch_instrs : (refundBranch cr myPubKey lockTime).map ScriptItem.instr =
    [(ScriptItem.num lockTime.toNat).instr, (OP_CHECKLOCKTIMEVERIFY, []), (OP_DROP, []), (OP_DUP, []),
      (OP_HASH160, []), (pushOpcode (getKeyId cr myPubKey), getKeyId cr myPubKey), (OP_EQUALVERIFY, []),
      (OP_CHECKSIG, [])] := rfl

theorem paymentBranch_instrs : (paymentBranch cr otherPubKey secretHash).map ScriptItem.instr =
    [(OP_DUP, []), (OP_HASH160, []), (pushOpcode (getKeyId cr otherPubKey), getKeyId cr otherPubKey),
      (OP_EQUALVERIFY, []), (OP_CHECKSIGVERIFY, []), (OP_SIZE, []), (ScriptItem.num 33).instr,
      (OP_EQUALVERIFY, []), (OP_HASH160, []), (pushOpcode secretHash, secretHash), (OP_EQUAL, [])] := rfl

/-- The payment branch after its key check: `CHECKSIGVERIFY SIZE 33 EQUALVERIFY HASH160
<secretHash> EQUAL`. -/
theorem foldlM_step_paymentTail (hsh : secretHash.length ≤ MAX_SCRIPT_ELEMENT_SIZE)
    {vf : List Bool} (hexec : vf.all id = true) {n : Nat} (hn : n + 5 ≤ MAX_OPS_PER_SCRIPT)
    (S : List Bytes) :
    ([(OP_CHECKSIGVERIFY, []), (OP_SIZE, []), (ScriptItem.num 33).instr, (OP_EQUALVERIFY, []),
        (OP_HASH160, []), (pushOpcode secretHash, secretHash), (OP_EQUAL, [])].foldlM
        (step cr ec ck script) ⟨S, vf, n⟩).toOption =
      match S with
      | pubkey :: sig :: secret :: rest =>
        if ck.checkSig cr ec sig pubkey (findAndDelete script (pushData sig)).1 = true ∧
            secret.length = 33 then
          some ⟨(if (cr.hash160 secret).toBytes = secretHash then [1] else []) :: rest, vf, n + 5⟩
        else none
      | _ => none := by
  rw [List.foldlM_cons, step_op (by decide) (by decide) (by simp only; omega) hexec,
    execOpcode_checkSigVerify]
  rcases S with _ | ⟨pubkey, _ | ⟨sig, rest⟩⟩
  · rfl
  · rfl
  by_cases hsig : ck.checkSig cr ec sig pubkey (findAndDelete script (pushData sig)).1 = true
  · simp only [opCheckSig, hsig, if_true, except_ok_bind, List.foldlM_cons]
    rw [step_op (by decide) (by decide) (by simp only; omega) hexec, execOpcode_size]
    rcases rest with _ | ⟨secret, rest⟩
    · rfl
    simp only [opSize, except_ok_bind]
    rw [step_num (by decide) hexec, except_ok_bind,
      step_op (by decide) (by decide) (by simp only; omega) hexec, execOpcode_equalVerify]
    -- `OP_SIZE 33 OP_EQUALVERIFY` compares serializations, which differ unless the sizes do
    have h33 : scriptNumSerialize (secret.length : Int) = scriptNumSerialize 33 ↔ secret.length = 33 :=
      @scriptNumSerialize_natCast_eq_iff _ 33 (by decide)
    simp only [opEqual, if_true, h33]
    by_cases hlen : secret.length = 33
    · simp only [hlen, if_true, except_ok_bind]
      rw [step_op (by decide) (by decide) (by simp only; omega) hexec, execOpcode_hash160]
      simp only [opHash160, except_ok_bind]
      rw [step_push secretHash hsh hexec, except_ok_bind,
        step_op (by decide) (by decide) (by simp only; omega) hexec, execOpcode_equal]
      simp [opEqual, hsig]
    · simp [hlen]
  · rcases rest with _ | ⟨secret, rest⟩ <;> simp [opCheckSig, hsig]

/-- The refund branch, executed. -/
theorem foldlM_refundBranch {vf : List Bool} (hexec : vf.all id = true) {n : Nat}
    (hn : n + 6 ≤ MAX_OPS_PER_SCRIPT) (S : List Bytes) :
    (((refundBranch cr myPubKey lockTime).map ScriptItem.instr).foldlM (step cr ec ck script)
        ⟨S, vf, n⟩).toOption =
      (refundOutcome cr ec ck script myPubKey lockTime S).map fun S' => ⟨S', vf, n + 6⟩ := by
  have hsplit : (refundBranch cr myPubKey lockTime).map ScriptItem.instr =
      [(ScriptItem.num lockTime.toNat).instr, (OP_CHECKLOCKTIMEVERIFY, []), (OP_DROP, [])] ++
        [(OP_DUP, []), (OP_HASH160, []), (pushOpcode (getKeyId cr myPubKey), getKeyId cr myPubKey),
          (OP_EQUALVERIFY, [])] ++ [(OP_CHECKSIG, [])] := rfl
  rw [hsplit, toOption_foldlM_append, toOption_foldlM_append,
    foldlM_step_lockTime (by simpa using lockTime.toNat_lt) hexec (by omega)]
  by_cases hlock : ck.checkLockTime lockTime.toNat = true
  · simp only [hlock, if_true, Option.bind_some]
    rw [foldlM_step_keyHash (getKeyId_le_max cr myPubKey) hexec (by omega)]
    rcases S with _ | ⟨pubkey, S⟩
    · rfl
    by_cases hkey : (cr.hash160 pubkey).toBytes = getKeyId cr myPubKey
    · simp only [hkey, if_true, Option.bind_some]
      rw [foldlM_step_checkSig hexec (by omega)]
      rcases S with _ | ⟨sig, rest⟩ <;> simp [refundOutcome, hlock, hkey]
    · rcases S with _ | ⟨sig, rest⟩ <;> simp [refundOutcome, hkey]
  · rcases S with _ | ⟨pubkey, _ | ⟨sig, rest⟩⟩ <;> simp [refundOutcome, hlock]

/-- The payment branch, executed. -/
theorem foldlM_paymentBranch (hsh : secretHash.length ≤ MAX_SCRIPT_ELEMENT_SIZE) {vf : List Bool}
    (hexec : vf.all id = true) {n : Nat} (hn : n + 8 ≤ MAX_OPS_PER_SCRIPT) (S : List Bytes) :
    (((paymentBranch cr otherPubKey secretHash).map ScriptItem.instr).foldlM (step cr ec ck script)
        ⟨S, vf, n⟩).toOption =
      (paymentOutcome cr ec ck script otherPubKey secretHash S).map fun S' => ⟨S', vf, n + 8⟩ := by
  have hsplit : (paymentBranch cr otherPubKey secretHash).map ScriptItem.instr =
      [(OP_DUP, []), (OP_HASH160, []), (pushOpcode (getKeyId cr otherPubKey), getKeyId cr otherPubKey),
          (OP_EQUALVERIFY, [])] ++
        [(OP_CHECKSIGVERIFY, []), (OP_SIZE, []), (ScriptItem.num 33).instr, (OP_EQUALVERIFY, []),
          (OP_HASH160, []), (pushOpcode secretHash, secretHash), (OP_EQUAL, [])] := rfl
  rw [hsplit, toOption_foldlM_append,
    foldlM_step_keyHash (getKeyId_le_max cr otherPubKey) hexec (by omega)]
  rcases S with _ | ⟨pubkey, S⟩
  · rfl
  by_cases hkey : (cr.hash160 pubkey).toBytes = getKeyId cr otherPubKey
  · simp only [hkey, if_true, Option.bind_some]
    rw [foldlM_step_paymentTail hsh hexec (by omega)]
    rcases S with _ | ⟨sig, _ | ⟨secret, rest⟩⟩
    · rfl
    · rfl
    · simp only [paymentOutcome, hkey, true_and]
      split_ifs <;> rfl
  · rcases S with _ | ⟨sig, _ | ⟨secret, rest⟩⟩ <;> simp [paymentOutcome, hkey]

/-- The refund branch, not taken: six opcodes counted. -/
theorem foldlM_refundBranch_skip {vf : List Bool} (hskip : vf.all id = false) {n : Nat}
    (hn : n + 8 ≤ MAX_OPS_PER_SCRIPT) (S : List Bytes) :
    ((refundBranch cr myPubKey lockTime).map ScriptItem.instr).foldlM (step cr ec ck script)
        ⟨S, vf, n⟩ = .ok ⟨S, vf, n + 6⟩ := by
  have hkey := skippable_push (getKeyId_le_max cr myPubKey)
  have hlock := skippable_num (by simpa using lockTime.toNat_lt :
    (lockTime.toNat : Int).natAbs < 2 ^ 32)
  rw [foldlM_step_skip (fun t ht => ?_) hskip (by simp [refundBranch]; omega)]
  · rw [refundBranch_instrs]
    simp +decide only [List.countP_cons, List.countP_nil, not_op16_lt_push, not_op16_lt_num, if_true,
      if_false]
  · rw [refundBranch_instrs] at ht
    simp only [List.mem_cons, List.not_mem_nil, or_false] at ht
    rcases ht with rfl | rfl | rfl | rfl | rfl | rfl | rfl | rfl
    · exact hlock
    all_goals first | exact hkey | decide

/-- The payment branch, not taken: eight opcodes counted. -/
theorem foldlM_paymentBranch_skip (hsh : secretHash.length ≤ MAX_SCRIPT_ELEMENT_SIZE)
    {vf : List Bool} (hskip : vf.all id = false) {n : Nat} (hn : n + 11 ≤ MAX_OPS_PER_SCRIPT)
    (S : List Bytes) :
    ((paymentBranch cr otherPubKey secretHash).map ScriptItem.instr).foldlM (step cr ec ck script)
        ⟨S, vf, n⟩ = .ok ⟨S, vf, n + 8⟩ := by
  have hkey := skippable_push (getKeyId_le_max cr otherPubKey)
  rw [foldlM_step_skip (fun t ht => ?_) hskip (by simp [paymentBranch]; omega)]
  · rw [paymentBranch_instrs]
    simp +decide only [List.countP_cons, List.countP_nil, not_op16_lt_push, if_true, if_false]
  · rw [paymentBranch_instrs] at ht
    simp only [List.mem_cons, List.not_mem_nil, or_false] at ht
    rcases ht with rfl | rfl | rfl | rfl | rfl | rfl | rfl | rfl | rfl | rfl | rfl
    · decide
    · decide
    · exact hkey
    · decide
    · decide
    · decide
    · exact skippable_num (by decide)
    · decide
    · decide
    · exact skippable_push hsh
    · decide

/-! ## The whole script -/

theorem depositUnlockItems_instrs :
    (depositUnlockItems cr myPubKey otherPubKey secretHash lockTime).map ScriptItem.instr =
      [(OP_IF, [])] ++ (refundBranch cr myPubKey lockTime).map ScriptItem.instr ++ [(OP_ELSE, [])] ++
        (paymentBranch cr otherPubKey secretHash).map ScriptItem.instr ++ [(OP_ENDIF, [])] := by
  simp [depositUnlockItems, ScriptItem.instr]

/-- The instructions of the deposit script, run from an empty `vfExec`: the branch the flag picks
is executed, the other counted, and 17 opcodes are counted in all. -/
theorem foldlM_depositUnlockItems (hsh : secretHash.length ≤ MAX_SCRIPT_ELEMENT_SIZE) (S : List Bytes) :
    (((depositUnlockItems cr myPubKey otherPubKey secretHash lockTime).map ScriptItem.instr).foldlM
        (step cr ec ck script) ⟨S, [], 0⟩).toOption =
      (depositOutcome cr ec ck script myPubKey otherPubKey secretHash lockTime S).map
        fun S' => ⟨S', [], 17⟩ := by
  rw [depositUnlockItems_instrs]
  simp only [toOption_foldlM_append, List.foldlM_cons, List.foldlM_nil]
  rw [step_cond (by decide) (by decide) (by decide) (by simp [MAX_OPS_PER_SCRIPT]), execOpcode_if]
  rcases S with _ | ⟨flag, rest⟩
  · rfl
  simp only [opIf, List.all_nil, Bool.false_eq_true, if_false, if_true, bind_pure, toOption_ok,
    Option.bind_some, Nat.zero_add]
  cases hflag : castToBool flag
  · -- the payment branch
    rw [foldlM_refundBranch_skip rfl (by simp [MAX_OPS_PER_SCRIPT]), toOption_ok, Option.bind_some,
      step_cond (by decide) (by decide) (by decide) (by simp [MAX_OPS_PER_SCRIPT]), execOpcode_else]
    simp only [opElse, toOption_ok, Option.bind_some, Bool.not_false]
    rw [foldlM_paymentBranch hsh rfl (by simp [MAX_OPS_PER_SCRIPT])]
    cases hpay : paymentOutcome cr ec ck script otherPubKey secretHash rest with
    | none => simp [depositOutcome, hflag, hpay]
    | some S' =>
      simp only [Option.map_some, Option.bind_some]
      rw [step_cond (by decide) (by decide) (by decide) (by simp [MAX_OPS_PER_SCRIPT]), execOpcode_endif]
      simp [opEndif, depositOutcome, hflag, hpay]
  · -- the refund branch
    rw [foldlM_refundBranch rfl (by simp [MAX_OPS_PER_SCRIPT])]
    cases hrefund : refundOutcome cr ec ck script myPubKey lockTime rest with
    | none => simp [depositOutcome, hflag, hrefund]
    | some S' =>
      simp only [Option.map_some, Option.bind_some]
      rw [step_cond (by decide) (by decide) (by decide) (by simp [MAX_OPS_PER_SCRIPT]), execOpcode_else]
      simp only [opElse, toOption_ok, Option.bind_some, Bool.not_true]
      rw [foldlM_paymentBranch_skip hsh rfl (by simp [MAX_OPS_PER_SCRIPT]), toOption_ok,
        Option.bind_some,
        step_cond (by decide) (by decide) (by decide) (by simp [MAX_OPS_PER_SCRIPT]), execOpcode_endif]
      simp [opEndif, depositOutcome, hflag, hrefund]

/-- A property of every item of the deposit script, from one for its opcodes (all above
`OP_PUSHDATA4`), its key ids, its secret hash and its two numbers. -/
theorem forall_depositUnlockItems {P : ScriptItem → Prop} (hop : ∀ o : UInt8, 78 < o.toNat → P (.op o))
    (hkey : ∀ k, P (.data (getKeyId cr k))) (hsh : P (.data secretHash)) (hlock : P (.num lockTime.toNat))
    (h33 : P (.num 33)) :
    ∀ i ∈ depositUnlockItems cr myPubKey otherPubKey secretHash lockTime, P i := by
  simp only [depositUnlockItems, refundBranch, paymentBranch, List.cons_append, List.nil_append,
    List.mem_cons, List.not_mem_nil, or_false]
  rintro i (rfl | rfl | rfl | rfl | rfl | rfl | rfl | rfl | rfl | rfl | rfl | rfl | rfl | rfl | rfl |
    rfl | rfl | rfl | rfl | rfl | rfl | rfl)
  all_goals first
    | exact hop _ (by decide)
    | exact hkey _
    | exact hsh
    | exact hlock
    | exact h33

theorem depositUnlockItems_wellFormed (hsh : secretHash.length ≤ MAX_SCRIPT_ELEMENT_SIZE) :
    ∀ i ∈ depositUnlockItems cr myPubKey otherPubKey secretHash lockTime, i.WellFormed := by
  have hlock : (ScriptItem.num lockTime.toNat).WellFormed := by
    show (lockTime.toNat : Int).natAbs < 2 ^ 64
    have := lockTime.toNat_lt
    simp only [Int.natAbs_natCast]
    omega
  have hdata : (ScriptItem.data secretHash).WellFormed := by
    show secretHash.length < 2 ^ 32
    simp only [MAX_SCRIPT_ELEMENT_SIZE] at hsh
    omega
  refine forall_depositUnlockItems (fun o ho => Or.inr ?_) (fun k => ?_) hdata hlock
    (by decide : (33 : Int).natAbs < 2 ^ 64)
  · rw [UInt8.lt_iff_toNat_lt]
    exact ho
  · simp [ScriptItem.WellFormed, length_getKeyId]

/-- The deposit script has at most 92 bytes beside the secret hash. -/
theorem length_createDepositUnlockScript_le_add :
    (createDepositUnlockScript cr myPubKey otherPubKey secretHash lockTime).length ≤
      secretHash.length + 92 := by
  have hlock := length_pushInt64_le (by simpa using lockTime.toNat_lt :
    ((lockTime.toNat : Int)).natAbs < 2 ^ 32)
  have hdata := length_pushData_le secretHash
  have hmy := length_pushData_le (getKeyId cr myPubKey)
  have hother := length_pushData_le (getKeyId cr otherPubKey)
  have h33 := length_pushInt64_le (by decide : (33 : Int).natAbs < 2 ^ 32)
  simp only [length_getKeyId] at hmy hother
  simp only [createDepositUnlockScript, depositUnlockItems, refundBranch, paymentBranch,
    List.cons_append, List.nil_append, buildScript_cons, buildScript_nil, ScriptItem.bytes,
    List.length_append, List.length_cons, List.length_nil]
  omega

theorem length_createDepositUnlockScript_le (hsh : secretHash.length ≤ MAX_SCRIPT_ELEMENT_SIZE) :
    (createDepositUnlockScript cr myPubKey otherPubKey secretHash lockTime).length ≤ MAX_SCRIPT_SIZE := by
  have hlen := @length_createDepositUnlockScript_le_add cr myPubKey otherPubKey secretHash lockTime
  simp only [MAX_SCRIPT_ELEMENT_SIZE] at hsh
  simp only [MAX_SCRIPT_SIZE]
  omega

/-- **What the deposit script does** with any stack: `EvalScript` succeeds exactly where
`depositOutcome` gives a stack, and leaves it. -/
theorem evalScript_depositUnlockScript (hsh : secretHash.length ≤ MAX_SCRIPT_ELEMENT_SIZE)
    (S : List Bytes) :
    (evalScript cr ec ck (createDepositUnlockScript cr myPubKey otherPubKey secretHash lockTime) S).toOption =
      depositOutcome cr ec ck (createDepositUnlockScript cr myPubKey otherPubKey secretHash lockTime)
        myPubKey otherPubKey secretHash lockTime S := by
  have hfold := @foldlM_depositUnlockItems cr ec ck
    (createDepositUnlockScript cr myPubKey otherPubKey secretHash lockTime) myPubKey otherPubKey
    secretHash lockTime hsh S
  have heval : evalScript cr ec ck (createDepositUnlockScript cr myPubKey otherPubKey secretHash lockTime)
      S = _ :=
    evalScript_of_reads (reads_buildScript (depositUnlockItems_wellFormed hsh))
      (length_createDepositUnlockScript_le hsh) S
  rw [heval]
  unfold createDepositUnlockScript at hfold ⊢
  cases hrun : List.foldlM
      (step cr ec ck (buildScript (depositUnlockItems cr myPubKey otherPubKey secretHash lockTime)))
      ⟨S, [], 0⟩ ((depositUnlockItems cr myPubKey otherPubKey secretHash lockTime).map ScriptItem.instr) with
  | error e =>
    rw [hrun, toOption_error] at hfold
    exact (Option.map_eq_none_iff.mp hfold.symm).symm
  | ok st =>
    rw [hrun, toOption_ok] at hfold
    obtain ⟨S', hout, rfl⟩ := Option.map_eq_some_iff.mp hfold.symm
    simp [hout]

end Blocknet.XBridge
