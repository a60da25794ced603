import Blocknet.Script.Interpreter

/-!
# Spending with a script: straight-line runs, pay-to-script-hash and pay-to-pubkey-hash

Lemmas about `EvalScript` and `VerifyScript` that a proof about a particular script uses: what
the common idioms of a script do on any stack, and what verifying a spend of a
pay-to-script-hash or a pay-to-pubkey-hash output amounts to.

* An executed idiom is stated as the `Option` its run gives (`Except.toOption`): the state after
  it, or `none` where any of its instructions fails. So `<n> OP_CHECKLOCKTIMEVERIFY OP_DROP`
  (`foldlM_step_lockTime`), `OP_DUP OP_HASH160 <id> OP_EQUALVERIFY` (`foldlM_step_keyHash`) and
  `OP_CHECKSIG` (`foldlM_step_checkSig`) compose by `Lib.toOption_foldlM_append`.
* A branch that is not taken only counts its opcodes (`foldlM_step_skip` of the interpreter);
  `Skippable` is what it asks of each instruction.
* `verifyScript_payToScriptHash`: a spend of `OP_HASH160 <h> OP_EQUAL` verifies exactly when the
  scriptSig is push-only, its last push hashes to `h`, and that script, run on the pushes below
  it, leaves a true top.
* `checkSig_append_hashType`: a signature pushed with its hash type checks as the signer's
  `verify` of the signature hash of the transaction.
* `verifyScript_payToPubkeyHash`, `verifyScript_standardP2pkh`: a spend of
  `OP_DUP OP_HASH160 <h> OP_EQUALVERIFY OP_CHECKSIG` verifies exactly when the key hashes to `h`
  and the signature checks; for the standard scriptSig, against the template itself as the
  script code. This is under the interpreter's flags, `P2SH | CHECKLOCKTIMEVERIFY`: with
  `DERSIG` too, a signature must also be strict DER.
-/

namespace Blocknet

open Blocknet.Lib

/-! ## Pushes and numbers -/

theorem pushOpcode_le_op16 (d : Bytes) : pushOpcode d ≤ OP_16 := by
  have hle := pushOpcode_le d
  rw [UInt8.le_iff_toNat_le] at hle ⊢
  exact le_trans hle (by decide : OP_PUSHDATA4.toNat ≤ OP_16.toNat)

/-- The instruction of an `int64_t` push is a push or a number opcode, at most `OP_16`. -/
theorem ScriptItem.num_instr_le (n : Int) : (ScriptItem.num n).instr.1 ≤ OP_16 := by
  simp only [ScriptItem.instr]
  split
  · rename_i hsmall
    have h81 : (OP_1.toNat : Int) = 81 := rfl
    have hb : (UInt8.ofNat (n + (OP_1.toNat - 1 : Int)).toNat).toNat =
        (n + (OP_1.toNat - 1 : Int)).toNat := by
      simp
      omega
    rw [UInt8.le_iff_toNat_le, hb]
    show _ ≤ 96
    omega
  split
  · decide
  · exact pushOpcode_le_op16 _

theorem length_pushData_le (d : Bytes) : (pushData d).length ≤ d.length + 5 := by
  unfold pushData
  split_ifs <;> simp only [List.length_cons, List.length_append, length_leBytes] <;> omega

theorem length_pushInt64_le {n : Int} (hn : n.natAbs < 2 ^ 32) : (pushInt64 n).length ≤ 10 := by
  have hlen := length_scriptNumSerialize_le (k := 4) (by simpa using hn)
  have hpush := length_pushData_le (scriptNumSerialize n)
  unfold pushInt64
  split_ifs
  · simp
  · simp
  · omega

/-- Data shorter than `OP_PUSHDATA1` is pushed behind its length. -/
theorem pushData_of_lt {d : Bytes} (hd : d.length < 76) : pushData d = UInt8.ofNat d.length :: d := by
  simp [pushData, OP_PUSHDATA1, hd]

theorem pushData_ne_nil (d : Bytes) : pushData d ≠ [] := by
  unfold pushData
  split_ifs <;> simp

/-- An `int64_t` push starts with a number opcode, `OP_0`, or the length of at most five bytes. -/
theorem pushInt64_head {n : Int} (hn : n.natAbs < 2 ^ 32) :
    ∃ c rest, pushInt64 n = c :: rest ∧ (c.toNat ≤ 5 ∨ 79 ≤ c.toNat) := by
  unfold pushInt64
  split_ifs with hsmall hzero
  · refine ⟨_, [], rfl, .inr ?_⟩
    have h81 : (OP_1.toNat : Int) = 81 := rfl
    simp only [UInt8.toNat_ofNat', Nat.reducePow]
    omega
  · exact ⟨OP_0, [], rfl, .inl (by decide)⟩
  · have hlen : (scriptNumSerialize n).length ≤ 4 + 1 :=
      length_scriptNumSerialize_le (k := 4) (by simpa using hn)
    refine ⟨_, _, pushData_of_lt (by omega), .inl ?_⟩
    simp only [UInt8.toNat_ofNat', Nat.reducePow]
    omega

/-- Each push adds at most five bytes to its data. -/
theorem length_buildScript_data_le :
    ∀ {ds : List Bytes}, (∀ d ∈ ds, d.length ≤ MAX_SCRIPT_ELEMENT_SIZE) →
      (buildScript (ds.map ScriptItem.data)).length ≤ ds.length * (MAX_SCRIPT_ELEMENT_SIZE + 5)
  | [], _ => by simp
  | d :: ds, hds => by
    have hd := length_pushData_le d
    have hdmax := hds d List.mem_cons_self
    have hrest := length_buildScript_data_le (fun e he => hds e (List.mem_cons_of_mem d he))
    simp only [List.map_cons, buildScript_cons, ScriptItem.bytes, List.length_append,
      List.length_cons, Nat.succ_mul]
    omega

/-- A lock time of 32 bits reads back as a `CScriptNum` of at most 5 bytes. -/
theorem CScriptNum.ofBytes_serialize {n : Nat} (hn : n < 2 ^ 32) :
    CScriptNum.ofBytes (scriptNumSerialize n) 5 = some (n : Int) := by
  have hlen : (scriptNumSerialize n).length ≤ 4 + 1 :=
    length_scriptNumSerialize_le (k := 4) (by simpa using hn)
  simp only [CScriptNum.ofBytes, show ¬ 5 < (scriptNumSerialize n).length by omega, if_false,
    scriptNumDecode_serialize (by omega : n < 2 ^ 64)]

/-- A number serializes as a small one only if it is that number: `OP_SIZE <b> OP_EQUAL` checks
the size exactly. -/
theorem scriptNumSerialize_natCast_eq_iff {a b : Nat} (hb : b < 128) :
    scriptNumSerialize a = scriptNumSerialize b ↔ a = b := by
  constructor
  · intro h
    have hlen : (scriptNumSerialize a).length ≤ 1 := by
      rw [h]
      exact length_scriptNumSerialize_small (by simpa using hb)
    have ha : a < 256 := lt_of_length_scriptNumSerialize hlen
    exact scriptNumSerialize_injective (by omega) (by omega) h
  · rintro rfl
    rfl

/-! ## Reading instructions -/

/-- Where `GetOp` reads an instruction, the loop's own `GetScriptOp` reads the same one. -/
theorem getScriptOp_of_getOp {s : Bytes} {op : UInt8} {d r : Bytes} (h : getOp s = some (op, d, r)) :
    getScriptOp s = (true, op, d, r) := by
  match s, h with
  | b :: rest, h =>
    simp only [getOp] at h
    simp only [getScriptOp]
    by_cases hle : b ≤ OP_PUSHDATA4
    · rw [if_pos hle] at h ⊢
      cases hsize : pushSize b rest with
      | none =>
        rw [hsize] at h
        cases h
      | some p =>
        obtain ⟨n, rest'⟩ := p
        rw [hsize] at h
        dsimp only at h ⊢
        by_cases hlen : rest'.length < n
        · rw [if_pos hlen] at h
          cases h
        · rw [if_neg hlen] at h ⊢
          cases h
          rfl
    · rw [if_neg hle] at h ⊢
      cases h
      rfl

/-! ## Straight-line runs -/

section Run

variable {cr : Crypto} {ec : Ecdsa} {ck : Checker} {script : Bytes}

/-- A conditional opcode runs whether or not its branch is executed. -/
theorem step_cond {st : ExecState} {op : UInt8} (hop : OP_16 < op) (hdis : op ∉ disabledOpcodes)
    (hcond : OP_IF ≤ op ∧ op ≤ OP_ENDIF) (hcount : st.nOpCount < MAX_OPS_PER_SCRIPT) :
    step cr ec ck script st (op, []) =
      execOpcode cr ec ck script (st.vfExec.all id) op { st with nOpCount := st.nOpCount + 1 } := by
  have hpush : ¬ op ≤ OP_PUSHDATA4 := fun h => not_lt_of_le_pushdata4 h hop
  simp only [step, List.length_nil, Nat.not_lt_zero, if_false, hop,
    show ¬ MAX_OPS_PER_SCRIPT < st.nOpCount + 1 by omega, if_true, hdis, hpush, and_false, hcond,
    and_self, or_true]

/-- Executed pushes put their data on the stack, the last one on top. -/
theorem foldlM_step_pushes :
    ∀ {ds : List Bytes}, (∀ d ∈ ds, d.length ≤ MAX_SCRIPT_ELEMENT_SIZE) →
      ∀ {st : ExecState}, st.vfExec.all id = true →
        (ds.map fun d => (pushOpcode d, d)).foldlM (step cr ec ck script) st =
          .ok { st with stack := ds.reverse ++ st.stack }
  | [], _, st, _ => rfl
  | d :: ds, hds, st, hexec => by
    have hexec' : ({ st with stack := d :: st.stack } : ExecState).vfExec.all id = true := hexec
    rw [List.map_cons, List.foldlM_cons, step_push d (hds d List.mem_cons_self) hexec, except_ok_bind,
      foldlM_step_pushes (fun e he => hds e (List.mem_cons_of_mem d he)) hexec']
    simp

/-- `<n> OP_CHECKLOCKTIMEVERIFY OP_DROP`: the lock time check, and nothing else. -/
theorem foldlM_step_lockTime {lockTime : Nat} (hlt : lockTime < 2 ^ 32)
    {vf : List Bool} (hexec : vf.all id = true) {n : Nat} (hn : n + 2 ≤ MAX_OPS_PER_SCRIPT)
    (S : List Bytes) :
    ([(ScriptItem.num lockTime).instr, (OP_CHECKLOCKTIMEVERIFY, []), (OP_DROP, [])].foldlM
        (step cr ec ck script) ⟨S, vf, n⟩).toOption =
      if ck.checkLockTime lockTime then some ⟨S, vf, n + 2⟩ else none := by
  rw [List.foldlM_cons, step_num (by simpa using hlt) hexec, except_ok_bind, List.foldlM_cons,
    step_op (by decide) (by decide) (by simp only; omega) hexec]
  simp only [execOpcode_checkLockTimeVerify, opCheckLockTimeVerify,
    CScriptNum.ofBytes_serialize hlt, if_neg (by omega : ¬ ((lockTime : Int) < 0))]
  by_cases hlock : ck.checkLockTime lockTime = true
  · rw [if_neg (by simp [hlock]), except_ok_bind, List.foldlM_cons,
      step_op (by decide) (by decide) (by simp only; omega) hexec]
    simp [opDrop, hlock]
  · rw [if_pos (by simp [hlock])]
    simp [hlock]

/-- `OP_DUP OP_HASH160 <keyId> OP_EQUALVERIFY`: the top of the stack hashes to `keyId`. -/
theorem foldlM_step_keyHash {keyId : Bytes} (hid : keyId.length ≤ MAX_SCRIPT_ELEMENT_SIZE)
    {vf : List Bool} (hexec : vf.all id = true) {n : Nat} (hn : n + 3 ≤ MAX_OPS_PER_SCRIPT)
    (S : List Bytes) :
    ([(OP_DUP, []), (OP_HASH160, []), (pushOpcode keyId, keyId), (OP_EQUALVERIFY, [])].foldlM
        (step cr ec ck script) ⟨S, vf, n⟩).toOption =
      match S with
      | [] => none
      | v :: _ => if (cr.hash160 v).toBytes = keyId then some ⟨S, vf, n + 3⟩ else none := by
  rw [List.foldlM_cons, step_op (by decide) (by decide) (by simp only; omega) hexec]
  cases S with
  | nil => rfl
  | cons v S =>
    simp only [execOpcode_dup, opDup, except_ok_bind, List.foldlM_cons]
    rw [step_op (by decide) (by decide) (by simp only; omega) hexec]
    simp only [execOpcode_hash160, opHash160, except_ok_bind]
    rw [step_push keyId hid hexec, except_ok_bind,
      step_op (by decide) (by decide) (by simp only; omega) hexec]
    simp only [execOpcode_equalVerify, opEqual, if_true]
    split_ifs <;> rfl

/-- `OP_CHECKSIG`: the key on top and the signature below it give way to the check's result. -/
theorem foldlM_step_checkSig {vf : List Bool} (hexec : vf.all id = true) {n : Nat}
    (hn : n + 1 ≤ MAX_OPS_PER_SCRIPT) (S : List Bytes) :
    ([(OP_CHECKSIG, [])].foldlM (step cr ec ck script) ⟨S, vf, n⟩).toOption =
      match S with
      | pubkey :: sig :: rest =>
        some ⟨(if ck.checkSig cr ec sig pubkey (findAndDelete script (pushData sig)).1 then [1]
          else []) :: rest, vf, n + 1⟩
      | _ => none := by
  rw [List.foldlM_cons, step_op (by decide) (by decide) (by simp only; omega) hexec,
    execOpcode_checkSig]
  rcases S with _ | ⟨pubkey, _ | ⟨sig, rest⟩⟩ <;> rfl

/-- What a branch that is not taken asks of an instruction: a push within the size limit, an
opcode that is not disabled, and not a conditional. -/
def Skippable (t : UInt8 × Bytes) : Prop :=
  t.2.length ≤ MAX_SCRIPT_ELEMENT_SIZE ∧ t.1 ∉ disabledOpcodes ∧ ¬ (OP_IF ≤ t.1 ∧ t.1 ≤ OP_ENDIF)

theorem skippable_of_le_op16 {t : UInt8 × Bytes} (ht : t.1 ≤ OP_16)
    (hlen : t.2.length ≤ MAX_SCRIPT_ELEMENT_SIZE) : Skippable t := by
  refine ⟨hlen, not_mem_disabled_of_le ht, fun hcond => ?_⟩
  have h1 : OP_IF.toNat ≤ t.1.toNat := UInt8.le_iff_toNat_le.mp hcond.1
  have h2 : t.1.toNat ≤ OP_16.toNat := UInt8.le_iff_toNat_le.mp ht
  have h3 : OP_16.toNat < OP_IF.toNat := by decide
  omega

theorem skippable_push {d : Bytes} (hd : d.length ≤ MAX_SCRIPT_ELEMENT_SIZE) :
    Skippable (pushOpcode d, d) :=
  skippable_of_le_op16 (pushOpcode_le_op16 d) hd

theorem skippable_num {n : Int} (hn : n.natAbs < 2 ^ 32) : Skippable (ScriptItem.num n).instr := by
  refine skippable_of_le_op16 (ScriptItem.num_instr_le n) ?_
  have hlen := length_scriptNumSerialize_le (k := 4) (by simpa using hn)
  simp only [ScriptItem.instr]
  split_ifs
  · exact Nat.zero_le _
  · exact Nat.zero_le _
  · show (scriptNumSerialize n).length ≤ 520
    omega

theorem not_op16_lt_push (d : Bytes) : ¬ OP_16 < pushOpcode d :=
  not_lt_of_le_pushdata4 (pushOpcode_le d)

theorem not_op16_lt_num (n : Int) : ¬ OP_16 < (ScriptItem.num n).instr.1 := by
  have := ScriptItem.num_instr_le n
  rw [UInt8.le_iff_toNat_le] at this
  rw [UInt8.lt_iff_toNat_lt]
  omega

end Run

/-! ## The checker -/

section Checker

variable {cr : Crypto} {ec : Ecdsa} {ck : Checker}

/-- A signature pushed with its hash type checks as `verify` of the signature hash, for a key of
a valid size. -/
theorem checkSig_append_hashType {pubkey : Bytes} (hvalid : validSize pubkey = true)
    (sig scriptCode : Bytes) (nHashType : UInt8) :
    ck.checkSig cr ec (sig ++ [nHashType]) pubkey scriptCode =
      ec.verify (CPubKey.ofBytes pubkey) (signatureHash cr scriptCode ck.tx ck.nIn nHashType.toNat) sig := by
  have hne : pubkey ≠ [] := by
    rintro rfl
    cases hvalid
  simp [Checker.checkSig, CPubKey.ofBytes, hvalid, CPubKey.IsValid, hne]

theorem length_le_of_validSize {pubkey : Bytes} (hvalid : validSize pubkey = true) :
    pubkey.length ≤ 65 := by
  match pubkey, hvalid with
  | c :: rest, hvalid =>
    have hlen : pubKeyLen c = (c :: rest).length := by simpa [validSize] using hvalid
    rw [← hlen]
    unfold pubKeyLen
    split_ifs <;> omega

/-- `CheckLockTime` as the source's comments put it: a lock time of the transaction's kind, not
after the transaction's, on an input that is not final. -/
theorem checkLockTime_iff (nLockTime : Int) :
    ck.checkLockTime nLockTime = true ↔
      (((ck.tx.nLockTime.toNat : Int) < LOCKTIME_THRESHOLD ↔ nLockTime < LOCKTIME_THRESHOLD) ∧
        nLockTime ≤ ck.tx.nLockTime.toNat ∧ ck.txin.nSequence ≠ SEQUENCE_FINAL) := by
  simp only [Checker.checkLockTime, decide_eq_true_eq]
  constructor
  · rintro ⟨hkind, hle, hseq⟩
    exact ⟨by omega, hle, hseq⟩
  · rintro ⟨hkind, hle, hseq⟩
    exact ⟨by omega, hle, hseq⟩

end Checker

/-! ## Pay-to-script-hash -/

section P2SH

variable {cr : Crypto} {ec : Ecdsa} {ck : Checker}

theorem checkTop_cons (b : Bytes) (rest : List Bytes) :
    checkTop (b :: rest) = if castToBool b then .ok () else .error .EVAL_FALSE := rfl

/-- A script that ends with a check's result on top succeeds only where the check passed. -/
theorem of_checkTop_ite {c : Prop} [Decidable c] {rest : List Bytes}
    (h : checkTop ((if c then [1] else []) :: rest) = .ok ()) : c := by
  by_contra hc
  rw [if_neg hc, checkTop_cons, castToBool_nil] at h
  cases h

/-- A script built of pushes is push-only. -/
theorem isPushOnly_buildScript {items : List ScriptItem} (hwf : ∀ i ∈ items, i.WellFormed)
    (hops : ∀ i ∈ items, i.instr.1 ≤ OP_16) : isPushOnly (buildScript items) = true := by
  rw [isPushOnly_iff_of_reads (reads_buildScript hwf)]
  simpa using hops

/-- A script of data pushes runs from any stack to the data on it, the last pushed on top. -/
theorem evalScript_pushes {ds : List Bytes} (hds : ∀ d ∈ ds, d.length ≤ MAX_SCRIPT_ELEMENT_SIZE)
    (hn : ds.length ≤ 19) (S : List Bytes) :
    evalScript cr ec ck (buildScript (ds.map ScriptItem.data)) S = .ok (ds.reverse ++ S) := by
  have hwf : ∀ i ∈ ds.map ScriptItem.data, i.WellFormed := by
    simp only [List.mem_map]
    rintro _ ⟨d, hd, rfl⟩
    have hmax := hds d hd
    simp only [MAX_SCRIPT_ELEMENT_SIZE] at hmax
    show d.length < 2 ^ 32
    omega
  have hsize : (buildScript (ds.map ScriptItem.data)).length ≤ MAX_SCRIPT_SIZE := by
    have hlen := length_buildScript_data_le hds
    simp only [MAX_SCRIPT_ELEMENT_SIZE, MAX_SCRIPT_SIZE] at hlen ⊢
    omega
  have hinstr : ScriptItem.instr ∘ ScriptItem.data = fun d => (pushOpcode d, d) := rfl
  rw [evalScript_of_reads (reads_buildScript hwf) hsize, List.map_map, hinstr,
    foldlM_step_pushes hds rfl]
  rfl

/-- A script of data pushes is push-only. -/
theorem isPushOnly_pushes {ds : List Bytes} (hds : ∀ d ∈ ds, d.length < 2 ^ 32) :
    isPushOnly (buildScript (ds.map ScriptItem.data)) = true := by
  refine isPushOnly_buildScript ?_ ?_
  · simp only [List.mem_map]
    rintro _ ⟨d, hd, rfl⟩
    exact hds d hd
  · simp only [List.mem_map]
    rintro _ ⟨d, -, rfl⟩
    exact pushOpcode_le_op16 d

theorem payToScriptHash_eq_buildScript {h : Bytes} (hl : h.length = 20) :
    payToScriptHash h = buildScript [.op OP_HASH160, .data h, .op OP_EQUAL] := by
  have hpush : pushData h = 0x14 :: h := by
    simp [pushData, hl, OP_PUSHDATA1]
  simp [payToScriptHash, buildScript, ScriptItem.bytes, hpush]

/-- The pay-to-script-hash template replaces the top of the stack by whether it hashes to `h`. -/
theorem evalScript_payToScriptHash {h : Bytes} (hl : h.length = 20) (S : List Bytes) :
    evalScript cr ec ck (payToScriptHash h) S =
      match S with
      | [] => .error .INVALID_STACK_OPERATION
      | y :: rest => .ok ((if (cr.hash160 y).toBytes = h then [1] else []) :: rest) := by
  have hwf : ∀ i ∈ [ScriptItem.op OP_HASH160, .data h, .op OP_EQUAL], i.WellFormed := by
    simp only [List.mem_cons, List.not_mem_nil, or_false]
    rintro i (rfl | rfl | rfl)
    · exact Or.inr (by decide)
    · show h.length < 2 ^ 32
      omega
    · exact Or.inr (by decide)
  have hsize : (buildScript [ScriptItem.op OP_HASH160, .data h, .op OP_EQUAL]).length ≤ MAX_SCRIPT_SIZE := by
    rw [← payToScriptHash_eq_buildScript hl]
    simp [payToScriptHash, hl, MAX_SCRIPT_SIZE]
  rw [payToScriptHash_eq_buildScript hl, evalScript_of_reads (reads_buildScript hwf) hsize]
  simp only [List.map_cons, List.map_nil, ScriptItem.instr, List.foldlM_cons, List.foldlM_nil]
  rw [step_op (by decide) (by decide) (by simp [MAX_OPS_PER_SCRIPT]) rfl, execOpcode_hash160]
  rcases S with _ | ⟨y, rest⟩
  · rfl
  simp only [opHash160, except_ok_bind]
  rw [step_push h (by simp [hl, MAX_SCRIPT_ELEMENT_SIZE]) rfl, except_ok_bind,
    step_op (by decide) (by decide) (by simp [MAX_OPS_PER_SCRIPT]) rfl, execOpcode_equal]
  simp [opEqual]

/-- **Spending a pay-to-script-hash output**: the spend verifies exactly when the scriptSig is
push-only, its pushes end in a script `y` hashing to `h`, and `y`, run on the pushes below it,
leaves a true top. -/
theorem verifyScript_payToScriptHash {h : Bytes} (hl : h.length = 20) {scriptSig : Bytes} :
    verifyScript cr ec ck scriptSig (payToScriptHash h) = .ok () ↔
      isPushOnly scriptSig = true ∧ ∃ y rest S, evalScript cr ec ck scriptSig [] = .ok (y :: rest) ∧
        (cr.hash160 y).toBytes = h ∧ evalScript cr ec ck y rest = .ok S ∧ checkTop S = .ok () := by
  have hp2sh := isPayToScriptHash_payToScriptHash hl
  unfold verifyScript
  constructor
  · intro hv
    obtain ⟨stack, hsig, hv⟩ := except_bind_eq_ok hv
    rw [evalScript_payToScriptHash hl] at hv
    rcases stack with _ | ⟨y, rest⟩
    · cases hv
    by_cases hhash : (cr.hash160 y).toBytes = h
    · by_cases hpush : isPushOnly scriptSig = true
      · simp only [hhash, if_true, except_ok_bind, checkTop_cons, castToBool_one, hp2sh, hpush,
          Bool.not_true, Bool.false_eq_true, if_false] at hv
        obtain ⟨S, heval, htop⟩ := except_bind_eq_ok hv
        exact ⟨hpush, y, rest, S, hsig, hhash, heval, htop⟩
      · simp [hhash, checkTop_cons, hp2sh, hpush] at hv
    · simp [hhash, checkTop_cons] at hv
  · rintro ⟨hpush, y, rest, S, hsig, hhash, heval, htop⟩
    simp [hsig, evalScript_payToScriptHash hl, hhash, checkTop_cons, hp2sh, hpush, heval, htop]

end P2SH

/-! ## Pay-to-pubkey-hash -/

section P2PKH

variable {cr : Crypto} {ec : Ecdsa} {ck : Checker}

theorem payToPubkeyHash_eq_buildScript {h : Bytes} (hl : h.length = 20) :
    payToPubkeyHash h =
      buildScript [.op OP_DUP, .op OP_HASH160, .data h, .op OP_EQUALVERIFY, .op OP_CHECKSIG] := by
  have hpush : pushData h = 0x14 :: h := by
    simp [pushData, hl, OP_PUSHDATA1]
  simp [payToPubkeyHash, buildScript, ScriptItem.bytes, hpush]

theorem isPayToScriptHash_payToPubkeyHash (h : Bytes) :
    isPayToScriptHash (payToPubkeyHash h) = false := by
  simp [isPayToScriptHash, payToPubkeyHash, OP_DUP, OP_HASH160]

/-- A script that ends balanced, as far as its success goes: the stack its instructions leave. -/
theorem toOption_evalScript_of_reads {script : Bytes} {ts : List (UInt8 × Bytes)}
    (h : Reads readOp script ts) (hsize : script.length ≤ MAX_SCRIPT_SIZE) (stack : List Bytes) :
    (evalScript cr ec ck script stack).toOption =
      (ts.foldlM (step cr ec ck script) ⟨stack, [], 0⟩).toOption.bind fun st =>
        if st.vfExec = [] then some st.stack else none := by
  rw [evalScript_of_reads h hsize]
  rcases ts.foldlM (step cr ec ck script) ⟨stack, [], 0⟩ with e | st
  · rfl
  · simp only [Except.toOption, Option.bind_some]
    split_ifs <;> rfl

/-- The pay-to-pubkey-hash template takes a key with a signature below it, and leaves whether the
key hashes to `h` and the signature checks. -/
theorem evalScript_payToPubkeyHash {h : Bytes} (hl : h.length = 20) (S : List Bytes) :
    (evalScript cr ec ck (payToPubkeyHash h) S).toOption =
      match S with
      | pubkey :: sig :: rest =>
        if (cr.hash160 pubkey).toBytes = h then
          some ((if ck.checkSig cr ec sig pubkey (findAndDelete (payToPubkeyHash h) (pushData sig)).1
            then [1] else []) :: rest)
        else none
      | _ => none := by
  have hwf : ∀ i ∈ [ScriptItem.op OP_DUP, .op OP_HASH160, .data h, .op OP_EQUALVERIFY,
      .op OP_CHECKSIG], i.WellFormed := by
    simp only [List.mem_cons, List.not_mem_nil, or_false]
    rintro i (rfl | rfl | rfl | rfl | rfl)
    · exact Or.inr (by decide)
    · exact Or.inr (by decide)
    · show h.length < 2 ^ 32
      omega
    · exact Or.inr (by decide)
    · exact Or.inr (by decide)
  have hsize : (payToPubkeyHash h).length ≤ MAX_SCRIPT_SIZE := by
    simp [payToPubkeyHash, hl, MAX_SCRIPT_SIZE]
  have hsplit : [ScriptItem.op OP_DUP, .op OP_HASH160, .data h, .op OP_EQUALVERIFY,
      .op OP_CHECKSIG].map ScriptItem.instr =
      [(OP_DUP, []), (OP_HASH160, []), (pushOpcode h, h), (OP_EQUALVERIFY, [])] ++
        [(OP_CHECKSIG, [])] := rfl
  rw [toOption_evalScript_of_reads (payToPubkeyHash_eq_buildScript hl ▸ reads_buildScript hwf) hsize,
    hsplit, toOption_foldlM_append,
    foldlM_step_keyHash (by simp [hl, MAX_SCRIPT_ELEMENT_SIZE]) rfl (by simp [MAX_OPS_PER_SCRIPT])]
  rcases S with _ | ⟨pubkey, S⟩
  · rfl
  by_cases hkey : (cr.hash160 pubkey).toBytes = h
  · simp only [hkey, if_true, Option.bind_some]
    rw [foldlM_step_checkSig rfl (by simp [MAX_OPS_PER_SCRIPT])]
    rcases S with _ | ⟨sig, rest⟩ <;> simp [hkey]
  · rcases S with _ | ⟨sig, rest⟩ <;> simp [hkey]

/-- A built script none of whose instructions is a push of `d` has no copy of that push to delete. -/
theorem findAndDelete_buildScript_push {d : Bytes} (hd : d.length < 2 ^ 32) {items : List ScriptItem}
    (hwf : ∀ i ∈ items, i.WellFormed) (hno : ∀ i ∈ items, i.instr ≠ (pushOpcode d, d)) :
    findAndDelete (buildScript items) (pushData d) = (buildScript items, 0) := by
  refine findAndDelete_buildScript (pushData_ne_nil d) hwf fun i hi rest => ?_
  by_contra hpre
  -- a copy of the push at an item would make the item read back as that push
  obtain ⟨t, ht⟩ := List.isPrefixOf_iff_prefix.mp (Bool.not_eq_false _ ▸ hpre)
  have hread := readOp_pushData hd t
  rw [ht, readOp_item (hwf i hi)] at hread
  exact hno i hi (congrArg Prod.fst (Option.some.inj hread))

/-- **Spending a pay-to-pubkey-hash output**: the spend verifies exactly when the scriptSig leaves
a key on top of a signature, the key hashes to `h`, and the signature checks against the template
with the pushes of the signature deleted. -/
theorem verifyScript_payToPubkeyHash {h : Bytes} (hl : h.length = 20) {scriptSig : Bytes} :
    verifyScript cr ec ck scriptSig (payToPubkeyHash h) = .ok () ↔
      ∃ pubkey sig rest, evalScript cr ec ck scriptSig [] = .ok (pubkey :: sig :: rest) ∧
        (cr.hash160 pubkey).toBytes = h ∧
        ck.checkSig cr ec sig pubkey (findAndDelete (payToPubkeyHash h) (pushData sig)).1 = true := by
  unfold verifyScript
  simp only [isPayToScriptHash_payToPubkeyHash, Bool.false_eq_true, if_false]
  constructor
  · intro hv
    obtain ⟨stack, hsig, hv⟩ := except_bind_eq_ok hv
    obtain ⟨S, heval, htop⟩ := except_bind_eq_ok hv
    have hS := toOption_eq_some_iff.mpr heval
    rw [evalScript_payToPubkeyHash hl] at hS
    rcases stack with _ | ⟨pubkey, _ | ⟨sig, rest⟩⟩
    · cases hS
    · cases hS
    by_cases hkey : (cr.hash160 pubkey).toBytes = h
    · simp only [hkey, if_true, Option.some.injEq] at hS
      subst hS
      obtain ⟨u, htop, -⟩ := except_bind_eq_ok htop
      exact ⟨pubkey, sig, rest, hsig, hkey, of_checkTop_ite htop⟩
    · simp [hkey] at hS
  · rintro ⟨pubkey, sig, rest, hsig, hkey, hcheck⟩
    have heval : evalScript cr ec ck (payToPubkeyHash h) (pubkey :: sig :: rest) = .ok ([1] :: rest) := by
      rw [← toOption_eq_some_iff, evalScript_payToPubkeyHash hl]
      simp [hkey, hcheck]
    simp [hsig, heval, checkTop_cons]

/-- **A standard pay-to-pubkey-hash spend**: under the flags of the interpreter,
`SCRIPT_VERIFY_P2SH | SCRIPT_VERIFY_CHECKLOCKTIMEVERIFY`, the scriptSig `<sig ‖ hashType> <pubkey>`,
for a key of a valid size and a signature other than the key hash itself, verifies exactly when the
key hashes to `h` and the signature is the key's signature of the legacy signature hash of the
transaction, with the template as the script code. `SCRIPT_VERIFY_DERSIG` is not among these flags:
where it is set, as for every block above `BIP66Height`, a signature that is not strict DER fails
before `verify`, so there the direction from a valid signature to a verified spend also needs a
strict DER encoding. -/
theorem verifyScript_standardP2pkh {h pubkey sig : Bytes} {nHashType : UInt8} (hl : h.length = 20)
    (hvalid : validSize pubkey = true) (hsig : sig.length < MAX_SCRIPT_ELEMENT_SIZE)
    (hne : sig ++ [nHashType] ≠ h) :
    verifyScript cr ec ck (buildScript [.data (sig ++ [nHashType]), .data pubkey])
        (payToPubkeyHash h) = .ok () ↔
      (cr.hash160 pubkey).toBytes = h ∧
        ec.verify (CPubKey.ofBytes pubkey)
          (signatureHash cr (payToPubkeyHash h) ck.tx ck.nIn nHashType.toNat) sig = true := by
  have hpk := length_le_of_validSize hvalid
  have heval : evalScript cr ec ck (buildScript [.data (sig ++ [nHashType]), .data pubkey]) [] =
      .ok [pubkey, sig ++ [nHashType]] := by
    refine @evalScript_pushes cr ec ck [sig ++ [nHashType], pubkey] ?_ (by simp) []
    simp only [List.mem_cons, List.not_mem_nil, or_false]
    rintro d (rfl | rfl)
    · simp only [List.length_append, List.length_singleton]
      exact hsig
    · simp only [MAX_SCRIPT_ELEMENT_SIZE]
      omega
  -- the signature is not pushed in the template, so the script code is the template
  have hcode : findAndDelete (payToPubkeyHash h) (pushData (sig ++ [nHashType])) =
      (payToPubkeyHash h, 0) := by
    rw [payToPubkeyHash_eq_buildScript hl]
    refine findAndDelete_buildScript_push (by simp only [MAX_SCRIPT_ELEMENT_SIZE] at hsig; simp; omega)
      ?_ ?_
    · simp only [List.mem_cons, List.not_mem_nil, or_false]
      rintro i (rfl | rfl | rfl | rfl | rfl)
      all_goals first | exact Or.inr (by decide) | (show h.length < 2 ^ 32; omega)
    · simp only [List.mem_cons, List.not_mem_nil, or_false]
      rintro i (rfl | rfl | rfl | rfl | rfl) hi
      all_goals first
        | exact not_lt_of_le_pushdata4 ((Prod.mk.inj hi).1 ▸ pushOpcode_le _) (by decide)
        | exact hne (Prod.mk.inj hi).2.symm
  rw [verifyScript_payToPubkeyHash hl]
  constructor
  · rintro ⟨pk, s, rest, hs, hkey, hcheck⟩
    rw [heval] at hs
    cases hs
    rw [hcode, checkSig_append_hashType hvalid] at hcheck
    exact ⟨hkey, hcheck⟩
  · rintro ⟨hkey, hverify⟩
    refine ⟨pubkey, sig ++ [nHashType], [], heval, hkey, ?_⟩
    rw [hcode, checkSig_append_hashType hvalid]
    exact hverify

/-- A compressed key, a check that accepts every signature, and the one input of a spend. -/
def p2pkhSampleKey : Bytes := 2 :: List.replicate 32 1

def acceptingEcdsa : Ecdsa := ⟨fun _ _ _ => true, fun _ _ => none⟩

def p2pkhSampleChecker : Checker := ⟨⟨1, none, [⟨⟨0, 0⟩, [], SEQUENCE_FINAL⟩], [], 0⟩, 0, by decide⟩

/-- The sample key's spend of the output paying its key hash verifies. -/
theorem verifyScript_standardP2pkh_sample :
    verifyScript Crypto.sample acceptingEcdsa p2pkhSampleChecker
      (buildScript [.data ([0x30] ++ [1]), .data p2pkhSampleKey])
      (payToPubkeyHash (Crypto.sample.hash160 p2pkhSampleKey).toBytes) = .ok () :=
  (verifyScript_standardP2pkh (Uint160.length_toBytes _) (by decide) (by decide)
    (fun h => by simpa using congrArg List.length h)).mpr ⟨rfl, rfl⟩

end P2PKH

end Blocknet
