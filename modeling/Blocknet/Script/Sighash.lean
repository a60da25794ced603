import Blocknet.Lib.Code
import Blocknet.Script.Interpreter

/-!
# What a signature covers (`SignatureHash`, `CTransactionSignatureSerializer`)

The legacy signature hash is the hash of `signatureImage`, the bytes
`CTransactionSignatureSerializer::Serialize` writes (`script/interpreter.cpp`, and the copy with
the `nTime` field in `xbridge/xbitcointransaction.h`), then the hash type. This module says which
part of a transaction that image is a serialization of.

* `sigView tx nIn nHashType` is that part (`SigView`): the version, the time field, the lock time,
  the outpoint and sequence of each input the image keeps (only input `nIn` with
  `ANYONECANPAY`; the sequences of the others are `0` with `SINGLE` or `NONE`), and the outputs it
  keeps (none with `NONE`; with `SINGLE` those up to `nIn`, the ones before it as `CTxOut()`).
  No input's `scriptSig` is in it: `SerializeInput` writes an empty script for the other inputs
  and the script code for the signed one.
* `signatureImage_eq_writeSigView`: the image is `writeSigView` of the view, each field with the
  stream's writer for it.
* `MutableTransaction.WireSized` is what a transaction on the wire satisfies: a version and
  output values in the range of their C++ types, and sizes at most `MAX_SIZE`.

Results:
* `signatureImage_eq_iff`: for two such transactions with the same kind of time field, the images
  for input `nIn` and hash type `nHashType` are equal exactly when the two views are. Each writer
  is a prefix code (`Lib.PrefixCode`) by the stream's round trip for it, so the image is one too.
-/

namespace Blocknet

open Blocknet.Lib

/-! ## The view -/

/-- The fields of a transaction that the signature image of one input serializes. -/
@[ext] structure SigView where
  nVersion : Int
  nTime : Option UInt32
  inputs : List (OutPoint × UInt32)
  outputs : List TxOut
  nLockTime : UInt32
  deriving DecidableEq, Repr

/-- What the image for input `nIn` and hash type `nHashType` keeps of `tx`. -/
def sigView (tx : MutableTransaction) (nIn nHashType : Nat) : SigView where
  nVersion := tx.nVersion
  nTime := tx.nTime
  inputs :=
    if nHashType &&& SIGHASH_ANYONECANPAY ≠ 0 then
      match tx.vin[nIn]? with
      | some txin => [(txin.prevout, txin.nSequence)]
      | none => []
    else
      tx.vin.mapIdx fun j txin => (txin.prevout,
        if j ≠ nIn ∧ (nHashType &&& 0x1f = SIGHASH_SINGLE ∨ nHashType &&& 0x1f = SIGHASH_NONE) then 0
        else txin.nSequence)
  outputs :=
    if nHashType &&& 0x1f = SIGHASH_NONE then []
    else if nHashType &&& 0x1f = SIGHASH_SINGLE then
      (tx.vout.take (nIn + 1)).mapIdx fun i o => if i ≠ nIn then ⟨-1, []⟩ else o
    else tx.vout
  nLockTime := tx.nLockTime

/-- Where the signed input stands among the inputs the image keeps. -/
def signedAt (nIn nHashType : Nat) : Nat :=
  if nHashType &&& SIGHASH_ANYONECANPAY ≠ 0 then 0 else nIn

/-- `SerializeInput` of the `i`-th input the image keeps. -/
def writeSigInput (scriptCode : Bytes) (signed i : Nat) (p : OutPoint × UInt32) : Bytes :=
  writeOutPoint p.1 ++ (if i ≠ signed then writeString [] else serializeScriptCode scriptCode) ++
    leBytes 4 p.2.toNat

/-- The time field, where the transaction has one. -/
def writeTime : Option UInt32 → Bytes
  | some t => leBytes 4 t.toNat
  | none => []

/-- The image of a view. -/
def writeSigView (scriptCode : Bytes) (signed nHashType : Nat) (v : SigView) : Bytes :=
  writeSigned 4 v.nVersion ++ writeTime v.nTime ++
    writeCompactSize v.inputs.length ++ (v.inputs.mapIdx (writeSigInput scriptCode signed)).flatten ++
    writeCompactSize v.outputs.length ++ (v.outputs.map writeTxOut).flatten ++
    leBytes 4 v.nLockTime.toNat ++ writeSigned 4 nHashType

section Image

variable {scriptCode : Bytes} {tx : MutableTransaction} {nIn nHashType : Nat}

/-- `SerializeOutput` of the outputs the image keeps: the view's outputs. -/
theorem map_writeTxOut_outputs :
    (sigView tx nIn nHashType).outputs.map writeTxOut =
      if nHashType &&& 0x1f = SIGHASH_NONE then []
      else if nHashType &&& 0x1f = SIGHASH_SINGLE then
        (tx.vout.take (nIn + 1)).mapIdx fun i o =>
          if i ≠ nIn then writeTxOut ⟨-1, []⟩ else writeTxOut o
      else tx.vout.map writeTxOut := by
  simp only [sigView]
  split_ifs <;> simp [map_mapIdx, apply_ite writeTxOut]

theorem signatureImage_eq_writeSigView :
    signatureImage scriptCode tx nIn nHashType =
      writeSigView scriptCode (signedAt nIn nHashType) nHashType (sigView tx nIn nHashType) := by
  simp only [signatureImage]
  rw [← map_writeTxOut_outputs, List.length_map]
  -- the time field and the signed input are matched on: take the transaction apart
  rcases tx with ⟨nVersion, _ | t, vin, vout, nLockTime⟩ <;>
  · simp only [writeSigView, writeTime, sigView, signedAt]
    by_cases hacp : nHashType &&& SIGHASH_ANYONECANPAY ≠ 0
    · cases vin[nIn]? <;> simp [hacp, writeSigInput]
    · simp [hacp, writeSigInput, Function.comp_def, apply_ite UInt32.toNat, apply_ite (leBytes 4)]

end Image

/-! ## Transactions on the wire -/

/-- An output as `Serialize(CTxOut)` reads back: a value in the range of `CAmount` and a script
of at most `MAX_SIZE` bytes. -/
def TxOut.WireSized (o : TxOut) : Prop :=
  -2 ^ 63 ≤ o.nValue ∧ o.nValue < 2 ^ 63 ∧ o.scriptPubKey.length ≤ MAX_SIZE

/-- A transaction whose fields are in the ranges of their C++ types, with at most `MAX_SIZE`
inputs and outputs. -/
structure MutableTransaction.WireSized (tx : MutableTransaction) : Prop where
  version : -2 ^ 31 ≤ tx.nVersion ∧ tx.nVersion < 2 ^ 31
  vin : tx.vin.length ≤ MAX_SIZE
  vout : tx.vout.length ≤ MAX_SIZE
  outputs : ∀ o ∈ tx.vout, o.WireSized

/-- The same of a view. -/
structure SigView.WireSized (v : SigView) : Prop where
  version : -2 ^ 31 ≤ v.nVersion ∧ v.nVersion < 2 ^ 31
  inputs : v.inputs.length ≤ MAX_SIZE
  outputs_length : v.outputs.length ≤ MAX_SIZE
  outputs : ∀ o ∈ v.outputs, o.WireSized

/-- `CTxOut()`: the value `-1` and no script. -/
theorem wireSized_nullTxOut : TxOut.WireSized ⟨-1, []⟩ := by
  refine ⟨by decide, by decide, ?_⟩
  simp

theorem length_sigView_inputs_le (tx : MutableTransaction) (nIn nHashType : Nat) :
    (sigView tx nIn nHashType).inputs.length ≤ tx.vin.length := by
  simp only [sigView]
  split_ifs
  · split
    · rename_i h
      have := (List.getElem?_eq_some_iff.mp h).1
      simp only [List.length_singleton]
      omega
    · simp
  · simp

theorem length_sigView_outputs_le (tx : MutableTransaction) (nIn nHashType : Nat) :
    (sigView tx nIn nHashType).outputs.length ≤ tx.vout.length := by
  simp only [sigView]
  split_ifs <;> simp

/-- Each output the view keeps is one of the transaction's, or `CTxOut()`. -/
theorem mem_sigView_outputs {tx : MutableTransaction} {nIn nHashType : Nat} {o : TxOut}
    (h : o ∈ (sigView tx nIn nHashType).outputs) : o ∈ tx.vout ∨ o = ⟨-1, []⟩ := by
  simp only [sigView] at h
  split_ifs at h
  · cases h
  · obtain ⟨i, hi, rfl⟩ := List.mem_mapIdx.mp h
    split_ifs
    · exact .inr rfl
    · exact .inl (List.mem_of_mem_take (List.getElem_mem hi))
  · exact .inl h

theorem MutableTransaction.WireSized.sigView {tx : MutableTransaction} (h : tx.WireSized)
    (nIn nHashType : Nat) : (sigView tx nIn nHashType).WireSized where
  version := h.version
  inputs := (length_sigView_inputs_le tx nIn nHashType).trans h.vin
  outputs_length := (length_sigView_outputs_le tx nIn nHashType).trans h.vout
  outputs o ho := by
    rcases mem_sigView_outputs ho with ho | rfl
    · exact h.outputs o ho
    · exact wireSized_nullTxOut

/-! ## The writers are prefix codes -/

theorem prefixCode_writeCompactSize : PrefixCode (· ≤ MAX_SIZE) writeCompactSize :=
  PrefixCode.of_decode readCompactSize fun _ r hn => readCompactSize_write hn r

theorem prefixCode_writeString :
    PrefixCode (fun s : Bytes => s.length ≤ MAX_SIZE) writeString :=
  PrefixCode.of_decode readString fun _ r hs => readString_write hs r

theorem prefixCode_writeSigned {k : Nat} (hk : 0 < k) :
    PrefixCode (fun x : Int => -2 ^ (8 * k - 1) ≤ x ∧ x < 2 ^ (8 * k - 1)) (writeSigned k) :=
  PrefixCode.of_decode (readSigned k) fun _ r hx => readSigned_write hk hx.1 hx.2 r

theorem prefixCode_writeOutPoint : PrefixCode (fun _ => True) writeOutPoint :=
  PrefixCode.of_decode readOutPoint fun o r _ => readOutPoint_write o r

theorem prefixCode_leBytes_uint32 : PrefixCode (fun _ => True) fun x : UInt32 => leBytes 4 x.toNat := by
  refine PrefixCode.of_length 4 (fun _ _ => length_leBytes 4 _) fun x y _ _ he => ?_
  have hv := congrArg leNat he
  rw [leNat_leBytes, leNat_leBytes, Nat.mod_eq_of_lt (by simpa using x.toNat_lt),
    Nat.mod_eq_of_lt (by simpa using y.toNat_lt)] at hv
  exact UInt32.toNat_inj.mp hv

theorem prefixCode_writeTime (b : Bool) :
    PrefixCode (fun t : Option UInt32 => t.isSome = b) writeTime := by
  rintro (_ | t) (_ | u) r s ht hu he
  · exact ⟨rfl, he⟩
  · exact absurd (ht.trans hu.symm) (by simp)
  · exact absurd (ht.trans hu.symm) (by simp)
  · obtain ⟨rfl, hrs⟩ := prefixCode_leBytes_uint32 trivial trivial he
    exact ⟨rfl, hrs⟩

theorem prefixCode_writeTxOut : PrefixCode TxOut.WireSized writeTxOut :=
  ((prefixCode_writeSigned (k := 8) (by norm_num)).append prefixCode_writeString).comp
    (fun o : TxOut => (o.nValue, o.scriptPubKey))
    (fun ⟨_, _⟩ ⟨_, _⟩ h => by cases h; rfl)
    (fun _ ho => ⟨⟨ho.1, ho.2.1⟩, ho.2.2⟩)

theorem prefixCode_writeSigInput (scriptCode : Bytes) (signed i : Nat) :
    PrefixCode (fun _ => True) (writeSigInput scriptCode signed i) := by
  refine ((prefixCode_writeOutPoint.append
    (prefixCode_leBytes_uint32.const_append
      (if i ≠ signed then writeString [] else serializeScriptCode scriptCode))).mono
    (fun _ _ => ⟨trivial, trivial⟩)).congr fun p => ?_
  simp only [writeSigInput, List.append_assoc]

/-! ## The image determines the view -/

section Commit

variable {scriptCode : Bytes} {signed nHashType : Nat}

/-- Views with the same kind of time field and the same image are equal. -/
theorem writeSigView_injective {v w : SigView} (hv : v.WireSized) (hw : w.WireSized)
    (ht : v.nTime.isSome = w.nTime.isSome)
    (he : writeSigView scriptCode signed nHashType v = writeSigView scriptCode signed nHashType w) :
    v = w := by
  simp only [writeSigView, List.append_assoc] at he
  -- the fields one after another, each split off the front by its code
  obtain ⟨hversion, he⟩ := prefixCode_writeSigned (k := 4) (by norm_num) hv.version hw.version he
  obtain ⟨htime, he⟩ := prefixCode_writeTime _ rfl ht.symm he
  obtain ⟨hin, he⟩ := prefixCode_writeCompactSize hv.inputs hw.inputs he
  obtain ⟨hinputs, he⟩ := PrefixCode.flatten_mapIdx (prefixCode_writeSigInput scriptCode signed) _
    ⟨rfl, fun _ _ => trivial⟩ ⟨hin.symm, fun _ _ => trivial⟩ he
  obtain ⟨hout, he⟩ := prefixCode_writeCompactSize hv.outputs_length hw.outputs_length he
  obtain ⟨houtputs, he⟩ := PrefixCode.flatten_map prefixCode_writeTxOut _
    ⟨rfl, hv.outputs⟩ ⟨hout.symm, hw.outputs⟩ he
  obtain ⟨hlock, -⟩ := prefixCode_leBytes_uint32 trivial trivial he
  exact SigView.ext hversion htime hinputs houtputs hlock

end Commit

theorem signatureImage_eq_iff {tx₁ tx₂ : MutableTransaction} (h₁ : tx₁.WireSized)
    (h₂ : tx₂.WireSized) (htime : tx₁.nTime.isSome = tx₂.nTime.isSome) (scriptCode : Bytes)
    (nIn nHashType : Nat) :
    signatureImage scriptCode tx₁ nIn nHashType = signatureImage scriptCode tx₂ nIn nHashType ↔
      sigView tx₁ nIn nHashType = sigView tx₂ nIn nHashType := by
  rw [signatureImage_eq_writeSigView, signatureImage_eq_writeSigView]
  constructor
  · intro he
    exact writeSigView_injective (h₁.sigView nIn nHashType) (h₂.sigView nIn nHashType) htime he
  · intro hv
    rw [hv]

/-- A spend of one outpoint to one output, with a script in its input. -/
def sampleSpend : MutableTransaction where
  nVersion := 1
  nTime := none
  vin := [⟨⟨0, 0⟩, [0x51], SEQUENCE_FINAL⟩]
  vout := [⟨5, [0x51]⟩]
  nLockTime := 0

theorem wireSized_sampleSpend : sampleSpend.WireSized :=
  ⟨⟨by decide, by decide⟩, by decide, by decide, by simp [sampleSpend, TxOut.WireSized, MAX_SIZE]⟩

/-- `sampleSpend` with another script in its input. -/
def sampleSpend' : MutableTransaction := { sampleSpend with vin := [⟨⟨0, 0⟩, [], SEQUENCE_FINAL⟩] }

theorem signatureImage_eq_iff_sampleSpend :
    signatureImage [] sampleSpend 0 SIGHASH_ALL = signatureImage [] sampleSpend' 0 SIGHASH_ALL ↔
      sigView sampleSpend 0 SIGHASH_ALL = sigView sampleSpend' 0 SIGHASH_ALL :=
  @signatureImage_eq_iff sampleSpend sampleSpend' wireSized_sampleSpend
    ⟨⟨by decide, by decide⟩, by decide, by decide, by simp [sampleSpend', sampleSpend, TxOut.WireSized, MAX_SIZE]⟩
    rfl [] 0 SIGHASH_ALL

/-! ## The script code `CHECKSIG` hashes

`OP_CHECKSIG` hashes its script with every push of the signature taken out by `FindAndDelete`.
That scans bytes: at each instruction boundary it drops the copies of the pattern that start
there, then reads one instruction and moves past it. On a script that `GetOp` reads to its end,
with a pattern that is one instruction, this is taking out the instructions equal to the
pattern. -/

section FindAndDelete

/-- `c` is one instruction: `GetOp` reads all of it. -/
def IsInstruction (c : Bytes) : Prop := ∃ op d, getOp c = some (op, d, [])

instance (c : Bytes) : Decidable (IsInstruction c) :=
  decidable_of_iff ((getOp c).any fun r => r.2.2.isEmpty) (by
    unfold IsInstruction
    cases getOp c with
    | none => simp
    | some r =>
      obtain ⟨op, d, rest⟩ := r
      simp [List.isEmpty_iff])

/-- A push's size operand is read the same with anything after it. -/
theorem pushSize_append {op : UInt8} {rest rest' : Bytes} {n : Nat}
    (h : pushSize op rest = some (n, rest')) (s : Bytes) :
    pushSize op (rest ++ s) = some (n, rest' ++ s) := by
  -- the operand of `k` bytes is read the same when there are `k` before `s`
  have hk : ∀ k, (if rest.length < k then none else some (leNat (rest.take k), rest.drop k)) =
      some (n, rest') → (if (rest ++ s).length < k then none
        else some (leNat ((rest ++ s).take k), (rest ++ s).drop k)) = some (n, rest' ++ s) := by
    intro k hk
    split at hk
    · cases hk
    · rename_i hlt
      simp only [Option.some.injEq, Prod.mk.injEq] at hk
      obtain ⟨rfl, rfl⟩ := hk
      rw [if_neg (by simp only [List.length_append]; omega), List.take_append_of_le_length (by omega),
        List.drop_append_of_le_length (by omega)]
  unfold pushSize at h ⊢
  by_cases h1 : op < OP_PUSHDATA1
  · rw [if_pos h1] at h ⊢
    simp only [Option.some.injEq, Prod.mk.injEq] at h
    obtain ⟨rfl, rfl⟩ := h
    rfl
  rw [if_neg h1] at h ⊢
  by_cases h2 : op = OP_PUSHDATA1
  · rw [if_pos h2] at h ⊢
    exact hk 1 h
  rw [if_neg h2] at h ⊢
  by_cases h3 : op = OP_PUSHDATA2
  · rw [if_pos h3] at h ⊢
    exact hk 2 h
  rw [if_neg h3] at h ⊢
  exact hk 4 h

/-- An instruction is read the same with anything after it. -/
theorem getOp_append {c d : Bytes} {op : UInt8} (h : getOp c = some (op, d, [])) (s : Bytes) :
    getOp (c ++ s) = some (op, d, s) := by
  match c, h with
  | o :: rest, h =>
    simp only [getOp, List.cons_append] at h ⊢
    split at h
    · rename_i ho
      rw [if_pos ho]
      cases hp : pushSize o rest with
      | none => rw [hp] at h; cases h
      | some p =>
        obtain ⟨n, rest'⟩ := p
        rw [hp] at h
        rw [pushSize_append hp]
        dsimp only at h ⊢
        split at h
        · cases h
        · rename_i hn
          simp only [Option.some.injEq, Prod.mk.injEq] at h
          obtain ⟨rfl, rfl, hdrop⟩ := h
          have hlen : rest'.length = n := by
            have := List.drop_eq_nil_iff.mp hdrop
            omega
          simp [hlen]
    · rename_i ho
      rw [if_neg ho]
      simp only [Option.some.injEq, Prod.mk.injEq] at h
      obtain ⟨rfl, rfl, rfl⟩ := h
      rfl

theorem IsInstruction.ne_nil {c : Bytes} (hc : IsInstruction c) : c ≠ [] := by
  rintro rfl
  obtain ⟨_, _, h⟩ := hc
  cases h

variable {b : Bytes}

/-- A pattern that is one instruction starts at an instruction boundary only as that
instruction. -/
theorem isPrefixOf_append_iff (hb : IsInstruction b) {c : Bytes} (hc : IsInstruction c)
    (s : Bytes) : b.isPrefixOf (c ++ s) = true ↔ b = c := by
  constructor
  · intro h
    obtain ⟨t, ht⟩ := List.isPrefixOf_iff_prefix.mp h
    obtain ⟨opb, db, hb⟩ := hb
    obtain ⟨opc, dc, hc⟩ := hc
    have hread := getOp_append hc s
    rw [← ht, getOp_append hb t] at hread
    simp only [Option.some.injEq, Prod.mk.injEq] at hread
    rw [hread.2.2] at ht
    exact List.append_cancel_right ht
  · rintro rfl
    exact List.isPrefixOf_iff_prefix.mpr (List.prefix_append b s)

theorem length_le_length_flatten {chunks : List Bytes} (h : ∀ c ∈ chunks, c ≠ []) :
    chunks.length ≤ chunks.flatten.length := by
  induction chunks with
  | nil => exact Nat.le_refl 0
  | cons c cs ih =>
    have hc : 0 < c.length := List.length_pos_iff.mpr (h c List.mem_cons_self)
    have hcs := ih fun c' hc' => h c' (List.mem_cons_of_mem c hc')
    simp only [List.flatten_cons, List.length_append, List.length_cons]
    omega

/-- Copies of an instruction, then instructions, have at least as many bytes as copies. -/
theorem le_length_flatten_replicate (hb : IsInstruction b) (k : Nat) {rest : List Bytes}
    (hrest : ∀ c ∈ rest, IsInstruction c) : k ≤ (List.replicate k b ++ rest).flatten.length := by
  have h := @length_le_length_flatten (List.replicate k b ++ rest) fun c hc => by
    rcases List.mem_append.mp hc with hc | hc
    · rw [List.eq_of_mem_replicate hc]
      exact hb.ne_nil
    · exact (hrest c hc).ne_nil
  simp only [List.length_append, List.length_replicate] at h
  omega

/-- The inner loop drops the `k` copies at the front, and stops at an instruction that is not
the pattern. -/
theorem dropCopies_replicate (hb : IsInstruction b) {rest : List Bytes}
    (hrest : ∀ c cs, rest = c :: cs → IsInstruction c ∧ c ≠ b) :
    ∀ k fuel, k ≤ fuel → dropCopies b fuel (List.replicate k b ++ rest).flatten = (rest.flatten, k)
  | 0, fuel, _ => by
    apply dropCopies_of_not_prefix
    cases rest with
    | nil =>
      obtain ⟨x, xs, hx⟩ := List.exists_cons_of_ne_nil hb.ne_nil
      simp [hx]
    | cons c cs =>
      obtain ⟨hc, hne⟩ := hrest c cs rfl
      exact Bool.eq_false_iff.mpr fun h => hne ((isPrefixOf_append_iff hb hc _).mp h).symm
  | k + 1, fuel + 1, hk => by
    have hpre : b.isPrefixOf (b ++ (List.replicate k b ++ rest).flatten) = true :=
      List.isPrefixOf_iff_prefix.mpr (List.prefix_append _ _)
    simp only [List.replicate_succ, List.cons_append, List.flatten_cons, dropCopies, hpre,
      if_true, List.drop_left, dropCopies_replicate hb hrest k fuel (by omega)]

/-- The outer loop, from a boundary with `k` copies of the pattern and then whole instructions. -/
theorem findAndDeleteLoop_replicate (hb : IsInstruction b) :
    ∀ {chunks : List Bytes}, (∀ c ∈ chunks, IsInstruction c) → ∀ k fuel, k + chunks.length < fuel →
      findAndDeleteLoop b fuel (List.replicate k b ++ chunks).flatten =
        ((chunks.filter (· != b)).flatten, k + chunks.count b)
  | _, _, _, 0, h => absurd h (Nat.not_lt_zero _)
  | [], _, k, fuel + 1, _ => by
    have hd := @dropCopies_replicate b hb [] (fun _ _ h => by cases h) k _
      (le_length_flatten_replicate hb k fun _ h => absurd h List.not_mem_nil)
    rw [findAndDeleteLoop, hd]
    simp [getOp]
  | c :: cs, hc, k, fuel + 1, hfuel => by
    have hcs : ∀ c ∈ cs, IsInstruction c := fun c' h => hc c' (List.mem_cons_of_mem c h)
    by_cases hcb : c = b
    · -- one more copy at the front
      have hrep : List.replicate k b ++ c :: cs = List.replicate (k + 1) b ++ cs := by
        rw [hcb, List.replicate_succ', List.append_assoc, List.singleton_append]
      rw [hrep, findAndDeleteLoop_replicate hb hcs (k + 1) (fuel + 1) (by simp at hfuel; omega), hcb]
      simp only [List.filter_cons, bne_self_eq_false, Bool.false_eq_true, if_false,
        List.count_cons, beq_self_eq_true, if_true, Prod.mk.injEq, true_and]
      omega
    · -- the copies, then `c`, which is read as one instruction
      obtain ⟨op, d, hread⟩ := hc c List.mem_cons_self
      have hd := @dropCopies_replicate b hb (c :: cs)
        (fun c' cs' h => by cases h; exact ⟨hc c List.mem_cons_self, hcb⟩) k _
        (le_length_flatten_replicate hb k hc)
      have hrest := findAndDeleteLoop_replicate hb hcs 0 fuel (by simp at hfuel; omega)
      simp only [List.replicate_zero, List.nil_append] at hrest
      simp only [findAndDeleteLoop, hd, List.flatten_cons, getOp_append hread, hrest,
        List.length_append, Nat.add_sub_cancel, List.take_left, List.filter_cons,
        bne_iff_ne, ne_eq, hcb, not_false_eq_true, if_true, List.count_cons,
        beq_iff_eq, if_false, Nat.zero_add, Nat.add_zero]

/-- `FindAndDelete` of one instruction in a script read to its end takes out the instructions
equal to it, and counts them. -/
theorem findAndDelete_flatten {chunks : List Bytes} (hc : ∀ c ∈ chunks, IsInstruction c)
    (hb : IsInstruction b) :
    findAndDelete chunks.flatten b = ((chunks.filter (· != b)).flatten, chunks.count b) := by
  have hloop := findAndDeleteLoop_replicate hb hc 0 (chunks.flatten.length + 1)
    (by have := length_le_length_flatten fun c h => (hc c h).ne_nil; omega)
  simp only [List.replicate_zero, List.nil_append, Nat.zero_add] at hloop
  simp only [findAndDelete, hb.ne_nil, if_false, hloop]
  split_ifs with hpos
  · rfl
  · -- no copy: every instruction is kept
    have hcount : chunks.count b = 0 := by omega
    have hfilter : chunks.filter (· != b) = chunks := by
      refine List.filter_eq_self.mpr fun c hc' => ?_
      have hnot : b ∉ chunks := List.count_eq_zero.mp hcount
      simp only [bne_iff_ne, ne_eq]
      rintro rfl
      exact hnot hc'
    rw [hfilter, hcount]

/-- A pay-to-key-hash script with a push of a signature before and after it. -/
def signedP2pkh : List Bytes :=
  [pushData [0x30, 0x01], [OP_DUP], [OP_HASH160], pushData (List.replicate 20 7), [OP_EQUALVERIFY],
    [OP_CHECKSIG], pushData [0x30, 0x01]]

theorem findAndDelete_signedP2pkh :
    findAndDelete signedP2pkh.flatten (pushData [0x30, 0x01]) =
      ((signedP2pkh.filter (· != pushData [0x30, 0x01])).flatten,
        signedP2pkh.count (pushData [0x30, 0x01])) :=
  findAndDelete_flatten (by decide) (by decide)

example : findAndDelete signedP2pkh.flatten (pushData [0x30, 0x01]) =
    (((signedP2pkh.drop 1).take 5).flatten, 2) := by decide

end FindAndDelete

end Blocknet
