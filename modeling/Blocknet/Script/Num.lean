import Blocknet.Script
import Blocknet.Lib.Tokens

/-!
# Script numbers and script building (`script.h`)

Model of `CScriptNum` and of the `CScript` builder of `script.h`.

* `scriptNumSerialize` is `CScriptNum::serialize`: the magnitude little-endian, the sign in the top
  bit of the last byte, and an extra byte where that bit is taken by the magnitude. The magnitude
  is the `uint64_t absvalue` of the source, so at most 8 bytes are written.
* `scriptNumDecode` is `CScriptNum::set_vch`, and `CScriptNum.ofBytes` the constructor from a
  stack element with its size limit (`scriptnum_error` is `none`). `fRequireMinimal` is off: it is
  the `SCRIPT_VERIFY_MINIMALDATA` flag, which the verification modelled here does not set.
* `ScriptItem` is what `operator<<` appends: an opcode, a data push, or an `int64_t` through
  `push_int64`; `buildScript` is a chain of `<<` on an empty `CScript`.

Results: a natural number reads back from its serialization (`scriptNumDecode_serialize`), so
serialization is injective on them (`scriptNumSerialize_injective`); a built script reads back, by
`GetOp`, as the instructions it was built from (`reads_buildScript`).
-/

namespace Blocknet

open Blocknet.Lib

def OP_1NEGATE : UInt8 := 0x4f

/-! ## `CScriptNum` -/

/-- The loop `while (absvalue) { result.push_back(absvalue & 0xff); absvalue >>= 8; }` of
`CScriptNum::serialize`, for a magnitude of `fuel` bytes at most. -/
def magBytes : Nat → Nat → Bytes
  | 0, _ => []
  | fuel + 1, n => if n = 0 then [] else UInt8.ofNat n :: magBytes fuel (n / 256)

/-- `CScriptNum::serialize`. -/
def scriptNumSerialize (value : Int) : Bytes :=
  if value = 0 then []
  else
    let result := magBytes 8 value.natAbs
    let last := result.getLastD 0
    -- the sign takes the top bit of the last byte, or a byte of its own
    if last &&& 0x80 ≠ 0 then result ++ [if value < 0 then 0x80 else 0]
    else if value < 0 then result.dropLast ++ [last ||| 0x80]
    else result

/-- `CScriptNum::set_vch`: little-endian, negative when the top bit of the last byte is set. -/
def scriptNumDecode (vch : Bytes) : Int :=
  if vch = [] then 0
  else if vch.getLastD 0 &&& 0x80 ≠ 0 then -((leNat vch - 0x80 * 256 ^ (vch.length - 1) : Nat) : Int)
  else leNat vch

/-- `CScriptNum(vch, false, nMaxNumSize)`: `none` where it throws `scriptnum_error`. -/
def CScriptNum.ofBytes (vch : Bytes) (nMaxNumSize : Nat) : Option Int :=
  if nMaxNumSize < vch.length then none else some (scriptNumDecode vch)

theorem leNat_magBytes : ∀ (fuel n : Nat), n < 256 ^ fuel → leNat (magBytes fuel n) = n
  | 0, n, h => by simp only [pow_zero, Nat.lt_one_iff] at h; subst h; rfl
  | fuel + 1, n, h => by
    by_cases hn : n = 0
    · simp [magBytes, hn, leNat]
    · have hdiv : n / 256 < 256 ^ fuel := by rw [pow_succ] at h; omega
      simp only [magBytes, hn, if_false, leNat, leNat_magBytes fuel (n / 256) hdiv]
      have hb : (UInt8.ofNat n).toNat = n % 256 := by simp
      omega

theorem length_magBytes_le : ∀ (fuel n k : Nat), n < 256 ^ k → (magBytes fuel n).length ≤ k
  | 0, _, _, _ => Nat.zero_le _
  | fuel + 1, n, k, h => by
    by_cases hn : n = 0
    · simp [magBytes, hn]
    · obtain ⟨k, rfl⟩ : ∃ k', k = k' + 1 := ⟨k - 1, by
        cases k with
        | zero => simp only [pow_zero] at h; omega
        | succ k => rfl⟩
      have hdiv : n / 256 < 256 ^ k := by rw [pow_succ] at h; omega
      simp only [magBytes, hn, if_false, List.length_cons]
      exact Nat.succ_le_succ (length_magBytes_le fuel (n / 256) k hdiv)

theorem magBytes_ne_nil {fuel n : Nat} (hn : n ≠ 0) : magBytes (fuel + 1) n ≠ [] := by
  simp [magBytes, hn]

theorem leNat_append_zero (l : Bytes) : leNat (l ++ [0]) = leNat l := by
  induction l with
  | nil => rfl
  | cons b l ih => simp only [List.cons_append, leNat, ih]

/-- A natural number reads back from its serialization. -/
theorem scriptNumDecode_serialize {n : Nat} (hn : n < 2 ^ 64) :
    scriptNumDecode (scriptNumSerialize n) = n := by
  by_cases h0 : n = 0
  · subst h0
    rfl
  have hmag : leNat (magBytes 8 n) = n := leNat_magBytes 8 n (by simpa using hn)
  have hne : magBytes 8 n ≠ [] := magBytes_ne_nil h0
  have hpos : ¬ (n : Int) < 0 := by omega
  simp only [scriptNumSerialize, Int.natCast_eq_zero, h0, if_false, Int.natAbs_natCast, hpos]
  split
  -- the magnitude took the top bit: a zero byte follows it
  · simp [scriptNumDecode, List.getLastD_eq_getLast?, leNat_append_zero, hmag]
  · rename_i hbit
    simp only [scriptNumDecode, hne, if_false, hbit, hmag]

/-- Serialization is injective on the natural numbers below `2 ^ 64`. -/
theorem scriptNumSerialize_injective {a b : Nat} (ha : a < 2 ^ 64) (hb : b < 2 ^ 64)
    (h : scriptNumSerialize a = scriptNumSerialize b) : a = b := by
  have hd := congrArg scriptNumDecode h
  rw [scriptNumDecode_serialize ha, scriptNumDecode_serialize hb] at hd
  exact_mod_cast hd

/-- A serialization of at most one byte is of a number below `256`. -/
theorem lt_of_length_scriptNumSerialize {n : Nat} (h : (scriptNumSerialize n).length ≤ 1) :
    n < 256 := by
  by_contra hlarge
  have h0 : n ≠ 0 := by omega
  -- the magnitude alone has two bytes
  have hmag : 2 ≤ (magBytes 8 n).length := by
    have hdiv : n / 256 ≠ 0 := by omega
    simp [magBytes, h0, hdiv]
  have hpos : ¬ (n : Int) < 0 := by omega
  simp only [scriptNumSerialize, Int.natCast_eq_zero, h0, if_false, Int.natAbs_natCast,
    hpos] at h
  split at h
  · simp only [List.length_append, List.length_singleton] at h
    omega
  · omega

/-- A number of `k` bytes serializes to `k + 1` bytes at most: the sign may take one more. -/
theorem length_scriptNumSerialize_le {n : Int} {k : Nat} (h : n.natAbs < 256 ^ k) :
    (scriptNumSerialize n).length ≤ k + 1 := by
  have hmag := length_magBytes_le 8 n.natAbs k h
  simp only [scriptNumSerialize]
  split_ifs <;>
    (try simp only [List.length_append, List.length_singleton, List.length_dropLast,
      List.length_nil]) <;> omega

/-! ## Building scripts -/

/-- `CScript::push_int64`: `OP_1NEGATE` and `OP_1` to `OP_16` for small numbers, `OP_0` for zero,
otherwise a push of the serialization. -/
def pushInt64 (n : Int) : Bytes :=
  if n = -1 ∨ (1 ≤ n ∧ n ≤ 16) then [UInt8.ofNat (n + (OP_1.toNat - 1)).toNat]
  else if n = 0 then [OP_0]
  else pushData (scriptNumSerialize n)

/-- What one `operator<<` of `CScript` appends. -/
inductive ScriptItem where
  /-- `operator<<(opcodetype)`. -/
  | op (o : UInt8)
  /-- `operator<<(const std::vector<unsigned char>&)`. -/
  | data (d : Bytes)
  /-- `operator<<(int64_t)`. -/
  | num (n : Int)
  deriving DecidableEq, Repr

/-- The bytes an item appends. -/
def ScriptItem.bytes : ScriptItem → Bytes
  | .op o => [o]
  | .data d => pushData d
  | .num n => pushInt64 n

/-- `CScript() << item << item << ...`. -/
def buildScript (items : List ScriptItem) : Bytes := (items.map ScriptItem.bytes).flatten

/-- `GetOp` as a reader of instructions: the opcode and its data, then the bytes after them. -/
def readOp (s : Bytes) : Option ((UInt8 × Bytes) × Bytes) :=
  (getOp s).map fun (op, d, rest) => ((op, d), rest)

/-- The instruction `GetOp` reads back from an item. -/
def ScriptItem.instr : ScriptItem → UInt8 × Bytes
  | .op o => (o, [])
  | .data d => (pushOpcode d, d)
  | .num n =>
    if n = -1 ∨ (1 ≤ n ∧ n ≤ 16) then (UInt8.ofNat (n + (OP_1.toNat - 1)).toNat, [])
    else if n = 0 then (OP_0, [])
    else (pushOpcode (scriptNumSerialize n), scriptNumSerialize n)

/-- The items whose bytes `GetOp` reads back as one instruction: an opcode that carries no
operand, data of a size a push can announce, an `int64_t`. -/
def ScriptItem.WellFormed : ScriptItem → Prop
  | .op o => o = OP_0 ∨ OP_PUSHDATA4 < o
  | .data d => d.length < 2 ^ 32
  | .num n => n.natAbs < 2 ^ 64

@[simp] theorem buildScript_nil : buildScript [] = [] := rfl

@[simp] theorem buildScript_cons (i : ScriptItem) (items : List ScriptItem) :
    buildScript (i :: items) = i.bytes ++ buildScript items := rfl

theorem readOp_consumes (s : Bytes) (t : UInt8 × Bytes) (r : Bytes) (h : readOp s = some (t, r)) :
    r.length < s.length := by
  unfold readOp at h
  cases hg : getOp s with
  | none => rw [hg] at h; cases h
  | some p =>
    obtain ⟨op, d, rest⟩ := p
    rw [hg] at h
    cases h
    exact getOp_length hg

theorem readOp_pushData {d : Bytes} (hd : d.length < 2 ^ 32) (rest : Bytes) :
    readOp (pushData d ++ rest) = some ((pushOpcode d, d), rest) := by
  simp [readOp, getOp_pushData hd]

/-- `OP_0` reads as a push of nothing. -/
theorem readOp_op0 (rest : Bytes) : readOp (OP_0 :: rest) = some ((OP_0, []), rest) := by
  simp [readOp, getOp, pushSize, OP_0, OP_PUSHDATA1, OP_PUSHDATA4]

theorem readOp_of_gt {o : UInt8} (h : OP_PUSHDATA4 < o) (rest : Bytes) :
    readOp (o :: rest) = some ((o, []), rest) := by
  simp [readOp, getOp_cons_of_gt h]

/-- An item reads back as its instruction, with the rest of the script after it. -/
theorem readOp_item {i : ScriptItem} (hi : i.WellFormed) (rest : Bytes) :
    readOp (i.bytes ++ rest) = some (i.instr, rest) := by
  cases i with
  | op o =>
    rcases hi with rfl | hgt
    · exact readOp_op0 rest
    · exact readOp_of_gt hgt rest
  | data d => exact readOp_pushData hi rest
  | num n =>
    simp only [ScriptItem.bytes, ScriptItem.instr, pushInt64]
    split
    · -- `OP_1NEGATE` and `OP_1` to `OP_16` lie above the push opcodes
      rename_i hsmall
      have h81 : (OP_1.toNat : Int) = 81 := rfl
      have hk : 78 < (n + (OP_1.toNat - 1 : Int)).toNat ∧ (n + (OP_1.toNat - 1 : Int)).toNat < 256 := by
        omega
      have hgt : OP_PUSHDATA4 < UInt8.ofNat (n + (OP_1.toNat - 1)).toNat := by
        have hb : (UInt8.ofNat (n + (OP_1.toNat - 1 : Int)).toNat).toNat =
            (n + (OP_1.toNat - 1 : Int)).toNat % 256 := by simp
        rw [UInt8.lt_iff_toNat_lt, hb, Nat.mod_eq_of_lt hk.2]
        exact hk.1
      exact readOp_of_gt hgt rest
    split
    · exact readOp_op0 rest
    · have hn : n.natAbs < 256 ^ 8 := hi
      have hlen : (scriptNumSerialize n).length < 2 ^ 32 := by
        have := length_scriptNumSerialize_le hn
        omega
      exact readOp_pushData hlen rest

/-- A built script reads back as the instructions of its items. -/
theorem reads_buildScript :
    ∀ {items : List ScriptItem}, (∀ i ∈ items, i.WellFormed) →
      Reads readOp (buildScript items) (items.map ScriptItem.instr)
  | [], _ => .nil
  | i :: items, h => by
    rw [buildScript_cons, List.map_cons]
    exact .cons (readOp_item (h i List.mem_cons_self) _)
      (reads_buildScript fun j hj => h j (List.mem_cons_of_mem i hj))

end Blocknet
