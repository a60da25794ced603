import Blocknet.Primitives

/-!
# Scripts: `GetScriptOp`, `Solver` and `ExtractDestination`

Model of `script/script.cpp` (`GetScriptOp`, `IsPayToScriptHash`, `IsWitnessProgram`,
`IsPushOnly`), `script/standard.cpp` (`Solver` with its matchers, `ExtractDestination`) and the
header checks of `pubkey.h` (`CPubKey::GetLen`, `ValidSize`, the byte constructor).

A script is its bytes. `getOp s` reads one instruction from the front of `s` and returns the
opcode, the pushed data and the rest, or `none` where `GetScriptOp` returns `false`. Loops over a
script are written with a fuel of `s.length`: every successful `GetOp` consumes a byte, so the
fuel never runs out before the script does (`scanOps_length`).

`CTxDestination` is the `boost::variant` of `script/standard.h`; `getKeyID d` is
`boost::get<CKeyID>(&d)`, which is the null pointer for every alternative but `CKeyID`.

Results: `extractDestination_keyID` says which scripts give a `CKeyID` (pay-to-pubkey and
pay-to-pubkey-hash); `extractDestination_p2sh` that a pay-to-script-hash output gives a
`CScriptID`, never a key id.
-/

namespace Blocknet

/-! ## Opcodes -/

def OP_0 : UInt8 := 0x00
def OP_PUSHDATA1 : UInt8 := 0x4c
def OP_PUSHDATA2 : UInt8 := 0x4d
def OP_PUSHDATA4 : UInt8 := 0x4e
def OP_1 : UInt8 := 0x51
def OP_16 : UInt8 := 0x60
def OP_RETURN : UInt8 := 0x6a
def OP_DUP : UInt8 := 0x76
def OP_EQUAL : UInt8 := 0x87
def OP_EQUALVERIFY : UInt8 := 0x88
def OP_HASH160 : UInt8 := 0xa9
def OP_CHECKSIG : UInt8 := 0xac
def OP_CHECKMULTISIG : UInt8 := 0xae

/-- `CScript::DecodeOP_N`. -/
def decodeOpN (op : UInt8) : Nat := if op = OP_0 then 0 else op.toNat - (OP_1.toNat - 1)

/-- `IsSmallInteger`: `OP_1` to `OP_16`. -/
def isSmallInteger (op : UInt8) : Bool := OP_1 ≤ op && op ≤ OP_16

/-! ## Reading instructions -/

/-- The size operand of a push opcode and the bytes after it (`GetScriptOp`'s immediate
operand); `none` when the size itself is cut off. -/
def pushSize (op : UInt8) (rest : Bytes) : Option (Nat × Bytes) :=
  if op < OP_PUSHDATA1 then some (op.toNat, rest)
  else if op = OP_PUSHDATA1 then
    if rest.length < 1 then none else some (leNat (rest.take 1), rest.drop 1)
  else if op = OP_PUSHDATA2 then
    if rest.length < 2 then none else some (leNat (rest.take 2), rest.drop 2)
  else
    if rest.length < 4 then none else some (leNat (rest.take 4), rest.drop 4)

/-- `GetScriptOp`: one instruction from the front of the script. -/
def getOp : Bytes → Option (UInt8 × Bytes × Bytes)
  | [] => none
  | op :: rest =>
    if op ≤ OP_PUSHDATA4 then
      match pushSize op rest with
      | none => none
      | some (n, rest') =>
        if rest'.length < n then none else some (op, rest'.take n, rest'.drop n)
    else some (op, [], rest)

/-- An opcode above `OP_PUSHDATA4` is read alone. -/
theorem getOp_cons_of_gt {op : UInt8} (h : OP_PUSHDATA4 < op) (rest : Bytes) :
    getOp (op :: rest) = some (op, [], rest) := by
  simp [getOp, UInt8.not_le.mpr h]

/-- A push's size operand never adds bytes. -/
theorem pushSize_length {op : UInt8} {rest rest' : Bytes} {n : Nat}
    (h : pushSize op rest = some (n, rest')) : rest'.length ≤ rest.length := by
  unfold pushSize at h
  split_ifs at h <;> cases h <;> simp

/-- Every instruction read consumes at least its opcode. -/
theorem getOp_length {s : Bytes} {op : UInt8} {d r : Bytes} (h : getOp s = some (op, d, r)) :
    r.length < s.length := by
  match s, h with
  | b :: rest, h =>
    simp only [getOp] at h
    split at h
    · split at h
      · cases h
      · rename_i n rest' hp
        split at h
        · cases h
        · cases h
          have hr := pushSize_length hp
          simp only [List.length_drop, List.length_cons]
          omega
    · cases h
      simp

/-- `CScript::operator<<(std::vector<unsigned char>)`: a push of `data`. -/
def pushData (data : Bytes) : Bytes :=
  if data.length < OP_PUSHDATA1.toNat then UInt8.ofNat data.length :: data
  else if data.length ≤ 0xff then OP_PUSHDATA1 :: UInt8.ofNat data.length :: data
  else if data.length ≤ 0xffff then OP_PUSHDATA2 :: (leBytes 2 data.length ++ data)
  else OP_PUSHDATA4 :: (leBytes 4 data.length ++ data)

/-- The opcode `pushData` writes before the data. -/
def pushOpcode (data : Bytes) : UInt8 :=
  if data.length < OP_PUSHDATA1.toNat then UInt8.ofNat data.length
  else if data.length ≤ 0xff then OP_PUSHDATA1
  else if data.length ≤ 0xffff then OP_PUSHDATA2
  else OP_PUSHDATA4

/-- `GetOp` reads a push back as its opcode and its data. -/
theorem getOp_pushData {data : Bytes} (hd : data.length < 2 ^ 32) (rest : Bytes) :
    getOp (pushData data ++ rest) = some (pushOpcode data, data, rest) := by
  have hP1 : OP_PUSHDATA1.toNat = 76 := rfl
  unfold pushData pushOpcode
  split_ifs with h1 h2 h3
  · have hop : (UInt8.ofNat data.length).toNat = data.length := by simp; omega
    have hle : UInt8.ofNat data.length ≤ OP_PUSHDATA4 := by
      rw [UInt8.le_iff_toNat_le, hop]; simp [OP_PUSHDATA4]; omega
    have hlt : UInt8.ofNat data.length < OP_PUSHDATA1 := by
      rw [UInt8.lt_iff_toNat_lt, hop]; omega
    simp [getOp, hle, pushSize, hlt, hop]
  · have hop : (UInt8.ofNat data.length).toNat = data.length := by simp; omega
    simp [getOp, pushSize, OP_PUSHDATA1, OP_PUSHDATA4, leNat, hop]
  · have hmod : data.length % 65536 = data.length := Nat.mod_eq_of_lt (by omega)
    simp [getOp, pushSize, OP_PUSHDATA1, OP_PUSHDATA2, OP_PUSHDATA4, hmod,
      show ¬ 2 + (data.length + rest.length) < 2 by omega]
  · have hmod : data.length % 4294967296 = data.length := Nat.mod_eq_of_lt (by omega)
    simp [getOp, pushSize, OP_PUSHDATA1, OP_PUSHDATA2, OP_PUSHDATA4, hmod,
      show ¬ 4 + (data.length + rest.length) < 4 by omega]

/-- How a loop `while (pc < end) { if (!GetOp(pc, opcode, data)) break; if (stop) break; }`
ends. -/
inductive ScanEnd where
  /-- `stop` held for this instruction; `rest` follows it. -/
  | stopped (op : UInt8) (data : Bytes) (rest : Bytes)
  /-- A `GetOp` failed; it cleared `data`. -/
  | failed
  /-- The loop condition failed; `last` is the last instruction read, if any. -/
  | exhausted (last : Option (UInt8 × Bytes))
  deriving DecidableEq, Repr

/-- The loop, with `fuel` iterations at most. -/
def scanOps (stop : UInt8 → Bytes → Bool) : Nat → Option (UInt8 × Bytes) → Bytes → ScanEnd
  | 0, last, _ => .exhausted last
  | fuel + 1, last, pc =>
    match pc with
    | [] => .exhausted last
    | b :: bs =>
      match getOp (b :: bs) with
      | none => .failed
      | some (op, data, rest) =>
        if stop op data then .stopped op data rest
        else scanOps stop fuel (some (op, data)) rest

/-- One iteration of the loop, where `GetOp` succeeds. -/
theorem scanOps_succ_of_getOp {stop : UInt8 → Bytes → Bool} {fuel : Nat}
    {last : Option (UInt8 × Bytes)} {pc : Bytes} {op : UInt8} {data rest : Bytes}
    (h : getOp pc = some (op, data, rest)) :
    scanOps stop (fuel + 1) last pc =
      if stop op data then .stopped op data rest else scanOps stop fuel (some (op, data)) rest := by
  match pc, h with
  | b :: bs, h => simp only [scanOps, h]

/-- The loop from the start of a script. -/
def scan (stop : UInt8 → Bytes → Bool) (s : Bytes) : ScanEnd := scanOps stop s.length none s

/-- Fuel at least the script's length is as good as any more. -/
theorem scanOps_length (stop : UInt8 → Bytes → Bool) :
    ∀ (fuel : Nat) (last : Option (UInt8 × Bytes)) (pc : Bytes), pc.length ≤ fuel →
      scanOps stop fuel last pc = scanOps stop (fuel + 1) last pc
  | 0, last, pc, h => by
    match pc, h with
    | [], _ => rfl
  | fuel + 1, last, pc, h => by
    match pc with
    | [] => rfl
    | b :: bs =>
      simp only [scanOps]
      cases hg : getOp (b :: bs) with
      | none => rfl
      | some r =>
        obtain ⟨op, data, rest⟩ := r
        have hl := getOp_length hg
        simp only
        split
        · rfl
        · exact scanOps_length stop fuel _ rest (by simp only [List.length_cons] at hl h; omega)

/-! ## Public keys -/

/-- `CPubKey::GetLen`: the key length announced by the header byte. -/
def pubKeyLen (chHeader : UInt8) : Nat :=
  if chHeader = 2 ∨ chHeader = 3 then 33
  else if chHeader = 4 ∨ chHeader = 6 ∨ chHeader = 7 then 65
  else 0

/-- `CPubKey::ValidSize`. -/
def validSize (vch : Bytes) : Bool :=
  match vch with
  | [] => false
  | h :: _ => pubKeyLen h == vch.length

/-- `CPubKey(const std::vector<unsigned char>&)`: the bytes if the header announces exactly
their length, otherwise an invalid key. -/
def CPubKey.ofBytes (vch : Bytes) : CPubKey := if validSize vch then ⟨vch⟩ else ⟨[]⟩

/-- `CPubKey::IsValid`. -/
def CPubKey.IsValid (pk : CPubKey) : Bool := !pk.vch.isEmpty

/-- `CPubKey::GetID`: `Hash160` of the key's bytes (of no bytes for an invalid key). -/
def CPubKey.GetID (cr : Crypto) (pk : CPubKey) : Uint160 := cr.hash160 pk.vch

/-- `CPubKey::IsFullyValid`. -/
def CPubKey.IsFullyValid (cr : Crypto) (pk : CPubKey) : Bool := pk.IsValid && cr.parses pk.vch

/-- `CPubKey::RecoverCompact`: only a 65-byte signature is tried. -/
def CPubKey.recoverCompact (cr : Crypto) (hash : Uint256) (sig : Bytes) : Option CPubKey :=
  if sig.length = 65 then cr.recover hash sig else none

/-! ## Standard script templates -/

/-- `txnouttype`. -/
inductive TxOutType where
  | nonstandard
  | pubkey
  | pubkeyhash
  | scripthash
  | multisig
  | nullData
  | witnessV0ScriptHash
  | witnessV0KeyHash
  | witnessUnknown
  deriving DecidableEq, Repr

/-- `CScript::IsPayToScriptHash`: `OP_HASH160 20 [20 bytes] OP_EQUAL`. -/
def isPayToScriptHash (s : Bytes) : Bool :=
  s.length == 23 && s[0]? == some OP_HASH160 && s[1]? == some 0x14 && s[22]? == some OP_EQUAL

/-- `CScript::IsWitnessProgram`: the version and the program. -/
def witnessProgram (s : Bytes) : Option (Nat × Bytes) :=
  match s with
  | v :: len :: program =>
    if s.length < 4 ∨ 42 < s.length then none
    else if v ≠ OP_0 ∧ (v < OP_1 ∨ OP_16 < v) then none
    else if len.toNat + 2 = s.length then some (decodeOpN v, program)
    else none
  | _ => none

/-- `CScript::IsPushOnly(pc)`: every instruction from `pc` on is a push. -/
def isPushOnly (pc : Bytes) : Bool :=
  match scan (fun op _ => OP_16 < op) pc with
  | .exhausted _ => true
  | _ => false

/-- `MatchPayToPubkey`. -/
def matchPayToPubkey (s : Bytes) : Option Bytes :=
  if s.length = 65 + 2 ∧ s[0]? = some 65 ∧ s.getLast? = some OP_CHECKSIG then
    let pk := (s.drop 1).take 65
    if validSize pk then some pk else none
  else if s.length = 33 + 2 ∧ s[0]? = some 33 ∧ s.getLast? = some OP_CHECKSIG then
    let pk := (s.drop 1).take 33
    if validSize pk then some pk else none
  else none

/-- `MatchPayToPubkeyHash`: `OP_DUP OP_HASH160 20 [20 bytes] OP_EQUALVERIFY OP_CHECKSIG`. -/
def matchPayToPubkeyHash (s : Bytes) : Option Bytes :=
  if s.length = 25 ∧ s[0]? = some OP_DUP ∧ s[1]? = some OP_HASH160 ∧ s[2]? = some 20 ∧
      s[23]? = some OP_EQUALVERIFY ∧ s[24]? = some OP_CHECKSIG then
    some ((s.drop 3).take 20)
  else none

/-- The key loop of `MatchMultisig`: `while (GetOp(it, opcode, data) && ValidSize(data))`
collects keys; it returns the keys, the opcode that ended it (`OP_INVALIDOPCODE` when a `GetOp`
failed) and the position after it. -/
def multisigKeys : Nat → Bytes → List Bytes × UInt8 × Bytes
  | 0, pc => ([], 0xff, pc)
  | fuel + 1, pc =>
    match getOp pc with
    | none => ([], 0xff, pc)
    | some (op, data, rest) =>
      if validSize data then
        let r := multisigKeys fuel rest
        (data :: r.1, r.2)
      else ([], op, rest)

/-- `MatchMultisig`: the number of required signatures and the keys. -/
def matchMultisig (s : Bytes) : Option (Nat × List Bytes) :=
  if s.isEmpty ∨ s.getLast? ≠ some OP_CHECKMULTISIG then none
  else match getOp s with
    | none => none
    | some (op, _, rest) =>
      if !isSmallInteger op then none
      else
        let required := decodeOpN op
        let (keys, last, after) := multisigKeys rest.length rest
        if !isSmallInteger last then none
        else if keys.length ≠ decodeOpN last ∨ decodeOpN last < required then none
        else if after.length = 1 then some (required, keys) else none

/-- `Solver`: the template and its solutions. -/
def solver (s : Bytes) : TxOutType × List Bytes :=
  if isPayToScriptHash s then (.scripthash, [(s.drop 2).take 20])
  else match witnessProgram s with
  | some (version, program) =>
    if version = 0 ∧ program.length = 20 then (.witnessV0KeyHash, [program])
    else if version = 0 ∧ program.length = 32 then (.witnessV0ScriptHash, [program])
    else if version ≠ 0 then (.witnessUnknown, [[UInt8.ofNat version], program])
    else (.nonstandard, [])
  | none =>
    if s.head? = some OP_RETURN ∧ isPushOnly (s.drop 1) then (.nullData, [])
    else match matchPayToPubkey s with
    | some pk => (.pubkey, [pk])
    | none => match matchPayToPubkeyHash s with
      | some h => (.pubkeyhash, [h])
      | none => match matchMultisig s with
        | some (required, keys) =>
          (.multisig, [[UInt8.ofNat required]] ++ keys ++ [[UInt8.ofNat keys.length]])
        | none => (.nonstandard, [])

/-- `CTxDestination`. -/
inductive CTxDestination where
  | noDestination
  | keyID (id : Uint160)
  | scriptID (id : Uint160)
  | witnessV0ScriptHash (hash : Uint256)
  | witnessV0KeyHash (hash : Uint160)
  | witnessUnknown (version : Nat) (program : Bytes)
  deriving DecidableEq, Repr

/-- `boost::get<CKeyID>(&dest)`: the key id, or the null pointer. -/
def CTxDestination.getKeyID : CTxDestination → Option Uint160
  | .keyID id => some id
  | _ => none

/-- `ExtractDestination`: the destination of an output script, if it has one. -/
def extractDestination (cr : Crypto) (s : Bytes) : Option CTxDestination :=
  match solver s with
  | (.pubkey, sol :: _) =>
    let pk := CPubKey.ofBytes sol
    if pk.IsValid then some (.keyID (pk.GetID cr)) else none
  | (.pubkeyhash, sol :: _) => some (.keyID (Uint160.ofBytes sol))
  | (.scripthash, sol :: _) => some (.scriptID (Uint160.ofBytes sol))
  | (.witnessV0KeyHash, sol :: _) => some (.witnessV0KeyHash (Uint160.ofBytes sol))
  | (.witnessV0ScriptHash, sol :: _) => some (.witnessV0ScriptHash (Uint256.ofBytes sol))
  | (.witnessUnknown, v :: program :: _) => some (.witnessUnknown (leNat v) program)
  | _ => none

/-! ## Which outputs have a key id -/

/-- The pay-to-script-hash script of a 20-byte hash. -/
def payToScriptHash (h : Bytes) : Bytes := [OP_HASH160, 0x14] ++ h ++ [OP_EQUAL]

/-- The pay-to-pubkey-hash script of a 20-byte hash. -/
def payToPubkeyHash (h : Bytes) : Bytes := [OP_DUP, OP_HASH160, 20] ++ h ++ [OP_EQUALVERIFY, OP_CHECKSIG]

theorem isPayToScriptHash_payToScriptHash {h : Bytes} (hl : h.length = 20) :
    isPayToScriptHash (payToScriptHash h) = true := by
  simp [isPayToScriptHash, payToScriptHash, hl]

/-- **A pay-to-script-hash output has a `CScriptID`, never a `CKeyID`.** -/
theorem extractDestination_p2sh (cr : Crypto) {h : Bytes} (hl : h.length = 20) :
    extractDestination cr (payToScriptHash h) = some (.scriptID (Uint160.ofBytes h)) := by
  have hs : solver (payToScriptHash h) = (.scripthash, [h]) := by
    have ht : ((payToScriptHash h).drop 2).take 20 = h := by
      simp [payToScriptHash, hl]
    simp [solver, isPayToScriptHash_payToScriptHash hl, ht]
  simp [extractDestination, hs]

/-- Only pay-to-pubkey and pay-to-pubkey-hash outputs give a key id. -/
theorem extractDestination_keyID {cr : Crypto} {s : Bytes} {id : Uint160}
    (h : extractDestination cr s = some (.keyID id)) :
    (solver s).1 = .pubkey ∨ (solver s).1 = .pubkeyhash := by
  unfold extractDestination at h
  split at h <;> simp_all

end Blocknet
