import Mathlib.Data.List.AList
import Mathlib.Algebra.Group.Nat.Defs

/-!
# Primitive types: hashes, outpoints, transactions, blocks, the active chain

Model of the data types of `primitives/transaction.h`, `primitives/block.h` and `uint256.h`
that the governance, servicenode and xbridge code reads, and of the lookups it makes into the
chain.

* `uint256` and `uint160` are `BitVec 256` and `BitVec 160`. Bytes go in and out little-endian
  (`uint256::begin()` is the least significant byte), which is what `ToByteVector` and the
  stream serialization see.
* A `CTransaction` caches its id in the member `hash`; `Transaction.hash` is that member, and no
  model function recomputes it. A valid chain has distinct transaction ids (BIP30 and the
  no-double-spend rule); the theorems that need this say so.
* `Fault` is every way a computation of the C++ code fails to return normally: a thrown
  exception (with its `what()` text), an out-of-bounds access, a null dereference, or a loop
  that never ends. The C++ behaviour of the last three is undefined or non-terminating; the model
  stops at the first one, so "the code never does X" is "the model never returns that fault".
* `Chain.getTransaction` is `GetTransaction` together with the `LookupBlockIndex` and
  `chainActive.Contains` checks that follow it in every caller: the first transaction with that
  id in a block of the active chain, and the block's height. A transaction found only in the
  mempool or in a stale block fails those checks, so it is not found.
* `Crypto` collects the primitives that are too large to embed (SHA-256, RIPEMD-160,
  secp256k1) as functions; no theorem assumes anything of them that their code does not give.
-/

namespace Blocknet

/-- Raw bytes: a `std::vector<unsigned char>`, a `CScript` or the bytes of a `std::string`. -/
abbrev Bytes := List UInt8

/-- Why a computation did not return normally. -/
inductive Fault where
  /-- A C++ exception; `catch (...)` handlers see it. -/
  | exception (what : String)
  /-- An access at `index` of a buffer that ends before it (undefined behaviour). -/
  | outOfBounds (index : Nat)
  /-- A dereference of a null pointer (undefined behaviour). -/
  | nullDeref
  /-- A loop whose state no longer changes, so it never ends. -/
  | diverge
  deriving DecidableEq, Repr

/-- The little-endian value of a byte string. -/
def leNat : Bytes → Nat
  | [] => 0
  | b :: bs => b.toNat + 256 * leNat bs

/-- `uint256`. -/
abbrev Uint256 := BitVec 256

/-- The `==` of hashes is their equality; named once, so that the membership tests on lists of
hashes all use this instance. -/
instance : LawfulBEq Uint256 := inferInstance

/-- `uint160` (`CKeyID`, `CScriptID`). -/
abbrev Uint160 := BitVec 160

/-- `uint256(std::vector<unsigned char>)`: the bytes in little-endian order. -/
def Uint256.ofBytes (b : Bytes) : Uint256 := BitVec.ofNat 256 (leNat b)

/-- `uint160(std::vector<unsigned char>)`. -/
def Uint160.ofBytes (b : Bytes) : Uint160 := BitVec.ofNat 160 (leNat b)

/-- The `n` low bytes of a value, least significant first. -/
def leBytes : Nat → Nat → Bytes
  | 0, _ => []
  | n + 1, x => UInt8.ofNat x :: leBytes n (x / 256)

/-- `ToByteVector(uint256)`: the 32 bytes from `begin()` to `end()`. -/
def Uint256.toBytes (x : Uint256) : Bytes := leBytes 32 x.toNat

/-- The 20 bytes of a `uint160`, as its serialization writes them. -/
def Uint160.toBytes (x : Uint160) : Bytes := leBytes 20 x.toNat

/-- `COutPoint`. -/
structure OutPoint where
  hash : Uint256
  n : UInt32
  deriving DecidableEq, Repr

/-- `COutPoint::IsNull`: null hash and index `(uint32_t)-1`. -/
def OutPoint.IsNull (o : OutPoint) : Bool := o.hash == 0 && o.n == 0xFFFFFFFF

/-- `CTxIn`: the outpoint it spends and its `scriptSig`. -/
structure TxIn where
  prevout : OutPoint
  scriptSig : Bytes
  deriving DecidableEq, Repr

/-- `CTxOut`. -/
structure TxOut where
  nValue : Int
  scriptPubKey : Bytes
  deriving DecidableEq, Repr

/-- `CTransaction`, with its cached id. -/
structure Transaction where
  hash : Uint256
  vin : List TxIn
  vout : List TxOut
  deriving DecidableEq, Repr

/-- `CTransaction::IsCoinBase`. -/
def Transaction.IsCoinBase (tx : Transaction) : Bool :=
  match tx.vin with
  | [i] => i.prevout.IsNull
  | _ => false

/-- `CTransaction::IsCoinStake`: one input, not null, and at least two outputs, the first of
them empty. -/
def Transaction.IsCoinStake (tx : Transaction) : Bool :=
  match tx.vin, tx.vout with
  | [i], out :: _ :: _ => !i.prevout.IsNull && out.nValue == 0 && out.scriptPubKey.isEmpty
  | _, _ => false

/-- `CBlock`: its hash, its time (`GetBlockTime`) and its transactions. -/
structure Block where
  hash : Uint256
  time : Int
  vtx : List Transaction
  deriving DecidableEq, Repr

/-- `CBlock::IsProofOfStake`: a second transaction, and it is a coinstake. -/
def Block.IsProofOfStake (b : Block) : Bool :=
  match b.vtx with
  | _ :: tx :: _ => tx.IsCoinStake
  | _ => false

/-- The ids of a block's transactions. -/
def Block.txids (b : Block) : List Uint256 := b.vtx.map Transaction.hash

/-- `chainActive`: the block at height `i` is the `i`-th. -/
abbrev Chain := List Block

/-- The first transaction with id `txid` in `blocks`, whose first block is at `height`. -/
def findTx (txid : Uint256) : List Block → Nat → Option (Transaction × Nat)
  | [], _ => none
  | b :: bs, height =>
    match b.vtx.find? (fun tx => tx.hash == txid) with
    | some tx => some (tx, height)
    | none => findTx txid bs (height + 1)

/-- `GetTransaction` followed by `LookupBlockIndex` and `chainActive.Contains`. -/
def Chain.getTransaction (c : Chain) (txid : Uint256) : Option (Transaction × Nat) :=
  findTx txid c 0

/-- A coin of the UTXO set (`Coin`); the governance code reads its height only. -/
structure Coin where
  nHeight : Int
  deriving DecidableEq, Repr

/-- A `CPubKey`: the bytes of a valid key, or `[]` for an invalid one. -/
structure CPubKey where
  vch : Bytes
  deriving DecidableEq, Repr

/-- The cryptographic primitives, as functions. -/
structure Crypto where
  /-- `Hash` (double SHA-256), what `CHashWriter::GetHash` computes of the written bytes. -/
  hash256 : Bytes → Uint256
  /-- `Hash160` (RIPEMD-160 of SHA-256). -/
  hash160 : Bytes → Uint160
  /-- secp256k1 public key recovery from a 65-byte compact signature of a hash. -/
  recover : Uint256 → Bytes → Option CPubKey
  /-- secp256k1 parses the key (`CPubKey::IsFullyValid` past the size check). -/
  parses : Bytes → Bool

/-- A `Crypto` to run the model on sample inputs: each hash reads its input as a little-endian
number, recovery returns the first 33 bytes of the signature as the key, and every key parses.
It has none of the properties of the real primitives; theorems about all inputs never use it. -/
def Crypto.sample : Crypto where
  hash256 b := BitVec.ofNat 256 (leNat b)
  hash160 b := BitVec.ofNat 160 (leNat b)
  recover _ sig := some ⟨sig.take 33⟩
  parses _ := true

/-! ## Little-endian bytes -/

@[simp] theorem length_leBytes (n x : Nat) : (leBytes n x).length = n := by
  induction n generalizing x with
  | zero => rfl
  | succ n ih => simp [leBytes, ih]

/-- Reading back `n` written bytes gives the value modulo `256 ^ n`. -/
@[simp] theorem leNat_leBytes (n x : Nat) : leNat (leBytes n x) = x % 256 ^ n := by
  induction n generalizing x with
  | zero => simp [leBytes, leNat, Nat.mod_one]
  | succ n ih =>
    have hb : (UInt8.ofNat x).toNat = x % 256 := by simp
    rw [leBytes, leNat, ih, hb, Nat.pow_succ', Nat.mod_mul]

@[simp] theorem Uint256.length_toBytes (x : Uint256) : x.toBytes.length = 32 := length_leBytes 32 _

/-- A `uint256` read back from its bytes is itself. -/
@[simp] theorem Uint256.ofBytes_toBytes (x : Uint256) : Uint256.ofBytes x.toBytes = x := by
  have hx : x.toNat < 256 ^ 32 := x.isLt
  rw [Uint256.ofBytes, Uint256.toBytes, leNat_leBytes, Nat.mod_eq_of_lt hx, BitVec.ofNat_toNat,
    BitVec.setWidth_eq]

/-! ## The chain lookup -/

/-- Appending blocks does not change what an earlier block already answers. -/
theorem findTx_append {txid : Uint256} {bs : List Block} {height : Nat} {r : Transaction × Nat}
    (h : findTx txid bs height = some r) (more : List Block) :
    findTx txid (bs ++ more) height = some r := by
  induction bs generalizing height with
  | nil => simp [findTx] at h
  | cons b bs ih =>
    simp only [findTx, List.cons_append] at h ⊢
    cases hf : b.vtx.find? (fun tx => tx.hash == txid) with
    | some tx => rw [hf] at h; exact h
    | none => rw [hf] at h; exact ih h

/-- A transaction not in the first blocks is looked up in the blocks after them. -/
theorem findTx_append_none {txid : Uint256} {bs : List Block} {height : Nat}
    (h : findTx txid bs height = none) (more : List Block) :
    findTx txid (bs ++ more) height = findTx txid more (height + bs.length) := by
  induction bs generalizing height with
  | nil => rfl
  | cons b bs ih =>
    simp only [findTx, List.cons_append] at h ⊢
    cases hf : b.vtx.find? (fun tx => tx.hash == txid) with
    | some tx => rw [hf] at h; cases h
    | none =>
      rw [hf] at h
      rw [ih h, List.length_cons, show height + 1 + bs.length = height + (bs.length + 1) by omega]

/-- A transaction found is in one of the blocks, at its height. -/
theorem findTx_mem {txid : Uint256} {bs : List Block} {height : Nat} {tx : Transaction}
    {n : Nat} (h : findTx txid bs height = some (tx, n)) :
    tx.hash = txid ∧ height ≤ n ∧ ∃ b, bs[n - height]? = some b ∧ tx ∈ b.vtx := by
  induction bs generalizing height with
  | nil => simp [findTx] at h
  | cons b bs ih =>
    simp only [findTx] at h
    cases hf : b.vtx.find? (fun tx => tx.hash == txid) with
    | some tx' =>
      rw [hf] at h
      simp only [Option.some.injEq, Prod.mk.injEq] at h
      obtain ⟨rfl, rfl⟩ := h
      have hm := List.mem_of_find?_eq_some hf
      have he := List.find?_some hf
      exact ⟨by simpa using he, le_rfl, b, by simp, hm⟩
    | none =>
      rw [hf] at h
      obtain ⟨he, hle, b', hb', hm⟩ := ih h
      refine ⟨he, by omega, b', ?_, hm⟩
      have : n - height = (n - (height + 1)) + 1 := by omega
      rw [this, List.getElem?_cons_succ]
      exact hb'

/-- A transaction id that no block holds is not found. -/
theorem findTx_eq_none {txid : Uint256} {bs : List Block} (height : Nat)
    (h : ∀ b ∈ bs, txid ∉ b.txids) : findTx txid bs height = none := by
  induction bs generalizing height with
  | nil => rfl
  | cons b bs ih =>
    simp only [findTx]
    have hn : b.vtx.find? (fun tx => tx.hash == txid) = none := by
      rw [List.find?_eq_none]
      intro tx htx heq
      exact h b List.mem_cons_self (List.mem_map.mpr ⟨tx, htx, by simpa using heq⟩)
    rw [hn]
    exact ih _ (fun b' hb' => h b' (List.mem_cons_of_mem b hb'))

end Blocknet
