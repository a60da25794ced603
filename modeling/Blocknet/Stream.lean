import Blocknet.Primitives
import Mathlib.Tactic.Positivity

/-!
# `CDataStream` deserialization

Model of reading from a `CDataStream` (`streams.h`) with the `Unserialize` overloads of
`serialize.h` that the governance objects use. A `Reader` runs on the unread bytes and either
returns a value with the bytes left, or fails with a `Fault`.

* `readBytes n` is `CDataStream::read`: it throws
  `std::ios_base::failure("CDataStream::read(): end of data")` when fewer than `n` bytes are
  left, and reads nothing for `n = 0`.
* `readCompactSize` is `ReadCompactSize`, with its two non-canonical checks and the `MAX_SIZE`
  check, each with its own exception text.
* `readString` and `readVector` are `std::string` and `std::vector<unsigned char>`: a compact
  size, then that many bytes. The vector is read in chunks of 5000000 bytes; the chunks end in
  the same exception or the same bytes, so one read stands for them.
* `readArray N` is `std::array<unsigned char, N>` (`Unserialize_impl`, `serialize.h:800`), whose
  loop is
  `while (i < N) { blk = min(nSize - i, 5000000); is.read(&v[i], blk); i += blk; }`.
  For `nSize < N` the loop reaches `blk = 0` and then never changes its state again: the model
  returns `Fault.diverge` there (`readArray_diverge`). For `nSize > N` the first read writes past
  the array's end: `Fault.outOfBounds N` once the bytes are there (`readArray_overflow`).

The writers (`writeCompactSize`, `writeString`, `writeSigned`, `writeArray`, `writeOutPoint`)
are the `Serialize` overloads; each reader reads back what its writer wrote
(`readCompactSize_write`, `readString_write`, `readSigned_write`, `readArray_write`,
`readOutPoint_write`).
-/

namespace Blocknet

/-- A reader over the unread bytes of a stream. -/
abbrev Reader := StateT Bytes (Except Fault)

/-- `std::ios_base::failure("CDataStream::read(): end of data")`. -/
def endOfData : Fault := .exception "CDataStream::read(): end of data"

/-- `serialize.h`: `MAX_SIZE`. -/
def MAX_SIZE : Nat := 0x02000000

/-- `CDataStream::read`. -/
def readBytes (n : Nat) : Reader Bytes := fun s =>
  if s.length < n then .error endOfData else .ok (s.take n, s.drop n)

/-- `ser_readdata8/16/32/64`: `k` bytes, little-endian. -/
def readLE (k : Nat) : Reader Nat := do
  let b ← readBytes k
  pure (leNat b)

/-- A signed `k`-byte value (`int`, `int64_t`) from its two's-complement bytes. -/
def readSigned (k : Nat) : Reader Int := do
  let v ← readLE k
  pure (if v < 2 ^ (8 * k - 1) then (v : Int) else (v : Int) - 2 ^ (8 * k))

/-- `ReadCompactSize`. -/
def readCompactSize : Reader Nat := do
  let ch ← readLE 1
  let n ← (if ch < 253 then pure ch
    else if ch = 253 then do
      let v ← readLE 2
      if v < 253 then throw (.exception "non-canonical ReadCompactSize()") else pure v
    else if ch = 254 then do
      let v ← readLE 4
      if v < 0x10000 then throw (.exception "non-canonical ReadCompactSize()") else pure v
    else do
      let v ← readLE 8
      if v < 0x100000000 then throw (.exception "non-canonical ReadCompactSize()") else pure v :
    Reader Nat)
  if MAX_SIZE < n then throw (.exception "ReadCompactSize(): size too large") else pure n

/-- `Unserialize(std::string)`. -/
def readString : Reader Bytes := do
  let n ← readCompactSize
  readBytes n

/-- `Unserialize(std::vector<unsigned char>)`. -/
def readVector : Reader Bytes := readString

/-- `uint256::Unserialize`: 32 bytes. -/
def readUint256 : Reader Uint256 := do
  let b ← readBytes 32
  pure (Uint256.ofBytes b)

/-- `COutPoint`: its hash, then its index. -/
def readOutPoint : Reader OutPoint := do
  let hash ← readUint256
  let n ← readLE 4
  pure ⟨hash, UInt32.ofNat n⟩

/-- The loop of `Unserialize_impl(std::array<unsigned char, N>)`, from index `i` with the bytes
`acc` already read, for at most `fuel` iterations. -/
def readArrayLoop (N nSize : Nat) : Nat → Nat → Bytes → Reader Bytes
  | 0, _, acc => pure acc
  | fuel + 1, i, acc =>
    if N ≤ i then pure acc
    else
      let blk := min (nSize - i) 5000000
      if blk = 0 then throw .diverge
      else do
        let b ← readBytes blk
        if N < i + blk then throw (.outOfBounds N)
        else readArrayLoop N nSize fuel (i + blk) (acc ++ b)

/-- `Unserialize(std::array<unsigned char, N>)`. -/
def readArray (N : Nat) : Reader Bytes := do
  let nSize ← readCompactSize
  readArrayLoop N nSize (N + 1) 0 []


/-! ## Writing -/

/-- `WriteCompactSize`. -/
def writeCompactSize (n : Nat) : Bytes :=
  if n < 253 then [UInt8.ofNat n]
  else if n ≤ 0xFFFF then 253 :: leBytes 2 n
  else if n ≤ 0xFFFFFFFF then 254 :: leBytes 4 n
  else 255 :: leBytes 8 n

/-- `Serialize(std::string)` and `Serialize(std::vector<unsigned char>)`. -/
def writeString (s : Bytes) : Bytes := writeCompactSize s.length ++ s

/-- A signed `k`-byte value (`int`, `int64_t`) as its two's-complement bytes. -/
def writeSigned (k : Nat) (x : Int) : Bytes := leBytes k (x % 2 ^ (8 * k)).toNat

/-- `Serialize(std::array<unsigned char, N>)`: its size, then its bytes. -/
def writeArray (v : Bytes) : Bytes := writeCompactSize v.length ++ v

/-- `COutPoint`: its hash, then its index. -/
def writeOutPoint (o : OutPoint) : Bytes := o.hash.toBytes ++ leBytes 4 o.n.toNat

/-! ## Running a reader -/

section Run

variable {α β : Type}

@[simp] theorem Reader.run_bind (x : Reader α) (f : α → Reader β) (s : Bytes) :
    (x >>= f) s = (match x s with
      | .ok (a, s') => f a s'
      | .error e => .error e) := by
  show (x s).bind _ = _
  cases x s with
  | ok p => rfl
  | error e => rfl

@[simp] theorem Reader.run_map (f : α → β) (x : Reader α) (s : Bytes) :
    (f <$> x) s = (match x s with
      | .ok (a, s') => .ok (f a, s')
      | .error e => .error e) := by
  show (x s).bind _ = _
  cases x s with
  | ok p => rfl
  | error e => rfl

@[simp] theorem Reader.run_pure (a : α) (s : Bytes) : (pure a : Reader α) s = .ok (a, s) := rfl

@[simp] theorem Reader.run_throw (e : Fault) (s : Bytes) : (throw e : Reader α) s = .error e :=
  rfl

/-- A bind that succeeded ran both halves successfully. -/
theorem Reader.bind_eq_ok {x : Reader α} {f : α → Reader β} {s s' : Bytes} {b : β}
    (h : (x >>= f) s = .ok (b, s')) : ∃ a s₁, x s = .ok (a, s₁) ∧ f a s₁ = .ok (b, s') := by
  rw [Reader.run_bind] at h
  cases hx : x s with
  | error e => rw [hx] at h; cases h
  | ok p =>
    obtain ⟨a, s₁⟩ := p
    rw [hx] at h
    exact ⟨a, s₁, rfl, h⟩

end Run

/-! ## Reading lemmas -/

@[simp] theorem readBytes_run_of_le {n : Nat} {s : Bytes} (h : n ≤ s.length) :
    readBytes n s = .ok (s.take n, s.drop n) := by
  simp [readBytes, Nat.not_lt.mpr h]

@[simp] theorem readBytes_run_of_lt {n : Nat} {s : Bytes} (h : s.length < n) :
    readBytes n s = .error endOfData := by
  simp [readBytes, h]

/-- A read of `n` bytes from `bytes ++ rest`, where `bytes` has exactly `n`. -/
theorem readBytes_append {bytes rest : Bytes} :
    readBytes bytes.length (bytes ++ rest) = .ok (bytes, rest) := by
  simp

/-! ## Round trips -/

@[simp] theorem readLE_leBytes (k x : Nat) (rest : Bytes) :
    readLE k (leBytes k x ++ rest) = .ok (x % 256 ^ k, rest) := by
  simp [readLE]

/-- A compact size below 253 is its one byte. -/
theorem readCompactSize_small {n : Nat} (hn : n < 253) (s : Bytes) :
    readCompactSize (UInt8.ofNat n :: s) = .ok (n, s) := by
  have hb : (UInt8.ofNat n).toNat = n := by
    simp; omega
  simp [readCompactSize, readLE, leNat, hb, hn, show ¬ MAX_SIZE < n by unfold MAX_SIZE; omega]

theorem readCompactSize_write {n : Nat} (hn : n ≤ MAX_SIZE) (rest : Bytes) :
    readCompactSize (writeCompactSize n ++ rest) = .ok (n, rest) := by
  unfold MAX_SIZE at hn
  unfold writeCompactSize
  split_ifs with h1 h2 h3
  · exact readCompactSize_small h1 rest
  · -- the marker 253, then two bytes that are not below 253
    have hm : readLE 1 ((253 : UInt8) :: (leBytes 2 n ++ rest)) = .ok (253, leBytes 2 n ++ rest) :=
      rfl
    have hmod : n % 65536 = n := Nat.mod_eq_of_lt (by omega)
    simp [readCompactSize, hm, hmod, h1, show ¬ MAX_SIZE < n by unfold MAX_SIZE; omega]
  · -- the marker 254, then four bytes that are not below `0x10000`
    have hm : readLE 1 ((254 : UInt8) :: (leBytes 4 n ++ rest)) = .ok (254, leBytes 4 n ++ rest) :=
      rfl
    have hmod : n % 4294967296 = n := Nat.mod_eq_of_lt (by omega)
    simp [readCompactSize, hm, hmod, show ¬ n < 65536 by omega,
      show ¬ MAX_SIZE < n by unfold MAX_SIZE; omega]
  · omega

theorem readString_write {s : Bytes} (hs : s.length ≤ MAX_SIZE) (rest : Bytes) :
    readString (writeString s ++ rest) = .ok (s, rest) := by
  simp [readString, writeString, readCompactSize_write hs]

section Signed

variable {k : Nat} {x : Int}

/-- The two's-complement residue of a value in range: itself, or itself plus `2 ^ (8 * k)`
when negative. -/
theorem emod_twoPow_of_range (hk : 0 < k) (hlo : -2 ^ (8 * k - 1) ≤ x)
    (hhi : x < 2 ^ (8 * k - 1)) :
    x % 2 ^ (8 * k) = if 0 ≤ x then x else x + 2 ^ (8 * k) := by
  have hN : (2 : Int) ^ (8 * k) = 2 * 2 ^ (8 * k - 1) := by
    rw [← pow_succ']; congr 1; omega
  have hpos : (0 : Int) < 2 ^ (8 * k - 1) := by positivity
  split_ifs with h0
  · exact Int.emod_eq_of_lt h0 (by omega)
  · rw [← Int.add_emod_right]
    exact Int.emod_eq_of_lt (by omega) (by omega)

theorem readSigned_write (hk : 0 < k) (hlo : -2 ^ (8 * k - 1) ≤ x) (hhi : x < 2 ^ (8 * k - 1))
    (rest : Bytes) : readSigned k (writeSigned k x ++ rest) = .ok (x, rest) := by
  have hN : (2 : Int) ^ (8 * k) = 2 * 2 ^ (8 * k - 1) := by
    rw [← pow_succ']; congr 1; omega
  have hpos : (0 : Int) < 2 ^ (8 * k - 1) := by positivity
  have h256 : (256 : Nat) ^ k = 2 ^ (8 * k) := by rw [pow_mul]; rfl
  have hcast : ((2 ^ (8 * k - 1) : Nat) : Int) = (2 : Int) ^ (8 * k - 1) := by push_cast; rfl
  have hcast' : ((2 ^ (8 * k) : Nat) : Int) = (2 : Int) ^ (8 * k) := by push_cast; rfl
  -- the value read back is the residue, which lies below the modulus
  set v := (x % 2 ^ (8 * k)).toNat with hv_def
  have hv : (v : Int) = if 0 ≤ x then x else x + 2 ^ (8 * k) := by
    rw [hv_def, Int.toNat_of_nonneg (Int.emod_nonneg _ (by positivity)),
      emod_twoPow_of_range hk hlo hhi]
  have hlt : v < 256 ^ k := by
    rw [h256]; split_ifs at hv <;> omega
  simp only [readSigned, writeSigned, ← hv_def, Reader.run_bind, readLE_leBytes,
    Nat.mod_eq_of_lt hlt, Reader.run_pure]
  -- a non-negative value reads below `2 ^ (8 * k - 1)`, a negative one at or above it
  split_ifs at hv with h0 <;> split_ifs with h1
  · simp [hv]
  · omega
  · omega
  · simp only [Except.ok.injEq, Prod.mk.injEq, and_true]; omega

end Signed

theorem readUint256_write (x : Uint256) (rest : Bytes) :
    readUint256 (x.toBytes ++ rest) = .ok (x, rest) := by
  have hb : readBytes 32 (x.toBytes ++ rest) = .ok (x.toBytes, rest) := by
    simp [Uint256.toBytes]
  have hlt : x.toNat < 256 ^ 32 := lt_of_lt_of_eq x.isLt (by decide)
  have hval : Uint256.ofBytes x.toBytes = x := by
    simp only [Uint256.ofBytes, Uint256.toBytes, leNat_leBytes, Nat.mod_eq_of_lt hlt,
      BitVec.ofNat_toNat, BitVec.setWidth_eq]
  simp [readUint256, hb, hval]

theorem readOutPoint_write (o : OutPoint) (rest : Bytes) :
    readOutPoint (writeOutPoint o ++ rest) = .ok (o, rest) := by
  simp [readOutPoint, writeOutPoint, readUint256_write]

theorem readArray_write {N : Nat} {v : Bytes} (hv : v.length = N) (hpos : 0 < N)
    (hN : N ≤ 5000000) (rest : Bytes) : readArray N (writeArray v ++ rest) = .ok (v, rest) := by
  have hc := readCompactSize_write (n := N) (by unfold MAX_SIZE; omega) (v ++ rest)
  -- one block holds the whole array; the second iteration finds it full
  have hblk : min (N - 0) 5000000 = N := by omega
  subst hv
  simp only [readArray, writeArray, List.append_assoc, Reader.run_bind, hc]
  simp only [readArrayLoop, hblk, if_neg (show ¬ v.length ≤ 0 by omega),
    if_neg (show v.length ≠ 0 by omega), Reader.run_bind, readBytes_append, Nat.zero_add,
    if_neg (Nat.lt_irrefl _)]
  obtain ⟨m, hm⟩ : ∃ m, v.length = m + 1 := ⟨v.length - 1, by omega⟩
  rw [hm]
  simp [readArrayLoop]

/-! ## The `std::array` loop -/

/-- A declared size above `N` makes the first read write past the array's end. -/
theorem readArray_overflow {N nSize : Nat} (hpos : 0 < N) (hlt : N < nSize)
    (hN : nSize ≤ 5000000) (s : Bytes) (hs : nSize ≤ s.length) :
    readArrayLoop N nSize (N + 1) 0 [] s = .error (.outOfBounds N) := by
  have hblk : min (nSize - 0) 5000000 = nSize := by omega
  simp only [readArrayLoop, hblk, Nat.zero_add, if_neg (show ¬ N ≤ 0 by omega),
    if_neg (show nSize ≠ 0 by omega), Reader.run_bind, readBytes_run_of_le hs, if_pos hlt,
    Reader.run_throw]

/-- A declared size below `N` leaves the loop at `i = nSize < N` with `blk = 0`. -/
theorem readArray_diverge {N nSize : Nat} (hlt : nSize < N) (hN : N ≤ 5000000) (s : Bytes)
    (hs : nSize ≤ s.length) : readArrayLoop N nSize (N + 1) 0 [] s = .error .diverge := by
  obtain ⟨m, rfl⟩ : ∃ m, N = m + 1 := ⟨N - 1, by omega⟩
  cases nSize with
  | zero => simp [readArrayLoop]
  | succ k =>
    -- the first iteration reads all `k + 1` declared bytes; the second finds `blk = 0`
    have hblk : min (k + 1 - 0) 5000000 = k + 1 := by omega
    have hblk' : min (k + 1 - (0 + (k + 1))) 5000000 = 0 := by omega
    simp only [readArrayLoop, hblk, if_neg (show ¬ m + 1 ≤ 0 by omega),
      if_neg (show k + 1 ≠ 0 by omega), Reader.run_bind, readBytes_run_of_le hs,
      if_neg (show ¬ m + 1 < 0 + (k + 1) by omega)]
    cases m with
    | zero => omega
    | succ m =>
      simp only [readArrayLoop, if_neg (show ¬ m + 1 + 1 ≤ 0 + (k + 1) by omega), hblk']
      rfl

/-- An array written shorter than `N` bytes makes its reader loop forever. -/
theorem readArray_write_short {N : Nat} {v : Bytes} (hv : v.length < N) (hN : N ≤ 5000000)
    (rest : Bytes) : readArray N (writeArray v ++ rest) = .error .diverge := by
  have hc := readCompactSize_write (n := v.length) (by unfold MAX_SIZE; omega) (v ++ rest)
  have hs : v.length ≤ (v ++ rest).length := by simp
  simp only [readArray, writeArray, List.append_assoc, Reader.run_bind, hc]
  exact readArray_diverge hv hN _ hs

end Blocknet
