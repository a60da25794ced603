import Blocknet.XBridge.Packet
import Blocknet.XBridge.Exchange

/-!
# The order packets and their readers

Model of the two packets that carry an order: `xbcTransaction`, which a trader's
`App::Impl::sendPendingTransaction` (`xbridge/xbridgeapp.cpp`) sends to its servicenode and
`Session::Impl::processTransaction` (`xbridge/xbridgesession.cpp`) reads there, and
`xbcPendingTransaction`, which the servicenode's `Session::Impl::sendTransaction` broadcasts and
`processPendingTransaction` reads on the traders' nodes.

* A currency is written as a field of eight bytes, the code and then zeros (`currencyField`), and
  read back as the C string at the start of the field (`XBridgePacket.dataString`).
* A time is `timeToInt`, microseconds since the epoch as a `uint64_t`, and is read back by
  `intToTime`, through an `int64_t`.
* A `wallet::UtxoEntry` is what the packet carries of it (`UtxoItem`). Its transaction id is the
  `uint256` that `uint256S` parses and `ToString` prints back.
* `readTransaction` is `processTransaction` from the size check to the end of the loop over the
  utxo items, for an order that is not pending yet. The signature and connector checks between the
  header fields and the items, and the checks of each item against the wallet (`getTxOut`,
  `verifyMessage`), drop the packet or an item but read nothing more of the packet.
  `readPendingOrder` is what `processPendingTransaction` reads for a new order.

Results:
* `readTransaction_sendPendingTransaction_iff`: of a well-formed order with utxo items, the hub
  reads back every field, but a currency code reads back only where its C string ends in its
  field: a code shorter than eight bytes, or one of eight followed by an amount whose low byte is
  zero (`readsBack`). `readPendingOrder_sendTransaction_iff`: the same of the pending packet.
* `readTransaction_no_utxo_items`: an order with no utxo items makes a packet of 148 bytes, which
  `processTransaction` drops for being shorter than 152.
-/

namespace Blocknet.XBridge

open Blocknet.Lib

/-- `XBridgePacket::signatureSize`. -/
def signatureSize : Nat := 65

/-- A currency in a packet: `std::vector<unsigned char> fc(8, 0)` with the code copied to its
start. -/
def currencyField (currency : Bytes) : Bytes := currency ++ List.replicate (8 - currency.length) 0

/-- `timeToInt`: microseconds since the epoch, as a `uint64_t`. -/
def timeToInt (t : Int) : Nat := (t % 2 ^ 64).toNat

/-- `intToTime`: the `uint64_t` taken back as an `int64_t` of microseconds. -/
def intToTime (n : Nat) : Int := if n < 2 ^ 63 then n else n - 2 ^ 64

/-- Whether the C string read at a currency field gives back `currency`: the field holds a zero
after the code, or the code fills it and the first byte after it, the low byte of `amount`, is
zero. -/
def readsBack (currency : Bytes) (amount : Nat) : Bool :=
  decide (currency.length < 8) || amount % 256 == 0

/-! ## `xbcTransaction` -/

/-- What a packet carries of a `wallet::UtxoEntry`. -/
structure UtxoItem where
  txid : Uint256
  vout : UInt32
  rawAddress : Bytes
  signature : Bytes
  deriving DecidableEq, Repr

/-- The bytes of one utxo item in the packet. -/
def UtxoItem.bytes (e : UtxoItem) : Bytes :=
  e.txid.toBytes ++ leBytes 4 e.vout.toNat ++ e.rawAddress ++ e.signature

/-- What `sendPendingTransaction` reads of a `TransactionDescr`. -/
structure OrderDescr where
  id : Uint256
  hubAddress : Bytes
  «from» : Bytes
  fromCurrency : Bytes
  fromAmount : Nat
  «to» : Bytes
  toCurrency : Bytes
  toAmount : Nat
  created : Int
  blockHash : Uint256
  usedCoins : List UtxoItem
  mPubKey : Bytes

/-- The data of the `xbcTransaction` packet of an order. -/
def transactionData (d : OrderDescr) : Bytes :=
  d.id.toBytes ++ d.«from» ++ currencyField d.fromCurrency ++ leBytes 8 d.fromAmount ++ d.«to» ++
    currencyField d.toCurrency ++ leBytes 8 d.toAmount ++ leBytes 8 (timeToInt d.created) ++
    d.blockHash.toBytes ++ leBytes 4 d.usedCoins.length ++ (d.usedCoins.map UtxoItem.bytes).flatten

/-- `App::Impl::sendPendingTransaction`: the packet sent to the hub, signed with the order's key,
or `none` where it returns `false`. -/
def sendPendingTransaction (d : OrderDescr) : Option XBridgePacket :=
  if d.hubAddress.isEmpty then none
  else if d.«from».isEmpty || d.«to».isEmpty then none
  else some (XBridgePacket.ofData d.mPubKey (transactionData d))

/-- The fields `processTransaction` reads of an `xbcTransaction` packet. -/
structure TransactionFields where
  id : Uint256
  saddr : Bytes
  scurrency : Bytes
  samount : Nat
  daddr : Bytes
  dcurrency : Bytes
  damount : Nat
  timestamp : Nat
  blockHash : Uint256
  utxoItems : List UtxoItem
  deriving DecidableEq, Repr

/-- `utxoItemSize`. -/
def utxoItemSize : Nat := hashSize + 4 + addressSize + signatureSize

/-- The loop over `count` utxo items from `offset`: `none` where the packet is dropped, too short
for the next item. -/
def readUtxoItems (p : XBridgePacket) : Nat → Nat → Except Fault (Option (List UtxoItem))
  | 0, _ => pure (some [])
  | count + 1, offset => do
    if p.size < offset + utxoItemSize then return none
    let stxid ← p.data offset hashSize
    let vout ← p.data (offset + hashSize) 4
    let rawAddress ← p.data (offset + hashSize + 4) addressSize
    let signature ← p.data (offset + hashSize + 4 + addressSize) signatureSize
    let item : UtxoItem := ⟨Uint256.ofBytes stxid, UInt32.ofNat (leNat vout), rawAddress, signature⟩
    let items ← readUtxoItems p count (offset + utxoItemSize)
    return items.map (item :: ·)

/-- What `Session::Impl::processTransaction` reads of its packet: `none` where it drops the packet
for its size. -/
def readTransaction (p : XBridgePacket) : Except Fault (Option TransactionFields) := do
  if p.size < 152 then return none
  let sid ← p.data 0 hashSize
  let saddr ← p.data 32 addressSize
  let scurrency ← p.dataString 52
  let samount ← p.data 60 8
  let daddr ← p.data 68 addressSize
  let dcurrency ← p.dataString 88
  let damount ← p.data 96 8
  let timestamp ← p.data 104 8
  let sblockhash ← p.data 112 hashSize
  let utxoItemsCount ← p.data 144 4
  match ← readUtxoItems p (leNat utxoItemsCount) 148 with
  | none => return none
  | some utxoItems =>
    return some {
      id := Uint256.ofBytes sid
      saddr := saddr
      scurrency := scurrency
      samount := leNat samount
      daddr := daddr
      dcurrency := dcurrency
      damount := leNat damount
      timestamp := leNat timestamp
      blockHash := Uint256.ofBytes sblockhash
      utxoItems := utxoItems }

/-! ## `xbcPendingTransaction` -/

/-- The data of the `xbcPendingTransaction` packet a hub at address `myid` broadcasts for an
order. -/
def pendingTransactionData (tr : Order) (myid : Bytes) : Bytes :=
  tr.id.toBytes ++ currencyField tr.sourceCurrency ++ leBytes 8 tr.sourceAmount ++
    currencyField tr.destCurrency ++ leBytes 8 tr.destAmount ++ myid ++
    leBytes 8 (timeToInt tr.created) ++ tr.blockHash.toBytes

/-- `Session::Impl::sendTransaction(id)`: the packet broadcast for a pending order, signed with the
exchange's key `pubKey`. -/
def sendTransaction (node : Node) (ex : Exchange) (pubKey myid : Bytes) (id : Uint256) :
    Option XBridgePacket :=
  if !node.started then none
  else match ex.pendingTransactions.lookup id with
    | none => none
    | some tr => some (XBridgePacket.ofData pubKey (pendingTransactionData tr myid))

/-- The fields `processPendingTransaction` reads of a packet for a new order. -/
structure PendingOrderFields where
  id : Uint256
  fromCurrency : Bytes
  fromAmount : Nat
  toCurrency : Bytes
  toAmount : Nat
  hubAddress : Bytes
  created : Int
  blockHash : Uint256
  deriving DecidableEq, Repr

/-- What `processPendingTransaction` reads of a packet for a new order: the fields
`readPendingTransaction` reads, then the creation time and the block hash. -/
def readPendingOrder (p : XBridgePacket) : Except Fault (Option PendingOrderFields) := do
  match ← readPendingTransaction false p with
  | none => return none
  | some f =>
    let created ← p.data (hashSize + 52) 8
    let sblockhash ← p.data (hashSize + 60) hashSize
    return some {
      id := Uint256.ofBytes f.txid
      fromCurrency := f.scurrency
      fromAmount := leNat f.samount
      toCurrency := f.dcurrency
      toAmount := leNat f.damount
      hubAddress := f.hubAddress
      created := intToTime (leNat created)
      blockHash := Uint256.ofBytes sblockhash }

/-! ## C strings in currency fields -/

/-- A currency code `App::sendXBridgeTransaction` admits: one to eight bytes, none of them zero. -/
structure CurrencyCode (c : Bytes) : Prop where
  ne_nil : c ≠ []
  length_le : c.length ≤ 8
  zero_not_mem : 0 ∉ c

theorem length_currencyField {c : Bytes} (h : c.length ≤ 8) : (currencyField c).length = 8 := by
  simp only [currencyField, List.length_append, List.length_replicate]
  omega

/-- The C string read over a prefix with no zero byte. -/
theorem cStringFrom_append_of_not_mem {s : Bytes} (hs : 0 ∉ s) (rest : Bytes) (i : Nat) :
    cStringFrom (s ++ rest) i = (s ++ ·) <$> cStringFrom rest (i + s.length) := by
  induction s generalizing i with
  | nil => simp
  | cons c s ih =>
    have hc : c ≠ 0 := fun h => hs (h ▸ List.mem_cons_self)
    rw [List.cons_append, cStringFrom, if_neg hc, ih (fun h => hs (List.mem_cons_of_mem c h)),
      Functor.map_map, List.length_cons, Nat.add_assoc, Nat.add_comm 1]
    rfl

/-- **What the C string at a currency field reads**: the code, exactly when its C string ends in
the field or at the byte after it, the low byte of the amount that follows. -/
theorem cStringFrom_eq_ok_iff_readsBack {c l : Bytes} {a i : Nat} (hc : CurrencyCode c)
    (hl : l.take 9 = currencyField c ++ [UInt8.ofNat a]) :
    cStringFrom l i = .ok c ↔ readsBack c a = true := by
  rw [← List.take_append_drop 9 l, hl, currencyField, List.append_assoc, List.append_assoc,
    cStringFrom_append_of_not_mem hc.zero_not_mem]
  rcases Nat.lt_or_ge c.length 8 with hlt | hge
  · -- a zero byte pads the field after the code
    obtain ⟨k, hk⟩ : ∃ k, 8 - c.length = k + 1 := ⟨7 - c.length, by omega⟩
    rw [hk, List.replicate_succ, List.cons_append, cStringFrom, if_pos rfl]
    simp [readsBack, hlt]
  · -- the code fills the field: the next byte is the amount's low byte
    have hlen : c.length = 8 := Nat.le_antisymm hc.length_le hge
    have hlow : (UInt8.ofNat a = 0) ↔ a % 256 = 0 := by
      rw [← UInt8.toNat_inj]
      simp [UInt8.toNat_ofNat']
    rw [hlen, Nat.sub_self, List.replicate_zero, List.nil_append, List.singleton_append,
      cStringFrom]
    by_cases hb : UInt8.ofNat a = 0
    · rw [if_pos hb]
      simp [readsBack, hlen, hlow.mp hb]
    · rw [if_neg hb]
      have hread : readsBack c a = false := by simp [readsBack, hlen, hlow.not.mp hb]
      rw [hread, Bool.false_eq_true, iff_false]
      intro h
      obtain ⟨t, ht, hct⟩ := except_map_eq_ok h
      obtain ⟨u, -, rfl⟩ := except_map_eq_ok ht
      have := congrArg List.length hct
      simp at this

/-! ## Reading the fields of a packet -/

section Reads

variable {pubkey data : Bytes}

theorem dataString_ofData (offset : Nat) :
    (XBridgePacket.ofData pubkey data).dataString offset =
      cStringFrom (data.drop offset) (headerSize + offset) := by
  unfold XBridgePacket.dataString cString
  simp only [XBridgePacket.ofData]
  rw [← List.drop_drop, List.drop_left' (XBridgePacket.length_header _ _)]

/-- A read inside a piece of the data that starts at `offset`. -/
theorem data_ofData_of_drop (pubkey : Bytes) {offset : Nat} {pre rest : Bytes}
    (h : data.drop offset = pre ++ rest)
    {k n : Nat} (hn : 0 < n) (hk : k + n ≤ pre.length) :
    (XBridgePacket.ofData pubkey data).data (offset + k) n = .ok ((pre.drop k).take n) := by
  have hlen := congrArg List.length h
  rw [List.length_drop, List.length_append] at hlen
  rw [XBridgePacket.data_ofData (by omega), ← List.drop_drop, h,
    List.drop_append_of_le_length (by omega), List.take_append_of_le_length (by simp; omega)]

theorem size_ofData_of_lt (h : data.length < 2 ^ 32) :
    (XBridgePacket.ofData pubkey data).size = data.length := by
  rw [XBridgePacket.size_ofData, Nat.mod_eq_of_lt h]

end Reads

/-! ## The order packet read back -/

/-- The fields of an order as the hub should read them from its packet. -/
def OrderDescr.fields (d : OrderDescr) : TransactionFields where
  id := d.id
  saddr := d.«from»
  scurrency := d.fromCurrency
  samount := d.fromAmount
  daddr := d.«to»
  dcurrency := d.toCurrency
  damount := d.toAmount
  timestamp := timeToInt d.created
  blockHash := d.blockHash
  utxoItems := d.usedCoins

/-- A utxo item as wallets make them: a 20-byte address and a 65-byte signature. -/
def UtxoItem.WellFormed (e : UtxoItem) : Prop :=
  e.rawAddress.length = addressSize ∧ e.signature.length = signatureSize

/-- An order as `App::sendXBridgeTransaction` makes it: a hub, 20-byte addresses, currency codes it
admits, 64-bit amounts, well-formed utxo items, and a packet whose size fits its `uint32_t` size
field. -/
structure OrderDescr.WellFormed (d : OrderDescr) : Prop where
  hubAddress_ne_nil : d.hubAddress ≠ []
  from_length : d.«from».length = addressSize
  to_length : d.«to».length = addressSize
  fromCurrency : CurrencyCode d.fromCurrency
  toCurrency : CurrencyCode d.toCurrency
  fromAmount_lt : d.fromAmount < 2 ^ 64
  toAmount_lt : d.toAmount < 2 ^ 64
  usedCoins : ∀ e ∈ d.usedCoins, e.WellFormed
  size_lt : 148 + utxoItemSize * d.usedCoins.length < 2 ^ 32

theorem length_utxoItem_bytes {e : UtxoItem} (he : e.WellFormed) :
    e.bytes.length = utxoItemSize := by
  obtain ⟨ha, hs⟩ := he
  simp [UtxoItem.bytes, ha, hs, utxoItemSize, hashSize, addressSize, signatureSize]

theorem length_flatten_utxoItems {items : List UtxoItem} (h : ∀ e ∈ items, e.WellFormed) :
    (items.map UtxoItem.bytes).flatten.length = utxoItemSize * items.length := by
  induction items with
  | nil => rfl
  | cons e items ih =>
    rw [List.map_cons, List.flatten_cons, List.length_append,
      length_utxoItem_bytes (h e List.mem_cons_self),
      ih fun e' he' => h e' (List.mem_cons_of_mem e he'),
      List.length_cons, Nat.mul_succ, Nat.add_comm]

theorem timeToInt_lt (t : Int) : timeToInt t < 2 ^ 64 := by
  unfold timeToInt
  omega

/-- A value that fits in `n` bytes is read back from them. -/
theorem leNat_leBytes_of_lt {n x : Nat} (h : x < 256 ^ n) : leNat (leBytes n x) = x := by
  rw [leNat_leBytes, Nat.mod_eq_of_lt h]

/-- The loop over the utxo items reads back the items written from its offset to the end. -/
theorem readUtxoItems_ofData (pubkey : Bytes) {data : Bytes} (hsize : data.length < 2 ^ 32) :
    ∀ (items : List UtxoItem) (offset : Nat), (∀ e ∈ items, e.WellFormed) →
      data.drop offset = (items.map UtxoItem.bytes).flatten →
      readUtxoItems (XBridgePacket.ofData pubkey data) items.length offset = .ok (some items)
  | [], _, _, _ => rfl
  | e :: items, offset, hitems, hdrop => by
    have he := hitems e List.mem_cons_self
    rw [List.map_cons, List.flatten_cons] at hdrop
    have hlen := congrArg List.length hdrop
    rw [List.length_drop, List.length_append, length_utxoItem_bytes he,
      length_flatten_utxoItems fun e' he' => hitems e' (List.mem_cons_of_mem e he')] at hlen
    have hrest : data.drop (offset + utxoItemSize) = (items.map UtxoItem.bytes).flatten := by
      rw [← List.drop_drop, hdrop, List.drop_left' (length_utxoItem_bytes he)]
    have ih := readUtxoItems_ofData pubkey hsize items (offset + utxoItemSize)
      (fun e' he' => hitems e' (List.mem_cons_of_mem e he')) hrest
    have hlt : e.bytes.length = 121 := length_utxoItem_bytes he
    obtain ⟨ha, hs⟩ := he
    have hfit : ¬ (XBridgePacket.ofData pubkey data).size < offset + utxoItemSize := by
      rw [size_ofData_of_lt hsize]
      simp only [utxoItemSize, hashSize, addressSize, signatureSize] at hlen ⊢
      omega
    have h0 := data_ofData_of_drop pubkey hdrop (k := 0) (n := hashSize) (by decide)
      (by rw [hlt]; decide)
    have h32 := data_ofData_of_drop pubkey hdrop (k := hashSize) (n := 4) (by decide)
      (by rw [hlt]; decide)
    have h36 := data_ofData_of_drop pubkey hdrop (k := hashSize + 4) (n := addressSize)
      (by decide) (by rw [hlt]; decide)
    have h56 := data_ofData_of_drop pubkey hdrop (k := hashSize + 4 + addressSize)
      (n := signatureSize) (by decide) (by rw [hlt]; decide)
    rw [Nat.add_zero] at h0
    rw [← Nat.add_assoc] at h36
    rw [← Nat.add_assoc, ← Nat.add_assoc] at h56
    simp only [List.length_cons, readUtxoItems, hfit, if_false, h0, h32, h36, h56, ih,
      except_ok_bind]
    simp [UtxoItem.bytes, hashSize, addressSize, signatureSize, ha, hs, List.drop_append,
      List.drop_eq_nil_of_le, List.take_of_length_le, leNat_leBytes,
      Nat.mod_eq_of_lt e.vout.toNat_lt]
    rfl

section Order

variable {d : OrderDescr}

theorem length_transactionData (hd : d.WellFormed) :
    (transactionData d).length = 148 + utxoItemSize * d.usedCoins.length := by
  simp [transactionData, hd.from_length, hd.to_length,
    length_currencyField hd.fromCurrency.length_le, length_currencyField hd.toCurrency.length_le,
    length_flatten_utxoItems hd.usedCoins, addressSize]
  omega

theorem sendPendingTransaction_eq (hd : d.WellFormed) :
    sendPendingTransaction d = some (XBridgePacket.ofData d.mPubKey (transactionData d)) := by
  have hfrom : d.«from».isEmpty = false := by
    rw [List.isEmpty_eq_false_iff, ← List.length_pos_iff, hd.from_length]
    decide
  have hto : d.«to».isEmpty = false := by
    rw [List.isEmpty_eq_false_iff, ← List.length_pos_iff, hd.to_length]
    decide
  have hhub : d.hubAddress.isEmpty = false := List.isEmpty_eq_false_iff.mpr hd.hubAddress_ne_nil
  simp [sendPendingTransaction, hhub, hfrom, hto]

/-- The reads of the order's packet: every field is the order's but the two currencies, which are
the C strings at their fields. -/
theorem readTransaction_ofData (hd : d.WellFormed) (hne : d.usedCoins ≠ []) (pubkey : Bytes) :
    readTransaction (XBridgePacket.ofData pubkey (transactionData d)) =
      ((XBridgePacket.ofData pubkey (transactionData d)).dataString 52 >>= fun scurrency =>
        (XBridgePacket.ofData pubkey (transactionData d)).dataString 88 >>= fun dcurrency =>
          pure (some { d.fields with scurrency, dcurrency })) := by
  have hlen := length_transactionData hd
  have hcount := List.length_pos_iff.mpr hne
  have hsize : (XBridgePacket.ofData pubkey (transactionData d)).size =
      148 + utxoItemSize * d.usedCoins.length := by
    rw [size_ofData_of_lt (by rw [hlen]; exact hd.size_lt), hlen]
  have hbig : ¬ (XBridgePacket.ofData pubkey (transactionData d)).size < 152 := by
    rw [hsize]
    simp only [utxoItemSize, hashSize, addressSize, signatureSize]
    omega
  have hread : ∀ offset n, offset + n ≤ 148 →
      (XBridgePacket.ofData pubkey (transactionData d)).data offset n =
        .ok (((transactionData d).drop offset).take n) := fun offset n h =>
    XBridgePacket.data_ofData (by rw [hlen]; omega)
  have hitems : (transactionData d).drop 148 = (d.usedCoins.map UtxoItem.bytes).flatten := by
    simp [transactionData, hd.from_length, hd.to_length,
      length_currencyField hd.fromCurrency.length_le,
      length_currencyField hd.toCurrency.length_le, addressSize, List.drop_append,
      List.drop_eq_nil_of_le]
  have hcountBytes : ((transactionData d).drop 144).take 4 = leBytes 4 d.usedCoins.length := by
    simp [transactionData, hd.from_length, hd.to_length,
      length_currencyField hd.fromCurrency.length_le,
      length_currencyField hd.toCurrency.length_le, addressSize, List.drop_append,
      List.drop_eq_nil_of_le]
  have hcountLt : d.usedCoins.length < 256 ^ 4 := by
    have := hd.size_lt
    simp only [utxoItemSize, hashSize, addressSize, signatureSize] at this
    omega
  have hloop := readUtxoItems_ofData pubkey (by rw [hlen]; exact hd.size_lt) d.usedCoins 148
    hd.usedCoins hitems
  simp only [readTransaction, hbig, if_false, hread 0 hashSize (by decide),
    hread 32 addressSize (by decide), hread 60 8 (by decide), hread 68 addressSize (by decide),
    hread 96 8 (by decide), hread 104 8 (by decide), hread 112 hashSize (by decide),
    hread 144 4 (by decide), hcountBytes, leNat_leBytes_of_lt hcountLt, hloop,
    except_ok_bind]
  -- the fixed fields, read where the order wrote them
  have hfields : ((transactionData d).drop 0).take hashSize = d.id.toBytes ∧
      ((transactionData d).drop 32).take addressSize = d.«from» ∧
      ((transactionData d).drop 60).take 8 = leBytes 8 d.fromAmount ∧
      ((transactionData d).drop 68).take addressSize = d.«to» ∧
      ((transactionData d).drop 96).take 8 = leBytes 8 d.toAmount ∧
      ((transactionData d).drop 104).take 8 = leBytes 8 (timeToInt d.created) ∧
      ((transactionData d).drop 112).take hashSize = d.blockHash.toBytes := by
    refine ⟨?_, ?_, ?_, ?_, ?_, ?_, ?_⟩ <;>
    simp [transactionData, hd.from_length, hd.to_length,
      length_currencyField hd.fromCurrency.length_le, length_currencyField hd.toCurrency.length_le,
      addressSize, hashSize, List.drop_append, List.drop_eq_nil_of_le]
  obtain ⟨hid, hsaddr, hsamount, hdaddr, hdamount, htime, hbh⟩ := hfields
  simp only [hid, hsaddr, hsamount, hdaddr, hdamount, htime, hbh, Uint256.ofBytes_toBytes,
    leNat_leBytes_of_lt (n := 8) (by simpa using hd.fromAmount_lt),
    leNat_leBytes_of_lt (n := 8) (by simpa using hd.toAmount_lt),
    leNat_leBytes_of_lt (n := 8) (by simpa using timeToInt_lt d.created), OrderDescr.fields]

/-- **The hub reads an order back from its packet, but a currency code only where its C string
ends**: of a well-formed order with utxo items, `processTransaction` reads back every field
`sendPendingTransaction` wrote exactly when each currency code is shorter than eight bytes or is
followed by an amount whose low byte is zero. -/
theorem readTransaction_sendPendingTransaction_iff (d : OrderDescr) (hd : d.WellFormed)
    (hne : d.usedCoins ≠ []) :
    ∃ p, sendPendingTransaction d = some p ∧
      (readTransaction p = .ok (some d.fields) ↔
        readsBack d.fromCurrency d.fromAmount = true ∧
          readsBack d.toCurrency d.toAmount = true) := by
  refine ⟨_, sendPendingTransaction_eq hd, ?_⟩
  have hfrom := cStringFrom_eq_ok_iff_readsBack (l := (transactionData d).drop 52)
    (a := d.fromAmount) (i := headerSize + 52) hd.fromCurrency (by
      simp [transactionData, hd.from_length, length_currencyField hd.fromCurrency.length_le,
        addressSize, List.drop_append, List.take_append, List.drop_eq_nil_of_le,
        List.take_of_length_le, leBytes])
  have hto := cStringFrom_eq_ok_iff_readsBack (l := (transactionData d).drop 88)
    (a := d.toAmount) (i := headerSize + 88) hd.toCurrency (by
      simp [transactionData, hd.from_length, hd.to_length,
        length_currencyField hd.fromCurrency.length_le,
        length_currencyField hd.toCurrency.length_le, addressSize, List.drop_append,
        List.take_append, List.drop_eq_nil_of_le,
        List.take_of_length_le, leBytes])
  rw [readTransaction_ofData hd hne, dataString_ofData, dataString_ofData, ← hfrom, ← hto]
  cases cStringFrom ((transactionData d).drop 52) (headerSize + 52) with
  | error e => simp
  | ok s =>
    cases cStringFrom ((transactionData d).drop 88) (headerSize + 88) with
    | error e => simp
    | ok t => simp [OrderDescr.fields]

/-- With no utxo items the packet has 148 bytes, and `processTransaction` drops it. -/
theorem readTransaction_no_utxo_items (hd : d.WellFormed) (hnil : d.usedCoins = [])
    (pubkey : Bytes) :
    readTransaction (XBridgePacket.ofData pubkey (transactionData d)) = .ok none := by
  have hlen := length_transactionData hd
  rw [hnil, List.length_nil, Nat.mul_zero, Nat.add_zero] at hlen
  have hsize : (XBridgePacket.ofData pubkey (transactionData d)).size = 148 := by
    rw [size_ofData_of_lt (by rw [hlen]; decide), hlen]
  simp only [readTransaction, hsize]
  rfl

end Order

/-- An order with a currency code of eight bytes and an amount of one unit, so the C string read
at the code runs on into the amount. -/
def longCodeOrder : OrderDescr where
  id := 1
  hubAddress := [1]
  «from» := List.replicate 20 3
  fromCurrency := [65, 66, 67, 68, 69, 70, 71, 72]
  fromAmount := 1
  «to» := List.replicate 20 4
  toCurrency := [66, 76, 79, 67, 75]
  toAmount := 5
  created := 0
  blockHash := 2
  usedCoins := [⟨3, 0, List.replicate 20 5, List.replicate 65 6⟩]
  mPubKey := List.replicate 33 2

theorem readTransaction_long_currency :
    ∃ p, sendPendingTransaction longCodeOrder = some p ∧
      readTransaction p ≠ .ok (some longCodeOrder.fields) := by
  obtain ⟨p, hp, hiff⟩ := readTransaction_sendPendingTransaction_iff longCodeOrder
    { hubAddress_ne_nil := by decide
      from_length := rfl
      to_length := rfl
      fromCurrency := ⟨by decide, by decide, by decide⟩
      toCurrency := ⟨by decide, by decide, by decide⟩
      fromAmount_lt := by decide
      toAmount_lt := by decide
      usedCoins := fun e he => by
        rw [List.mem_singleton.mp he]
        exact ⟨rfl, rfl⟩
      size_lt := by decide }
    (by decide)
  refine ⟨p, hp, fun h => ?_⟩
  have hback := (hiff.mp h).1
  exact absurd hback (by decide)

/-! ## The pending packet read back -/

/-- The fields of an order as the traders should read them from the packet its hub at `myid`
broadcasts. -/
def Order.pendingFields (tr : Order) (myid : Bytes) : PendingOrderFields where
  id := tr.id
  fromCurrency := tr.sourceCurrency
  fromAmount := tr.sourceAmount
  toCurrency := tr.destCurrency
  toAmount := tr.destAmount
  hubAddress := myid
  created := tr.created
  blockHash := tr.blockHash

/-- An order as a hub keeps it from a well-formed `xbcTransaction`: currency codes the trader's
node admits, 64-bit amounts and a creation time an `int64_t` of microseconds holds. -/
structure Order.WellFormed (tr : Order) : Prop where
  sourceCurrency : CurrencyCode tr.sourceCurrency
  destCurrency : CurrencyCode tr.destCurrency
  sourceAmount_lt : tr.sourceAmount < 2 ^ 64
  destAmount_lt : tr.destAmount < 2 ^ 64
  created_ge : -2 ^ 63 ≤ tr.created
  created_lt : tr.created < 2 ^ 63

theorem intToTime_timeToInt {t : Int} (hge : -2 ^ 63 ≤ t) (hlt : t < 2 ^ 63) :
    intToTime (timeToInt t) = t := by
  unfold intToTime timeToInt
  split_ifs <;> omega

section Pending

variable {tr : Order} {myid : Bytes}

theorem length_pendingTransactionData (htr : tr.WellFormed) (hmyid : myid.length = addressSize) :
    (pendingTransactionData tr myid).length = 124 := by
  simp [pendingTransactionData, hmyid, length_currencyField htr.sourceCurrency.length_le,
    length_currencyField htr.destCurrency.length_le, addressSize]

/-- The reads of the pending packet: every field is the order's but the two currencies, which are
the C strings at their fields. -/
theorem readPendingOrder_ofData (htr : tr.WellFormed) (hmyid : myid.length = addressSize)
    (pubkey : Bytes) :
    readPendingOrder (XBridgePacket.ofData pubkey (pendingTransactionData tr myid)) =
      ((XBridgePacket.ofData pubkey (pendingTransactionData tr myid)).dataString hashSize >>=
        fun fromCurrency =>
          (XBridgePacket.ofData pubkey (pendingTransactionData tr myid)).dataString
              (hashSize + 16) >>= fun toCurrency =>
            pure (some { tr.pendingFields myid with fromCurrency, toCurrency })) := by
  have hlen := length_pendingTransactionData htr hmyid
  have hsize : (XBridgePacket.ofData pubkey (pendingTransactionData tr myid)).size = 124 := by
    rw [size_ofData_of_lt (by rw [hlen]; decide), hlen]
  have hread : ∀ offset n, offset + n ≤ 124 →
      (XBridgePacket.ofData pubkey (pendingTransactionData tr myid)).data offset n =
        .ok (((pendingTransactionData tr myid).drop offset).take n) := fun offset n h =>
    XBridgePacket.data_ofData (by rw [hlen]; exact h)
  have hfields : ((pendingTransactionData tr myid).drop 0).take hashSize = tr.id.toBytes ∧
      ((pendingTransactionData tr myid).drop (hashSize + 8)).take 8 = leBytes 8 tr.sourceAmount ∧
      ((pendingTransactionData tr myid).drop (hashSize + 24)).take 8 = leBytes 8 tr.destAmount ∧
      ((pendingTransactionData tr myid).drop (hashSize + 32)).take addressSize = myid ∧
      ((pendingTransactionData tr myid).drop (hashSize + 52)).take 8 =
        leBytes 8 (timeToInt tr.created) ∧
      ((pendingTransactionData tr myid).drop (hashSize + 60)).take hashSize =
        tr.blockHash.toBytes := by
    refine ⟨?_, ?_, ?_, ?_, ?_, ?_⟩ <;>
    simp [pendingTransactionData, hmyid, length_currencyField htr.sourceCurrency.length_le,
      length_currencyField htr.destCurrency.length_le, addressSize, hashSize, List.drop_append,
      List.drop_eq_nil_of_le]
  obtain ⟨hid, hsamount, hdamount, hhub, hcreated, hbh⟩ := hfields
  simp only [readPendingOrder, readPendingTransaction, hsize, bne_self_eq_false, Bool.false_eq_true,
    if_false, hread 0 hashSize (by decide), hread (hashSize + 8) 8 (by decide),
    hread (hashSize + 24) 8 (by decide), hread (hashSize + 32) addressSize (by decide),
    hread (hashSize + 52) 8 (by decide), hread (hashSize + 60) hashSize (by decide), hid, hsamount,
    hdamount, hhub, hcreated, hbh, except_ok_bind]
  simp only [bind_assoc, pure_bind, Uint256.ofBytes_toBytes,
    leNat_leBytes_of_lt (n := 8) (by simpa using htr.sourceAmount_lt),
    leNat_leBytes_of_lt (n := 8) (by simpa using htr.destAmount_lt),
    leNat_leBytes_of_lt (n := 8) (by simpa using timeToInt_lt tr.created),
    intToTime_timeToInt htr.created_ge htr.created_lt, Order.pendingFields]

/-- **The traders read a pending order back, but a currency code only where its C string ends**:
for an order the hub holds as pending, `processPendingTransaction` reads back every field
`sendTransaction` broadcast exactly when each currency code is shorter than eight bytes or is
followed by an amount whose low byte is zero. -/
theorem readPendingOrder_sendTransaction_iff {node : Node} {ex : Exchange} {pubKey : Bytes}
    {id : Uint256} (hstarted : node.started = true)
    (hpending : ex.pendingTransactions.lookup id = some tr) (htr : tr.WellFormed)
    (hmyid : myid.length = addressSize) :
    ∃ p, sendTransaction node ex pubKey myid id = some p ∧
      (readPendingOrder p = .ok (some (tr.pendingFields myid)) ↔
        readsBack tr.sourceCurrency tr.sourceAmount = true ∧
          readsBack tr.destCurrency tr.destAmount = true) := by
  have hsend : sendTransaction node ex pubKey myid id =
      some (XBridgePacket.ofData pubKey (pendingTransactionData tr myid)) := by
    simp [sendTransaction, hstarted, hpending]
  refine ⟨_, hsend, ?_⟩
  have hfrom := cStringFrom_eq_ok_iff_readsBack
    (l := (pendingTransactionData tr myid).drop hashSize)
    (a := tr.sourceAmount) (i := headerSize + hashSize) htr.sourceCurrency (by
      simp [pendingTransactionData, length_currencyField htr.sourceCurrency.length_le, hashSize,
        List.take_append, List.take_of_length_le, leBytes])
  have hto := cStringFrom_eq_ok_iff_readsBack
    (l := (pendingTransactionData tr myid).drop (hashSize + 16)) (a := tr.destAmount)
    (i := headerSize + (hashSize + 16)) htr.destCurrency (by
      simp [pendingTransactionData, length_currencyField htr.sourceCurrency.length_le,
        length_currencyField htr.destCurrency.length_le, hashSize, List.drop_append,
        List.take_append, List.drop_eq_nil_of_le, List.take_of_length_le, leBytes])
  rw [readPendingOrder_ofData htr hmyid, dataString_ofData, dataString_ofData, ← hfrom, ← hto]
  cases cStringFrom ((pendingTransactionData tr myid).drop hashSize) (headerSize + hashSize) with
  | error e => simp
  | ok s =>
    cases cStringFrom ((pendingTransactionData tr myid).drop (hashSize + 16))
      (headerSize + (hashSize + 16)) with
    | error e => simp
    | ok t => simp [Order.pendingFields]

end Pending

end Blocknet.XBridge
