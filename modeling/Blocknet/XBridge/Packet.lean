import Blocknet.Servicenode.Node

/-!
# XBridge packets, as a peer delivers them

Model of `XBridgePacket` (`xbridge/xbridgepacket.h`: its buffer `m_body`, the header fields and
`copyFrom`), of `Session::checkXBridgePacketVersion` (`xbridge/xbridgesession.cpp`), and of the
receive path of `App::onMessageReceived` and `App::onBroadcastReceived` (`xbridge/xbridgeapp.cpp`)
up to the packet it hands to a session.

* `m_body` is the whole packet: a header of `headerSize` bytes (eight `uint32_t` fields, the key
  and the signature), then the data. A packet `copyFrom` accepts holds the header and a size field
  equal to the length of its data, as `uint32_t`s subtract (`XBridgePacket`).
* Reads through raw pointers are `readAt`, which faults at the first index past the end.
  `std::string(const char *)` is `cString`: the bytes up to the first zero, or a fault at the end of
  the buffer when there is none.
* `verify()` checks the signature field against the SHA-256 of the buffer with that field zeroed,
  by the key of the pubkey field. The check itself is the parameter `sigOk` of the model.
* `addToKnown` first clears the set when it holds more than `maxmempoolxbridge` megabytes at 64
  bytes a hash; `static_cast<unsigned int>(...) * 1000000` wraps at `2^32` (`maxMBytes`).
* `onMessageReceived` then looks up the session of the address; that choice and the sessions are
  left out, since every session processes the packet with the same handlers.

Results:
* `checkXBridgePacketVersion_error`: the version check reads past the end exactly of a message
  shorter than four bytes; `receive_short_message` shows a new such message faults the receive
  path, and `receive_empty_message` that the empty one does.
* `receive_ok`: a message of four bytes or more is read in bounds, and a packet the path hands on
  satisfies the header invariant.
* `cString_eq_error`: a C string read faults exactly when no zero byte follows the offset.
  `readPendingTransaction_eq_error`: so the reads of `processPendingTransaction` fault, past the
  end of the packet, exactly when one of its two currency strings has no zero byte after it.
-/

namespace Blocknet.XBridge

open Blocknet.Lib Blocknet.Sn

/-- `XBRIDGE_PROTOCOL_VERSION`. -/
def XBRIDGE_PROTOCOL_VERSION : UInt32 := 52

/-- `XBridgePacket::headerSize`: eight `uint32_t` fields, the key and the signature. -/
def headerSize : Nat := 8 * 4 + 33 + 64

/-- `XBridgePacket::addressSize`. -/
def addressSize : Nat := 20

/-- `XBridgePacket::hashSize`. -/
def hashSize : Nat := 32

/-- `XBridgePacket::pubkeySize`. -/
def pubkeySize : Nat := 33

/-! ## Reading C strings -/

/-- The C string at index `i` of a buffer, given the buffer from `i` on. -/
def cStringFrom : Bytes → Nat → Except Fault Bytes
  | [], i => .error (.outOfBounds i)
  | c :: rest, i => if c = 0 then .ok [] else (c :: ·) <$> cStringFrom rest (i + 1)

/-- `std::string(reinterpret_cast<const char *>(&buf[offset]))`. -/
def cString (buf : Bytes) (offset : Nat) : Except Fault Bytes :=
  cStringFrom (buf.drop offset) offset

theorem cStringFrom_eq_error {l : Bytes} {i : Nat} {e : Fault} :
    cStringFrom l i = .error e ↔ 0 ∉ l ∧ e = .outOfBounds (i + l.length) := by
  induction l generalizing i with
  | nil => simp [cStringFrom, eq_comm]
  | cons c rest ih =>
    unfold cStringFrom
    by_cases hc : c = 0
    · simp [hc]
    · have hne : (0 : UInt8) ≠ c := fun h => hc h.symm
      have hlen : i + 1 + rest.length = i + (rest.length + 1) := by omega
      rw [if_neg hc, except_map_eq_error, ih, hlen]
      simp only [List.mem_cons, hne, false_or, List.length_cons]

/-- A C string read faults exactly when no zero byte follows the offset, and then at the end of
the buffer. -/
theorem cString_eq_error {buf : Bytes} {offset : Nat} {e : Fault} :
    cString buf offset = .error e ↔ 0 ∉ buf.drop offset ∧ e = .outOfBounds (max offset buf.length) := by
  unfold cString
  rw [cStringFrom_eq_error, List.length_drop]
  have : offset + (buf.length - offset) = max offset buf.length := by omega
  rw [this]

/-! ## Packets -/

/-- `sizeField()`: the `uint32_t` at bytes 16 to 20 of the buffer. -/
def sizeField (body : Bytes) : UInt32 := UInt32.ofNat (leNat ((body.drop 16).take 4))

/-- An `XBridgePacket` as `copyFrom` leaves it: a buffer that holds the header, whose size field is
the length of the data. -/
structure XBridgePacket where
  body : Bytes
  header_le : headerSize ≤ body.length
  sizeField_eq : sizeField body = UInt32.ofNat body.length - UInt32.ofNat headerSize

namespace XBridgePacket

/-- `size()`: the size field. -/
def size (p : XBridgePacket) : Nat := (sizeField p.body).toNat

/-- `pubkey()`: the 33 bytes of the pubkey field. -/
def pubkey (p : XBridgePacket) : Bytes := (p.body.drop 20).take pubkeySize

/-- `n` bytes at `offset` of `data()`, the bytes after the header. -/
def data (p : XBridgePacket) (offset n : Nat) : Except Fault Bytes :=
  readAt p.body (headerSize + offset) n

/-- The C string at `offset` of `data()`. -/
def dataString (p : XBridgePacket) (offset : Nat) : Except Fault Bytes :=
  cString p.body (headerSize + offset)

/-- `verify()`: the signature check, given as `sigOk`. -/
def verify (sigOk : XBridgePacket → Bool) (p : XBridgePacket) : Bool := sigOk p

/-- `verify(pubkey)`: the pubkey field is `pubkey`, and the signature checks. -/
def verifyKey (sigOk : XBridgePacket → Bool) (p : XBridgePacket) (pubkey : Bytes) : Bool :=
  pubkey.length == pubkeySize && p.pubkey == pubkey && p.verify sigOk

/-- The data holds at least `size()` bytes. -/
theorem size_le (p : XBridgePacket) : p.size + headerSize ≤ p.body.length := by
  have hh := p.header_le
  unfold size
  rw [p.sizeField_eq, UInt32.toNat_sub, UInt32.toNat_ofNat', UInt32.toNat_ofNat']
  unfold headerSize at hh ⊢
  omega

/-- The header of a packet of `n` bytes of data signed by `pubkey`: the size field, then the key;
the other fields are zero. -/
def header (pubkey : Bytes) (n : Nat) : Bytes :=
  List.replicate 16 0 ++ leBytes 4 n ++ (pubkey ++ List.replicate pubkeySize 0).take pubkeySize ++
    List.replicate 76 0

@[simp] theorem length_header (pubkey : Bytes) (n : Nat) : (header pubkey n).length = headerSize := by
  simp [header, headerSize, pubkeySize]

/-- The packet of `data` signed by `pubkey`, as `XBridgePacket::append` and `sign` build it. -/
def ofData (pubkey data : Bytes) : XBridgePacket where
  body := header pubkey data.length ++ data
  header_le := by simp
  sizeField_eq := by
    apply UInt32.toNat_inj.mp
    simp only [sizeField, header, List.append_assoc, List.length_append, List.length_replicate]
    rw [List.drop_append_of_le_length (by simp), List.drop_replicate]
    simp [UInt32.toNat_sub, headerSize, pubkeySize]
    omega

theorem data_ofData {pubkey data : Bytes} {offset n : Nat} (h : offset + n ≤ data.length) :
    (ofData pubkey data).data offset n = .ok ((data.drop offset).take n) := by
  unfold XBridgePacket.data
  rw [readAt_ok_iff]
  refine ⟨by simp [ofData]; omega, ?_⟩
  simp only [ofData]
  rw [← length_header pubkey data.length, List.drop_append,
    List.drop_of_length_le (Nat.le_add_right _ offset), Nat.add_sub_cancel_left, List.nil_append]

theorem pubkey_ofData {pubkey data : Bytes} (h : pubkey.length = pubkeySize) :
    (ofData pubkey data).pubkey = pubkey := by
  simp [ofData, XBridgePacket.pubkey, header, h, pubkeySize] at h ⊢

theorem size_ofData (pubkey data : Bytes) : (ofData pubkey data).size = data.length % 2 ^ 32 := by
  unfold size
  rw [(ofData pubkey data).sizeField_eq, UInt32.toNat_sub, UInt32.toNat_ofNat', UInt32.toNat_ofNat']
  simp only [ofData, List.length_append, length_header]
  unfold headerSize
  omega

end XBridgePacket

/-- `XBridgePacket::copyFrom(data)`: the packet, when the data holds the header and its size
field is the length of the rest. -/
def copyFrom (data : Bytes) : Option XBridgePacket :=
  if h : headerSize ≤ data.length then
    if hs : sizeField data = UInt32.ofNat data.length - UInt32.ofNat headerSize then
      some ⟨data, h, hs⟩
    else none
  else none

/-- `Session::checkXBridgePacketVersion`: the first four bytes are the protocol version. -/
def checkXBridgePacketVersion (message : Bytes) : Except Fault Bool := do
  let version ← readUInt32At message 0
  pure (version == XBRIDGE_PROTOCOL_VERSION)

/-- The version check reads past the end exactly of a message shorter than four bytes. -/
theorem checkXBridgePacketVersion_error {message : Bytes} {e : Fault} :
    checkXBridgePacketVersion message = .error e ↔
      message.length < 4 ∧ e = .outOfBounds message.length := by
  unfold checkXBridgePacketVersion readUInt32At readAt
  by_cases h : 0 + 4 ≤ message.length
  · have : ¬ message.length < 4 := by omega
    simp [h, this]
  · have : message.length < 4 := by omega
    simp [h, this, eq_comm]

/-! ## Receiving -/

/-- What the receive path keeps: the hashes of the messages it has processed. -/
structure App where
  processedMessages : List Uint256
  deriving DecidableEq, Repr

instance : EmptyCollection App := ⟨⟨[]⟩⟩

/-- `maxMBytes` of `clearMempool`: `static_cast<unsigned int>(maxmempoolxbridge) * 1000000`. -/
def maxMBytes (maxmempoolxbridge : Int) : Nat :=
  (maxmempoolxbridge % 2 ^ 32).toNat * 1000000 % 2 ^ 32

namespace App

variable (cr : Crypto)

/-- `App::isKnownMessage(message)`. -/
def isKnownMessage (app : App) (message : Bytes) : Bool :=
  app.processedMessages.contains (cr.hash256 message)

/-- `App::addToKnown(message)`, after `clearMempool`. -/
def addToKnown (maxmempoolxbridge : Int) (app : App) (message : Bytes) : App :=
  let kept := if app.processedMessages.length * 64 > maxMBytes maxmempoolxbridge then []
    else app.processedMessages
  ⟨kept.insert (cr.hash256 message)⟩

/-- The receive path common to `onMessageReceived` and `onBroadcastReceived`: the state, and the
packet to process, if any. -/
def receive (sigOk : XBridgePacket → Bool) (maxmempoolxbridge : Int) (app : App)
    (message : Bytes) : Except Fault (App × Option XBridgePacket) := do
  if app.isKnownMessage cr message then return (app, none)
  let app := app.addToKnown cr maxmempoolxbridge message
  if !(← checkXBridgePacketVersion message) then return (app, none)
  match copyFrom message with
  | none => return (app, none)
  | some packet => if !packet.verify sigOk then return (app, none) else return (app, some packet)

/-- `App::onBroadcastReceived(message)`. -/
def onBroadcastReceived (sigOk : XBridgePacket → Bool) (maxmempoolxbridge : Int) (app : App)
    (message : Bytes) : Except Fault (App × Option XBridgePacket) :=
  app.receive cr sigOk maxmempoolxbridge message

/-- `App::onMessageReceived(id, message)`, to the packet it hands to a session. -/
def onMessageReceived (sigOk : XBridgePacket → Bool) (maxmempoolxbridge : Int) (app : App)
    (_id message : Bytes) : Except Fault (App × Option XBridgePacket) :=
  app.receive cr sigOk maxmempoolxbridge message

end App

section Receive

variable {cr : Crypto} {sigOk : XBridgePacket → Bool} {maxmempoolxbridge : Int} {app : App}
  {message : Bytes}

/-- A new message shorter than four bytes makes the receive path read past its end. -/
theorem receive_short_message (hnew : app.isKnownMessage cr message = false)
    (hshort : message.length < 4) :
    app.receive cr sigOk maxmempoolxbridge message = .error (.outOfBounds message.length) := by
  have hv : checkXBridgePacketVersion message = .error (.outOfBounds message.length) :=
    checkXBridgePacketVersion_error.mpr ⟨hshort, rfl⟩
  simp only [App.receive, hnew, hv, Bool.false_eq_true, if_false]
  rfl

/-- A message of four bytes or more is read in bounds, and a packet handed on is the message
itself, with the header and a size field that matches. -/
theorem receive_ok (hlong : 4 ≤ message.length) :
    ∃ r, app.receive cr sigOk maxmempoolxbridge message = .ok r ∧
      ∀ packet, r.2 = some packet → copyFrom message = some packet := by
  have hv : checkXBridgePacketVersion message =
      .ok (UInt32.ofNat (leNat ((message.drop 0).take 4)) == XBRIDGE_PROTOCOL_VERSION) := by
    unfold checkXBridgePacketVersion readUInt32At readAt
    rw [if_pos (by omega)]
    rfl
  unfold App.receive
  split
  · exact ⟨_, rfl, fun _ h => by cases h⟩
  rw [hv]
  dsimp only [bind, Except.bind, pure, Except.pure]
  split
  · exact ⟨_, rfl, fun _ h => by cases h⟩
  split
  · exact ⟨_, rfl, fun _ h => by cases h⟩
  · rename_i packet hc
    split
    · exact ⟨_, rfl, fun _ h => by cases h⟩
    · exact ⟨_, rfl, fun _ h => by cases h; exact hc⟩

end Receive

/-- The empty body a peer's message leaves after its address and timestamp are stripped, when it
is new, makes both receive paths read past its end at once. -/
theorem receive_empty_message (cr : Crypto) (sigOk : XBridgePacket → Bool)
    (maxmempoolxbridge : Int) (app : App) (id : Bytes) (hnew : app.isKnownMessage cr [] = false) :
    app.onMessageReceived cr sigOk maxmempoolxbridge id [] = .error (.outOfBounds 0) ∧
      app.onBroadcastReceived cr sigOk maxmempoolxbridge [] = .error (.outOfBounds 0) :=
  ⟨receive_short_message hnew (by decide), receive_short_message hnew (by decide)⟩

theorem receive_empty_message_sample :
    ({} : App).isKnownMessage Crypto.sample [] = false ∧
      ({} : App).onMessageReceived Crypto.sample (fun _ => true) 128 (List.replicate 20 1) [] =
        .error (.outOfBounds 0) ∧
      ({} : App).onBroadcastReceived Crypto.sample (fun _ => true) 128 [] = .error (.outOfBounds 0) :=
  ⟨rfl, receive_empty_message Crypto.sample (fun _ => true) 128 {} (List.replicate 20 1) rfl⟩

/-! ## A handler's reads -/

/-- The fields of an `xbcPendingTransaction` packet. -/
structure PendingTransactionFields where
  txid : Bytes
  scurrency : Bytes
  samount : Bytes
  dcurrency : Bytes
  damount : Bytes
  hubAddress : Bytes
  deriving DecidableEq, Repr

/-- What `Session::Impl::processPendingTransaction` reads of its packet before it looks up the
order: nothing on a node whose exchange is enabled, nothing of a packet whose size is not 124, and
otherwise the fields, the currencies as C strings. -/
def readPendingTransaction (exchangeEnabled : Bool) (p : XBridgePacket) :
    Except Fault (Option PendingTransactionFields) := do
  if exchangeEnabled then return none
  if p.size != 124 then return none
  let txid ← p.data 0 hashSize
  let scurrency ← p.dataString hashSize
  let samount ← p.data (hashSize + 8) 8
  let dcurrency ← p.dataString (hashSize + 16)
  let damount ← p.data (hashSize + 24) 8
  let hubAddress ← p.data (hashSize + 32) addressSize
  return some { txid, scurrency, samount, dcurrency, damount, hubAddress }

/-- Of a packet of the right size, the reads fault exactly when no zero byte follows one of the
currency offsets, and then at the end of the packet. -/
theorem readPendingTransaction_eq_error {p : XBridgePacket} (hsize : p.size = 124) {e : Fault} :
    readPendingTransaction false p = .error e ↔
      (0 ∉ p.body.drop (headerSize + 32) ∨ 0 ∉ p.body.drop (headerSize + 48)) ∧
        e = .outOfBounds p.body.length := by
  have hlen := p.size_le
  rw [hsize] at hlen
  have hread : ∀ offset n, offset + n ≤ 124 → p.data offset n =
      .ok ((p.body.drop (headerSize + offset)).take n) := fun offset n h =>
    readAt_ok_iff.mpr ⟨by omega, rfl⟩
  have hstr : ∀ offset, offset ≤ 124 → 0 ∉ p.body.drop (headerSize + offset) →
      p.dataString offset = .error (.outOfBounds p.body.length) := fun offset h hz =>
    cString_eq_error.mpr ⟨hz, by rw [max_eq_right (by omega)]⟩
  have hok : ∀ offset, 0 ∈ p.body.drop (headerSize + offset) → ∃ s, p.dataString offset = .ok s :=
    fun offset hz => by
      cases h : p.dataString offset with
      | ok s => exact ⟨s, rfl⟩
      | error e => exact absurd hz (cString_eq_error.mp h).1
  -- the string at 32 is read first, so a fault there comes before the one at 48
  by_cases h1 : 0 ∈ p.body.drop (headerSize + 32)
  · obtain ⟨s1, hs1⟩ := hok 32 h1
    by_cases h2 : 0 ∈ p.body.drop (headerSize + 48)
    · obtain ⟨s2, hs2⟩ := hok 48 h2
      simp [readPendingTransaction, hsize, hread, hashSize, addressSize, hs1, hs2, h1, h2]
    · simp [readPendingTransaction, hsize, hread, hashSize, addressSize, hs1,
        hstr 48 (by decide) h2, h2, eq_comm]
  · simp [readPendingTransaction, hsize, hread, hashSize, hstr 32 (by decide) h1, h1, eq_comm]

end Blocknet.XBridge
