import Blocknet.XBridge.Packet

/-!
# XRouter packets

Model of `XRouterPacket` (`xrouter/xrouterpacket.h`, `xrouterpacket.cpp`): the buffer `m_body`,
its header fields, `copyFrom` and the reads of `data()`; and of the command enumeration
`XRouterCommand` with `XRouterCommand_ToString`.

* The header is `headerSize = 157` bytes: six `uint32_t` fields (version, command, timestamp,
  size and two reserved), the 36-byte uuid, the 33-byte key and the 64-byte signature. `data()`
  is the buffer from the header on, and `allSize()` the length of the whole buffer.
* A packet `copyFrom` accepts holds the header and a size field equal to the length of its data,
  as `uint32_t`s subtract (`XRouterPacket`). A network message is at most
  `MAX_PROTOCOL_MESSAGE_LENGTH` bytes, so `allSize()` and the offsets into the buffer are the
  `Nat`s here.
* `std::string((const char *)data() + offset)` is `dataString`, the C string read of the XBridge
  packets (`cString`): it faults at the end of the buffer when no zero byte follows `offset`.
* A `std::string` is bytes; `stdString` reads each byte as one character, so a text built from
  packet strings keeps their bytes and their lengths (`length_stdString`).
* `command()` casts the field to the enumeration, which may then hold a value no enumerator has.
  `XRouterCommand_ToString` writes through a null pointer for such a value (`sprintf(s, ...)` with
  `s = nullptr`): it faults `nullDeref` exactly there (`XRouterCommand_ToString_eq_error`).
-/

namespace Blocknet.XRouter

open Blocknet.Lib Blocknet.Sn Blocknet.XBridge

/-- `XROUTER_PROTOCOL_VERSION`. -/
def XROUTER_PROTOCOL_VERSION : UInt32 := 50

/-- `XRouterPacket::uuidSize`. -/
def uuidSize : Nat := 36

/-- `XRouterPacket::pubkeySize`. -/
def pubkeySize : Nat := 33

/-- `XRouterPacket::headerSize`: six `uint32_t` fields, the uuid, the key and the signature. -/
def headerSize : Nat := 4 + 4 + 4 + 4 + 2 * 4 + uuidSize + pubkeySize + 64

/-- The bytes of a `std::string`, one character each. -/
def stdString (b : Bytes) : String := String.ofList (b.map fun c => Char.ofNat c.toNat)

@[simp] theorem length_stdString (b : Bytes) : (stdString b).length = b.length := by
  simp [stdString]

/-! ## Commands -/

/-- `enum XRouterCommand`. -/
inductive XRouterCommand where
  | xrInvalid | xrReply | xrGetReply | xrGetConfig | xrConfigReply | xrDefault
  | xrGetBlockCount | xrGetBlockHash | xrGetBlock | xrGetTransaction | xrSendTransaction
  | xrGetTxBloomFilter | xrGenerateBloomFilter
  | xrGetBlocks | xrGetTransactions | xrGetBlockAtTime | xrDecodeRawTransaction
  | xrGetBalance
  | xrService
  deriving DecidableEq, Repr

namespace XRouterCommand

/-- The value of each enumerator. -/
def code : XRouterCommand → UInt32
  | xrInvalid => 0 | xrReply => 1 | xrGetReply => 2 | xrGetConfig => 3 | xrConfigReply => 4
  | xrDefault => 5
  | xrGetBlockCount => 20 | xrGetBlockHash => 21 | xrGetBlock => 22 | xrGetTransaction => 23
  | xrSendTransaction => 24
  | xrGetTxBloomFilter => 40 | xrGenerateBloomFilter => 41
  | xrGetBlocks => 50 | xrGetTransactions => 51 | xrGetBlockAtTime => 52
  | xrDecodeRawTransaction => 53
  | xrGetBalance => 60
  | xrService => 1000

/-- The enumerator with a value, if there is one. -/
def ofCode (n : UInt32) : Option XRouterCommand :=
  match n.toNat with
  | 0 => some xrInvalid | 1 => some xrReply | 2 => some xrGetReply | 3 => some xrGetConfig
  | 4 => some xrConfigReply | 5 => some xrDefault
  | 20 => some xrGetBlockCount | 21 => some xrGetBlockHash | 22 => some xrGetBlock
  | 23 => some xrGetTransaction | 24 => some xrSendTransaction
  | 40 => some xrGetTxBloomFilter | 41 => some xrGenerateBloomFilter
  | 50 => some xrGetBlocks | 51 => some xrGetTransactions | 52 => some xrGetBlockAtTime
  | 53 => some xrDecodeRawTransaction
  | 60 => some xrGetBalance
  | 1000 => some xrService
  | _ => none

/-- The texts of `XRouterCommand_ToString`. -/
def toString : XRouterCommand → String
  | xrInvalid => "xrInvalid" | xrReply => "xrReply" | xrGetReply => "xrGetReply"
  | xrGetConfig => "xrGetConfig" | xrConfigReply => "xrConfigReply"
  | xrGetBlockCount => "xrGetBlockCount" | xrGetBlockHash => "xrGetBlockHash"
  | xrGetBlock => "xrGetBlock" | xrGetTransaction => "xrGetTransaction"
  | xrSendTransaction => "xrSendTransaction" | xrGetTxBloomFilter => "xrGetTxBloomFilter"
  | xrGenerateBloomFilter => "xrGenerateBloomFilter" | xrGetBlocks => "xrGetBlocks"
  | xrGetTransactions => "xrGetTransactions" | xrGetBlockAtTime => "xrGetBlockAtTime"
  | xrDecodeRawTransaction => "xrDecodeRawTransaction" | xrGetBalance => "xrGetBalance"
  | xrService => "xrs" | xrDefault => ""

@[simp] theorem ofCode_code (c : XRouterCommand) : ofCode c.code = some c := by
  cases c <;> rfl

theorem code_of_ofCode {n : UInt32} {c : XRouterCommand} (h : ofCode n = some c) : c.code = n := by
  unfold ofCode at h
  apply UInt32.toNat_inj.mp
  split at h <;> (try cases h) <;> simp_all [code]

end XRouterCommand

open XRouterCommand

/-- `XRouterCommand_ToString(command)` for the value of a command field. -/
def XRouterCommand_ToString (n : UInt32) : Except Fault String :=
  match ofCode n with
  | some c => .ok c.toString
  | none => .error .nullDeref

theorem XRouterCommand_ToString_eq_error {n : UInt32} {e : Fault} :
    XRouterCommand_ToString n = .error e ↔ ofCode n = none ∧ e = .nullDeref := by
  unfold XRouterCommand_ToString
  cases ofCode n <;> simp [eq_comm]

/-! ## Packets -/

/-- `field32<INDEX>()`: the `uint32_t` at bytes `4 * INDEX` to `4 * INDEX + 4`. -/
def field32 (body : Bytes) (index : Nat) : UInt32 := UInt32.ofNat (leNat ((body.drop (4 * index)).take 4))

/-- A field reads the value written at its place, modulo `2 ^ 32`. -/
theorem field32_append {l₁ l₂ : Bytes} {index : Nat} (x : Nat) (h : l₁.length = 4 * index) :
    field32 (l₁ ++ leBytes 4 x ++ l₂) index = UInt32.ofNat x := by
  unfold field32
  rw [List.append_assoc, ← h, List.drop_left, List.take_left' (length_leBytes 4 x), leNat_leBytes]
  apply UInt32.toNat_inj.mp
  simp

/-- `sizeField()`. -/
def sizeField (body : Bytes) : UInt32 := field32 body 3

/-- An `XRouterPacket` as `copyFrom` leaves it: a buffer that holds the header, whose size field
is the length of the data. -/
structure XRouterPacket where
  body : Bytes
  header_le : headerSize ≤ body.length
  sizeField_eq : sizeField body = UInt32.ofNat body.length - UInt32.ofNat headerSize

namespace XRouterPacket

/-- `version()`. -/
def version (p : XRouterPacket) : UInt32 := field32 p.body 0

/-- `command()`, as the value of the field. -/
def command (p : XRouterPacket) : UInt32 := field32 p.body 1

/-- `size()`: the size field. -/
def size (p : XRouterPacket) : Nat := (sizeField p.body).toNat

/-- `allSize()`: the whole buffer. -/
def allSize (p : XRouterPacket) : Nat := p.body.length

/-- `suuid()`: the 36 bytes of the uuid field. -/
def suuid (p : XRouterPacket) : String := stdString ((p.body.drop 24).take uuidSize)

/-- `vpubkey()`: the 33 bytes of the pubkey field. -/
def vpubkey (p : XRouterPacket) : Bytes := (p.body.drop (24 + uuidSize)).take pubkeySize

/-- `std::string((const char *)data() + offset)`. -/
def dataString (p : XRouterPacket) (offset : Nat) : Except Fault Bytes :=
  cString p.body (headerSize + offset)

/-- `service()`: the C string at the start of `data()`. -/
def service (p : XRouterPacket) : Except Fault Bytes := p.dataString 0

/-- `verify(pubkey)`: the pubkey field is `pubkey` and the signature checks, the check given as
`sigOk`. -/
def verify (sigOk : XRouterPacket → Bool) (p : XRouterPacket) (pubkey : Bytes) : Bool :=
  pubkey.length == pubkeySize && p.vpubkey == pubkey && sigOk p

/-- Every signed packet verifies against its own key. -/
theorem verify_vpubkey {sigOk : XRouterPacket → Bool} {p : XRouterPacket} :
    p.verify sigOk p.vpubkey = sigOk p := by
  have hlen : p.vpubkey.length = pubkeySize := by
    have := p.header_le
    simp only [vpubkey, List.length_take, List.length_drop, headerSize, uuidSize, pubkeySize] at *
    omega
  simp [verify, hlen]

/-- A C string read of `data()` faults exactly when no zero byte follows, and then at the end of
the buffer. -/
theorem dataString_eq_error {p : XRouterPacket} {offset : Nat} {e : Fault} :
    p.dataString offset = .error e ↔
      0 ∉ p.body.drop (headerSize + offset) ∧ e = .outOfBounds (max (headerSize + offset) p.allSize) :=
  cString_eq_error

end XRouterPacket

/-- `XRouterPacket::copyFrom(data)`: the packet, when the data holds the header and its size field
is the length of the rest. -/
def copyFrom (data : Bytes) : Option XRouterPacket :=
  if h : headerSize ≤ data.length then
    if hs : sizeField data = UInt32.ofNat data.length - UInt32.ofNat headerSize then
      some ⟨data, h, hs⟩
    else none
  else none

/-! ## Building packets -/

/-- The header of a packet with `n` bytes of data, signed by `pubkey`: the version, command and
size fields, then the key; the other fields are zero. -/
def header (version command : UInt32) (pubkey : Bytes) (n : Nat) : Bytes :=
  leBytes 4 version.toNat ++ leBytes 4 command.toNat ++ List.replicate 4 0 ++ leBytes 4 n ++
    List.replicate (8 + uuidSize) 0 ++ (pubkey ++ List.replicate pubkeySize 0).take pubkeySize ++
    List.replicate 64 0

@[simp] theorem length_header (version command : UInt32) (pubkey : Bytes) (n : Nat) :
    (header version command pubkey n).length = headerSize := by
  simp [header, headerSize, uuidSize, pubkeySize]

/-- The packet of `data` with that header. -/
def XRouterPacket.ofData (version command : UInt32) (pubkey data : Bytes) : XRouterPacket where
  body := header version command pubkey data.length ++ data
  header_le := by simp
  sizeField_eq := by
    have hb : header version command pubkey data.length ++ data =
        (leBytes 4 version.toNat ++ leBytes 4 command.toNat ++ List.replicate 4 0) ++
          leBytes 4 data.length ++ (List.replicate (8 + uuidSize) 0 ++
            (pubkey ++ List.replicate pubkeySize 0).take pubkeySize ++ List.replicate 64 0 ++ data) := by
      simp [header]
    rw [sizeField, List.length_append, length_header, hb, field32_append _ (by simp),
      UInt32.ofNat_add]
    grind

namespace XRouterPacket

variable {version command : UInt32} {pubkey data : Bytes}

theorem body_ofData : (ofData version command pubkey data).body = header version command pubkey data.length ++ data :=
  rfl

@[simp] theorem version_ofData : (ofData version command pubkey data).version = version := by
  have hb : header version command pubkey data.length ++ data =
      [] ++ leBytes 4 version.toNat ++ (leBytes 4 command.toNat ++ List.replicate 4 0 ++
        leBytes 4 data.length ++ List.replicate (8 + uuidSize) 0 ++
        (pubkey ++ List.replicate pubkeySize 0).take pubkeySize ++ List.replicate 64 0 ++ data) := by
    simp [header]
  rw [XRouterPacket.version, body_ofData, hb, field32_append _ rfl, UInt32.ofNat_toNat]

@[simp] theorem command_ofData : (ofData version command pubkey data).command = command := by
  have hb : header version command pubkey data.length ++ data =
      leBytes 4 version.toNat ++ leBytes 4 command.toNat ++ (List.replicate 4 0 ++
        leBytes 4 data.length ++ List.replicate (8 + uuidSize) 0 ++
        (pubkey ++ List.replicate pubkeySize 0).take pubkeySize ++ List.replicate 64 0 ++ data) := by
    simp [header]
  rw [XRouterPacket.command, body_ofData, hb, field32_append _ (by simp), UInt32.ofNat_toNat]

@[simp] theorem allSize_ofData : (ofData version command pubkey data).allSize = headerSize + data.length := by
  simp [allSize, ofData]

theorem drop_headerSize_ofData : (ofData version command pubkey data).body.drop headerSize = data := by
  rw [body_ofData, ← length_header version command pubkey data.length, List.drop_left]

theorem dataString_ofData (offset : Nat) :
    (ofData version command pubkey data).dataString offset =
      cStringFrom (data.drop offset) (headerSize + offset) := by
  rw [dataString, cString, ← List.drop_drop, drop_headerSize_ofData]

end XRouterPacket

theorem body_of_copyFrom {data : Bytes} {p : XRouterPacket} (h : copyFrom data = some p) :
    p.body = data := by
  unfold copyFrom at h
  split_ifs at h
  cases h
  rfl

end Blocknet.XRouter
