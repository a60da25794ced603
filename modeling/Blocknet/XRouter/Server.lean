import Mathlib.Data.Rat.Floor
import Blocknet.Lib.Logged
import Blocknet.XRouter.Packet
import Blocknet.XRouter.Names

/-!
# The XRouter server: parsing a request, charging its fee, replying

Model of `XRouterServer::onMessageReceived` (`xrouter/xrouterserver.cpp`) with
`processParameters`, `checkFeePayment`, `processPayment` and the `handlePayment` lambda; of
`checkPayment` (`xrouter/utils-payments.cpp`) and `to_amount` (`xrouter/utils-misc.cpp`); and of
`App::onMessageReceived` (`xrouter/xrouterapp.cpp`), which hands a packet to the server or to the
client's reply handlers.

* The configuration (`XRouterSettings`) and what the node calls out to (the wallet connectors
  behind the commands, the plugins, the chain, the mempool) are the fields of `Node`; the model
  assumes nothing of them. `commandFetchLimit` goes through `maxFetchLimit`, so it is an `int`
  that is never negative.
* What the code throws is `Thrown`: an `XRouterError`, another `std::exception`, or what no
  handler of the server catches: the `UniValue` that `to_amount` throws (`JSONRPCError`), or a fault
  of undefined behaviour.
* The side effects are logged as `Event`s (`Lib.Logged`): a service call that returned, a fee
  transaction handed to `sendTransactionBlockchain` with what it returned, a packet sent to the
  client. The rate limits, DoS scores and query records only feed scores and log lines; they are
  left out.
* A fee of the configuration is a `double`; `to_amount` is over `ℚ` here, with its range checks
  and its rounding to the nearest satoshi.

Results:
* `onMessageReceived_reads_past_end`: a signed request whose data holds no zero byte is read past
  the end of its buffer, the service name first; `processParameters_reads_past_data`: the check of
  `processParameters` compares an offset into `data()` with `allSize()`, so it lets reads start past
  the end. `App.onMessageReceived_service_reads_past_end` and
  `App.onMessageReceived_unknown_command`: before any signature check, the dispatch reads a plugin
  request's service name the same way, and writes through a null pointer for an unknown command.
* `onMessageReceived_charges_fee`: a fee transaction is sent only right after the service call
  returned (`PaidAfterServed`), and a result sent for a request other than the config one with a
  positive fee means the fee transaction passed `checkPayment` and was sent with success. The
  config request is the exception: it is answered whatever fee is set (`config_reply_unpaid`).
  The proofs go through one inversion lemma per step (`serve_cases`, `request_cases`).
-/

namespace Blocknet.XRouter

open Blocknet.Lib Blocknet.Sn XRouterCommand

/-! ## Errors, replies, events -/

/-- `xrouter::INTERNAL_SERVER_ERROR`. -/
def INTERNAL_SERVER_ERROR : Int := 1002

/-- `xrouter::BAD_REQUEST`. -/
def BAD_REQUEST : Int := 1004

/-- `xrouter::BAD_VERSION`. -/
def BAD_VERSION : Int := 1005

/-- `xrouter::BAD_CONNECTOR`. -/
def BAD_CONNECTOR : Int := 1018

/-- `xrouter::INSUFFICIENT_FEE`. -/
def INSUFFICIENT_FEE : Int := 1028

/-- `xrouter::UNSUPPORTED_SERVICE`. -/
def UNSUPPORTED_SERVICE : Int := 1031

/-- What the server code throws. -/
inductive Thrown where
  /-- `XRouterError(msg, code)`. -/
  | xrouterError (msg : String) (code : Int)
  /-- A `std::exception` with its `what()`. -/
  | stdException (what : String)
  /-- What no handler of the server catches. -/
  | uncaught (f : Fault)
  deriving DecidableEq, Repr

/-- A reply to the client: a result, or the `{error, code}` object of a caught exception. -/
inductive Reply where
  | text (s : String)
  | error (msg : String) (code : Int)
  deriving DecidableEq, Repr

/-- A side effect of the server. -/
inductive Event where
  /-- The service call returned a reply. -/
  | served
  /-- `processPayment(feetx)` sent the fee transaction, and returned `ok`. -/
  | paid (feetx : String) (ok : Bool)
  /-- A packet of `command` carrying `reply` went to the client. -/
  | sent (command : XRouterCommand) (reply : Reply)
  deriving DecidableEq, Repr

/-- The server's computations. -/
abbrev ServerM := Logged Thrown Event

/-- A fault of undefined behaviour, which no handler catches. -/
def fault (r : Except Fault α) : ServerM α := Logged.ofExcept Thrown.uncaught r

/-- A computation that logs nothing. -/
def lift (r : Except Thrown α) : ServerM α := Logged.ofExcept id r

/-! ## Configuration and node -/

/-- `XRouterSettings`: what the server reads of its configuration, by command value and
service. -/
structure XRouterSettings where
  isAvailableCommand : UInt32 → String → Bool
  hasPlugin : String → Bool
  commandFetchLimit : UInt32 → String → Nat
  commandFetchLimit_lt : ∀ c s, commandFetchLimit c s < 2 ^ 31
  commandFee : UInt32 → String → ℚ
  paymentAddress : UInt32 → String → String

/-- The node the server runs in. -/
structure Node where
  settings : XRouterSettings
  /-- `verify()`: the signature field signs the packet for the key of its pubkey field. -/
  sigOk : XRouterPacket → Bool
  /-- `app.parseConfig(cfg)`. -/
  parseConfig : String
  /-- `processServiceCall(service, params)`, a plugin call. -/
  processServiceCall : String → List String → Except Thrown String
  /-- `parseResult(processX(service, params))` for a supported command `X`. -/
  runCommand : UInt32 → String → List String → Except Thrown String
  /-- `parseResult(processFetchReply(uuid))`. -/
  fetchReply : String → Except Thrown String
  /-- `DecodeHexTx(tx, rawtx)`. -/
  decodeHexTx : String → Option Transaction
  /-- `GetTransaction(hash, ...)` found the transaction. -/
  getTransaction : Uint256 → Bool
  /-- `EncodeDestination` of each destination `ExtractDestinations` finds in a script. -/
  destinations : Bytes → List String
  /-- `sendTransactionBlockchain(rawtx, txid)`: the transaction decoded and was broadcast. -/
  sendTransactionBlockchain : String → Bool
  /-- `server->isStarted()`, and for requests `canListen()`. -/
  started : Bool

/-! ## Amounts and payments -/

/-- `COIN`. -/
def COIN : Int := 100000000

/-- `MAX_MONEY`. -/
def MAX_MONEY : Int := 21000000 * COIN

/-- `MoneyRange`. -/
def MoneyRange (n : Int) : Bool := 0 ≤ n && n ≤ MAX_MONEY

/-- `to_amount(val)`: the amount in satoshis, rounded half away from zero; out of range it throws
the `UniValue` of `JSONRPCError`. -/
def to_amount (val : ℚ) : Except Thrown Int :=
  if val < 0 ∨ val > 21000000 then throw (.uncaught (.exception "Invalid amount"))
  else
    let tmp := val * COIN
    let nAmount := if tmp > 0 then (tmp + 1 / 2).floor else (tmp - 1 / 2).ceil
    if !MoneyRange nAmount then throw (.uncaught (.exception "Invalid amount")) else pure nAmount

/-- What the outputs that pay `address` add up to: an output counts once when one of its
destinations is `address`. -/
def paymentTo (destinations : Bytes → List String) (address : String) (vout : List TxOut) : Int :=
  ((vout.filter fun out => (destinations out.scriptPubKey).contains address).map TxOut.nValue).sum

/-- `checkPayment(rawtx, address, expectedFee)`. -/
def checkPayment (node : Node) (rawtx address : String) (expectedFee : Int) : Except Thrown Int := do
  let some tx := node.decodeHexTx rawtx | throw (.stdException "Bad fee payment")
  if tx.vin.isEmpty || tx.vout.isEmpty then throw (.stdException "Bad fee payment")
  if tx.vin.any fun input => !node.getTransaction input.prevout.hash then
    throw (.stdException "Bad fee payment, failed to find fee inputs")
  let payment := paymentTo node.destinations address tx.vout
  if payment = 0 then throw (.stdException "Bad fee payment, payment address is missing")
  if payment < expectedFee then throw (.stdException "Bad fee payment, fee is too low")
  pure payment

/-- `checkFeePayment(nodeAddr, paymentAddress, feetx, requiredFee)`: `checkPayment`'s result is
dropped, so only what it throws counts. -/
def checkFeePayment (node : Node) (paymentAddress feetx : String) (requiredFee : Int) :
    Except Thrown Bool := do
  if feetx.isEmpty then return false
  if paymentAddress.isEmpty then return false
  let _ ← checkPayment node feetx paymentAddress requiredFee
  return true

/-- `processPayment(feetx)`. -/
def processPayment (node : Node) (feetx : String) : ServerM Bool := do
  let res := node.sendTransactionBlockchain feetx
  Logged.emit (.paid feetx res)
  return res

/-- The handlers around a call: an `XRouterError` goes on, another `std::exception` becomes the
`XRouterError` `convert` makes of its `what()`. -/
def rethrow (convert : String → Thrown) : Thrown → ServerM α
  | .stdException what => throw (convert what)
  | e => throw e

/-- The `handlePayment` lambda. -/
def handlePayment (node : Node) (expectingPayment : Bool) (feeTransaction fqService nodeAddr : String) :
    ServerM Unit := do
  if !expectingPayment then return
  tryCatch (do
      if !(← processPayment node feeTransaction) then
        throw (.xrouterError ("Bad fee payment from client " ++ nodeAddr ++ " service " ++ fqService)
          INSUFFICIENT_FEE))
    (rethrow fun what => .xrouterError what INTERNAL_SERVER_ERROR)

/-! ## Parsing a request -/

/-- The fully qualified service of a request: `pluginCommandKey(service)` for a plugin,
`walletCommandKey(service, commandStr)` for a command. -/
def fqServiceOf (command : UInt32) (service commandStr : String) : String :=
  if command = xrService.code then String.ofList (pluginCommandKey service.toList)
  else String.ofList (walletCommandKey service.toList commandStr.toList false)

/-- `processParameters(packet, paramsCount, params, offset)`: the C strings of `data()` from
`offset` on, `paramsCount` of them; it gives up (`none`) once `offset` reaches `allSize()`. -/
def processParameters (p : XRouterPacket) : Nat → List String → Nat → Except Fault (Option (List String))
  | 0, params, _ => .ok (some params)
  | n + 1, params, offset =>
    if offset ≥ p.allSize then .ok none
    else do
      let s ← p.dataString offset
      processParameters p n (params ++ [stdString s]) (offset + s.length + 1)

/-- What the parse of a request leaves in scope. -/
structure Request where
  service : String
  fqService : String
  feetx : String
  paramsCount : UInt32
  /-- Where the parameters start in `data()`. -/
  offset : Nat

/-- The parse of `onMessageReceived` after the command: the service name, the fee transaction and
the parameter count, read one after the other from the start of `data()`. -/
def parseRequest (node : Node) (p : XRouterPacket) (commandStr : String) : Except Thrown Request := do
  let service ← Except.mapError .uncaught p.service
  let offset := service.length + 1
  let service := stdString service
  let fqService := fqServiceOf p.command service commandStr
  if !node.settings.isAvailableCommand p.command service then
    throw (.xrouterError ("Unsupported xrouter command: " ++ fqService) UNSUPPORTED_SERVICE)
  let feetx ← Except.mapError .uncaught (p.dataString offset)
  let offset := offset + feetx.length + 1
  let paramsCount ← Except.mapError .uncaught (readUInt32At p.body (headerSize + offset))
  let offset := offset + 4
  let fetchLimit := node.settings.commandFetchLimit p.command service
  if paramsCount.toNat > fetchLimit then
    throw (.xrouterError ("Too many parameters from client, max is " ++ toString fetchLimit ++ ": " ++
      fqService) BAD_REQUEST)
  pure ⟨service, fqService, stdString feetx, paramsCount, offset⟩

/-- The parameters, or the error of `processParameters` giving up. -/
def readParameters (p : XRouterPacket) (r : Request) (nodeAddr : String) :
    Except Thrown (List String) := do
  let some params ← Except.mapError .uncaught (processParameters p r.paramsCount.toNat [] r.offset)
    | throw (.xrouterError ("XRouter: too many parameters in call " ++ r.fqService ++ " query " ++
        p.suuid ++ " from node " ++ nodeAddr) BAD_REQUEST)
  pure params

/-- The checks of the plugin branch before its call: the plugin, the command, the parameters, and
the fee. -/
def pluginChecks (node : Node) (p : XRouterPacket) (r : Request) (nodeAddr : String) :
    Except Thrown (List String × Int) := do
  if !node.settings.hasPlugin r.service then
    throw (.xrouterError ("Service not supported: " ++ r.fqService) BAD_REQUEST)
  if !node.settings.isAvailableCommand p.command r.service then
    throw (.xrouterError ("Unsupported command: " ++ r.fqService) UNSUPPORTED_SERVICE)
  let params ← readParameters p r nodeAddr
  let fee ← to_amount (node.settings.commandFee p.command r.service)
  pure (params, fee)

/-- The checks of the branch of the built-in commands before its call: the fee first, then the
command and the parameters. -/
def commandChecks (node : Node) (p : XRouterPacket) (r : Request) (nodeAddr : String) :
    Except Thrown (List String × Int) := do
  let fee ← to_amount (node.settings.commandFee p.command r.service)
  if !node.settings.isAvailableCommand p.command r.service then
    throw (.xrouterError ("Unsupported command: " ++ r.fqService) UNSUPPORTED_SERVICE)
  let params ← readParameters p r nodeAddr
  pure (params, fee)

/-- The `switch (command)` of the built-in commands. -/
def callCommand (node : Node) (command : UInt32) (service : String) (params : List String)
    (uuid fqService : String) : Except Thrown String :=
  match ofCode command with
  | some xrGetBlockCount | some xrGetBlockHash | some xrGetBlock | some xrGetTransaction
  | some xrGetBlocks | some xrGetTransactions | some xrDecodeRawTransaction
  | some xrSendTransaction => node.runCommand command service params
  | some xrGetBalance | some xrGetTxBloomFilter | some xrGenerateBloomFilter
  | some xrGetBlockAtTime =>
    throw (.xrouterError ("This call is not supported: " ++ fqService) UNSUPPORTED_SERVICE)
  | some xrGetReply => node.fetchReply uuid
  | _ => throw (.xrouterError ("Unknown command " ++ fqService) UNSUPPORTED_SERVICE)

/-! ## Serving a request -/

/-- The part both branches share: the fee check, the call, then the fee transaction. -/
def serve (node : Node) (p : XRouterPacket) (r : Request) (nodeAddr : String) (fee : Int)
    (call : Except Thrown String) (convert : String → Thrown) : ServerM Reply := do
  let expectingPayment := decide (fee > 0)
  if expectingPayment then
    if !(← lift (checkFeePayment node (node.settings.paymentAddress p.command r.service) r.feetx fee)) then
      throw (.xrouterError ("Bad fee payment from client " ++ nodeAddr ++ " service " ++ r.fqService)
        INSUFFICIENT_FEE)
  let reply ← tryCatch (lift call) (rethrow convert)
  Logged.emit .served
  handlePayment node expectingPayment r.feetx r.fqService nodeAddr
  pure (.text reply)

/-- The body of the `try` block of `onMessageReceived`: `none` once the config reply is sent, or
the reply to send. -/
def request (node : Node) (p : XRouterPacket) (nodeAddr : String) : ServerM (Option Reply) := do
  if p.version ≠ XROUTER_PROTOCOL_VERSION then
    throw (.xrouterError ("You are using a different version of XRouter protocol. This node runs version " ++
      toString XROUTER_PROTOCOL_VERSION.toNat) BAD_VERSION)
  if !p.verify node.sigOk p.vpubkey then
    throw (.xrouterError "Unsigned packet or signature error" BAD_REQUEST)
  let commandStr ← fault (XRouterCommand_ToString p.command)
  if p.command = xrGetConfig.code then
    if p.size > 200 then
      throw (.xrouterError "Packet is too large, must be smaller than 200 bytes" BAD_REQUEST)
    Logged.emit (.sent xrConfigReply (.text node.parseConfig))
    return none
  let r ← lift (parseRequest node p commandStr)
  if p.command = xrService.code then
    let (params, fee) ← lift (pluginChecks node p r nodeAddr)
    let reply ← serve node p r nodeAddr fee (node.processServiceCall r.service params)
      fun _ => .xrouterError ("Unknown server error in " ++ r.fqService) INTERNAL_SERVER_ERROR
    return some reply
  else
    let (params, fee) ← lift (commandChecks node p r nodeAddr)
    let reply ← serve node p r nodeAddr fee (callCommand node p.command r.service params p.suuid r.fqService)
      fun _ => .xrouterError ("Internal Server Error: Bad connector for " ++ r.fqService) BAD_CONNECTOR
    return some reply

/-- The outer handlers of `onMessageReceived`: a caught exception becomes an `{error, code}` reply. -/
def replyOf : Thrown → ServerM (Option Reply)
  | .xrouterError msg code => pure (some (.error msg code))
  | .stdException _ => pure (some (.error "Internal Server Error" INTERNAL_SERVER_ERROR))
  | .uncaught f => throw (.uncaught f)

/-- `XRouterServer::onMessageReceived(node, packet, state)`. -/
def onMessageReceived (node : Node) (p : XRouterPacket) (nodeAddr : String) : ServerM Unit := do
  match ← tryCatch (request node p nodeAddr) replyOf with
  | none => pure ()
  | some reply => Logged.emit (.sent xrReply reply)

/-! ## The dispatch of `App::onMessageReceived` -/

/-- What the client knows of the queries it sent (`queryMgr`) and of the servicenodes' keys. -/
structure Client where
  /-- `queryMgr.hasNodeQuery(nodeAddr)`. -/
  hasNodeQuery : String → Bool
  /-- `queryMgr.hasQuery(uuid, nodeAddr)`. -/
  hasQuery : String → String → Bool
  /-- `queryMgr.hasReply(uuid, nodeAddr)`. -/
  hasReply : String → String → Bool
  /-- `servicenodePubKey(nodeAddr, spubkey)` found a key and `packet->verify(spubkey)` holds. -/
  servicenodeVerifies : String → XRouterPacket → Bool

/-- The reply handlers up to the reply they read: when the reply is `expected` and signed by the
node's servicenode, the C string at the start of `data()`. What they do with it (the query
records, the parse of a config) is left out. -/
def readReply (client : Client) (expected : Bool) (p : XRouterPacket) (nodeAddr : String) :
    Except Fault (Option String) :=
  if expected && client.servicenodeVerifies nodeAddr p then (fun s => some (stdString s)) <$> p.dataString 0
  else pure none

/-- `App::processInvalid`. -/
def processInvalid (client : Client) (p : XRouterPacket) (nodeAddr : String) : Except Fault (Option String) :=
  readReply client (client.hasNodeQuery nodeAddr) p nodeAddr

/-- `App::processReply`. -/
def processReply (client : Client) (p : XRouterPacket) (nodeAddr : String) : Except Fault (Option String) :=
  readReply client (client.hasQuery p.suuid nodeAddr && !client.hasReply p.suuid nodeAddr) p nodeAddr

/-- `App::processConfigReply`. -/
def processConfigReply (client : Client) (p : XRouterPacket) (nodeAddr : String) :
    Except Fault (Option String) :=
  readReply client (client.hasQuery p.suuid nodeAddr && !client.hasReply p.suuid nodeAddr) p nodeAddr

/-- `App::onMessageReceived(node, message)`: a packet `copyFrom` refuses gets a protocol error; the
command is named for the log line, and a plugin's service name read for it; then replies go to the
client's handlers and requests to the server, whose C++ exceptions `catch (...)` swallows. -/
def App.onMessageReceived (node : Node) (client : Client) (nodeAddr : String) (message : Bytes) :
    ServerM Unit :=
  match copyFrom message with
  | none =>
    if node.started then
      Logged.emit (.sent xrInvalid (.error ("XRouter Node reported a protocol error on a received packet. " ++
        "Unable to deserialize packet, possible bad packet header") BAD_REQUEST))
    else pure ()
  | some p => do
    let _ ← fault (XRouterCommand_ToString p.command)
    if p.command = xrService.code then
      let _ ← fault p.service
    if p.command = xrInvalid.code then
      let _ ← fault (processInvalid client p nodeAddr)
    else if p.command = xrReply.code then
      let _ ← fault (processReply client p nodeAddr)
    else if p.command = xrConfigReply.code then
      let _ ← fault (processConfigReply client p nodeAddr)
    else if node.started then
      tryCatch (Blocknet.XRouter.onMessageReceived node p nodeAddr) fun e =>
        match e with
        | .uncaught (.exception _) => pure ()
        | e => throw e

/-! ## Samples -/

/-- A configuration that offers every command and plugin, at a fee of one coin paid to `addr`. -/
def sampleSettings : XRouterSettings where
  isAvailableCommand _ _ := true
  hasPlugin _ := true
  commandFetchLimit _ _ := 16
  commandFetchLimit_lt _ _ := by norm_num
  commandFee _ _ := 1
  paymentAddress _ _ := "addr"

/-- A node whose every signature checks, whose calls return `r`, and whose fee transactions all
decode to one that pays a coin to `addr`, spends a known output, and is accepted by the network. -/
def sampleNode : Node where
  settings := sampleSettings
  sigOk _ := true
  parseConfig := "config"
  processServiceCall _ _ := .ok "r"
  runCommand _ _ _ := .ok "r"
  fetchReply _ := .ok "r"
  decodeHexTx _ := some ⟨0, [⟨⟨0, 0⟩, []⟩], [⟨COIN, []⟩]⟩
  getTransaction _ := true
  destinations _ := ["addr"]
  sendTransactionBlockchain _ := true
  started := true

/-- A packet of the current version, signed with a sample key, with `command` and `data`. -/
def samplePacket (command : XRouterCommand) (data : Bytes) : XRouterPacket :=
  XRouterPacket.ofData XROUTER_PROTOCOL_VERSION command.code (List.replicate pubkeySize 2) data

/-- A block-count request for the service `s` with the fee transaction `ab` and no parameters. -/
def paidRequest : XRouterPacket := samplePacket xrGetBlockCount [115, 0, 97, 98, 0, 0, 0, 0, 0]

/-- A config request whose data holds an empty service name and an empty fee transaction. -/
def configRequest : XRouterPacket := samplePacket xrGetConfig [0, 0]

/-! ## Reading a request past its end -/

/-- A service name with no zero byte after it is read up to the end of the buffer. -/
theorem service_eq_error {p : XRouterPacket} (hdata : 0 ∉ p.body.drop headerSize) :
    p.service = .error (.outOfBounds p.allSize) := by
  have hle := p.header_le
  rw [XRouterPacket.service, XRouterPacket.dataString_eq_error, Nat.add_zero]
  exact ⟨hdata, by rw [XRouterPacket.allSize, max_eq_right hle]⟩

theorem parseRequest_of_service_error {node : Node} {p : XRouterPacket} {commandStr : String}
    {f : Fault} (h : p.service = .error f) : parseRequest node p commandStr = .error (.uncaught f) := by
  simp [parseRequest, h, Except.mapError]

theorem onMessageReceived_reads_past_end (node : Node) (nodeAddr : String) {p : XRouterPacket}
    (hv : p.version = XROUTER_PROTOCOL_VERSION) (hsig : node.sigOk p = true)
    (hknown : (ofCode p.command).isSome) (hcfg : p.command ≠ xrGetConfig.code)
    (hdata : 0 ∉ p.body.drop headerSize) (log : List Event) :
    onMessageReceived node p nodeAddr log = (.error (.uncaught (.outOfBounds p.allSize)), log) := by
  obtain ⟨c, hc⟩ := Option.isSome_iff_exists.mp hknown
  have hstr : XRouterCommand_ToString p.command = .ok c.toString := by
    simp [XRouterCommand_ToString, hc]
  have hparse := @parseRequest_of_service_error node p c.toString _ (service_eq_error hdata)
  simp [onMessageReceived, request, hv, XRouterPacket.verify_vpubkey, hsig, hstr, hcfg, lift, hparse,
    fault, replyOf]

/-- A request with no data: its 157 bytes are all header, and the server reads the next one. -/
theorem onMessageReceived_reads_past_end_sample :
    (samplePacket xrGetBlockCount []).allSize = 157 ∧
      onMessageReceived sampleNode (samplePacket xrGetBlockCount []) "" [] =
        (.error (.uncaught (.outOfBounds 157)), []) :=
  ⟨rfl, onMessageReceived_reads_past_end sampleNode "" (by simp [samplePacket]) rfl
    (by simp [samplePacket]) (by simp [samplePacket]; decide)
    (by simp [samplePacket, XRouterPacket.drop_headerSize_ofData]) []⟩

/-- `processParameters` stops at `allSize()`, the end of the whole buffer, but reads from `data()`,
which starts `headerSize` bytes later: an offset past the data passes the check, and the read
starts past the end of the buffer. -/
theorem processParameters_reads_past_data {p : XRouterPacket} {n : Nat} {params : List String}
    {offset : Nat} (hdata : p.allSize ≤ headerSize + offset) (hguard : offset < p.allSize) :
    processParameters p (n + 1) params offset = .error (.outOfBounds (headerSize + offset)) := by
  have hread : p.dataString offset = .error (.outOfBounds (headerSize + offset)) :=
    XRouterPacket.dataString_eq_error.mpr
      ⟨by simp [List.drop_eq_nil_of_le hdata], by rw [max_eq_left hdata]⟩
  unfold processParameters
  rw [if_neg (by omega)]
  simp [hread]

/-- Any peer's packet with a command no enumerator has, signed or not, makes
`XRouterCommand_ToString` write through a null pointer. -/
theorem App.onMessageReceived_unknown_command (node : Node) (client : Client) (nodeAddr : String)
    {message : Bytes} {p : XRouterPacket} (hp : copyFrom message = some p) (hcmd : ofCode p.command = none)
    (log : List Event) :
    App.onMessageReceived node client nodeAddr message log = (.error (.uncaught .nullDeref), log) := by
  have hstr : XRouterCommand_ToString p.command = .error .nullDeref :=
    XRouterCommand_ToString_eq_error.mpr ⟨hcmd, rfl⟩
  simp [App.onMessageReceived, hp, hstr, fault]

/-- Any peer's plugin request whose data holds no zero byte, signed or not, is read past the end
of its buffer before the server sees it. -/
theorem App.onMessageReceived_service_reads_past_end (node : Node) (client : Client)
    (nodeAddr : String) {message : Bytes} {p : XRouterPacket} (hp : copyFrom message = some p)
    (hcmd : p.command = xrService.code) (hdata : 0 ∉ p.body.drop headerSize) (log : List Event) :
    App.onMessageReceived node client nodeAddr message log = (.error (.uncaught (.outOfBounds p.allSize)), log) := by
  have hstr : XRouterCommand_ToString xrService.code = .ok "xrs" := rfl
  simp [App.onMessageReceived, hp, hstr, fault, hcmd, service_eq_error hdata]

/-! ## Fees -/

/-- A fee transaction `checkPayment` accepts decodes with inputs and outputs, each input's
previous transaction is known, and the outputs that pay the address add up to the fee. -/
theorem checkPayment_eq_ok {node : Node} {rawtx address : String} {expectedFee payment : Int}
    (h : checkPayment node rawtx address expectedFee = .ok payment) :
    ∃ tx, node.decodeHexTx rawtx = some tx ∧ tx.vin ≠ [] ∧ tx.vout ≠ [] ∧
      (∀ input ∈ tx.vin, node.getTransaction input.prevout.hash = true) ∧
      payment = paymentTo node.destinations address tx.vout ∧ payment ≠ 0 ∧ expectedFee ≤ payment := by
  unfold checkPayment at h
  cases hd : node.decodeHexTx rawtx with
  | none => simp [hd] at h
  | some tx =>
    simp only [hd] at h
    split_ifs at h with hempty
    all_goals (try cases h)
    rename_i hin hzero hlow
    simp only [Bool.or_eq_true, List.isEmpty_iff, not_or] at hempty
    simp only [List.any_eq_true, Bool.not_eq_eq_eq_not, Bool.not_true, not_exists, not_and,
      Bool.not_eq_false] at hin
    refine ⟨tx, rfl, hempty.1, hempty.2, hin, rfl, hzero, ?_⟩
    omega

/-- `checkFeePayment` passes only a non-empty fee transaction to a non-empty address, and only
when `checkPayment` accepts it. -/
theorem checkFeePayment_eq_ok_true {node : Node} {paymentAddress feetx : String} {requiredFee : Int}
    (h : checkFeePayment node paymentAddress feetx requiredFee = .ok true) :
    feetx ≠ "" ∧ paymentAddress ≠ "" ∧ ∃ payment, checkPayment node feetx paymentAddress requiredFee = .ok payment := by
  unfold checkFeePayment at h
  split_ifs at h with h1 h2
  all_goals (try cases h)
  cases hc : checkPayment node feetx paymentAddress requiredFee with
  | error e => simp [hc] at h
  | ok payment =>
    simp only [String.isEmpty_iff] at h1 h2
    exact ⟨h1, h2, payment, rfl⟩

/-- What `handlePayment` does when a fee is expected: it sends the fee transaction, and throws
when that fails. -/
theorem handlePayment_true (node : Node) (feeTransaction fqService nodeAddr : String) (log : List Event) :
    handlePayment node true feeTransaction fqService nodeAddr log =
      if node.sendTransactionBlockchain feeTransaction then (.ok (), log ++ [.paid feeTransaction true])
      else (.error (.xrouterError ("Bad fee payment from client " ++ nodeAddr ++ " service " ++ fqService)
        INSUFFICIENT_FEE), log ++ [.paid feeTransaction false]) := by
  cases h : node.sendTransactionBlockchain feeTransaction <;>
    simp [handlePayment, processPayment, h, rethrow]

theorem handlePayment_false (node : Node) (feeTransaction fqService nodeAddr : String) (log : List Event) :
    handlePayment node false feeTransaction fqService nodeAddr log = (.ok (), log) := by
  simp [handlePayment]

/-- Every way `serve` can end: it throws before the call with nothing logged; or the call returns
and, when no fee is due, so does `serve`; or a fee is due, the fee check passed, the call
returned, and the fee transaction was sent, `serve` returning exactly when that succeeded. -/
theorem serve_cases (node : Node) (p : XRouterPacket) (r : Request) (nodeAddr : String) (fee : Int)
    (call : Except Thrown String) (convert : String → Thrown) (log : List Event) :
    (∃ e, serve node p r nodeAddr fee call convert log = (.error e, log)) ∨
    (¬ 0 < fee ∧ ∃ reply, call = .ok reply ∧
      serve node p r nodeAddr fee call convert log = (.ok (.text reply), log ++ [.served])) ∨
    (0 < fee ∧ checkFeePayment node (node.settings.paymentAddress p.command r.service) r.feetx fee = .ok true ∧
      ∃ reply, call = .ok reply ∧
      ((node.sendTransactionBlockchain r.feetx = true ∧
          serve node p r nodeAddr fee call convert log = (.ok (.text reply), log ++ [.served, .paid r.feetx true])) ∨
        (node.sendTransactionBlockchain r.feetx = false ∧ ∃ e,
          serve node p r nodeAddr fee call convert log = (.error e, log ++ [.served, .paid r.feetx false])))) := by
  unfold serve
  by_cases hfee : 0 < fee
  · cases hc : checkFeePayment node (node.settings.paymentAddress p.command r.service) r.feetx fee with
    | error e => left; simp [hfee, lift]
    | ok b =>
      cases b
      · left; simp [hfee, lift]
      · cases call with
        | error e =>
          left
          cases e <;> simp [hfee, lift, rethrow]
        | ok reply =>
          right; right
          cases hs : node.sendTransactionBlockchain r.feetx <;>
            simp [hfee, hs, lift, handlePayment_true]
  · cases call with
    | error e =>
      left
      cases e <;> simp [hfee, lift, rethrow]
    | ok reply =>
      right; left
      simp [hfee, lift, handlePayment_false]

/-- A parsed request holds the service name and the fee transaction, the first two C strings of
`data()`. -/
theorem parseRequest_eq_ok {node : Node} {p : XRouterPacket} {commandStr : String} {r : Request}
    (h : parseRequest node p commandStr = .ok r) :
    ∃ service feetx, p.service = .ok service ∧ p.dataString (service.length + 1) = .ok feetx ∧
      r.service = stdString service ∧ r.feetx = stdString feetx := by
  unfold parseRequest at h
  cases hs : p.service with
  | error e => simp [hs, Except.mapError] at h
  | ok service =>
    cases hf : p.dataString (service.length + 1) with
    | error e =>
      simp only [hs, hf, Except.mapError, except_ok_bind, except_throw, except_error_bind] at h
      split at h <;> cases h
    | ok feetx =>
      refine ⟨service, feetx, rfl, hf, ?_⟩
      simp only [hs, hf, Except.mapError, except_ok_bind, except_throw, except_error_bind] at h
      split at h
      · cases h
      obtain ⟨_, -, h⟩ := except_bind_eq_ok h
      split at h
      · cases h
      cases h
      exact ⟨rfl, rfl⟩

/-- The plugin branch charges the fee its configuration gives. -/
theorem pluginChecks_fee {node : Node} {p : XRouterPacket} {r : Request} {nodeAddr : String}
    {params : List String} {fee : Int} (h : pluginChecks node p r nodeAddr = .ok (params, fee)) :
    to_amount (node.settings.commandFee p.command r.service) = .ok fee := by
  unfold pluginChecks at h
  simp only [except_throw, except_error_bind] at h
  split at h
  · cases h
  split at h
  · cases h
  obtain ⟨_, -, h⟩ := except_bind_eq_ok h
  obtain ⟨fee', hfee, h⟩ := except_bind_eq_ok h
  cases h
  exact hfee

/-- The branch of the built-in commands charges the fee its configuration gives. -/
theorem commandChecks_fee {node : Node} {p : XRouterPacket} {r : Request} {nodeAddr : String}
    {params : List String} {fee : Int} (h : commandChecks node p r nodeAddr = .ok (params, fee)) :
    to_amount (node.settings.commandFee p.command r.service) = .ok fee := by
  unfold commandChecks at h
  obtain ⟨fee', hfee, h⟩ := except_bind_eq_ok h
  simp only [except_throw, except_error_bind] at h
  split at h
  · cases h
  obtain ⟨_, -, h⟩ := except_bind_eq_ok h
  cases h
  exact hfee

/-- Every way the body of `onMessageReceived` can end: it throws with nothing logged; or it sends
the config; or, for another command, it parsed the request, the configuration gives the fee, and
the rest is `serve`. -/
theorem request_cases (node : Node) (p : XRouterPacket) (nodeAddr : String) (log : List Event) :
    (∃ e, request node p nodeAddr log = (.error e, log)) ∨
    (p.command = xrGetConfig.code ∧
      request node p nodeAddr log = (.ok none, log ++ [.sent xrConfigReply (.text node.parseConfig)])) ∨
    (p.command ≠ xrGetConfig.code ∧ ∃ commandStr r fee call convert,
      parseRequest node p commandStr = .ok r ∧
      to_amount (node.settings.commandFee p.command r.service) = .ok fee ∧
      request node p nodeAddr log =
        (do let reply ← serve node p r nodeAddr fee call convert; pure (some reply)) log) := by
  unfold request
  by_cases hv : p.version = XROUTER_PROTOCOL_VERSION
  swap
  · left; simp [hv]
  by_cases hsig : p.verify node.sigOk p.vpubkey = true
  swap
  · left; simp [hv, hsig]
  cases hstr : XRouterCommand_ToString p.command with
  | error f => left; simp [hv, hsig, fault]
  | ok commandStr =>
    by_cases hcfg : p.command = xrGetConfig.code
    · by_cases hsize : p.size > 200
      · left; simp [hv, hsig, fault, hcfg, hsize]
      · right; left; simp [hv, hsig, fault, hcfg, hsize]
    · cases hparse : parseRequest node p commandStr with
      | error e => left; simp [hv, hsig, fault, hcfg, hparse, lift]
      | ok r =>
        by_cases hsvc : p.command = xrService.code
        · have hne : xrService.code ≠ xrGetConfig.code := by decide
          cases hchk : pluginChecks node p r nodeAddr with
          | error e => left; simp [hv, hsig, fault, hparse, lift, hsvc, hchk, hne]
          | ok pf =>
            right; right
            refine ⟨hcfg, commandStr, r, pf.2, node.processServiceCall r.service pf.1,
              fun _ => .xrouterError ("Unknown server error in " ++ r.fqService) INTERNAL_SERVER_ERROR,
              hparse, pluginChecks_fee hchk, ?_⟩
            simp [hv, hsig, fault, hparse, lift, hsvc, hchk, hne]
        · cases hchk : commandChecks node p r nodeAddr with
          | error e => left; simp [hv, hsig, fault, hcfg, hparse, lift, hsvc, hchk]
          | ok pf =>
            right; right
            refine ⟨hcfg, commandStr, r, pf.2, callCommand node p.command r.service pf.1 p.suuid r.fqService,
              fun _ => .xrouterError ("Internal Server Error: Bad connector for " ++ r.fqService) BAD_CONNECTOR,
              hparse, commandChecks_fee hchk, ?_⟩
            simp [hv, hsig, fault, hcfg, hparse, lift, hsvc, hchk]

/-- `onMessageReceived` sends what the body returns, or the `{error, code}` object of what it
threw, unless that is uncaught. -/
theorem onMessageReceived_apply (node : Node) (p : XRouterPacket) (nodeAddr : String) (log : List Event) :
    onMessageReceived node p nodeAddr log =
      match request node p nodeAddr log with
      | (.ok none, l) => (.ok (), l)
      | (.ok (some reply), l) => (.ok (), l ++ [.sent xrReply reply])
      | (.error (.xrouterError msg code), l) => (.ok (), l ++ [.sent xrReply (.error msg code)])
      | (.error (.stdException _), l) =>
        (.ok (), l ++ [.sent xrReply (.error "Internal Server Error" INTERNAL_SERVER_ERROR)])
      | (.error (.uncaught f), l) => (.error (.uncaught f), l) := by
  unfold onMessageReceived
  rcases h : request node p nodeAddr log with ⟨e | reply, l⟩
  · cases e <;> simp [h, replyOf]
  · cases reply <;> simp [h]

/-- Every fee transaction of a log was sent right after a service call returned. -/
def PaidAfterServed : List Event → Prop
  | [] => True
  | .served :: .paid _ _ :: rest => PaidAfterServed rest
  | .paid _ _ :: _ => False
  | _ :: rest => PaidAfterServed rest

/-- A request sends its fee transaction only right after its service call returned. -/
theorem onMessageReceived_paidAfterServed (node : Node) (p : XRouterPacket) (nodeAddr : String) :
    PaidAfterServed (onMessageReceived node p nodeAddr []).2 := by
  rw [onMessageReceived_apply]
  rcases request_cases node p nodeAddr [] with ⟨e, he⟩ | ⟨-, he⟩ | ⟨-, _, r, fee, call, convert, -, -, he⟩
  · rw [he]; cases e <;> simp [PaidAfterServed]
  · rw [he]; simp [PaidAfterServed]
  · rw [he]
    rcases serve_cases node p r nodeAddr fee call convert [] with
      ⟨e, hs⟩ | ⟨-, reply, -, hs⟩ | ⟨-, -, reply, -, ⟨-, hs⟩ | ⟨-, e, hs⟩⟩
    · cases e <;> simp [hs, PaidAfterServed]
    · simp [hs, PaidAfterServed]
    · simp [hs, PaidAfterServed]
    · cases e <;> simp [hs, PaidAfterServed]

/-- A result sent for a request other than the config one comes from a parsed request, charged
the fee of its configuration: when that fee is positive, the fee check passed and the log is the
call, the fee transaction sent with success, then the reply. -/
theorem onMessageReceived_text {node : Node} {p : XRouterPacket} {nodeAddr : String}
    {command : XRouterCommand} {s : String} (hcfg : p.command ≠ xrGetConfig.code)
    (hmem : .sent command (.text s) ∈ (onMessageReceived node p nodeAddr []).2) :
    ∃ commandStr r fee, parseRequest node p commandStr = .ok r ∧
      to_amount (node.settings.commandFee p.command r.service) = .ok fee ∧
      (0 < fee →
        checkFeePayment node (node.settings.paymentAddress p.command r.service) r.feetx fee = .ok true ∧
        (onMessageReceived node p nodeAddr []).2 = [.served, .paid r.feetx true, .sent xrReply (.text s)]) := by
  rw [onMessageReceived_apply] at hmem ⊢
  rcases request_cases node p nodeAddr [] with ⟨e, he⟩ | ⟨hc, -⟩ | ⟨-, cs, r, fee, call, convert, hparse, hfee, he⟩
  · rw [he] at hmem
    cases e <;> simp at hmem
  · exact absurd hc hcfg
  · refine ⟨cs, r, fee, hparse, hfee, fun hpos => ?_⟩
    rw [he] at hmem ⊢
    rcases serve_cases node p r nodeAddr fee call convert [] with
      ⟨e, hs⟩ | ⟨hnp, -⟩ | ⟨-, hc, reply, -, ⟨-, hs⟩ | ⟨-, e, hs⟩⟩
    · simp only [Logged.bind_apply, hs] at hmem
      cases e <;> simp at hmem
    · exact absurd hpos hnp
    · simp only [Logged.bind_apply, hs, Logged.pure_apply] at hmem ⊢
      obtain ⟨-, rfl⟩ : command = xrReply ∧ s = reply := by simpa using hmem
      exact ⟨hc, by simp⟩
    · simp only [Logged.bind_apply, hs] at hmem
      cases e <;> simp at hmem

theorem onMessageReceived_charges_fee (node : Node) (p : XRouterPacket) (nodeAddr : String) :
    PaidAfterServed (onMessageReceived node p nodeAddr []).2 ∧
    ∀ (service feetx : Bytes) (fee : Int) (command : XRouterCommand) (s : String),
      p.command ≠ xrGetConfig.code → p.service = .ok service →
      p.dataString (service.length + 1) = .ok feetx →
      to_amount (node.settings.commandFee p.command (stdString service)) = .ok fee → 0 < fee →
      .sent command (.text s) ∈ (onMessageReceived node p nodeAddr []).2 →
      stdString feetx ≠ "" ∧
      ∃ tx, node.decodeHexTx (stdString feetx) = some tx ∧ tx.vin ≠ [] ∧ tx.vout ≠ [] ∧
        (∀ input ∈ tx.vin, node.getTransaction input.prevout.hash = true) ∧
        fee ≤ paymentTo node.destinations (node.settings.paymentAddress p.command (stdString service)) tx.vout ∧
        (onMessageReceived node p nodeAddr []).2 =
          [.served, .paid (stdString feetx) true, .sent xrReply (.text s)] := by
  refine ⟨onMessageReceived_paidAfterServed node p nodeAddr, ?_⟩
  intro service feetx fee command s hcfg hservice hfeetx hfee hpos hmem
  obtain ⟨_, r, fee', hparse, hfee', hpaid⟩ := onMessageReceived_text hcfg hmem
  obtain ⟨service', feetx', hs, hf, hrs, hrf⟩ := parseRequest_eq_ok hparse
  -- the request's strings are the packet's, and so its fee is the one configured for them
  obtain rfl : service' = service := by rw [hservice] at hs; cases hs; rfl
  obtain rfl : feetx' = feetx := by rw [hfeetx] at hf; cases hf; rfl
  obtain rfl : fee' = fee := by rw [hrs, hfee] at hfee'; cases hfee'; rfl
  obtain ⟨hcheck, hlog⟩ := hpaid hpos
  rw [hrs, hrf] at hcheck
  rw [hrf] at hlog
  obtain ⟨hne, -, payment, hpay⟩ := checkFeePayment_eq_ok_true hcheck
  obtain ⟨tx, hd, hvin, hvout, hin, rfl, -, hle⟩ := checkPayment_eq_ok hpay
  exact ⟨hne, tx, hd, hvin, hvout, hin, hle, hlog⟩

theorem onMessageReceived_charges_fee_sample :
    stdString [97, 98] ≠ "" ∧
      ∃ tx, sampleNode.decodeHexTx (stdString [97, 98]) = some tx ∧ tx.vin ≠ [] ∧ tx.vout ≠ [] ∧
        (∀ input ∈ tx.vin, sampleNode.getTransaction input.prevout.hash = true) ∧
        COIN ≤ paymentTo sampleNode.destinations
          (sampleNode.settings.paymentAddress paidRequest.command (stdString [115])) tx.vout ∧
        (onMessageReceived sampleNode paidRequest "" []).2 =
          [.served, .paid (stdString [97, 98]) true, .sent xrReply (.text "r")] :=
  (onMessageReceived_charges_fee sampleNode paidRequest "").2 [115] [97, 98] COIN xrReply "r"
    (by simp [paidRequest, samplePacket]; decide) (by decide +kernel) (by decide +kernel)
    (by decide +kernel) (by decide) (by decide +kernel)

/-- A config request gets the config, with no fee transaction, whatever fee the configuration sets
for the command: here a coin. -/
theorem config_reply_unpaid :
    configRequest.service = .ok [] ∧ configRequest.dataString 1 = .ok [] ∧
      to_amount (sampleNode.settings.commandFee configRequest.command (stdString [])) = .ok COIN ∧
      0 < COIN ∧
      .sent xrConfigReply (.text "config") ∈ (onMessageReceived sampleNode configRequest "" []).2 ∧
      stdString [] = "" := by
  refine ⟨by decide +kernel, by decide +kernel, by decide +kernel, by decide, by decide +kernel, rfl⟩

end Blocknet.XRouter
