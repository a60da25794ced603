import Blocknet.XRouter.Server
import Blocknet.XBridge.Codec

/-!
# A client's request, as the server reads it

Model of the request `App::xrouterCall` (`xrouter/xrouterapp.cpp`) sends a service node over the
network: `XRouterPacket(command, uuid)`, then `append` of the service, the fee transaction, the
number of parameters and each parameter (`xrouter/xrouterpacket.h`), then `sign`.

* `append(const std::string &)` writes the bytes and a zero (`appendString`); `append(uint32_t)`
  writes the four bytes of the value, least significant first (`appendUInt32`). Each append sets
  the size field to the length of the data, which is what `copyFrom` checks on the server.
* `requestData service feetx params` is what the appends put after the header. The rest of the
  header (the version, the timestamp, the uuid, the key and the signature) is left as it is: the
  results hold for every packet whose data are those bytes.

Result:
* `parseRequest_requestData`: where no string of the request holds a zero byte, the service is
  available and the parameters are within the fetch limit, the server's parse
  (`parseRequest`, `readParameters`) reads back the service, the fee transaction and the
  parameters the client appended.
-/

namespace Blocknet.XRouter

open Blocknet.Lib Blocknet.Sn Blocknet.XBridge XRouterCommand

/-- `append(const std::string & data)`: the bytes, then a zero. -/
def appendString (data : Bytes) : Bytes := data ++ [0]

/-- `append(const uint32_t data)`: the four bytes of the value on a little-endian host. -/
def appendUInt32 (data : Nat) : Bytes := leBytes 4 data

/-- The data of a request: `append(service)`, `append(feetx)`,
`append(static_cast<uint32_t>(params.size()))` and `append(p)` for each parameter. -/
def requestData (service feetx : Bytes) (params : List Bytes) : Bytes :=
  appendString service ++ appendString feetx ++ appendUInt32 params.length ++
    (params.map appendString).flatten

/-! ## Reading the data back -/

section Read

variable {p : XRouterPacket}

/-- A C string of `data()` that a zero ends reads back as its bytes. -/
theorem dataString_of_drop {offset : Nat} {s rest : Bytes} (hs : 0 ∉ s)
    (h : p.body.drop (headerSize + offset) = appendString s ++ rest) : p.dataString offset = .ok s := by
  rw [XRouterPacket.dataString, cString, h, appendString, List.append_assoc,
    cStringFrom_append_of_not_mem hs]
  simp [cStringFrom]

/-- The parameter loop reads back C strings appended one after another, each without a zero. -/
theorem processParameters_flatten :
    ∀ {qs : List Bytes} {params : List String} {offset : Nat} {rest : Bytes},
      (∀ q ∈ qs, 0 ∉ q) →
      p.body.drop (headerSize + offset) = (qs.map appendString).flatten ++ rest →
      processParameters p qs.length params offset = .ok (some (params ++ qs.map stdString))
  | [], _, _, _, _, _ => by simp [processParameters]
  | q :: qs, params, offset, rest, hqs, h => by
    have hq : 0 ∉ q := hqs q List.mem_cons_self
    have h' : p.body.drop (headerSize + offset) = appendString q ++ ((qs.map appendString).flatten ++ rest) := by
      rw [h, List.map_cons, List.flatten_cons, List.append_assoc]
    -- the string starts before the end of the buffer
    have hlt : offset < p.allSize := by
      have hlen := congrArg List.length h'
      simp only [List.length_drop, List.length_append, appendString, List.length_singleton] at hlen
      simp only [XRouterPacket.allSize]
      omega
    have hnext : p.body.drop (headerSize + (offset + q.length + 1)) =
        (qs.map appendString).flatten ++ rest := by
      rw [show headerSize + (offset + q.length + 1) = headerSize + offset + (q ++ [0]).length by
        simp; omega, ← List.drop_drop, h', appendString, List.drop_left]
    simp only [List.length_cons, processParameters, not_le.mpr hlt, if_false,
      dataString_of_drop hq h', except_ok_bind]
    rw [processParameters_flatten (fun q' hq' => hqs q' (List.mem_cons_of_mem q hq')) hnext]
    simp

/-- **The server reads back the request the client appends**: for a packet whose data are the
appends of a request, whatever its header, with no zero byte in the service, the fee transaction
or a parameter, the service available for the packet's command, and no more parameters than its
fetch limit, `parseRequest` reads the service and the fee transaction, and `readParameters` the
parameters, as the client appended them. -/
theorem parseRequest_requestData {node : Node} {commandStr nodeAddr : String}
    {service feetx : Bytes} {params : List Bytes}
    (hdata : p.body.drop headerSize = requestData service feetx params)
    (hservice : 0 ∉ service) (hfeetx : 0 ∉ feetx) (hparams : ∀ q ∈ params, 0 ∉ q)
    (havailable : node.settings.isAvailableCommand p.command (stdString service) = true)
    (hlimit : params.length ≤ node.settings.commandFetchLimit p.command (stdString service)) :
    ∃ r, parseRequest node p commandStr = .ok r ∧ r.service = stdString service ∧
      r.feetx = stdString feetx ∧ readParameters p r nodeAddr = .ok (params.map stdString) := by
  -- the data from each field on, as the appends wrote them
  have h0 : p.body.drop (headerSize + 0) = appendString service ++
      (appendString feetx ++ (appendUInt32 params.length ++ (params.map appendString).flatten)) := by
    rw [Nat.add_zero, hdata, requestData, List.append_assoc, List.append_assoc]
  have h1 : p.body.drop (headerSize + (service.length + 1)) = appendString feetx ++
      (appendUInt32 params.length ++ (params.map appendString).flatten) := by
    rw [← List.drop_drop, hdata, requestData, List.append_assoc, List.append_assoc,
      show service.length + 1 = (appendString service).length by simp [appendString], List.drop_left]
  have h2 : p.body.drop (headerSize + (service.length + 1 + feetx.length + 1)) =
      appendUInt32 params.length ++ (params.map appendString).flatten := by
    rw [show headerSize + (service.length + 1 + feetx.length + 1) =
        headerSize + (service.length + 1) + (appendString feetx).length by simp [appendString]; omega,
      ← List.drop_drop, h1, List.drop_left]
  have h3 : p.body.drop (headerSize + (service.length + 1 + feetx.length + 1 + 4)) =
      (params.map appendString).flatten ++ [] := by
    rw [show headerSize + (service.length + 1 + feetx.length + 1 + 4) =
        headerSize + (service.length + 1 + feetx.length + 1) + (appendUInt32 params.length).length by
        simp only [appendUInt32, length_leBytes]; omega, ← List.drop_drop, h2, List.drop_left,
      List.append_nil]
  -- the parameter count reads back, below the fetch limit
  have hlt := node.settings.commandFetchLimit_lt p.command (stdString service)
  have htoNat : (UInt32.ofNat params.length).toNat = params.length := by
    rw [UInt32.toNat_ofNat']
    omega
  have hcount : readUInt32At p.body (headerSize + (service.length + 1 + feetx.length + 1)) =
      .ok (UInt32.ofNat params.length) := by
    have hread : readAt p.body (headerSize + (service.length + 1 + feetx.length + 1)) 4 =
        .ok (appendUInt32 params.length) := by
      refine readAt_ok_iff.mpr ⟨?_, ?_⟩
      · have hlen := congrArg List.length h2
        simp only [List.length_drop, List.length_append, appendUInt32, length_leBytes] at hlen
        omega
      · rw [h2, List.take_left' (by simp [appendUInt32])]
    simp only [readUInt32At, hread, except_ok_bind, appendUInt32, leNat_leBytes]
    rw [Nat.mod_eq_of_lt (by omega)]
    rfl
  refine ⟨⟨stdString service, fqServiceOf p.command (stdString service) commandStr, stdString feetx,
    UInt32.ofNat params.length, service.length + 1 + feetx.length + 1 + 4⟩, ?_, rfl, rfl, ?_⟩
  · simp [parseRequest, XRouterPacket.service, dataString_of_drop hservice h0, havailable,
      dataString_of_drop hfeetx h1, hcount, htoNat, not_lt.mpr hlimit, Except.mapError]
    rfl
  · have hloop := @processParameters_flatten p params [] _ [] hparams h3
    rw [List.nil_append] at hloop
    simp [readParameters, htoNat, hloop, Except.mapError]
    rfl

end Read

/-- A block-count request for the service "s", with the fee transaction "ab" and the parameters
"1" and "2", reads back on the sample node. -/
theorem parseRequest_requestData_sample :
    ∃ r, parseRequest sampleNode (samplePacket xrGetBlockCount (requestData [115] [97, 98] [[49], [50]]))
        "xrGetBlockCount" = .ok r ∧ r.service = stdString [115] ∧ r.feetx = stdString [97, 98] ∧
      readParameters (samplePacket xrGetBlockCount (requestData [115] [97, 98] [[49], [50]])) r "" =
        .ok ([[49], [50]].map stdString) :=
  parseRequest_requestData XRouterPacket.drop_headerSize_ofData (by decide) (by decide) (by decide) rfl
    (by simp [sampleNode, sampleSettings])

end Blocknet.XRouter
