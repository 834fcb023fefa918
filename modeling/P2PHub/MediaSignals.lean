import P2PHub.BoundaryGuard
import P2PHub.WireContract

/-!
# The wire contract of media signaling

The envelopes of `plugins/media/src/signal-contract.ts` with their parsers and
encoders, and the acknowledgement of an offer.
-/

namespace P2PHub.Media

open JsValue NetworkLight

inductive MediaKind
  | camera
  | microphone
  deriving DecidableEq, Repr

def MediaKind.text : MediaKind → String
  | camera => "camera"
  | microphone => "microphone"

structure IceCandidate where
  candidate : String
  sdpMid : Option String
  sdpMLineIndex : Option Binary64
  deriving DecidableEq

structure SignalOffer where
  callId : String
  mediaKind : MediaKind
  sdp : String
  deriving DecidableEq

structure SignalAnswer where
  callId : String
  sdp : String
  deriving DecidableEq

structure SignalCandidate where
  callId : String
  candidate : IceCandidate
  deriving DecidableEq

def signalProtocol : String := "p2p-hub:media-signaling"

def signalVersion : Binary64 := .ofInt 1

def mediaSignalScope : String := "media-signal"

def maxSdpLength : Nat := 128 * 1024

def maxCandidateLength : Nat := 8 * 1024

def maxCallIdLength : Nat := 64

def maxCalls : Nat := 32

def maxCandidatesPerCall : Nat := 256

def hasExactKeys (fields : List (String × JsValue)) (keys : List String) : Bool :=
  (fields.map Prod.fst).isPerm keys

def isBoundedString (maxLength : Nat) (value : String) : Bool :=
  decide (0 < Utf16.length value.toList ∧ Utf16.length value.toList ≤ maxLength)

def isLineIndex (number : Binary64) : Bool :=
  number.isInteger && Binary64.le (.ofInt 0) number

def parseIceCandidate : JsValue → Option IceCandidate
  | .object fields =>
    if fields.all fun field => ["candidate", "sdpMid", "sdpMLineIndex"].contains field.1 then do
      let candidate ← checkedString (isBoundedString maxCandidateLength)
        (property fields "candidate")
      let sdpMid ← optional (checkedString (isBoundedString 256)) (property fields "sdpMid")
      let sdpMLineIndex ← optional (checkedNumber isLineIndex) (property fields "sdpMLineIndex")
      return { candidate, sdpMid, sdpMLineIndex }
    else none
  | _ => none

def mediaKind? : JsValue → Option MediaKind
  | .string "camera" => some .camera
  | .string "microphone" => some .microphone
  | _ => none

/-- The common part of `parseSignalMessage`: the fields of an envelope with
these keys, and its call id. -/
def signalEnvelope (keys : List String) : JsValue → Option (List (String × JsValue) × String)
  | .object fields =>
    if hasExactKeys fields keys ∧ string? (property fields "protocol") = some signalProtocol ∧
        number? (property fields "version") = some signalVersion then
      (checkedString (isBoundedString maxCallIdLength) (property fields "callId")).map (fields, ·)
    else none
  | _ => none

def parseOffer (payload : JsValue) : Option SignalOffer := do
  let (fields, callId) ← signalEnvelope ["callId", "kind", "protocol", "sdp", "version"] payload
  let mediaKind ← mediaKind? (property fields "kind")
  let sdp ← checkedString (isBoundedString maxSdpLength) (property fields "sdp")
  return { callId, mediaKind, sdp }

def parseAnswer (payload : JsValue) : Option SignalAnswer := do
  let (fields, callId) ← signalEnvelope ["callId", "protocol", "sdp", "version"] payload
  let sdp ← checkedString (isBoundedString maxSdpLength) (property fields "sdp")
  return { callId, sdp }

def parseCandidate (payload : JsValue) : Option SignalCandidate := do
  let (fields, callId) ← signalEnvelope ["callId", "candidate", "protocol", "version"] payload
  let candidate ← parseIceCandidate (property fields "candidate")
  return { callId, candidate }

/-- `JSON.stringify(payload ?? null) ?? "null"`. -/
def payloadText : JsValue → Except Thrown String
  | .undefined => .ok "null"
  | payload => (stringify payload).map fun text => text.getD "null"

def guardSignalPayload (payload : JsValue) : Except Thrown Unit := do
  validateObjectDepth payload
  let text ← payloadText payload
  validatePayloadSize text maxPayloadBytes

/-- `base` of `encodeSignalMessage`. -/
def signalBase (callId : String) : List (String × JsValue) :=
  [("protocol", .string signalProtocol), ("version", jsonNumber signalVersion),
    ("callId", .string callId)]

def encodeOffer (offer : SignalOffer) : JsValue :=
  .object (signalBase offer.callId ++
    [("kind", .string offer.mediaKind.text), ("sdp", .string offer.sdp)])

def encodeAnswer (answer : SignalAnswer) : JsValue :=
  .object (signalBase answer.callId ++ [("sdp", .string answer.sdp)])

def encodeCandidate (message : SignalCandidate) : JsValue :=
  .object (signalBase message.callId ++
    [("candidate", .object ([("candidate", .string message.candidate.candidate)] ++
      optionalField "sdpMid" .string message.candidate.sdpMid ++
      optionalField "sdpMLineIndex" jsonNumber message.candidate.sdpMLineIndex))])

/-- `Buffer.byteLength(JSON.stringify(encodeSignalMessage(msg)), "utf8")`. -/
def candidateBytes (message : SignalCandidate) : Nat :=
  match stringify (encodeCandidate message) with
  | .ok (some text) => text.utf8ByteSize
  | _ => 0

inductive MediaRole
  | initiator
  | callee
  deriving DecidableEq, Repr

def MediaRole.text : MediaRole → String
  | initiator => "initiator"
  | callee => "callee"

def buildPlaceholderSdp (callId : String) (role : MediaRole) (kind : MediaKind) : String :=
  String.intercalate "\n" [ "v=0",
      "o=p2p-hub-media " ++ role.text ++ " " ++ callId ++ " IN IP4 0.0.0.0",
      "s=p2p-hub media signaling placeholder (real SDP comes from the shell's RTCPeerConnection)",
      "c=IN IP4 0.0.0.0",
      "t=0 0",
      match kind with
      | .camera => "m=video 9 UDP/TLS/RTP/SAVPF 96"
      | .microphone => "m=audio 9 UDP/TLS/RTP/SAVPF 0" ]

inductive OfferAck
  | accepted (callId : String)
  | rejected (error : Option String)
  deriving DecidableEq

/-- `offerAck`. -/
def OfferAck.encode : OfferAck → JsValue
  | accepted callId => .object [("accepted", .boolean true), ("callId", .string callId)]
  | rejected error =>
    .object ([("accepted", .boolean false)] ++ optionalField "error" .string error)

def parseOfferAck : JsValue → Option OfferAck
  | .object fields =>
    match property fields "accepted", fields.length with
    | .boolean true, 2 => (string? (property fields "callId")).map .accepted
    | .boolean false, 1 => some (.rejected none)
    | .boolean false, 2 => (string? (property fields "error")).map fun error => .rejected error
    | _, _ => none
  | _ => none

end P2PHub.Media
