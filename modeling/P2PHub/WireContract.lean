import P2PHub.EventTopics
import P2PHub.JsonText

/-!
# The wire contract of the network transport

The messages of `plugins/network-light/src/wire-contract.ts` with their
encoders, and the validator of decoded envelopes.
-/

namespace P2PHub.NetworkLight

open JsValue

def networkProtocolId : String := "p2p-hub:network"

def networkProtocolVersion : Binary64 := .ofInt 1

def maxVersions : Nat := 16

def maxCapabilities : Nat := 256

def maxSubscriptionIdLength : Nat := 128

def maxTopicLength : Nat := 256

def maxAckReasonLength : Nat := 128

structure IdentityBinding where
  peerId : String
  certFingerprint : String
  signature : String
  deriving DecidableEq

structure HelloBody where
  versions : List Binary64
  capabilities : List String
  nonce : String
  instanceId : Option String
  listenPort : Option Binary64
  deriving DecidableEq

structure Limits where
  maxPayloadBytes : Option Binary64
  deriving DecidableEq

structure HelloAckBody where
  version : Binary64
  capabilities : List String
  limits : Option Limits
  nonce : String
  identity : IdentityBinding
  deriving DecidableEq

structure TaskBody where
  id : String
  skill : String
  payload : JsValue

inductive TaskStatus
  | ok
  | error
  deriving DecidableEq, Repr

structure ResultBody where
  taskId : String
  status : TaskStatus
  result : Option JsValue
  error : Option String

inductive SubscriptionAction
  | subscribe
  | unsubscribe
  deriving DecidableEq, Repr

structure SubReqBody where
  subscriptionId : String
  topic : String
  action : SubscriptionAction
  ttlMs : Option Binary64
  deriving DecidableEq

structure SubAckBody where
  subscriptionId : String
  topic : String
  accepted : Bool
  reason : Option String
  ttlMs : Option Binary64
  deriving DecidableEq

structure EventEmitBody where
  subscriptionId : String
  topic : String
  publisherPeerId : String
  timestamp : Binary64
  sequenceNumber : Binary64
  payload : JsValue

/-- A valid envelope: the type of a message and its body. -/
inductive WireEnvelope
  | hello (body : HelloBody)
  | helloAck (body : HelloAckBody)
  | task (body : TaskBody)
  | result (body : ResultBody)
  | auth (body : IdentityBinding)
  | subReq (body : SubReqBody)
  | subAck (body : SubAckBody)
  | eventEmit (body : EventEmitBody)

def isPositiveInt (number : Binary64) : Bool :=
  number.isInteger && Binary64.lt (.ofInt 0) number

def isLowerHex (char : Char) : Bool :=
  char.isDigit || decide ('a' ≤ char ∧ char ≤ 'f')

/-- Between `least` and `most` lowercase hexadecimal digits. -/
def isHexString (least most : Nat) (value : String) : Bool :=
  decide (least ≤ value.toList.length ∧ value.toList.length ≤ most) && value.toList.all isLowerHex

def isNonce (value : String) : Bool :=
  isHexString 2 64 value

def isPeerId (value : String) : Bool :=
  isHexString 64 64 value

def isCertFingerprint (value : String) : Bool :=
  isHexString 64 64 value

def isSignature (value : String) : Bool :=
  isHexString 128 128 value

/-- An alphanumeric character, and then characters of a kind. -/
def isIdentifier (continues : Char → Bool) (value : String) : Bool :=
  match value.toList with
  | [] => false
  | first :: rest => first.isAlphanum && rest.all continues

def isSubscriptionId (value : String) : Bool :=
  decide (0 < Utf16.length value.toList ∧ Utf16.length value.toList ≤ maxSubscriptionIdLength) &&
    isIdentifier (fun char => char.isAlphanum || char ∈ ['.', '_', '-']) value

def isTopic (value : String) : Bool :=
  decide (0 < Utf16.length value.toList ∧ Utf16.length value.toList ≤ maxTopicLength) &&
    isEventTopic value

def isInstanceId (value : String) : Bool :=
  isIdentifier (fun char => char.isAlphanum || char = '-') value &&
    decide (value.toList.length ≤ 64)

def isListenPort (number : Binary64) : Bool :=
  number.isInteger && Binary64.le (.ofInt 1) number && Binary64.le number (.ofInt 65535)

def isAckReason (value : String) : Bool :=
  decide (0 < Utf16.length value.toList ∧ Utf16.length value.toList ≤ maxAckReasonLength)

def optional {α : Type} (parse : JsValue → Option α) (value : JsValue) : Option (Option α) :=
  if value.isUndefined then some none else (parse value).map some

def checkedNumber (check : Binary64 → Bool) (value : JsValue) : Option Binary64 :=
  (number? value).filter check

def checkedString (check : String → Bool) (value : JsValue) : Option String :=
  (string? value).filter check

def intArray? (maxLen : Nat) : JsValue → Option (List Binary64)
  | .array items =>
    if 0 < items.length ∧ items.length ≤ maxLen then items.mapM (checkedNumber isPositiveInt)
    else none
  | _ => none

def stringArray? (maxLen : Nat) : JsValue → Option (List String)
  | .array items => if items.length ≤ maxLen then items.mapM string? else none
  | _ => none

def boolean? : JsValue → Option Bool
  | .boolean value => some value
  | _ => none

def nonEmpty (value : String) : Bool :=
  value ≠ ""

def parseIdentityBinding : JsValue → Option IdentityBinding
  | .object fields => do
      let peerId ← checkedString isPeerId (property fields "peerId")
      let certFingerprint ← checkedString isCertFingerprint (property fields "certFingerprint")
      let signature ← checkedString isSignature (property fields "signature")
      return { peerId, certFingerprint, signature }
  | _ => none

def parseHello (fields : List (String × JsValue)) : Option HelloBody := do
  let versions ← intArray? maxVersions (property fields "versions")
  let capabilities ← stringArray? maxCapabilities (property fields "capabilities")
  let nonce ← checkedString isNonce (property fields "nonce")
  let instanceId ← optional (checkedString isInstanceId) (property fields "instanceId")
  let listenPort ← optional (checkedNumber isListenPort) (property fields "listenPort")
  return { versions, capabilities, nonce, instanceId, listenPort }

def parseLimits : JsValue → Option Limits
  | .object fields => do
      let maxPayloadBytes ←
        optional (checkedNumber isPositiveInt) (property fields "maxPayloadBytes")
      return { maxPayloadBytes }
  | _ => none

def parseHelloAck (fields : List (String × JsValue)) : Option HelloAckBody := do
  let version ← checkedNumber isPositiveInt (property fields "version")
  let capabilities ← stringArray? maxCapabilities (property fields "capabilities")
  let nonce ← checkedString isNonce (property fields "nonce")
  let limits ← optional parseLimits (property fields "limits")
  let identity ← parseIdentityBinding (property fields "identity")
  return { version, capabilities, limits, nonce, identity }

def parseTask (fields : List (String × JsValue)) : Option TaskBody := do
  let id ← checkedString nonEmpty (property fields "id")
  let skill ← checkedString nonEmpty (property fields "skill")
  let payload ← fields.lookup "payload"
  return { id, skill, payload }

def taskStatus? : JsValue → Option TaskStatus
  | .string "ok" => some .ok
  | .string "error" => some .error
  | _ => none

def parseResult (fields : List (String × JsValue)) : Option ResultBody := do
  let taskId ← string? (property fields "taskId")
  let status ← taskStatus? (property fields "status")
  let error ← optional string? (property fields "error")
  let result ← optional some (property fields "result")
  return { taskId, status, result, error }

def subscriptionAction? : JsValue → Option SubscriptionAction
  | .string "subscribe" => some .subscribe
  | .string "unsubscribe" => some .unsubscribe
  | _ => none

def parseSubReq (fields : List (String × JsValue)) : Option SubReqBody := do
  let subscriptionId ← checkedString isSubscriptionId (property fields "subscriptionId")
  let topic ← checkedString isTopic (property fields "topic")
  let action ← subscriptionAction? (property fields "action")
  let ttlMs ← optional (checkedNumber isPositiveInt) (property fields "ttlMs")
  return { subscriptionId, topic, action, ttlMs }

def parseSubAck (fields : List (String × JsValue)) : Option SubAckBody := do
  let subscriptionId ← checkedString isSubscriptionId (property fields "subscriptionId")
  let topic ← checkedString isTopic (property fields "topic")
  let accepted ← boolean? (property fields "accepted")
  let reason ← optional (checkedString isAckReason) (property fields "reason")
  let ttlMs ← optional (checkedNumber isPositiveInt) (property fields "ttlMs")
  return { subscriptionId, topic, accepted, reason, ttlMs }

def isSequenceNumber (number : Binary64) : Bool :=
  number.isInteger && !Binary64.lt number (.ofInt 0)

def present? (value : JsValue) : Option JsValue :=
  if value.isUndefined then none else some value

def parseEventEmit (fields : List (String × JsValue)) : Option EventEmitBody := do
  let subscriptionId ← checkedString isSubscriptionId (property fields "subscriptionId")
  let topic ← checkedString isTopic (property fields "topic")
  let publisherPeerId ← checkedString isPeerId (property fields "publisherPeerId")
  let timestamp ← checkedNumber isPositiveInt (property fields "timestamp")
  let sequenceNumber ← checkedNumber isSequenceNumber (property fields "sequenceNumber")
  let payload ← present? (property fields "payload")
  return { subscriptionId, topic, publisherPeerId, timestamp, sequenceNumber, payload }

def parseBody (type : String) (fields : List (String × JsValue)) : Option WireEnvelope :=
  match type with
  | "hello" => (parseHello fields).map .hello
  | "hello_ack" => (parseHelloAck fields).map .helloAck
  | "task" => (parseTask fields).map .task
  | "auth" => (parseIdentityBinding (.object fields)).map .auth
  | "result" => (parseResult fields).map .result
  | "sub_req" => (parseSubReq fields).map .subReq
  | "sub_ack" => (parseSubAck fields).map .subAck
  | "event_emit" => (parseEventEmit fields).map .eventEmit
  | _ => none

def parseEnvelope : JsValue → Option WireEnvelope
  | .object envelope =>
    if string? (property envelope "protocol") = some networkProtocolId ∧
        number? (property envelope "version") = some networkProtocolVersion then
      match property envelope "type", property envelope "body" with
      | .string type, .object body => parseBody type body
      | _, _ => none
    else none
  | _ => none

/-- `supportedVersion`. -/
def supportedVersion (clientVersions : List Binary64) : Option Binary64 :=
  [networkProtocolVersion].find? fun version => clientVersions.contains version

def jsonStrings (values : List String) : JsValue :=
  .array (values.map .string)

def optionalField {α : Type} (key : String) (encode : α → JsValue) (value : Option α) :
    List (String × JsValue) :=
  (value.map fun value => (key, encode value)).toList

def envelope (type : String) (body : List (String × JsValue)) : JsValue :=
  .object [("protocol", .string networkProtocolId), ("version", jsonNumber networkProtocolVersion),
    ("type", .string type), ("body", .object body)]

structure HelloHints where
  instanceId : String
  listenPort : Binary64
  deriving DecidableEq

def hintFields : Option HelloHints → List (String × JsValue)
  | some hints =>
    [("instanceId", .string hints.instanceId), ("listenPort", jsonNumber hints.listenPort)]
  | none => []

def encodeHello (versions : List Binary64) (capabilities : List String) (nonce : String)
    (hints : Option HelloHints) : Except Thrown (Option String) :=
  stringify (envelope "hello"
    ([("versions", .array (versions.map jsonNumber)), ("capabilities", jsonStrings capabilities),
      ("nonce", .string nonce)] ++ hintFields hints))

def jsonIdentity (identity : IdentityBinding) : List (String × JsValue) :=
  [("peerId", .string identity.peerId), ("certFingerprint", .string identity.certFingerprint),
    ("signature", .string identity.signature)]

def encodeHelloAck (version : Binary64) (capabilities : List String) (limits : Option Limits)
    (nonce : String) (identity : IdentityBinding) : Except Thrown (Option String) :=
  stringify (envelope "hello_ack"
    ([("version", jsonNumber version), ("capabilities", jsonStrings capabilities)] ++
      optionalField "limits" (fun bytes => .object [("maxPayloadBytes", jsonNumber bytes)])
        (limits.bind Limits.maxPayloadBytes) ++
      [("nonce", .string nonce), ("identity", .object (jsonIdentity identity))]))

def encodeAuth (identity : IdentityBinding) : Except Thrown (Option String) :=
  stringify (envelope "auth" (jsonIdentity identity))

def encodeTask (task : TaskBody) : Except Thrown (Option String) :=
  stringify (envelope "task"
    [("id", .string task.id), ("skill", .string task.skill), ("payload", task.payload)])

def TaskStatus.text : TaskStatus → String
  | ok => "ok"
  | error => "error"

def encodeResult (result : ResultBody) : Except Thrown (Option String) :=
  stringify (envelope "result"
    ([("taskId", .string result.taskId), ("status", .string result.status.text)] ++
      optionalField "result" id result.result ++ optionalField "error" .string result.error))

def SubscriptionAction.text : SubscriptionAction → String
  | subscribe => "subscribe"
  | unsubscribe => "unsubscribe"

def encodeSubReq (body : SubReqBody) : Except Thrown (Option String) :=
  stringify (envelope "sub_req"
    ([("subscriptionId", .string body.subscriptionId), ("topic", .string body.topic),
      ("action", .string body.action.text)] ++ optionalField "ttlMs" jsonNumber body.ttlMs))

def encodeSubAck (body : SubAckBody) : Except Thrown (Option String) :=
  stringify (envelope "sub_ack"
    ([("subscriptionId", .string body.subscriptionId), ("topic", .string body.topic),
      ("accepted", .boolean body.accepted)] ++ optionalField "reason" .string body.reason ++
      optionalField "ttlMs" jsonNumber body.ttlMs))

def encodeEventEmit (body : EventEmitBody) : Except Thrown (Option String) :=
  stringify (envelope "event_emit"
    [("subscriptionId", .string body.subscriptionId), ("topic", .string body.topic),
      ("publisherPeerId", .string body.publisherPeerId), ("timestamp", jsonNumber body.timestamp),
      ("sequenceNumber", jsonNumber body.sequenceNumber), ("payload", body.payload)])

end P2PHub.NetworkLight
