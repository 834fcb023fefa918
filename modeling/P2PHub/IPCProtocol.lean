import P2PHub.JsonText

/-!
# Messages between the host and a sandbox

The parser of `sdk/src/sandbox/ipc-protocol.ts`: a strict subset of JSON-RPC
2.0.
-/

namespace P2PHub

inductive IPCErrorCode
  | parseError
  | invalidRequest
  | channelClosed
  | frameTooLarge
  deriving DecidableEq, Repr

def IPCErrorCode.number : IPCErrorCode → Int
  | parseError => -32700
  | invalidRequest => -32600
  | channelClosed => 1000
  | frameTooLarge => 1001

/-- An error that the transport reports: an `IPCParseError`, or another one with
its message. -/
inductive IPCFailure
  | parse (code : IPCErrorCode) (message : String)
  | other (message : String)
  deriving DecidableEq, Repr

open JsValue

def isHexDigit (char : Char) : Bool :=
  (hexDigit char).isSome

/-- `UUIDV4_RE`, character by character. -/
def uuidV4Pattern : List (Char → Bool) :=
  let hex := fun count => List.replicate count isHexDigit
  let oneOf := fun allowed => [fun char => List.contains allowed char]
  hex 8 ++ oneOf ['-'] ++ hex 4 ++ oneOf ['-'] ++ oneOf ['4'] ++ hex 3 ++ oneOf ['-'] ++
    oneOf ['8', '9', 'a', 'b', 'A', 'B'] ++ hex 3 ++ oneOf ['-'] ++ hex 12

def matchesPattern : List (Char → Bool) → List Char → Bool
  | [], [] => true
  | accepts :: pattern, char :: text => accepts char && matchesPattern pattern text
  | _, _ => false

def uuidV4? : JsValue → Option String
  | .string value => if matchesPattern uuidV4Pattern value.toList then some value else none
  | _ => none

def isStructuredParams : JsValue → Bool
  | .array _ | .object _ | .exotic _ | .cyclic => true
  | _ => false

def nonEmptyString? : JsValue → Option String
  | .string value => if value = "" then none else some value
  | _ => none

def isIPCErrorObject : JsValue → Bool
  | .object fields =>
    let integral := match number? (property fields "code") with
      | some code => code.isInteger
      | none => false
    let described := match property fields "message" with
      | .string _ => true
      | _ => false
    integral && described &&
      ((property fields "data").isUndefined || isStructuredParams (property fields "data"))
  | _ => false

/-- What a response carries: never both. -/
inductive IPCAnswer
  | result (value : JsValue)
  | error (value : JsValue)

inductive IPCMessageEnvelope
  | request (id method : String) (params : Option JsValue)
  | response (id : String) (answer : IPCAnswer)
  | notification (method : String) (params : Option JsValue)

/-- The `params` of a message: missing, structured, or a violation. -/
def parseParams (fields : List (String × JsValue)) : Option (Option JsValue) :=
  let params := property fields "params"
  if params.isUndefined then some none
  else if isStructuredParams params then some (some params)
  else none

def parseIPCRequest (fields : List (String × JsValue)) : Option IPCMessageEnvelope := do
  let id ← uuidV4? (property fields "id")
  let method ← nonEmptyString? (property fields "method")
  let params ← parseParams fields
  return .request id method params

/-- A result may be anything that is present, an error has to be well formed. -/
def parseIPCResponse (fields : List (String × JsValue)) : Option IPCMessageEnvelope := do
  let id ← uuidV4? (property fields "id")
  let hasResult := (fields.lookup "result").isSome
  let error := property fields "error"
  if hasResult = !error.isUndefined then none
  else if hasResult then return .response id (.result (property fields "result"))
  else if isIPCErrorObject error then return .response id (.error error)
  else none

def parseIPCNotification (fields : List (String × JsValue)) : Option IPCMessageEnvelope := do
  let method ← nonEmptyString? (property fields "method")
  let params ← parseParams fields
  return .notification method params

def parseIPCMessageEnvelope : JsValue → Option IPCMessageEnvelope
  | .object fields =>
    match property fields "jsonrpc", property fields "type" with
    | .string "2.0", .string "request" => parseIPCRequest fields
    | .string "2.0", .string "response" => parseIPCResponse fields
    | .string "2.0", .string "notification" => parseIPCNotification fields
    | _, _ => none
  | _ => none

def parseIPCMessageText (text : List Char) : Except IPCFailure IPCMessageEnvelope :=
  match parseJson text with
  | none => .error (.parse .parseError "frame is not valid JSON")
  | some value =>
    match parseIPCMessageEnvelope value with
    | none => .error (.parse .invalidRequest "frame is not a valid IPC message")
    | some message => .ok message

end P2PHub
