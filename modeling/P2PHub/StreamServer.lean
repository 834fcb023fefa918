import P2PHub.ServerConnection
import P2PHub.StreamSession

/-!
# The server side of a libp2p stream

`handleStream` in `plugins/network-libp2p/src/network-libp2p-provider.ts`: it
reads the frames of a stream through its session, refuses anything that is not
a hello, an auth and a task in this order, and calls the task handler in the
name of the verified identity.
-/

namespace P2PHub.NetworkLibp2p

open NetworkLight

/-- The transport binding of a peer: the digest of the multihash of its id. -/
def peerFingerprint (sha256 : List UInt8 → String) (multihash : List UInt8) : String :=
  sha256 multihash

/-- Unlike `network-light`, both fingerprints are normalized. -/
def verifyIdentity (verify : String → String → String → Bool) (binding : IdentityBinding)
    (clientNonce serverNonce presentedCertFingerprint : String) : Bool :=
  normalizeFingerprint (some binding.certFingerprint) =
      normalizeFingerprint (some presentedCertFingerprint) &&
    verifyIdentityBinding verify binding.peerId clientNonce serverNonce binding.certFingerprint
      binding.signature

/-- The node around an inbound stream, and the peer at its other end. -/
structure StreamNode where
  skills : List String
  maxPayloadBytes : Binary64
  peerId : String
  certFingerprint : String
  verify : String → String → String → Bool
  sha256 : List UInt8 → String
  remotePeer : List UInt8

/-- Where `handleStream` stands. -/
inductive StreamPhase
  | readingHello
  | signing (hello : HelloBody) (serverNonce : String)
  | readingAuth (hello : HelloBody) (serverNonce : String)
  | readingTask (hello : HelloBody) (serverNonce : String) (binding : IdentityBinding)
  | running (task : TaskBody)
  | ended

inductive StreamEvent
  | accepted (hello : HelloBody) (serverNonce : String)
  | sent (message : WireEnvelope)
  | verified (binding : IdentityBinding)
  | called (peerId : String) (task : TaskBody)

/-- The variables of `handleStream`: the call of `next` that it awaits and its
result.  The values it went on with, the answers of the session and the log,
the newest event first, are observed. -/
structure StreamServer where
  session : StreamSession
  phase : StreamPhase
  awaited : Nat
  answer : Option NextResult
  taken : List JsValue
  answers : Answers
  log : List StreamEvent

section

variable (node : StreamNode)

def answerTo (call : Nat) (answers : Answers) : Option NextResult :=
  (answers.find? fun answer => answer.1 = call).map Prod.snd

/-- `await session.next(..)`, up to the await. -/
def StreamServer.read (s : StreamServer) (phase : StreamPhase) : StreamServer :=
  { s with
    session := s.session.next.1
    phase
    awaited := s.session.calls
    answer := answerTo s.session.calls s.session.next.2
    answers := s.answers ++ s.session.next.2 }

def StreamServer.initial : StreamServer :=
  StreamServer.read {
    session := .initial
    phase := .ended
    awaited := 0
    answer := none
    taken := []
    answers := []
    log := [] } .readingHello

def StreamServer.close (s : StreamServer) : StreamServer :=
  { s with phase := .ended, answer := none }

def StreamServer.record (s : StreamServer) (event : StreamEvent) : StreamServer :=
  { s with log := event :: s.log }

def StreamServer.take (s : StreamServer) (value : JsValue) : StreamServer :=
  { s with answer := none, taken := s.taken ++ [value] }

def StreamServer.enter (s : StreamServer) (phase : StreamPhase) : StreamServer :=
  { s with phase }

def acceptHello (value : JsValue) (serverNonce : String) (s : StreamServer) : StreamServer :=
  match parseEnvelope value with
  | some (.hello hello) =>
    if (supportedVersion hello.versions).isSome then
      (s.record (.accepted hello serverNonce)).enter (.signing hello serverNonce)
    else s.close
  | _ => s.close

/-- The hello acknowledgement with the node's identity. -/
def helloAck (serverNonce signature : String) : WireEnvelope :=
  .helloAck {
    version := networkProtocolVersion
    capabilities := node.skills
    limits := some { maxPayloadBytes := some node.maxPayloadBytes }
    nonce := serverNonce
    identity := {
      peerId := node.peerId
      certFingerprint := node.certFingerprint
      signature } }

/-- The binding holds for the nonces of the stream and its remote peer. -/
def bindingHolds (hello : HelloBody) (serverNonce : String) (binding : IdentityBinding) : Bool :=
  verifyIdentity node.verify binding hello.nonce serverNonce
    (peerFingerprint node.sha256 node.remotePeer)

def acceptAuth (value : JsValue) (hello : HelloBody) (serverNonce : String) (s : StreamServer) :
    StreamServer :=
  match parseEnvelope value with
  | some (.auth binding) =>
    if bindingHolds node hello serverNonce binding then
      (s.record (.verified binding)).read (.readingTask hello serverNonce binding)
    else s.close
  | _ => s.close

def acceptTask (value : JsValue) (binding : IdentityBinding) (handler : Bool)
    (s : StreamServer) : StreamServer :=
  match parseEnvelope value with
  | some (.task task) =>
    if handler then (s.record (.called binding.peerId task)).enter (.running task)
    else (s.record (.sent (errorResult task "no task handler registered"))).close
  | _ => s.close

/-- Go on after an await of `next`. -/
def StreamServer.resume (s : StreamServer) (result : NextResult) (serverNonce : String)
    (handler : Bool) : StreamServer :=
  match result with
  | .value value =>
    match s.phase with
    | .readingHello => acceptHello value serverNonce (s.take value)
    | .readingAuth hello nonce => acceptAuth node value hello nonce (s.take value)
    | .readingTask _ _ binding => acceptTask value binding handler (s.take value)
    | _ => s
  | _ => s.close

end

variable (node : StreamNode)

/-- What happens to a stream: something to its session, the handler goes on
with the answer that it awaits (with a fresh nonce, and with or without a task
handler), the signature that it awaits is there or fails, or the task handler
settles. -/
inductive StreamLabel
  | session (label : SessionLabel)
  | resume (serverNonce : String) (handler : Bool)
  | signed (signature : String) (sent : Bool)
  | signingFailed
  | handled (result : Option ResultBody)

/-- One turn of the event loop.  Only the handler itself calls `next`. -/
def streamStep (s : StreamServer) : StreamLabel → Option (StreamServer × List Unit)
  | .session .next => none
  | .session label =>
    (sessionStep s.session label).map fun (session, answers) =>
      ({ s with
          session
          answer := s.answer.or (answerTo s.awaited answers)
          answers := s.answers ++ answers }, [])
  | .resume serverNonce handler =>
    s.answer.map fun result => (s.resume node result serverNonce handler, [])
  | .signed signature sent =>
    match s.phase with
    | .signing hello serverNonce =>
      let acknowledged := s.record (.sent (helloAck node serverNonce signature))
      some (if sent then acknowledged.read (.readingAuth hello serverNonce)
        else acknowledged.close, [])
    | _ => none
  | .signingFailed =>
    match s.phase with
    | .signing _ _ => some (s.close, [])
    | _ => none
  | .handled result =>
    match s.phase with
    | .running _ =>
      some ((result.elim s fun result => s.record (.sent (.result result))).close, [])
    | _ => none

end P2PHub.NetworkLibp2p
