import P2PHub.NetworkFrames
import P2PHub.TransitionRuns
import P2PHub.WireContract

/-!
# A connection of the network server

`handleConnection` in `plugins/network-light/src/network-light-provider.ts`,
with the binding check of `wire-contract.ts`.  The data handlers of a socket
share the variables of its connection; a handler is suspended while the server
identity is signed, and other handlers run meanwhile.
-/

namespace P2PHub.NetworkLight

def identityBindingContext : String := "p2p-hub:network:identity-binding:v1:"

/-- `buildIdentityBindingMessage`, as the text whose UTF-8 bytes are signed. -/
def buildIdentityBindingMessage (clientNonce serverNonce certFingerprint : String) : String :=
  identityBindingContext ++ clientNonce ++ ":" ++ serverNonce ++ ":" ++ certFingerprint

def normalizeFingerprint (fingerprint : Option String) : String :=
  String.ofList (((fingerprint.getD "").toList.filter (· ≠ ':')).map Char.toLower)

/-- The shape of a claim comes first.  `verify publicKey message signature` is
the Ed25519 check, false where the platform throws. -/
def verifyIdentityBinding (verify : String → String → String → Bool)
    (peerId clientNonce serverNonce certFingerprint signature : String) : Bool :=
  isPeerId peerId && isCertFingerprint certFingerprint && isSignature signature &&
    verify peerId (buildIdentityBindingMessage clientNonce serverNonce certFingerprint) signature

def verifyIdentity (verify : String → String → String → Bool) (binding : IdentityBinding)
    (clientNonce serverNonce presentedCertFingerprint : String) : Bool :=
  binding.certFingerprint = presentedCertFingerprint &&
    verifyIdentityBinding verify binding.peerId clientNonce serverNonce binding.certFingerprint
      binding.signature

/-- What an event handler does with a message, if there is one. -/
inductive HandlerAnswer
  | absent
  | takes
  | throws
  deriving DecidableEq, Repr

/-- The provider and the platform around a connection.  Answers that may differ
from one frame to the next are numbered by the frames handled so far. -/
structure Surroundings where
  ip : String
  skills : List String
  maxPayloadBytes : Binary64
  peerId : String
  certFingerprint : String
  /-- The fingerprint of the certificate that the client presented. -/
  peerFingerprint : Option String
  verify : String → String → String → Bool
  randomNonce : Nat → String
  allowRequest : Nat → Bool
  tryAcquireTask : Nat → Bool
  taskHandler : Nat → Bool
  eventHandler : Nat → HandlerAnswer

/-- The argument of `registerReversePeer`. -/
structure ReversePeer where
  instanceId : Option String
  listenPort : Option Binary64
  peerId : String
  certFingerprint : String
  sourceIp : String

inductive ConnectionEvent
  | received (message : WireEnvelope)
  | accepted (hello : HelloBody) (serverNonce : String)
  | verified (binding : IdentityBinding)
  | registered (peer : ReversePeer)
  | taskCalled (peerId : String) (task : TaskBody)
  | eventCalled (peerId : String) (message : WireEnvelope)
  | sent (message : WireEnvelope)

/-- The variables of a connection.  `suspended` counts the handlers that await
the server identity, and the log has the newest event first. -/
structure Connection where
  buffer : List UInt8
  handshakeDone : Bool
  clientNonce : String
  serverNonce : String
  authenticatedPeerId : Option String
  sawTask : Bool
  helloInstanceId : Option String
  helloListenPort : Option Binary64
  presentedCertFp : String
  destroyed : Bool
  suspended : Nat
  handled : Nat
  log : List ConnectionEvent

def Connection.initial : Connection where
  buffer := []
  handshakeDone := false
  clientNonce := ""
  serverNonce := ""
  authenticatedPeerId := none
  sawTask := false
  helloInstanceId := none
  helloListenPort := none
  presentedCertFp := ""
  destroyed := false
  suspended := 0
  handled := 0
  log := []

/-- How the loop of a data handler goes on after a frame. -/
inductive Next
  | continues
  | suspends
  | ends
  deriving DecidableEq, Repr

def Connection.destroy (c : Connection) : Connection :=
  { c with destroyed := true }

def Connection.record (c : Connection) (event : ConnectionEvent) : Connection :=
  { c with log := event :: c.log }

def Connection.refuse (c : Connection) : Connection × Next :=
  (c.destroy, .ends)

section

variable (world : Surroundings)

def acceptHello (hello : HelloBody) (c : Connection) : Connection × Next :=
  if !world.allowRequest c.handled then c.refuse
  else if (supportedVersion hello.versions).isNone then c.refuse
  else
    let serverNonce := world.randomNonce c.handled
    ({ c with
        helloInstanceId := hello.instanceId
        helloListenPort := hello.listenPort
        handshakeDone := true
        clientNonce := hello.nonce
        serverNonce
        suspended := c.suspended + 1
        log := .accepted hello serverNonce :: c.log }, .suspends)

/-- The variables and the log after a verified binding. -/
def Connection.authenticate (c : Connection) (binding : IdentityBinding) : Connection :=
  { c with
    authenticatedPeerId := some binding.peerId
    log :=
      .registered {
        instanceId := c.helloInstanceId
        listenPort := c.helloListenPort
        peerId := binding.peerId
        certFingerprint := c.presentedCertFp
        sourceIp := world.ip } :: .verified binding :: c.log }

def Connection.present (c : Connection) : Connection :=
  { c with presentedCertFp := normalizeFingerprint world.peerFingerprint }

/-- The certificate of a destroyed socket is `null`, and reading its
fingerprint throws. -/
def handleAuth (binding : IdentityBinding) (c : Connection) : Connection × Next :=
  if c.authenticatedPeerId.isSome || c.sawTask then c.refuse
  else if c.destroyed then c.refuse
  else if verifyIdentity world.verify binding c.clientNonce c.serverNonce
      (c.present world).presentedCertFp then
    ((c.present world).authenticate world binding, .continues)
  else (c.present world).refuse

def rejectedAck (body : SubReqBody) (reason : String) : WireEnvelope :=
  .subAck {
    subscriptionId := body.subscriptionId
    topic := body.topic
    accepted := false
    reason := some reason
    ttlMs := none }

/-- The part of `handleSubReqMessage` before its first suspension.  What the
handler throws does not reach the data handler. -/
def handleSubReqMessage (body : SubReqBody) (authenticatedPeerId : String) (c : Connection) :
    Connection :=
  match world.eventHandler c.handled with
  | .absent => c.record (.sent (rejectedAck body "no event handler"))
  | _ => c.record (.eventCalled authenticatedPeerId (.subReq body))

def handleSubReq (body : SubReqBody) (c : Connection) : Connection × Next :=
  match c.authenticatedPeerId with
  | none => c.refuse
  | some authenticatedPeerId =>
    if !world.allowRequest c.handled then c.refuse
    else if !world.tryAcquireTask c.handled then
      (c.record (.sent (rejectedAck body "too many concurrent requests")), .continues)
    else (handleSubReqMessage world body authenticatedPeerId c, .continues)

/-- `handleEventEmitMessage` is synchronous: what the handler throws reaches the
data handler. -/
def handleEventEmitMessage (body : EventEmitBody) (authenticatedPeerId : String)
    (c : Connection) : Connection × Next :=
  match world.eventHandler c.handled with
  | .absent => (c, .continues)
  | .takes => (c.record (.eventCalled authenticatedPeerId (.eventEmit body)), .continues)
  | .throws => (c.record (.eventCalled authenticatedPeerId (.eventEmit body))).refuse

def handleEventEmit (body : EventEmitBody) (c : Connection) : Connection × Next :=
  match c.authenticatedPeerId with
  | none => c.refuse
  | some authenticatedPeerId =>
    if body.publisherPeerId ≠ authenticatedPeerId then c.refuse
    else handleEventEmitMessage world body authenticatedPeerId c

def errorResult (task : TaskBody) (error : String) : WireEnvelope :=
  .result { taskId := task.id, status := .error, result := none, error := some error }

/-- `handleMessage` up to the call of the task handler. -/
def handleMessage (task : TaskBody) (authenticatedPeerId : String) (c : Connection) : Connection :=
  if world.taskHandler c.handled then c.record (.taskCalled authenticatedPeerId task) else c

def Connection.sees (c : Connection) : Connection :=
  { c with sawTask := true }

def handleTask (task : TaskBody) (c : Connection) : Connection × Next :=
  match c.authenticatedPeerId with
  | none => c.refuse
  | some authenticatedPeerId =>
    if !world.allowRequest c.handled then c.sees.refuse
    else if !world.tryAcquireTask c.handled then
      (c.sees.record (.sent (errorResult task "too many concurrent tasks")), .continues)
    else (handleMessage world task authenticatedPeerId c.sees, .continues)

def Connection.withBuffer (c : Connection) (buffer : List UInt8) : Connection :=
  { c with buffer }

def Connection.receive (c : Connection) (message : WireEnvelope) : Connection :=
  { c with handled := c.handled + 1, log := .received message :: c.log }

def handleEnvelope (message : WireEnvelope) (c : Connection) : Connection × Next :=
  if !c.handshakeDone then
    match message with
    | .hello hello => acceptHello world hello c
    | _ => c.refuse
  else
    match message with
    | .auth binding => handleAuth world binding c
    | .subReq body => handleSubReq world body c
    | .eventEmit body => handleEventEmit world body c
    | .task task => handleTask world task c
    | _ => c.refuse

/-- The loop of a data handler.  Each frame shortens the buffer, so its length
is fuel enough. -/
def serve : Nat → Connection → Connection
  | 0, c => c
  | fuel + 1, c =>
    match tryDecodeFrame c.buffer with
    | .error _ => c.destroy
    | .ok none => c
    | .ok (some (value, rest)) =>
      match parseEnvelope value with
      | none => (c.withBuffer rest).destroy
      | some message =>
        match handleEnvelope world message ((c.withBuffer rest).receive message) with
        | (after, .continues) => serve fuel after
        | (after, _) => after

def Connection.serve (c : Connection) : Connection :=
  NetworkLight.serve world (c.buffer.length + 1) c

end

/-- What happens to a connection: a chunk arrives, the signature that a
suspended handler awaits is there or fails, or the socket is destroyed by its
timer, by an error or by its peer. -/
inductive ConnectionLabel
  | data (chunk : List UInt8)
  | signed (signature : String)
  | signingFailed
  | closed

variable (world : Surroundings)

/-- The hello acknowledgement with the server's identity. -/
def helloAck (signature : String) (c : Connection) : WireEnvelope :=
  .helloAck {
    version := networkProtocolVersion
    capabilities := world.skills
    limits := some { maxPayloadBytes := some world.maxPayloadBytes }
    nonce := c.serverNonce
    identity := {
      peerId := world.peerId
      certFingerprint := normalizeFingerprint (some world.certFingerprint)
      signature } }

def Connection.resume (c : Connection) (signature : String) : Connection :=
  { c with
    suspended := c.suspended - 1
    log := .sent (helloAck world signature c) :: c.log }

def Connection.giveUp (c : Connection) : Connection :=
  { c with suspended := c.suspended - 1 }.destroy

def connectionStep (c : Connection) : ConnectionLabel → Option (Connection × List Unit)
  | .data chunk => some ((c.withBuffer (c.buffer ++ chunk)).serve world, [])
  | .signed signature =>
    if c.suspended = 0 then none else some ((c.resume world signature).serve world, [])
  | .signingFailed =>
    if c.suspended = 0 then none
    else some (c.giveUp, [])
  | .closed => some (c.destroy, [])

section

open Utf8

variable {clientNonce serverNonce certFingerprint otherClient otherServer otherFingerprint : String}

theorem colon_notMem {least most : Nat} {value : String} (hex : isHexString least most value) :
    ':' ∉ value.toList := by
  simp only [isHexString, Bool.and_eq_true, List.all_eq_true] at hex
  intro member
  exact absurd (hex.2 ':' member) (by decide)

theorem takeWhile_colon {hex rest : List Char} (plain : ':' ∉ hex) :
    (hex ++ ':' :: rest).takeWhile (· ≠ ':') = hex := by
  rw [List.takeWhile_append_of_pos fun char member => by
    simpa using ne_of_mem_of_not_mem member plain]
  simp

theorem append_colon_inj {hex other rest tail : List Char} (plain : ':' ∉ hex)
    (otherPlain : ':' ∉ other) (same : hex ++ ':' :: rest = other ++ ':' :: tail) :
    hex = other ∧ rest = tail := by
  have hexEq : hex = other := by
    rw [← takeWhile_colon plain, same, takeWhile_colon otherPlain]
  subst hexEq
  simpa using same

/-- The shapes that the parsers of hello, hello acknowledgement and auth admit. -/
structure Admitted (clientNonce serverNonce certFingerprint : String) : Prop where
  client : isNonce clientNonce
  server : isNonce serverNonce
  fingerprint : isCertFingerprint certFingerprint

def signedBytes (clientNonce serverNonce certFingerprint : String) : List UInt8 :=
  encode (buildIdentityBindingMessage clientNonce serverNonce certFingerprint).toList

theorem Admitted.eq_of_signedBytes
    (first : Admitted clientNonce serverNonce certFingerprint)
    (second : Admitted otherClient otherServer otherFingerprint)
    (same : signedBytes clientNonce serverNonce certFingerprint =
      signedBytes otherClient otherServer otherFingerprint) :
    clientNonce = otherClient ∧ serverNonce = otherServer ∧
      certFingerprint = otherFingerprint := by
  have texts := congrArg decode same
  simp only [signedBytes, decode_encode, buildIdentityBindingMessage, String.toList_append,
    List.append_assoc, List.append_cancel_left_eq] at texts
  obtain ⟨clientEq, rest⟩ := append_colon_inj (colon_notMem first.client)
    (colon_notMem second.client) texts
  obtain ⟨serverEq, fingerprintEq⟩ := append_colon_inj (colon_notMem first.server)
    (colon_notMem second.server) rest
  exact ⟨String.toList_inj.mp clientEq, String.toList_inj.mp serverEq,
    String.toList_inj.mp fingerprintEq⟩

/-- The bytes that a peer signs determine both nonces and the fingerprint.  A
binding for one handshake is thus none for that with the nonces exchanged. -/
theorem buildIdentityBindingMessage_injective :
    (∀ {clientNonce serverNonce certFingerprint otherClient otherServer otherFingerprint},
      Admitted clientNonce serverNonce certFingerprint →
      Admitted otherClient otherServer otherFingerprint →
      signedBytes clientNonce serverNonce certFingerprint =
        signedBytes otherClient otherServer otherFingerprint →
      clientNonce = otherClient ∧ serverNonce = otherServer ∧
        certFingerprint = otherFingerprint) ∧
    ∀ {clientNonce serverNonce certFingerprint otherFingerprint},
      Admitted clientNonce serverNonce certFingerprint →
      signedBytes clientNonce serverNonce certFingerprint =
        signedBytes serverNonce clientNonce otherFingerprint →
      Admitted serverNonce clientNonce otherFingerprint → clientNonce = serverNonce :=
  ⟨fun first second same => first.eq_of_signedBytes second same,
    fun first same second => (first.eq_of_signedBytes second same).1⟩

theorem buildIdentityBindingMessage_injective_hex :
    let fingerprint := String.ofList (List.replicate 64 'b')
    signedBytes "c1" "5e" fingerprint ≠ signedBytes "5e" "c1" fingerprint := by
  intro fingerprint same
  have print : isCertFingerprint fingerprint := by
    simp [fingerprint, isCertFingerprint, isHexString, isLowerHex]
  exact absurd (buildIdentityBindingMessage_injective.2 ⟨by decide, by decide, print⟩ same
    ⟨by decide, by decide, print⟩) (by decide)

end

end P2PHub.NetworkLight
