import P2PHub.MediaSignals
import P2PHub.PeerAccessGate
import P2PHub.TelemetryGate

/-!
# The media plugin

Calls and sessions with the confirmations they ask for, after
`plugins/media/src/index.ts`.  A request is suspended at each `await`; what the
peer access gate decides, when a confirmation is answered and what the network
reports is up to the outside.  A call object is named by its place among all
that were made, so that a request keeps hold of its own when the map forgets it.
-/

namespace P2PHub.Media

open JsValue NetworkLight

inductive MediaDirection
  | outbound
  | inbound
  deriving DecidableEq, Repr

/-- `waiter` names the promise that `resolve` settles. -/
structure PendingAccessRequest where
  requestId : String
  peerId : String
  kind : MediaKind
  direction : MediaDirection
  expiresInMs : Nat
  waiter : Nat
  deriving DecidableEq

/-- The promise of a confirmation.  Its timer runs until it is settled. -/
structure Confirmation where
  requestId : String
  granted : Option Bool
  deriving DecidableEq

inductive CallStatus
  | signaling
  | established
  deriving DecidableEq, Repr

/-- `pendingAnswer` says whether the waiter for the answer is still entered, and
`answer` is the state of its promise. -/
structure CallState where
  callId : String
  peerId : String
  role : MediaRole
  kind : MediaKind
  status : CallStatus
  localSdp : String
  remoteSdp : Option String
  remoteCandidates : List IceCandidate
  pendingAnswer : Bool
  answer : Option (Option SignalAnswer)
  deriving DecidableEq

structure SessionState where
  sessionId : String
  peerId : String
  kind : MediaKind
  channelId : String
  config : StreamRateOptions
  frames : Nat
  dropped : Nat
  violations : Nat

structure MediaState where
  calls : OrderedMap String Nat
  objects : List CallState
  pendingRequests : OrderedMap String PendingAccessRequest
  confirmations : List Confirmation
  sessions : OrderedMap String SessionState
  telemetryGate : TelemetryGate
  drawn : Nat

structure MediaSettings where
  randomUUID : Nat → String
  hasNetwork : Bool

def MediaState.new (telemetryGate : TelemetryGate) : MediaState where
  calls := .empty
  objects := []
  pendingRequests := .empty
  confirmations := []
  sessions := .empty
  telemetryGate := telemetryGate
  drawn := 0

inductive FrameDenial
  | stream (reason : StreamDenyReason)
  | noSession
  | invalid
  deriving DecidableEq, Repr

/-- What a request resolves to, or that it throws. -/
inductive MediaResult
  | initiated (callId sdp : String)
  | refused (error : String) (reason : Option PeerDenialReason)
  | dropped (reason : FrameDenial)
  | acknowledged (ack : OfferAck)
  | handled (callId : String)
  | opened (sessionId peerId : String) (kind : MediaKind) (channelId : String)
  | closed (count : Nat)
  | resolved (known : Bool)
  | fired
  | threw

inductive MediaPhase
  | initiatorAccess (peerId : String) (kind : MediaKind)
  | initiatorConfirming (peerId : String) (kind : MediaKind) (waiter : Nat)
  | offering (place : Nat)
  | awaitingAnswer (place : Nat)
  | offerAccess (peerId : String) (offer : SignalOffer)
  | offerConfirming (peerId : String) (offer : SignalOffer) (waiter : Nat)
  | answering (place : Nat)
  | answerAccess (peerId : String) (answer : SignalAnswer)
  | candidateAccess (peerId : String) (message : SignalCandidate)
  | candidateVerdict (peerId : String) (message : SignalCandidate) (denial : Option FrameDenial)
  | sessionAccess (peerId : String) (kind : MediaKind) (telemetry : StreamRateOptions)
  | sessionConfirming (peerId : String) (kind : MediaKind) (telemetry : StreamRateOptions)
      (waiter : Nat)
  | finished (result : MediaResult)

/-- The entry points with their payloads, and the timers. -/
inductive MediaAction
  | initiateCall (peerId kind : JsValue)
  | handleOffer (payload : JsValue) (invoker : Option String)
  | handleAnswer (payload : JsValue) (invoker : Option String)
  | handleCandidate (payload : JsValue) (invoker : Option String) (now : Int)
  | requestSession (peerId kind : JsValue) (telemetry : StreamRateOptions)
  | closeSession (sessionId : String)
  | hangup (peerId : JsValue)
  | resolveMediaAccess (requestId : String) (granted : Bool)
  | accessTimeout (waiter : Nat)
  | answerTimeout (place : Nat)

structure SendResult where
  ok : Bool
  result : JsValue
  error : Option String

/-- What an `await` is answered with.  A settled promise carries its value. -/
inductive MediaReply
  | access (decision : PeerAccessDecision)
  | settled (now : Int)
  | sent (outcome : Outcome SendResult)

/-- What a request does that others can see. -/
inductive MediaEvent
  | accessGranted (peerId : String)
  | raised (requestId peerId : String) (kind : MediaKind) (direction : MediaDirection)
  | answered (requestId : String) (granted : Bool)
  | expired (requestId : String)
  | insertedCall (place : Nat) (peerId : String) (kind : MediaKind)
  | insertedSession (sessionId peerId : String) (kind : MediaKind)
  | sent (peerId skill : String) (payload : JsValue)

/-- What is left of a turn: the state, where the request is then, and what it
did. -/
abbrev MediaTurn :=
  MediaState × MediaPhase × List MediaEvent

def finish (state : MediaState) (result : MediaResult) : MediaTurn :=
  (state, .finished result, [])

def refuse (state : MediaState) (error : String) : MediaTurn :=
  finish state (.refused error none)

section

variable (settings : MediaSettings)

def accessRequestTtl : Nat := 60 * 1000

def MediaState.modifyObject (state : MediaState) (place : Nat) (change : CallState → CallState) :
    MediaState :=
  { state with objects := state.objects.modify place change }

def CallState.resolveAnswer (answer : Option SignalAnswer) (call : CallState) : CallState :=
  { call with answer := call.answer.or (some answer) }

def MediaState.callUnder (state : MediaState) (callId : String) : Option (Nat × CallState) :=
  (state.calls.get callId).bind fun place => (state.objects[place]?).map (place, ·)

def cleanupCall (state : MediaState) (callId : String) : MediaState :=
  let settled := match state.callUnder callId with
    | some (place, call) =>
      if call.pendingAnswer then state.modifyObject place (.resolveAnswer none) else state
    | none => state
  { settled with calls := settled.calls.delete callId }

/-- The request that is raised, the promise that is awaited, and the event. -/
def askForMediaAccess (state : MediaState) (peerId : String) (kind : MediaKind)
    (direction : MediaDirection) : MediaState × Nat × MediaEvent :=
  let requestId := settings.randomUUID state.drawn
  let waiter := state.confirmations.length
  ({ state with
      drawn := state.drawn + 1
      confirmations := state.confirmations ++ [⟨requestId, none⟩]
      pendingRequests := state.pendingRequests.set requestId
        ⟨requestId, peerId, kind, direction, accessRequestTtl, waiter⟩ },
    waiter, .raised requestId peerId kind direction)

def MediaState.settleRequest (state : MediaState) (requestId : String) (waiter : Nat)
    (granted : Bool) : MediaState :=
  { state with
    pendingRequests := state.pendingRequests.delete requestId
    confirmations := state.confirmations.modify waiter fun confirmation =>
      { confirmation with granted := confirmation.granted.or (some granted) } }

def resolveMediaAccess (state : MediaState) (requestId : String) (granted : Bool) : MediaTurn :=
  if requestId = "" then finish state (.resolved false)
  else
    match state.pendingRequests.get requestId with
    | none => finish state (.resolved false)
    | some entry =>
      (state.settleRequest entry.requestId entry.waiter granted, .finished (.resolved true),
        [.answered requestId granted])

/-- The timer of a confirmation.  It is disposed of when that is settled. -/
def accessTimeout (state : MediaState) (waiter : Nat) : MediaTurn :=
  match state.confirmations[waiter]? with
  | some ⟨requestId, none⟩ =>
    (state.settleRequest requestId waiter false, .finished .fired, [.expired requestId])
  | _ => finish state .fired

/-- The value of a confirmation whose promise is settled. -/
def MediaState.confirmed (state : MediaState) (waiter : Nat) : Option Bool :=
  (state.confirmations[waiter]?).bind Confirmation.granted

/-- `typeof input?.peerId === "string" ? input.peerId : ""`. -/
def peerIdOf (value : JsValue) : String :=
  (string? value).getD ""

def kindOf : JsValue → MediaKind
  | .string "microphone" => .microphone
  | _ => .camera

def MediaState.callCount (state : MediaState) : Nat :=
  state.calls.keys.length

def initiateCall (state : MediaState) (peerId kind : JsValue) : MediaTurn :=
  if ¬isPeerId (peerIdOf peerId) then refuse state "unauthorized"
  else if maxCalls ≤ state.callCount then refuse state "too many calls"
  else (state, .initiatorAccess (peerIdOf peerId) (kindOf kind), [])

def askAfterGate (state : MediaState) (peerId : String) (kind : MediaKind)
    (direction : MediaDirection) (next : Nat → MediaPhase) : MediaTurn :=
  let asked := askForMediaAccess settings state peerId kind direction
  (asked.1, next asked.2.1, [.accessGranted peerId, asked.2.2])

def callIdText (uuid : String) : String :=
  String.ofList (uuid.toList.take maxCallIdLength)

def MediaState.insertCall (state : MediaState) (call : CallState) : MediaState :=
  { state with
    calls := state.calls.set call.callId state.objects.length
    objects := state.objects ++ [call] }

def newOutboundCall (state : MediaState) (peerId : String) (kind : MediaKind) : CallState :=
  let callId := callIdText (settings.randomUUID state.drawn)
  { callId := callId, peerId := peerId, role := .initiator, kind := kind, status := .signaling,
    localSdp := buildPlaceholderSdp callId .initiator kind, remoteSdp := none,
    remoteCandidates := [], pendingAnswer := true, answer := none }

/-- `initiateCall` from the answer to its confirmation to the offer it sends. -/
def sendOffer (state : MediaState) (peerId : String) (kind : MediaKind) : MediaTurn :=
  let call := newOutboundCall settings state peerId kind
  ({ state with drawn := state.drawn + 2 }.insertCall call, .offering state.objects.length,
    [.insertedCall state.objects.length peerId kind,
      .sent peerId "media.offer" (encodeOffer ⟨call.callId, kind, call.localSdp⟩)])

/-- `initiateCall` after the offer. -/
def offerSent (state : MediaState) (place : Nat) (call : CallState) : Outcome SendResult → MediaTurn
  | .failed => finish state .threw
  | .resolved sent =>
    if ¬sent.ok then refuse (cleanupCall state call.callId) (sent.error.getD "offer failed")
    else
      match parseOfferAck sent.result with
      | none => refuse (cleanupCall state call.callId) "malformed offer ack"
      | some (.rejected error) =>
        refuse (cleanupCall state call.callId) (error.getD "call rejected")
      | some (.accepted _) => (state, .awaitingAnswer place, [])

/-- `initiateCall` when the promise of the answer is settled. -/
def answerSettled (state : MediaState) (place : Nat) (call : CallState) :
    Option SignalAnswer → MediaTurn
  | none => refuse (cleanupCall state call.callId) "no answer (timed out)"
  | some answer =>
    finish (state.modifyObject place fun call =>
        { call with status := .established, remoteSdp := some answer.sdp })
      (.initiated call.callId call.localSdp)

def receive {Message : Type} (state : MediaState) (payload : JsValue) (invoker : Option String)
    (parse : JsValue → Option Message) (deny : String → MediaTurn)
    (next : String → Message → MediaTurn) : MediaTurn :=
  match guardSignalPayload payload with
  | .error _ => finish state .threw
  | .ok () =>
    match parse payload with
    | none => deny "malformed"
    | some message =>
      match invoker.filter isPeerId with
      | none => deny "unauthorized"
      | some peerId => next peerId message

def denyOffer (state : MediaState) (error : String) : MediaTurn :=
  finish state (.acknowledged (.rejected (some error)))

def handleOffer (state : MediaState) (payload : JsValue) (invoker : Option String) : MediaTurn :=
  receive state payload invoker parseOffer (denyOffer state) fun peerId offer =>
    (state, .offerAccess peerId offer, [])

def MediaState.inCall (state : MediaState) (peerId : String) : Bool :=
  state.calls.values.any fun place =>
    (state.objects[place]?).any fun call => decide (call.peerId = peerId)

/-- `handleOffer` after the peer access gate. -/
def offerGranted (state : MediaState) (peerId : String) (offer : SignalOffer) : MediaTurn :=
  if maxCalls ≤ state.callCount then denyOffer state "too many calls"
  else if state.inCall peerId then denyOffer state "already in call"
  else if (state.calls.get offer.callId).isSome then denyOffer state "duplicate call"
  else
    askAfterGate settings state peerId offer.mediaKind .inbound (.offerConfirming peerId offer)

def newInboundCall (peerId : String) (offer : SignalOffer) : CallState :=
  { callId := offer.callId, peerId := peerId, role := .callee, kind := offer.mediaKind,
    status := .signaling,
    localSdp := buildPlaceholderSdp offer.callId .callee offer.mediaKind,
    remoteSdp := some offer.sdp, remoteCandidates := [], pendingAnswer := false, answer := none }

/-- `handleOffer` from the answer to its confirmation to the answer it sends. -/
def sendAnswer (state : MediaState) (peerId : String) (offer : SignalOffer) : MediaTurn :=
  let call := newInboundCall peerId offer
  ({ state with drawn := state.drawn + 1 }.insertCall call, .answering state.objects.length,
    [.insertedCall state.objects.length peerId offer.mediaKind,
      .sent peerId "media.answer" (encodeAnswer ⟨call.callId, call.localSdp⟩)])

/-- `handleOffer` after the answer. -/
def answerSent (state : MediaState) (place : Nat) (call : CallState) :
    Outcome SendResult → MediaTurn
  | .failed => finish state .threw
  | .resolved sent =>
    if ¬sent.ok then denyOffer (cleanupCall state call.callId) "answer failed"
    else
      finish (state.modifyObject place fun call => { call with status := .established })
        (.acknowledged (.accepted call.callId))

def handleAnswer (state : MediaState) (payload : JsValue) (invoker : Option String) : MediaTurn :=
  receive state payload invoker parseAnswer (refuse state) fun peerId answer =>
    (state, .answerAccess peerId answer, [])

/-- `handleAnswer` after the peer access gate. -/
def answerGranted (state : MediaState) (peerId : String) (answer : SignalAnswer) : MediaTurn :=
  match state.callUnder answer.callId with
  | none => refuse state "no such call"
  | some (place, call) =>
    if call.role ≠ .initiator ∨ call.peerId ≠ peerId then refuse state "no such call"
    else
      finish (state.modifyObject place fun call =>
          let heard := { call with remoteSdp := some answer.sdp, status := .established }
          if call.pendingAnswer then
            { heard.resolveAnswer (some answer) with pendingAnswer := false }
          else heard)
        (.handled answer.callId)

/-- The timer of an answer.  It is disposed of when the promise is settled. -/
def answerTimeout (state : MediaState) (place : Nat) : MediaTurn :=
  finish (state.modifyObject place fun call =>
    if call.role = .initiator then call.resolveAnswer none else call) .fired

def hangup (state : MediaState) (peerId : String) : MediaTurn :=
  let closing := state.calls.keys.foldl (fun (closing : MediaState × Nat) callId =>
    match closing.1.callUnder callId with
    | some (_, call) =>
      if call.peerId = peerId then (cleanupCall closing.1 callId, closing.2 + 1) else closing
    | none => closing) (state, 0)
  finish closing.1 (.closed closing.2)

end

section

variable (settings : MediaSettings)

def maxSessions : Nat := 16

def mediaSessionChannelPrefix : String := "media-session"

def clampInt (value : Option JsNumber) (fallback least most : Int) : JsNumber :=
  match value with
  | some (.integer value) => .integer (min most (max least value))
  | _ => .integer fallback

def buildSessionStreamConfig (override : StreamRateOptions) : StreamRateOptions where
  windowMs := some (.integer 1000)
  maxMessagesPerSecond := some (clampInt override.maxMessagesPerSecond 60 1 120)
  maxBytesPerSecond := some (clampInt override.maxBytesPerSecond (64 * 1024) 1024 (1024 * 1024))

def MediaState.findSessionForPeer (state : MediaState) (peerId : String) : Option SessionState :=
  state.sessions.values.find? fun session => decide (session.peerId = peerId)

def MediaState.sessionCount (state : MediaState) : Nat :=
  state.sessions.keys.length

def requestSession (state : MediaState) (peerId kind : JsValue) (telemetry : StreamRateOptions) :
    MediaTurn :=
  if ¬isPeerId (peerIdOf peerId) then refuse state "unauthorized"
  else if (state.findSessionForPeer (peerIdOf peerId)).isSome then
    refuse state "session already open"
  else if maxSessions ≤ state.sessionCount then refuse state "too many sessions"
  else (state, .sessionAccess (peerIdOf peerId) (kindOf kind) telemetry, [])

def MediaState.newSessionId (state : MediaState) : String :=
  callIdText (settings.randomUUID state.drawn)

/-- `requestSession` from the answer to its confirmation on. -/
def openSession (state : MediaState) (peerId : String) (kind : MediaKind)
    (telemetry : StreamRateOptions) (now : Int) : MediaTurn :=
  let config := buildSessionStreamConfig telemetry
  let sessionId := state.newSessionId settings
  let channelId := mediaSessionChannelPrefix ++ ":" ++ sessionId
  let drew := { state with drawn := state.drawn + 1 }
  match state.telemetryGate.registerStream peerId channelId config now with
  | .error _ => finish drew .threw
  | .ok telemetryGate =>
    ({ drew with
        telemetryGate := telemetryGate
        sessions := state.sessions.set sessionId
          ⟨sessionId, peerId, kind, channelId, config, 0, 0, 0⟩ },
      .finished (.opened sessionId peerId kind channelId),
      [.insertedSession sessionId peerId kind])

def closeSession (state : MediaState) (sessionId : String) : MediaTurn :=
  match state.sessions.get sessionId with
  | none => refuse state "no such session"
  | some session =>
    finish { state with
        telemetryGate := state.telemetryGate.closeStream session.peerId session.channelId
        sessions := state.sessions.delete sessionId }
      (.closed 1)

def consumeStreamFrame (state : MediaState) (sessionId : String) (byteSize : Nat) (now : Int) :
    MediaState × Option FrameDenial :=
  match state.sessions.get sessionId with
  | none => (state, some .noSession)
  | some session =>
    let consumed := state.telemetryGate.checkAndConsume session.peerId session.channelId
      (.integer byteSize) now
    let counted (counts : SessionState) : MediaState :=
      { state with
        telemetryGate := consumed.1
        sessions := state.sessions.set sessionId counts }
    match consumed.2 with
    | .error (.peerStreamViolation _ _) =>
      (counted { session with
        violations := session.violations + 1, dropped := session.dropped + 1 },
        some (.stream .streamViolation))
    | .error _ => (counted session, some .invalid)
    | .ok .allowed => (counted { session with frames := session.frames + 1 }, none)
    | .ok (.denied reason) =>
      (counted { session with dropped := session.dropped + 1 }, some (.stream reason))

def handleCandidate (state : MediaState) (payload : JsValue) (invoker : Option String)
    (now : Int) : MediaTurn :=
  receive state payload invoker parseCandidate (refuse state) fun peerId message =>
    match state.findSessionForPeer peerId with
    | some session =>
      let consumed := consumeStreamFrame state session.sessionId (candidateBytes message) now
      (consumed.1, .candidateVerdict peerId message consumed.2, [])
    | none => (state, .candidateAccess peerId message, [])

def CallState.pushCandidate (candidate : IceCandidate) (call : CallState) : CallState :=
  let candidates := call.remoteCandidates ++ [candidate]
  { call with
    remoteCandidates :=
      if maxCandidatesPerCall < candidates.length then candidates.tail else candidates }

/-- `handleCandidate` when the frame may pass. -/
def storeCandidate (state : MediaState) (peerId : String) (message : SignalCandidate) : MediaTurn :=
  match state.callUnder message.callId with
  | none => refuse state "no such call"
  | some (place, call) =>
    if call.peerId ≠ peerId then refuse state "no such call"
    else
      finish (state.modifyObject place (.pushCandidate message.candidate)) (.handled message.callId)

end

variable (settings : MediaSettings)

def MediaAction.perform (state : MediaState) : MediaAction → MediaTurn
  | initiateCall peerId kind => Media.initiateCall state peerId kind
  | handleOffer payload invoker => Media.handleOffer state payload invoker
  | handleAnswer payload invoker => Media.handleAnswer state payload invoker
  | handleCandidate payload invoker now => Media.handleCandidate state payload invoker now
  | requestSession peerId kind telemetry => Media.requestSession state peerId kind telemetry
  | closeSession sessionId => Media.closeSession state sessionId
  | hangup peerId => Media.hangup state (peerIdOf peerId)
  | resolveMediaAccess requestId granted => Media.resolveMediaAccess state requestId granted
  | accessTimeout waiter => Media.accessTimeout state waiter
  | answerTimeout place => Media.answerTimeout state place

def MediaPhase.decided (state : MediaState) (phase : MediaPhase) (decision : PeerAccessDecision) :
    Option MediaTurn :=
  match phase, decision with
  | initiatorAccess _ _, .denied reason => some (finish state (.refused "unauthorized" (some reason)))
  | initiatorAccess peerId kind, .granted _ =>
    some (askAfterGate settings state peerId kind .outbound (.initiatorConfirming peerId kind))
  | offerAccess _ _, .denied _ => some (denyOffer state "unauthorized")
  | offerAccess peerId offer, .granted _ => some (offerGranted settings state peerId offer)
  | answerAccess _ _, .denied _ => some (refuse state "unauthorized")
  | answerAccess peerId answer, .granted _ => some (answerGranted state peerId answer)
  | candidateAccess _ _, .denied _ => some (refuse state "unauthorized")
  | candidateAccess peerId message, .granted _ => some (storeCandidate state peerId message)
  | sessionAccess _ _ _, .denied reason =>
    some (finish state (.refused "unauthorized" (some reason)))
  | sessionAccess peerId kind telemetry, .granted _ =>
    some (askAfterGate settings state peerId kind .outbound
      (.sessionConfirming peerId kind telemetry))
  | _, _ => none

def MediaPhase.proceed (state : MediaState) (now : Int) : MediaPhase → Option MediaTurn
  | initiatorConfirming peerId kind _ =>
    some (if settings.hasNetwork then sendOffer settings state peerId kind
      else refuse state "networking unavailable")
  | offerConfirming peerId offer _ =>
    some (if settings.hasNetwork then sendAnswer state peerId offer
      else denyOffer state "networking unavailable")
  | sessionConfirming peerId kind telemetry _ =>
    some (openSession settings state peerId kind telemetry now)
  | _ => none

/-- The promise of a confirmation that a request awaits. -/
def MediaPhase.waiter? : MediaPhase → Option Nat
  | initiatorConfirming _ _ waiter => some waiter
  | offerConfirming _ _ waiter => some waiter
  | sessionConfirming _ _ _ waiter => some waiter
  | _ => none

/-- A request whose confirmation was refused or ran out. -/
def MediaPhase.decline (state : MediaState) : MediaPhase → MediaTurn
  | offerConfirming _ _ _ => denyOffer state "media-access-denied"
  | _ => refuse state "media-access-denied"

def MediaPhase.awaited (state : MediaState) (phase : MediaPhase) (now : Int) : Option MediaTurn :=
  match phase with
  | awaitingAnswer place =>
    (state.objects[place]?).bind fun call =>
      call.answer.map fun answer => answerSettled state place call answer
  | candidateVerdict peerId message none => some (storeCandidate state peerId message)
  | candidateVerdict _ _ (some denial) => some (finish state (.dropped denial))
  | phase =>
    (phase.waiter?).bind fun waiter =>
      (state.confirmed waiter).bind fun granted =>
        if granted then phase.proceed settings state now else some (phase.decline state)

def MediaPhase.delivered (state : MediaState) (phase : MediaPhase)
    (outcome : Outcome SendResult) : Option MediaTurn :=
  match phase with
  | offering place =>
    (state.objects[place]?).map fun call => offerSent state place call outcome
  | answering place =>
    (state.objects[place]?).map fun call => answerSent state place call outcome
  | _ => none

def mediaProgram : AsyncCalls.Program MediaState MediaAction MediaPhase MediaReply MediaEvent where
  launch state action :=
    let turn := action.perform state
    (turn.1, some (turn.2.1, turn.2.2))
  resume state phase
    | .access decision => phase.decided settings state decision
    | .settled now => phase.awaited settings state now
    | .sent outcome => phase.delivered state outcome

theorem mediaProgram_leaves (state : MediaState) (action : MediaAction) :
    ((mediaProgram settings).launch state action).2.isSome :=
  rfl

end P2PHub.Media
