import P2PHub.EventTopics
import P2PHub.PeerAccessGate
import P2PHub.TelemetryGateRuns

/-!
# The subscription hub

Remote subscriptions to local events and the fan-out to the subscribers, after
`core/src/events/subscription-hub.ts`.  `handleSubReq` and `emitLocal` are cut
at their awaits.  The answers of lookups, guards and the network and every
reading of a clock come with the labels; the hub and its gate have clocks of
their own.
-/

namespace P2PHub

structure NetworkPeer where
  id : String
  peerId : Option String
  deriving DecidableEq, Repr

inductive SubscriptionAction
  | subscribe
  | unsubscribe
  deriving DecidableEq, Repr

structure SubReqBody where
  subscriptionId : String
  topic : String
  action : SubscriptionAction
  ttlMs : Option Int := none
  deriving DecidableEq, Repr

inductive SubAckReason
  | topicNotExposed
  | notAuthorized
  | subscriptionCap
  | subscriptionNotFound
  | peerNotResolvable
  deriving DecidableEq, Repr

structure SubAckBody where
  subscriptionId : String
  topic : String
  accepted : Bool
  reason : Option SubAckReason := none
  ttlMs : Option Int := none
  deriving DecidableEq, Repr

structure EventEmitBody where
  subscriptionId : String
  topic : String
  publisherPeerId : String
  timestamp : Int
  sequenceNumber : Nat
  payload : JsValue

structure PeerSubscription where
  peerId : String
  peer : NetworkPeer
  subscriptionId : String
  topic : String
  ttlMs : Int
  expiresAt : Int
  deriving DecidableEq, Repr

def PeerSubscription.key (subscription : PeerSubscription) : String :=
  keyFor subscription.peerId subscription.subscriptionId

def maxSubscriptionsPerPeer : Nat := 64

def maxSubscriptionsPerTopic : Nat := 128

def maxSubscriptionTtlMs : Int := 300000

def defaultSubscriptionTtlMs : Int := 60000

def grantedTtl (body : SubReqBody) : Int :=
  min (max (body.ttlMs.getD defaultSubscriptionTtlMs) 1) maxSubscriptionTtlMs

/-- The readonly fields of a hub.  The resolver of rate overrides gets the
moment at which it is asked. -/
structure HubSettings where
  selfPeerId : String
  peerAccess : PeerAccessOptions := { modes := some [some .openLan] }
  peerAccessContext : Option PeerAccessContext := none
  peerRateLimit : Option (Nat → String → Outcome (Option JsNumber)) := none

/-- The fields that change.  A guard is known by its namespace. -/
structure SubscriptionHub where
  exposed : List String
  subscriptions : OrderedMap String PeerSubscription
  sequences : OrderedMap String Nat
  guards : OrderedMap String Unit
  emitGate : ClockedGate
  appliedCustomRate : OrderedMap String Nat

namespace SubscriptionHub

def setExposedEvents (hub : SubscriptionHub) (events : List String) : SubscriptionHub :=
  { hub with exposed := events.filter isEventTopic }

def new (exposedEvents : List String) (emitTelemetry : StreamRateOptions) :
    Except GateError SubscriptionHub := do
  let gate ← TelemetryGate.new emitTelemetry
  let hub : SubscriptionHub :=
    { exposed := exposedEvents.filter isEventTopic
      subscriptions := .empty
      sequences := .empty
      guards := .empty
      emitGate := ⟨gate, 0⟩
      appliedCustomRate := .empty }
  return hub

def registerSubscriptionGuard (hub : SubscriptionHub) (guarded : String) :
    Except String SubscriptionHub :=
  if [':'].isSuffixOf guarded.toList then
    .ok { hub with guards := hub.guards.set guarded () }
  else .error "subscription guard namespace must be non-empty and end with \":\""

def isExposed (hub : SubscriptionHub) (topic : String) : Bool :=
  hub.exposed.contains topic ||
    hub.exposed.any fun entry => isWildcardTopic entry && topicMatches entry topic

/-- Prune the subscriptions that have expired, with their sequences. -/
def sweep (hub : SubscriptionHub) (now : Int) : SubscriptionHub :=
  { hub with
    subscriptions := hub.subscriptions.deleteWhere fun _ subscription =>
      decide (subscription.expiresAt ≤ now)
    sequences := hub.sequences.deleteWhere fun key _ =>
      (hub.subscriptions.get key).any fun subscription =>
        decide (subscription.expiresAt ≤ now) }

def listSubscriptions (hub : SubscriptionHub) (now : Int) : List PeerSubscription :=
  (hub.sweep now).subscriptions.values

def close (hub : SubscriptionHub) : SubscriptionHub :=
  { hub with subscriptions := hub.subscriptions.clear, sequences := hub.sequences.clear }

def countForPeer (hub : SubscriptionHub) (peerId : String) : Nat :=
  hub.subscriptions.values.countP fun subscription => decide (subscription.peerId = peerId)

def countForTopic (hub : SubscriptionHub) (topic : String) : Nat :=
  hub.subscriptions.values.countP fun subscription => decide (subscription.topic = topic)

/-- The override that the resolver yields, when it counts. -/
def customRate (settings : HubSettings) (moment : Nat) (peerId : String) : Option Nat :=
  match settings.peerRateLimit with
  | none => none
  | some peerRateLimit =>
    match peerRateLimit moment peerId with
    | .resolved (some custom) => custom.positive?.map Subtype.val
    | _ => none

/-- Install a changed override on the channel about to be used.  An error of
the gate drops the frame. -/
def applyPeerRateLimit (settings : HubSettings) (hub : SubscriptionHub) (peerId topic : String)
    (moment : Nat) (registerNow : Int) : SubscriptionHub × Bool :=
  match customRate settings moment peerId with
  | none => (hub, true)
  | some custom =>
    if hub.appliedCustomRate.get peerId = some custom then (hub, true)
    else
      let applied := hub.appliedCustomRate.set peerId custom
      match hub.emitGate.gate.registerStream peerId topic
          { maxMessagesPerSecond := some (.integer custom) } registerNow with
      | .ok gate =>
        ({ hub with appliedCustomRate := applied, emitGate := ⟨gate, registerNow⟩ }, true)
      | .error _ => ({ hub with appliedCustomRate := applied }, false)

/-- Whether the outbound gate lets a frame to the subscriber pass. -/
def passGate (settings : HubSettings) (hub : SubscriptionHub) (peerId topic : String)
    (byteSize : Nat) (moment : Nat) (registerNow checkNow : Int) : SubscriptionHub × Bool :=
  match hub.applyPeerRateLimit settings peerId topic moment registerNow with
  | (hub, false) => (hub, false)
  | (hub, true) =>
    let (gate, result) :=
      hub.emitGate.gate.checkAndConsume peerId topic (.integer byteSize) checkNow
    ({ hub with emitGate := ⟨gate, checkNow⟩ }, decide (result = .ok .allowed))

end SubscriptionHub

/-- Where an awaited `guardsAllow` stands: asking the guard in a slot, or done. -/
inductive GuardWait
  | asking (position : Nat)
  | decided (granted : Bool)
  deriving DecidableEq, Repr

/-- The data of an `emitLocal` call. -/
structure Emission where
  topic : String
  payload : JsValue
  byteSize : Nat
  now : Int
  delivered : Nat

/-- Whether the loop does not skip an entry as expired or of another topic. -/
def Emission.reaches (emission : Emission) (subscription : PeerSubscription) : Bool :=
  decide (emission.now < subscription.expiresAt) && topicMatches subscription.topic emission.topic

/-- Where `emitLocal` is suspended; `cursor` is the position of its iterator
over the subscriptions. -/
inductive EmitPhase
  | guarding (cursor : Nat) (subscription : PeerSubscription) (wait : GuardWait)
  | sending (cursor : Nat)
  | returned
  | threw

inductive SubscribePhase
  | checkingPeer
  | guarding (wait : GuardWait)
  | answered

inductive HubCall
  | emitting (emission : Emission) (phase : EmitPhase)
  | subscribing (peerId : String) (body : SubReqBody) (phase : SubscribePhase)

inductive HubAction
  | setExposedEvents (events : List String)
  | registerSubscriptionGuard (guarded : String)
  | handleSubReq (peerId : String) (body : SubReqBody) (now : Int)
  | emitLocal (topic : String) (payload : JsValue) (sweepNow now : Int)
  | listSubscriptions (now : Int)
  | sweep (now : Int)
  | close

inductive HubAnswer
  | access (moment : Nat)
  | guard (outcome : Outcome Bool)
  | commit (peer : Option NetworkPeer) (now : Int)
  | dispatch (moment : Nat) (registerNow checkNow : Int)
  | sent (outcome : Outcome Bool)

/-- What can be observed of the hub's calls.  A sent frame carries the reading
of the gate's clock under which it was allowed. -/
inductive HubEvent
  | sendEvent (subscriber : PeerSubscription) (frame : EventEmitBody) (checked : Int)
  | subAck (peerId : String) (body : SubReqBody) (ack : SubAckBody)
  | topicNotExposed (topic : String)
  | delivered (count : Nat)

/-- What one stretch of a call between two awaits does. -/
structure HubStep where
  hub : SubscriptionHub
  call : HubCall
  events : List HubEvent

section

variable (settings : HubSettings) (hub : SubscriptionHub)

def askGuard (topic : String) (position : Nat) : GuardWait :=
  match hub.guards.nextFrom position fun guarded _ => guarded.toList.isPrefixOf topic.toList with
  | some (found, _) => .asking found
  | none => .decided true

/-- The wait after a guard's answer; a failing guard denies. -/
def answerGuard (topic : String) (position : Nat) (outcome : Outcome Bool) : GuardWait :=
  if evaluateBool outcome then askGuard hub topic (position + 1) else .decided false

/-- The loop of `emitLocal` from an iterator position to the next await. -/
def seekSubscriber (emission : Emission) (cursor : Nat) : HubStep :=
  match hub.subscriptions.nextFrom cursor fun _ subscription => emission.reaches subscription with
  | none => ⟨hub, .emitting emission .returned, [.delivered emission.delivered]⟩
  | some (position, _, subscription) =>
    ⟨hub, .emitting emission
      (.guarding (position + 1) subscription (askGuard hub emission.topic 0)), []⟩

def dispatchEvent (emission : Emission) (cursor : Nat) (subscription : PeerSubscription)
    (moment : Nat) (registerNow checkNow : Int) : HubStep :=
  let (charged, allowed) := hub.passGate settings subscription.peerId emission.topic
    emission.byteSize moment registerNow checkNow
  if allowed then
    let sequenceNumber := (charged.sequences.get subscription.key).getD 0 + 1
    let frame : EventEmitBody :=
      { subscriptionId := subscription.subscriptionId
        topic := emission.topic
        publisherPeerId := settings.selfPeerId
        timestamp := emission.now
        sequenceNumber := sequenceNumber
        payload := emission.payload }
    { hub := { charged with sequences := charged.sequences.set subscription.key sequenceNumber }
      call := .emitting emission (.sending cursor)
      events := [.sendEvent subscription frame checkNow] }
  else seekSubscriber charged emission cursor

/-- `emitLocal` up to its first await. -/
def emitLocal (topic : String) (payload : JsValue) (sweepNow now : Int) : HubStep :=
  let emission (byteSize : Nat) : Emission :=
    { topic := topic, payload := payload, byteSize := byteSize, now := now, delivered := 0 }
  if !hub.isExposed topic then
    ⟨hub, .emitting (emission 0) .threw, [.topicNotExposed topic]⟩
  else
    let swept := hub.sweep sweepNow
    match safeByteSize payload with
    | none => ⟨swept, .emitting (emission 0) .returned, [.delivered 0]⟩
    | some byteSize => seekSubscriber swept (emission byteSize) 0

/-- `emitLocal` from one await to the next. -/
def resumeEmit (emission : Emission) : EmitPhase → HubAnswer → Option HubStep
  | .guarding cursor subscription (.asking position), .guard outcome =>
    some ⟨hub, .emitting emission (.guarding cursor subscription
      (answerGuard hub emission.topic position outcome)), []⟩
  | .guarding cursor _ (.decided false), .dispatch _ _ _ =>
    some (seekSubscriber hub emission cursor)
  | .guarding cursor subscription (.decided true), .dispatch moment registerNow checkNow =>
    some (dispatchEvent settings hub emission cursor subscription moment registerNow checkNow)
  | .sending cursor, .sent (.resolved flushed) =>
    some (seekSubscriber hub
      { emission with delivered := emission.delivered + flushed.toNat } cursor)
  | .sending _, .sent .failed => some ⟨hub, .emitting emission .threw, []⟩
  | _, _ => none

def answerSubReq (peerId : String) (body : SubReqBody) (ack : SubAckBody) : HubStep :=
  ⟨hub, .subscribing peerId body .answered, [.subAck peerId body ack]⟩

def rejectSubReq (peerId : String) (body : SubReqBody) (reason : SubAckReason) : HubStep :=
  answerSubReq hub peerId body
    { subscriptionId := body.subscriptionId
      topic := body.topic
      accepted := false
      reason := some reason }

def handleUnsubscribe (peerId : String) (body : SubReqBody) : HubStep :=
  let key := keyFor peerId body.subscriptionId
  if hub.subscriptions.get key = none then
    rejectSubReq hub peerId body .subscriptionNotFound
  else
    answerSubReq { hub with
        subscriptions := hub.subscriptions.delete key
        sequences := hub.sequences.delete key }
      peerId body
      { subscriptionId := body.subscriptionId, topic := body.topic, accepted := true }

/-- `handleSubReq` up to its first await. -/
def handleSubReq (peerId : String) (body : SubReqBody) (now : Int) : HubStep :=
  let swept := hub.sweep now
  match body.action with
  | .unsubscribe => handleUnsubscribe swept peerId body
  | .subscribe =>
    if !isEventTopic body.topic then rejectSubReq swept peerId body .topicNotExposed
    else if settings.selfPeerId = peerId then rejectSubReq swept peerId body .notAuthorized
    else ⟨swept, .subscribing peerId body .checkingPeer, []⟩

def grantedSubscription (peerId : String) (body : SubReqBody) (peer : NetworkPeer) (now : Int) :
    PeerSubscription where
  peerId := peerId
  peer := peer
  subscriptionId := body.subscriptionId
  topic := body.topic
  ttlMs := grantedTtl body
  expiresAt := now + grantedTtl body

/-- The end of `handleSubscribe`: caps, reachability, registration. -/
def commitSubscription (peerId : String) (body : SubReqBody) (peer : Option NetworkPeer)
    (now : Int) : HubStep :=
  if hub.countForPeer peerId ≥ maxSubscriptionsPerPeer then
    rejectSubReq hub peerId body .subscriptionCap
  else if hub.countForTopic body.topic ≥ maxSubscriptionsPerTopic then
    rejectSubReq hub peerId body .subscriptionCap
  else
    match peer with
    | none => rejectSubReq hub peerId body .peerNotResolvable
    | some peer =>
      answerSubReq { hub with
          subscriptions := hub.subscriptions.set (keyFor peerId body.subscriptionId)
            (grantedSubscription peerId body peer now) }
        peerId body
        { subscriptionId := body.subscriptionId
          topic := body.topic
          accepted := true
          ttlMs := some (grantedTtl body) }

/-- `handleSubscribe` from one await to the next. -/
def resumeSubscribe (peerId : String) (body : SubReqBody) :
    SubscribePhase → HubAnswer → Option HubStep
  | .checkingPeer, .access moment =>
    let decision := checkPeerAccess moment (some peerId) (some settings.peerAccess)
      settings.peerAccessContext
    if !decision.isGranted then some (rejectSubReq hub peerId body .notAuthorized)
    else if !isWildcardTopic body.topic && !hub.isExposed body.topic then
      some (rejectSubReq hub peerId body .topicNotExposed)
    else some ⟨hub, .subscribing peerId body (.guarding (askGuard hub body.topic 0)), []⟩
  | .guarding (.asking position), .guard outcome =>
    some ⟨hub, .subscribing peerId body
      (.guarding (answerGuard hub body.topic position outcome)), []⟩
  | .guarding (.decided false), .commit _ _ =>
    some (rejectSubReq hub peerId body .notAuthorized)
  | .guarding (.decided true), .commit peer now =>
    some (commitSubscription hub peerId body peer now)
  | _, _ => none

def resumeHub (call : HubCall) (answer : HubAnswer) : Option HubStep :=
  match call with
  | .emitting emission phase => resumeEmit settings hub emission phase answer
  | .subscribing peerId body phase => resumeSubscribe settings hub peerId body phase answer

end

def HubStep.left (step : HubStep) : SubscriptionHub × Option (HubCall × List HubEvent) :=
  (step.hub, some (step.call, step.events))

def hubProgram (settings : HubSettings) :
    AsyncCalls.Program SubscriptionHub HubAction HubCall HubAnswer HubEvent where
  launch hub
    | .setExposedEvents events => (hub.setExposedEvents events, none)
    | .registerSubscriptionGuard guarded =>
      match hub.registerSubscriptionGuard guarded with
      | .ok after => (after, none)
      | .error _ => (hub, none)
    | .handleSubReq peerId body now => (handleSubReq settings hub peerId body now).left
    | .emitLocal topic payload sweepNow now => (emitLocal hub topic payload sweepNow now).left
    | .listSubscriptions now => (hub.sweep now, none)
    | .sweep now => (hub.sweep now, none)
    | .close => (hub.close, none)
  resume hub call answer :=
    (resumeHub settings hub call answer).map fun step => (step.hub, step.call, step.events)

end P2PHub
