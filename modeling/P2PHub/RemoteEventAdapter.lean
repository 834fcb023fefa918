import P2PHub.SubscriptionHub

/-!
# The remote event adapter

Local subscriptions towards the hub of a remote peer, after
`core/src/events/remote-event-adapter.ts`.  `subscribeRemote`,
`unsubscribeRemote` and `refresh` each await one answer of the network.  A
refresh timer may fire at any moment, so the refresh fraction, which only sets
its delay, is left out.
-/

namespace P2PHub

def SubAckReason.text : SubAckReason → String
  | topicNotExposed => "topic-not-exposed"
  | notAuthorized => "not-authorized"
  | subscriptionCap => "subscription-cap"
  | subscriptionNotFound => "subscription-not-found"
  | peerNotResolvable => "peer-not-resolvable"

structure RemoteSubscription where
  subscriptionId : String
  peerId : String
  peer : NetworkPeer
  topic : String
  expiresAt : Int
  lastSequenceNumber : Nat
  deriving DecidableEq, Repr

/-- The event that a handler is called with. -/
structure RemoteEvent where
  peerId : String
  subscriptionId : String
  topic : String
  timestamp : Int
  sequenceNumber : Nat
  payload : JsValue

structure RemoteEventAdapter where
  requestedTtlMs : Int
  subscriptions : OrderedMap String RemoteSubscription
  timers : OrderedMap String Unit
  gate : ClockedGate

structure RemoteEventAdapterOptions where
  telemetry : StreamRateOptions := {}
  subscriptionTtlMs : Option Int := none

inductive AdapterAction
  | subscribeRemote (peer : NetworkPeer) (topic : String) (subscriptionId : String)
  | unsubscribeRemote (subscriptionId : String)
  | handleInboundEvent (peerId : String) (body : EventEmitBody) (now : Int)
  | refresh (subscriptionId : String)
  | close

/-- Where a call awaits the answer to its request.  `subscriptionId` of a
subscribing call is the random one. -/
inductive AdapterCall
  | subscribing (peer : NetworkPeer) (peerId topic subscriptionId : String)
  | unsubscribing
  | refreshing (subscriptionId : String)
  | finished
  deriving DecidableEq, Repr

/-- The acknowledgement, or `null`, with the reading of the clock after it. -/
structure AdapterAnswer where
  ack : Option SubAckBody
  now : Int

inductive AdapterEvent
  | sendSubReq (peer : NetworkPeer) (body : SubReqBody)
  | subscribed (subscriptionId : String)
  | subscriptionRejected (subscriptionId topic reason : String)
  | unsubscribed (found : Bool)
  | subscriptionLost (subscriptionId reason : String)
  | handled (event : RemoteEvent)

structure AdapterStep where
  adapter : RemoteEventAdapter
  call : AdapterCall
  events : List AdapterEvent

namespace RemoteEventAdapter

def new (options : RemoteEventAdapterOptions) : Except GateError RemoteEventAdapter := do
  let gate ← TelemetryGate.new options.telemetry
  let adapter : RemoteEventAdapter :=
    { requestedTtlMs :=
        min (max (options.subscriptionTtlMs.getD defaultSubscriptionTtlMs) 1) maxSubscriptionTtlMs
      subscriptions := .empty
      timers := .empty
      gate := ⟨gate, 0⟩ }
  return adapter

def teardown (adapter : RemoteEventAdapter) (subscriptionId : String) : RemoteEventAdapter :=
  { adapter with
    timers := adapter.timers.delete subscriptionId
    subscriptions := adapter.subscriptions.delete subscriptionId }

def scheduleRefresh (adapter : RemoteEventAdapter) (subscriptionId : String) : RemoteEventAdapter :=
  { adapter with timers := adapter.timers.set subscriptionId () }

def close (adapter : RemoteEventAdapter) : RemoteEventAdapter :=
  { adapter with
    timers := adapter.timers.clear
    subscriptions := adapter.subscriptions.clear
    gate := ⟨adapter.gate.gate.reset, adapter.gate.clock⟩ }

/-- The lifetime that an accepting acknowledgement grants. -/
def grantedTtlMs (adapter : RemoteEventAdapter) (ack : SubAckBody) : Int :=
  match ack.ttlMs with
  | some ttlMs => if 0 < ttlMs then ttlMs else adapter.requestedTtlMs
  | none => adapter.requestedTtlMs

def subscribeBody (adapter : RemoteEventAdapter) (subscriptionId topic : String) : SubReqBody where
  subscriptionId := subscriptionId
  topic := topic
  action := .subscribe
  ttlMs := some adapter.requestedTtlMs

end RemoteEventAdapter

section

variable (adapter : RemoteEventAdapter)

/-- `subscribeRemote` up to its await. -/
def subscribeRemote (peer : NetworkPeer) (topic subscriptionId : String) : AdapterStep :=
  if !isEventTopic topic then
    ⟨adapter, .finished, [.subscriptionRejected "" topic "malformed-topic"]⟩
  else
    match (peer.peerId.getD "") with
    | "" => ⟨adapter, .finished,
        [.subscriptionRejected "" topic "peer-without-verified-identity"]⟩
    | peerId => ⟨adapter, .subscribing peer peerId topic subscriptionId,
        [.sendSubReq peer (adapter.subscribeBody subscriptionId topic)]⟩

/-- `subscribeRemote` after the answer. -/
def resumeSubscribeRemote (peer : NetworkPeer) (peerId topic subscriptionId : String)
    (answer : AdapterAnswer) : AdapterStep :=
  match answer.ack with
  | some ack =>
    if ack.accepted then
      let subscription : RemoteSubscription :=
        { subscriptionId := subscriptionId
          peerId := peerId
          peer := peer
          topic := topic
          expiresAt := answer.now + adapter.grantedTtlMs ack
          lastSequenceNumber := 0 }
      let subscribed : RemoteEventAdapter :=
        { adapter with subscriptions := adapter.subscriptions.set subscriptionId subscription }
      ⟨subscribed.scheduleRefresh subscriptionId, .finished, [.subscribed subscriptionId]⟩
    else
      ⟨adapter, .finished,
        [.subscriptionRejected subscriptionId topic ((ack.reason.map SubAckReason.text).getD "")]⟩
  | none => ⟨adapter, .finished, [.subscriptionRejected subscriptionId topic ""]⟩

/-- `unsubscribeRemote` up to its await. -/
def unsubscribeRemote (subscriptionId : String) : AdapterStep :=
  match adapter.subscriptions.get subscriptionId with
  | none => ⟨adapter, .finished, [.unsubscribed false]⟩
  | some subscription =>
    ⟨adapter.teardown subscriptionId, .unsubscribing, [.sendSubReq subscription.peer
        { subscriptionId := subscriptionId
          topic := subscription.topic
          action := .unsubscribe }]⟩

def dropInbound : AdapterStep :=
  ⟨adapter, .finished, []⟩

def handleInboundEvent (peerId : String) (body : EventEmitBody) (now : Int) : AdapterStep :=
  if body.publisherPeerId ≠ peerId then dropInbound adapter
  else
    match adapter.subscriptions.get body.subscriptionId with
    | none => dropInbound adapter
    | some subscription =>
      if subscription.peerId ≠ peerId then dropInbound adapter
      else if !topicMatches subscription.topic body.topic then dropInbound adapter
      else if body.sequenceNumber ≤ subscription.lastSequenceNumber then dropInbound adapter
      else
        match safeByteSize body.payload with
        | none => dropInbound adapter
        | some byteSize =>
          let (gate, result) :=
            adapter.gate.gate.checkAndConsume peerId body.topic (.integer byteSize) now
          let charged : RemoteEventAdapter := { adapter with gate := ⟨gate, now⟩ }
          match result with
          | .ok .allowed =>
            ⟨{ charged with
                subscriptions := charged.subscriptions.set body.subscriptionId
                  { subscription with lastSequenceNumber := body.sequenceNumber } },
              .finished,
              [.handled
                { peerId := peerId
                  subscriptionId := body.subscriptionId
                  topic := body.topic
                  timestamp := body.timestamp
                  sequenceNumber := body.sequenceNumber
                  payload := body.payload }]⟩
          | _ => dropInbound charged

/-- A refresh timer fires: `refresh` up to its await. -/
def refresh (subscriptionId : String) : AdapterStep :=
  let fired : RemoteEventAdapter :=
    { adapter with timers := adapter.timers.delete subscriptionId }
  match fired.subscriptions.get subscriptionId with
  | none => ⟨fired, .finished, []⟩
  | some subscription =>
    ⟨fired, .refreshing subscriptionId,
      [.sendSubReq subscription.peer (fired.subscribeBody subscriptionId subscription.topic)]⟩

/-- `refresh` after the answer.  The subscription that it renews is the one
under its id, which is random. -/
def resumeRefresh (subscriptionId : String) (answer : AdapterAnswer) : AdapterStep :=
  match answer.ack with
  | some ack =>
    if ack.accepted then
      let renewed : RemoteEventAdapter :=
        { adapter with
          subscriptions := adapter.subscriptions.rewrite fun id subscription =>
            some (if id = subscriptionId then
              { subscription with expiresAt := answer.now + adapter.grantedTtlMs ack }
            else subscription) }
      ⟨renewed.scheduleRefresh subscriptionId, .finished, []⟩
    else
      ⟨adapter.teardown subscriptionId, .finished, [.subscriptionLost subscriptionId
          ((ack.reason.map SubAckReason.text).getD "refresh-rejected")]⟩
  | none =>
    ⟨adapter.teardown subscriptionId, .finished,
      [.subscriptionLost subscriptionId "refresh-rejected"]⟩

def resumeAdapter (call : AdapterCall) (answer : AdapterAnswer) : Option AdapterStep :=
  match call with
  | .subscribing peer peerId topic subscriptionId =>
    some (resumeSubscribeRemote adapter peer peerId topic subscriptionId answer)
  | .unsubscribing => some ⟨adapter, .finished, [.unsubscribed true]⟩
  | .refreshing subscriptionId => some (resumeRefresh adapter subscriptionId answer)
  | .finished => none

end

def AdapterStep.left (step : AdapterStep) :
    RemoteEventAdapter × Option (AdapterCall × List AdapterEvent) :=
  (step.adapter, some (step.call, step.events))

/-- The adapter with its calls in flight.  Only a timer that is set fires. -/
def adapterProgram : AsyncCalls.Program RemoteEventAdapter AdapterAction AdapterCall AdapterAnswer
      AdapterEvent where
  launch adapter
    | .subscribeRemote peer topic subscriptionId =>
      (subscribeRemote adapter peer topic subscriptionId).left
    | .unsubscribeRemote subscriptionId => (unsubscribeRemote adapter subscriptionId).left
    | .handleInboundEvent peerId body now => (handleInboundEvent adapter peerId body now).left
    | .refresh subscriptionId =>
      if adapter.timers.get subscriptionId = none then (adapter, none)
      else (refresh adapter subscriptionId).left
    | .close => (adapter.close, none)
  resume adapter call answer :=
    (resumeAdapter adapter call answer).map fun step => (step.adapter, step.call, step.events)

end P2PHub
