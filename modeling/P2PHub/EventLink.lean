import P2PHub.NumberedLink
import P2PHub.RemoteEventAdapterRuns
import P2PHub.SubscriptionHubRuns

/-!
# A hub and an adapter on a reliable ordered network

The hub numbers the frames of a subscription and the adapter drops a frame
whose number it has passed.  The hub forgets the counter when it removes the
subscription; the adapter keeps the last number across a refresh.  Requests,
acknowledgements and frames travel in order, each kind by itself, and other
peers may use the hub at the same time.
-/

namespace P2PHub

open AsyncCalls NumberedLink

structure LinkSettings where
  hub : HubSettings
  adapterPeerId : String

/-- Both parties and what is in flight between them.  Requests and
acknowledgements carry the call of the adapter they belong to, and `served`
tells which call of the hub serves which of them. -/
structure EventLink where
  hub : HubPool
  adapter : AdapterPool
  requests : List (Nat × SubReqBody)
  served : List (Nat × Nat)
  acks : List (Nat × SubAckBody)
  frames : List EventEmitBody

inductive LinkLabel
  | hub (label : HubLabel)
  | adapter (action : AdapterAction)
  | deliverRequest (now : Int)
  | deliverAck (now : Int)
  | deliverEvent (now : Int)

inductive LinkEvent
  | hub (output : Nat × HubEvent)
  | adapter (output : Nat × AdapterEvent)

def acksFrom (served : List (Nat × Nat)) (outputs : List (Nat × HubEvent)) :
    List (Nat × SubAckBody) :=
  outputs.filterMap fun output => match output.2 with
    | .subAck _ _ ack => (served.lookup output.1).map (·, ack)
    | _ => none

/-- The frames that outputs of the hub hand to the adapter. -/
def framesFrom (adapterPeerId : String) (outputs : List (Nat × HubEvent)) : List EventEmitBody :=
  outputs.filterMap fun output => match output.2 with
    | .sendEvent subscriber frame _ =>
      if subscriber.peerId = adapterPeerId then some frame else none
    | _ => none

def numbersOf (frames : List EventEmitBody) (subscriptionId : String) : List Nat :=
  (frames.filter fun frame => decide (frame.subscriptionId = subscriptionId)).map
    EventEmitBody.sequenceNumber

namespace LinkSettings

/-- What happens at the hub without a request of the adapter. -/
def foreign (settings : LinkSettings) : HubLabel → Bool
  | .launch (.handleSubReq peerId _ _) => decide (peerId ≠ settings.adapterPeerId)
  | _ => true

/-- What happens at the adapter without a message of the hub. -/
def native (settings : LinkSettings) : AdapterAction → Bool
  | .subscribeRemote peer _ _ => decide (peer.peerId = some settings.hub.selfPeerId)
  | .handleInboundEvent _ _ _ => false
  | _ => true

end LinkSettings

namespace EventLink

def initial (hub : SubscriptionHub) (adapter : RemoteEventAdapter) : EventLink where
  hub := .initial hub
  adapter := .initial adapter
  requests := []
  served := []
  acks := []
  frames := []

def hubTurn (settings : LinkSettings) (link : EventLink) (label : HubLabel) :
    Option (EventLink × List LinkEvent) :=
  ((hubProgram settings.hub).step link.hub label).map fun (hub, outputs) =>
    ({ link with
      hub := hub
      acks := link.acks ++ acksFrom link.served outputs
      frames := link.frames ++ framesFrom settings.adapterPeerId outputs },
      outputs.map LinkEvent.hub)

def adapterTurn (link : EventLink) (label : AdapterLabel) : Option (EventLink × List LinkEvent) :=
  (adapterProgram.step link.adapter label).map fun (adapter, outputs) =>
    ({ link with
      adapter := adapter
      requests := link.requests ++ requestsFrom outputs },
      outputs.map LinkEvent.adapter)

def step (settings : LinkSettings) (link : EventLink) :
    LinkLabel → Option (EventLink × List LinkEvent)
  | .hub label => if settings.foreign label then link.hubTurn settings label else none
  | .adapter action => if settings.native action then link.adapterTurn (.launch action) else none
  | .deliverRequest now =>
    match link.requests with
    | [] => none
    | (call, body) :: requests =>
      hubTurn settings { link with
          requests := requests
          served := (link.hub.calls.length, call) :: link.served }
        (.launch (.handleSubReq settings.adapterPeerId body now))
  | .deliverAck now =>
    match link.acks with
    | [] => none
    | (call, ack) :: acks =>
      adapterTurn { link with acks := acks } (.resume call ⟨some ack, now⟩)
  | .deliverEvent now =>
    match link.frames with
    | [] => none
    | frame :: frames =>
      adapterTurn { link with frames := frames }
        (.launch (.handleInboundEvent settings.hub.selfPeerId frame now))

/-- The number that the hub gave out last for an id of the adapter. -/
def counter (settings : LinkSettings) (link : EventLink) (subscriptionId : String) : Nat :=
  (link.hub.shared.sequences.get (keyFor settings.adapterPeerId subscriptionId)).getD 0

/-- The adapter uses the id, and a number has been seen or is in flight. -/
def Numbered (link : EventLink) (subscriptionId : String) : Prop :=
  occupancy link.adapter subscriptionId ≠ 0 ∧
    (lastSeen link.adapter.shared subscriptionId ≠ 0 ∨ numbersOf link.frames subscriptionId ≠ [])

structure Fresh (link : EventLink) (subscriptionId : String) : Prop where
  unused : occupancy link.adapter subscriptionId = 0
  unsent : numbersOf link.frames subscriptionId = []
  unrequested : ∀ request ∈ link.requests, request.2.subscriptionId ≠ subscriptionId

end EventLink

def SubscriptionHub.Expired (hub : SubscriptionHub) (key : String) (now : Int) : Prop :=
  ∃ subscription, hub.subscriptions.get key = some subscription ∧ subscription.expiresAt ≤ now

/-- The entry point removes the subscription under a key, and its counter. -/
def HubAction.Cuts (hub : SubscriptionHub) (key : String) : HubAction → Prop
  | .setExposedEvents _ => False
  | .registerSubscriptionGuard _ => False
  | .handleSubReq peerId body now => hub.Expired key now ∨
      (body.action = .unsubscribe ∧ keyFor peerId body.subscriptionId = key)
  | .emitLocal topic _ sweepNow _ => hub.isExposed topic = true ∧ hub.Expired key sweepNow
  | .listSubscriptions now => hub.Expired key now
  | .sweep now => hub.Expired key now
  | .close => True

/-- The condition on a run: random ids are fresh, and the hub removes no
subscription whose numbers the adapter has seen or will see. -/
def Undisturbed (settings : LinkSettings) (_ : List LinkEvent) (link : EventLink) : LinkLabel → Prop
  | .hub (.launch action) => ∀ subscriptionId, link.Numbered subscriptionId →
      ¬ action.Cuts link.hub.shared (keyFor settings.adapterPeerId subscriptionId)
  | .hub (.resume _ _) => True
  | .adapter (.subscribeRemote _ _ subscriptionId) => link.Fresh subscriptionId
  | .adapter _ => True
  | .deliverRequest now => ∀ subscriptionId, link.Numbered subscriptionId →
      ¬ link.hub.shared.Expired (keyFor settings.adapterPeerId subscriptionId) now
  | .deliverAck _ => True
  | .deliverEvent _ => True

end P2PHub
