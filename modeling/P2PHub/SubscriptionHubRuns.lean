import P2PHub.SubscriptionHub

/-!
# Turns of the subscription hub

What one turn of a hub call can do to the stores of the hub and to the call,
and what holds of every stored subscription.
-/

namespace P2PHub

open SubscriptionHub OrderedMap

/-- The subscriptions and the sequences are the same. -/
structure SameStores (before after : SubscriptionHub) : Prop where
  subscriptions : after.subscriptions = before.subscriptions
  sequences : after.sequences = before.sequences

variable {before after hub : SubscriptionHub} {exposedEvents : List String}
  {emitTelemetry : StreamRateOptions}

theorem SameStores.refl (hub : SubscriptionHub) : SameStores hub hub :=
  ⟨rfl, rfl⟩

structure SameGate (before after : SubscriptionHub) : Prop where
  emitGate : after.emitGate = before.emitGate
  appliedCustomRate : after.appliedCustomRate = before.appliedCustomRate

theorem SameGate.refl (hub : SubscriptionHub) : SameGate hub hub :=
  ⟨rfl, rfl⟩

section

variable {settings : HubSettings} {hub : SubscriptionHub} {emission : Emission} {cursor : Nat}
  {subscription : PeerSubscription} {phase : EmitPhase} {answer : HubAnswer} {step : HubStep}
  {peerId topic : String} {body : SubReqBody} {byteSize moment : Nat} {registerNow checkNow : Int}

theorem applyPeerRateLimit_sameStores :
    SameStores hub (hub.applyPeerRateLimit settings peerId topic moment registerNow).1 := by
  unfold SubscriptionHub.applyPeerRateLimit
  split
  · exact .refl hub
  · split
    · exact .refl hub
    · dsimp only
      split <;> exact ⟨rfl, rfl⟩

theorem passGate_sameStores : SameStores hub
      (hub.passGate settings peerId topic byteSize moment registerNow checkNow).1 := by
  have applied : SameStores hub
      (hub.applyPeerRateLimit settings peerId topic moment registerNow).1 :=
    applyPeerRateLimit_sameStores
  unfold passGate
  split
  · next charged same =>
      rw [same] at applied
      exact applied
  · next charged same =>
      rw [same] at applied
      exact ⟨applied.subscriptions, applied.sequences⟩

theorem seekSubscriber_hub (hub : SubscriptionHub) (emission : Emission) (cursor : Nat) :
    (seekSubscriber hub emission cursor).hub = hub := by
  unfold seekSubscriber
  split <;> rfl

theorem seekSubscriber_cases (hub : SubscriptionHub) (emission : Emission) (cursor : Nat) :
    seekSubscriber hub emission cursor =
        ⟨hub, .emitting emission .returned, [.delivered emission.delivered]⟩ ∨
      ∃ position subscription wait key, cursor ≤ position ∧
        hub.subscriptions.keyAt position = some key ∧
        hub.subscriptions.get key = some subscription ∧ emission.reaches subscription ∧
        seekSubscriber hub emission cursor =
          ⟨hub, .emitting emission (.guarding (position + 1) subscription wait), []⟩ := by
  unfold seekSubscriber
  split
  · exact Or.inl rfl
  · next position key subscription found =>
      obtain ⟨ahead, accepted, located, stored⟩ := nextFrom_sound found
      exact Or.inr ⟨position, subscription, _, key, ahead, located, stored, accepted, rfl⟩

def sentFrame (settings : HubSettings) (hub : SubscriptionHub) (emission : Emission)
    (subscription : PeerSubscription) : EventEmitBody where
  subscriptionId := subscription.subscriptionId
  topic := emission.topic
  publisherPeerId := settings.selfPeerId
  timestamp := emission.now
  sequenceNumber := (hub.sequences.get subscription.key).getD 0 + 1
  payload := emission.payload

/-- The loop body goes on past a refused frame, or sends the frame under the
next sequence number. -/
theorem dispatchEvent_cases (settings : HubSettings) (hub : SubscriptionHub)
    (emission : Emission) (cursor : Nat) (subscription : PeerSubscription) (moment : Nat)
    (registerNow checkNow : Int) :
    let passed := hub.passGate settings subscription.peerId emission.topic emission.byteSize
      moment registerNow checkNow
    (passed.2 = false ∧
      dispatchEvent settings hub emission cursor subscription moment registerNow checkNow =
        seekSubscriber passed.1 emission cursor) ∨
    (passed.2 ∧
      dispatchEvent settings hub emission cursor subscription moment registerNow checkNow =
        { hub := { passed.1 with
            sequences := hub.sequences.set subscription.key
              ((hub.sequences.get subscription.key).getD 0 + 1) }
          call := .emitting emission (.sending cursor)
          events := [.sendEvent subscription (sentFrame settings hub emission subscription)
            checkNow] }) := by
  intro passed
  have same : SameStores hub passed.1 := passGate_sameStores
  cases allowed : passed.2 with
  | false =>
    have refused : (hub.passGate settings subscription.peerId emission.topic
        emission.byteSize moment registerNow checkNow).2 = false := allowed
    refine Or.inl ⟨rfl, ?_⟩
    simp only [dispatchEvent, refused, Bool.false_eq_true, if_false]
    rfl
  | true =>
    have granted : (hub.passGate settings subscription.peerId emission.topic
        emission.byteSize moment registerNow checkNow).2 := allowed
    refine Or.inr ⟨rfl, ?_⟩
    simp only [dispatchEvent, granted, if_true, sentFrame, ← same.sequences]
    rfl

def EmitPhase.cursor? : EmitPhase → Option Nat
  | .guarding cursor _ _ => some cursor
  | .sending cursor => some cursor
  | .returned => none
  | .threw => none

/-- A turn of `emitLocal` asks the next guard, sends a frame, goes on with the
loop, or throws. -/
theorem resumeEmit_cases (resumed : resumeEmit settings hub emission phase answer = some step) :
    (∃ cursor subscription position outcome,
      phase = .guarding cursor subscription (.asking position) ∧ answer = .guard outcome ∧
      step = ⟨hub, .emitting emission (.guarding cursor subscription
        (answerGuard hub emission.topic position outcome)), []⟩) ∨
    (∃ cursor subscription moment registerNow checkNow,
      phase = .guarding cursor subscription (.decided true) ∧
      answer = .dispatch moment registerNow checkNow ∧
      step = dispatchEvent settings hub emission cursor subscription moment registerNow checkNow) ∨
    (∃ cursor delivered, phase.cursor? = some cursor ∧
      step = seekSubscriber hub { emission with delivered := delivered } cursor) ∨
    step = ⟨hub, .emitting emission .threw, []⟩ := by
  unfold resumeEmit at resumed
  split at resumed
  · next cursor subscription position outcome =>
      exact Or.inl ⟨cursor, subscription, position, outcome, rfl, rfl,
        (Option.some.inj resumed).symm⟩
  · next cursor subscription _ _ _ =>
      exact Or.inr (Or.inr (Or.inl ⟨cursor, emission.delivered, rfl,
        (Option.some.inj resumed).symm⟩))
  · next cursor subscription moment registerNow checkNow =>
      exact Or.inr (Or.inl ⟨cursor, subscription, moment, registerNow, checkNow, rfl, rfl,
        (Option.some.inj resumed).symm⟩)
  · next cursor flushed =>
      exact Or.inr (Or.inr (Or.inl ⟨cursor, emission.delivered + flushed.toNat, rfl,
        (Option.some.inj resumed).symm⟩))
  · exact Or.inr (Or.inr (Or.inr (Option.some.inj resumed).symm))
  · cases resumed

theorem emitLocal_hub (hub : SubscriptionHub) (topic : String) (payload : JsValue)
    (sweepNow now : Int) : (emitLocal hub topic payload sweepNow now).hub =
      if hub.isExposed topic then hub.sweep sweepNow else hub := by
  unfold emitLocal
  cases hub.isExposed topic with
  | false => rfl
  | true =>
    simp only [Bool.not_true, Bool.false_eq_true, if_false, if_true]
    split
    · rfl
    · exact seekSubscriber_hub _ _ _

theorem emitLocal_cases (hub : SubscriptionHub) (topic : String) (payload : JsValue)
    (sweepNow now : Int) : (∃ emission, emitLocal hub topic payload sweepNow now =
      ⟨hub, .emitting emission .threw, [.topicNotExposed topic]⟩) ∨
    (∃ emission, emitLocal hub topic payload sweepNow now =
      ⟨hub.sweep sweepNow, .emitting emission .returned, [.delivered 0]⟩) ∨
    ∃ emission, emission.topic = topic ∧ emitLocal hub topic payload sweepNow now =
      seekSubscriber (hub.sweep sweepNow) emission 0 := by
  unfold emitLocal
  split
  · exact Or.inl ⟨_, rfl⟩
  · split
    · exact Or.inr (Or.inl ⟨_, rfl⟩)
    · next byteSize _ => exact Or.inr (Or.inr ⟨_, rfl, rfl⟩)

/-- `handleSubReq` rejects, removes the subscription, or goes on to the peer
gate, having swept. -/
theorem handleSubReq_cases (settings : HubSettings) (hub : SubscriptionHub) (peerId : String)
    (body : SubReqBody) (now : Int) : (∃ reason, handleSubReq settings hub peerId body now =
      rejectSubReq (hub.sweep now) peerId body reason) ∨ (body.action = .unsubscribe ∧
      (hub.sweep now).subscriptions.get (keyFor peerId body.subscriptionId) ≠ none ∧
      handleSubReq settings hub peerId body now = answerSubReq { hub.sweep now with
            subscriptions := (hub.sweep now).subscriptions.delete
              (keyFor peerId body.subscriptionId)
            sequences := (hub.sweep now).sequences.delete (keyFor peerId body.subscriptionId) }
          peerId body
          { subscriptionId := body.subscriptionId, topic := body.topic, accepted := true }) ∨
    (body.action = .subscribe ∧ isEventTopic body.topic ∧ settings.selfPeerId ≠ peerId ∧
      handleSubReq settings hub peerId body now =
        ⟨hub.sweep now, .subscribing peerId body .checkingPeer, []⟩) := by
  unfold handleSubReq
  split
  · next action =>
      unfold handleUnsubscribe
      dsimp only
      split
      · exact Or.inl ⟨_, rfl⟩
      · next present => exact Or.inr (Or.inl ⟨action, present, rfl⟩)
  · next action =>
      split
      · exact Or.inl ⟨_, rfl⟩
      · next valid =>
          split
          · exact Or.inl ⟨_, rfl⟩
          · next foreign =>
              exact Or.inr (Or.inr ⟨action, by simpa using valid, foreign, rfl⟩)

/-- What a turn of `handleSubscribe` can do. -/
inductive SubscribeTurn (hub : SubscriptionHub) (peerId : String) (body : SubReqBody) :
    SubscribePhase → HubAnswer → SubscriptionHub → HubCall → List HubEvent → Prop
  | waiting {phase next : SubscribePhase} {answer : HubAnswer} (pending : next ≠ .answered) :
      SubscribeTurn hub peerId body phase answer hub (.subscribing peerId body next) []
  | rejected {phase : SubscribePhase} {answer : HubAnswer} {ack : SubAckBody}
      (denied : ack.accepted = false) :
      SubscribeTurn hub peerId body phase answer hub (.subscribing peerId body .answered)
        [.subAck peerId body ack]
  | granted {peer : NetworkPeer} {now : Int}
      (belowPeerCap : hub.countForPeer peerId < maxSubscriptionsPerPeer)
      (belowTopicCap : hub.countForTopic body.topic < maxSubscriptionsPerTopic) :
      SubscribeTurn hub peerId body (.guarding (.decided true)) (.commit (some peer) now)
        { hub with
          subscriptions := hub.subscriptions.set (keyFor peerId body.subscriptionId)
            (grantedSubscription peerId body peer now) }
        (.subscribing peerId body .answered)
        [.subAck peerId body
          { subscriptionId := body.subscriptionId
            topic := body.topic
            accepted := true
            ttlMs := some (grantedTtl body) }]

theorem commitSubscription_turn (hub : SubscriptionHub) (peerId : String) (body : SubReqBody)
    (peer : Option NetworkPeer) (now : Int) :
    let step := commitSubscription hub peerId body peer now
    SubscribeTurn hub peerId body (.guarding (.decided true)) (.commit peer now) step.hub
      step.call step.events := by
  unfold commitSubscription
  split
  · exact .rejected rfl
  · next belowPeerCap =>
      split
      · exact .rejected rfl
      · next belowTopicCap =>
          split
          · exact .rejected rfl
          · exact .granted (Nat.lt_of_not_le belowPeerCap) (Nat.lt_of_not_le belowTopicCap)

theorem resumeSubscribe_turn {phase : SubscribePhase}
    (resumed : resumeSubscribe settings hub peerId body phase answer = some step) :
    SubscribeTurn hub peerId body phase answer step.hub step.call step.events := by
  unfold resumeSubscribe at resumed
  split at resumed
  · dsimp only at resumed
    split at resumed
    · cases resumed
      exact .rejected rfl
    · split at resumed
      · cases resumed
        exact .rejected rfl
      · cases resumed
        exact .waiting SubscribePhase.noConfusion
  · cases resumed
    exact .waiting SubscribePhase.noConfusion
  · cases resumed
    exact .rejected rfl
  · cases resumed
    exact commitSubscription_turn hub peerId body _ _
  · cases resumed

theorem resumeSubscribe_answered :
    resumeSubscribe settings hub peerId body .answered answer = none := by
  cases answer <;> rfl

/-- What a turn of `emitLocal` can do: to the hub, to the call, and to the
outside. -/
inductive EmitTurn (settings : HubSettings) (hub : SubscriptionHub) (emission : Emission) :
    EmitPhase → SubscriptionHub → HubCall → List HubEvent → Prop
  | asked {cursor : Nat} {subscription : PeerSubscription} {position : Nat} {wait : GuardWait} :
      EmitTurn settings hub emission (.guarding cursor subscription (.asking position)) hub
        (.emitting emission (.guarding cursor subscription wait)) []
  | reached {phase : EmitPhase} {cursor position delivered : Nat} {key : String}
      {charged : SubscriptionHub} {subscription : PeerSubscription} {wait : GuardWait}
      (same : SameStores hub charged) (standing : phase.cursor? = some cursor)
      (ahead : cursor ≤ position) (located : hub.subscriptions.keyAt position = some key)
      (stored : hub.subscriptions.get key = some subscription)
      (reaches : emission.reaches subscription = true) :
      EmitTurn settings hub emission phase charged
        (.emitting { emission with delivered := delivered }
          (.guarding (position + 1) subscription wait)) []
  | ended {phase : EmitPhase} {charged : SubscriptionHub} {delivered : Nat}
      (same : SameStores hub charged) :
      EmitTurn settings hub emission phase charged
        (.emitting { emission with delivered := delivered } .returned) [.delivered delivered]
  | sent {cursor : Nat} {subscription : PeerSubscription} {charged : SubscriptionHub}
      {checkNow : Int} (same : SameStores hub charged) :
      EmitTurn settings hub emission (.guarding cursor subscription (.decided true)) { charged with
          sequences := hub.sequences.set subscription.key
            ((hub.sequences.get subscription.key).getD 0 + 1) }
        (.emitting emission (.sending cursor))
        [.sendEvent subscription (sentFrame settings hub emission subscription) checkNow]
  | thrown {phase : EmitPhase} :
      EmitTurn settings hub emission phase hub (.emitting emission .threw) []

theorem seekSubscriber_turn {charged : SubscriptionHub} {delivered : Nat}
    (same : SameStores hub charged) (standing : phase.cursor? = some cursor)
    (stepEq : step = seekSubscriber charged { emission with delivered := delivered } cursor) :
    EmitTurn settings hub emission phase step.hub step.call step.events := by
  rcases seekSubscriber_cases charged { emission with delivered := delivered } cursor with
    ended | ⟨position, subscription, wait, key, ahead, located, stored, reaches, reached⟩
  · rw [stepEq, ended]
    exact .ended same
  · rw [stepEq, reached]
    rw [same.subscriptions] at located stored
    exact .reached same standing ahead located stored reaches

theorem resumeEmit_turn (resumed : resumeEmit settings hub emission phase answer = some step) :
    EmitTurn settings hub emission phase step.hub step.call step.events := by
  rcases resumeEmit_cases resumed with
    ⟨cursor, subscription, position, outcome, rfl, rfl, rfl⟩ |
    ⟨cursor, subscription, moment, registerNow, checkNow, rfl, rfl, rfl⟩ |
    ⟨cursor, delivered, standing, stepEq⟩ | rfl
  · exact .asked
  · rcases dispatchEvent_cases settings hub emission cursor subscription moment registerNow
      checkNow with ⟨_, goesOn⟩ | ⟨_, sends⟩
    · exact seekSubscriber_turn passGate_sameStores rfl goesOn
    · rw [sends]
      exact .sent passGate_sameStores
  · exact seekSubscriber_turn (.refl hub) standing stepEq
  · exact .thrown

end

/-- Nothing is stored after that was not stored before. -/
structure Pruned (before after : SubscriptionHub) : Prop where
  keyAt : ∀ position key, after.subscriptions.keyAt position = some key →
    before.subscriptions.keyAt position = some key
  get : ∀ key subscription, after.subscriptions.get key = some subscription →
    before.subscriptions.get key = some subscription
  sequence : ∀ key sequenceNumber, after.sequences.get key = some sequenceNumber →
    before.sequences.get key = some sequenceNumber

theorem SameStores.pruned (same : SameStores before after) : Pruned before after where
  keyAt _ _ live := by rwa [same.subscriptions] at live
  get _ _ stored := by rwa [same.subscriptions] at stored
  sequence _ _ counted := by rwa [same.sequences] at counted

theorem Pruned.trans {between : SubscriptionHub} (first : Pruned before between)
    (second : Pruned between after) : Pruned before after where
  keyAt position key live := first.keyAt position key (second.keyAt position key live)
  get key subscription stored :=
    first.get key subscription (second.get key subscription stored)
  sequence key sequenceNumber counted :=
    first.sequence key sequenceNumber (second.sequence key sequenceNumber counted)

theorem Pruned.get_eq_none {key : String}
    (pruned : Pruned before after) (absent : before.subscriptions.get key = none) :
    after.subscriptions.get key = none := by
  cases found : after.subscriptions.get key with
  | none => rfl
  | some subscription =>
    rw [pruned.get key subscription found] at absent
    cases absent

theorem Pruned.sequence_eq_none {key : String}
    (pruned : Pruned before after) (absent : before.sequences.get key = none) :
    after.sequences.get key = none := by
  cases found : after.sequences.get key with
  | none => rfl
  | some sequenceNumber =>
    rw [pruned.sequence key sequenceNumber found] at absent
    cases absent

theorem pruned_deleteWhere (hub : SubscriptionHub) (doomed : String → PeerSubscription → Bool)
    (dropped : String → Nat → Bool) : Pruned hub { hub with
      subscriptions := hub.subscriptions.deleteWhere doomed
      sequences := hub.sequences.deleteWhere dropped } where
  keyAt _ _ live := keyAt_rewrite_of_eq_some live
  get key subscription stored := by
    rw [get_deleteWhere] at stored
    exact (Option.filter_eq_some_iff.mp stored).1
  sequence key sequenceNumber counted := by
    rw [get_deleteWhere] at counted
    exact (Option.filter_eq_some_iff.mp counted).1

theorem sweep_pruned (hub : SubscriptionHub) (now : Int) : Pruned hub (hub.sweep now) :=
  pruned_deleteWhere hub _ _

theorem close_pruned (hub : SubscriptionHub) : Pruned hub hub.close where
  keyAt _ _ live := keyAt_rewrite_of_eq_some live
  get key _ stored := by
    rw [close, get_clear] at stored
    cases stored
  sequence key _ counted := by
    rw [close, get_clear] at counted
    cases counted

section

variable {settings : HubSettings} {hub after : SubscriptionHub} {action : HubAction}
  {call next : HubCall} {answer : HubAnswer} {events : List HubEvent}
  {left : Option (HubCall × List HubEvent)}

section

variable (launched : (hubProgram settings).launch hub action = (after, none))
include launched

theorem launchHub_none : (SameStores hub after ∧ SameGate hub after) ∨
      (∃ now, (action = .listSubscriptions now ∨ action = .sweep now) ∧ after = hub.sweep now) ∨
      (action = .close ∧ after = hub.close) := by
  cases action with
  | setExposedEvents topics =>
    obtain rfl : hub.setExposedEvents topics = after := congrArg Prod.fst launched
    exact Or.inl ⟨⟨rfl, rfl⟩, ⟨rfl, rfl⟩⟩
  | registerSubscriptionGuard guarded =>
    simp only [hubProgram] at launched
    split at launched
    · next registered registers =>
        obtain rfl : registered = after := congrArg Prod.fst launched
        unfold registerSubscriptionGuard at registers
        split at registers
        · cases registers
          exact Or.inl ⟨⟨rfl, rfl⟩, ⟨rfl, rfl⟩⟩
        · cases registers
    · obtain rfl : hub = after := congrArg Prod.fst launched
      exact Or.inl ⟨.refl hub, .refl hub⟩
  | listSubscriptions now =>
    exact Or.inr (Or.inl ⟨now, Or.inl rfl, (congrArg Prod.fst launched).symm⟩)
  | sweep now => exact Or.inr (Or.inl ⟨now, Or.inr rfl, (congrArg Prod.fst launched).symm⟩)
  | close => exact Or.inr (Or.inr ⟨rfl, (congrArg Prod.fst launched).symm⟩)
  | handleSubReq | emitLocal => cases congrArg Prod.snd launched

theorem launchHub_none_pruned : Pruned hub after := by
  rcases launchHub_none launched with ⟨same, _⟩ | ⟨now, _, rfl⟩ | ⟨_, rfl⟩
  · exact same.pruned
  · exact sweep_pruned hub now
  · exact close_pruned hub

end

theorem launchHub_some
    (launched : (hubProgram settings).launch hub action = (after, some (call, events))) :
    (∃ topic payload sweepNow now, action = .emitLocal topic payload sweepNow now ∧
      emitLocal hub topic payload sweepNow now = ⟨after, call, events⟩) ∨
    ∃ peerId body now, action = .handleSubReq peerId body now ∧
      handleSubReq settings hub peerId body now = ⟨after, call, events⟩ := by
  cases action with
  | setExposedEvents | listSubscriptions | sweep | close => cases congrArg Prod.snd launched
  | registerSubscriptionGuard guarded =>
    simp only [hubProgram] at launched
    split at launched <;> cases congrArg Prod.snd launched
  | handleSubReq peerId body now =>
    right
    refine ⟨peerId, body, now, rfl, ?_⟩
    cases launched
    rfl
  | emitLocal topic payload sweepNow now =>
    left
    refine ⟨topic, payload, sweepNow, now, rfl, ?_⟩
    cases launched
    rfl

theorem resumeHub_some
    (resumed : (hubProgram settings).resume hub call answer = some (after, next, events)) :
    (∃ emission phase, call = .emitting emission phase ∧
      resumeEmit settings hub emission phase answer = some ⟨after, next, events⟩) ∨
    ∃ peerId body phase, call = .subscribing peerId body phase ∧
      resumeSubscribe settings hub peerId body phase answer = some ⟨after, next, events⟩ := by
  simp only [hubProgram, Option.map_eq_some_iff, Prod.mk.injEq] at resumed
  obtain ⟨step, stepEq, rfl, rfl, rfl⟩ := resumed
  cases call with
  | emitting emission phase => exact Or.inl ⟨emission, phase, rfl, stepEq⟩
  | subscribing peerId body phase => exact Or.inr ⟨peerId, body, phase, rfl, stepEq⟩

/-- What the first turn of `emitLocal` can do. -/
inductive EmitStart (hub : SubscriptionHub) (topic : String) :
    SubscriptionHub → HubCall → List HubEvent → Prop
  | refused {emission : Emission} :
      EmitStart hub topic hub (.emitting emission .threw) [.topicNotExposed topic]
  | ended {swept : SubscriptionHub} {emission : Emission} {delivered : Nat}
      (pruned : Pruned hub swept) :
      EmitStart hub topic swept (.emitting emission .returned) [.delivered delivered]
  | reached {swept : SubscriptionHub} {emission : Emission} {position : Nat} {key : String}
      {subscription : PeerSubscription} {wait : GuardWait} (pruned : Pruned hub swept)
      (topicEq : emission.topic = topic)
      (located : swept.subscriptions.keyAt position = some key)
      (stored : swept.subscriptions.get key = some subscription)
      (reaches : emission.reaches subscription = true) :
      EmitStart hub topic swept (.emitting emission (.guarding (position + 1) subscription wait)) []

theorem emitLocal_start {topic : String} {payload : JsValue} {sweepNow now : Int}
    (started : emitLocal hub topic payload sweepNow now = ⟨after, call, events⟩) :
    EmitStart hub topic after call events := by
  rcases emitLocal_cases hub topic payload sweepNow now with
    ⟨emission, refused⟩ | ⟨emission, unsized⟩ | ⟨emission, topicEq, entered⟩
  · cases refused.symm.trans started
    exact .refused
  · cases unsized.symm.trans started
    exact .ended (sweep_pruned hub sweepNow)
  · rcases seekSubscriber_cases (hub.sweep sweepNow) emission 0 with
      ended | ⟨position, subscription, wait, key, _, located, stored, reaches, reached⟩
    · obtain ⟨rfl, rfl, rfl⟩ :=
        HubStep.mk.inj (ended.symm.trans (entered.symm.trans started))
      exact .ended (sweep_pruned hub sweepNow)
    · obtain ⟨rfl, rfl, rfl⟩ :=
        HubStep.mk.inj (reached.symm.trans (entered.symm.trans started))
      exact .reached (sweep_pruned hub sweepNow) topicEq located stored reaches

/-- What the first turn of `handleSubReq` can do. -/
inductive SubReqStart (settings : HubSettings) (hub : SubscriptionHub) (peerId : String)
    (body : SubReqBody) : SubscriptionHub → HubCall → List HubEvent → Prop
  | rejected {swept : SubscriptionHub} {ack : SubAckBody} (pruned : Pruned hub swept)
      (denied : ack.accepted = false) :
      SubReqStart settings hub peerId body swept (.subscribing peerId body .answered)
        [.subAck peerId body ack]
  | removed {removal : SubscriptionHub} {ack : SubAckBody} (action : body.action = .unsubscribe)
      (pruned : Pruned hub removal)
      (unsubscribed : removal.subscriptions.get (keyFor peerId body.subscriptionId) = none)
      (uncounted : removal.sequences.get (keyFor peerId body.subscriptionId) = none) :
      SubReqStart settings hub peerId body removal (.subscribing peerId body .answered)
        [.subAck peerId body ack]
  | checking {swept : SubscriptionHub} (action : body.action = .subscribe)
      (valid : isEventTopic body.topic = true) (foreign : settings.selfPeerId ≠ peerId)
      (pruned : Pruned hub swept) :
      SubReqStart settings hub peerId body swept (.subscribing peerId body .checkingPeer) []

theorem handleSubReq_start {peerId : String} {body : SubReqBody} {now : Int}
    (started : handleSubReq settings hub peerId body now = ⟨after, call, events⟩) :
    SubReqStart settings hub peerId body after call events := by
  rcases handleSubReq_cases settings hub peerId body now with
    ⟨reason, rejected⟩ | ⟨unsubscribe, _, removed⟩ | ⟨subscribe, valid, foreign, goesOn⟩
  · cases rejected.symm.trans started
    exact .rejected (sweep_pruned hub now) rfl
  · cases removed.symm.trans started
    refine .removed unsubscribe ((sweep_pruned hub now).trans (pruned_deleteWhere _ _ _)) ?_ ?_
    · exact get_delete_self _ _
    · exact get_delete_self _ _
  · cases goesOn.symm.trans started
    exact .checking subscribe valid foreign (sweep_pruned hub now)

theorem launchHub_pruned (launched : (hubProgram settings).launch hub action = (after, left)) :
    Pruned hub after := by
  cases left with
  | none => exact launchHub_none_pruned launched
  | some started =>
    obtain ⟨call, events⟩ := started
    rcases launchHub_some launched with
      ⟨topic, payload, sweepNow, now, _, started⟩ | ⟨peerId, body, now, _, started⟩
    · cases emitLocal_start started with
      | refused => exact SameStores.pruned (.refl hub)
      | ended pruned | reached pruned => exact pruned
    · cases handleSubReq_start started with
      | rejected pruned | removed _ pruned | checking _ _ _ pruned => exact pruned

theorem seekSubscriber_sameGate (hub : SubscriptionHub) (emission : Emission) (cursor : Nat) :
    SameGate hub (seekSubscriber hub emission cursor).hub ∧
      ∀ subscriber frame checked, .sendEvent subscriber frame checked ∉
        (seekSubscriber hub emission cursor).events := by
  unfold seekSubscriber
  split <;> exact ⟨.refl hub, by simp⟩

theorem launchHub_sameGate (launched : (hubProgram settings).launch hub action = (after, left)) :
    SameGate hub after ∧ ∀ call events, left = some (call, events) →
      ∀ subscriber frame checked, .sendEvent subscriber frame checked ∉ events := by
  cases left with
  | none =>
    refine ⟨?_, by simp⟩
    rcases launchHub_none launched with ⟨_, same⟩ | ⟨now, _, rfl⟩ | ⟨_, rfl⟩
    · exact same
    · exact ⟨rfl, rfl⟩
    · exact ⟨rfl, rfl⟩
  | some started =>
    obtain ⟨call, events⟩ := started
    suffices silent : SameGate hub after ∧
        ∀ subscriber frame checked, .sendEvent subscriber frame checked ∉ events by
      refine ⟨silent.1, ?_⟩
      rintro _ _ ⟨⟩
      exact silent.2
    rcases launchHub_some launched with
      ⟨topic, payload, sweepNow, now, _, started⟩ | ⟨peerId, body, now, _, started⟩
    · rcases emitLocal_cases hub topic payload sweepNow now with
        ⟨emission, refused⟩ | ⟨emission, unsized⟩ | ⟨emission, _, entered⟩
      · cases refused.symm.trans started
        exact ⟨.refl _, by simp⟩
      · cases unsized.symm.trans started
        exact ⟨⟨rfl, rfl⟩, by simp⟩
      · obtain ⟨same, quiet⟩ := seekSubscriber_sameGate (hub.sweep sweepNow) emission 0
        rw [entered.symm.trans started] at same quiet
        exact ⟨⟨same.emitGate, same.appliedCustomRate⟩, quiet⟩
    · rcases handleSubReq_cases settings hub peerId body now with
        ⟨reason, rejected⟩ | ⟨_, _, removed⟩ | ⟨_, _, _, goesOn⟩
      · cases rejected.symm.trans started
        exact ⟨⟨rfl, rfl⟩, by simp⟩
      · cases removed.symm.trans started
        exact ⟨⟨rfl, rfl⟩, by simp⟩
      · cases goesOn.symm.trans started
        exact ⟨⟨rfl, rfl⟩, by simp⟩

theorem resumeHub_stores
    (resumed : (hubProgram settings).resume hub call answer = some (after, next, events)) :
    Pruned hub after ∨ (∃ emission cursor subscription frame checkNow,
      call = .emitting emission (.guarding cursor subscription (.decided true)) ∧
      events = [.sendEvent subscription frame checkNow] ∧ after.subscriptions = hub.subscriptions ∧
      after.sequences = hub.sequences.set subscription.key
        ((hub.sequences.get subscription.key).getD 0 + 1)) ∨
    ∃ peerId body peer now, call = .subscribing peerId body (.guarding (.decided true)) ∧
      answer = .commit (some peer) now ∧ hub.countForPeer peerId < maxSubscriptionsPerPeer ∧
      hub.countForTopic body.topic < maxSubscriptionsPerTopic ∧
      after.subscriptions = hub.subscriptions.set (grantedSubscription peerId body peer now).key
        (grantedSubscription peerId body peer now) ∧ after.sequences = hub.sequences := by
  rcases resumeHub_some resumed with
    ⟨emission, phase, rfl, resumes⟩ | ⟨peerId, body, phase, rfl, resumes⟩
  · cases resumeEmit_turn resumes with
    | asked | thrown => exact Or.inl (SameStores.pruned (.refl _))
    | reached same | ended same => exact Or.inl same.pruned
    | sent same =>
      exact Or.inr (Or.inl ⟨emission, _, _, _, _, rfl, rfl, same.subscriptions, rfl⟩)
  · cases resumeSubscribe_turn resumes with
    | waiting | rejected => exact Or.inl (SameStores.pruned (.refl _))
    | granted belowPeerCap belowTopicCap =>
      exact Or.inr (Or.inr ⟨peerId, body, _, _, rfl, rfl, belowPeerCap, belowTopicCap, rfl,
        rfl⟩)

end

def WellKeyed (hub : SubscriptionHub) : Prop :=
  ∀ key subscription, hub.subscriptions.get key = some subscription → subscription.key = key

theorem Pruned.wellKeyed (pruned : Pruned before after)
    (keyed : WellKeyed before) : WellKeyed after :=
  fun key subscription stored => keyed key subscription (pruned.get key subscription stored)

theorem wellKeyed_set {subscription : PeerSubscription} (keyed : WellKeyed before)
    (set : after.subscriptions = before.subscriptions.set subscription.key subscription) :
    WellKeyed after := by
  intro key other stored
  rw [set, get_set] at stored
  split at stored
  · next sameKey =>
      cases stored
      exact sameKey.symm
  · exact keyed key other stored

theorem new_subscriptions (created : new exposedEvents emitTelemetry = .ok hub) :
    hub.subscriptions = .empty ∧ hub.sequences = .empty := by
  unfold new at created
  cases built : TelemetryGate.new emitTelemetry with
  | error failure =>
    rw [built] at created
    cases created
  | ok gate =>
    rw [built] at created
    cases created
    exact ⟨rfl, rfl⟩

abbrev HubPool := AsyncCalls.Pool SubscriptionHub HubCall

abbrev HubLabel := AsyncCalls.Label HubAction HubAnswer

def HubRuns (settings : HubSettings)
    (allowed : List (Nat × HubEvent) → HubPool → HubLabel → Prop) (hub : SubscriptionHub) :
    List (Nat × HubEvent) → HubPool → Prop :=
  Transition.Runs (hubProgram settings).step allowed (AsyncCalls.Pool.initial hub)

theorem wellKeyed_of_runs {settings : HubSettings}
    {allowed : List (Nat × HubEvent) → HubPool → HubLabel → Prop}
    {history : List (Nat × HubEvent)} {pool : HubPool}
    (created : new exposedEvents emitTelemetry = .ok hub)
    (runs : HubRuns settings allowed hub history pool) : WellKeyed pool.shared := by
  refine AsyncCalls.shared_invariant WellKeyed ?_ ?_ ?_ ?_ runs
  · intro key subscription stored
    rw [(new_subscriptions created).1] at stored
    cases stored
  · intro before action after keyed launched
    exact (launchHub_pruned launched).wellKeyed keyed
  · intro before action after call events keyed launched
    exact (launchHub_pruned launched).wellKeyed keyed
  · intro before call answer after next events keyed resumed
    rcases resumeHub_stores resumed with
      pruned | ⟨_, _, _, _, _, _, _, kept, _⟩ | ⟨peerId, body, peer, now, _, _, _, _, stored, _⟩
    · exact pruned.wellKeyed keyed
    · intro key subscription found
      rw [kept] at found
      exact keyed key subscription found
    · exact wellKeyed_set keyed stored

/-- A hub that exposes one topic, under the default settings. -/
def lanSettings : HubSettings :=
  { selfPeerId := "hub" }

def lanHub : SubscriptionHub :=
  (new ["calendar:added"] {}).toOption.get (by decide)

theorem lanHub_created : new ["calendar:added"] {} = .ok lanHub :=
  rfl

def lanRequest (action : SubscriptionAction) : SubReqBody where
  subscriptionId := "sub"
  topic := "calendar:added"
  action := action

def lanPeer : NetworkPeer where
  id := "lan"
  peerId := some "peer"

/-- The turns of a request that is launched as the call `index` and granted. -/
def lanSubscribe (index : Nat) (now : Int) : List HubLabel :=
  [.launch (.handleSubReq "peer" (lanRequest .subscribe) now), .resume index (.access 0),
    .resume index (.commit (some lanPeer) now)]

end P2PHub
