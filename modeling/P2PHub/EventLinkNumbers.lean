import P2PHub.EventLink

/-!
# Sequence numbers between a hub and an adapter

As long as the hub removes no subscription whose numbers the adapter has seen
or will see, the numbers of every id in use stay in step, so no frame is
dropped for its number.
-/

namespace P2PHub

open AsyncCalls NumberedLink EventLink RemoteEventAdapter Transition OrderedMap

section

variable {settings : HubSettings} {hub after : SubscriptionHub} {action : HubAction}
  {call next : HubCall} {answer : HubAnswer} {events : List HubEvent} {key : String}

theorem sweep_sequence {now : Int} (unexpired : ¬ hub.Expired key now) :
    (hub.sweep now).sequences.get key = hub.sequences.get key := by
  have kept : (hub.subscriptions.get key).any
      (fun subscription => decide (subscription.expiresAt ≤ now)) = false := by
    cases found : hub.subscriptions.get key with
    | none => rfl
    | some subscription =>
      refine decide_eq_false fun expired => unexpired ⟨subscription, found, expired⟩
  rw [SubscriptionHub.sweep, get_deleteWhere]
  cases hub.sequences.get key with
  | none => rfl
  | some => simp [Option.filter, kept]

theorem launchHub_sequence {left : Option (HubCall × List HubEvent)}
    (launched : (hubProgram settings).launch hub action = (after, left))
    (uncut : ¬ action.Cuts hub key) : after.sequences.get key = hub.sequences.get key := by
  cases left with
  | none =>
    rcases launchHub_none launched with ⟨same, _⟩ | ⟨now, rfl | rfl, rfl⟩ | ⟨rfl, _⟩
    · rw [same.sequences]
    · exact sweep_sequence uncut
    · exact sweep_sequence uncut
    · exact absurd trivial uncut
  | some started =>
    obtain ⟨call, events⟩ := started
    rcases launchHub_some launched with
      ⟨topic, payload, sweepNow, now, rfl, started⟩ | ⟨peerId, body, now, rfl, started⟩
    · have hubEq := emitLocal_hub hub topic payload sweepNow now
      rw [started] at hubEq
      obtain rfl : after = _ := hubEq
      split
      · next exposed => exact sweep_sequence fun expired => uncut ⟨exposed, expired⟩
      · rfl
    · have unexpired : ¬ hub.Expired key now := fun expired => uncut (Or.inl expired)
      rcases handleSubReq_cases settings hub peerId body now with
        ⟨reason, rejected⟩ | ⟨unsubscribes, _, removed⟩ | ⟨_, _, _, goesOn⟩
      · cases rejected.symm.trans started
        exact sweep_sequence unexpired
      · cases removed.symm.trans started
        have apart : key ≠ keyFor peerId body.subscriptionId := by
          rintro rfl
          exact uncut (Or.inr ⟨unsubscribes, rfl⟩)
        exact (get_delete_of_ne _ apart).trans (sweep_sequence unexpired)
      · cases goesOn.symm.trans started
        exact sweep_sequence unexpired

theorem resumeHub_sequences
    (resumed : (hubProgram settings).resume hub call answer = some (after, next, events)) :
    (after.sequences = hub.sequences ∧
      ∀ subscriber frame checked, .sendEvent subscriber frame checked ∉ events) ∨
    ∃ subscription frame checkNow, events = [.sendEvent subscription frame checkNow] ∧
      frame.subscriptionId = subscription.subscriptionId ∧
      frame.sequenceNumber = (hub.sequences.get subscription.key).getD 0 + 1 ∧
      after.sequences = hub.sequences.set subscription.key frame.sequenceNumber := by
  rcases resumeHub_some resumed with
    ⟨emission, phase, rfl, resumes⟩ | ⟨peerId, body, phase, rfl, resumes⟩
  · cases resumeEmit_turn resumes with
    | asked | thrown => exact Or.inl ⟨rfl, by simp⟩
    | reached same | ended same => exact Or.inl ⟨same.sequences, by simp⟩
    | sent => exact Or.inr ⟨_, _, _, rfl, rfl, rfl, rfl⟩
  · left
    cases resumeSubscribe_turn resumes with
    | waiting | rejected | granted => exact ⟨rfl, by simp⟩

end

variable {frame : EventEmitBody}

theorem keyFor_right_injective {peerId first second : String}
    (same : keyFor peerId first = keyFor peerId second) : first = second := by
  exact (String.append_right_inj _).mp same

section

variable {settings : LinkSettings} {subscriptionId : String}
  {adapterPeerId : String} {frames : List EventEmitBody} {outputs : List (Nat × HubEvent)}

theorem numbersOf_append (frames later : List EventEmitBody) (subscriptionId : String) :
    numbersOf (frames ++ later) subscriptionId =
      numbersOf frames subscriptionId ++ numbersOf later subscriptionId := by
  simp [numbersOf]

theorem framesFrom_quiet {events : List HubEvent} (index : Nat)
    (quiet : ∀ subscriber frame checked, .sendEvent subscriber frame checked ∉ events) :
    framesFrom adapterPeerId (events.map (index, ·)) = [] := by
  refine List.filterMap_eq_nil_iff.mpr ?_
  intro output member
  obtain ⟨event, eventMem, rfl⟩ := List.mem_map.mp member
  cases event with
  | sendEvent => exact absurd eventMem (quiet _ _ _)
  | subAck | topicNotExposed | delivered => rfl

theorem inStep_numbered {hub after : SubscriptionHub} {subscription : PeerSubscription}
    {frame : EventEmitBody} {checkNow : Int} {index seen : Nat}
    (inStep : InStep ((hub.sequences.get (keyFor adapterPeerId subscriptionId)).getD 0) seen
      (numbersOf frames subscriptionId)) (idEq : frame.subscriptionId = subscription.subscriptionId)
    (numberEq : frame.sequenceNumber = (hub.sequences.get subscription.key).getD 0 + 1)
    (counted : after.sequences = hub.sequences.set subscription.key frame.sequenceNumber) :
    InStep ((after.sequences.get (keyFor adapterPeerId subscriptionId)).getD 0) seen
      (numbersOf (frames ++ framesFrom adapterPeerId
        [(index, .sendEvent subscription frame checkNow)]) subscriptionId) := by
  rw [counted, get_set, numbersOf_append]
  by_cases own : subscription.peerId = adapterPeerId ∧ subscription.subscriptionId = subscriptionId
  · obtain ⟨rfl, rfl⟩ := own
    have keyEq : keyFor subscription.peerId subscription.subscriptionId = subscription.key := rfl
    have sent : numbersOf (framesFrom subscription.peerId
        [(index, .sendEvent subscription frame checkNow)]) subscription.subscriptionId =
          [frame.sequenceNumber] := by
      simp [framesFrom, numbersOf, idEq]
    rw [sent, if_pos keyEq, Option.getD_some, numberEq]
    exact inStep.send
  · have unsent : numbersOf (framesFrom adapterPeerId
        [(index, .sendEvent subscription frame checkNow)]) subscriptionId = [] := by
      by_cases toAdapter : subscription.peerId = adapterPeerId
      · have otherId : frame.subscriptionId ≠ subscriptionId := by
          rw [idEq]
          exact fun same => own ⟨toAdapter, same⟩
        simp [framesFrom, numbersOf, toAdapter, otherId]
      · simp [framesFrom, numbersOf, toAdapter]
    rw [unsent, List.append_nil]
    split
    · next sameKey =>
        rw [← sameKey] at numberEq
        rw [Option.getD_some, numberEq]
        exact inStep.advance (Nat.le_succ _)
    · exact inStep

theorem inStep_hubTurn {label : HubLabel} {hub : HubPool} {seen : Nat} {before : HubPool}
    (stepped : (hubProgram settings.hub).step before label = some (hub, outputs))
    (inStep : InStep ((before.shared.sequences.get
      (keyFor settings.adapterPeerId subscriptionId)).getD 0) seen
        (numbersOf frames subscriptionId)) (uncut : ∀ action, label = .launch action →
      ¬ action.Cuts before.shared (keyFor settings.adapterPeerId subscriptionId)) :
    InStep ((hub.shared.sequences.get (keyFor settings.adapterPeerId subscriptionId)).getD 0)
      seen (numbersOf (frames ++ framesFrom settings.adapterPeerId outputs) subscriptionId) := by
  rcases Program.step_cases stepped with
    ⟨action, rfl, launched, _, rfl⟩ | ⟨action, call, events, rfl, launched, _, rfl⟩ |
    ⟨index, answer, call, next, events, rfl, _, resumed, _, rfl⟩
  · rw [launchHub_sequence launched (uncut action rfl)]
    simpa [framesFrom] using inStep
  · have quiet := (launchHub_sameGate launched).2 call events rfl
    rw [launchHub_sequence launched (uncut action rfl), framesFrom_quiet _ quiet, List.append_nil]
    exact inStep
  · rcases resumeHub_sequences resumed with
      ⟨same, quiet⟩ | ⟨subscription, frame, checkNow, rfl, idEq, numberEq, counted⟩
    · rw [same, framesFrom_quiet _ quiet, List.append_nil]
      exact inStep
    · exact inStep_numbered inStep idEq numberEq counted

theorem launched_frames {action : HubAction} {before hub : HubPool}
    (stepped : (hubProgram settings.hub).step before (.launch action) = some (hub, outputs)) :
    framesFrom settings.adapterPeerId outputs = [] := by
  rcases Program.step_cases stepped with
    ⟨_, _, _, _, rfl⟩ | ⟨_, call, events, _, launched, _, rfl⟩ | ⟨_, _, _, _, _, notResumed, _⟩
  · rfl
  · exact framesFrom_quiet _ ((launchHub_sameGate launched).2 call events rfl)
  · cases notResumed

end

section

variable {pool after : AdapterPool} {subscriptionId : String}

theorem lastSeen_of_unused (unused : occupancy pool subscriptionId = 0) :
    lastSeen pool.shared subscriptionId = 0 := by
  unfold occupancy at unused
  unfold lastSeen
  cases held : heldNumber pool.shared subscriptionId with
  | none => rfl
  | some =>
    rw [held] at unused
    simp at unused

theorem Releases.unused (releases : Releases pool after subscriptionId)
    (unused : P2PHub.occupancy pool subscriptionId = 0) :
    P2PHub.occupancy after subscriptionId = 0 :=
  Nat.eq_zero_of_le_zero (unused ▸ releases.occupancy)

end

/-- The invariant of the link: an id is used once, its numbers are in step, and
nothing uses an id that is being unsubscribed. -/
structure LinkHolds (settings : LinkSettings) (link : EventLink) : Prop where
  occupied : ∀ subscriptionId, occupancy link.adapter subscriptionId ≤ 1
  numbered : ∀ subscriptionId, occupancy link.adapter subscriptionId ≠ 0 →
    InStep (link.counter settings subscriptionId)
      (lastSeen link.adapter.shared subscriptionId) (numbersOf link.frames subscriptionId)
  unsubscribing : ∀ request ∈ link.requests, request.2.action = .unsubscribe →
    occupancy link.adapter request.2.subscriptionId = 0

section

variable {settings : LinkSettings} {link after : EventLink} {events : List LinkEvent}
  {history : List LinkEvent} {options : RemoteEventAdapterOptions} {adapter : RemoteEventAdapter}

theorem linkHolds_hubTurn {label : HubLabel} (holds : LinkHolds settings link)
    (turn : link.hubTurn settings label = some (after, events))
    (uncut : ∀ action, label = .launch action → ∀ subscriptionId, link.Numbered subscriptionId →
      ¬ action.Cuts link.hub.shared (keyFor settings.adapterPeerId subscriptionId)) :
    LinkHolds settings after := by
  obtain ⟨⟨hub, outputs⟩, stepped, result⟩ := Option.map_eq_some_iff.mp turn
  cases result
  refine ⟨holds.occupied, ?_, holds.unsubscribing⟩
  intro subscriptionId used
  have inStep := holds.numbered subscriptionId used
  by_cases numbered : link.Numbered subscriptionId
  · exact inStep_hubTurn stepped inStep fun action launched => uncut action launched _ numbered
  · have unseen : lastSeen link.adapter.shared subscriptionId = 0 := by
      by_contra seen
      exact numbered ⟨used, Or.inl seen⟩
    have unsent : numbersOf link.frames subscriptionId = [] := by
      by_contra sent
      exact numbered ⟨used, Or.inr sent⟩
    cases label with
    | launch =>
      have quiet : framesFrom settings.adapterPeerId outputs = [] := launched_frames stepped
      rw [unseen, quiet, List.append_nil, unsent]
      exact InStep.start _
    | resume =>
      exact inStep_hubTurn stepped inStep fun action launched => by cases launched

theorem linkHolds_adapterTurn {label : AdapterLabel} (holds : LinkHolds settings link)
    (turn : link.adapterTurn label = some (after, events))
    (fresh : ∀ subscriptionId, LaunchesSubscription label subscriptionId →
      link.Fresh subscriptionId) (outbound : ¬ DeliversEvent label) : LinkHolds settings after := by
  obtain ⟨⟨adapter, outputs⟩, stepped, result⟩ := Option.map_eq_some_iff.mp turn
  cases result
  have releases (subscriptionId : String) (others : ¬ LaunchesSubscription label subscriptionId) :
      Releases link.adapter adapter subscriptionId :=
    adapterTurn_releases stepped others outbound
  have taken (subscriptionId : String) (launched : LaunchesSubscription label subscriptionId) :
      occupancy adapter subscriptionId ≤ 1 ∧ adapter.shared = link.adapter.shared := by
    have unused := (fresh subscriptionId launched).unused
    obtain ⟨peer, topic, rfl⟩ := launched
    obtain ⟨bound, same⟩ := subscribing_occupies stepped
    exact ⟨by omega, same⟩
  refine ⟨?_, ?_, ?_⟩
  · intro subscriptionId
    by_cases launched : LaunchesSubscription label subscriptionId
    · exact (taken subscriptionId launched).1
    · exact Nat.le_trans (releases subscriptionId launched).occupancy
        (holds.occupied subscriptionId)
  · intro subscriptionId used
    by_cases launched : LaunchesSubscription label subscriptionId
    · have new := fresh subscriptionId launched
      have unseen : lastSeen adapter.shared subscriptionId = 0 := by
        rw [(taken subscriptionId launched).2]
        exact lastSeen_of_unused new.unused
      rw [unseen, new.unsent]
      exact InStep.start _
    · have released := releases subscriptionId launched
      have usedBefore : occupancy link.adapter subscriptionId ≠ 0 :=
        fun unused => used (released.unused unused)
      exact (holds.numbered subscriptionId usedBefore).forget released.lastSeen
  · intro request member unsubscribes
    rcases List.mem_append.mp member with earlier | new
    · have unused := holds.unsubscribing request earlier unsubscribes
      by_cases launched : LaunchesSubscription label request.2.subscriptionId
      · exact absurd rfl ((fresh _ launched).unrequested request earlier)
      · exact (releases _ launched).unused unused
    · exact unsubscribe_requests stepped holds.occupied new unsubscribes

theorem numbersOf_cons (frame : EventEmitBody) (frames : List EventEmitBody)
    (subscriptionId : String) : numbersOf (frame :: frames) subscriptionId =
      if frame.subscriptionId = subscriptionId then
        frame.sequenceNumber :: numbersOf frames subscriptionId
      else numbersOf frames subscriptionId := by
  unfold numbersOf
  by_cases own : frame.subscriptionId = subscriptionId <;> simp [own]

section

variable (holds : LinkHolds settings link)
include holds

theorem linkHolds_deliverEvent {now : Int}
    (stepped : step settings link (.deliverEvent now) = some (after, events)) :
    LinkHolds settings after := by
  obtain ⟨hub, adapter, requests, served, acks, frames⟩ := link
  cases frames with
  | nil => cases stepped
  | cons frame frames =>
    have turn : adapterTurn ⟨hub, adapter, requests, served, acks, frames⟩
        (.launch (.handleInboundEvent settings.hub.selfPeerId frame now)) =
          some (after, events) := stepped
    obtain ⟨⟨adapter', outputs⟩, turned, result⟩ := Option.map_eq_some_iff.mp turn
    cases result
    obtain ⟨occupancyEq, seenEq, quiet⟩ := inbound_turn turned
    refine ⟨?_, ?_, ?_⟩
    · intro subscriptionId
      exact (occupancyEq subscriptionId).symm ▸ holds.occupied subscriptionId
    · intro subscriptionId used
      have inStep := holds.numbered subscriptionId (occupancyEq subscriptionId ▸ used)
      rw [numbersOf_cons] at inStep
      by_cases own : frame.subscriptionId = subscriptionId
      · rw [if_pos own] at inStep
        rcases seenEq subscriptionId with same | ⟨_, seen⟩
        · exact same.symm ▸ inStep.drop
        · exact seen.symm ▸ inStep.deliver
      · rw [if_neg own] at inStep
        rcases seenEq subscriptionId with same | ⟨idEq, _⟩
        · exact same.symm ▸ inStep
        · exact absurd idEq.symm own
    · intro request member unsubscribes
      rw [quiet, List.append_nil] at member
      exact (occupancyEq _).trans (holds.unsubscribing request member unsubscribes)

theorem linkHolds_deliverRequest {now : Int}
    (undisturbed : ∀ subscriptionId, link.Numbered subscriptionId →
      ¬ link.hub.shared.Expired (keyFor settings.adapterPeerId subscriptionId) now)
    (stepped : step settings link (.deliverRequest now) = some (after, events)) :
    LinkHolds settings after := by
  obtain ⟨hub, adapter, requests, served, acks, frames⟩ := link
  cases requests with
  | nil => cases stepped
  | cons request requests =>
    obtain ⟨call, body⟩ := request
    have holdsLater : LinkHolds settings
        ⟨hub, adapter, requests, (hub.calls.length, call) :: served, acks, frames⟩ :=
      ⟨holds.occupied, holds.numbered, fun other member =>
        holds.unsubscribing other (List.mem_cons_of_mem _ member)⟩
    refine linkHolds_hubTurn holdsLater stepped ?_
    intro action launched subscriptionId numbered cut
    cases launched
    rcases cut with expired | ⟨unsubscribes, sameKey⟩
    · exact undisturbed subscriptionId numbered expired
    · obtain rfl := keyFor_right_injective sameKey
      exact numbered.1 (holds.unsubscribing (call, body) List.mem_cons_self unsubscribes)

theorem linkHolds_step {label : LinkLabel} (undisturbed : Undisturbed settings history link label)
    (stepped : step settings link label = some (after, events)) : LinkHolds settings after := by
  cases label with
  | hub =>
    simp only [step] at stepped
    split at stepped
    · refine linkHolds_hubTurn holds stepped ?_
      rintro action rfl
      exact undisturbed
    · cases stepped
  | adapter =>
    simp only [step] at stepped
    split at stepped
    · next native =>
        refine linkHolds_adapterTurn holds stepped ?_ ?_
        · rintro subscriptionId ⟨peer, topic, launched⟩
          cases launched
          exact undisturbed
        · rintro ⟨peerId, body, now, launched⟩
          cases launched
          cases native
    · cases stepped
  | deliverRequest => exact linkHolds_deliverRequest holds undisturbed stepped
  | deliverAck now =>
    obtain ⟨hub, adapter, requests, served, acks, frames⟩ := link
    cases acks with
    | nil => cases stepped
    | cons answered acks =>
      have holdsLater : LinkHolds settings ⟨hub, adapter, requests, served, acks, frames⟩ :=
        ⟨holds.occupied, holds.numbered, holds.unsubscribing⟩
      refine linkHolds_adapterTurn holdsLater stepped ?_ ?_
      · rintro subscriptionId ⟨peer, topic, launched⟩
        cases launched
      · rintro ⟨peerId, body, now, launched⟩
        cases launched
  | deliverEvent => exact linkHolds_deliverEvent holds stepped

end

theorem new_unsubscribed (created : new options = .ok adapter) :
    adapter.subscriptions = .empty := by
  unfold new at created
  cases built : TelemetryGate.new options.telemetry with
  | error =>
    rw [built] at created
    cases created
  | ok =>
    rw [built] at created
    cases created
    rfl

theorem linkHolds_of_runs {hub : SubscriptionHub} (created : new options = .ok adapter)
    (runs : Runs (step settings) (Undisturbed settings)
      (.initial hub adapter) history link) : LinkHolds settings link := by
  have unused (subscriptionId : String) : occupancy (.initial adapter) subscriptionId = 0 := by
    have unheld : heldNumber adapter subscriptionId = none := by
      rw [heldNumber, new_unsubscribed created]
      rfl
    simp [occupancy, Pool.initial, unheld]
  refine runs.invariant (fun _ link => LinkHolds settings link) ⟨?_, ?_, ?_⟩ ?_
  · intro subscriptionId
    exact (unused subscriptionId).trans_le (Nat.zero_le 1)
  · intro subscriptionId used
    exact absurd (unused subscriptionId) used
  · intro request member
    cases member
  · intro history before label after outputs holds undisturbed stepped
    exact linkHolds_step holds undisturbed stepped

end

/-- What the adapter asks of a frame besides its number: a subscription under
its id, from the peer that publishes and for the topic, and a free budget. -/
def RemoteEventAdapter.Admits (adapter : RemoteEventAdapter) (peerId : String)
    (frame : EventEmitBody) (now : Int) (subscription : RemoteSubscription) : Prop :=
  adapter.subscriptions.get frame.subscriptionId = some subscription ∧
    frame.publisherPeerId = peerId ∧ subscription.peerId = peerId ∧
      topicMatches subscription.topic frame.topic = true ∧
        (safeByteSize frame.payload).any (fun (byteSize : Nat) => decide
          ((adapter.gate.gate.checkAndConsume peerId frame.topic (.integer byteSize) now).2 =
            .ok .allowed)) = true

def EventEmitBody.remoteEvent (frame : EventEmitBody) (peerId : String) : RemoteEvent where
  peerId := peerId
  subscriptionId := frame.subscriptionId
  topic := frame.topic
  timestamp := frame.timestamp
  sequenceNumber := frame.sequenceNumber
  payload := frame.payload

theorem handleInboundEvent_admitted {adapter : RemoteEventAdapter} {peerId : String}
    {now : Int} {subscription : RemoteSubscription}
    (admits : adapter.Admits peerId frame now subscription)
    (above : subscription.lastSequenceNumber < frame.sequenceNumber) :
    (handleInboundEvent adapter peerId frame now).events =
      [.handled (frame.remoteEvent peerId)] := by
  obtain ⟨held, publisher, fromPeer, matching, budget⟩ := admits
  obtain ⟨byteSize, sized, allowed⟩ := (Option.any_eq_true _ _).mp budget
  have passes := of_decide_eq_true allowed
  have notPassed : ¬ frame.sequenceNumber ≤ subscription.lastSequenceNumber :=
    Nat.not_le.mpr above
  unfold handleInboundEvent
  simp [publisher, held, fromPeer, matching, notPassed, sized, passes, EventEmitBody.remoteEvent]

theorem deliverEvent_handled {settings : LinkSettings} {link : EventLink}
    {frames : List EventEmitBody} {now : Int} {event : RemoteEvent}
    (inFlight : link.frames = frame :: frames)
    (handled : (handleInboundEvent link.adapter.shared settings.hub.selfPeerId frame now).events =
      [.handled event]) : step settings link (.deliverEvent now) =
      some (let step := handleInboundEvent link.adapter.shared settings.hub.selfPeerId frame now
        { link with
          adapter := ⟨step.adapter, link.adapter.calls ++ [step.call]⟩
          frames := frames },
        [.adapter (link.adapter.calls.length, .handled event)]) := by
  simp [step, inFlight, adapterTurn, Program.step, adapterProgram,
    AdapterStep.left, handled, requestsFrom]

/-- In a run that meets the condition the number last seen stays below the next
one, and every frame that reaches a subscription within the budget is handled. -/
theorem link_loses_nothing {settings : LinkSettings} {options : RemoteEventAdapterOptions}
    {hub : SubscriptionHub} {adapter : RemoteEventAdapter} {history : List LinkEvent}
    {link : EventLink} (created : new options = .ok adapter)
    (runs : Runs (step settings) (Undisturbed settings)
      (.initial hub adapter) history link) : (∀ subscriptionId subscription,
      link.adapter.shared.subscriptions.get subscriptionId = some subscription →
        subscription.lastSequenceNumber < link.counter settings subscriptionId + 1) ∧
    ∀ frame frames now subscription, link.frames = frame :: frames →
      link.adapter.shared.Admits settings.hub.selfPeerId frame now subscription →
        ∃ after, step settings link (.deliverEvent now) = some (after,
          [.adapter (link.adapter.calls.length,
            .handled (frame.remoteEvent settings.hub.selfPeerId))]) := by
  have holds := linkHolds_of_runs created runs
  have inStep {subscriptionId : String} {subscription : RemoteSubscription}
      (held : link.adapter.shared.subscriptions.get subscriptionId = some subscription) :
      InStep (link.counter settings subscriptionId) subscription.lastSequenceNumber
        (numbersOf link.frames subscriptionId) := by
    have number : heldNumber link.adapter.shared subscriptionId =
        some subscription.lastSequenceNumber := by
      rw [heldNumber, held, Option.map_some]
    have used : occupancy link.adapter subscriptionId ≠ 0 := by
      rw [occupancy, number]
      exact Nat.succ_ne_zero _
    have numbered := holds.numbered subscriptionId used
    rwa [lastSeen, number, Option.getD_some] at numbered
  refine ⟨fun subscriptionId subscription held => (inStep held).seen_lt_next, ?_⟩
  intro frame frames now subscription inFlight admits
  have numbers := inStep admits.1
  rw [inFlight, numbersOf_cons, if_pos rfl] at numbers
  have handled := handleInboundEvent_admitted admits numbers.seen_lt_head
  exact ⟨_, deliverEvent_handled inFlight handled⟩

def lanLinkSettings : LinkSettings where
  hub := lanSettings
  adapterPeerId := "peer"

def lanAdapter : RemoteEventAdapter :=
  (new {}).toOption.get (by decide)

theorem lanAdapter_created : new {} = .ok lanAdapter :=
  rfl

def lanHubPeer : NetworkPeer where
  id := "lan"
  peerId := some "hub"

/-- The hub serves a request as the call `index`, and the adapter is told. -/
def lanGrant (index : Nat) (now : Int) : List LinkLabel :=
  [.deliverRequest now, .hub (.resume index (.access 0)),
    .hub (.resume index (.commit (some lanPeer) now)), .deliverAck now]

def lanSubscribeRemote : List LinkLabel :=
  .adapter (.subscribeRemote lanHubPeer "calendar:added" "sub") :: lanGrant 0 0

/-- The hub numbers a frame in its call `index`. -/
def lanEmit (index : Nat) (now : Int) : List LinkLabel :=
  [.hub (.launch (.emitLocal "calendar:added" .null now now)),
    .hub (.resume index (.dispatch 0 now now))]

def unexpired (hub : SubscriptionHub) (now : Int) : Bool :=
  hub.subscriptions.values.all fun subscription => decide (now < subscription.expiresAt)

theorem unexpired_sound {hub : SubscriptionHub} {now : Int} (passed : unexpired hub now)
    (key : String) : ¬ hub.Expired key now := by
  rintro ⟨subscription, found, expired⟩
  have member : subscription ∈ hub.subscriptions.values := mem_values.mpr ⟨key, found⟩
  have later := of_decide_eq_true (List.all_eq_true.mp passed subscription member)
  omega

def undisturbed (link : EventLink) : LinkLabel → Bool
  | .hub (.launch (.emitLocal _ _ sweepNow _)) => unexpired link.hub.shared sweepNow
  | .hub (.launch _) => false
  | .hub (.resume _ _) => true
  | .adapter (.subscribeRemote _ _ subscriptionId) =>
    decide (occupancy link.adapter subscriptionId = 0 ∧ numbersOf link.frames subscriptionId = [] ∧
        ∀ request ∈ link.requests, request.2.subscriptionId ≠ subscriptionId)
  | .adapter _ => true
  | .deliverRequest now => unexpired link.hub.shared now
  | .deliverAck _ => true
  | .deliverEvent _ => true

theorem undisturbed_sound (settings : LinkSettings) (history : List LinkEvent)
    (link : EventLink) (label : LinkLabel) (passed : undisturbed link label) :
    Undisturbed settings history link label := by
  cases label with
  | hub label =>
    cases label with
    | launch action =>
      cases action with
      | emitLocal =>
        intro subscriptionId _ cut
        exact unexpired_sound passed _ cut.2
      | setExposedEvents | registerSubscriptionGuard | handleSubReq | listSubscriptions | sweep |
        close => cases passed
    | resume => trivial
  | adapter action =>
    cases action with
    | subscribeRemote =>
      obtain ⟨unused, unsent, unrequested⟩ := of_decide_eq_true passed
      exact ⟨unused, unsent, unrequested⟩
    | unsubscribeRemote | handleInboundEvent | refresh | close => trivial
  | deliverRequest => exact fun subscriptionId _ => unexpired_sound passed _
  | deliverAck | deliverEvent => trivial

instance (adapter : RemoteEventAdapter) (peerId : String) (frame : EventEmitBody) (now : Int)
    (subscription : RemoteSubscription) : Decidable (adapter.Admits peerId frame now subscription)
    :=
  inferInstanceAs (Decidable (_ ∧ _))

def admitsNext (link : EventLink) (now : Int) : Bool :=
  link.frames.head?.any fun frame =>
    (link.adapter.shared.subscriptions.get frame.subscriptionId).any fun subscription =>
      decide (link.adapter.shared.Admits "hub" frame now subscription)

theorem admitsNext_sound {link : EventLink} {now : Int} (passed : admitsNext link now) :
    ∃ frame frames subscription, link.frames = frame :: frames ∧
      link.adapter.shared.Admits "hub" frame now subscription := by
  obtain ⟨frame, head, admitted⟩ := (Option.any_eq_true _ _).mp passed
  obtain ⟨subscription, _, admits⟩ := (Option.any_eq_true _ _).mp admitted
  obtain ⟨frames, flight⟩ := List.head?_eq_some_iff.mp head
  exact ⟨frame, frames, subscription, flight, of_decide_eq_true admits⟩

/-- A second frame is handled after a refresh in time. -/
theorem link_loses_nothing_lanAdapter : ∃ history link frame after,
      Runs (step lanLinkSettings) (Undisturbed lanLinkSettings)
        (.initial lanHub lanAdapter) history link ∧ link.frames.head? = some frame ∧
      step lanLinkSettings link (.deliverEvent 30001) = some (after,
        [.adapter (link.adapter.calls.length, .handled (frame.remoteEvent "hub"))]) := by
  obtain ⟨history, link, runs, passed⟩ := exists_runs_of_runWhile
    (step lanLinkSettings) (fun _ link label => undisturbed link label)
    (Undisturbed lanLinkSettings) (.initial lanHub lanAdapter)
    (lanSubscribeRemote ++ lanEmit 1 1 ++
      [.deliverEvent 1, .adapter (.refresh "sub")] ++ lanGrant 2 30000 ++ lanEmit 3 30001)
    (fun result => admitsNext result.1 30001)
    (undisturbed_sound lanLinkSettings) (by decide +kernel)
  obtain ⟨frame, frames, subscription, flight, admits⟩ := admitsNext_sound passed
  obtain ⟨after, handled⟩ :=
    (link_loses_nothing lanAdapter_created runs).2 frame frames 30001 subscription flight admits
  exact ⟨history, link, frame, after, runs, flight ▸ rfl, handled⟩

/-- A subscription that lapses at the hub and is taken up again by a refresh:
the number last seen is ahead of the next one, and the next frame is dropped. -/
theorem lapsed_numbers_restart : ∃ (settings : LinkSettings) (options : RemoteEventAdapterOptions)
      (exposedEvents : List String) (emitTelemetry : StreamRateOptions) (hub : SubscriptionHub)
      (adapter : RemoteEventAdapter) (history : List LinkEvent) (link : EventLink)
      (later : List LinkEvent) (last : EventLink),
      SubscriptionHub.new exposedEvents emitTelemetry = .ok hub ∧ new options = .ok adapter ∧
      Runs (step settings) unrestricted (.initial hub adapter)
        history link ∧ (∃ subscriptionId subscription,
        link.adapter.shared.subscriptions.get subscriptionId = some subscription ∧
          ¬ subscription.lastSequenceNumber < link.counter settings subscriptionId + 1) ∧
      Runs (step settings) unrestricted link later last ∧
      ∃ frame frames now subscription after, last.frames = frame :: frames ∧
        last.adapter.shared.Admits settings.hub.selfPeerId frame now subscription ∧
        step settings last (.deliverEvent now) = some (after, []) := by
  obtain ⟨history, link, after, outputs, later, last, runs, stepped, continued, passed⟩ :=
    exists_runs_around (step lanLinkSettings) (.initial lanHub lanAdapter)
      (lanSubscribeRemote ++ lanEmit 1 1 ++
        [.deliverEvent 1, .hub (.launch (.sweep 60000)), .adapter (.refresh "sub")] ++
          lanGrant 2 60000)
      (.hub (.launch (.emitLocal "calendar:added" .null 60001 60001)))
      [.hub (.resume 3 (.dispatch 0 60001 60001))]
      (fun link _ _ last =>
        (link.adapter.shared.subscriptions.get "sub").any (fun subscription =>
          decide (¬ subscription.lastSequenceNumber < link.counter lanLinkSettings "sub" + 1)) &&
        admitsNext last 60001 &&
        (step lanLinkSettings last (.deliverEvent 60001)).any (·.2.isEmpty))
      (by decide +kernel)
  simp only [Bool.and_eq_true, Option.any_eq_true, List.isEmpty_iff] at passed
  obtain ⟨⟨⟨subscription, held, ahead⟩, admitted⟩, ⟨final, _⟩, dropped, rfl⟩ := passed
  obtain ⟨frame, frames, receiver, flight, admits⟩ := admitsNext_sound admitted
  have resumed : Runs (step lanLinkSettings) unrestricted link ([] ++ outputs ++ later) last :=
    .trans_unrestricted (.tail .refl trivial stepped) continued
  exact ⟨lanLinkSettings, {}, _, {}, lanHub, lanAdapter, history, link, _, last, lanHub_created,
    lanAdapter_created, runs, ⟨"sub", subscription, held, of_decide_eq_true ahead⟩, resumed,
    frame, frames, 60001, receiver, final, flight, admits, dropped⟩

end P2PHub
