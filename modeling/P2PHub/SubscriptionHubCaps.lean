import P2PHub.SubscriptionHubRuns

/-!
# The caps of the subscription hub

`handleSubscribe` counts the stored subscriptions and stores a new one in the
same turn, after its last await.  No other turn stores anything, so the caps
hold however the calls overlap.
-/

namespace P2PHub

open AsyncCalls OrderedMap SubscriptionHub HubEvent

/-- The hub holds no more of a peer and of a topic than its caps. -/
structure WithinCaps (hub : SubscriptionHub) : Prop where
  peers : ∀ peerId, hub.countForPeer peerId ≤ maxSubscriptionsPerPeer
  topics : ∀ topic, hub.countForTopic topic ≤ maxSubscriptionsPerTopic

def GrantableTtl (ttlMs : Int) : Prop :=
  1 ≤ ttlMs ∧ ttlMs ≤ maxSubscriptionTtlMs

theorem grantedTtl_grantable (body : SubReqBody) : GrantableTtl (grantedTtl body) := by
  unfold GrantableTtl grantedTtl maxSubscriptionTtlMs
  omega

def GrantableTtls (hub : SubscriptionHub) : Prop :=
  ∀ subscription ∈ hub.subscriptions.values, GrantableTtl subscription.ttlMs

def HubEvent.AcknowledgesGrantable : HubEvent → Prop
  | .subAck _ _ ack => ∀ ttlMs, ack.ttlMs = some ttlMs → GrantableTtl ttlMs
  | .sendEvent _ _ _ => True
  | .topicNotExposed _ => True
  | .delivered _ => True

section

variable {before after : SubscriptionHub} {subscription : PeerSubscription}

theorem Pruned.countP_values_le (pruned : Pruned before after) (kind : PeerSubscription → Bool) :
    after.subscriptions.values.countP kind ≤ before.subscriptions.values.countP kind := by
  apply OrderedMap.countP_values_le kind
  intro key subscription stored
  exact OrderedMap.mem_entries.mpr (pruned.get key subscription stored)

theorem Pruned.withinCaps (pruned : Pruned before after) (capped : WithinCaps before) :
    WithinCaps after where
  peers peerId := (pruned.countP_values_le _).trans (capped.peers peerId)
  topics topic := (pruned.countP_values_le _).trans (capped.topics topic)

/-- A subscription is stored while its peer and its topic are below their
caps. -/
theorem withinCaps_set (capped : WithinCaps before)
    (set : after.subscriptions = before.subscriptions.set subscription.key subscription)
    (belowPeerCap : before.countForPeer subscription.peerId < maxSubscriptionsPerPeer)
    (belowTopicCap : before.countForTopic subscription.topic < maxSubscriptionsPerTopic) :
    WithinCaps after where
  peers peerId := by
    have grown := countP_values_set_le before.subscriptions subscription.key
      subscription fun stored => decide (stored.peerId = peerId)
    have old := capped.peers peerId
    unfold countForPeer at *
    rw [set]
    by_cases own : subscription.peerId = peerId
    · subst own
      simp only [decide_true, Bool.toNat_true] at grown
      omega
    · simp only [own, decide_false, Bool.toNat_false] at grown
      omega
  topics topic := by
    have grown := countP_values_set_le before.subscriptions subscription.key
      subscription fun stored => decide (stored.topic = topic)
    have old := capped.topics topic
    unfold countForTopic at *
    rw [set]
    by_cases own : subscription.topic = topic
    · subst own
      simp only [decide_true, Bool.toNat_true] at grown
      omega
    · simp only [own, decide_false, Bool.toNat_false] at grown
      omega

theorem Pruned.grantableTtls (pruned : Pruned before after) (granted : GrantableTtls before) :
    GrantableTtls after := by
  intro subscription member
  obtain ⟨key, stored⟩ := mem_values.mp member
  exact granted subscription (mem_values.mpr ⟨key, pruned.get key subscription stored⟩)

theorem grantableTtls_set (granted : GrantableTtls before)
    (set : after.subscriptions = before.subscriptions.set subscription.key subscription)
    (grantable : GrantableTtl subscription.ttlMs) : GrantableTtls after := by
  intro other member
  obtain ⟨key, stored⟩ := mem_values.mp member
  rw [set, get_set] at stored
  split at stored
  · cases stored
    exact grantable
  · exact granted other (mem_values.mpr ⟨key, stored⟩)

theorem WellKeyed.identities_nodup {hub : SubscriptionHub} (keyed : WellKeyed hub) :
    (hub.subscriptions.values.map fun subscription =>
      (subscription.peerId, subscription.subscriptionId)).Nodup := by
  apply List.Nodup.of_map fun identity : String × String => keyFor identity.1 identity.2
  have keysEq : (hub.subscriptions.values.map fun subscription =>
      (subscription.peerId, subscription.subscriptionId)).map
        (fun identity => keyFor identity.1 identity.2) = hub.subscriptions.keys := by
    rw [values, keys, List.map_map, List.map_map]
    apply List.map_congr_left
    intro entry member
    exact keyed entry.1 entry.2 (mem_entries.mp member)
  rw [keysEq]
  exact hub.subscriptions.keys_nodup

end

section

variable {settings : HubSettings} {hub after : SubscriptionHub} {action : HubAction}
  {call next : HubCall} {answer : HubAnswer} {events : List HubEvent}

theorem launched_acknowledgesGrantable
    (launched : (hubProgram settings).launch hub action = (after, some (call, events))) :
    ∀ event ∈ events, event.AcknowledgesGrantable := by
  rcases launchHub_some launched with
    ⟨topic, payload, sweepNow, now, _, started⟩ | ⟨peerId, body, now, _, started⟩
  · cases emitLocal_start started with
    | refused | ended => simp [AcknowledgesGrantable]
    | reached => simp
  · rcases handleSubReq_cases settings hub peerId body now with
      ⟨reason, rejected⟩ | ⟨_, _, removed⟩ | ⟨_, _, _, goesOn⟩
    · cases rejected.symm.trans started
      simp [AcknowledgesGrantable]
    · cases removed.symm.trans started
      simp [AcknowledgesGrantable]
    · cases goesOn.symm.trans started
      simp

theorem resumeSubscribe_acknowledgesGrantable {peerId : String} {body : SubReqBody}
    {phase : SubscribePhase} {step : HubStep}
    (resumed : resumeSubscribe settings hub peerId body phase answer = some step) :
    ∀ event ∈ step.events, event.AcknowledgesGrantable := by
  have refused : ∀ reason, ∀ event ∈ (rejectSubReq hub peerId body reason).events,
      event.AcknowledgesGrantable := by
    simp [rejectSubReq, answerSubReq, AcknowledgesGrantable]
  unfold resumeSubscribe at resumed
  split at resumed
  · dsimp only at resumed
    split at resumed
    · cases resumed
      exact refused _
    · split at resumed
      · cases resumed
        exact refused _
      · cases resumed
        simp
  · cases resumed
    simp
  · cases resumed
    exact refused _
  · cases resumed
    unfold commitSubscription
    split
    · exact refused _
    · split
      · exact refused _
      · split
        · exact refused _
        · simpa [answerSubReq, AcknowledgesGrantable] using grantedTtl_grantable body
  · cases resumed

theorem resumed_acknowledgesGrantable
    (resumed : (hubProgram settings).resume hub call answer = some (after, next, events)) :
    ∀ event ∈ events, event.AcknowledgesGrantable := by
  rcases resumeHub_some resumed with
    ⟨emission, phase, rfl, resumes⟩ | ⟨peerId, body, phase, rfl, resumes⟩
  · cases resumeEmit_turn resumes <;> simp [AcknowledgesGrantable]
  · exact resumeSubscribe_acknowledgesGrantable resumes

end

variable {settings : HubSettings}
  {allowed : List (Nat × HubEvent) → HubPool → HubLabel → Prop} {exposedEvents : List String}
  {emitTelemetry : StreamRateOptions} {hub : SubscriptionHub}
  {history : List (Nat × HubEvent)} {pool : HubPool}

section

variable (created : new exposedEvents emitTelemetry = .ok hub)
    (runs : HubRuns settings allowed hub history pool)
include created runs

theorem withinCaps_of_runs : WithinCaps pool.shared := by
  refine shared_invariant WithinCaps ?_ ?_ ?_ ?_ runs
  · have nothing : hub.subscriptions.values = [] := by
      rw [(new_subscriptions created).1]
      rfl
    constructor <;> simp [countForPeer, countForTopic, nothing]
  · intro before action after capped launched
    exact (launchHub_pruned launched).withinCaps capped
  · intro before action after call events capped launched
    exact (launchHub_pruned launched).withinCaps capped
  · intro before call answer after next events capped resumed
    rcases resumeHub_stores resumed with
      pruned | ⟨_, _, _, _, _, _, _, kept, _⟩ |
      ⟨peerId, body, peer, now, _, _, belowPeerCap, belowTopicCap, stored, _⟩
    · exact pruned.withinCaps capped
    · have same : Pruned before { after with sequences := before.sequences } :=
        SameStores.pruned ⟨kept, rfl⟩
      have held := same.withinCaps capped
      exact ⟨held.peers, held.topics⟩
    · exact withinCaps_set capped stored belowPeerCap belowTopicCap

theorem grantableTtls_of_runs : GrantableTtls pool.shared := by
  refine shared_invariant GrantableTtls ?_ ?_ ?_ ?_ runs
  · intro subscription member
    rw [(new_subscriptions created).1] at member
    cases member
  · intro before action after granted launched
    exact (launchHub_pruned launched).grantableTtls granted
  · intro before action after call events granted launched
    exact (launchHub_pruned launched).grantableTtls granted
  · intro before call answer after next events granted resumed
    rcases resumeHub_stores resumed with
      pruned | ⟨_, _, _, _, _, _, _, kept, _⟩ | ⟨peerId, body, peer, now, _, _, _, _, stored, _⟩
    · exact pruned.grantableTtls granted
    · intro subscription member
      rw [kept] at member
      exact granted subscription member
    · exact grantableTtls_set granted stored (grantedTtl_grantable body)

end

theorem acknowledged_of_runs (runs : HubRuns settings allowed hub history pool) :
    ∀ output ∈ history, output.2.AcknowledgesGrantable := by
  refine outputs_invariant AcknowledgesGrantable ?_ ?_ runs
  · exact fun _ _ _ _ _ launched => launched_acknowledgesGrantable launched
  · exact fun _ _ _ _ _ _ resumed => resumed_acknowledgesGrantable resumed

/-- In every run of a hub, whatever calls overlap in it, the hub stays within
its caps, grants only lifetimes in range, and holds a peer's subscription under
an id at most once. -/
theorem subscriptions_stay_within_caps (created : new exposedEvents emitTelemetry = .ok hub)
    (runs : HubRuns settings allowed hub history pool) :
    (∀ peerId, pool.shared.countForPeer peerId ≤ maxSubscriptionsPerPeer) ∧
    (∀ topic, pool.shared.countForTopic topic ≤ maxSubscriptionsPerTopic) ∧
    (∀ subscription ∈ pool.shared.subscriptions.values,
      1 ≤ subscription.ttlMs ∧ subscription.ttlMs ≤ maxSubscriptionTtlMs) ∧
    (∀ index peerId body ack ttlMs, (index, .subAck peerId body ack) ∈ history →
      ack.ttlMs = some ttlMs → 1 ≤ ttlMs ∧ ttlMs ≤ maxSubscriptionTtlMs) ∧
    (pool.shared.subscriptions.values.map fun subscription =>
      (subscription.peerId, subscription.subscriptionId)).Nodup := by
  have capped := withinCaps_of_runs created runs
  have granted := grantableTtls_of_runs created runs
  have keyed := wellKeyed_of_runs created runs
  refine ⟨capped.peers, capped.topics, granted, ?_, keyed.identities_nodup⟩
  intro index peerId body ack ttlMs acknowledged
  exact acknowledged_of_runs runs _ acknowledged ttlMs

/-- Two overlapping requests for one id leave one subscription. -/
theorem subscriptions_stay_within_caps_overlapping :
    ∃ history pool, HubRuns lanSettings (fun _ _ _ => True) lanHub history pool ∧
      pool.shared.countForPeer "peer" = 1 ∧
      (∀ peerId, pool.shared.countForPeer peerId ≤ maxSubscriptionsPerPeer) ∧
      (pool.shared.subscriptions.values.map fun subscription =>
        (subscription.peerId, subscription.subscriptionId)).Nodup := by
  obtain ⟨history, pool, runs, one⟩ := Transition.exists_runs_of_any
    (hubProgram lanSettings).step (fun _ => True) (Pool.initial lanHub)
    [.launch (.handleSubReq "peer" (lanRequest .subscribe) 0),
      .launch (.handleSubReq "peer" (lanRequest .subscribe) 0),
      .resume 1 (.access 0), .resume 0 (.access 0),
      .resume 1 (.commit (some lanPeer) 1), .resume 0 (.commit (some lanPeer) 2)]
    (fun last => last.1.shared.countForPeer "peer" == 1) (fun _ _ => trivial)
    (by decide +kernel)
  have held : HubRuns lanSettings (fun _ _ _ => True) lanHub history pool := runs
  have kept := subscriptions_stay_within_caps lanHub_created held
  exact ⟨history, pool, held, by simpa using one, kept.1, kept.2.2.2.2⟩

end P2PHub
