import P2PHub.SubscriptionHubRuns

/-!
# One frame per subscription and emission

`emitLocal` iterates over the live map of subscriptions, so it meets a
subscription again exactly when one is stored ahead of its iterator under a key
that it has already taken up.  Along a run in which that does not happen, the
keys that the call has served are pairwise distinct and the iterator has passed
all of them.
-/

namespace P2PHub

open AsyncCalls EmitPhase OrderedMap SubscriptionHub

/-- The peer and the subscription id of a frame handed to the network. -/
def HubEvent.recipient? : HubEvent → Option (String × String)
  | .sendEvent subscriber frame _ => some (subscriber.peerId, frame.subscriptionId)
  | .subAck _ _ _ => none
  | .topicNotExposed _ => none
  | .delivered _ => none

/-- The recipients of the frames that one call hands to the network. -/
def handedTo (history : List (Nat × HubEvent)) (index : Nat) : List (String × String) :=
  (ownOutputs history index).filterMap HubEvent.recipient?

def servedKeys (own : List HubEvent) : List String :=
  (own.filterMap HubEvent.recipient?).map fun recipient => keyFor recipient.1 recipient.2

variable {hub : SubscriptionHub}

@[simp] theorem servedKeys_nil : servedKeys [] = [] :=
  rfl

@[simp] theorem servedKeys_append (own later : List HubEvent) :
    servedKeys (own ++ later) = servedKeys own ++ servedKeys later := by
  simp [servedKeys]

@[simp] theorem servedKeys_delivered (count : Nat) : servedKeys [.delivered count] = [] :=
  rfl

@[simp] theorem servedKeys_topicNotExposed (topic : String) :
    servedKeys [.topicNotExposed topic] = [] :=
  rfl

@[simp] theorem servedKeys_subAck (peerId : String) (body : SubReqBody) (ack : SubAckBody) :
    servedKeys [.subAck peerId body ack] = [] :=
  rfl

@[simp] theorem servedKeys_sentFrame (settings : HubSettings) (hub : SubscriptionHub)
    (emission : Emission) (subscription : PeerSubscription) (checkNow : Int) :
    servedKeys [.sendEvent subscription (sentFrame settings hub emission subscription) checkNow] =
      [subscription.key] :=
  rfl

/-- The keys of the subscriptions that a running loop has taken up: those
served, and the one whose guards it awaits. -/
def EmitPhase.takenUp (own : List HubEvent) : EmitPhase → List String
  | .guarding _ subscription _ => subscription.key :: servedKeys own
  | .sending _ => servedKeys own
  | .returned => []
  | .threw => []

/-- The loop will not meet a subscription under one of the keys. -/
def NoneAhead (hub : SubscriptionHub) (emission : Emission) (keys : List String)
    (cursor : Nat) : Prop :=
  ∀ position key subscription, cursor ≤ position → hub.subscriptions.keyAt position = some key →
    hub.subscriptions.get key = some subscription → emission.reaches subscription = true →
      key ∉ keys

section

variable {hub after : SubscriptionHub} {emission : Emission} {keys : List String} {cursor : Nat}

variable (clear : NoneAhead hub emission keys cursor)
include clear

theorem NoneAhead.pruned (pruned : Pruned hub after) : NoneAhead after emission keys cursor := by
  intro position key subscription ahead located stored reaches
  exact clear position key subscription ahead (pruned.keyAt position key located)
    (pruned.get key subscription stored) reaches

theorem NoneAhead.congr
    (same : after.subscriptions = hub.subscriptions) : NoneAhead after emission keys cursor := by
  unfold NoneAhead
  rw [same]
  exact clear

theorem NoneAhead.subset {fewer : List String}
    (subset : fewer ⊆ keys) : NoneAhead hub emission fewer cursor := by
  intro position key subscription ahead located stored reaches member
  exact clear position key subscription ahead located stored reaches (subset member)

theorem NoneAhead.passes {position : Nat} {key : String} (ahead : cursor ≤ position)
    (located : hub.subscriptions.keyAt position = some key) :
    NoneAhead hub emission (key :: keys) (position + 1) := by
  intro later other subscription beyond otherLocated stored reaches member
  rcases List.mem_cons.mp member with rfl | old
  · have samePosition : later = position := position_unique otherLocated located
    omega
  · have farther : cursor ≤ later := by omega
    exact clear later other subscription farther otherLocated stored reaches old

/-- A subscription is stored that the loop skips, or has not taken up, or has
passed in its slot. -/
theorem NoneAhead.stored {subscription : PeerSubscription}
    (set : after.subscriptions = hub.subscriptions.set subscription.key subscription)
    (harmless : emission.reaches subscription → subscription.key ∈ keys →
      ∃ position < cursor, hub.subscriptions.keyAt position = some subscription.key) :
    NoneAhead after emission keys cursor := by
  intro position key found ahead located stored reaches member
  rw [set] at located stored
  by_cases sameKey : key = subscription.key
  · subst key
    rw [get_set_self] at stored
    cases stored
    obtain ⟨passed, behind, passedLocated⟩ := harmless reaches member
    have present : hub.subscriptions.get subscription.key ≠ none := by
      intro absent
      exact get_eq_none_iff_keyAt.mp absent passed passedLocated
    have oldLocated := (keyAt_set_of_present present).mp located
    have samePosition : position = passed :=
      position_unique oldLocated passedLocated
    omega
  · rw [get_set_of_ne _ _ sameKey] at stored
    rcases keyAt_set located with oldLocated | ⟨newKey, _⟩
    · exact clear position key found ahead oldLocated stored reaches member
    · exact sameKey newKey

end

/-- The call has served no key twice and will meet none again. -/
def FanOutHolds (own : List HubEvent) (hub : SubscriptionHub) : HubCall → Prop
  | .emitting emission phase =>
    (servedKeys own).Nodup ∧ (phase.takenUp own).Nodup ∧ ∀ cursor, phase.cursor? = some cursor →
        NoneAhead hub emission (phase.takenUp own) cursor
  | .subscribing _ _ _ => servedKeys own = []

/-- A subscription is stored ahead of a running loop that reaches it but has
taken up its key before. -/
def HubCall.TakesUpAgain (own : List HubEvent) (hub : SubscriptionHub)
    (subscription : PeerSubscription) : HubCall → Prop
  | .emitting emission phase =>
    ∃ cursor, phase.cursor? = some cursor ∧ emission.reaches subscription = true ∧
      subscription.key ∈ phase.takenUp own ∧
      ∀ position < cursor, hub.subscriptions.keyAt position ≠ some subscription.key
  | .subscribing _ _ _ => False

/-- No request that is about to be granted has a running call take up its
subscription again. -/
def NotTakenUpAgain (index : Nat) (history : List (Nat × HubEvent)) (pool : HubPool)
    (label : HubLabel) : Prop :=
  ∀ other peerId body peer now call, label = .resume other (.commit (some peer) now) →
    pool.calls[other]? = some (.subscribing peerId body (.guarding (.decided true))) →
    pool.shared.countForPeer peerId < maxSubscriptionsPerPeer →
    pool.shared.countForTopic body.topic < maxSubscriptionsPerTopic →
    pool.calls[index]? = some call → ¬ call.TakesUpAgain (ownOutputs history index) pool.shared
        (grantedSubscription peerId body peer now)

section

variable {settings : HubSettings} {hub after : SubscriptionHub} {emission : Emission}
  {phase : EmitPhase} {call next : HubCall} {own events : List HubEvent}

theorem servedKeys_subset_takenUp {cursor : Nat} (standing : phase.cursor? = some cursor) :
    servedKeys own ⊆ phase.takenUp own := by
  cases phase with
  | guarding _ subscription _ => exact List.subset_cons_self subscription.key (servedKeys own)
  | sending _ => exact List.Subset.refl (servedKeys own)
  | returned | threw => cases standing

theorem FanOutHolds.turn (keyed : WellKeyed hub)
    (held : FanOutHolds own hub (.emitting emission phase))
    (turn : EmitTurn settings hub emission phase after next events) :
    FanOutHolds (own ++ events) after next := by
  obtain ⟨servedOnce, takenOnce, clear⟩ := held
  cases turn with
  | asked => simpa [FanOutHolds, takenUp, cursor?] using
      And.intro servedOnce (And.intro takenOnce clear)
  | ended same => simpa [FanOutHolds, takenUp, cursor?] using servedOnce
  | thrown => simpa [FanOutHolds, takenUp, cursor?] using servedOnce
  | @reached _ cursor position delivered key _ subscription wait same standing ahead located stored
      reaches =>
      have keyEq : subscription.key = key := keyed key subscription stored
      have unserved : key ∉ servedKeys own := fun member =>
        clear cursor standing position key subscription ahead located stored reaches
          (servedKeys_subset_takenUp standing member)
      have passed : NoneAhead hub emission (key :: servedKeys own) (position + 1) :=
        ((clear cursor standing).subset (servedKeys_subset_takenUp standing)).passes ahead located
      rw [List.append_nil]
      refine ⟨servedOnce, ?_, ?_⟩
      · simp only [takenUp, keyEq]
        exact List.nodup_cons.mpr ⟨unserved, servedOnce⟩
      · intro current currentEq
        cases currentEq
        simp only [takenUp, keyEq]
        exact passed.congr same.subscriptions
  | @sent cursor subscription charged checkNow same =>
    have reordered : (servedKeys own ++ [subscription.key]).Perm
        (subscription.key :: servedKeys own) :=
      List.perm_append_singleton _ _
    have servedMore : (servedKeys own ++ [subscription.key]).Nodup :=
      reordered.nodup_iff.mpr takenOnce
    simp only [FanOutHolds, takenUp, servedKeys_append, servedKeys_sentFrame]
    refine ⟨servedMore, servedMore, ?_⟩
    intro current currentEq
    cases currentEq
    have passed : NoneAhead hub emission (servedKeys own ++ [subscription.key]) cursor :=
      (clear cursor rfl).subset reordered.subset
    exact passed.congr same.subscriptions

variable (held : FanOutHolds own hub call)
include held

theorem FanOutHolds.pruned (pruned : Pruned hub after) : FanOutHolds own after call := by
  cases call with
  | emitting emission phase =>
    obtain ⟨servedOnce, takenOnce, clear⟩ := held
    exact ⟨servedOnce, takenOnce, fun cursor standing => (clear cursor standing).pruned pruned⟩
  | subscribing peerId body phase => exact held

theorem FanOutHolds.congr
    (same : after.subscriptions = hub.subscriptions) : FanOutHolds own after call := by
  cases call with
  | emitting emission phase =>
    obtain ⟨servedOnce, takenOnce, clear⟩ := held
    exact ⟨servedOnce, takenOnce, fun cursor standing => (clear cursor standing).congr same⟩
  | subscribing peerId body phase => exact held

theorem FanOutHolds.stored {subscription : PeerSubscription}
    (set : after.subscriptions = hub.subscriptions.set subscription.key subscription)
    (once : ¬ call.TakesUpAgain own hub subscription) : FanOutHolds own after call := by
  cases call with
  | emitting emission phase =>
    obtain ⟨servedOnce, takenOnce, clear⟩ := held
    refine ⟨servedOnce, takenOnce, fun cursor standing => ?_⟩
    refine (clear cursor standing).stored set ?_
    intro reaches member
    by_contra unpassed
    push Not at unpassed
    exact once ⟨cursor, standing, reaches, member, unpassed⟩
  | subscribing peerId body phase => exact held

end

theorem fanOutHolds_of_runs {settings : HubSettings} {exposedEvents : List String}
    {emitTelemetry : StreamRateOptions} {index : Nat}
    {history : List (Nat × HubEvent)} {pool : HubPool}
    (created : new exposedEvents emitTelemetry = .ok hub)
    (runs : HubRuns settings (NotTakenUpAgain index) hub history pool) :
    (pool.calls.length ≤ index → ownOutputs history index = []) ∧
      ∀ call, pool.calls[index]? = some call →
        FanOutHolds (ownOutputs history index) pool.shared call := by
  refine focused_invariant index FanOutHolds ?_ ?_ ?_ ?_ runs
  · intro _ before action after call events earlier _ launched
    have keyed : WellKeyed after :=
      (launchHub_pruned launched).wellKeyed (wellKeyed_of_runs created earlier)
    rcases launchHub_some launched with
      ⟨topic, payload, sweepNow, now, _, started⟩ | ⟨peerId, body, now, _, started⟩
    · cases emitLocal_start started with
      | refused | ended => simp [FanOutHolds, takenUp, cursor?]
      | @reached _ emission position key subscription wait _ _ located stored _ =>
        have keyEq : subscription.key = key := keyed key subscription stored
        have untouched : NoneAhead after emission [] 0 :=
          fun _ _ _ _ _ _ _ => List.not_mem_nil
        have passed : NoneAhead after emission [key] (position + 1) :=
          untouched.passes (Nat.zero_le position) located
        refine ⟨List.nodup_nil, List.nodup_singleton _, ?_⟩
        intro cursor standing
        cases standing
        simp only [takenUp, servedKeys_nil, keyEq]
        exact passed
    · cases handleSubReq_start started with
      | rejected | removed | checking => rfl
  · intro _ before answer own call after next events earlier _ _ _ held resumed
    have keyed : WellKeyed before.shared := wellKeyed_of_runs created earlier
    rcases resumeHub_some resumed with
      ⟨emission, phase, rfl, resumes⟩ | ⟨peerId, body, phase, rfl, resumes⟩
    · exact held.turn keyed (resumeEmit_turn resumes)
    · have quiet : servedKeys own = [] := held
      cases resumeSubscribe_turn resumes with
      | waiting | rejected | granted => simpa [FanOutHolds] using quiet
  · intro _ before action own call after left _ _ _ _ held launched
    exact held.pruned (launchHub_pruned launched)
  · intro _ before other answer own call turned after next events _ permitted ownEq located held
      found resumed
    rcases resumeHub_stores resumed with
      pruned | ⟨_, _, _, _, _, _, _, kept, _⟩ |
      ⟨peerId, body, peer, now, rfl, rfl, belowPeerCap, belowTopicCap, stored, _⟩
    · exact held.pruned pruned
    · exact held.congr kept
    · have once : ¬ call.TakesUpAgain own before.shared
          (grantedSubscription peerId body peer now) := by
        rw [ownEq]
        exact permitted other peerId body peer now call rfl found belowPeerCap belowTopicCap located
      exact held.stored stored once

theorem FanOutHolds.nodup {own : List HubEvent} {call : HubCall}
    (held : FanOutHolds own hub call) : (own.filterMap HubEvent.recipient?).Nodup := by
  have servedOnce : (servedKeys own).Nodup := by
    cases call with
    | emitting emission phase => exact held.1
    | subscribing peerId body phase =>
      have quiet : servedKeys own = [] := held
      rw [quiet]
      exact List.nodup_nil
  exact List.Nodup.of_map _ servedOnce

/-- An emission hands each subscription at most one frame if no request that is
granted meanwhile is taken up by it again. -/
theorem emission_serves_once {settings : HubSettings} {exposedEvents : List String}
    {emitTelemetry : StreamRateOptions} {hub : SubscriptionHub} {index : Nat}
    {history : List (Nat × HubEvent)} {pool : HubPool}
    (created : new exposedEvents emitTelemetry = .ok hub)
    (runs : HubRuns settings (NotTakenUpAgain index) hub history pool) :
    (handedTo history index).Nodup := by
  obtain ⟨silent, held⟩ := fanOutHolds_of_runs created runs
  cases located : pool.calls[index]? with
  | none =>
    have beyond : pool.calls.length ≤ index := List.getElem?_eq_none_iff.mp located
    rw [handedTo, silent beyond]
    exact List.nodup_nil
  | some call => exact (held call located).nodup

def grantsEarly (pool : HubPool) : HubLabel → Bool
  | .resume _ (.commit _ _) => decide (pool.calls.length ≤ 1)
  | _ => true

/-- An emission that serves its one subscriber once. -/
theorem emission_serves_once_lanHub :
    ∃ history pool, HubRuns lanSettings (NotTakenUpAgain 1) lanHub history pool ∧
      handedTo history 1 = [("peer", "sub")] ∧ (handedTo history 1).Nodup := by
  obtain ⟨history, pool, runs, served⟩ := Transition.exists_runs_of_runWhile
    (hubProgram lanSettings).step (fun _ => grantsEarly)
    (NotTakenUpAgain 1) (Pool.initial lanHub)
    (lanSubscribe 0 0 ++
      [.launch (.emitLocal "calendar:added" .null 1 1), .resume 1 (.dispatch 0 1 1),
        .resume 1 (.sent (.resolved true))])
    (fun result => decide (handedTo result.2 1 = [("peer", "sub")]))
    (by
      rintro history pool label admitted other peerId body peer now call rfl _ _ _ located
      have present := (List.getElem?_eq_some_iff.mp located).1
      have early : pool.calls.length ≤ 1 := of_decide_eq_true admitted
      omega)
    (by decide)
  exact ⟨history, pool, runs, of_decide_eq_true served, emission_serves_once lanHub_created runs⟩

/-- A subscriber that leaves and comes back while the emission awaits the
network is handed two frames. -/
theorem resubscriber_served_twice :
    ∃ (settings : HubSettings) (exposedEvents : List String) (emitTelemetry : StreamRateOptions)
      (hub : SubscriptionHub) (index : Nat) (history : List (Nat × HubEvent)) (pool : HubPool),
      new exposedEvents emitTelemetry = .ok hub ∧
      HubRuns settings Transition.unrestricted hub history pool ∧
      ¬ (handedTo history index).Nodup := by
  obtain ⟨history, pool, runs, served⟩ := Transition.exists_runs_of_any
    (hubProgram lanSettings).step (fun _ => True) (Pool.initial lanHub)
    (lanSubscribe 0 0 ++
      [.launch (.emitLocal "calendar:added" .null 1 1), .resume 1 (.dispatch 0 1 1),
        .launch (.handleSubReq "peer" (lanRequest .unsubscribe) 2)] ++
      lanSubscribe 3 2 ++ [.resume 1 (.sent (.resolved true)), .resume 1 (.dispatch 0 2 2)])
    (fun result => decide (handedTo result.2 1 = [("peer", "sub"), ("peer", "sub")]))
    (fun _ _ => trivial) (by decide)
  have twice : handedTo history 1 = [("peer", "sub"), ("peer", "sub")] := of_decide_eq_true served
  refine ⟨lanSettings, _, _, lanHub, 1, history, pool, lanHub_created, runs, ?_⟩
  rw [twice]
  decide

end P2PHub
