import P2PHub.SubscriptionHubRuns

/-!
# Refreshing a subscription

A subscribe request for a subscription that the peer holds is meant as a
heartbeat.  The caps count the subscription being refreshed, so the request is
a heartbeat exactly where both counts lie below their caps.
-/

namespace P2PHub

open AsyncCalls Transition OrderedMap SubscriptionHub

def PeerSubscription.identity (subscription : PeerSubscription) : String × String × String :=
  (subscription.peerId, subscription.subscriptionId, subscription.topic)

/-- The subscription of a request is stored. -/
structure Holding (hub : SubscriptionHub) (peerId : String) (body : SubReqBody)
    (held : PeerSubscription) : Prop where
  member : held ∈ hub.subscriptions.values
  identity : held.identity = (peerId, body.subscriptionId, body.topic)

/-- The request is accepted, renews its subscription and changes nothing else. -/
structure Refreshed (before after : SubscriptionHub) (peerId : String) (body : SubReqBody)
    (now : Int) (events : List HubEvent) : Prop where
  accepted : ∃ ack, events = [.subAck peerId body ack] ∧ ack.accepted = true ∧
    ack.ttlMs = some (grantedTtl body)
  renewed : ∃ subscription,
    after.subscriptions.get (keyFor peerId body.subscriptionId) = some subscription ∧
      subscription.expiresAt = now + grantedTtl body
  identities : after.subscriptions.values.map PeerSubscription.identity =
    before.subscriptions.values.map PeerSubscription.identity
  others : ∀ key, key ≠ keyFor peerId body.subscriptionId →
    after.subscriptions.get key = before.subscriptions.get key

section

variable {hub : SubscriptionHub} {peerId : String} {body : SubReqBody} {held : PeerSubscription}

theorem Holding.stored (holding : Holding hub peerId body held) (keyed : WellKeyed hub) :
    hub.subscriptions.get (keyFor peerId body.subscriptionId) = some held := by
  obtain ⟨key, stored⟩ := mem_values.mp holding.member
  have keyEq : held.key = key := keyed key held stored
  obtain ⟨peerEq, idEq, _⟩ := Prod.mk.inj holding.identity |>.imp id Prod.mk.inj
  rw [← peerEq, ← idEq]
  rwa [← keyEq] at stored

theorem Holding.sweep (holding : Holding hub peerId body held) {now : Int}
    (unexpired : now < held.expiresAt) : Holding (hub.sweep now) peerId body held := by
  obtain ⟨key, stored⟩ := mem_values.mp holding.member
  refine ⟨mem_values.mpr ⟨key, ?_⟩, holding.identity⟩
  rw [SubscriptionHub.sweep, get_deleteWhere, stored]
  simp [Option.filter, unexpired]

theorem rejectSubReq_not_refreshed (before : SubscriptionHub) (now : Int) (reason : SubAckReason) :
    ¬ Refreshed before (rejectSubReq hub peerId body reason).hub peerId body now
      (rejectSubReq hub peerId body reason).events := by
  intro refreshed
  obtain ⟨ack, eventsEq, accepted, _⟩ := refreshed.accepted
  simp only [rejectSubReq, answerSubReq, List.cons.injEq, HubEvent.subAck.injEq, and_true,
    true_and] at eventsEq
  rw [← eventsEq] at accepted
  cases accepted

/-- Committing a granted request for a held subscription refreshes it exactly
when the caps are not reached. -/
theorem commitSubscription_refreshes_iff (keyed : WellKeyed hub)
    (holding : Holding hub peerId body held) (peer : NetworkPeer) (now : Int) :
    Refreshed hub (commitSubscription hub peerId body (some peer) now).hub peerId body now
        (commitSubscription hub peerId body (some peer) now).events ↔
      hub.countForPeer peerId < maxSubscriptionsPerPeer ∧
        hub.countForTopic body.topic < maxSubscriptionsPerTopic := by
  have stored := holding.stored keyed
  unfold commitSubscription
  split
  · next peerFull =>
      refine iff_of_false (rejectSubReq_not_refreshed hub now _) ?_
      intro below
      exact absurd below.1 (Nat.not_lt.mpr peerFull)
  · next belowPeerCap =>
      split
      · next topicFull =>
          refine iff_of_false (rejectSubReq_not_refreshed hub now _) ?_
          intro below
          exact absurd below.2 (Nat.not_lt.mpr topicFull)
      · next belowTopicCap =>
          refine iff_of_true ⟨⟨_, rfl, rfl, rfl⟩, ⟨_, get_set_self _ _ _, rfl⟩, ?_, ?_⟩
            ⟨Nat.lt_of_not_le belowPeerCap, Nat.lt_of_not_le belowTopicCap⟩
          · exact map_values_set _ stored holding.identity.symm
          · intro key apart
            exact get_set_of_ne _ _ apart

end

section

variable {settings : HubSettings} {pool waiting : HubPool} {peerId : String} {body : SubReqBody}
  {answers : List HubAnswer} {outputs : List (Nat × HubEvent)}

theorem answered_stays {index : Nat}
    (found : pool.calls[index]? = some (.subscribing peerId body .answered))
    (executed : run (hubProgram settings).step pool (answers.map (.resume index)) =
      some (waiting, outputs)) :
    waiting.calls[index]? = some (.subscribing peerId body .answered) := by
  cases answers with
  | nil =>
    simp only [List.map_nil, run, Option.some.injEq, Prod.mk.injEq] at executed
    rw [← executed.1]
    exact found
  | cons answer answers =>
    have stuck : (hubProgram settings).step pool (.resume index answer) = none := by
      simp [Program.step, found, hubProgram, resumeHub, resumeSubscribe_answered]
    simp [run, stuck] at executed

/-- A request that takes nothing but its own turns leaves the hub alone until it
is answered. -/
theorem answers_keep_hub {index : Nat} {phase : SubscribePhase}
    (found : pool.calls[index]? = some (.subscribing peerId body phase))
    (executed : run (hubProgram settings).step pool (answers.map (.resume index)) =
      some (waiting, outputs)) : (waiting.shared = pool.shared ∧
        ∃ last, waiting.calls[index]? = some (.subscribing peerId body last)) ∨
      waiting.calls[index]? = some (.subscribing peerId body .answered) := by
  induction answers generalizing pool phase outputs with
  | nil =>
    cases executed
    exact Or.inl ⟨rfl, phase, found⟩
  | cons answer answers ih =>
    simp only [List.map_cons, run, Option.bind_eq_some_iff, Option.map_eq_some_iff,
      Prod.mk.injEq] at executed
    obtain ⟨⟨after, turnOutputs⟩, stepped, ⟨last, later⟩, continued, rfl, _⟩ := executed
    obtain ⟨shared, calls⟩ := after
    rcases Program.step_cases stepped with
      ⟨_, notLaunched, _⟩ | ⟨_, _, _, notLaunched, _⟩ |
      ⟨turn, _, call, next, events, labelEq, turnFound, resumed, callsEq, _⟩
    · cases notLaunched
    · cases notLaunched
    · cases labelEq
      rw [found] at turnFound
      cases turnFound
      have bound := (List.getElem?_eq_some_iff.mp found).1
      obtain rfl : calls = pool.calls.set index next := callsEq
      have nextFound : (pool.calls.set index next)[index]? = some next :=
        List.getElem?_set_self bound
      rcases resumeHub_some resumed with ⟨_, _, notEmitting, _⟩ | ⟨_, _, _, callEq, resumes⟩
      · cases notEmitting
      · cases callEq
        cases resumeSubscribe_turn resumes with
        | waiting =>
          have kept := ih nextFound continued
          exact kept
        | rejected | granted => exact Or.inr (answered_stays nextFound continued)

/-- Once all gates have granted an uninterrupted request, the hub is as its
launch swept it. -/
theorem granted_request_sweeps {now : Int} (subscribes : body.action = .subscribe)
    (executed : run (hubProgram settings).step pool (.launch (.handleSubReq peerId body now) ::
        answers.map (.resume pool.calls.length)) = some (waiting, outputs))
    (granted : waiting.calls[pool.calls.length]? =
      some (.subscribing peerId body (.guarding (.decided true)))) :
    waiting.shared = pool.shared.sweep now := by
  simp only [run, Option.bind_eq_some_iff, Option.map_eq_some_iff, Prod.mk.injEq]
    at executed
  obtain ⟨⟨launched, launchOutputs⟩, stepped, ⟨last, later⟩, continued, rfl, _⟩ := executed
  have launchedEq : launched = ⟨(handleSubReq settings pool.shared peerId body now).hub,
      pool.calls ++ [(handleSubReq settings pool.shared peerId body now).call]⟩ := by
    simp only [Program.step, hubProgram, HubStep.left, Option.some.injEq, Prod.mk.injEq]
      at stepped
    exact stepped.1.symm
  rcases handleSubReq_cases settings pool.shared peerId body now with
    ⟨reason, rejected⟩ | ⟨unsubscribes, _, _⟩ | ⟨_, _, _, checking⟩
  · rw [rejected] at launchedEq
    have answered : launched.calls[pool.calls.length]? =
        some (.subscribing peerId body .answered) := by
      simp [launchedEq, rejectSubReq, answerSubReq]
    rw [answered_stays answered continued] at granted
    cases granted
  · rw [subscribes] at unsubscribes
    cases unsubscribes
  · rw [checking] at launchedEq
    have pending : launched.calls[pool.calls.length]? =
        some (.subscribing peerId body .checkingPeer) := by
      simp [launchedEq]
    rcases answers_keep_hub pending continued with ⟨kept, _⟩ | answered
    · rw [kept, launchedEq]
    · rw [answered] at granted
      cases granted

def HubCall.granted (peerId : String) (body : SubReqBody) : HubCall → Bool
  | .subscribing caller request (.guarding (.decided true)) =>
    decide (caller = peerId ∧ request = body)
  | _ => false

theorem eq_of_granted {call : HubCall} (granted : call.granted peerId body) :
    call = .subscribing peerId body (.guarding (.decided true)) := by
  unfold HubCall.granted at granted
  split at granted
  · obtain ⟨rfl, rfl⟩ := of_decide_eq_true granted
    rfl
  · cases granted

theorem exists_granted_request (settings : HubSettings) (hub : SubscriptionHub)
    (peerId : String) (body : SubReqBody) (front : List HubLabel) (now commitNow : Int)
    (answers : List HubAnswer) (peer : NetworkPeer) (test : HubPool → List HubEvent → Bool)
    (passed : ((run (hubProgram settings).step (Pool.initial hub) front).bind
      fun earlier => (run (hubProgram settings).step earlier.1
        (.launch (.handleSubReq peerId body now) ::
          answers.map (.resume earlier.1.calls.length))).bind
      fun requested => ((hubProgram settings).step requested.1
        (.resume earlier.1.calls.length (.commit (some peer) commitNow))).map fun committed =>
        (requested.1.calls[earlier.1.calls.length]?).any (HubCall.granted peerId body) &&
          test earlier.1 (committed.2.map Prod.snd)) = some true) :
    ∃ history pool waiting outputs after committed, HubRuns settings unrestricted hub history pool ∧
      run (hubProgram settings).step pool
        (.launch (.handleSubReq peerId body now) :: answers.map (.resume pool.calls.length)) =
          some (waiting, outputs) ∧ waiting.calls[pool.calls.length]? =
        some (.subscribing peerId body (.guarding (.decided true))) ∧
      (hubProgram settings).step waiting
        (.resume pool.calls.length (.commit (some peer) commitNow)) = some (after, committed) ∧
      test pool (committed.map Prod.snd) := by
  simp only [Option.bind_eq_some_iff, Option.map_eq_some_iff, Bool.and_eq_true] at passed
  obtain ⟨⟨pool, history⟩, first, ⟨waiting, outputs⟩, requested, ⟨after, committed⟩, commits,
    granted, tested⟩ := passed
  have reached : HubRuns settings unrestricted hub history pool :=
    runs_of_run (fun _ _ => trivial) first
  refine ⟨history, pool, waiting, outputs, after, committed, reached, requested, ?_, commits,
    tested⟩
  cases found : waiting.calls[pool.calls.length]? with
  | none =>
    rw [found] at granted
    cases granted
  | some call =>
    rw [found] at granted
    rw [eq_of_granted granted]

end

/-- A subscribe request for a held subscription that passes all gates is a
heartbeat exactly when both counts lie below their caps. -/
theorem request_refreshes_iff {settings : HubSettings} {exposedEvents : List String}
    {emitTelemetry : StreamRateOptions} {hub : SubscriptionHub}
    {history outputs committed : List (Nat × HubEvent)} {pool waiting after : HubPool}
    {peerId : String} {body : SubReqBody} {held : PeerSubscription} {peer : NetworkPeer}
    {now commitNow : Int} {answers : List HubAnswer}
    (created : new exposedEvents emitTelemetry = .ok hub)
    (reached : HubRuns settings unrestricted hub history pool)
    (holding : Holding pool.shared peerId body held) (unexpired : now < held.expiresAt)
    (subscribes : body.action = .subscribe)
    (executed : run (hubProgram settings).step pool (.launch (.handleSubReq peerId body now) ::
        answers.map (.resume pool.calls.length)) = some (waiting, outputs))
    (granted : waiting.calls[pool.calls.length]? =
      some (.subscribing peerId body (.guarding (.decided true))))
    (commits : (hubProgram settings).step waiting
      (.resume pool.calls.length (.commit (some peer) commitNow)) = some (after, committed)) :
    Refreshed (pool.shared.sweep now) after.shared peerId body commitNow (committed.map Prod.snd) ↔
      (pool.shared.sweep now).countForPeer peerId < maxSubscriptionsPerPeer ∧
        (pool.shared.sweep now).countForTopic body.topic < maxSubscriptionsPerTopic := by
  have keyed : WellKeyed (pool.shared.sweep now) :=
    (sweep_pruned pool.shared now).wellKeyed (wellKeyed_of_runs created reached)
  have swept : waiting.shared = pool.shared.sweep now :=
    granted_request_sweeps subscribes executed granted
  have committedEq : after.shared =
        (commitSubscription waiting.shared peerId body (some peer) commitNow).hub ∧
      committed.map Prod.snd =
        (commitSubscription waiting.shared peerId body (some peer) commitNow).events := by
    simp only [Program.step, granted, Option.bind_some, hubProgram, resumeHub, resumeSubscribe,
      Option.map_some] at commits
    cases commits
    simp [Function.comp_def]
  rw [committedEq.1, committedEq.2, swept]
  exact commitSubscription_refreshes_iff keyed (holding.sweep unexpired) peer commitNow

/-- A subscriber that refreshes its only subscription. -/
theorem request_refreshes_lanHub : ∃ (pool after : HubPool) (committed : List (Nat × HubEvent)),
      Refreshed (pool.shared.sweep 1) after.shared "peer" (lanRequest .subscribe) 1
        (committed.map Prod.snd) := by
  obtain ⟨history, pool, waiting, outputs, after, committed, reached, executed, granted, commits,
    tested⟩ := exists_granted_request lanSettings lanHub "peer"
      (lanRequest .subscribe) (lanSubscribe 0 0) 1 1 [.access 0] lanPeer
      (fun pool _ =>
        decide (grantedSubscription "peer" (lanRequest .subscribe) lanPeer 0 ∈
          pool.shared.subscriptions.values) &&
        decide ((pool.shared.sweep 1).countForPeer "peer" < maxSubscriptionsPerPeer ∧
          (pool.shared.sweep 1).countForTopic "calendar:added" < maxSubscriptionsPerTopic))
      (by decide)
  simp only [Bool.and_eq_true, decide_eq_true_eq] at tested
  exact ⟨pool, after, committed,
    (request_refreshes_iff lanHub_created reached ⟨tested.1, rfl⟩ (by decide) rfl executed granted
      commits).mpr tested.2⟩

def crowdRequest (index : Nat) : SubReqBody where
  subscriptionId := String.singleton (Char.ofNat (48 + index))
  topic := "calendar:added"
  action := .subscribe

def crowd : List HubLabel :=
  (List.range maxSubscriptionsPerPeer).flatMap fun index =>
    [.launch (.handleSubReq "peer" (crowdRequest index) 0), .resume index (.access 0),
      .resume index (.commit (some lanPeer) 0)]

def refuses : List HubEvent → Bool
  | [.subAck _ _ ack] => !ack.accepted
  | _ => false

/-- A peer that holds as many subscriptions as it may is refused the refresh of
any of them. -/
theorem full_peer_refresh_refused :
    ∃ (settings : HubSettings) (exposedEvents : List String) (emitTelemetry : StreamRateOptions)
      (hub : SubscriptionHub) (history outputs committed : List (Nat × HubEvent))
      (pool waiting after : HubPool) (peerId : String) (body : SubReqBody)
      (held : PeerSubscription) (peer : NetworkPeer) (now commitNow : Int)
      (answers : List HubAnswer), new exposedEvents emitTelemetry = .ok hub ∧
      HubRuns settings unrestricted hub history pool ∧
      Holding pool.shared peerId body held ∧ now < held.expiresAt ∧ body.action = .subscribe ∧
      run (hubProgram settings).step pool (.launch (.handleSubReq peerId body now) ::
          answers.map (.resume pool.calls.length)) = some (waiting, outputs) ∧
      waiting.calls[pool.calls.length]? =
        some (.subscribing peerId body (.guarding (.decided true))) ∧
      (hubProgram settings).step waiting
        (.resume pool.calls.length (.commit (some peer) commitNow)) = some (after, committed) ∧
      ¬ Refreshed (pool.shared.sweep now) after.shared peerId body commitNow
        (committed.map Prod.snd) := by
  obtain ⟨history, pool, waiting, outputs, after, committed, reached, executed, granted, commits,
    tested⟩ := exists_granted_request lanSettings lanHub "peer" (crowdRequest 0)
      crowd 1 1 [.access 0] lanPeer
      (fun pool events =>
        decide (grantedSubscription "peer" (crowdRequest 0) lanPeer 0 ∈
          pool.shared.subscriptions.values) && refuses events)
      (by decide +kernel)
  simp only [Bool.and_eq_true, decide_eq_true_eq] at tested
  obtain ⟨member, refused⟩ := tested
  refine ⟨lanSettings, _, _, lanHub, history, outputs, committed, pool, waiting, after, "peer",
    crowdRequest 0, grantedSubscription "peer" (crowdRequest 0) lanPeer 0, lanPeer, 1, 1,
    [.access 0], lanHub_created, reached, ⟨member, rfl⟩, by decide, rfl, executed, granted,
    commits, ?_⟩
  intro refreshed
  obtain ⟨ack, eventsEq, accepted, _⟩ := refreshed.accepted
  rw [eventsEq] at refused
  simp [refuses, accepted] at refused

end P2PHub
