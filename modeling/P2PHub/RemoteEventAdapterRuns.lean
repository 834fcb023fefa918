import P2PHub.RemoteEventAdapter

/-!
# Turns of the remote event adapter

What one turn does, for a subscription id, to the subscription held under it
and to the calls that await the answer to subscribe with it.
-/

namespace P2PHub

open AsyncCalls AdapterCall OrderedMap AdapterStep

abbrev AdapterPool := Pool RemoteEventAdapter AdapterCall

abbrev AdapterLabel := Label AdapterAction AdapterAnswer

def AdapterCall.awaits (subscriptionId : String) : AdapterCall → Bool
  | .subscribing _ _ _ awaited => decide (awaited = subscriptionId)
  | .unsubscribing => false
  | .refreshing _ => false
  | .finished => false

/-- The number last seen by the subscription under an id. -/
def heldNumber (adapter : RemoteEventAdapter) (subscriptionId : String) : Option Nat :=
  (adapter.subscriptions.get subscriptionId).map RemoteSubscription.lastSequenceNumber

def lastSeen (adapter : RemoteEventAdapter) (subscriptionId : String) : Nat :=
  (heldNumber adapter subscriptionId).getD 0

/-- How often an id is in use: by calls awaiting it and by a subscription. -/
def occupancy (pool : AdapterPool) (subscriptionId : String) : Nat :=
  pool.calls.countP (awaits subscriptionId) + (heldNumber pool.shared subscriptionId).isSome.toNat

/-- The requests that outputs hand to the network, with their calls. -/
def requestsFrom (outputs : List (Nat × AdapterEvent)) : List (Nat × SubReqBody) :=
  outputs.filterMap fun output => match output.2 with
    | .sendSubReq _ body => some (output.1, body)
    | _ => none

/-- A turn does not add to the uses of an id, nor to what is seen under it. -/
structure Releases (before after : AdapterPool) (subscriptionId : String) : Prop where
  occupancy : occupancy after subscriptionId ≤ occupancy before subscriptionId
  lastSeen : lastSeen after.shared subscriptionId ≤ lastSeen before.shared subscriptionId

section

variable {adapter : RemoteEventAdapter} {call : AdapterCall} {calls : List AdapterCall}
  {subscriptionId : String} {index : Nat} {before after : RemoteEventAdapter}

theorem Releases.of_fewer {before after : AdapterPool}
    (calls : after.calls.countP (awaits subscriptionId) ≤
      before.calls.countP (awaits subscriptionId))
    (held : heldNumber after.shared subscriptionId = heldNumber before.shared subscriptionId ∨
      heldNumber after.shared subscriptionId = none) : Releases before after subscriptionId := by
  rcases held with same | gone
  · refine ⟨?_, ?_⟩
    · unfold P2PHub.occupancy
      rw [same]
      omega
    · unfold P2PHub.lastSeen
      rw [same]
  · refine ⟨?_, ?_⟩
    · unfold P2PHub.occupancy
      rw [gone]
      simp only [Option.isSome_none, Bool.toNat_false]
      omega
    · unfold P2PHub.lastSeen
      rw [gone]
      exact Nat.zero_le _

theorem heldNumber_congr
    (same : after.subscriptions = before.subscriptions) (subscriptionId : String) :
    heldNumber after subscriptionId = heldNumber before subscriptionId := by
  unfold heldNumber
  rw [same]

theorem heldNumber_set {changed : String} {subscription : RemoteSubscription}
    (stored : after.subscriptions = before.subscriptions.set changed subscription)
    (subscriptionId : String) : heldNumber after subscriptionId =
      if subscriptionId = changed then some subscription.lastSequenceNumber
      else heldNumber before subscriptionId := by
  unfold heldNumber
  rw [stored, get_set]
  split <;> rfl

theorem heldNumber_renewed {renewed : String} {expiresAt : Int}
    (stored : after.subscriptions = before.subscriptions.rewrite fun id subscription =>
      some (if id = renewed then { subscription with expiresAt := expiresAt }
        else subscription)) (subscriptionId : String) :
    heldNumber after subscriptionId = heldNumber before subscriptionId := by
  unfold heldNumber
  rw [stored, get_rewrite]
  cases before.subscriptions.get subscriptionId with
  | none => rfl
  | some =>
    split <;> rfl

theorem countP_awaits_append (quiet : call.awaits subscriptionId = false) :
    (calls ++ [call]).countP (awaits subscriptionId) = calls.countP (awaits subscriptionId) := by
  simp [quiet]

theorem countP_awaits_set (quiet : call.awaits subscriptionId = false) :
    (calls.set index call).countP (awaits subscriptionId) ≤
      calls.countP (awaits subscriptionId) := by
  by_cases bound : index < calls.length
  · rw [List.countP_set bound, quiet]
    simp
  · rw [List.set_eq_of_length_le (Nat.le_of_not_lt bound)]

theorem heldNumber_teardown (adapter : RemoteEventAdapter) (removed subscriptionId : String) :
    heldNumber (adapter.teardown removed) subscriptionId = heldNumber adapter subscriptionId ∨
      heldNumber (adapter.teardown removed) subscriptionId = none := by
  unfold heldNumber RemoteEventAdapter.teardown
  by_cases same : subscriptionId = removed
  · subst same
    exact Or.inr (by rw [get_delete_self, Option.map_none])
  · exact Or.inl (by rw [get_delete_of_ne _ same])

end

/-- What the first turn of a call can do. -/
inductive AdapterLaunch (adapter : RemoteEventAdapter) :
    AdapterAction → RemoteEventAdapter → AdapterCall → List AdapterEvent → Prop
  | refused {peer : NetworkPeer} {topic subscriptionId reason : String} :
      AdapterLaunch adapter (.subscribeRemote peer topic subscriptionId) adapter .finished
        [.subscriptionRejected "" topic reason]
  | subscribes {peer : NetworkPeer} {peerId topic subscriptionId : String} :
      AdapterLaunch adapter (.subscribeRemote peer topic subscriptionId) adapter
        (.subscribing peer peerId topic subscriptionId)
        [.sendSubReq peer (adapter.subscribeBody subscriptionId topic)]
  | unknown {subscriptionId : String} :
      AdapterLaunch adapter (.unsubscribeRemote subscriptionId) adapter .finished
        [.unsubscribed false]
  | unsubscribes {subscriptionId : String} {subscription : RemoteSubscription}
      (held : adapter.subscriptions.get subscriptionId = some subscription) :
      AdapterLaunch adapter (.unsubscribeRemote subscriptionId)
        (adapter.teardown subscriptionId) .unsubscribing
        [.sendSubReq subscription.peer
          { subscriptionId := subscriptionId
            topic := subscription.topic
            action := .unsubscribe }]
  | refreshes {subscriptionId : String} {fired : RemoteEventAdapter} {call : AdapterCall}
      {events : List AdapterEvent} (same : fired.subscriptions = adapter.subscriptions)
      (quiet : ∀ awaited, call.awaits awaited = false)
      (subscribing : ∀ peer body, .sendSubReq peer body ∈ events → body.action = .subscribe) :
      AdapterLaunch adapter (.refresh subscriptionId) fired call events
  | dropped {peerId : String} {body : EventEmitBody} {now : Int} {charged : RemoteEventAdapter}
      (same : charged.subscriptions = adapter.subscriptions) :
      AdapterLaunch adapter (.handleInboundEvent peerId body now) charged .finished []
  | handled {peerId : String} {body : EventEmitBody} {now : Int} {charged : RemoteEventAdapter}
      {subscription : RemoteSubscription} {event : RemoteEvent}
      (held : adapter.subscriptions.get body.subscriptionId = some subscription)
      (stored : charged.subscriptions = adapter.subscriptions.set body.subscriptionId
        { subscription with lastSequenceNumber := body.sequenceNumber }) :
      AdapterLaunch adapter (.handleInboundEvent peerId body now) charged .finished
        [.handled event]

/-- What the last turn of a call can do. -/
inductive AdapterResume (adapter : RemoteEventAdapter) :
    AdapterCall → RemoteEventAdapter → List AdapterEvent → Prop
  | subscribed {peer : NetworkPeer} {peerId topic subscriptionId : String}
      {subscription : RemoteSubscription} {after : RemoteEventAdapter}
      (unseen : subscription.lastSequenceNumber = 0)
      (stored : after.subscriptions = adapter.subscriptions.set subscriptionId subscription) :
      AdapterResume adapter (.subscribing peer peerId topic subscriptionId) after
        [.subscribed subscriptionId]
  | rejected {peer : NetworkPeer} {peerId topic subscriptionId reason : String} :
      AdapterResume adapter (.subscribing peer peerId topic subscriptionId) adapter
        [.subscriptionRejected subscriptionId topic reason]
  | unsubscribed : AdapterResume adapter .unsubscribing adapter [.unsubscribed true]
  | renewed {subscriptionId : String} {expiresAt : Int} {after : RemoteEventAdapter}
      (stored : after.subscriptions = adapter.subscriptions.rewrite fun id subscription =>
        some (if id = subscriptionId then { subscription with expiresAt := expiresAt }
          else subscription)) :
      AdapterResume adapter (.refreshing subscriptionId) after []
  | lost {subscriptionId reason : String} :
      AdapterResume adapter (.refreshing subscriptionId) (adapter.teardown subscriptionId)
        [.subscriptionLost subscriptionId reason]

section

variable {adapter next : RemoteEventAdapter} {action : AdapterAction} {call after : AdapterCall}
  {events : List AdapterEvent} {answer : AdapterAnswer}

theorem handleInboundEvent_launch (adapter : RemoteEventAdapter) (peerId : String)
    (body : EventEmitBody) (now : Int) : let step := handleInboundEvent adapter peerId body now
    AdapterLaunch adapter (.handleInboundEvent peerId body now) step.adapter step.call
      step.events := by
  unfold handleInboundEvent
  split
  · exact .dropped rfl
  split
  · exact .dropped rfl
  · next subscription held =>
      split
      · exact .dropped rfl
      split
      · exact .dropped rfl
      split
      · exact .dropped rfl
      split
      · exact .dropped rfl
      · dsimp only
        split
        · exact .handled held rfl
        · exact .dropped rfl

theorem launchAdapter_some
    (launched : adapterProgram.launch adapter action = (next, some (call, events))) :
    AdapterLaunch adapter action next call events := by
  cases action with
  | subscribeRemote =>
    cases launched
    unfold subscribeRemote
    split
    · exact .refused
    · split
      · exact .refused
      · exact .subscribes
  | unsubscribeRemote =>
    cases launched
    unfold unsubscribeRemote
    split
    · exact .unknown
    · next subscription held => exact .unsubscribes held
  | handleInboundEvent peerId body now =>
    cases launched
    exact handleInboundEvent_launch adapter peerId body now
  | refresh =>
    simp only [adapterProgram] at launched
    split at launched
    · cases congrArg Prod.snd launched
    · simp only [left] at launched
      cases launched
      unfold refresh
      dsimp only
      split
      · exact .refreshes rfl (fun _ => rfl) (by simp)
      · refine .refreshes rfl (fun _ => rfl) ?_
        intro peer body member
        simp only [List.mem_singleton, AdapterEvent.sendSubReq.injEq] at member
        rw [member.2]
        rfl
  | close => cases congrArg Prod.snd launched

theorem launchAdapter_none (launched : adapterProgram.launch adapter action = (next, none)) :
    next = adapter ∨ next = adapter.close := by
  cases action with
  | subscribeRemote | unsubscribeRemote | handleInboundEvent => cases congrArg Prod.snd launched
  | refresh =>
    simp only [adapterProgram] at launched
    split at launched
    · exact Or.inl (congrArg Prod.fst launched).symm
    · cases congrArg Prod.snd launched
  | close => exact Or.inr (congrArg Prod.fst launched).symm

theorem resumeAdapter_some
    (resumed : adapterProgram.resume adapter call answer = some (next, after, events)) :
    after = .finished ∧ AdapterResume adapter call next events := by
  simp only [adapterProgram, Option.map_eq_some_iff, Prod.mk.injEq] at resumed
  obtain ⟨step, stepEq, rfl, rfl, rfl⟩ := resumed
  cases call with
  | subscribing =>
    cases stepEq
    unfold resumeSubscribeRemote
    split
    · split
      · exact ⟨rfl, .subscribed rfl rfl⟩
      · exact ⟨rfl, .rejected⟩
    · exact ⟨rfl, .rejected⟩
  | unsubscribing =>
    cases stepEq
    exact ⟨rfl, .unsubscribed⟩
  | refreshing =>
    cases stepEq
    unfold resumeRefresh
    split
    · split
      · exact ⟨rfl, .renewed rfl⟩
      · exact ⟨rfl, .lost⟩
    · exact ⟨rfl, .lost⟩
  | finished => cases stepEq

end

variable {before after : AdapterPool} {label : AdapterLabel} {outputs : List (Nat × AdapterEvent)}
  {events : List AdapterEvent} {subscriptionId : String} {request : Nat × SubReqBody}

/-- A call comes to await an id only by a launch to subscribe with it. -/
def LaunchesSubscription (label : AdapterLabel) (subscriptionId : String) : Prop :=
  ∃ peer topic, label = .launch (.subscribeRemote peer topic subscriptionId)

def DeliversEvent (label : AdapterLabel) : Prop :=
  ∃ peerId body now, label = .launch (.handleInboundEvent peerId body now)

theorem releases_of_launch {action : AdapterAction} {call : AdapterCall}
    (turn : AdapterLaunch before.shared action after.shared call events)
    (callsEq : after.calls = before.calls ++ [call])
    (others : ¬ LaunchesSubscription (.launch action) subscriptionId)
    (outbound : ¬ DeliversEvent (.launch action)) : Releases before after subscriptionId := by
  obtain ⟨shared, calls⟩ := after
  obtain rfl : calls = before.calls ++ [call] := callsEq
  have fewer (quiet : call.awaits subscriptionId = false) :
      (before.calls ++ [call]).countP (awaits subscriptionId) ≤
        before.calls.countP (awaits subscriptionId) :=
    Nat.le_of_eq (countP_awaits_append quiet)
  cases turn with
  | refused | unknown => exact Releases.of_fewer (fewer rfl) (Or.inl rfl)
  | @subscribes peer peerId topic subscribed =>
    have apart : subscribed ≠ subscriptionId := by
      rintro rfl
      exact others ⟨peer, topic, rfl⟩
    exact Releases.of_fewer (fewer (decide_eq_false apart)) (Or.inl rfl)
  | unsubscribes => exact Releases.of_fewer (fewer rfl) (heldNumber_teardown _ _ _)
  | refreshes same quiet =>
    exact Releases.of_fewer (fewer (quiet _)) (Or.inl (heldNumber_congr same _))
  | dropped _ | handled => exact absurd ⟨_, _, _, rfl⟩ outbound

theorem releases_of_subscribed {index : Nat} {call : AdapterCall}
    {shared : RemoteEventAdapter} (found : before.calls[index]? = some call)
    (awaits : call.awaits subscriptionId)
    (unseen : heldNumber shared subscriptionId = some 0) :
    Releases before ⟨shared, before.calls.set index .finished⟩ subscriptionId := by
  obtain ⟨bound, callEq⟩ := List.getElem?_eq_some_iff.mp found
  refine ⟨?_, ?_⟩
  · have present : 0 < before.calls.countP (AdapterCall.awaits subscriptionId) :=
      List.countP_pos_iff.mpr ⟨call, List.mem_of_getElem? found, awaits⟩
    have finished : AdapterCall.finished.awaits subscriptionId = false := rfl
    simp only [occupancy, unseen, Option.isSome_some, Bool.toNat_true, List.countP_set bound,
      callEq, awaits, finished, if_true, Bool.false_eq_true, if_false]
    omega
  · simp [lastSeen, unseen]

/-- A turn other than the delivery of a frame releases every id but one that is
launched to be subscribed with. -/
theorem adapterTurn_releases (stepped : adapterProgram.step before label = some (after, outputs))
    (others : ¬ LaunchesSubscription label subscriptionId)
    (outbound : ¬ DeliversEvent label) : Releases before after subscriptionId := by
  rcases Program.step_cases stepped with
    ⟨action, rfl, launched, callsEq, _⟩ | ⟨action, call, events, rfl, launched, callsEq, _⟩ |
    ⟨index, answer, call, next, events, rfl, found, resumed, callsEq, _⟩
  · refine Releases.of_fewer (by rw [callsEq]) ?_
    rcases launchAdapter_none launched with same | closed
    · rw [same]
      exact Or.inl rfl
    · rw [closed]
      exact Or.inr (congrArg (Option.map _) (get_clear _ _))
  · exact releases_of_launch (launchAdapter_some launched) callsEq others outbound
  · obtain ⟨rfl, turn⟩ := resumeAdapter_some resumed
    have fewer : after.calls.countP (awaits subscriptionId) ≤
        before.calls.countP (awaits subscriptionId) := by
      rw [callsEq]
      exact countP_awaits_set rfl
    obtain ⟨shared, calls⟩ := after
    cases turn with
    | @subscribed peer peerId topic awaited subscription _ unseen stored =>
      have held := heldNumber_set stored subscriptionId
      by_cases same : subscriptionId = awaited
      · subst same
        obtain rfl : calls = before.calls.set index .finished := callsEq
        rw [if_pos rfl, unseen] at held
        exact releases_of_subscribed found (decide_eq_true rfl) held
      · rw [if_neg same] at held
        exact Releases.of_fewer fewer (Or.inl held)
    | rejected | unsubscribed => exact Releases.of_fewer fewer (Or.inl rfl)
    | renewed stored =>
      exact Releases.of_fewer fewer (Or.inl (heldNumber_renewed stored subscriptionId))
    | lost => exact Releases.of_fewer fewer (heldNumber_teardown _ _ _)

theorem subscribing_occupies {peer : NetworkPeer} {topic : String}
    (stepped : adapterProgram.step before
      (.launch (.subscribeRemote peer topic subscriptionId)) = some (after, outputs)) :
    occupancy after subscriptionId ≤ occupancy before subscriptionId + 1 ∧
      after.shared = before.shared := by
  obtain ⟨shared, calls⟩ := after
  rcases Program.step_cases stepped with
    ⟨_, actionEq, launched, _, _⟩ | ⟨_, call, events, actionEq, launched, callsEq, _⟩ |
    ⟨_, _, _, _, _, notResumed, _⟩
  · cases actionEq
    cases congrArg Prod.snd launched
  · cases actionEq
    obtain rfl : calls = before.calls ++ [call] := callsEq
    have counted : (before.calls ++ [call]).countP (awaits subscriptionId) ≤
        before.calls.countP (awaits subscriptionId) + 1 := by
      rw [List.countP_append]
      have single := List.countP_le_length (p := awaits subscriptionId) (l := [call])
      simp only [List.length_singleton] at single
      omega
    have same : shared = before.shared := by
      cases launchAdapter_some launched <;> rfl
    subst same
    refine ⟨?_, rfl⟩
    unfold occupancy
    dsimp only
    omega
  · cases notResumed

theorem occupancy_teardown {subscription : RemoteSubscription}
    (held : before.shared.subscriptions.get subscriptionId = some subscription)
    (occupied : occupancy before subscriptionId ≤ 1) :
    occupancy ⟨before.shared.teardown subscriptionId, before.calls ++ [.unsubscribing]⟩
      subscriptionId = 0 := by
  have heldBefore : heldNumber before.shared subscriptionId =
      some subscription.lastSequenceNumber := by
    rw [heldNumber, held, Option.map_some]
  have heldAfter : heldNumber (before.shared.teardown subscriptionId) subscriptionId = none := by
    rw [heldNumber, RemoteEventAdapter.teardown, get_delete_self, Option.map_none]
  rw [occupancy, heldBefore] at occupied
  rw [occupancy, heldAfter, countP_awaits_append rfl]
  simp only [Option.isSome_some, Bool.toNat_true, Option.isSome_none, Bool.toNat_false]
    at occupied ⊢
  omega

theorem sendSubReq_of_request {index : Nat}
    (member : request ∈ requestsFrom (events.map (index, ·))) :
    ∃ peer, .sendSubReq peer request.2 ∈ events := by
  obtain ⟨output, outputMem, requestEq⟩ := List.mem_filterMap.mp member
  obtain ⟨event, eventMem, rfl⟩ := List.mem_map.mp outputMem
  cases event with
  | sendSubReq peer =>
    cases requestEq
    exact ⟨peer, eventMem⟩
  | subscribed | subscriptionRejected | unsubscribed | subscriptionLost | handled => cases requestEq

/-- An unsubscribe request is handed to the network when its id is no longer in
use. -/
theorem unsubscribe_requests (stepped : adapterProgram.step before label = some (after, outputs))
    (occupied : ∀ subscriptionId, occupancy before subscriptionId ≤ 1)
    (member : request ∈ requestsFrom outputs) (unsubscribes : request.2.action = .unsubscribe) :
    occupancy after request.2.subscriptionId = 0 := by
  obtain ⟨shared, calls⟩ := after
  obtain ⟨index, body⟩ := request
  rcases Program.step_cases stepped with
    ⟨action, rfl, _, _, rfl⟩ | ⟨action, call, events, rfl, launched, callsEq, rfl⟩ |
    ⟨turn, answer, call, next, events, rfl, found, resumed, _, rfl⟩
  · cases member
  · obtain rfl : calls = before.calls ++ [call] := callsEq
    obtain ⟨peer, sent⟩ := sendSubReq_of_request member
    cases launchAdapter_some launched with
    | refused | unknown | dropped | handled => simp at sent
    | subscribes =>
      simp only [List.mem_singleton, AdapterEvent.sendSubReq.injEq] at sent
      rw [sent.2] at unsubscribes
      cases unsubscribes
    | @unsubscribes subscriptionId subscription held =>
      simp only [List.mem_singleton] at sent
      cases sent
      exact occupancy_teardown held (occupied subscriptionId)
    | refreshes _ _ subscribing =>
      rw [subscribing peer body sent] at unsubscribes
      cases unsubscribes
  · obtain ⟨peer, sent⟩ := sendSubReq_of_request member
    cases (resumeAdapter_some resumed).2 <;> simp at sent

theorem inbound_turn {peerId : String} {body : EventEmitBody} {now : Int}
    (stepped : adapterProgram.step before (.launch (.handleInboundEvent peerId body now)) =
      some (after, outputs)) :
    (∀ subscriptionId, occupancy after subscriptionId = occupancy before subscriptionId) ∧
      (∀ subscriptionId, lastSeen after.shared subscriptionId =
          lastSeen before.shared subscriptionId ∨ (subscriptionId = body.subscriptionId ∧
          lastSeen after.shared subscriptionId = body.sequenceNumber)) ∧
      requestsFrom outputs = [] := by
  obtain ⟨shared, calls⟩ := after
  rcases Program.step_cases stepped with
    ⟨_, actionEq, launched, _, _⟩ | ⟨_, call, events, actionEq, launched, callsEq, rfl⟩ |
    ⟨_, _, _, _, _, notResumed, _⟩
  · cases actionEq
    cases congrArg Prod.snd launched
  · cases actionEq
    obtain rfl : calls = before.calls ++ [call] := callsEq
    cases launchAdapter_some launched with
    | dropped same =>
      refine ⟨fun subscriptionId => ?_, fun subscriptionId => Or.inl ?_, rfl⟩
      · rw [occupancy, heldNumber_congr same, countP_awaits_append rfl]
        rfl
      · rw [lastSeen, heldNumber_congr same]
        rfl
    | @handled _ _ _ _ subscription event held stored =>
      have heldBefore : heldNumber before.shared body.subscriptionId =
          some subscription.lastSequenceNumber := by
        rw [heldNumber, held, Option.map_some]
      refine ⟨fun subscriptionId => ?_, fun subscriptionId => ?_, rfl⟩
      · rw [occupancy, heldNumber_set stored, countP_awaits_append rfl]
        by_cases same : subscriptionId = body.subscriptionId
        · subst same
          rw [if_pos rfl, occupancy, heldBefore]
          rfl
        · rw [if_neg same]
          rfl
      · rw [lastSeen, heldNumber_set stored]
        by_cases same : subscriptionId = body.subscriptionId
        · exact Or.inr ⟨same, by rw [if_pos same]; rfl⟩
        · exact Or.inl (by rw [if_neg same]; rfl)
  · cases notResumed

end P2PHub
