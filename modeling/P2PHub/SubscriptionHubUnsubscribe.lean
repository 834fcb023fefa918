import P2PHub.SubscriptionHubRuns

/-!
# Silence after an unsubscribe

An accepted unsubscribe removes the subscription and its sequence.  An
emission that awaits the guards for it holds the removed subscription, and once
granted sends the frame and counts it anew.
-/

namespace P2PHub

open AsyncCalls Transition HubCall SameStores

/-- The call awaits the guards for the subscription under a key. -/
def HubCall.guards (key : String) : HubCall → Bool
  | .emitting _ (.guarding _ subscription _) => decide (subscription.key = key)
  | .emitting _ (.sending _) => false
  | .emitting _ .returned => false
  | .emitting _ .threw => false
  | .subscribing _ _ _ => false

def HubCall.Requests (peerId : String) (body : SubReqBody) (call : HubCall) : Prop :=
  ∃ phase, call = .subscribing peerId body phase ∧ phase ≠ .answered

/-- A request to subscribe under the key has been accepted that was launched
after the pool, or was pending in it. -/
def ResubscribedSince (pool : HubPool) (key : String) (later : List (Nat × HubEvent)) : Prop :=
  ∃ index peerId body ack, (index, .subAck peerId body ack) ∈ later ∧ ack.accepted = true ∧
    body.action = .subscribe ∧ keyFor peerId body.subscriptionId = key ∧
    ∀ call, pool.calls[index]? = some call → call.Requests peerId body

variable {pool : HubPool} {key : String} {later outputs : List (Nat × HubEvent)}
  {events : List HubEvent}

theorem ResubscribedSince.append (resubscribed : ResubscribedSince pool key later)
    (more : List (Nat × HubEvent)) : ResubscribedSince pool key (later ++ more) := by
  obtain ⟨index, peerId, body, ack, member, accepted, subscribes, keyEq, pending⟩ := resubscribed
  exact ⟨index, peerId, body, ack, List.mem_append_left more member, accepted, subscribes, keyEq,
    pending⟩

def Unsent (key : String) (later : List (Nat × HubEvent)) : Prop :=
  ∀ index subscriber frame checked, (index, .sendEvent subscriber frame checked) ∈ later →
    keyFor subscriber.peerId frame.subscriptionId ≠ key

/-- Nothing is stored, counted or sent under the key. -/
structure SilentSince (key : String) (later : List (Nat × HubEvent))
    (hub : SubscriptionHub) : Prop where
  unsubscribed : hub.subscriptions.get key = none
  uncounted : hub.sequences.get key = none
  unsent : Unsent key later

theorem Unsent.append (unsent : Unsent key later) {index : Nat}
    (quiet : ∀ subscriber frame checked, .sendEvent subscriber frame checked ∈ events →
      keyFor subscriber.peerId frame.subscriptionId ≠ key) :
    Unsent key (later ++ events.map (index, ·)) := by
  intro other subscriber frame checked member
  rcases List.mem_append.mp member with old | new
  · exact unsent other subscriber frame checked old
  · obtain ⟨event, eventMem, eventEq⟩ := List.mem_map.mp new
    cases eventEq
    exact quiet subscriber frame checked eventMem

theorem SilentSince.pruned {before after : SubscriptionHub} (silent : SilentSince key later before)
    (pruned : Pruned before after) {index : Nat}
    (quiet : ∀ subscriber frame checked, .sendEvent subscriber frame checked ∈ events →
      keyFor subscriber.peerId frame.subscriptionId ≠ key) :
    SilentSince key (later ++ events.map (index, ·)) after where
  unsubscribed := pruned.get_eq_none silent.unsubscribed
  uncounted := pruned.sequence_eq_none silent.uncounted
  unsent := silent.unsent.append quiet

section

variable {settings : HubSettings}
  {allowed : List (Nat × HubEvent) → HubPool → HubLabel → Prop} {hub : SubscriptionHub}
  {call : HubCall} {peerId : String} {body : SubReqBody}

theorem requests_of_resumed {after : SubscriptionHub} {next : HubCall}
    {answer : HubAnswer} {events : List HubEvent}
    (resumed : (hubProgram settings).resume hub call answer = some (after, next, events))
    (requests : next.Requests peerId body) : call.Requests peerId body := by
  obtain ⟨phase, rfl, unanswered⟩ := requests
  rcases resumeHub_some resumed with
    ⟨emission, phase, rfl, resumes⟩ | ⟨_, _, earlier, rfl, resumes⟩
  · cases resumeEmit_turn resumes
  · have asked : earlier ≠ .answered := by
      rintro rfl
      cases resumes
    cases resumeSubscribe_turn resumes with
    | waiting => exact ⟨earlier, rfl, asked⟩
    | rejected | granted => exact absurd rfl unanswered

theorem pending_subscribes {history : List (Nat × HubEvent)}
    {pool : HubPool} (runs : HubRuns settings allowed hub history pool) {index : Nat}
    (found : pool.calls[index]? = some call) (requests : call.Requests peerId body) :
    body.action = .subscribe := by
  revert peerId body
  refine (local_invariant (fun _ call => ∀ {peerId body}, Requests peerId body call →
    body.action = .subscribe) ?_ ?_ runs).2 index call found
  · intro _ before action call after events _ launched peerId body pending
    obtain ⟨phase, rfl, unanswered⟩ := pending
    rcases launchHub_some launched with
      ⟨topic, payload, sweepNow, now, _, started⟩ | ⟨_, _, now, _, started⟩
    · cases emitLocal_start started
    · cases handleSubReq_start started with
      | rejected | removed => exact absurd rfl unanswered
      | checking subscribes => exact subscribes
  · intro _ before index answer own call after next events _ held resumed peerId body pending
    exact held (requests_of_resumed resumed pending)

theorem requested_since {begin pool : HubPool} {later : List (Nat × HubEvent)}
    (runs : Runs (hubProgram settings).step allowed begin later pool) {index : Nat} {old : HubCall}
    (oldFound : begin.calls[index]? = some old) (found : pool.calls[index]? = some call)
    (requests : call.Requests peerId body) : old.Requests peerId body := by
  have evolution := call_evolves
    (fun first second => second.Requests peerId body → first.Requests peerId body)
    (fun _ pending => pending) (fun _ _ _ earlier later pending => earlier (later pending))
    (fun _ _ _ _ _ _ resumed pending => requests_of_resumed resumed pending) runs oldFound
  obtain ⟨evolved, located, evolves⟩ := evolution
  rw [found] at located
  cases located
  exact evolves requests

end

section

variable {settings : HubSettings} {hub after : SubscriptionHub} {key : String}
  {call next : HubCall} {events : List HubEvent} {later : List (Nat × HubEvent)}

theorem launched_silent {action : HubAction}
    (launched : (hubProgram settings).launch hub action = (after, some (call, events)))
    (keyed : WellKeyed after) (absent : after.subscriptions.get key = none) :
    call.guards key = false ∧
      ∀ subscriber frame checked, .sendEvent subscriber frame checked ∉ events := by
  rcases launchHub_some launched with
    ⟨topic, payload, sweepNow, now, _, started⟩ | ⟨peerId, body, now, _, started⟩
  · cases emitLocal_start started with
    | refused | ended => simp [guards]
    | @reached _ emission position found subscription wait _ _ _ stored =>
      have apart : subscription.key ≠ key := by
        rintro rfl
        rw [keyed found subscription stored, stored] at absent
        cases absent
      simp [guards, apart]
  · cases handleSubReq_start started <;> simp [guards]

/-- An emission that does not await the guards for an absent key neither sends
nor counts under it, and does not come to await its guards. -/
theorem emitTurn_silent {emission : Emission} {phase : EmitPhase}
    (turn : EmitTurn settings hub emission phase after next events) (keyed : WellKeyed hub)
    (silent : SilentSince key later hub)
    (unguarded : (emitting emission phase).guards key = false) (index : Nat) :
    SilentSince key (later ++ events.map (index, ·)) after ∧ next.guards key = false := by
  cases turn with
  | asked =>
    exact ⟨silent.pruned (pruned (.refl _)) (by simp), unguarded⟩
  | ended same => exact ⟨silent.pruned same.pruned (by simp), rfl⟩
  | thrown => exact ⟨silent.pruned (pruned (.refl _)) (by simp), rfl⟩
  | @reached _ cursor position delivered found _ subscription wait same _ _ _ stored =>
    have apart : subscription.key ≠ key := by
      rintro rfl
      have absent := silent.unsubscribed
      rw [keyed found subscription stored, stored] at absent
      cases absent
    exact ⟨silent.pruned same.pruned (by simp), decide_eq_false apart⟩
  | @sent cursor subscription charged checkNow same =>
    have apart : subscription.key ≠ key := of_decide_eq_false unguarded
    refine ⟨⟨?_, ?_, silent.unsent.append ?_⟩, rfl⟩
    · rw [same.subscriptions]
      exact silent.unsubscribed
    · rw [OrderedMap.get_set_of_ne _ _ (Ne.symm apart)]
      exact silent.uncounted
    · intro subscriber frame checked member
      simp only [List.mem_singleton] at member
      cases member
      exact apart

theorem subscribeTurn_silent {peerId : String} {body : SubReqBody} {phase : SubscribePhase}
    {answer : HubAnswer} (turn : SubscribeTurn hub peerId body phase answer after next events)
    (silent : SilentSince key later hub) (index : Nat) :
    ((phase = .guarding (.decided true) ∧ keyFor peerId body.subscriptionId = key ∧
        ∃ ack, ack.accepted ∧ .subAck peerId body ack ∈ events) ∨
      SilentSince key (later ++ events.map (index, ·)) after) ∧ next.guards key = false := by
  cases turn with
  | waiting | rejected => exact ⟨Or.inr (silent.pruned (pruned (.refl _)) (by simp)), rfl⟩
  | @granted peer now =>
    refine ⟨?_, rfl⟩
    by_cases sameKey : keyFor peerId body.subscriptionId = key
    · exact Or.inl ⟨rfl, sameKey, _, rfl, List.mem_singleton_self _⟩
    · refine Or.inr ⟨?_, silent.uncounted, silent.unsent.append (by simp)⟩
      rw [OrderedMap.get_set_of_ne _ _ (Ne.symm sameKey)]
      exact silent.unsubscribed

variable {start : SubscriptionHub} {exposedEvents : List String}
  {emitTelemetry : StreamRateOptions} {history : List (Nat × HubEvent)} {begin : HubPool}

theorem silence_preserved (created : SubscriptionHub.new exposedEvents emitTelemetry = .ok start)
    (reached : HubRuns settings unrestricted start history begin) :
    Preserved (hubProgram settings) unrestricted begin
      (fun later hub => ResubscribedSince begin key later ∨ SilentSince key later hub)
      (fun later _ _ call => ResubscribedSince begin key later ∨ call.guards key = false) where
  acted := by
    intro later pool action after _ holds _ launched
    refine ⟨holds.1.imp id fun silent => ?_, fun _ _ _ held => held⟩
    have pruned : Pruned pool.shared after := launchHub_none_pruned launched
    exact ⟨pruned.get_eq_none silent.unsubscribed, pruned.sequence_eq_none silent.uncounted,
      silent.unsent⟩
  launched := by
    intro later pool action after call events earlier holds _ launched
    have pruned : Pruned pool.shared after := launchHub_pruned launched
    have keyed : WellKeyed after :=
      pruned.wellKeyed (wellKeyed_of_runs created (reached.trans_unrestricted earlier))
    rcases holds.1 with resubscribed | silent
    · have still := resubscribed.append (events.map (pool.calls.length, ·))
      exact ⟨Or.inl still, Or.inl still, fun _ _ _ _ => Or.inl still⟩
    · obtain ⟨unguarded, unsent⟩ :=
        launched_silent launched keyed (pruned.get_eq_none silent.unsubscribed)
      refine ⟨Or.inr (silent.pruned pruned ?_), Or.inr unguarded, fun _ _ _ held => ?_⟩
      · intro subscriber frame checked member
        exact absurd member (unsent subscriber frame checked)
      · exact held.imp (fun resubscribed => resubscribed.append _) id
  resumed := by
    intro later pool index answer call after next events earlier holds _ found resumed
    have keyed : WellKeyed pool.shared :=
      wellKeyed_of_runs created (reached.trans_unrestricted earlier)
    have others (position : Nat) (other : HubCall) (_ : position ≠ index)
        (_ : pool.calls[position]? = some other)
        (held : ResubscribedSince begin key later ∨ other.guards key = false) :
        ResubscribedSince begin key (later ++ events.map (index, ·)) ∨ other.guards key = false :=
      held.imp (fun resubscribed => resubscribed.append _) id
    rcases holds.1 with resubscribed | silent
    · have still := resubscribed.append (events.map (index, ·))
      exact ⟨Or.inl still, Or.inl still, others⟩
    · rcases holds.2 index call found with resubscribed | unguarded
      · have still := resubscribed.append (events.map (index, ·))
        exact ⟨Or.inl still, Or.inl still, others⟩
      · rcases resumeHub_some resumed with
          ⟨emission, phase, rfl, resumes⟩ | ⟨peerId, body, phase, rfl, resumes⟩
        · obtain ⟨quiet, unguardedNext⟩ :=
            emitTurn_silent (resumeEmit_turn resumes) keyed silent unguarded index
          exact ⟨Or.inr quiet, Or.inr unguardedNext, others⟩
        · obtain ⟨granted | quiet, unguardedNext⟩ :=
            subscribeTurn_silent (resumeSubscribe_turn resumes) silent index
          · obtain ⟨rfl, keyEq, ack, accepted, member⟩ := granted
            have pending : (subscribing peerId body
                (.guarding (.decided true))).Requests peerId body :=
              ⟨_, rfl, SubscribePhase.noConfusion⟩
            have subscribes : body.action = .subscribe :=
              pending_subscribes (reached.trans_unrestricted earlier) found pending
            have resubscribed : ResubscribedSince begin key (later ++ events.map (index, ·)) := by
              refine ⟨index, peerId, body, ack, ?_, accepted, subscribes, keyEq, ?_⟩
              · exact List.mem_append_right later (List.mem_map_of_mem member)
              · intro old oldFound
                exact requested_since earlier oldFound found pending
            exact ⟨Or.inl resubscribed, Or.inr unguardedNext, others⟩
          · exact ⟨Or.inr quiet, Or.inr unguardedNext, others⟩

end

theorem unsubscribe_removes {settings : HubSettings} {after : HubPool} {peerId : String}
    {body : SubReqBody} {now : Int} {ack : SubAckBody} (unsubscribes : body.action = .unsubscribe)
    (answered : (hubProgram settings).step pool (.launch (.handleSubReq peerId body now)) =
      some (after, [(pool.calls.length, .subAck peerId body ack)]))
    (accepted : ack.accepted) :
    after.shared.subscriptions.get (keyFor peerId body.subscriptionId) = none ∧
      after.shared.sequences.get (keyFor peerId body.subscriptionId) = none ∧
      ∃ call, after.calls = pool.calls ++ [call] ∧ ∀ key, call.guards key = false := by
  rcases Program.step_cases answered with
    ⟨_, _, _, _, noOutputs⟩ | ⟨action, call, events, actionEq, launched, callsEq, outputsEq⟩ |
    ⟨_, _, _, _, _, notResumed, _⟩
  · cases noOutputs
  · cases actionEq
    rcases launchHub_some launched with
      ⟨_, _, _, _, notEmitted, _⟩ | ⟨launchedPeer, launchedBody, _, requestEq, started⟩
    · cases notEmitted
    · cases requestEq
      cases handleSubReq_start started with
      | rejected _ denied =>
        simp only [List.map_cons, List.map_nil, List.cons.injEq, Prod.mk.injEq,
          HubEvent.subAck.injEq, and_true, true_and] at outputsEq
        rw [outputsEq, denied] at accepted
        cases accepted
      | removed _ _ unsubscribed uncounted =>
        exact ⟨unsubscribed, uncounted, _, callsEq, fun _ => rfl⟩
      | checking subscribes =>
        rw [subscribes] at unsubscribes
        cases unsubscribes
  · cases notResumed

/-- An accepted unsubscribe that meets no emission awaiting the guards for the
subscription silences it until a request to subscribe is accepted again. -/
theorem unsubscribed_silent {settings : HubSettings} {exposedEvents : List String}
    {emitTelemetry : StreamRateOptions} {hub : SubscriptionHub}
    {history later : List (Nat × HubEvent)} {pool after last : HubPool} {peerId : String}
    {body : SubReqBody} {now : Int} {ack : SubAckBody}
    (created : SubscriptionHub.new exposedEvents emitTelemetry = .ok hub)
    (reached : HubRuns settings unrestricted hub history pool)
    (unsubscribes : body.action = .unsubscribe)
    (answered : (hubProgram settings).step pool (.launch (.handleSubReq peerId body now)) =
      some (after, [(pool.calls.length, .subAck peerId body ack)])) (accepted : ack.accepted)
    (unguarded : ∀ call ∈ pool.calls, call.guards (keyFor peerId body.subscriptionId) = false)
    (runs : Runs (hubProgram settings).step unrestricted after later last) :
    ResubscribedSince after (keyFor peerId body.subscriptionId) later ∨
      SilentSince (keyFor peerId body.subscriptionId) later last.shared := by
  have reachedAfter : HubRuns settings unrestricted hub
      (history ++ [(pool.calls.length, .subAck peerId body ack)]) after :=
    .tail reached trivial answered
  obtain ⟨unsubscribed, uncounted, call, callsEq, callUnguarded⟩ :=
    unsubscribe_removes unsubscribes answered accepted
  have silent : SilentSince (keyFor peerId body.subscriptionId) [] after.shared :=
    ⟨unsubscribed, uncounted, fun _ _ _ _ member => absurd member List.not_mem_nil⟩
  refine ((silence_preserved created reachedAfter).run_holds ⟨Or.inr silent, ?_⟩ runs).1
  intro index other found
  right
  have member : other ∈ pool.calls ++ [call] := callsEq ▸ List.mem_of_getElem? found
  rcases List.mem_append.mp member with old | new
  · exact unguarded other old
  · rw [List.mem_singleton] at new
    rw [new]
    exact callUnguarded _

/-- The outputs are the accepting answer to the unsubscribe request of a new
call. -/
def accepts (pool : HubPool) : List (Nat × HubEvent) → Bool
  | [(index, .subAck peerId body ack)] => decide (index = pool.calls.length ∧ peerId = "peer" ∧
      body = lanRequest .unsubscribe ∧ ack.accepted = true)
  | _ => false

theorem accepts_sound (passed : accepts pool outputs) :
    ∃ ack, outputs = [(pool.calls.length, .subAck "peer" (lanRequest .unsubscribe) ack)] ∧
      ack.accepted := by
  unfold accepts at passed
  split at passed
  · next index peerId body ack =>
      obtain ⟨rfl, rfl, rfl, accepted⟩ := of_decide_eq_true passed
      exact ⟨ack, rfl, accepted⟩
  · cases passed

def handsFrame : List (Nat × HubEvent) → Bool
  | [(_, .sendEvent subscriber frame _)] =>
    decide (subscriber.peerId = "peer" ∧ frame.subscriptionId = "sub")
  | _ => false

theorem handsFrame_sound (passed : handsFrame outputs) :
    ∃ index subscriber frame checked, outputs = [(index, .sendEvent subscriber frame checked)] ∧
      subscriber.peerId = "peer" ∧ frame.subscriptionId = "sub" := by
  unfold handsFrame at passed
  split at passed
  · next index subscriber frame checked =>
      exact ⟨index, subscriber, frame, checked, rfl, of_decide_eq_true passed⟩
  · cases passed

/-- A subscriber that leaves between two emissions. -/
theorem unsubscribed_silent_lanHub : ∃ history pool after outputs later last,
      HubRuns lanSettings unrestricted lanHub history pool ∧ (hubProgram lanSettings).step pool
        (.launch (.handleSubReq "peer" (lanRequest .unsubscribe) 2)) = some (after, outputs) ∧
      Runs (hubProgram lanSettings).step unrestricted after later last ∧
      outputs.map Prod.fst = [pool.calls.length] ∧
      (ResubscribedSince after (keyFor "peer" "sub") later ∨
        SilentSince (keyFor "peer" "sub") later last.shared) := by
  obtain ⟨history, pool, after, outputs, later, last, reached, answered, runs, passed⟩ :=
    exists_runs_around (hubProgram lanSettings).step (Pool.initial lanHub) (lanSubscribe 0 0 ++
        [.launch (.emitLocal "calendar:added" .null 1 1), .resume 1 (.dispatch 0 1 1)])
      (.launch (.handleSubReq "peer" (lanRequest .unsubscribe) 2))
      [.launch (.emitLocal "calendar:added" .null 3 3)]
      (fun pool outputs _ _ =>
        pool.calls.all (fun call => !call.guards (keyFor "peer" "sub")) && accepts pool outputs)
      (by decide)
  simp only [Bool.and_eq_true, List.all_eq_true, Bool.not_eq_true'] at passed
  obtain ⟨unguarded, shape⟩ := passed
  obtain ⟨ack, rfl, accepted⟩ := accepts_sound shape
  exact ⟨history, pool, after, _, later, last, reached, answered, runs, rfl,
    unsubscribed_silent lanHub_created reached rfl answered accepted unguarded runs⟩

/-- A subscriber that leaves while an emission awaits the guard of the topic is
still handed the frame, and counted from then on. -/
theorem unsubscribed_still_served :
    ∃ (settings : HubSettings) (exposedEvents : List String) (emitTelemetry : StreamRateOptions)
      (hub : SubscriptionHub) (history : List (Nat × HubEvent)) (pool after : HubPool)
      (peerId : String) (body : SubReqBody) (now : Int) (ack : SubAckBody)
      (later : List (Nat × HubEvent)) (last : HubPool),
      SubscriptionHub.new exposedEvents emitTelemetry = .ok hub ∧
      HubRuns settings unrestricted hub history pool ∧ body.action = .unsubscribe ∧
      (hubProgram settings).step pool (.launch (.handleSubReq peerId body now)) =
        some (after, [(pool.calls.length, .subAck peerId body ack)]) ∧ ack.accepted ∧
      Runs (hubProgram settings).step unrestricted after later last ∧
      (∃ index subscriber frame checked, later = [(index, .sendEvent subscriber frame checked)] ∧
        subscriber.peerId = peerId ∧ frame.subscriptionId = body.subscriptionId) ∧
      last.shared.sequences.get (keyFor peerId body.subscriptionId) = some 1 := by
  obtain ⟨history, pool, after, outputs, later, last, reached, answered, runs, passed⟩ :=
    exists_runs_around (hubProgram lanSettings).step (Pool.initial lanHub)
      [.launch (.registerSubscriptionGuard "calendar:"),
        .launch (.handleSubReq "peer" (lanRequest .subscribe) 0), .resume 0 (.access 0),
        .resume 0 (.guard (.resolved true)), .resume 0 (.commit (some lanPeer) 0),
        .launch (.emitLocal "calendar:added" .null 1 1)]
      (.launch (.handleSubReq "peer" (lanRequest .unsubscribe) 2))
      [.resume 1 (.guard (.resolved true)), .resume 1 (.dispatch 0 3 3)]
      (fun pool outputs later last =>
        decide (last.shared.sequences.get (keyFor "peer" "sub") = some 1) &&
          (accepts pool outputs && handsFrame later))
      (by decide)
  simp only [Bool.and_eq_true, decide_eq_true_eq] at passed
  obtain ⟨counted, accepting, handing⟩ := passed
  obtain ⟨ack, rfl, accepted⟩ := accepts_sound accepting
  obtain ⟨index, subscriber, frame, checked, rfl, subscriberEq, frameEq⟩ :=
    handsFrame_sound handing
  exact ⟨lanSettings, _, _, lanHub, history, pool, after, "peer", lanRequest .unsubscribe, 2,
    ack, _, last, lanHub_created, reached, rfl, answered, accepted, runs,
    ⟨index, subscriber, frame, checked, rfl, subscriberEq, frameEq⟩, counted⟩

end P2PHub
