import P2PHub.SubscriptionHubAuthorization
import P2PHub.SubscriptionHubUnsubscribe

/-!
# Runs of authorized emissions

Along a run whose turns are steady every frame that the hub sends is authorized:
by the exposure at the start of its emission, by the subscription of its
recipient, by the guards of its topic and by the peer gate.
-/

namespace P2PHub

open AsyncCalls SubscriptionHub Transition

abbrev WatchedPool := Pool WatchedHub HubCall

/-- The runs of a watched hub whose turns are all steady. -/
def SteadyRuns (settings : HubSettings) (hub : SubscriptionHub) :
    List (Nat × HubReport) → WatchedPool → Prop :=
  Runs (watchedHub settings).step (fun _ pool => Steady pool.erase) (Pool.initial (hub, []))

section

variable {settings : HubSettings} {watched after : WatchedHub} {action : HubAction}
  {call : HubCall}

theorem watchedHub_launch {left : Option (HubCall × List HubReport)}
    (launched : (watchedHub settings).launch watched action = (after, left)) :
    after.2 = noteGuard watched.2 watched.1 action ∧
      ∃ began, (hubProgram settings).launch watched.1 action = (after.1, began) := by
  obtain ⟨noted, ⟨-, same⟩ | ⟨call, outputs, -, same⟩⟩ := observed_launch launched
  · exact ⟨noted, _, same⟩
  · exact ⟨noted, _, same⟩

theorem emitLocal_emissionHolds {hub swept : SubscriptionHub} {registrations : List String}
    {topic : String} {payload : JsValue} {sweepNow now : Int} {own : List HubReport}
    {events : List HubEvent} (keyed : WellKeyed hub)
    (started : emitLocal hub topic payload sweepNow now = ⟨swept, call, events⟩)
    (seen : .inr (.emissionStarted topic (hub.isExposed topic)) ∈ own) :
    EmissionHolds own (swept, registrations) call := by
  obtain ⟨rfl, rfl⟩ : (emitLocal hub topic payload sweepNow now).hub = swept ∧
      (emitLocal hub topic payload sweepNow now).call = call := by
    rw [started]
    exact ⟨rfl, rfl⟩
  unfold emitLocal
  cases exposed : hub.isExposed topic with
  | false => trivial
  | true =>
    rw [exposed] at seen
    simp only [Bool.not_true, Bool.false_eq_true, if_false]
    split
    · refine ⟨seen, ?_⟩
      rintro _ _ _ ⟨⟩
    · rw [seekSubscriber_hub]
      exact seekSubscriber_emissionHolds ((sweep_pruned hub sweepNow).wellKeyed keyed) 0 seen

theorem watchedHub_launched {emitted : List HubReport} (keyed : WellKeyed watched.1)
    (launched : (watchedHub settings).launch watched action = (after, some (call, emitted))) :
    EmissionHolds emitted after call := by
  obtain ⟨-, ⟨different, -⟩ | ⟨began, outputs, leftEq, same⟩⟩ := observed_launch launched
  · cases different
  · cases leftEq
    rcases launchHub_some same with
      ⟨topic, payload, sweepNow, now, rfl, started⟩ | ⟨peerId, body, now, rfl, started⟩
    · exact emitLocal_emissionHolds keyed started
        (List.mem_append_left _ (List.mem_singleton.mpr rfl))
    · cases handleSubReq_start started with
      | rejected | removed | checking => trivial

end

section

variable {settings : HubSettings} {exposedEvents : List String}
  {emitTelemetry : StreamRateOptions} {hub : SubscriptionHub}
  {history : List (Nat × HubReport)} {pool : WatchedPool}

theorem steadyRuns_wellKeyed (created : new exposedEvents emitTelemetry = .ok hub)
    (runs : SteadyRuns settings hub history pool) : WellKeyed pool.shared.1 :=
  wellKeyed_of_runs created (runs_of_observed runs)

theorem emissionHolds_of_runs (index : Nat) (created : new exposedEvents emitTelemetry = .ok hub)
    (runs : SteadyRuns settings hub history pool) {call : HubCall}
    (located : pool.calls[index]? = some call) :
    EmissionHolds (ownOutputs history index) pool.shared call := by
  refine (focused_invariant index EmissionHolds ?_ ?_ ?_ ?_ runs).2 call located
  · intro _ before action after call emitted earlier _ launched
    exact watchedHub_launched (steadyRuns_wellKeyed created earlier) launched
  · rintro _ before answer own call ⟨changed, noted⟩ next emitted earlier _ _ _ held resumed
    obtain ⟨rfl, outputs, same, rfl⟩ := observed_resume resumed
    rcases resumeHub_some same with
      ⟨emission, phase, rfl, resumes⟩ | ⟨peerId, body, phase, rfl, resumes⟩
    · have turned := held.turn (steadyRuns_wellKeyed created earlier) resumes
        (fun sight member => List.mem_append_left (outputs.map Sum.inl)
          (List.mem_map_of_mem member))
      exact turned
    · cases resumeSubscribe_turn resumes with
      | waiting | rejected | granted => trivial
  · intro _ before action own call after left earlier permitted _ found held launched
    obtain ⟨noted, began, same⟩ := watchedHub_launch launched
    have member : call ∈ before.calls := List.mem_of_getElem? found
    have kept : EmissionHolds own (after.1, noteGuard before.shared.2 before.shared.1 action)
        call := by
      apply held.congr
      intro emission subscription wait serves
      have spared := permitted call member emission subscription wait serves
      exact ⟨fun holding => holding.launch spared same, fun granted => granted.launch spared same⟩
    rw [← noted] at kept
    exact kept
  · intro _ before other answer own call turned after next emitted earlier permitted _ found held
      turnedFound resumed
    obtain ⟨noted, outputs, same, rfl⟩ := observed_resume resumed
    have member : call ∈ before.calls := List.mem_of_getElem? found
    have kept : EmissionHolds own (after.1, before.shared.2) call := by
      apply held.congr
      intro emission subscription wait serves
      constructor
      · intro holding
        apply holding.resume same
        rintro peerId body peer now rfl rfl sameKey
        exact permitted.2 peerId body peer now turnedFound rfl call member emission subscription
          wait serves sameKey
      · intro granted
        exact granted.congr (resumeHub_sameExposure same).guards
    rw [← noted] at kept
    exact kept

end

section

/-- The subscription was granted to a foreign peer, in a request for which the
peer passed the peer gate. -/
def Admitted (settings : HubSettings) (history : List (Nat × HubReport))
    (stored : PeerSubscription) : Prop :=
  settings.selfPeerId ≠ stored.peerId ∧
    ∃ index body peer now ack, stored = grantedSubscription stored.peerId body peer now ∧
      ack.accepted = true ∧ (index, .inr (.peerPassed stored.peerId body)) ∈ history ∧
      (index, .inl (.subAck stored.peerId body ack)) ∈ history

/-- A pending request comes from a foreign peer, and is past the peer gate when
its guards are asked. -/
def Vetted (settings : HubSettings) (history : List (Nat × HubReport)) (index : Nat) :
    HubCall → Prop
  | .subscribing peerId _ .checkingPeer => settings.selfPeerId ≠ peerId
  | .subscribing peerId body (.guarding _) =>
    settings.selfPeerId ≠ peerId ∧ (index, .inr (.peerPassed peerId body)) ∈ history
  | .subscribing _ _ .answered => True
  | .emitting _ _ => True

variable {settings : HubSettings} {history : List (Nat × HubReport)} {hub after : SubscriptionHub}

variable {stored : PeerSubscription}

theorem Admitted.append (admitted : Admitted settings history stored)
    (more : List (Nat × HubReport)) : Admitted settings (history ++ more) stored := by
  obtain ⟨foreign, index, body, peer, now, ack, granted, accepted, passed, acked⟩ := admitted
  exact ⟨foreign, index, body, peer, now, ack, granted, accepted,
    List.mem_append_left more passed, List.mem_append_left more acked⟩

theorem Vetted.append {index : Nat} {call : HubCall} (vetted : Vetted settings history index call)
    (more : List (Nat × HubReport)) : Vetted settings (history ++ more) index call := by
  cases call with
  | emitting => trivial
  | subscribing peerId body phase =>
    cases phase with
    | checkingPeer => exact vetted
    | guarding wait => exact ⟨vetted.1, List.mem_append_left more vetted.2⟩
    | answered => trivial

theorem commitSubscription_call (hub : SubscriptionHub) (peerId : String) (body : SubReqBody)
    (peer : Option NetworkPeer) (now : Int) :
    (commitSubscription hub peerId body peer now).call = .subscribing peerId body .answered := by
  unfold commitSubscription
  split
  · rfl
  · split
    · rfl
    · split <;> rfl

/-- A request turns to the guards when it passes the peer gate, and stays with
them. -/
theorem Vetted.turn (registrations : List String) {index : Nat} {peerId : String}
    {body : SubReqBody} {phase : SubscribePhase} {answer : HubAnswer} {step : HubStep}
    (vetted : Vetted settings history index (.subscribing peerId body phase))
    (resumed : resumeSubscribe settings hub peerId body phase answer = some step)
    {more : List (Nat × HubReport)} (seen : ∀ sight ∈ seeResume settings hub registrations
      (.subscribing peerId body phase) answer, (index, .inr sight) ∈ more) :
    Vetted settings (history ++ more) index step.call := by
  unfold resumeSubscribe at resumed
  split at resumed
  · next moment =>
      dsimp only at resumed
      split at resumed
      · cases resumed
        trivial
      · next passes =>
          split at resumed
          · cases resumed
            trivial
          · cases resumed
            refine ⟨vetted, List.mem_append_right history ?_⟩
            apply seen
            have isGranted : (checkPeerAccess moment (some peerId) (some settings.peerAccess)
                settings.peerAccessContext).isGranted := by simpa using passes
            simp [seeResume, isGranted]
  · cases resumed
    exact ⟨vetted.1, List.mem_append_left more vetted.2⟩
  · cases resumed
    trivial
  · cases resumed
    rw [commitSubscription_call]
    trivial
  · cases resumed

theorem admission_preserved
    {allowed : List (Nat × HubReport) → WatchedPool → Label HubAction HubAnswer → Prop} :
    Preserved (watchedHub settings) allowed (Pool.initial (hub, []))
      (fun history watched => ∀ key stored, watched.1.subscriptions.get key = some stored →
        Admitted settings history stored)
      (fun history _ index call => Vetted settings history index call) where
  acted := by
    intro history pool action after earlier held _ launched
    obtain ⟨_, began, same⟩ := watchedHub_launch launched
    have pruned := launchHub_pruned same
    refine ⟨fun key stored found => held.1 key stored (pruned.get key stored found), ?_⟩
    exact fun index call _ vetted => vetted
  launched := by
    rintro history pool action ⟨changed, noted⟩ call emitted earlier held _ launched
    obtain ⟨-, ⟨different, -⟩ | ⟨entered, outputs, leftEq, same⟩⟩ := observed_launch launched
    · cases different
    · cases leftEq
      have pruned : Pruned pool.shared.1 changed := launchHub_pruned same
      refine ⟨fun key stored found => ?_, ?_, fun index other _ vetted => vetted.append _⟩
      · exact (held.1 key stored (pruned.get key stored found)).append _
      · rcases launchHub_some same with
          ⟨topic, payload, sweepNow, now, _, started⟩ | ⟨peerId, body, now, _, started⟩
        · cases emitLocal_start started with
          | refused | ended | reached => trivial
        · cases handleSubReq_start started with
          | rejected | removed => trivial
          | checking _ _ foreign => exact foreign
  resumed := by
    rintro history pool index answer call ⟨changed, noted⟩ next emitted earlier held _ found resumed
    obtain ⟨-, outputs, same, rfl⟩ := observed_resume resumed
    rcases resumeHub_some same with
      ⟨emission, phase, rfl, resumes⟩ | ⟨peerId, body, phase, rfl, resumes⟩
    · refine ⟨fun key stored get => ?_, ?_, fun position other _ _ vetted => vetted.append _⟩
      · rcases resumeHub_subscriptions same with kept | ⟨_, _, _, _, different, _⟩
        · have old : pool.shared.1.subscriptions.get key = some stored := by
            rw [← kept]
            exact get
          exact (held.1 key stored old).append _
        · cases different
      · cases resumeEmit_turn resumes with
        | asked | reached | ended | sent | thrown => trivial
    · have vetted := held.2 index _ found
      have turned := Vetted.turn pool.shared.2 vetted resumes (fun sight member =>
        List.mem_map_of_mem (List.mem_append_left (outputs.map Sum.inl)
          (List.mem_map_of_mem member)))
      refine ⟨fun key stored get => ?_, turned, fun position other _ _ vetted => vetted.append _⟩
      cases resumeSubscribe_turn resumes with
      | waiting | rejected => exact (held.1 key stored get).append _
      | @granted peer now =>
        rw [OrderedMap.get_set] at get
        split at get
        · cases get
          obtain ⟨foreign, passed⟩ := vetted
          refine ⟨foreign, index, body, peer, now, _, rfl, ?_, List.mem_append_left _ passed,
            List.mem_append_right _ (List.mem_map_of_mem (List.mem_append_right _
              (List.mem_map_of_mem (List.mem_singleton.mpr rfl))))⟩
          rfl
        · exact (held.1 key stored get).append _

theorem admitted_of_runs {exposedEvents : List String} {emitTelemetry : StreamRateOptions}
    {pool : WatchedPool} (created : new exposedEvents emitTelemetry = .ok hub)
    (runs : SteadyRuns settings hub history pool) {key : String}
    (found : pool.shared.1.subscriptions.get key = some stored) :
    Admitted settings history stored := by
  refine (admission_preserved.run_holds ⟨?_, ?_⟩ runs).1 key stored found
  · intro key stored get
    change hub.subscriptions.get key = some stored at get
    rw [(new_subscriptions created).1] at get
    cases get
  · intro index call located
    cases located

end

/-- What a frame for a topic needs when it is handed to the network: the topic
was exposed when the emission `index` started, and the recipient is admitted,
holds a live subscription to the topic, and passed all its guards. -/
structure EmissionAuthorized (settings : HubSettings) (history : List (Nat × HubReport))
    (watched : WatchedHub) (index : Nat) (subscription : PeerSubscription) (topic : String)
    (moment : Int) : Prop where
  exposed : (index, .inr (.emissionStarted topic true)) ∈ history
  subscribed : ∃ stored, watched.1.subscriptions.get subscription.key = some stored ∧
    stored.peerId = subscription.peerId ∧ moment < stored.expiresAt ∧
    topicMatches stored.topic topic = true ∧ Admitted settings history stored
  guarded : ∀ guarded, watched.1.guards.get guarded = some () → Anchors guarded topic →
    (index, .inr (.guardAnswered subscription.peerId topic guarded (watched.2.count guarded)
      true)) ∈ history

variable {settings : HubSettings} {exposedEvents : List String}
  {emitTelemetry : StreamRateOptions} {hub : SubscriptionHub} {subscription : PeerSubscription}
  {frame : EventEmitBody} {checked : Int}

theorem sendEvent_of_resume {emission : Emission} {phase : EmitPhase} {answer : HubAnswer}
    {step : HubStep} (resumed : resumeEmit settings hub emission phase answer = some step)
    (sent : .sendEvent subscription frame checked ∈ step.events) :
    ∃ cursor moment registerNow, phase = .guarding cursor subscription (.decided true) ∧
      answer = .dispatch moment registerNow checked ∧ frame.topic = emission.topic := by
  have quiet {other : SubscriptionHub} {cursor delivered : Nat} (silent : .sendEvent subscription
      frame checked ∈ (seekSubscriber other { emission with delivered := delivered }
        cursor).events) : False :=
    (seekSubscriber_sameGate _ _ _).2 _ _ _ silent
  rcases resumeEmit_cases resumed with
    ⟨_, _, _, _, _, _, rfl⟩ | ⟨cursor, recipient, moment, registerNow, checkNow, rfl, rfl, rfl⟩ |
    ⟨_, _, _, rfl⟩ | rfl
  · cases sent
  · rcases dispatchEvent_cases settings hub emission cursor recipient moment registerNow
        checkNow with ⟨-, refused⟩ | ⟨-, dispatched⟩
    · rw [refused] at sent
      exact (quiet sent).elim
    · rw [dispatched] at sent
      cases List.mem_singleton.mp sent
      exact ⟨cursor, moment, registerNow, rfl, rfl, rfl⟩
  · exact (quiet sent).elim
  · cases sent

theorem sendEvent_of_step {pool after : WatchedPool} {label : HubLabel}
    {more : List (Nat × HubReport)} {index : Nat}
    (stepped : (watchedHub settings).step pool label = some (after, more))
    (sent : (index, .inl (.sendEvent subscription frame checked)) ∈ more) :
    ∃ emission cursor moment registerNow,
      label = .resume index (.dispatch moment registerNow checked) ∧
      pool.calls[index]? = some (.emitting emission (.guarding cursor subscription
        (.decided true))) ∧ frame.topic = emission.topic := by
  obtain ⟨⟨changed, noted⟩, left⟩ := after
  have erased := mem_erase.mpr sent
  rcases Program.step_cases (erase_step stepped) with
    ⟨_, _, _, _, silent⟩ | ⟨action, call, events, _, launched, _, outputs⟩ |
    ⟨turn, answer, call, next, events, rfl, found, resumed, _, outputs⟩
  · rw [silent] at erased
    cases erased
  · rw [outputs] at erased
    obtain ⟨event, member, same⟩ := List.mem_map.mp erased
    cases same
    exact absurd member ((launchHub_sameGate launched).2 call events rfl _ _ _)
  · rw [outputs] at erased
    obtain ⟨event, member, same⟩ := List.mem_map.mp erased
    cases same
    rcases resumeHub_some resumed with
      ⟨emission, phase, rfl, resumes⟩ | ⟨peerId, body, phase, rfl, resumes⟩
    · obtain ⟨cursor, moment, registerNow, rfl, rfl, topicEq⟩ := sendEvent_of_resume resumes member
      exact ⟨emission, cursor, moment, registerNow, rfl, found, topicEq⟩
    · cases resumeSubscribe_turn resumes with
      | waiting => cases member
      | rejected | granted => simp at member

/-- Along a run of steady turns every frame is authorized when it is sent. -/
theorem emission_authorized {history more : List (Nat × HubReport)} {pool after : WatchedPool}
    {label : HubLabel} {index : Nat} {subscription : PeerSubscription} {frame : EventEmitBody}
    {checked : Int} (created : new exposedEvents emitTelemetry = .ok hub)
    (runs : SteadyRuns settings hub history pool) (steady : Steady pool.erase label)
    (stepped : (watchedHub settings).step pool label = some (after, more))
    (sent : (index, .inl (.sendEvent subscription frame checked)) ∈ more) :
    EmissionAuthorized settings history pool.shared index subscription frame.topic checked := by
  obtain ⟨emission, cursor, moment, registerNow, rfl, located, topicEq⟩ :=
    sendEvent_of_step stepped sent
  obtain ⟨started, recipient⟩ := emissionHolds_of_runs index created runs located
  obtain ⟨⟨stored, found, samePeer, matching⟩, granted⟩ :=
    recipient cursor subscription _ rfl (fun same => nomatch same)
  rw [topicEq]
  constructor
  · exact mem_ownOutputs.mp started
  · have live : checked < stored.expiresAt :=
      steady.1 emission cursor subscription moment registerNow checked located rfl stored found
    exact ⟨stored, found, samePeer, live, matching, admitted_of_runs created runs found⟩
  · intro guarded registered anchors
    obtain ⟨slot, slotEq⟩ : ∃ slot, pool.shared.1.guards.keyAt slot = some guarded := by
      by_contra absent
      rw [OrderedMap.get_eq_none_iff_keyAt.mpr (not_exists.mp absent)] at registered
      cases registered
    exact mem_ownOutputs.mp (granted (slot + 1) slot (Nat.lt_succ_self slot) guarded slotEq anchors)

def framesOf (outputs : List (Nat × HubReport)) :
    List (Nat × PeerSubscription × EventEmitBody × Int) :=
  outputs.filterMap fun output =>
    match output with
    | (index, .inl (.sendEvent subscription frame checked)) =>
      some (index, subscription, frame, checked)
    | _ => none

theorem mem_framesOf {outputs : List (Nat × HubReport)} {index : Nat}
    (member : (index, subscription, frame, checked) ∈ framesOf outputs) :
    (index, .inl (.sendEvent subscription frame checked)) ∈ outputs := by
  obtain ⟨output, present, isFrame⟩ := List.mem_filterMap.mp member
  split at isFrame
  · cases isFrame
    exact present
  · cases isFrame

def HubCall.isServing : HubCall → Bool
  | .emitting _ (.guarding _ _ _) => true
  | _ => false

/-- A turn that meets no recipient, or sends while every subscription lives. -/
def turnsAlone (pool : WatchedPool) : HubLabel → Bool
  | .resume _ (.dispatch _ _ now) =>
    pool.shared.1.subscriptions.values.all fun stored => decide (now < stored.expiresAt)
  | .resume _ (.commit _ _) => pool.calls.all fun call => !call.isServing
  | .resume _ _ => true
  | .launch _ => pool.calls.all fun call => !call.isServing

theorem steady_of_turnsAlone {pool : WatchedPool} {label : HubLabel}
    (alone : turnsAlone pool label) : Steady pool.erase label := by
  have unserved (idle : (pool.calls.all fun call => !call.isServing)) {call : HubCall}
      (member : call ∈ pool.calls) {emission : Emission} {subscription : PeerSubscription}
      {wait : GuardWait} (serves : call.Serves emission subscription wait) : False := by
    have quiet := List.all_eq_true.mp idle call member
    obtain ⟨-, cursor, rfl⟩ := serves
    cases quiet
  cases label with
  | launch action =>
    intro call member emission subscription wait serves
    exact (unserved alone member serves).elim
  | resume index answer =>
    constructor
    · rintro _ _ subscription _ _ checkNow _ rfl stored found
      have value : stored ∈ pool.shared.1.subscriptions.values :=
        OrderedMap.mem_values.mpr ⟨_, found⟩
      exact of_decide_eq_true (List.all_eq_true.mp alone stored value)
    · rintro _ _ _ _ _ rfl call member emission subscription wait serves
      exact (unserved alone member serves).elim

/-- A guarded topic, a subscriber that its guard lets pass twice. -/
def guardedSubscribe : List HubLabel :=
  [.launch (.registerSubscriptionGuard "calendar:"),
    .launch (.handleSubReq "peer" (lanRequest .subscribe) 0), .resume 0 (.access 0),
    .resume 0 (.guard (.resolved true)), .resume 0 (.commit (some lanPeer) 0),
    .launch (.emitLocal "calendar:added" .null 1 1)]

theorem emission_authorized_lanHub :
    ∃ history pool subscription frame checked, SteadyRuns lanSettings lanHub history pool ∧
      EmissionAuthorized lanSettings history pool.shared 1 subscription frame checked := by
  obtain ⟨history, pool, runs, passed⟩ := exists_runs_of_runWhile
    (watchedHub lanSettings).step (fun _ => turnsAlone) (fun _ pool => Steady pool.erase)
    (Pool.initial (lanHub, [])) (guardedSubscribe ++ [.resume 1 (.guard (.resolved true))])
    (fun result => turnsAlone result.1 (.resume 1 (.dispatch 0 3 3)) &&
      ((watchedHub lanSettings).step result.1 (.resume 1 (.dispatch 0 3 3))).any fun turned =>
        (framesOf turned.2).any fun sent => decide (sent.1 = 1))
    (fun _ _ _ => steady_of_turnsAlone) (by decide)
  rw [Bool.and_eq_true, Option.any_eq_true] at passed
  obtain ⟨alone, ⟨after, more⟩, stepped, sends⟩ := passed
  obtain ⟨⟨index, subscription, frame, checked⟩, member, isOwn⟩ := List.any_eq_true.mp sends
  obtain rfl : index = 1 := of_decide_eq_true isOwn
  exact ⟨history, pool, subscription, frame.topic, checked, runs,
    emission_authorized lanHub_created runs (steady_of_turnsAlone alone) stepped
      (mem_framesOf member)⟩

/-- A subscriber that leaves while the emission awaits the guard of its topic is
handed a frame without a subscription. -/
theorem emission_unauthorized :
    ∃ (settings : HubSettings) (exposedEvents : List String) (emitTelemetry : StreamRateOptions)
      (hub : SubscriptionHub) (history more : List (Nat × HubReport)) (pool after : WatchedPool)
      (label : HubLabel) (index : Nat) (subscription : PeerSubscription) (frame : EventEmitBody)
      (checked : Int), new exposedEvents emitTelemetry = .ok hub ∧
      Runs (watchedHub settings).step unrestricted (Pool.initial (hub, [])) history pool ∧
      (watchedHub settings).step pool label = some (after, more) ∧
      (index, .inl (.sendEvent subscription frame checked)) ∈ more ∧
      ¬EmissionAuthorized settings history pool.shared index subscription frame.topic checked := by
  obtain ⟨history, pool, after, outputs, _, _, reached, answered, _, passed⟩ :=
    exists_runs_around (watchedHub lanSettings).step (Pool.initial (lanHub, []))
      (guardedSubscribe ++ [.launch (.handleSubReq "peer" (lanRequest .unsubscribe) 2),
        .resume 1 (.guard (.resolved true))])
      (.resume 1 (.dispatch 0 3 3)) []
      (fun pool outputs _ _ => (framesOf outputs).any fun sent =>
        decide (pool.shared.1.subscriptions.get sent.2.1.key = none))
      (by decide)
  obtain ⟨⟨index, subscription, frame, checked⟩, member, unsubscribed⟩ :=
    List.any_eq_true.mp passed
  refine ⟨lanSettings, _, _, lanHub, history, outputs, pool, after, _, index, subscription, frame,
    checked, lanHub_created, reached, answered, mem_framesOf member, ?_⟩
  intro authorized
  obtain ⟨stored, found, -⟩ := authorized.subscribed
  rw [of_decide_eq_true unsubscribed] at found
  cases found

end P2PHub
