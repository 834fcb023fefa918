import P2PHub.AsyncObservation
import P2PHub.SubscriptionHubExposure

/-!
# Authorization of emissions

Under which conditions a frame leaves the hub: the topic was exposed when its
emission started, the recipient holds a subscription to it, every guard of the
topic let the recipient pass, and so did the peer gate when it subscribed.  The
answers of the gates are what an observer of the hub sees.
-/

namespace P2PHub

open AsyncCalls OrderedMap

/-- What an observer sees of the hub's calls beside what they put out.  A guard
is told from others of its namespace by the number of registrations so far. -/
inductive HubSight
  | emissionStarted (topic : String) (exposed : Bool)
  | guardAnswered (peerId topic guarded : String) (registration : Nat) (granted : Bool)
  | peerPassed (peerId : String) (body : SubReqBody)
  deriving DecidableEq, Repr

abbrev HubReport := HubEvent ⊕ HubSight

/-- The hub with the namespaces that guards were registered for, in order. -/
abbrev WatchedHub := SubscriptionHub × List String

def seeResume (settings : HubSettings) (hub : SubscriptionHub) (registrations : List String) :
    HubCall → HubAnswer → List HubSight
  | .emitting emission (.guarding _ subscription (.asking position)), .guard outcome =>
    ((hub.guards.keyAt position).map fun guarded =>
      .guardAnswered subscription.peerId emission.topic guarded (registrations.count guarded)
        (evaluateBool outcome)).toList
  | .subscribing peerId body .checkingPeer, .access moment =>
    if (checkPeerAccess moment (some peerId) (some settings.peerAccess)
        settings.peerAccessContext).isGranted then [.peerPassed peerId body] else []
  | _, _ => []

def noteGuard (registrations : List String) (hub : SubscriptionHub) : HubAction → List String
  | .registerSubscriptionGuard guarded =>
    match hub.registerSubscriptionGuard guarded with
    | .ok _ => registrations ++ [guarded]
    | .error _ => registrations
  | _ => registrations

def hubObserver (settings : HubSettings) :
    Observer SubscriptionHub HubAction HubCall HubAnswer HubSight (List String) where
  note := noteGuard
  launched hub _
    | .emitLocal topic _ _ _ => [.emissionStarted topic (hub.isExposed topic)]
    | _ => []
  resumed := seeResume settings

def watchedHub (settings : HubSettings) :
    Program WatchedHub HubAction HubCall HubAnswer HubReport :=
  (hubProgram settings).observed (hubObserver settings)

/-- A namespace that a guard is registered for covers a topic. -/
def Anchors (guarded topic : String) : Prop :=
  guarded.toList <+: topic.toList

/-- The call asks the guards of a topic for a recipient, or they all granted. -/
def HubCall.Serves (call : HubCall) (emission : Emission) (subscription : PeerSubscription)
    (wait : GuardWait) : Prop :=
  wait ≠ .decided false ∧ ∃ cursor, call = .emitting emission (.guarding cursor subscription wait)

/-- What the hub stores for a recipient has not expired. -/
def LiveAt (hub : SubscriptionHub) (subscription : PeerSubscription) (now : Int) : Prop :=
  ∀ stored, hub.subscriptions.get subscription.key = some stored → now < stored.expiresAt

/-- The action neither removes the subscription of a recipient whose guards are
asked, nor registers a guard of the topic that they were asked past. -/
def Spares (hub : SubscriptionHub) (emission : Emission) (subscription : PeerSubscription)
    (wait : GuardWait) : HubAction → Prop
  | .setExposedEvents _ => True
  | .registerSubscriptionGuard guarded => Anchors guarded emission.topic →
      ∃ position, wait = .asking position ∧
        ∀ asked ≤ position, hub.guards.keyAt asked ≠ some guarded
  | .handleSubReq peerId body now => LiveAt hub subscription now ∧
      ¬(body.action = .unsubscribe ∧ keyFor peerId body.subscriptionId = subscription.key)
  | .emitLocal topic _ sweepNow _ => hub.isExposed topic = true → LiveAt hub subscription sweepNow
  | .listSubscriptions now => LiveAt hub subscription now
  | .sweep now => LiveAt hub subscription now
  | .close => False

/-- The condition on a turn: what a recipient needs stays in place while its
guards are asked, and its subscription has not expired when its frame is sent. -/
def Steady (pool : HubPool) : HubLabel → Prop
  | .launch action => ∀ call ∈ pool.calls, ∀ emission subscription wait,
      call.Serves emission subscription wait → Spares pool.shared emission subscription wait action
  | .resume index answer =>
    (∀ emission cursor subscription moment registerNow checkNow, pool.calls[index]? =
          some (.emitting emission (.guarding cursor subscription (.decided true))) →
        answer = .dispatch moment registerNow checkNow → LiveAt pool.shared subscription checkNow) ∧
    ∀ peerId body peer now,
      pool.calls[index]? = some (.subscribing peerId body (.guarding (.decided true))) →
        answer = .commit (some peer) now → ∀ call ∈ pool.calls, ∀ emission subscription wait,
            call.Serves emission subscription wait →
              keyFor peerId body.subscriptionId = subscription.key →
                peerId = subscription.peerId ∧ topicMatches body.topic emission.topic = true

section

variable {settings : HubSettings} {hub after : SubscriptionHub}
  {call next : HubCall} {answer : HubAnswer} {events : List HubEvent}

theorem resumeHub_subscriptions
    (resumed : (hubProgram settings).resume hub call answer = some (after, next, events)) :
    after.subscriptions = hub.subscriptions ∨
    ∃ peerId body peer now, call = .subscribing peerId body (.guarding (.decided true)) ∧
      answer = .commit (some peer) now ∧
      after.subscriptions = hub.subscriptions.set (keyFor peerId body.subscriptionId)
        (grantedSubscription peerId body peer now) := by
  rcases resumeHub_some resumed with
    ⟨emission, phase, rfl, resumes⟩ | ⟨peerId, body, phase, rfl, resumes⟩
  · left
    cases resumeEmit_turn resumes with
    | asked | thrown => rfl
    | reached same | ended same | sent same => exact same.subscriptions
  · cases resumeSubscribe_turn resumes with
    | waiting | rejected => exact .inl rfl
    | granted => exact .inr ⟨peerId, body, _, _, rfl, rfl, rfl⟩

theorem registerSubscriptionGuard_ok {guarded : String}
    (registers : hub.registerSubscriptionGuard guarded = .ok after) :
    after = { hub with guards := hub.guards.set guarded () } := by
  unfold SubscriptionHub.registerSubscriptionGuard at registers
  split at registers
  · exact (Except.ok.inj registers).symm
  · cases registers

theorem get_sweep {now : Int} {key : String} {stored : PeerSubscription}
    (found : hub.subscriptions.get key = some stored) (live : now < stored.expiresAt) :
    (hub.sweep now).subscriptions.get key = some stored := by
  have kept : ¬stored.expiresAt ≤ now := by omega
  simp [SubscriptionHub.sweep, found, Option.filter, kept]

end

variable {settings : HubSettings} {hub after : SubscriptionHub} {own : List HubReport}
  {registrations : List String} {emission : Emission} {subscription : PeerSubscription}
  {wait : GuardWait} {peerId topic : String} {left : Option (HubCall × List HubEvent)}

/-- The recipient holds a subscription to the topic of the emission. -/
def Subscribed (hub : SubscriptionHub) (emission : Emission) (subscription : PeerSubscription) :
    Prop :=
  ∃ stored, hub.subscriptions.get subscription.key = some stored ∧
    stored.peerId = subscription.peerId ∧ topicMatches stored.topic emission.topic = true

/-- The guards of a topic in the slots below a position let the peer pass. -/
def GrantedBelow (own : List HubReport) (watched : WatchedHub) (peerId topic : String)
    (limit : Nat) : Prop :=
  ∀ position < limit, ∀ guarded, watched.1.guards.keyAt position = some guarded →
    Anchors guarded topic →
      .inr (.guardAnswered peerId topic guarded (watched.2.count guarded) true) ∈ own

/-- The guards that the wait is past let the peer pass. -/
def GrantedUpTo (own : List HubReport) (watched : WatchedHub) (peerId topic : String) :
    GuardWait → Prop
  | .asking position => watched.1.guards.keyAt position ≠ none ∧
      GrantedBelow own watched peerId topic position
  | .decided true => ∀ limit, GrantedBelow own watched peerId topic limit
  | .decided false => True

/-- The recipient whose guards are asked holds its subscription, and passed the
guards asked so far. -/
def RecipientHolds (own : List HubReport) (watched : WatchedHub) (emission : Emission)
    (subscription : PeerSubscription) (wait : GuardWait) : Prop :=
  wait ≠ .decided false → Subscribed watched.1 emission subscription ∧
      GrantedUpTo own watched subscription.peerId emission.topic wait

def EmissionHolds (own : List HubReport) (watched : WatchedHub) : HubCall → Prop
  | .emitting _ .threw => True
  | .emitting emission phase => .inr (.emissionStarted emission.topic true) ∈ own ∧
      ∀ cursor subscription wait, phase = .guarding cursor subscription wait →
        RecipientHolds own watched emission subscription wait
  | .subscribing _ _ _ => True

theorem GrantedBelow.mono {later : List HubReport} {limit : Nat}
    (granted : GrantedBelow own (hub, registrations) peerId topic limit) :
    GrantedBelow (own ++ later) (hub, registrations) peerId topic limit :=
  fun position below guarded located anchors =>
    List.mem_append_left later (granted position below guarded located anchors)

/-- Between its position and the next guard that is asked the map has none of
the topic. -/
theorem askGuard_grantedUpTo {position : Nat}
    (granted : GrantedBelow own (hub, registrations) peerId topic position) :
    GrantedUpTo own (hub, registrations) peerId topic (askGuard hub topic position) := by
  have skipped (limit : Nat) (behind : ∀ found entry, hub.guards.nextFrom position
        (fun guarded _ => guarded.toList.isPrefixOf topic.toList) = some (found, entry) →
          limit ≤ found) : GrantedBelow own (hub, registrations) peerId topic limit := by
    intro slot below guarded located anchors
    by_cases asked : slot < position
    · exact granted slot asked guarded located anchors
    · have present : hub.guards.get guarded = some () := by
        cases stored : hub.guards.get guarded with
        | none => exact absurd located (get_eq_none_iff_keyAt.mp stored slot)
        | some value => rfl
      have rejected := nextFrom_skips (Nat.le_of_not_lt asked) located present
        (fun found entry foundEq => by
          have beyond := behind found entry foundEq
          omega)
      rw [List.isPrefixOf_iff_prefix.mpr anchors] at rejected
      cases rejected
  unfold askGuard
  split
  · next found entry foundEq =>
      obtain ⟨-, -, located, -⟩ := nextFrom_sound foundEq
      refine ⟨by rw [located]; exact Option.some_ne_none _, skipped found ?_⟩
      intro other entry otherEq
      rw [foundEq] at otherEq
      cases otherEq
      exact Nat.le_refl _
  · next none =>
      intro limit
      apply skipped
      intro found entry foundEq
      rw [none] at foundEq
      cases foundEq

/-- The loop goes on to a recipient that holds a subscription, and asks its first
guard. -/
theorem seekSubscriber_emissionHolds (keyed : WellKeyed hub) (cursor : Nat)
    (started : .inr (.emissionStarted emission.topic true) ∈ own) :
    EmissionHolds own (hub, registrations) (seekSubscriber hub emission cursor).call := by
  unfold seekSubscriber
  split
  · refine ⟨started, ?_⟩
    rintro _ _ _ ⟨⟩
  · next position key subscription found =>
      obtain ⟨-, reaches, -, stored⟩ := nextFrom_sound found
      refine ⟨started, ?_⟩
      rintro _ _ _ ⟨⟩ _
      have keyEq := keyed key subscription stored
      rw [Emission.reaches, Bool.and_eq_true] at reaches
      constructor
      · exact ⟨subscription, by rw [keyEq, stored], rfl, reaches.2⟩
      · apply askGuard_grantedUpTo
        exact fun _ below => absurd below (Nat.not_lt_zero _)

theorem emissionStarted_of_standing {phase : EmitPhase} {cursor : Nat}
    (held : EmissionHolds own (hub, registrations) (.emitting emission phase))
    (standing : phase.cursor? = some cursor) :
    .inr (.emissionStarted emission.topic true) ∈ own := by
  cases phase with
  | threw => cases standing
  | guarding | sending | returned => exact held.1

theorem EmissionHolds.turn {phase : EmitPhase} {answer : HubAnswer} {step : HubStep}
    (held : EmissionHolds own (hub, registrations) (.emitting emission phase))
    (keyed : WellKeyed hub) (resumed : resumeEmit settings hub emission phase answer = some step)
    {more : List HubReport} (sights : ∀ sight ∈ seeResume settings hub registrations
      (.emitting emission phase) answer, .inr sight ∈ more) :
    EmissionHolds (own ++ more) (step.hub, registrations) step.call := by
  have keyedAfter {other : SubscriptionHub} (same : other.subscriptions = hub.subscriptions) :
      WellKeyed other := by
    intro key stored found
    rw [same] at found
    exact keyed key stored found
  rcases resumeEmit_cases resumed with
    ⟨cursor, subscription, position, outcome, rfl, rfl, rfl⟩ |
    ⟨cursor, subscription, moment, registerNow, checkNow, rfl, rfl, rfl⟩ |
    ⟨cursor, delivered, standing, rfl⟩ | rfl
  · obtain ⟨started, recipient⟩ := held
    obtain ⟨holding, located, granted⟩ := recipient cursor subscription _ rfl
      (fun same => nomatch same)
    refine ⟨List.mem_append_left more started, ?_⟩
    rintro _ _ _ ⟨⟩ _
    refine ⟨holding, ?_⟩
    unfold answerGuard
    split
    · next passed =>
        apply askGuard_grantedUpTo
        intro slot below guarded slotEq anchors
        by_cases current : slot = position
        · subst current
          apply List.mem_append_right own
          apply sights
          simp [seeResume, slotEq, passed]
        · exact granted.mono slot (by omega) guarded slotEq anchors
    · trivial
  · have started := List.mem_append_left more held.1
    rcases dispatchEvent_cases settings hub emission cursor subscription moment registerNow
        checkNow with ⟨-, refused⟩ | ⟨-, sent⟩
    · rw [refused, seekSubscriber_hub]
      exact seekSubscriber_emissionHolds (keyedAfter passGate_sameStores.subscriptions) cursor
        started
    · rw [sent]
      refine ⟨started, ?_⟩
      rintro _ _ _ ⟨⟩
  · rw [seekSubscriber_hub]
    have started : .inr (.emissionStarted emission.topic true) ∈ own :=
      emissionStarted_of_standing held standing
    exact seekSubscriber_emissionHolds keyed cursor (List.mem_append_left more started)
  · trivial

/-- The invariant of an emission depends on the subscriptions that match its
topic, the guards, and their registrations. -/
theorem EmissionHolds.congr {call : HubCall} {registered : List String}
    (held : EmissionHolds own (hub, registrations) call)
    (kept : ∀ emission subscription wait, call.Serves emission subscription wait →
      (Subscribed hub emission subscription → Subscribed after emission subscription) ∧
      (GrantedUpTo own (hub, registrations) subscription.peerId emission.topic wait →
        GrantedUpTo own (after, registered) subscription.peerId emission.topic wait)) :
    EmissionHolds own (after, registered) call := by
  cases call with
  | subscribing peerId body phase => trivial
  | emitting emission phase =>
    cases phase with
    | threw => trivial
    | sending | returned => exact ⟨held.1, fun _ _ _ same => nomatch same⟩
    | guarding cursor subscription wait =>
      refine ⟨held.1, ?_⟩
      rintro _ _ _ ⟨⟩ unfinished
      obtain ⟨holding, granted⟩ := held.2 cursor subscription wait rfl unfinished
      obtain ⟨holds, grants⟩ := kept emission subscription wait ⟨unfinished, cursor, rfl⟩
      exact ⟨holds holding, grants granted⟩

theorem GrantedUpTo.congr (same : after.guards = hub.guards)
    (granted : GrantedUpTo own (hub, registrations) peerId topic wait) :
    GrantedUpTo own (after, registrations) peerId topic wait := by
  have below {limit : Nat} (granted : GrantedBelow own (hub, registrations) peerId topic limit) :
      GrantedBelow own (after, registrations) peerId topic limit := by
    intro position inside guarded located
    rw [same] at located
    exact granted position inside guarded located
  cases wait with
  | asking position =>
    refine ⟨?_, below granted.2⟩
    rw [same]
    exact granted.1
  | decided outcome =>
    cases outcome with
    | true => exact fun limit => below (granted limit)
    | false => trivial

theorem GrantedUpTo.register {guarded : String}
    (granted : GrantedUpTo own (hub, registrations) peerId emission.topic wait)
    (spared : Spares hub emission subscription wait (.registerSubscriptionGuard guarded))
    (same : after.guards = hub.guards.set guarded ()) :
    GrantedUpTo own (after, registrations ++ [guarded]) peerId emission.topic wait := by
  have counted {other : String} (apart : other ≠ guarded) :
      (registrations ++ [guarded]).count other = registrations.count other := by
    rw [List.count_append, List.count_singleton, if_neg (by simpa using Ne.symm apart),
      Nat.add_zero]
  cases wait with
  | asking position =>
    obtain ⟨live, below⟩ := granted
    have unmoved (slot : Nat) (before : slot ≤ position) :
        after.guards.keyAt slot = hub.guards.keyAt slot := by
      rw [same]
      exact keyAt_set_of_le live before
    refine ⟨by rw [unmoved position (Nat.le_refl _)]; exact live, ?_⟩
    intro slot inside name located anchors
    rw [unmoved slot (by omega)] at located
    by_cases replaced : name = guarded
    · subst replaced
      obtain ⟨_, asking, unasked⟩ := spared anchors
      cases asking
      exact absurd located (unasked slot (by omega))
    · rw [counted replaced]
      exact below slot inside name located anchors
  | decided outcome =>
    cases outcome with
    | false => trivial
    | true =>
      intro limit slot inside name located anchors
      by_cases replaced : name = guarded
      · subst replaced
        obtain ⟨_, asking, _⟩ := spared anchors
        cases asking
      · rw [counted replaced]
        rw [same] at located
        rcases keyAt_set located with old | ⟨new, _⟩
        · exact granted limit slot inside name old anchors
        · exact absurd new replaced

theorem Subscribed.congr (same : after.subscriptions = hub.subscriptions)
    (holding : Subscribed hub emission subscription) : Subscribed after emission subscription := by
  rw [Subscribed, same]
  exact holding

theorem Subscribed.sweep {now : Int} (holding : Subscribed hub emission subscription)
    (live : LiveAt hub subscription now) : Subscribed (hub.sweep now) emission subscription := by
  obtain ⟨stored, found, peer, topic⟩ := holding
  exact ⟨stored, get_sweep found (live stored found), peer, topic⟩

theorem Subscribed.launch {action : HubAction} (holding : Subscribed hub emission subscription)
    (spared : Spares hub emission subscription wait action)
    (launched : (hubProgram settings).launch hub action = (after, left)) :
    Subscribed after emission subscription := by
  have same : after = ((hubProgram settings).launch hub action).1 := by rw [launched]
  cases action with
  | setExposedEvents topics =>
    rw [same]
    exact holding
  | registerSubscriptionGuard guarded =>
    refine holding.congr ?_
    simp only [hubProgram] at same
    split at same
    · next registers =>
        rw [same, registerSubscriptionGuard_ok registers]
    · rw [same]
  | handleSubReq peerId body now =>
    obtain rfl : after = (handleSubReq settings hub peerId body now).hub := same
    obtain ⟨live, stays⟩ := spared
    have swept := holding.sweep live
    rcases handleSubReq_cases settings hub peerId body now with
      ⟨reason, rejected⟩ | ⟨unsubscribe, -, removed⟩ | ⟨-, -, -, entered⟩
    · rw [rejected]
      exact swept
    · rw [removed]
      obtain ⟨stored, found, peer, topic⟩ := swept
      refine ⟨stored, ?_, peer, topic⟩
      have apart : subscription.key ≠ keyFor peerId body.subscriptionId :=
        fun sameKey => stays ⟨unsubscribe, sameKey.symm⟩
      exact (get_delete_of_ne _ apart).trans found
    · rw [entered]
      exact swept
  | emitLocal topic payload sweepNow now =>
    obtain rfl : after = (emitLocal hub topic payload sweepNow now).hub := same
    rw [emitLocal_hub]
    split
    · next exposed => exact holding.sweep (spared exposed)
    · exact holding
  | listSubscriptions now | sweep now =>
    obtain rfl : after = hub.sweep now := same
    exact holding.sweep spared
  | close => exact spared.elim

theorem GrantedUpTo.launch {action : HubAction}
    (granted : GrantedUpTo own (hub, registrations) subscription.peerId emission.topic wait)
    (spared : Spares hub emission subscription wait action)
    (launched : (hubProgram settings).launch hub action = (after, left)) :
    GrantedUpTo own (after, noteGuard registrations hub action) subscription.peerId
      emission.topic wait := by
  have unregistered (quiet : noteGuard registrations hub action = registrations)
      (same : after.guards = hub.guards) :
      GrantedUpTo own (after, noteGuard registrations hub action) subscription.peerId
        emission.topic wait := by
    rw [quiet]
    exact granted.congr same
  cases action with
  | registerSubscriptionGuard guarded =>
    cases registers : hub.registerSubscriptionGuard guarded with
    | ok registered =>
      simp only [hubProgram, registers] at launched
      cases launched
      simp only [noteGuard, registers]
      rw [registerSubscriptionGuard_ok registers]
      exact granted.register spared rfl
    | error failure =>
      simp only [hubProgram, registers, Prod.mk.injEq] at launched
      apply unregistered
      · simp only [noteGuard, registers]
      · rw [launched.1]
  | setExposedEvents | listSubscriptions | sweep =>
    exact unregistered rfl (congrArg (fun made => made.1.guards) launched).symm
  | handleSubReq | emitLocal =>
    rcases launchHub_exposure launched with ⟨_, different, _⟩ | ⟨_, different, _⟩ | same
    · cases different
    · cases different
    · exact unregistered rfl same.guards
  | close => exact spared.elim

theorem Subscribed.resume {turned next : HubCall} {answer : HubAnswer} {events : List HubEvent}
    (holding : Subscribed hub emission subscription)
    (resumed : (hubProgram settings).resume hub turned answer = some (after, next, events))
    (steady : ∀ peerId body peer now,
      turned = .subscribing peerId body (.guarding (.decided true)) →
        answer = .commit (some peer) now → keyFor peerId body.subscriptionId = subscription.key →
          peerId = subscription.peerId ∧ topicMatches body.topic emission.topic) :
    Subscribed after emission subscription := by
  rcases resumeHub_subscriptions resumed with same | ⟨peerId, body, peer, now, isTurned, answered,
    set⟩
  · exact holding.congr same
  · by_cases sameKey : keyFor peerId body.subscriptionId = subscription.key
    · obtain ⟨samePeer, matching⟩ := steady peerId body peer now isTurned answered sameKey
      refine ⟨grantedSubscription peerId body peer now, ?_, samePeer, matching⟩
      rw [set, sameKey, get_set_self]
    · obtain ⟨stored, found, samePeer, matching⟩ := holding
      refine ⟨stored, ?_, samePeer, matching⟩
      rw [set, get_set_of_ne _ _ (Ne.symm sameKey)]
      exact found

end P2PHub
