import P2PHub.SubscriptionHubRuns

/-!
# The rate override of a subscriber

An override is remembered for the peer, but it is installed as a bucket of the
one channel about to be used.  Other channels of the peer run on the default
configuration, a sweep drops the bucket, and an override above the default
widens the channel.
-/

namespace P2PHub

open AsyncCalls SlidingWindow SubscriptionHub StreamEntry OrderedMap

/-- The readings of the gate's clock under which a channel was handed frames. -/
def sendTimes (history : List (Nat × HubEvent)) (peerId topic : String) : List Int :=
  history.filterMap fun output => match output.2 with
    | .sendEvent subscriber frame checked =>
      if subscriber.peerId = peerId ∧ frame.topic = topic then some checked else none
    | _ => none

def keySendTimes (history : List (Nat × HubEvent)) (key : String) : List Int :=
  history.filterMap fun output => match output.2 with
    | .sendEvent subscriber frame checked =>
      if keyFor subscriber.peerId frame.topic = key then some checked else none
    | _ => none

theorem sendTimes_sublist (history : List (Nat × HubEvent)) (peerId topic : String) :
    (sendTimes history peerId topic).Sublist (keySendTimes history (keyFor peerId topic)) := by
  induction history with
  | nil => exact List.Sublist.slnil
  | cons output history ih =>
    obtain ⟨index, event⟩ := output
    cases event with
    | sendEvent subscriber frame checked =>
      by_cases own : subscriber.peerId = peerId ∧ frame.topic = topic
      · have sameKey : keyFor subscriber.peerId frame.topic = keyFor peerId topic := by
          rw [own.1, own.2]
        simpa [sendTimes, keySendTimes, own, sameKey] using ih
      · have later : (sendTimes history peerId topic).Sublist
            (keySendTimes ((index, .sendEvent subscriber frame checked) :: history)
              (keyFor peerId topic)) := by
          simp only [keySendTimes, List.filterMap_cons]
          split
          · exact ih
          · exact ih.cons _
        simpa [sendTimes, own] using later
    | subAck | topicNotExposed | delivered => exact ih

theorem keySendTimes_append (history later : List (Nat × HubEvent)) (key : String) :
    keySendTimes (history ++ later) key = keySendTimes history key ++ keySendTimes later key :=
  List.filterMap_append

theorem keySendTimes_quiet {events : List HubEvent} (index : Nat) (key : String)
    (quiet : ∀ subscriber frame checked, .sendEvent subscriber frame checked ∉ events) :
    keySendTimes (events.map (index, ·)) key = [] := by
  refine List.filterMap_eq_nil_iff.mpr ?_
  intro output member
  obtain ⟨event, eventMem, rfl⟩ := List.mem_map.mp member
  cases event with
  | sendEvent subscriber frame checked => exact absurd eventMem (quiet _ _ _)
  | subAck | topicNotExposed | delivered => rfl

section

variable {settings : HubSettings} {hub after : SubscriptionHub}
  {call next : HubCall} {answer : HubAnswer} {events : List HubEvent} {emission : Emission}
  {cursor : Nat}

theorem resumeHub_gate
    (resumed : (hubProgram settings).resume hub call answer = some (after, next, events)) :
    (SameGate hub after ∧
      ∀ subscriber frame checked, .sendEvent subscriber frame checked ∉ events) ∨
    ∃ emission cursor subscription moment registerNow checkNow,
      call = .emitting emission (.guarding cursor subscription (.decided true)) ∧
      answer = .dispatch moment registerNow checkNow ∧
      let passed := hub.passGate settings subscription.peerId emission.topic emission.byteSize
        moment registerNow checkNow
      SameGate passed.1 after ∧
      ((passed.2 = false ∧
          ∀ subscriber frame checked, .sendEvent subscriber frame checked ∉ events) ∨
        (passed.2 ∧ events =
          [.sendEvent subscription (sentFrame settings hub emission subscription) checkNow])) := by
  rcases resumeHub_some resumed with
    ⟨emission, phase, rfl, resumes⟩ | ⟨peerId, body, phase, rfl, resumes⟩
  · rcases resumeEmit_cases resumes with
      ⟨cursor, subscription, position, outcome, rfl, rfl, stepEq⟩ |
      ⟨cursor, subscription, moment, registerNow, checkNow, rfl, rfl, stepEq⟩ |
      ⟨cursor, delivered, _, stepEq⟩ | stepEq
    · cases stepEq
      exact Or.inl ⟨.refl _, by simp⟩
    · refine Or.inr ⟨emission, cursor, subscription, moment, registerNow, checkNow, rfl, rfl, ?_⟩
      rcases dispatchEvent_cases settings hub emission cursor subscription moment registerNow
        checkNow with ⟨refused, goesOn⟩ | ⟨allowed, sends⟩
      · have seeks := seekSubscriber_sameGate (hub.passGate settings subscription.peerId
          emission.topic emission.byteSize moment registerNow checkNow).1 emission cursor
        rw [← goesOn, ← stepEq] at seeks
        exact ⟨seeks.1, Or.inl ⟨refused, seeks.2⟩⟩
      · cases stepEq.trans sends
        exact ⟨⟨rfl, rfl⟩, Or.inr ⟨allowed, rfl⟩⟩
    · have seeks := seekSubscriber_sameGate hub { emission with delivered := delivered } cursor
      rw [← stepEq] at seeks
      exact Or.inl seeks
    · cases stepEq
      exact Or.inl ⟨.refl _, by simp⟩
  · left
    cases resumeSubscribe_turn resumes with
    | waiting | rejected => exact ⟨.refl _, by simp⟩
    | granted => exact ⟨⟨rfl, rfl⟩, by simp⟩

end

/-- The override of the peer is always the same positive integer. -/
structure OverridesBy (settings : HubSettings) (peerId : String) (custom : Nat) : Prop where
  resolves : ∃ peerRateLimit, settings.peerRateLimit = some peerRateLimit ∧
    ∀ moment, peerRateLimit moment peerId = .resolved (some (.integer custom))
  positive : 0 < custom

theorem OverridesBy.customRate {settings : HubSettings} {peerId : String} {custom : Nat}
    (overrides : OverridesBy settings peerId custom) (moment : Nat) :
    SubscriptionHub.customRate settings moment peerId = some custom := by
  obtain ⟨peerRateLimit, settingsEq, constant⟩ := overrides.resolves
  have value : (JsNumber.integer custom).positive? = some ⟨custom, overrides.positive⟩ :=
    dif_pos overrides.positive
  simp [SubscriptionHub.customRate, settingsEq, constant, value]

theorem val_of_positive? {value : Nat} {found : { value : Nat // 0 < value }}
    (positive : (JsNumber.integer value).positive? = some found) : found.val = value := by
  change (if above : 0 < value then some ⟨value, above⟩ else none) = some found at positive
  split at positive
  · exact (congrArg Subtype.val (Option.some.inj positive)).symm
  · cases positive

theorem validateConfig_messages {base merged : StreamRateConfig} {custom : Nat} {label : String}
    (validated : validateConfig base { maxMessagesPerSecond := some (.integer custom) } label =
      .ok merged) :
    merged.windowMs = base.windowMs ∧ merged.maxMessagesPerSecond = custom := by
  unfold validateConfig at validated
  dsimp only [Option.getD] at validated
  split at validated
  · next windowMs maxMessages maxBytes windowEq messagesEq _ =>
      cases validated
      exact ⟨val_of_positive? windowEq, val_of_positive? messagesEq⟩
  · cases validated

section

variable {settings : HubSettings} {hub after : SubscriptionHub} {peerId topic : String}
  {custom : Nat} {entries : List StreamEntry} {config : StreamRateConfig}
  {registerNow checkNow : Int} {served channel : String} {history : List (Nat × HubEvent)}
  {pool : HubPool} {exposedEvents : List String} {emitTelemetry : StreamRateOptions}

/-- What is applied of an override: nothing, as it has been already, or a
registration on the channel about to be used. -/
theorem applyPeerRateLimit_cases (settings : HubSettings) (hub : SubscriptionHub)
    (peerId topic : String) (moment : Nat) (registerNow : Int) :
    let applied := hub.applyPeerRateLimit settings peerId topic moment registerNow
    (applied = (hub, true) ∧ ∀ custom, customRate settings moment peerId = some custom →
        hub.appliedCustomRate.get peerId = some custom) ∨
    ∃ custom, customRate settings moment peerId = some custom ∧
      hub.appliedCustomRate.get peerId ≠ some custom ∧
      applied.1.appliedCustomRate = hub.appliedCustomRate.set peerId custom ∧
      ((applied.2 = false ∧ applied.1.emitGate = hub.emitGate) ∨
        ∃ merged, applied.2 ∧ merged.windowMs = hub.emitGate.gate.defaultConfig.windowMs ∧
          merged.maxMessagesPerSecond = custom ∧ applied.1.emitGate = ⟨{ hub.emitGate.gate with
                buckets := hub.emitGate.gate.buckets.set (keyFor peerId topic)
                  (.fresh merged registerNow) }, registerNow⟩) := by
  intro applied
  unfold applied SubscriptionHub.applyPeerRateLimit
  split
  · next unset => exact Or.inl ⟨rfl, by simp [unset]⟩
  · next custom set =>
      split
      · next before =>
          refine Or.inl ⟨rfl, fun other otherSet => ?_⟩
          rw [set] at otherSet
          rw [before, otherSet]
      · next fresh =>
          refine Or.inr ⟨custom, set, fresh, ?_⟩
          split
          · next gate registered =>
              obtain ⟨merged, validated, rfl⟩ := TelemetryGate.registerStream_eq_ok registered
              obtain ⟨windowEq, messagesEq⟩ := validateConfig_messages validated
              exact ⟨rfl, Or.inr ⟨merged, rfl, windowEq, messagesEq, rfl⟩⟩
          · exact ⟨rfl, Or.inl ⟨rfl, rfl⟩⟩

/-- The bound that the override and the default configuration set together. -/
def rateBound (hub : SubscriptionHub) (custom : Nat) : Nat :=
  min custom hub.emitGate.gate.defaultConfig.maxMessagesPerSecond

/-- What the hub and its gate remember of the frames handed to a channel. -/
structure ChannelHolds (peerId topic : String) (custom : Nat) (config : StreamRateConfig)
    (entries : List StreamEntry) (hub : SubscriptionHub) : Prop where
  default : hub.emitGate.gate.defaultConfig = config
  applied : hub.appliedCustomRate.get peerId = some custom ∨
    (hub.appliedCustomRate.get peerId = none ∧ entries = [])
  tracks : Tracks hub.emitGate.gate (keyFor peerId topic) config.windowMs hub.emitGate.clock entries
  within : Within time (fun _ => 1) config.windowMs (min custom config.maxMessagesPerSecond) entries

/-- A frame for the channel is judged under no wider cap than the bound: by the
bucket that survives the gate's sweep, or by the one about to be registered. -/
def RateInForce (hub : SubscriptionHub) (peerId topic : String) (custom : Nat)
    (checkNow : Int) : Prop :=
  if hub.appliedCustomRate.get peerId = some custom then
    (hub.emitGate.gate.bucketFor (keyFor peerId topic) checkNow).config.maxMessagesPerSecond ≤
      rateBound hub custom
  else custom ≤ hub.emitGate.gate.defaultConfig.maxMessagesPerSecond

instance (hub : SubscriptionHub) (peerId topic : String) (custom : Nat) (checkNow : Int) :
    Decidable (RateInForce hub peerId topic custom checkNow) :=
  inferInstanceAs (Decidable (if hub.appliedCustomRate.get peerId = some custom then
      (hub.emitGate.gate.bucketFor (keyFor peerId topic) checkNow).config.maxMessagesPerSecond ≤
        rateBound hub custom
    else custom ≤ hub.emitGate.gate.defaultConfig.maxMessagesPerSecond))

/-- Both readings of one turn follow the last one, within a window. -/
structure ReadsOn (hub : SubscriptionHub) (registerNow checkNow : Int) : Prop where
  passed : hub.emitGate.clock ≤ registerNow
  ordered : registerNow ≤ checkNow
  near : checkNow ≤ registerNow + hub.emitGate.gate.defaultConfig.windowMs

instance (hub : SubscriptionHub) (registerNow checkNow : Int) :
    Decidable (ReadsOn hub registerNow checkNow) :=
  decidable_of_iff (hub.emitGate.clock ≤ registerNow ∧ registerNow ≤ checkNow ∧
    checkNow ≤ registerNow + hub.emitGate.gate.defaultConfig.windowMs)
    ⟨fun ⟨passed, ordered, near⟩ => ⟨passed, ordered, near⟩,
      fun ⟨passed, ordered, near⟩ => ⟨passed, ordered, near⟩⟩

theorem ChannelHolds.congr
    (holds : ChannelHolds peerId topic custom config entries hub) (same : SameGate hub after) :
    ChannelHolds peerId topic custom config entries after := by
  obtain ⟨default, applied, tracks, within⟩ := holds
  refine ⟨?_, ?_, ?_, within⟩
  · rw [same.emitGate]
    exact default
  · rw [same.appliedCustomRate]
    exact applied
  · rw [same.emitGate]
    exact tracks

theorem bucketFor_registered {gate : TelemetryGate} {key : String} {merged : StreamRateConfig}
    (near : checkNow ≤ registerNow + gate.defaultConfig.windowMs) : (TelemetryGate.bucketFor
      { gate with buckets := gate.buckets.set key (.fresh merged registerNow) } key
      checkNow).config = merged := by
  have recent : ¬ registerNow < checkNow - gate.defaultConfig.windowMs := by omega
  unfold TelemetryGate.bucketFor
  rw [TelemetryGate.maybeSweep_get]
  simp [Option.filter, StreamBucket.fresh, recent]

theorem ChannelHolds.apply {moment : Nat}
    (holds : ChannelHolds peerId topic custom config entries hub)
    (overrides : OverridesBy settings peerId custom) (reads : ReadsOn hub registerNow checkNow)
    (own : keyFor served channel = keyFor peerId topic →
      served = peerId ∧ RateInForce hub peerId topic custom checkNow) :
    let applied := hub.applyPeerRateLimit settings served channel moment registerNow
    ChannelHolds peerId topic custom config entries applied.1 ∧
      applied.1.emitGate.clock ≤ checkNow ∧
      (applied.2 → keyFor served channel = keyFor peerId topic →
        applied.1.appliedCustomRate.get peerId = some custom ∧
          (applied.1.emitGate.gate.bucketFor (keyFor peerId topic)
            checkNow).config.maxMessagesPerSecond ≤ min custom config.maxMessagesPerSecond) := by
  intro applied
  have clockBound : hub.emitGate.clock ≤ checkNow := le_trans reads.passed reads.ordered
  rcases applyPeerRateLimit_cases settings hub served channel moment registerNow with
    ⟨appliedEq, already⟩ | ⟨rate, rateEq, changed, ratesEq, outcome⟩
  · have unchanged : applied = (hub, true) := appliedEq
    rw [unchanged]
    refine ⟨holds, clockBound, fun _ sameKey => ?_⟩
    obtain ⟨rfl, inForce⟩ := own sameKey
    have before := already custom (overrides.customRate moment)
    rw [RateInForce, if_pos before, rateBound, holds.default] at inForce
    exact ⟨before, inForce⟩
  · have ownRate : served = peerId → rate = custom := by
      rintro rfl
      rw [overrides.customRate] at rateEq
      exact (Option.some.inj rateEq).symm
    have rates : applied.1.appliedCustomRate.get peerId = some custom ∨
        (applied.1.appliedCustomRate.get peerId = none ∧ entries = []) := by
      rw [ratesEq]
      by_cases samePeer : peerId = served
      · subst samePeer
        rw [get_set_self, ownRate rfl]
        exact Or.inl rfl
      · rw [get_set_of_ne _ _ samePeer]
        exact holds.applied
    rcases outcome with ⟨refused, gateEq⟩ | ⟨merged, _, windowEq, messagesEq, gateEq⟩
    · refine ⟨⟨?_, rates, ?_, holds.within⟩, ?_, ?_⟩
      · rw [gateEq]
        exact holds.default
      · rw [gateEq]
        exact holds.tracks
      · rw [gateEq]
        exact clockBound
      · intro allowed
        rw [refused] at allowed
        cases allowed
    · refine ⟨⟨?_, rates, ?_, holds.within⟩, ?_, ?_⟩
      · rw [gateEq]
        exact holds.default
      · rw [gateEq]
        by_cases sameKey : keyFor served channel = keyFor peerId topic
        · obtain ⟨rfl, _⟩ := own sameKey
          have fresh : entries = [] := by
            rcases holds.applied with before | ⟨_, unsent⟩
            · rw [ownRate rfl] at changed
              exact absurd before changed
            · exact unsent
          rw [fresh, sameKey]
          refine ⟨by simp, fun _ => retains_nil, fun bucket found => ?_⟩
          rw [get_set_self] at found
          cases found
          rw [holds.default] at windowEq
          exact ⟨windowEq, retains_nil, by simp [StreamBucket.fresh]⟩
        · have untouched := holds.tracks.wait reads.passed
          exact untouched.congr (get_set_of_ne _ _ (Ne.symm sameKey))
      · rw [gateEq]
        exact reads.ordered
      · intro _ sameKey
        obtain ⟨rfl, inForce⟩ := own sameKey
        rw [ownRate rfl] at changed messagesEq ratesEq
        rw [RateInForce, if_neg changed, holds.default] at inForce
        rw [gateEq, sameKey, bucketFor_registered reads.near, messagesEq, ratesEq]
        exact ⟨get_set_self _ _ _, le_min (le_refl custom) inForce⟩

theorem ChannelHolds.check
    (byteSize : Nat) (holds : ChannelHolds peerId topic custom config entries hub)
    (passed : hub.emitGate.clock ≤ checkNow)
    (inForce : keyFor served channel = keyFor peerId topic →
      (hub.emitGate.gate.bucketFor (keyFor peerId topic) checkNow).config.maxMessagesPerSecond ≤
        min custom config.maxMessagesPerSecond)
    (applied : keyFor served channel = keyFor peerId topic →
      hub.appliedCustomRate.get peerId = some custom) :
    let outcome := hub.emitGate.gate.checkAndConsume served channel (.integer byteSize) checkNow
    let checked := { hub with emitGate := ⟨outcome.1, checkNow⟩ }
    if outcome.2 = .ok .allowed ∧ keyFor served channel = keyFor peerId topic then
      ChannelHolds peerId topic custom config (entries ++ [⟨checkNow, byteSize⟩]) checked
    else ChannelHolds peerId topic custom config entries checked := by
  intro outcome checked
  have valid : (JsNumber.integer byteSize).natural? = some byteSize := rfl
  have swept : Tracks (hub.emitGate.gate.maybeSweep checkNow) (keyFor peerId topic)
      config.windowMs checkNow entries := by
    refine holds.tracks.sweep passed fun _ _ _ _ => ?_
    rw [holds.default]
  have default : checked.emitGate.gate.defaultConfig = config :=
    (TelemetryGate.checkAndConsume_defaultConfig _ _ _ _ _).trans holds.default
  by_cases sameKey : keyFor served channel = keyFor peerId topic
  · have sweptServed := swept
    rw [← sameKey] at sweptServed
    have windowEq : (hub.emitGate.gate.maybeSweep checkNow).buckets.get
        (keyFor served channel) = none →
          hub.emitGate.gate.defaultConfig.windowMs = config.windowMs := fun _ => by
      rw [holds.default]
    rcases sweptServed.check windowEq valid with
      ⟨refused, tracks⟩ | ⟨allowed, tracks, recent, retains, fits, _⟩
    · have notAllowed : ¬ (outcome.2 = .ok .allowed ∧
          keyFor served channel = keyFor peerId topic) := fun both => refused both.1
      rw [if_neg notAllowed]
      rw [sameKey] at tracks
      exact ⟨default, holds.applied, tracks, holds.within⟩
    · rw [if_pos ⟨allowed, sameKey⟩]
      have bound := inForce sameKey
      rw [sameKey] at tracks fits
      refine ⟨default, Or.inl (applied sameKey), tracks, ?_⟩
      have count : (recent.map fun _ => 1).sum = recent.length := by simp
      apply holds.within.snoc swept.past retains
      omega
  · have notOwn : ¬ (outcome.2 = .ok .allowed ∧
        keyFor served channel = keyFor peerId topic) := fun both => sameKey both.2
    rw [if_neg notOwn]
    have same : outcome.1.buckets.get (keyFor peerId topic) =
        (hub.emitGate.gate.maybeSweep checkNow).buckets.get (keyFor peerId topic) :=
      TelemetryGate.checkAndConsume_get_of_ne valid (Ne.symm sameKey)
    exact ⟨default, holds.applied, swept.congr same, holds.within⟩

theorem ChannelHolds.pass (byteSize moment : Nat)
    (holds : ChannelHolds peerId topic custom config entries hub)
    (overrides : OverridesBy settings peerId custom) (reads : ReadsOn hub registerNow checkNow)
    (own : keyFor served channel = keyFor peerId topic →
      served = peerId ∧ RateInForce hub peerId topic custom checkNow) :
    let passed := hub.passGate settings served channel byteSize moment registerNow checkNow
    if passed.2 ∧ keyFor served channel = keyFor peerId topic then
      ChannelHolds peerId topic custom config (entries ++ [⟨checkNow, byteSize⟩]) passed.1
    else ChannelHolds peerId topic custom config entries passed.1 := by
  intro passed
  obtain ⟨appliedHolds, clockBound, inForce⟩ := holds.apply overrides reads own
  unfold passed passGate
  split
  · next charged refused =>
      rw [refused] at appliedHolds
      simpa using appliedHolds
  · next charged allowed =>
      rw [allowed] at appliedHolds clockBound inForce
      have checked :=
        appliedHolds.check byteSize clockBound (fun sameKey => (inForce rfl sameKey).2)
        fun sameKey => (inForce rfl sameKey).1
      simpa using checked

/-- The condition on a run: every frame for the channel comes from the peer
itself and finds the override in force. -/
def KeepsRate (peerId topic : String) (custom : Nat) (_ : List (Nat × HubEvent))
    (pool : HubPool) (label : HubLabel) : Prop :=
  ∀ index moment registerNow checkNow emission cursor subscription,
    label = .resume index (.dispatch moment registerNow checkNow) →
    pool.calls[index]? = some (.emitting emission (.guarding cursor subscription (.decided true))) →
    ReadsOn pool.shared registerNow checkNow ∧
      (keyFor subscription.peerId emission.topic = keyFor peerId topic →
        subscription.peerId = peerId ∧ RateInForce pool.shared peerId topic custom checkNow)

def keepsRate (peerId topic : String) (custom : Nat) (pool : HubPool) : HubLabel → Bool
  | .resume index (.dispatch _ registerNow checkNow) =>
    match pool.calls[index]? with
    | some (.emitting emission (.guarding _ subscription (.decided true))) =>
      decide (ReadsOn pool.shared registerNow checkNow ∧
        (keyFor subscription.peerId emission.topic = keyFor peerId topic →
          subscription.peerId = peerId ∧ RateInForce pool.shared peerId topic custom checkNow))
    | _ => true
  | _ => true

theorem keepsRate_sound {label : HubLabel}
    (kept : keepsRate peerId topic custom pool label) :
    KeepsRate peerId topic custom history pool label := by
  rintro index moment registerNow checkNow emission cursor subscription rfl found
  simp only [keepsRate, found] at kept
  exact of_decide_eq_true kept

theorem ChannelHolds.turn {index : Nat} {call next : HubCall} {answer : HubAnswer}
    {events : List HubEvent} (holds : ChannelHolds peerId topic custom config entries pool.shared)
    (overrides : OverridesBy settings peerId custom)
    (keeps : KeepsRate peerId topic custom history pool (.resume index answer))
    (found : pool.calls[index]? = some call)
    (resumed : (hubProgram settings).resume pool.shared call answer = some (after, next, events)) :
    ∃ more, more.map time = keySendTimes (events.map (index, ·)) (keyFor peerId topic) ∧
      ChannelHolds peerId topic custom config (entries ++ more) after := by
  rcases resumeHub_gate resumed with
    ⟨same, quiet⟩ | ⟨emission, cursor, subscription, moment, registerNow, checkNow, rfl, rfl,
      same, outcome⟩
  · refine ⟨[], (keySendTimes_quiet index _ quiet).symm, ?_⟩
    rw [List.append_nil]
    exact holds.congr same
  · obtain ⟨reads, own⟩ := keeps index moment registerNow checkNow emission cursor subscription
      rfl found
    have passed := holds.pass emission.byteSize moment overrides reads own
    rcases outcome with ⟨refused, quiet⟩ | ⟨allowed, rfl⟩
    · refine ⟨[], (keySendTimes_quiet index _ quiet).symm, ?_⟩
      rw [List.append_nil]
      simp only [refused, Bool.false_eq_true, false_and, if_false] at passed
      exact passed.congr same
    · simp only [allowed, true_and] at passed
      by_cases sameKey : keyFor subscription.peerId emission.topic = keyFor peerId topic
      · rw [if_pos sameKey] at passed
        refine ⟨[⟨checkNow, emission.byteSize⟩], ?_, passed.congr same⟩
        simp [keySendTimes, sentFrame, sameKey]
      · rw [if_neg sameKey] at passed
        refine ⟨[], ?_, ?_⟩
        · simp [keySendTimes, sentFrame, sameKey]
        · rw [List.append_nil]
          exact passed.congr same

variable (created : new exposedEvents emitTelemetry = .ok hub)
include created

theorem channelHolds_new (peerId topic : String)
    (custom : Nat) : ChannelHolds peerId topic custom hub.emitGate.gate.defaultConfig [] hub := by
  unfold new TelemetryGate.new at created
  cases validated : validateConfig defaultStreamRateConfig emitTelemetry "telemetry gate" with
  | error failure =>
    rw [validated] at created
    cases created
  | ok merged =>
    rw [validated] at created
    cases created
    refine ⟨rfl, Or.inr ⟨rfl, rfl⟩, ⟨by simp, fun _ => retains_nil, ?_⟩, within_nil⟩
    intro bucket found
    cases found

theorem channelHolds_of_runs (overrides : OverridesBy settings peerId custom)
    (runs : HubRuns settings (KeepsRate peerId topic custom) hub history pool) :
    ∃ entries, entries.map time = keySendTimes history (keyFor peerId topic) ∧
      ChannelHolds peerId topic custom hub.emitGate.gate.defaultConfig entries pool.shared := by
  refine runs.invariant (fun history pool => ∃ entries,
    entries.map time = keySendTimes history (keyFor peerId topic) ∧
      ChannelHolds peerId topic custom hub.emitGate.gate.defaultConfig entries pool.shared)
    ⟨[], rfl, channelHolds_new created peerId topic custom⟩ ?_
  rintro history before label after outputs ⟨entries, timesEq, holds⟩ keeps stepped
  rcases Program.step_cases stepped with
    ⟨action, rfl, launched, _, rfl⟩ | ⟨action, call, events, rfl, launched, _, rfl⟩ |
    ⟨index, answer, call, next, events, rfl, found, resumed, _, rfl⟩
  · obtain ⟨same, _⟩ := launchHub_sameGate launched
    rw [List.append_nil]
    exact ⟨entries, timesEq, holds.congr same⟩
  · obtain ⟨same, quiet⟩ := launchHub_sameGate launched
    refine ⟨entries, ?_, holds.congr same⟩
    rw [keySendTimes_append, keySendTimes_quiet _ _ (quiet call events rfl), List.append_nil]
    exact timesEq
  · obtain ⟨more, moreEq, kept⟩ := holds.turn overrides keeps found resumed
    refine ⟨entries ++ more, ?_, kept⟩
    rw [List.map_append, timesEq, moreEq, keySendTimes_append]

end

/-- A channel whose frames all find the override in force is handed no more
frames in any window than the override and the default configuration allow. -/
theorem override_bounds_channel {settings : HubSettings} {exposedEvents : List String}
    {emitTelemetry : StreamRateOptions} {hub : SubscriptionHub} {peerId topic : String}
    {custom : Nat} {history : List (Nat × HubEvent)} {pool : HubPool}
    (created : new exposedEvents emitTelemetry = .ok hub)
    (overrides : OverridesBy settings peerId custom)
    (runs : HubRuns settings (KeepsRate peerId topic custom) hub history pool) (time : Int) :
    windowWeight id (fun _ => 1) hub.emitGate.gate.defaultConfig.windowMs time
      (sendTimes history peerId topic) ≤ rateBound hub custom := by
  obtain ⟨entries, timesEq, holds⟩ := channelHolds_of_runs created overrides runs
  have bound := holds.within time
  have counted : windowWeight id (fun _ => 1) hub.emitGate.gate.defaultConfig.windowMs time
      (entries.map StreamEntry.time) =
        windowWeight StreamEntry.time (fun _ => 1) hub.emitGate.gate.defaultConfig.windowMs time
          entries := windowWeight_map StreamEntry.time entries
  rw [timesEq] at counted
  calc
    windowWeight id (fun _ => 1) hub.emitGate.gate.defaultConfig.windowMs time
        (sendTimes history peerId topic) ≤
        windowWeight id (fun _ => 1) hub.emitGate.gate.defaultConfig.windowMs time
          (keySendTimes history (keyFor peerId topic)) :=
      windowWeight_le_of_sublist (sendTimes_sublist history peerId topic)
    _ = windowWeight StreamEntry.time (fun _ => 1) hub.emitGate.gate.defaultConfig.windowMs time
          entries := counted
    _ ≤ rateBound hub custom := bound

def cappedSettings : HubSettings where
  selfPeerId := "hub"
  peerRateLimit := some fun _ _ => .resolved (some (.integer 1))

def cappedHub : SubscriptionHub :=
  (new ["calendar:added", "calendar:removed"] {}).toOption.get (by decide)

theorem cappedHub_created : new ["calendar:added", "calendar:removed"] {} = .ok cappedHub :=
  rfl

theorem cappedSettings_overrides : OverridesBy cappedSettings "peer" 1 :=
  ⟨⟨_, rfl, fun _ => rfl⟩, by decide⟩

def wildcardRequest : SubReqBody where
  subscriptionId := "sub"
  topic := "calendar:*"
  action := .subscribe

def wildcardSubscribe : List HubLabel :=
  [.launch (.handleSubReq "peer" wildcardRequest 0), .resume 0 (.access 0),
    .resume 0 (.commit (some lanPeer) 0)]

/-- An emission to the subscriber, whose frame is flushed. -/
def emitOnce (topic : String) (index : Nat) (now : Int) : List HubLabel :=
  [.launch (.emitLocal topic .null now now), .resume index (.dispatch 0 now now),
    .resume index (.sent (.resolved true))]

/-- A second frame within the window is dropped. -/
theorem override_bounds_channel_cappedHub :
    ∃ history, sendTimes history "peer" "calendar:added" = [1] ∧
      windowWeight id (fun _ => 1) cappedHub.emitGate.gate.defaultConfig.windowMs 2
        (sendTimes history "peer" "calendar:added") ≤ rateBound cappedHub 1 := by
  obtain ⟨history, pool, runs, sent⟩ := Transition.exists_runs_of_runWhile
    (hubProgram cappedSettings).step (fun _ pool => keepsRate "peer" "calendar:added" 1 pool)
    (KeepsRate "peer" "calendar:added" 1) (Pool.initial cappedHub)
    (wildcardSubscribe ++ emitOnce "calendar:added" 1 1 ++
      [.launch (.emitLocal "calendar:added" .null 2 2), .resume 2 (.dispatch 0 2 2)])
    (fun result => decide (sendTimes result.2 "peer" "calendar:added" = [1]))
    (fun _ _ _ => keepsRate_sound) (by decide)
  exact ⟨history, of_decide_eq_true sent,
    override_bounds_channel cappedHub_created cappedSettings_overrides runs 2⟩

/-- A peer that is emitted a second topic first is handed two frames on the
other within a window. -/
theorem second_channel_over_override :
    ∃ (settings : HubSettings) (exposedEvents : List String) (emitTelemetry : StreamRateOptions)
      (hub : SubscriptionHub) (peerId topic : String) (custom : Nat)
      (history : List (Nat × HubEvent)) (pool : HubPool) (time : Int),
      new exposedEvents emitTelemetry = .ok hub ∧ OverridesBy settings peerId custom ∧
      HubRuns settings Transition.unrestricted hub history pool ∧
      rateBound hub custom < windowWeight id (fun _ => 1)
        hub.emitGate.gate.defaultConfig.windowMs time (sendTimes history peerId topic) := by
  obtain ⟨history, pool, runs, exceeded⟩ := Transition.exists_runs_of_any
    (hubProgram cappedSettings).step (fun _ => True) (Pool.initial cappedHub)
    (wildcardSubscribe ++ emitOnce "calendar:added" 1 1 ++ emitOnce "calendar:removed" 2 2 ++
      [.launch (.emitLocal "calendar:removed" .null 3 3), .resume 3 (.dispatch 0 3 3)])
    (fun result => decide (sendTimes result.2 "peer" "calendar:removed" = [2, 3]))
    (fun _ _ => trivial) (by decide)
  have times : sendTimes history "peer" "calendar:removed" = [2, 3] :=
    of_decide_eq_true exceeded
  refine ⟨cappedSettings, _, _, cappedHub, "peer", "calendar:removed", 1, history, pool, 3,
    cappedHub_created, cappedSettings_overrides, runs, ?_⟩
  rw [times]
  decide

end P2PHub
