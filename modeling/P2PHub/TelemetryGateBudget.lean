import P2PHub.TelemetryGateRuns

/-!
# The budget of a registered channel

The lazy sweep measures silence against the default window, not against the
channel's own.
-/

namespace P2PHub

open SlidingWindow StreamEntry TelemetryGate GateCall

/-- A channel as registration leaves it: a bucket without history, or no
bucket at all for a channel on the default budget. -/
def Registered (gate : TelemetryGate) (peerId channelId : String)
    (config : StreamRateConfig) : Prop :=
  (∃ now, gate.buckets.get (keyFor peerId channelId) = some (.fresh config now)) ∨
    (gate.buckets.get (keyFor peerId channelId) = none ∧ config = gate.defaultConfig)

/-- The sweep of a check, when one is due, does not remove the channel unless
the channel is on the default configuration anyway. -/
def SweepSpares (key : String) (config : StreamRateConfig) (state : ClockedGate) : GateCall → Prop
  | .checkAndConsume _ _ byteSize now =>
    byteSize.natural?.isSome → state.gate.SweepDue now → ∀ bucket, state.gate.buckets.get key =
      some bucket →
      bucket.lastTouch < now - state.gate.defaultConfig.windowMs → config = state.gate.defaultConfig
  | _ => True

/-- The channel runs on its registered configuration, the gate remembers what
still counts, and every window is within the budget. -/
structure Budgeted (key : String) (config : StreamRateConfig) (history : List GateFrame)
    (state : ClockedGate) : Prop where
  tracks : Tracks state.gate key config.windowMs state.clock (keyFrames history key)
  present : ∀ bucket, state.gate.buckets.get key = some bucket → bucket.config = config
  absent : state.gate.buckets.get key = none → config = state.gate.defaultConfig
  count : Within time (fun _ => 1) config.windowMs config.maxMessagesPerSecond
    (keyFrames history key)
  bytes : Within time bytes config.windowMs config.maxBytesPerSecond (keyFrames history key)

variable {state : ClockedGate} {config : StreamRateConfig}

theorem budgeted_of_registered {peerId channelId : String}
    (registered : Registered state.gate peerId channelId config) :
    Budgeted (keyFor peerId channelId) config [] state := by
  have tracks : Tracks state.gate (keyFor peerId channelId) config.windowMs state.clock [] := by
    refine ⟨by simp, fun _ => retains_nil, fun bucket found => ?_⟩
    rcases registered with ⟨now, fresh⟩ | ⟨missing, _⟩
    · rw [fresh] at found
      cases found
      exact ⟨rfl, retains_nil, by simp [StreamBucket.fresh]⟩
    · rw [missing] at found
      cases found
  refine ⟨tracks, fun bucket found => ?_, fun missing => ?_, within_nil, within_nil⟩
  · rcases registered with ⟨now, fresh⟩ | ⟨missing, _⟩
    · rw [fresh] at found
      cases found
      rfl
    · rw [missing] at found
      cases found
  · rcases registered with ⟨now, fresh⟩ | ⟨_, default⟩
    · rw [fresh] at missing
      cases missing
    · exact default

section

variable {key : String} {config : StreamRateConfig} {history : List GateFrame}
  {state : ClockedGate} {peerId channelId : String} {byteSize : JsNumber} {bytes : Nat} {now : Int}

section

variable (budgeted : Budgeted key config history state)
include budgeted

theorem Budgeted.swept_tracks (passed : state.clock ≤ now) (valid : byteSize.natural? = some bytes)
    (spares : SweepSpares key config state (.checkAndConsume peerId channelId byteSize now)) :
    Tracks (state.gate.maybeSweep now) key config.windowMs now (keyFrames history key) := by
  apply budgeted.tracks.sweep passed
  intro bucket found due silent
  rw [spares (by simp [valid]) due bucket found silent]

theorem Budgeted.swept_config
    (valid : byteSize.natural? = some bytes) (spares : SweepSpares key config state
      (.checkAndConsume peerId channelId byteSize now)) :
    (∀ bucket, (state.gate.maybeSweep now).buckets.get key = some bucket → bucket.config = config) ∧
    ((state.gate.maybeSweep now).buckets.get key = none → config = state.gate.defaultConfig) := by
  rw [maybeSweep_get]
  cases found : state.gate.buckets.get key with
  | none => exact ⟨by simp, fun _ => budgeted.absent found⟩
  | some bucket =>
    refine ⟨fun survivor survives => ?_, fun pruned => ?_⟩
    · obtain ⟨same, _⟩ := Option.filter_eq_some_iff.mp survives
      exact budgeted.present survivor (found.trans same)
    · have removed : state.gate.SweepDue now ∧
          bucket.lastTouch < now - state.gate.defaultConfig.windowMs := by
        by_contra survives
        simp [Option.filter, survives] at pruned
      exact spares (by simp [valid]) removed.1 bucket found removed.2

theorem Budgeted.bucketFor_config
    (valid : byteSize.natural? = some bytes) (spares : SweepSpares key config state
      (.checkAndConsume peerId channelId byteSize now)) :
    (state.gate.bucketFor key now).config = config := by
  obtain ⟨survives, pruned⟩ := budgeted.swept_config valid spares
  unfold bucketFor
  cases found : (state.gate.maybeSweep now).buckets.get key with
  | none => exact (pruned found).symm
  | some bucket => exact survives bucket found

theorem Budgeted.check_other (passed : state.clock ≤ now) (valid : byteSize.natural? = some bytes)
    (spares : SweepSpares key config state (.checkAndConsume peerId channelId byteSize now))
    (other : keyFor peerId channelId ≠ key) (frame : GateFrame) (foreign : frame.key ≠ key) :
    Budgeted key config (history ++ [frame])
      ⟨(state.gate.checkAndConsume peerId channelId byteSize now).1, now⟩ := by
  have same : (state.gate.checkAndConsume peerId channelId byteSize now).1.buckets.get key =
      (state.gate.maybeSweep now).buckets.get key :=
    checkAndConsume_get_of_ne valid other.symm
  have sweptTracks := budgeted.swept_tracks passed valid spares
  have sweptConfig := budgeted.swept_config valid spares
  have unseen : keyFrames (history ++ [frame]) key = keyFrames history key := by
    rw [keyFrames_append, keyFrames_of_key_ne foreign, List.append_nil]
  refine ⟨?_, ?_, ?_, ?_, ?_⟩
  · rw [unseen]
    exact sweptTracks.congr same
  · rw [same]
    exact sweptConfig.1
  · rw [same, checkAndConsume_defaultConfig]
    exact sweptConfig.2
  · rw [unseen]
    exact budgeted.count
  · rw [unseen]
    exact budgeted.bytes

end

/-- A check of the channel itself: the frame is refused, or it is admitted
beside everything that still counts. -/
theorem Budgeted.check_self (budgeted : Budgeted (keyFor peerId channelId) config history state)
    (passed : state.clock ≤ now) (valid : byteSize.natural? = some bytes)
    (spares : SweepSpares (keyFor peerId channelId) config state
      (.checkAndConsume peerId channelId byteSize now)) : Budgeted (keyFor peerId channelId) config
      (history ++ [⟨peerId, channelId, now, bytes,
        (state.gate.checkAndConsume peerId channelId byteSize now).2⟩])
      ⟨(state.gate.checkAndConsume peerId channelId byteSize now).1, now⟩ := by
  have sweptTracks := budgeted.swept_tracks passed valid spares
  have sweptConfig := budgeted.swept_config valid spares
  have configEq := budgeted.bucketFor_config valid spares
  have windowEq : (state.gate.maybeSweep now).buckets.get (keyFor peerId channelId) = none →
      state.gate.defaultConfig.windowMs = config.windowMs := by
    intro missing
    rw [sweptConfig.2 missing]
  have found : (state.gate.checkAndConsume peerId channelId byteSize now).1.buckets.get
      (keyFor peerId channelId) = some
        ((state.gate.bucketFor (keyFor peerId channelId) now).consume peerId channelId now
          bytes).1 :=
    checkAndConsume_get_self valid
  have present : ∀ bucket, (state.gate.checkAndConsume peerId channelId byteSize now).1.buckets.get
        (keyFor peerId channelId) = some bucket → bucket.config = config := by
    intro bucket bucketEq
    rw [found] at bucketEq
    cases bucketEq
    exact (StreamBucket.consume_cases _ _ _ _ _).1.trans configEq
  have absent : (state.gate.checkAndConsume peerId channelId byteSize now).1.buckets.get
      (keyFor peerId channelId) = none →
        config = (state.gate.checkAndConsume peerId channelId byteSize now).1.defaultConfig := by
    rw [found]
    simp
  rcases sweptTracks.check windowEq valid with
    ⟨refused, tracks⟩ | ⟨allowed, tracks, recent, retains, fitsCount, fitsBytes⟩
  · have unseen : keyFrames (history ++ [⟨peerId, channelId, now, bytes,
        (state.gate.checkAndConsume peerId channelId byteSize now).2⟩])
          (keyFor peerId channelId) = keyFrames history (keyFor peerId channelId) := by
      rw [keyFrames_append, keyFrames_of_refused refused, List.append_nil]
    refine ⟨by rwa [unseen], present, absent, ?_, ?_⟩
    · rw [unseen]
      exact budgeted.count
    · rw [unseen]
      exact budgeted.bytes
  · have seen : keyFrames (history ++ [⟨peerId, channelId, now, bytes,
        (state.gate.checkAndConsume peerId channelId byteSize now).2⟩]) (keyFor peerId channelId) =
            keyFrames history (keyFor peerId channelId) ++ [⟨now, bytes⟩] := by
      rw [keyFrames_append]
      congr 1
      exact keyFrames_of_allowed allowed
    have ordered := sweptTracks.past
    rw [configEq] at fitsCount fitsBytes
    refine ⟨by rwa [seen], present, absent, ?_, ?_⟩
    · rw [seen]
      apply budgeted.count.snoc ordered retains
      have length : (recent.map fun _ => 1).sum = recent.length := by simp
      omega
    · rw [seen]
      exact budgeted.bytes.snoc ordered retains fitsBytes

end

theorem Budgeted.step {key : String} {history : List GateFrame}
    {after : ClockedGate} {call : GateCall} {frames : List GateFrame}
    (budgeted : Budgeted key config history state) (leaves : call.Leaves key)
    (spares : SweepSpares key config state call)
    (stepped : call.step state = some (after, frames)) :
    Budgeted key config (history ++ frames) after := by
  rcases step_cases leaves stepped with ⟨passed, defaultEq, same, rfl⟩ |
    ⟨peerId, channelId, byteSize, bytes, now, rfl, valid, passed, rfl, rfl⟩
  · rw [List.append_nil]
    refine ⟨(budgeted.tracks.congr same).wait passed, ?_, ?_, budgeted.count, budgeted.bytes⟩
    · rw [same]
      exact budgeted.present
    · rw [same, defaultEq]
      exact budgeted.absent
  · by_cases own : keyFor peerId channelId = key
    · subst own
      exact budgeted.check_self passed valid spares
    · exact budgeted.check_other passed valid spares own _ own

/-- A channel that no sweep removes keeps its registered budget: in every
window the frames allowed on it number at most its message cap and total at
most its byte cap. -/
theorem channel_budget {start state : ClockedGate} {peerId channelId : String}
    {config : StreamRateConfig} {history : List GateFrame}
    (registered : Registered start.gate peerId channelId config)
    (runs : Transition.Runs step (fun _ state call => call.Leaves (keyFor peerId channelId) ∧
        SweepSpares (keyFor peerId channelId) config state call) start history state) (time : Int) :
    windowWeight StreamEntry.time (fun _ => 1) config.windowMs time
        (allowedFrames history peerId channelId) ≤ config.maxMessagesPerSecond ∧
      windowWeight StreamEntry.time StreamEntry.bytes config.windowMs time
        (allowedFrames history peerId channelId) ≤ config.maxBytesPerSecond := by
  have budgeted : Budgeted (keyFor peerId channelId) config history state := by
    refine runs.invariant (Budgeted (keyFor peerId channelId) config)
      (budgeted_of_registered registered) ?_
    intro history before call after frames budgeted permitted stepped
    exact budgeted.step permitted.1 permitted.2 stepped
  have sublist := allowedFrames_sublist history peerId channelId
  constructor
  · exact le_trans (windowWeight_le_of_sublist sublist) (budgeted.count time)
  · exact le_trans (windowWeight_le_of_sublist sublist) (budgeted.bytes time)

/-- One message in ten seconds, under a gate whose default window is one
second. -/
def wideOptions : StreamRateOptions where
  windowMs := some (.integer 10000)
  maxMessagesPerSecond := some (.integer 1)

def wideConfig : StreamRateConfig :=
  (validateConfig defaultStreamRateConfig wideOptions "wide").toOption.get (by decide)

/-- The default gate after the registration of one wide channel. -/
def wideGate : TelemetryGate where
  defaultConfig := defaultStreamRateConfig
  buckets := OrderedMap.empty.set (keyFor "peer" "camera") (.fresh wideConfig 0)
  lastSweep := 0

/-- Two checks half a second apart, the first of which triggers the sweep. -/
theorem channel_budget_wideGate : windowWeight time (fun _ => 1) wideConfig.windowMs 1500
        (allowedFrames [⟨"peer", "camera", 1000, 7, .ok .allowed⟩,
          ⟨"peer", "camera", 1500, 7, .ok (.denied .messageCap)⟩] "peer" "camera") ≤
      wideConfig.maxMessagesPerSecond ∧ windowWeight time bytes wideConfig.windowMs 1500
        (allowedFrames [⟨"peer", "camera", 1000, 7, .ok .allowed⟩,
          ⟨"peer", "camera", 1500, 7, .ok (.denied .messageCap)⟩] "peer" "camera") ≤
      wideConfig.maxBytesPerSecond := by
  have registered : Registered wideGate "peer" "camera" wideConfig :=
    Or.inl ⟨0, by simp [wideGate]⟩
  have first : Leaves (keyFor "peer" "camera")
        (.checkAndConsume "peer" "camera" (.integer 7) 1000) ∧
      SweepSpares (keyFor "peer" "camera") wideConfig ⟨wideGate, 0⟩
        (.checkAndConsume "peer" "camera" (.integer 7) 1000) := by
    refine ⟨trivial, fun _ _ bucket found silent => ?_⟩
    cases found
    exact absurd silent (by decide)
  have second : Leaves (keyFor "peer" "camera")
        (.checkAndConsume "peer" "camera" (.integer 7) 1500) ∧
      SweepSpares (keyFor "peer" "camera") wideConfig
        ⟨(wideGate.checkAndConsume "peer" "camera" (.integer 7) 1000).1, 1000⟩
        (.checkAndConsume "peer" "camera" (.integer 7) 1500) :=
    ⟨trivial, fun _ due => absurd due (by decide)⟩
  exact channel_budget registered (.tail (.tail .refl first rfl) second rfl) 1500

/-- The sweep forgets a wide channel after a second of silence: two frames
pass within two seconds on a channel registered for one in ten. -/
theorem wide_channel_over_budget : ∃ history state, (new {} >>= fun gate =>
        gate.registerStream "peer" "camera" wideOptions 0) = .ok wideGate ∧
      Transition.Runs step (fun _ _ call => call.Leaves (keyFor "peer" "camera"))
        ⟨wideGate, 0⟩ history state ∧ Registered wideGate "peer" "camera" wideConfig ∧
      wideConfig.maxMessagesPerSecond < windowWeight time (fun _ => 1) wideConfig.windowMs 2001
          (allowedFrames history "peer" "camera") := by
  obtain ⟨history, state, runs, exceeded⟩ := Transition.exists_runs_of_any step
    (fun call => call.Leaves (keyFor "peer" "camera")) ⟨wideGate, 0⟩
    [.checkAndConsume "peer" "camera" (.integer 7) 0,
      .checkAndConsume "peer" "camera" (.integer 7) 2001]
    (fun result => decide (wideConfig.maxMessagesPerSecond <
      windowWeight time (fun _ => 1) wideConfig.windowMs 2001
        (allowedFrames result.2 "peer" "camera")))
    (by simp [Leaves]) (by decide)
  exact ⟨history, state, rfl, runs, Or.inl ⟨0, by simp [wideGate]⟩, of_decide_eq_true exceeded⟩

end P2PHub
