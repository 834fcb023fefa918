import P2PHub.SlidingWindow
import P2PHub.TelemetryGate
import P2PHub.TransitionRuns

/-!
# Runs of the streaming gate

Method calls in any order on any channels, under a clock that never goes
back, and what a channel's bucket remembers of the frames allowed on it.
-/

namespace P2PHub

open SlidingWindow TelemetryGate StreamEntry

structure ClockedGate where
  gate : TelemetryGate
  clock : Int

inductive GateCall
  | registerStream (peerId channelId : String) (config : StreamRateOptions) (now : Int)
  | closeStream (peerId channelId : String)
  | reset
  | checkAndConsume (peerId channelId : String) (byteSize : JsNumber) (now : Int)

structure GateFrame where
  peerId : String
  channelId : String
  now : Int
  bytes : Nat
  result : Except GateError StreamCheckResult
  deriving DecidableEq

namespace GateFrame

def key (frame : GateFrame) : String :=
  keyFor frame.peerId frame.channelId

def wasAllowed (frame : GateFrame) : Bool :=
  match frame.result with
  | .ok .allowed => true
  | _ => false

def entry (frame : GateFrame) : StreamEntry :=
  ⟨frame.now, frame.bytes⟩

end GateFrame

/-- One call.  A rejected configuration and a rejected byte size throw before
the gate looks at a channel, so they change nothing and judge no frame. -/
def GateCall.step (state : ClockedGate) : GateCall → Option (ClockedGate × List GateFrame)
  | .registerStream peerId channelId config now =>
    if state.clock ≤ now then
      match state.gate.registerStream peerId channelId config now with
      | .ok gate => some (⟨gate, now⟩, [])
      | .error _ => some (⟨state.gate, now⟩, [])
    else none
  | .closeStream peerId channelId =>
    some (⟨state.gate.closeStream peerId channelId, state.clock⟩, [])
  | .reset => some (⟨state.gate.reset, state.clock⟩, [])
  | .checkAndConsume peerId channelId byteSize now =>
    if state.clock ≤ now then
      match byteSize.natural? with
      | none => some (⟨state.gate, now⟩, [])
      | some bytes =>
        let outcome := state.gate.checkAndConsume peerId channelId byteSize now
        some (⟨outcome.1, now⟩, [⟨peerId, channelId, now, bytes, outcome.2⟩])
    else none

def allowedFrames (history : List GateFrame) (peerId channelId : String) : List StreamEntry :=
  (history.filter fun frame =>
    decide (frame.peerId = peerId ∧ frame.channelId = channelId) && frame.wasAllowed).map
      GateFrame.entry

/-- The frames allowed on all channels that share a key. -/
def keyFrames (history : List GateFrame) (key : String) : List StreamEntry :=
  (history.filter fun frame => decide (frame.key = key) && frame.wasAllowed).map GateFrame.entry

variable {frame : GateFrame} {key : String}

theorem allowedFrames_sublist (history : List GateFrame) (peerId channelId : String) :
    (allowedFrames history peerId channelId).Sublist
      (keyFrames history (keyFor peerId channelId)) := by
  apply List.Sublist.map
  apply List.monotone_filter_right
  intro frame chosen
  simp only [Bool.and_eq_true, decide_eq_true_eq] at chosen ⊢
  obtain ⟨⟨peerEq, channelEq⟩, allowed⟩ := chosen
  exact ⟨by rw [GateFrame.key, peerEq, channelEq], allowed⟩

theorem GateFrame.wasAllowed_iff (frame : GateFrame) :
    frame.wasAllowed ↔ frame.result = .ok .allowed := by
  unfold wasAllowed
  split
  · next allowed => simp [allowed]
  · next refused => simpa using refused

theorem keyFrames_of_key_ne (apart : frame.key ≠ key) : keyFrames [frame] key = [] := by
  simp [keyFrames, apart]

theorem keyFrames_of_refused
    (refused : frame.result ≠ .ok .allowed) : keyFrames [frame] key = [] := by
  have judged : frame.wasAllowed = false := by
    simpa using (not_congr frame.wasAllowed_iff).mpr refused
  simp [keyFrames, judged]

theorem keyFrames_of_allowed (allowed : frame.result = .ok .allowed) :
    keyFrames [frame] frame.key = [frame.entry] := by
  simp [keyFrames, frame.wasAllowed_iff.mpr allowed]

theorem keyFrames_append (history later : List GateFrame) (key : String) :
    keyFrames (history ++ later) key = keyFrames history key ++ keyFrames later key := by
  simp [keyFrames]

/-- A channel is untouched by a call that neither registers nor closes it. -/
def GateCall.Leaves (key : String) : GateCall → Prop
  | .registerStream peerId channelId _ _ => keyFor peerId channelId ≠ key
  | .closeStream peerId channelId => keyFor peerId channelId ≠ key
  | .reset => False
  | .checkAndConsume _ _ _ _ => True

/-- What a call does to a gate as long as it leaves the channel with the given
key: nothing that concerns the channel, or a check that judges a frame. -/
theorem GateCall.step_cases {state after : ClockedGate} {call : GateCall}
    {frames : List GateFrame} (leaves : call.Leaves key)
    (stepped : call.step state = some (after, frames)) :
    (state.clock ≤ after.clock ∧ after.gate.defaultConfig = state.gate.defaultConfig ∧
      after.gate.buckets.get key = state.gate.buckets.get key ∧ frames = []) ∨
    ∃ peerId channelId byteSize bytes now, call = .checkAndConsume peerId channelId byteSize now ∧
      byteSize.natural? = some bytes ∧ state.clock ≤ now ∧
      after = ⟨(state.gate.checkAndConsume peerId channelId byteSize now).1, now⟩ ∧
      frames = [⟨peerId, channelId, now, bytes,
        (state.gate.checkAndConsume peerId channelId byteSize now).2⟩] := by
  cases call with
  | registerStream peerId channelId config now =>
    simp only [step] at stepped
    split at stepped
    · next passed =>
        split at stepped
        · next gate registered =>
            cases stepped
            obtain ⟨merged, _, rfl⟩ := TelemetryGate.registerStream_eq_ok registered
            have apart : key ≠ keyFor peerId channelId := Ne.symm leaves
            exact Or.inl ⟨passed, rfl, by simp [apart], rfl⟩
        · cases stepped
          exact Or.inl ⟨passed, rfl, rfl, rfl⟩
    · cases stepped
  | closeStream peerId channelId =>
    cases stepped
    have apart : key ≠ keyFor peerId channelId := Ne.symm leaves
    exact Or.inl ⟨le_refl _, rfl, by simp [TelemetryGate.closeStream, apart], rfl⟩
  | reset => exact leaves.elim
  | checkAndConsume peerId channelId byteSize now =>
    simp only [step] at stepped
    split at stepped
    · next passed =>
        split at stepped
        · cases stepped
          exact Or.inl ⟨passed, rfl, rfl, rfl⟩
        · next bytes valid =>
            cases stepped
            exact Or.inr ⟨peerId, channelId, byteSize, bytes, now, rfl, valid, passed, rfl, rfl⟩
    · cases stepped

/-- What one check makes of a bucket: the frame is refused, or it fits beside
the entries still in the window and joins them. -/
theorem StreamBucket.consume_cases (bucket : StreamBucket) (peerId channelId : String)
    (now : Int) (bytes : Nat) : let after := (bucket.consume peerId channelId now bytes).1
    let result := (bucket.consume peerId channelId now bytes).2
    let recent := bucket.entries.dropWhile fun entry =>
      decide (entry.time ≤ now - bucket.config.windowMs)
    after.config = bucket.config ∧ after.lastTouch = now ∧
    ((result ≠ .ok .allowed ∧ (after.entries = bucket.entries ∨ after.entries = recent)) ∨
      (result = .ok .allowed ∧ after.entries = recent ++ [⟨now, bytes⟩] ∧
        recent.length < bucket.config.maxMessagesPerSecond ∧
        (recent.map StreamEntry.bytes).sum + bytes ≤ bucket.config.maxBytesPerSecond)) := by
  unfold consume
  split
  · exact ⟨rfl, rfl, Or.inl ⟨by simp, Or.inl rfl⟩⟩
  · unfold spend
    have config : ((bucket.reopen now).expire now).config = bucket.config := by
      simp [expire]
    have recent : ((bucket.reopen now).expire now).entries = bucket.entries.dropWhile fun entry =>
          decide (entry.time ≤ now - bucket.config.windowMs) := by
      simp [expire]
    split
    · refine ⟨by simpa using config, by simp [expire], Or.inl ⟨?_, Or.inr ?_⟩⟩
      · exact deny_not_allowed _ _ _ _ _
      · simpa using recent
    split
    · refine ⟨by simpa using config, by simp [expire], Or.inl ⟨?_, Or.inr ?_⟩⟩
      · exact deny_not_allowed _ _ _ _ _
      · simpa using recent
    split
    · refine ⟨by simpa using config, by simp [expire], Or.inl ⟨?_, Or.inr ?_⟩⟩
      · exact deny_not_allowed _ _ _ _ _
      · simpa using recent
    · next fitsOne fitsCount fitsBytes =>
        rw [config, recent] at fitsCount fitsBytes
        refine ⟨config, by simp [expire], Or.inr ⟨rfl, ?_, by omega, by omega⟩⟩
        rw [← recent]

/-- The gate remembers of a channel all that still counts: its bucket runs on
the window, keeps every allowed frame that has not left the window, and was
touched no earlier than its frames. -/
structure Tracks (gate : TelemetryGate) (key : String) (window : Nat) (now : Int)
    (history : List StreamEntry) : Prop where
  past : ∀ entry ∈ history, entry.time ≤ now
  absent : gate.buckets.get key = none → Retains time window now history []
  present : ∀ bucket, gate.buckets.get key = some bucket → bucket.config.windowMs = window ∧
      Retains time window now history bucket.entries ∧
      ∀ entry ∈ bucket.entries, entry.time ≤ bucket.lastTouch

namespace Tracks

variable {gate other : TelemetryGate} {key : String} {window : Nat} {now later : Int}
  {history : List StreamEntry}

section

variable (tracks : Tracks gate key window now history)
include tracks

theorem congr (same : other.buckets.get key = gate.buckets.get key) :
    Tracks other key window now history where
  past := tracks.past
  absent missing := tracks.absent (same ▸ missing)
  present bucket found := tracks.present bucket (same ▸ found)

theorem wait (passed : now ≤ later) : Tracks gate key window later history where
  past entry member := le_trans (tracks.past entry member) passed
  absent missing := (tracks.absent missing).later passed
  present bucket found := by
    obtain ⟨windowEq, retains, touched⟩ := tracks.present bucket found
    exact ⟨windowEq, retains.later passed, touched⟩

/-- A sweep that removes a channel whose window is no longer than the default
one forgets nothing that still counts. -/
theorem sweep (passed : now ≤ later)
    (harmless : ∀ bucket, gate.buckets.get key = some bucket → gate.SweepDue later →
      bucket.lastTouch < later - gate.defaultConfig.windowMs →
        window ≤ gate.defaultConfig.windowMs) :
    Tracks (gate.maybeSweep later) key window later history := by
  have waited := tracks.wait passed
  refine ⟨waited.past, fun missing => ?_, fun bucket found => ?_⟩
  · rw [maybeSweep_get] at missing
    cases found : gate.buckets.get key with
    | none => exact waited.absent found
    | some bucket =>
      rw [found] at missing
      have pruned : gate.SweepDue later ∧
          bucket.lastTouch < later - gate.defaultConfig.windowMs := by
        by_contra survives
        simp [Option.filter, survives] at missing
      obtain ⟨_, retains, touched⟩ := waited.present bucket found
      have shorter := harmless bucket found pruned.1 pruned.2
      apply retains.forget
      intro entry member
      have before := touched entry member
      omega
  · rw [maybeSweep_get] at found
    exact waited.present bucket (Option.filter_eq_some_iff.mp found).1

end

/-- The bucket a check consults keeps what still counts, when a channel
without a bucket would run on the same window. -/
theorem bucketFor (tracks : Tracks (gate.maybeSweep now) key window now history)
    (default : (gate.maybeSweep now).buckets.get key = none →
      gate.defaultConfig.windowMs = window) : (gate.bucketFor key now).config.windowMs = window ∧
      Retains time window now history (gate.bucketFor key now).entries ∧
      ∀ entry ∈ (gate.bucketFor key now).entries, entry.time ≤ now := by
  unfold TelemetryGate.bucketFor
  cases found : (gate.maybeSweep now).buckets.get key with
  | none => exact ⟨default found, tracks.absent found, by simp [StreamBucket.fresh]⟩
  | some bucket =>
    obtain ⟨windowEq, retains, touched⟩ := tracks.present bucket found
    refine ⟨windowEq, retains, fun entry member => tracks.past entry ?_⟩
    obtain ⟨dropped, split, _⟩ := retains
    rw [split]
    exact List.mem_append_right _ member

/-- A check keeps track, and a frame it allows fits beside everything that
still counts. -/
theorem check {peerId channelId : String} {byteSize : JsNumber} {bytes : Nat}
    (tracks : Tracks (gate.maybeSweep now) (keyFor peerId channelId) window now history)
    (default : (gate.maybeSweep now).buckets.get (keyFor peerId channelId) = none →
      gate.defaultConfig.windowMs = window) (valid : byteSize.natural? = some bytes) :
    let outcome := gate.checkAndConsume peerId channelId byteSize now
    let config := (gate.bucketFor (keyFor peerId channelId) now).config
    (outcome.2 ≠ .ok .allowed ∧ Tracks outcome.1 (keyFor peerId channelId) window now history) ∨
    (outcome.2 = .ok .allowed ∧
      Tracks outcome.1 (keyFor peerId channelId) window now (history ++ [⟨now, bytes⟩]) ∧
      ∃ recent, Retains StreamEntry.time window now history recent ∧
        recent.length < config.maxMessagesPerSecond ∧
        (recent.map StreamEntry.bytes).sum + bytes ≤ config.maxBytesPerSecond) := by
  intro outcome config
  obtain ⟨windowEq, retains, old⟩ := tracks.bucketFor default
  obtain ⟨configEq, touchEq, judged⟩ :=
    (gate.bucketFor (keyFor peerId channelId) now).consume_cases peerId channelId now bytes
  have found : outcome.1.buckets.get (keyFor peerId channelId) = some
      ((gate.bucketFor (keyFor peerId channelId) now).consume peerId channelId now bytes).1 :=
    checkAndConsume_get_self valid
  have resultEq : outcome.2 =
      ((gate.bucketFor (keyFor peerId channelId) now).consume peerId channelId now bytes).2 :=
    checkAndConsume_result valid
  have recentRetains := retains.expire
  rw [← windowEq] at recentRetains
  have recentOld : ∀ entry ∈ (gate.bucketFor (keyFor peerId channelId) now).entries.dropWhile
      fun entry => decide (entry.time ≤ now -
        (gate.bucketFor (keyFor peerId channelId) now).config.windowMs),
      entry.time ≤ now :=
    fun entry member => old entry (List.dropWhile_sublist _ |>.subset member)
  rw [← resultEq] at judged
  rcases judged with ⟨refused, kept⟩ | ⟨allowed, kept, fitsCount, fitsBytes⟩
  · refine Or.inl ⟨refused, tracks.past, fun missing => ?_, fun bucket bucketEq => ?_⟩
    · rw [found] at missing
      cases missing
    · rw [found] at bucketEq
      cases bucketEq
      refine ⟨by rw [configEq, windowEq], ?_⟩
      rw [touchEq]
      rcases kept with same | expired
      · rw [same]
        exact ⟨retains, old⟩
      · rw [expired, ← windowEq]
        exact ⟨recentRetains, recentOld⟩
  · refine Or.inr ⟨allowed, ⟨?_, fun missing => ?_, fun bucket bucketEq => ?_⟩, _,
      windowEq ▸ recentRetains, fitsCount, fitsBytes⟩
    · intro entry member
      rcases List.mem_append.mp member with before | new
      · exact tracks.past entry before
      · rw [List.mem_singleton.mp new]
    · rw [found] at missing
      cases missing
    · rw [found] at bucketEq
      cases bucketEq
      refine ⟨by rw [configEq, windowEq], ?_, ?_⟩
      · rw [kept, ← windowEq]
        exact recentRetains.snoc
      · rw [kept, touchEq]
        intro entry member
        rcases List.mem_append.mp member with before | new
        · exact recentOld entry before
        · rw [List.mem_singleton.mp new]

end Tracks

end P2PHub
