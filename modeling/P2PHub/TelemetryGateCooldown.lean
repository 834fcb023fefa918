import P2PHub.TelemetryGateRuns

/-!
# The cooldown of a pinched channel

A pinch lives in the channel's bucket.  It lasts its whole cooldown as long as
no sweep during the cooldown finds the channel silent for more than a default
window and removes the bucket.
-/

namespace P2PHub

open GateCall TelemetryGate

namespace StreamBucket

variable {bucket : StreamBucket} {peerId channelId : String} {now : Int} {bytes : Nat}
  {reason : StreamDenyReason} {failure : GateError}

theorem deny_violation (violated : (bucket.deny peerId channelId now reason).2 = .error failure) :
    (bucket.deny peerId channelId now reason).1.pinchedUntil =
      now + bucket.config.windowMs * 2 := by
  unfold deny at violated ⊢
  dsimp only at violated ⊢
  split
  · rfl
  · next calm =>
      rw [if_neg calm] at violated
      cases violated

theorem spend_violation (violated : (bucket.spend peerId channelId now bytes).2 = .error failure) :
    (bucket.spend peerId channelId now bytes).1.pinchedUntil =
      now + bucket.config.windowMs * 2 := by
  unfold spend at violated ⊢
  split
  · next tooBig =>
      rw [if_pos tooBig] at violated
      exact deny_violation violated
  · next fitsOne =>
      rw [if_neg fitsOne] at violated
      split
      · next full =>
          rw [if_pos full] at violated
          exact deny_violation violated
      · next room =>
          rw [if_neg room] at violated
          split
          · next overBytes =>
              rw [if_pos overBytes] at violated
              exact deny_violation violated
          · next fitsBytes =>
              rw [if_neg fitsBytes] at violated
              cases violated

theorem consume_violation
    (violated : (bucket.consume peerId channelId now bytes).2 = .error failure) :
    (bucket.consume peerId channelId now bytes).1.pinchedUntil =
      now + (bucket.consume peerId channelId now bytes).1.config.windowMs * 2 := by
  have config := (bucket.consume_cases peerId channelId now bytes).1
  rw [config]
  unfold consume at violated ⊢
  split
  · next pinched =>
      rw [if_pos pinched] at violated
      cases violated
  · next open_ =>
      rw [if_neg open_] at violated
      simpa [expire] using spend_violation violated

theorem consume_pinched (pinched : now < bucket.pinchedUntil) :
    bucket.consume peerId channelId now bytes =
      ({ bucket with lastTouch := now }, .ok (.denied .streamViolation)) := by
  simp [consume, pinched]

end StreamBucket

/-- The sweep of a check, when one is due, does not remove the channel while
it is pinched. -/
def SweepKeepsPinch (key : String) (state : ClockedGate) : GateCall → Prop
  | .checkAndConsume _ _ byteSize now =>
    byteSize.natural?.isSome → state.gate.SweepDue now → ∀ bucket,
      state.gate.buckets.get key = some bucket → now < bucket.pinchedUntil →
        now - state.gate.defaultConfig.windowMs ≤ bucket.lastTouch
  | _ => True

/-- Until the deadline the channel stays pinched to the deadline, and every
frame judged on it before the deadline is refused as a violation. -/
structure Pinched (key : String) (deadline : Int) (history : List GateFrame)
    (state : ClockedGate) : Prop where
  bucket : state.clock < deadline →
    ∃ bucket, state.gate.buckets.get key = some bucket ∧ bucket.pinchedUntil = deadline
  frames : ∀ frame ∈ history, frame.key = key → frame.now < deadline →
    frame.result = .ok (.denied .streamViolation)

variable {state : ClockedGate} {byteSize : JsNumber}

theorem maybeSweep_keeps_pinch {key peerId channelId : String}
    {bytes : Nat} {now : Int} {bucket : StreamBucket}
    (found : state.gate.buckets.get key = some bucket) (pinched : now < bucket.pinchedUntil)
    (valid : byteSize.natural? = some bytes)
    (keeps : SweepKeepsPinch key state (.checkAndConsume peerId channelId byteSize now)) :
    (state.gate.maybeSweep now).buckets.get key = some bucket := by
  rw [maybeSweep_get, found]
  have spared : ¬ (state.gate.SweepDue now ∧
      bucket.lastTouch < now - state.gate.defaultConfig.windowMs) := by
    rintro ⟨due, silent⟩
    have touched := keeps (by simp [valid]) due bucket found pinched
    omega
  simp [Option.filter, spared]

theorem Pinched.step {key : String} {deadline : Int} {history : List GateFrame}
    {after : ClockedGate} {call : GateCall} {frames : List GateFrame}
    (pinched : Pinched key deadline history state) (leaves : call.Leaves key)
    (keeps : SweepKeepsPinch key state call) (stepped : call.step state = some (after, frames)) :
    Pinched key deadline (history ++ frames) after := by
  rcases step_cases leaves stepped with ⟨passed, _, same, rfl⟩ |
    ⟨peerId, channelId, byteSize, bytes, now, rfl, valid, passed, rfl, rfl⟩
  · rw [List.append_nil]
    refine ⟨fun early => ?_, pinched.frames⟩
    rw [same]
    exact pinched.bucket (by omega)
  have judgedFrames (result : Except GateError StreamCheckResult)
      (refused : keyFor peerId channelId = key → now < deadline →
        result = .ok (.denied .streamViolation)) :
      ∀ frame ∈ history ++ [(⟨peerId, channelId, now, bytes, result⟩ : GateFrame)],
        frame.key = key → frame.now < deadline → frame.result = .ok (.denied .streamViolation) := by
    intro frame member own early
    rcases List.mem_append.mp member with old | new
    · exact pinched.frames frame old own early
    · obtain rfl := List.mem_singleton.mp new
      exact refused own early
  by_cases early : now < deadline
  · obtain ⟨bucket, found, untilEq⟩ := pinched.bucket (by omega)
    have stillPinched : now < bucket.pinchedUntil := by omega
    have survives := maybeSweep_keeps_pinch found stillPinched valid keeps
    by_cases own : keyFor peerId channelId = key
    · subst own
      have consulted : state.gate.bucketFor (keyFor peerId channelId) now = bucket := by
        simp [bucketFor, survives]
      refine ⟨fun _ => ⟨{ bucket with lastTouch := now }, ?_, untilEq⟩,
        judgedFrames _ fun _ _ => ?_⟩
      · rw [checkAndConsume_get_self valid, consulted, StreamBucket.consume_pinched stillPinched]
      · rw [checkAndConsume_result valid, consulted, StreamBucket.consume_pinched stillPinched]
    · refine ⟨fun _ => ⟨bucket, ?_, untilEq⟩, judgedFrames _ fun same => (own same).elim⟩
      rw [checkAndConsume_get_of_ne valid (Ne.symm own), survives]
  · exact ⟨fun beforeDeadline => absurd beforeDeadline early,
      judgedFrames _ fun _ beforeDeadline => absurd beforeDeadline early⟩

/-- The call that raises the violation leaves the channel pinched for twice
its window. -/
theorem pinched_of_violation {before start : ClockedGate} {peerId channelId : String}
    {bytes : Nat} {time : Int}
    (violated : step before (.checkAndConsume peerId channelId byteSize time) =
      some (start, [⟨peerId, channelId, time, bytes,
        .error (.peerStreamViolation peerId channelId)⟩])) :
    ∃ bucket, start.gate.buckets.get (keyFor peerId channelId) = some bucket ∧
      bucket.pinchedUntil = time + bucket.config.windowMs * 2 := by
  have leaves : Leaves (keyFor peerId channelId)
      (.checkAndConsume peerId channelId byteSize time) := trivial
  rcases step_cases leaves violated with ⟨_, _, _, silent⟩ |
    ⟨_, _, _, spent, _, callEq, valid, _, rfl, framesEq⟩
  · cases silent
  · cases callEq
    simp only [List.cons.injEq, GateFrame.mk.injEq, and_true, true_and] at framesEq
    have raised := framesEq.2.symm
    rw [checkAndConsume_result valid] at raised
    exact ⟨_, checkAndConsume_get_self valid, StreamBucket.consume_violation raised⟩

/-- A pinch that no sweep removes lasts its whole cooldown: once the violation
is raised at `time`, every frame judged on the channel before
`time + 2 * windowMs` is refused as a violation. -/
theorem pinch_lasts_cooldown {before start state : ClockedGate} {peerId channelId : String}
    {byteSize : JsNumber} {bytes : Nat} {time : Int} {history : List GateFrame}
    (violated : step before (.checkAndConsume peerId channelId byteSize time) =
      some (start, [⟨peerId, channelId, time, bytes,
        .error (.peerStreamViolation peerId channelId)⟩])) (runs : Transition.Runs step
      (fun _ state call => call.Leaves (keyFor peerId channelId) ∧
        SweepKeepsPinch (keyFor peerId channelId) state call) start history state) :
    ∃ bucket, start.gate.buckets.get (keyFor peerId channelId) = some bucket ∧
      ∀ frame ∈ history, frame.peerId = peerId → frame.channelId = channelId →
        frame.now < time + 2 * bucket.config.windowMs →
          frame.result = .ok (.denied .streamViolation) := by
  obtain ⟨bucket, found, untilEq⟩ := pinched_of_violation violated
  have initial : Pinched (keyFor peerId channelId) (time + bucket.config.windowMs * 2) [] start :=
    ⟨fun _ => ⟨bucket, found, untilEq⟩, by simp⟩
  have pinched : Pinched (keyFor peerId channelId) (time + bucket.config.windowMs * 2)
      history state := by
    refine runs.invariant (Pinched (keyFor peerId channelId) _) initial ?_
    intro history before call after frames pinched permitted stepped
    exact pinched.step permitted.1 permitted.2 stepped
  refine ⟨bucket, found, fun frame member peerEq channelEq early => ?_⟩
  exact pinched.frames frame member (by rw [GateFrame.key, peerEq, channelEq]) (by omega)

def overflowingOptions : StreamRateOptions where
  maxMessagesPerSecond := some (.integer 1)

def overflowingGate : ClockedGate where
  gate :=
    { defaultConfig :=
        (validateConfig defaultStreamRateConfig overflowingOptions "narrow").toOption.get
          (by decide)
      buckets := .empty
      lastSweep := 0 }
  clock := 0

/-- Three frames at time zero: one is allowed, two are denied. -/
def overflowedGate : ClockedGate :=
  check (check (check overflowingGate))
where
  check (state : ClockedGate) : ClockedGate :=
    ⟨(state.gate.checkAndConsume "peer" "camera" (.integer 7) 0).1, 0⟩

/-- The gate after the fourth frame, which raises the violation. -/
def pinchedGate : ClockedGate :=
  overflowedGate.check overflowedGate

theorem overflowedGate_violation :
    step overflowedGate (.checkAndConsume "peer" "camera" (.integer 7) 0) =
      some (pinchedGate, [⟨"peer", "camera", 0, 7,
        .error (.peerStreamViolation "peer" "camera")⟩]) :=
  rfl

/-- A frame half a second after the violation, before the next sweep. -/
theorem pinch_lasts_cooldown_pinchedGate :
    ∃ bucket, pinchedGate.gate.buckets.get (keyFor "peer" "camera") = some bucket ∧
      ∀ frame ∈ [(⟨"peer", "camera", 500, 7, .ok (.denied .streamViolation)⟩ : GateFrame)],
        frame.peerId = "peer" → frame.channelId = "camera" →
          frame.now < 0 + 2 * bucket.config.windowMs →
            frame.result = .ok (.denied .streamViolation) := by
  have permitted : Leaves (keyFor "peer" "camera")
        (.checkAndConsume "peer" "camera" (.integer 7) 500) ∧
      SweepKeepsPinch (keyFor "peer" "camera") pinchedGate
        (.checkAndConsume "peer" "camera" (.integer 7) 500) :=
    ⟨trivial, fun _ due => absurd due (by decide)⟩
  exact pinch_lasts_cooldown overflowedGate_violation (.tail .refl permitted rfl)

/-- A second and a half of silence lets the sweep forget the pinch: the next
frame is allowed half a second before the end of the cooldown. -/
theorem pinch_forgotten : new overflowingOptions = .ok overflowingGate.gate ∧
    (∃ earlier, Transition.Runs step
      (fun _ _ call => call.Leaves (keyFor "peer" "camera")) overflowingGate earlier
        overflowedGate) ∧ step overflowedGate (.checkAndConsume "peer" "camera" (.integer 7) 0) =
      some (pinchedGate, [⟨"peer", "camera", 0, 7,
        .error (.peerStreamViolation "peer" "camera")⟩]) ∧ ∃ bucket history state,
      pinchedGate.gate.buckets.get (keyFor "peer" "camera") = some bucket ∧ Transition.Runs step
        (fun _ _ call => call.Leaves (keyFor "peer" "camera")) pinchedGate history state ∧
      ∃ frame ∈ history, frame.peerId = "peer" ∧ frame.channelId = "camera" ∧
        frame.now < 0 + 2 * bucket.config.windowMs ∧ frame.result = .ok .allowed := by
  have spent (now : Int) : Leaves (keyFor "peer" "camera")
      (.checkAndConsume "peer" "camera" (.integer 7) now) := trivial
  refine ⟨rfl, ?_, overflowedGate_violation, ?_⟩
  · exact ⟨_, .tail (.tail (.tail .refl (spent 0) rfl) (spent 0) rfl) (spent 0) rfl⟩
  · refine ⟨_, [⟨"peer", "camera", 1500, 7, .ok .allowed⟩], _, rfl,
      .tail .refl (spent 1500) rfl, _, List.mem_singleton.mpr rfl, rfl, rfl, ?_, rfl⟩
    decide

end P2PHub
