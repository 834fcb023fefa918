import P2PHub.TelemetryGateRuns

/-!
# When the streaming gate escalates

The denials of a channel are counted from its last allowed frame on.  A frame
that is denied because the window is full has an allowed frame in the window, so
all counted denials are in it; a frame that is too large for any window has
none, and its denials may lie any time apart.
-/

namespace P2PHub

open TelemetryGate StreamBucket Transition OrderedMap

def channelFrames (history : List GateFrame) (peerId channelId : String) : List GateFrame :=
  history.filter fun frame => decide (frame.peerId = peerId ∧ frame.channelId = channelId)

/-- The frames submitted on a channel in the window `(now - windowMs, now]`. -/
def framesInWindow (history : List GateFrame) (peerId channelId : String) (windowMs : Nat)
    (now : Int) : List GateFrame :=
  (channelFrames history peerId channelId).filter fun frame =>
    decide (now - windowMs < frame.now ∧ frame.now ≤ now)

/-- The configuration that a channel runs on at a moment. -/
def channelConfig (state : ClockedGate) (peerId channelId : String) (now : Int) :
    StreamRateConfig :=
  (state.gate.bucketFor (keyFor peerId channelId) now).config

/-- No frame of another channel has the key of the channel. -/
def Distinguished (history : List GateFrame) (peerId channelId : String) : Prop :=
  ∀ frame ∈ history, frame.key = keyFor peerId channelId →
    frame.peerId = peerId ∧ frame.channelId = channelId

instance (history : List GateFrame) (peerId channelId : String) :
    Decidable (Distinguished history peerId channelId) :=
  inferInstanceAs (Decidable (∀ frame ∈ history, frame.key = keyFor peerId channelId →
    frame.peerId = peerId ∧ frame.channelId = channelId))

/-- A frame is too large for any window, and the frame as many frames before it
as there may be denials has left the window. -/
def OversizeAfterPause (history : List GateFrame) (peerId channelId : String)
    (config : StreamRateConfig) (bytes : Nat) (now : Int) : Prop :=
  config.maxBytesPerSecond < bytes ∧ ∃ frame,
    (channelFrames history peerId channelId)[(channelFrames history peerId channelId).length -
        2 * config.maxMessagesPerSecond]? = some frame ∧
      frame.now ≤ now - config.windowMs

section

/-- The counted denials of a bucket are frames at the end of the history, none
of them before an allowed frame that the bucket still keeps. -/
def Streak (frames : List GateFrame) (bucket : StreamBucket) : Prop :=
  ∃ before since, frames = before ++ since ∧ bucket.denials ≤ since.length ∧
    ∀ entry ∈ bucket.entries, ∀ frame ∈ since, entry.time ≤ frame.now

variable {frames : List GateFrame} {bucket : StreamBucket} {peerId channelId : String} {now : Int}
  {bytes : Nat} {frame : GateFrame} {reason : StreamDenyReason}

theorem streak_fresh (frames : List GateFrame) (config : StreamRateConfig) (now : Int) :
    Streak frames (.fresh config now) :=
  ⟨frames, [], (List.append_nil frames).symm, Nat.le_refl 0, List.forall_mem_nil _⟩

section

variable (streak : Streak frames bucket)
include streak

theorem Streak.reopen (now : Int) : Streak frames (bucket.reopen now) := by
  obtain ⟨before, since, framesEq, counted, earlier⟩ := streak
  refine ⟨before, since, framesEq, ?_, ?_⟩
  · unfold StreamBucket.reopen
    split
    · exact Nat.zero_le _
    · exact counted
  · rw [StreamBucket.reopen_entries]
    exact earlier

theorem Streak.expire (now : Int) : Streak frames (bucket.expire now) := by
  obtain ⟨before, since, framesEq, counted, earlier⟩ := streak
  refine ⟨before, since, framesEq, counted, fun entry member => ?_⟩
  exact earlier entry ((List.dropWhile_sublist _).subset member)

theorem Streak.snoc (late : ∀ entry ∈ bucket.entries,
      entry.time ≤ frame.now) {after : StreamBucket} (entries : after.entries = bucket.entries)
    (denials : after.denials ≤ bucket.denials + 1) : Streak (frames ++ [frame]) after := by
  obtain ⟨before, since, framesEq, counted, earlier⟩ := streak
  refine ⟨before, since ++ [frame], by rw [framesEq, List.append_assoc], ?_, ?_⟩
  · rw [List.length_append, List.length_singleton]
    omega
  · rw [entries]
    intro entry member other isOther
    rcases List.mem_append.mp isOther with old | new
    · exact earlier entry member other old
    · obtain rfl := List.mem_singleton.mp new
      exact late entry member

end

theorem deny_denials (bucket : StreamBucket) (peerId channelId : String) (now : Int)
    (reason : StreamDenyReason) :
    (bucket.deny peerId channelId now reason).1.denials = bucket.denials + 1 := by
  unfold StreamBucket.deny
  dsimp only
  split <;> rfl

section

variable (streak : Streak frames bucket) (late : ∀ entry ∈ bucket.entries, entry.time ≤ frame.now)
include streak late

theorem Streak.deny : Streak (frames ++ [frame]) (bucket.deny peerId channelId now reason).1 :=
  streak.snoc late (deny_entries ..) (deny_denials ..).le

theorem Streak.consume :
    Streak (frames ++ [frame]) (bucket.consume peerId channelId now bytes).1 := by
  have open_ := (streak.reopen now).expire now
  have lateOpen : ∀ entry ∈ ((bucket.reopen now).expire now).entries, entry.time ≤ frame.now := by
    intro entry member
    have kept : entry ∈ (bucket.reopen now).entries := (List.dropWhile_sublist _).subset member
    rw [StreamBucket.reopen_entries] at kept
    exact late entry kept
  unfold StreamBucket.consume
  split
  · exact streak.snoc late rfl (Nat.le_succ _)
  · unfold StreamBucket.spend
    split
    · exact open_.deny lateOpen
    · split
      · exact open_.deny lateOpen
      · split
        · exact open_.deny lateOpen
        · exact ⟨frames ++ [frame], [], (List.append_nil _).symm, Nat.le_refl 0,
            fun _ _ => List.forall_mem_nil _⟩

end

/-- A violation is raised by a frame with enough denials before it, and unless
the frame is too large an allowed frame is still in the window. -/
theorem violation_cases {failure : GateError}
    (raised : (bucket.consume peerId channelId now bytes).2 = .error failure) :
    2 * bucket.config.maxMessagesPerSecond ≤ (bucket.reopen now).denials ∧
      (bucket.config.maxBytesPerSecond < bytes ∨ ∃ entry ∈ bucket.entries,
        now - bucket.config.windowMs < entry.time) := by
  have denied (reason : StreamDenyReason) (error : (((bucket.reopen now).expire now).deny peerId
      channelId now reason).2 = .error failure) :
      2 * bucket.config.maxMessagesPerSecond ≤ (bucket.reopen now).denials := by
    unfold StreamBucket.deny at error
    dsimp only at error
    split at error
    · next enough =>
        have config : ((bucket.reopen now).expire now).config = bucket.config :=
          reopen_config bucket now
        have denials : ((bucket.reopen now).expire now).denials = (bucket.reopen now).denials := rfl
        rw [config, denials] at enough
        omega
    · cases error
  have recent (some : ((bucket.reopen now).expire now).entries ≠ []) :
      ∃ entry ∈ bucket.entries, now - bucket.config.windowMs < entry.time := by
    have entriesEq : ((bucket.reopen now).expire now).entries = bucket.entries.dropWhile
        fun entry => decide (entry.time ≤ now - bucket.config.windowMs) := by
      simp [expire]
    rw [entriesEq] at some
    obtain ⟨entry, rest, kept⟩ := List.exists_cons_of_ne_nil some
    have inside := List.head?_dropWhile_not
      (fun entry : StreamEntry => decide (entry.time ≤ now - bucket.config.windowMs)) bucket.entries
    rw [kept] at inside
    simp only [List.head?_cons, decide_eq_false_iff_not] at inside
    refine ⟨entry, (List.dropWhile_sublist _).subset (kept ▸ List.mem_cons_self), by omega⟩
  have config : ((bucket.reopen now).expire now).config = bucket.config :=
    reopen_config bucket now
  unfold consume at raised
  split at raised
  · cases raised
  · unfold spend at raised
    rw [config] at raised
    split at raised
    · next tooLarge => exact ⟨denied _ raised, Or.inl tooLarge⟩
    · next fitsAlone =>
        split at raised
        · next full =>
            refine ⟨denied _ raised, Or.inr (recent fun empty => ?_)⟩
            have positive := bucket.config.maxMessagesPerSecond_pos
            rw [empty, List.length_nil] at full
            omega
        · split at raised
          · next overBytes =>
              refine ⟨denied _ raised, Or.inr (recent fun empty => ?_)⟩
              rw [empty, List.map_nil, List.sum_nil] at overBytes
              omega
          · cases raised

end

section

/-- Every bucket counts a streak of the frames under its key, and time has only
gone forward. -/
structure Streaks (history : List GateFrame) (state : ClockedGate) : Prop where
  ordered : history.Pairwise fun earlier later => earlier.now ≤ later.now
  past : ∀ frame ∈ history, frame.now ≤ state.clock
  streak : ∀ key bucket, state.gate.buckets.get key = some bucket →
    Streak (history.filter fun frame => decide (frame.key = key)) bucket
  entries : ∀ key bucket, state.gate.buckets.get key = some bucket →
    ∀ entry ∈ bucket.entries, entry.time ≤ state.clock

variable {history frames : List GateFrame} {state after : ClockedGate} {call : GateCall}
  {gate : TelemetryGate} {clock now : Int} {key peerId channelId : String} {bytes : Nat}

variable {bucket : StreamBucket}

/-- A call that judges no frame leaves buckets without a history, or the ones
that were there. -/
theorem Streaks.quiet (streaks : Streaks history state) (passed : state.clock ≤ clock)
    (kept : ∀ key bucket, gate.buckets.get key = some bucket →
      state.gate.buckets.get key = some bucket ∨ ∃ config now, bucket = .fresh config now) :
    Streaks history ⟨gate, clock⟩ where
  ordered := streaks.ordered
  past frame member := le_trans (streaks.past frame member) passed
  streak key bucket found := by
    rcases kept key bucket found with old | ⟨config, now, rfl⟩
    · exact streaks.streak key bucket old
    · exact streak_fresh _ config now
  entries key bucket found := by
    rcases kept key bucket found with old | ⟨config, now, rfl⟩
    · exact fun entry member => le_trans (streaks.entries key bucket old entry member) passed
    · exact List.forall_mem_nil _

theorem maybeSweep_found (found : (gate.maybeSweep now).buckets.get key = some bucket) :
    gate.buckets.get key = some bucket := by
  rw [maybeSweep_get] at found
  exact (Option.filter_eq_some_iff.mp found).1

theorem Streaks.bucketFor (streaks : Streaks history state) (key : String) (now : Int) :
    Streak (history.filter fun frame => decide (frame.key = key)) (state.gate.bucketFor key now) ∧
      ∀ entry ∈ (state.gate.bucketFor key now).entries, entry.time ≤ state.clock := by
  unfold TelemetryGate.bucketFor
  cases found : (state.gate.maybeSweep now).buckets.get key with
  | none => exact ⟨streak_fresh _ _ _, List.forall_mem_nil _⟩
  | some bucket =>
    have present := maybeSweep_found found
    exact ⟨streaks.streak key bucket present, streaks.entries key bucket present⟩

theorem consume_entries_past (past : ∀ entry ∈ bucket.entries, entry.time ≤ now) :
    ∀ entry ∈ (bucket.consume peerId channelId now bytes).1.entries, entry.time ≤ now := by
  obtain ⟨_, _, ⟨_, same | recent⟩ | ⟨_, recent, _⟩⟩ :=
    bucket.consume_cases peerId channelId now bytes
  · rw [same]
    exact past
  · rw [recent]
    exact fun entry member => past entry ((List.dropWhile_sublist _).subset member)
  · rw [recent]
    intro entry member
    rcases List.mem_append.mp member with old | new
    · exact past entry ((List.dropWhile_sublist _).subset old)
    · obtain rfl := List.mem_singleton.mp new
      exact le_refl _

theorem Streaks.check (streaks : Streaks history state) (passed : state.clock ≤ now)
    {byteSize : JsNumber} (valid : byteSize.natural? = some bytes) :
    Streaks (history ++ [⟨peerId, channelId, now, bytes,
        (state.gate.checkAndConsume peerId channelId byteSize now).2⟩])
      ⟨(state.gate.checkAndConsume peerId channelId byteSize now).1, now⟩ where
  ordered := by
    refine List.pairwise_append.mpr ⟨streaks.ordered, List.pairwise_singleton _ _, ?_⟩
    intro earlier member later isLater
    obtain rfl := List.mem_singleton.mp isLater
    exact le_trans (streaks.past earlier member) passed
  past frame member := by
    rcases List.mem_append.mp member with old | new
    · exact le_trans (streaks.past frame old) passed
    · obtain rfl := List.mem_singleton.mp new
      exact le_refl _
  streak key bucket found := by
    by_cases own : key = keyFor peerId channelId
    · subst own
      rw [checkAndConsume_get_self valid] at found
      cases found
      obtain ⟨streak, past⟩ := streaks.bucketFor (keyFor peerId channelId) now
      rw [List.filter_append, List.filter_cons_of_pos (by simp [GateFrame.key]), List.filter_nil]
      exact streak.consume fun entry member => le_trans (past entry member) passed
    · rw [checkAndConsume_get_of_ne valid own] at found
      rw [List.filter_append, List.filter_cons_of_neg (by simp [GateFrame.key, Ne.symm own]),
        List.filter_nil, List.append_nil]
      exact streaks.streak key bucket (maybeSweep_found found)
  entries key bucket found := by
    by_cases own : key = keyFor peerId channelId
    · subst own
      rw [checkAndConsume_get_self valid] at found
      cases found
      obtain ⟨_, past⟩ := streaks.bucketFor (keyFor peerId channelId) now
      exact consume_entries_past fun entry member => le_trans (past entry member) passed
    · rw [checkAndConsume_get_of_ne valid own] at found
      exact fun entry member =>
        le_trans (streaks.entries key bucket (maybeSweep_found found) entry member) passed

theorem Streaks.step (streaks : Streaks history state)
    (stepped : call.step state = some (after, frames)) : Streaks (history ++ frames) after := by
  cases call with
  | registerStream peerId channelId config now =>
    simp only [GateCall.step] at stepped
    split at stepped
    · next passed =>
        split at stepped
        · next gate registered =>
            cases stepped
            obtain ⟨merged, _, rfl⟩ := registerStream_eq_ok registered
            rw [List.append_nil]
            refine streaks.quiet passed fun key bucket found => ?_
            rw [get_set] at found
            split at found
            · exact Or.inr ⟨merged, now, (Option.some.inj found).symm⟩
            · exact Or.inl found
        · cases stepped
          rw [List.append_nil]
          exact streaks.quiet passed fun _ _ => Or.inl
    · cases stepped
  | closeStream peerId channelId =>
    cases stepped
    rw [List.append_nil]
    refine streaks.quiet (le_refl _) fun key bucket found => Or.inl ?_
    rw [closeStream, get_delete] at found
    split at found
    · cases found
    · exact found
  | reset =>
    cases stepped
    rw [List.append_nil]
    refine streaks.quiet (le_refl _) fun key bucket found => ?_
    rw [reset, get_clear] at found
    cases found
  | checkAndConsume peerId channelId byteSize now =>
    simp only [GateCall.step] at stepped
    split at stepped
    · next passed =>
        split at stepped
        · cases stepped
          rw [List.append_nil]
          exact streaks.quiet passed fun _ _ => Or.inl
        · next bytes valid =>
            cases stepped
            exact streaks.check passed valid
    · cases stepped

theorem streaks_of_runs {options : StreamRateOptions} (made : new options = .ok gate)
    (runs : Runs GateCall.step unrestricted ⟨gate, clock⟩ history state) :
    Streaks history state := by
  have empty (key : String) : gate.buckets.get key = none := by
    unfold new at made
    cases validated : validateConfig defaultStreamRateConfig options "telemetry gate" with
    | error failure =>
      rw [validated] at made
      cases made
    | ok merged =>
      rw [validated] at made
      cases made
      exact get_empty key
  refine runs.invariant Streaks ⟨.nil, List.forall_mem_nil _, ?_, ?_⟩ ?_
  · intro key bucket found
    cases (empty key).symm.trans found
  · intro key bucket found
    cases (empty key).symm.trans found
  · intro history before call after frames streaks _ stepped
    exact streaks.step stepped

end

theorem le_length_filter_iff {α : Type} {good : α → Bool} {left right : List α} {pivot : α}
    (stays : (left ++ pivot :: right).Pairwise fun earlier later => good earlier → good later) :
    right.length + 1 ≤ ((left ++ pivot :: right).filter good).length ↔ good pivot := by
  obtain ⟨_, tail, leftPivot⟩ := List.pairwise_append.mp stays
  have rightGood := (List.pairwise_cons.mp tail).1
  rw [List.filter_append, List.length_append]
  constructor
  · intro many
    by_contra bad
    have none : left.filter good = [] := by
      refine List.filter_eq_nil_iff.mpr fun earlier member isGood => bad ?_
      exact leftPivot earlier member pivot List.mem_cons_self isGood
    have few : (right.filter good).length ≤ right.length := List.length_filter_le _ _
    rw [none, List.filter_cons_of_neg bad, List.length_nil] at many
    omega
  · intro isGood
    have all : right.filter good = right :=
      List.filter_eq_self.mpr fun later member => rightGood later member isGood
    rw [List.filter_cons_of_pos isGood, all, List.length_cons]
    omega

theorem exists_pivot {α : Type} (l : List α) (count : Nat) (positive : 0 < count)
    (enough : count ≤ l.length) :
    ∃ left pivot right, l = left ++ pivot :: right ∧ right.length + 1 = count := by
  have size : (l.drop (l.length - count)).length = count := by
    rw [List.length_drop]
    omega
  cases tail : l.drop (l.length - count) with
  | nil =>
    rw [tail, List.length_nil] at size
    omega
  | cons pivot right =>
    refine ⟨l.take (l.length - count), pivot, right, ?_, ?_⟩
    · rw [← tail, List.take_append_drop]
    · rw [← size, tail, List.length_cons]

variable {options : StreamRateOptions} {gate : TelemetryGate} {clock now : Int}
  {history : List GateFrame} {state after : ClockedGate} {peerId channelId : String}
  {byteSize : JsNumber} {frame : GateFrame}

theorem channelFrames_eq (distinguished : Distinguished history peerId channelId) :
    (history.filter fun frame => decide (frame.key = keyFor peerId channelId)) =
      channelFrames history peerId channelId := by
  refine List.filter_congr fun frame member => ?_
  refine decide_eq_decide.mpr ⟨distinguished frame member, ?_⟩
  rintro ⟨rfl, rfl⟩
  rfl

theorem step_check_frame (stepped : (GateCall.checkAndConsume peerId channelId byteSize now).step
      state = some (after, [frame])) :
    state.clock ≤ now ∧ frame.peerId = peerId ∧ frame.channelId = channelId ∧ frame.now = now ∧
      frame.result = ((state.gate.bucketFor (keyFor peerId channelId) now).consume peerId
        channelId now frame.bytes).2 := by
  simp only [GateCall.step] at stepped
  split at stepped
  · next passed =>
      split at stepped
      · simp at stepped
      · next bytes valid =>
          obtain ⟨-, rfl⟩ := stepped
          exact ⟨passed, rfl, rfl, rfl, checkAndConsume_result valid⟩
  · cases stepped

/-- The frames of the window after a check are the frames before it that are
still in the window and its own. -/
theorem framesInWindow_snoc (streaks : Streaks history state) (passed : state.clock ≤ now)
    (peer : frame.peerId = peerId) (channel : frame.channelId = channelId)
    (time : frame.now = now) {windowMs : Nat} (positive : 0 < windowMs) :
    (framesInWindow (history ++ [frame]) peerId channelId windowMs now).length =
      ((channelFrames history peerId channelId).filter fun frame =>
        decide (now - windowMs < frame.now)).length + 1 := by
  have own : decide (frame.peerId = peerId ∧ frame.channelId = channelId) := by
    simp [peer, channel]
  have inside : decide (now - windowMs < frame.now ∧ frame.now ≤ now) := by
    rw [time]
    exact decide_eq_true ⟨by omega, le_refl now⟩
  have last : channelFrames [frame] peerId channelId = [frame] := List.filter_cons_of_pos own
  have both : channelFrames (history ++ [frame]) peerId channelId =
      channelFrames history peerId channelId ++ [frame] := by
    rw [channelFrames, List.filter_append, ← channelFrames, ← channelFrames, last]
  have kept : ([frame].filter fun frame =>
      decide (now - windowMs < frame.now ∧ frame.now ≤ now)) = [frame] :=
    List.filter_cons_of_pos inside
  unfold framesInWindow
  rw [both, List.filter_append, kept, List.length_append, List.length_singleton]
  congr 2
  refine List.filter_congr fun earlier member => decide_eq_decide.mpr ⟨And.left, fun late => ?_⟩
  have before := streaks.past earlier (List.mem_of_mem_filter member)
  exact ⟨late, le_trans before passed⟩

/-- A violation on a channel is raised on more frames in the window than twice
the cap, except by an oversize frame after a pause. -/
theorem escalations_sustained_iff (made : new options = .ok gate)
    (runs : Runs GateCall.step unrestricted ⟨gate, clock⟩ history state)
    (stepped : (GateCall.checkAndConsume peerId channelId byteSize now).step state =
      some (after, [frame]))
    (raised : frame.result = .error (.peerStreamViolation peerId channelId))
    (distinguished : Distinguished history peerId channelId) :
    2 * (channelConfig state peerId channelId now).maxMessagesPerSecond <
        (framesInWindow (history ++ [frame]) peerId channelId
          (channelConfig state peerId channelId now).windowMs now).length ↔
      ¬OversizeAfterPause history peerId channelId (channelConfig state peerId channelId now)
        frame.bytes now := by
  obtain ⟨passed, peer, channel, time, result⟩ := step_check_frame stepped
  have streaks := streaks_of_runs made runs
  obtain ⟨streak, _⟩ := streaks.bucketFor (keyFor peerId channelId) now
  obtain ⟨enough, kind⟩ := violation_cases (result.symm.trans raised)
  obtain ⟨before, since, framesEq, counted, earlier⟩ := streak.reopen now
  rw [channelFrames_eq distinguished] at framesEq
  rw [reopen_entries] at earlier
  rw [framesInWindow_snoc streaks passed peer channel time
    (channelConfig state peerId channelId now).windowMs_pos]
  unfold OversizeAfterPause channelConfig
  generalize state.gate.bucketFor (keyFor peerId channelId) now = bucket at *
  have positive := bucket.config.maxMessagesPerSecond_pos
  obtain ⟨left, pivot, right, sinceEq, rightLength⟩ :=
    exists_pivot since (2 * bucket.config.maxMessagesPerSecond) (by omega) (by omega)
  have split : channelFrames history peerId channelId = (before ++ left) ++ pivot :: right := by
    rw [framesEq, sinceEq, List.append_assoc]
  have ordered : ((before ++ left) ++ pivot :: right).Pairwise fun earlier later =>
      decide (now - bucket.config.windowMs < earlier.now) →
        decide (now - bucket.config.windowMs < later.now) := by
    rw [← split]
    refine (streaks.ordered.sublist List.filter_sublist).imp fun later inside => ?_
    exact decide_eq_true (lt_of_lt_of_le (of_decide_eq_true inside) later)
  have found : (channelFrames history peerId channelId)[(channelFrames history peerId
      channelId).length - 2 * bucket.config.maxMessagesPerSecond]? = some pivot := by
    have position : (before ++ left ++ pivot :: right).length -
        2 * bucket.config.maxMessagesPerSecond = (before ++ left).length := by
      simp only [List.length_append, List.length_cons]
      omega
    rw [split, position, List.getElem?_append_right (le_refl _), Nat.sub_self]
    rfl
  have count := le_length_filter_iff ordered
  rw [← split, rightLength, decide_eq_true_eq] at count
  rw [Nat.lt_succ_iff, count]
  constructor
  · rintro inside ⟨_, other, isOther, left⟩
    cases found.symm.trans isOther
    omega
  · intro condition
    rcases kind with oversize | ⟨entry, kept, recent⟩
    · by_contra outside
      exact condition ⟨oversize, pivot, found, by omega⟩
    · have member : pivot ∈ since := sinceEq ▸ List.mem_append_right _ List.mem_cons_self
      exact lt_of_lt_of_le recent (earlier entry kept pivot member)

theorem exists_check_after (start : ClockedGate) (calls : List GateCall) (call : GateCall)
    (frame : GateFrame) (test : ClockedGate → List GateFrame → Bool)
    (passed : ((run GateCall.step start calls).any fun earlier =>
      (call.step earlier.1).any fun stepped =>
        decide (stepped.2 = [frame]) && test earlier.1 earlier.2)) : ∃ history state after,
      Runs GateCall.step unrestricted start history state ∧
        call.step state = some (after, [frame]) ∧ test state history := by
  cases executed : run GateCall.step start calls with
  | none =>
    rw [executed] at passed
    cases passed
  | some earlier =>
    rw [executed, Option.any_some] at passed
    cases stepped : call.step earlier.1 with
    | none =>
      rw [stepped] at passed
      cases passed
    | some judged =>
      rw [stepped, Option.any_some, Bool.and_eq_true, decide_eq_true_eq] at passed
      refine ⟨earlier.2, earlier.1, judged.1, runs_of_run (fun _ _ => trivial)
        executed, ?_, passed.2⟩
      rw [stepped, ← passed.1]

def narrowOptions : StreamRateOptions where
  windowMs := some (.integer 1000)
  maxMessagesPerSecond := some (.integer 1)
  maxBytesPerSecond := some (.integer 10)

def narrowGate : TelemetryGate :=
  (new narrowOptions).toOption.get (by decide)

/-- Four small frames in three milliseconds, the last of which escalates. -/
theorem escalations_sustained_crowd : ∃ history state after frame,
    Runs GateCall.step unrestricted ⟨narrowGate, 0⟩ history state ∧
      (GateCall.checkAndConsume "peer" "camera" (.integer 5) 1003).step state =
        some (after, [frame]) ∧ frame.result = .error (.peerStreamViolation "peer" "camera") ∧
      (2 * (channelConfig state "peer" "camera" 1003).maxMessagesPerSecond <
          (framesInWindow (history ++ [frame]) "peer" "camera"
            (channelConfig state "peer" "camera" 1003).windowMs 1003).length ↔
        ¬OversizeAfterPause history "peer" "camera" (channelConfig state "peer" "camera" 1003)
          frame.bytes 1003) := by
  obtain ⟨history, state, after, runs, stepped, distinguished⟩ := exists_check_after ⟨narrowGate, 0⟩
    [.checkAndConsume "peer" "camera" (.integer 5) 1000,
      .checkAndConsume "peer" "camera" (.integer 5) 1001,
      .checkAndConsume "peer" "camera" (.integer 5) 1002]
    (.checkAndConsume "peer" "camera" (.integer 5) 1003)
    ⟨"peer", "camera", 1003, 5, .error (.peerStreamViolation "peer" "camera")⟩
    (fun _ history => decide (Distinguished history "peer" "camera")) (by decide +kernel)
  have made : new narrowOptions = .ok narrowGate := rfl
  exact ⟨history, state, after, _, runs, stepped, rfl, escalations_sustained_iff made runs stepped
    rfl (of_decide_eq_true distinguished)⟩

/-- Three oversize frames, each more than half a second after the one before:
the third escalates, with two frames in its window. -/
theorem escalations_after_pauses : ∃ history state after frame, new narrowOptions = .ok narrowGate ∧
      Runs GateCall.step unrestricted ⟨narrowGate, 0⟩ history state ∧
      (GateCall.checkAndConsume "peer" "camera" (.integer 11) 2200).step state =
        some (after, [frame]) ∧ frame.result = .error (.peerStreamViolation "peer" "camera") ∧
      ¬2 * (channelConfig state "peer" "camera" 2200).maxMessagesPerSecond <
        (framesInWindow (history ++ [frame]) "peer" "camera"
          (channelConfig state "peer" "camera" 2200).windowMs 2200).length := by
  obtain ⟨history, state, after, runs, stepped, few⟩ := exists_check_after ⟨narrowGate, 0⟩
    [.checkAndConsume "peer" "camera" (.integer 11) 1000,
      .checkAndConsume "peer" "camera" (.integer 11) 1600]
    (.checkAndConsume "peer" "camera" (.integer 11) 2200)
    ⟨"peer", "camera", 2200, 11, .error (.peerStreamViolation "peer" "camera")⟩
    (fun state history => !decide (2 * (channelConfig state "peer" "camera"
        2200).maxMessagesPerSecond <
      (framesInWindow (history ++ [⟨"peer", "camera", 2200, 11,
          .error (.peerStreamViolation "peer" "camera")⟩]) "peer" "camera"
        (channelConfig state "peer" "camera" 2200).windowMs 2200).length)) (by decide +kernel)
  refine ⟨history, state, after, _, rfl, runs, stepped, rfl, ?_⟩
  exact of_decide_eq_false (by simpa using few)

end P2PHub
