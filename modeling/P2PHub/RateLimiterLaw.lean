import P2PHub.RateLimiters
import P2PHub.SlidingWindow

/-!
# The rate limiters as sliding windows

The law of a sliding window judges a call by the earlier allowed calls of the
same caller.  A limiter obeys it, with and without its sweep, as long as no two
callers share a key.
-/

namespace P2PHub

open SlidingWindow RateLimiter OrderedMap

structure RateCall (Caller : Type*) where
  caller : Caller
  now : Int
  deriving DecidableEq

namespace RateLimiter

variable {Caller : Type*}

def judge (allow : RateLimiter → String → Int → RateLimiter × Bool) (keyOf : Caller → String) :
    RateLimiter → List (RateCall Caller) → List (RateCall Caller × Bool)
  | _, [] => []
  | limiter, call :: calls =>
    let answered := allow limiter (keyOf call.caller) call.now
    (call, answered.2) :: judge allow keyOf answered.1 calls

section

variable [DecidableEq Caller]

/-- The earlier allowed calls of a caller in the window `(now - windowMs, now]`. -/
def callsInWindow (windowMs : Int) (earlier : List (RateCall Caller × Bool))
    (call : RateCall Caller) : List (RateCall Caller × Bool) :=
  earlier.filter fun other =>
    decide (other.1.caller = call.caller ∧ call.now - windowMs < other.1.now ∧
      other.1.now ≤ call.now) && other.2

/-- A call is allowed while fewer than the cap of its caller's allowed calls are
in the window. -/
def windowLaw (windowMs maxCalls : Int) :
    List (RateCall Caller × Bool) → List (RateCall Caller) → List (RateCall Caller × Bool)
  | _, [] => []
  | earlier, call :: calls =>
    let verdict := decide ((callsInWindow windowMs earlier call).length < maxCalls)
    (call, verdict) :: windowLaw windowMs maxCalls (earlier ++ [(call, verdict)]) calls

end

/-- `allow` without its sweep. -/
def allowUnswept (limiter : RateLimiter) (key : String) (now : Int) : RateLimiter × Bool :=
  let timestamps := ((limiter.buckets.get key).elim [] RateBucket.timestamps).dropWhile
    fun timestamp => decide (timestamp ≤ now - limiter.windowMs)
  if limiter.maxCalls ≤ timestamps.length then
    ({ limiter with buckets := limiter.buckets.set key ⟨timestamps, now⟩ }, false)
  else
    ({ limiter with buckets := limiter.buckets.set key ⟨timestamps ++ [now], now⟩ }, true)

def Ordered (calls : List (RateCall Caller)) : Prop :=
  calls.Pairwise fun earlier later => earlier.now ≤ later.now

def Unambiguous (keyOf : Caller → String) (calls : List (RateCall Caller)) : Prop :=
  ∀ first ∈ calls, ∀ second ∈ calls, keyOf first.caller = keyOf second.caller →
    first.caller = second.caller

/-- What one limiter must do on ordered calls: it follows the law, its sweep
changes no answer, and no caller's calls change another's answers. -/
structure ExactWindow [DecidableEq Caller] (keyOf : Caller → String) (limiter : RateLimiter)
    (calls : List (RateCall Caller)) : Prop where
  law : judge allow keyOf limiter calls = windowLaw limiter.windowMs limiter.maxCalls [] calls
  unswept : judge allow keyOf limiter calls = judge allowUnswept keyOf limiter calls
  apart : ∀ caller, ((judge allow keyOf limiter calls).filter fun call =>
      decide (call.1.caller = caller)) =
    judge allow keyOf limiter (calls.filter fun call => decide (call.caller = caller))

section

variable {keyOf : Caller → String} {limiter : RateLimiter} {clock now : Int} {key : String}
  {earlier : List (RateCall Caller × Bool)}

def allowedTimes (keyOf : Caller → String) (earlier : List (RateCall Caller × Bool))
    (key : String) : List Int :=
  (earlier.filter fun call => decide (keyOf call.1.caller = key) && call.2).map fun call =>
    call.1.now

def stored (limiter : RateLimiter) (key : String) : List Int :=
  (limiter.buckets.get key).elim [] RateBucket.timestamps

/-- The limiter knows of every key what the window can still need. -/
structure Remembers (keyOf : Caller → String) (earlier : List (RateCall Caller × Bool))
    (limiter : RateLimiter) (clock : Int) : Prop where
  retains : ∀ key, Retains id limiter.windowMs clock (allowedTimes keyOf earlier key)
    (limiter.stored key)
  touched : ∀ key bucket, limiter.buckets.get key = some bucket →
    ∀ timestamp ∈ bucket.timestamps, timestamp ≤ bucket.lastTouch
  ordered : earlier.Pairwise fun first second => first.1.now ≤ second.1.now
  past : ∀ call ∈ earlier, call.1.now ≤ clock

theorem stored_maybeSweep (limiter : RateLimiter) (now : Int) (key : String) :
    (limiter.maybeSweep now).stored key = limiter.stored key ∨
      (limiter.maybeSweep now).stored key = [] ∧ ∃ bucket,
        limiter.buckets.get key = some bucket ∧ bucket.lastTouch < now - limiter.windowMs := by
  unfold maybeSweep
  split
  · exact Or.inl rfl
  · unfold stored
    rw [get_deleteWhere]
    cases found : limiter.buckets.get key with
    | none => exact Or.inl rfl
    | some bucket =>
      by_cases idle : bucket.lastTouch < now - limiter.windowMs
      · exact Or.inr ⟨by simp [Option.filter, idle], bucket, rfl, idle⟩
      · exact Or.inl (by simp [Option.filter, idle])

@[simp] theorem maybeSweep_windowMs (limiter : RateLimiter) (now : Int) :
    (limiter.maybeSweep now).windowMs = limiter.windowMs := by
  unfold maybeSweep
  split <;> rfl

@[simp] theorem maybeSweep_maxCalls (limiter : RateLimiter) (now : Int) :
    (limiter.maybeSweep now).maxCalls = limiter.maxCalls := by
  unfold maybeSweep
  split <;> rfl

theorem Remembers.later (remembers : Remembers keyOf earlier limiter clock) (passed : clock ≤ now) :
    Remembers keyOf earlier limiter now where
  retains key := (remembers.retains key).later passed
  touched := remembers.touched
  ordered := remembers.ordered
  past call member := le_trans (remembers.past call member) passed

theorem Remembers.maybeSweep (remembers : Remembers keyOf earlier limiter now) :
    Remembers keyOf earlier (limiter.maybeSweep now) now where
  retains key := by
    rw [maybeSweep_windowMs]
    rcases stored_maybeSweep limiter now key with same | ⟨empty, bucket, found, idle⟩
    · rw [same]
      exact remembers.retains key
    · rw [empty]
      refine (remembers.retains key).forget fun timestamp member => ?_
      rw [stored, found] at member
      have bound := remembers.touched key bucket found timestamp member
      show timestamp ≤ now - limiter.windowMs
      omega
  touched key bucket found := by
    unfold RateLimiter.maybeSweep at found
    split at found
    · exact remembers.touched key bucket found
    · dsimp only at found
      rw [get_deleteWhere, Option.filter_eq_some_iff] at found
      exact remembers.touched key bucket found.1
  ordered := remembers.ordered
  past := remembers.past

theorem Remembers.recent (remembers : Remembers keyOf earlier limiter now) (key : String) :
    ((limiter.stored key).dropWhile fun timestamp =>
        decide (timestamp ≤ now - limiter.windowMs)) =
      (allowedTimes keyOf earlier key).filter fun timestamp =>
        decide (now - limiter.windowMs < timestamp) := by
  refine (remembers.retains key).recent_eq ?_
  rw [allowedTimes, List.pairwise_map]
  exact remembers.ordered.sublist List.filter_sublist

theorem allow_eq (limiter : RateLimiter) (key : String) (now : Int) :
    limiter.allow key now = (limiter.maybeSweep now).allowUnswept key now := by
  have sameWindow := maybeSweep_windowMs limiter now
  have sameCap := maybeSweep_maxCalls limiter now
  simp only [allow, allowUnswept, recent, sameWindow, sameCap]

theorem allowedTimes_denied (call : RateCall Caller) :
    allowedTimes keyOf (earlier ++ [(call, false)]) key = allowedTimes keyOf earlier key := by
  simp [allowedTimes]

theorem allowedTimes_allowed (call : RateCall Caller) :
    allowedTimes keyOf (earlier ++ [(call, true)]) key =
      if keyOf call.caller = key then allowedTimes keyOf earlier key ++ [call.now]
      else allowedTimes keyOf earlier key := by
  by_cases own : keyOf call.caller = key <;> simp [allowedTimes, own]

section

variable (remembers : Remembers keyOf earlier limiter now) (call : RateCall Caller)
    (callEq : call.now = now)
include remembers call callEq

theorem Remembers.store {verdict : Bool} {timestamps : List Int}
    (retains : Retains id limiter.windowMs now
      (allowedTimes keyOf (earlier ++ [(call, verdict)]) (keyOf call.caller)) timestamps)
    (bound : ∀ timestamp ∈ timestamps, timestamp ≤ now) :
    Remembers keyOf (earlier ++ [(call, verdict)])
      { limiter with buckets := limiter.buckets.set (keyOf call.caller) ⟨timestamps, now⟩ } now where
  retains key := by
    unfold stored
    rw [get_set]
    split
    · next own =>
        rw [own]
        exact retains
    · next other =>
        have same : allowedTimes keyOf (earlier ++ [(call, verdict)]) key =
            allowedTimes keyOf earlier key := by
          cases verdict with
          | false => exact allowedTimes_denied call
          | true => rw [allowedTimes_allowed, if_neg (Ne.symm other)]
        rw [same]
        exact remembers.retains key
  touched key bucket found := by
    rw [get_set] at found
    split at found
    · cases found
      exact bound
    · exact remembers.touched key bucket found
  ordered := by
    refine List.pairwise_append.mpr ⟨remembers.ordered, List.pairwise_singleton _ _, ?_⟩
    intro first member second isSecond
    obtain rfl := List.mem_singleton.mp isSecond
    have past := remembers.past first member
    show first.1.now ≤ call.now
    omega
  past other member := by
    rcases List.mem_append.mp member with old | new
    · exact remembers.past other old
    · obtain rfl := List.mem_singleton.mp new
      exact le_of_eq callEq

/-- One answer: the verdict counts the allowed calls under the key that are in
the window, and the limiter still knows what the window needs. -/
theorem Remembers.answer : (limiter.allowUnswept (keyOf call.caller) now).2 =
        decide ((((allowedTimes keyOf earlier (keyOf call.caller)).filter fun timestamp =>
          decide (now - limiter.windowMs < timestamp)).length : Int) < limiter.maxCalls) ∧
      Remembers keyOf (earlier ++ [(call, (limiter.allowUnswept (keyOf call.caller) now).2)])
        (limiter.allowUnswept (keyOf call.caller) now).1 now := by
  have recent := remembers.recent (keyOf call.caller)
  have kept := (remembers.retains (keyOf call.caller)).expire
  have keptEq : ((limiter.stored (keyOf call.caller)).dropWhile fun timestamp =>
      decide (id timestamp ≤ now - limiter.windowMs)) =
        (allowedTimes keyOf earlier (keyOf call.caller)).filter fun timestamp =>
          decide (now - limiter.windowMs < timestamp) := recent
  rw [keptEq] at kept
  have bound : ∀ timestamp ∈ (allowedTimes keyOf earlier (keyOf call.caller)).filter fun timestamp =>
      decide (now - limiter.windowMs < timestamp), timestamp ≤ now := by
    intro timestamp member
    obtain ⟨other, isOther, rfl⟩ := List.mem_map.mp (List.mem_of_mem_filter member)
    exact remembers.past other (List.mem_of_mem_filter isOther)
  unfold allowUnswept
  rw [show (limiter.buckets.get (keyOf call.caller)).elim [] RateBucket.timestamps =
    limiter.stored (keyOf call.caller) from rfl, recent]
  generalize (allowedTimes keyOf earlier (keyOf call.caller)).filter (fun timestamp =>
    decide (now - limiter.windowMs < timestamp)) = timestamps at kept bound
  by_cases full : limiter.maxCalls ≤ timestamps.length
  · rw [if_pos full]
    refine ⟨(decide_eq_false (by omega)).symm, remembers.store call callEq ?_ bound⟩
    rw [allowedTimes_denied]
    exact kept
  · rw [if_neg full]
    refine ⟨(decide_eq_true (by omega)).symm, remembers.store call callEq ?_ ?_⟩
    · rw [allowedTimes_allowed, if_pos rfl, callEq]
      exact kept.snoc
    · intro timestamp member
      rcases List.mem_append.mp member with old | new
      · exact bound timestamp old
      · exact le_of_eq (List.mem_singleton.mp new)

end

theorem remembers_new (windowMs maxCalls : Int) (clock : Int) :
    Remembers keyOf ([] : List (RateCall Caller × Bool)) (new windowMs maxCalls) clock where
  retains key := by
    have empty : (new windowMs maxCalls).stored key = [] := by
      rfl
    exact retains_nil
  touched key bucket found := by
    cases found
  ordered := .nil
  past := List.forall_mem_nil _

end

section

variable [DecidableEq Caller] {keyOf : Caller → String} {limiter : RateLimiter} {clock : Int}
  {earlier : List (RateCall Caller × Bool)} {calls : List (RateCall Caller)}

theorem length_recent {windowMs : Int} {call : RateCall Caller}
    (past : ∀ other ∈ earlier, other.1.now ≤ call.now)
    (apart : ∀ other ∈ earlier, keyOf other.1.caller = keyOf call.caller →
      other.1.caller = call.caller) :
    ((allowedTimes keyOf earlier (keyOf call.caller)).filter fun timestamp =>
        decide (call.now - windowMs < timestamp)).length =
      (callsInWindow windowMs earlier call).length := by
  rw [allowedTimes, List.filter_map, List.length_map, List.filter_filter]
  refine congrArg List.length (List.filter_congr fun other member => ?_)
  have passed := past other member
  by_cases own : other.1.caller = call.caller
  · simp [own, passed, Bool.and_comm]
  · have otherKey : keyOf other.1.caller ≠ keyOf call.caller :=
    fun same => own (apart other member same)
    simp [own, otherKey]

theorem judge_eq_windowLaw (allow : RateLimiter → String → Int → RateLimiter × Bool)
    (answers : ∀ earlier limiter (call : RateCall Caller),
    Remembers keyOf earlier limiter call.now → (allow limiter (keyOf call.caller) call.now).2 =
          decide ((((allowedTimes keyOf earlier (keyOf call.caller)).filter fun timestamp =>
            decide (call.now - limiter.windowMs < timestamp)).length : Int) < limiter.maxCalls) ∧
        Remembers keyOf (earlier ++ [(call, (allow limiter (keyOf call.caller) call.now).2)])
          (allow limiter (keyOf call.caller) call.now).1 call.now)
    (same : ∀ limiter key now, (allow limiter key now).1.windowMs = limiter.windowMs ∧
      (allow limiter key now).1.maxCalls = limiter.maxCalls)
    (remembers : Remembers keyOf earlier limiter clock)
    (ordered : Ordered calls) (passed : ∀ call ∈ calls, clock ≤ call.now)
    (unambiguous : Unambiguous keyOf (earlier.map Prod.fst ++ calls)) :
    judge allow keyOf limiter calls =
      windowLaw limiter.windowMs limiter.maxCalls earlier calls := by
  induction calls generalizing earlier limiter clock with
  | nil => rfl
  | cons call calls ih =>
    obtain ⟨first, rest⟩ := List.pairwise_cons.mp ordered
    have now := remembers.later (passed call List.mem_cons_self)
    obtain ⟨verdict, after⟩ := answers earlier limiter call now
    have apart : ∀ other ∈ earlier, keyOf other.1.caller = keyOf call.caller →
        other.1.caller = call.caller := by
      intro other member
      refine unambiguous other.1 ?_ call ?_
      · exact List.mem_append_left _ (List.mem_map_of_mem member)
      · exact List.mem_append_right _ List.mem_cons_self
    rw [length_recent now.past apart] at verdict
    obtain ⟨sameWindow, sameCap⟩ := same limiter (keyOf call.caller) call.now
    have unambiguousAfter : Unambiguous keyOf
        ((earlier ++ [(call, (allow limiter (keyOf call.caller) call.now).2)]).map Prod.fst ++
          calls) := by
      simpa using unambiguous
    rw [judge, windowLaw, ih after rest first unambiguousAfter, sameWindow, sameCap, verdict]

theorem allowUnswept_same (limiter : RateLimiter) (key : String) (now : Int) :
    (limiter.allowUnswept key now).1.windowMs = limiter.windowMs ∧
      (limiter.allowUnswept key now).1.maxCalls = limiter.maxCalls := by
  unfold allowUnswept
  dsimp only
  split <;> exact ⟨rfl, rfl⟩

theorem windowLaw_filter (windowMs maxCalls : Int) (caller : Caller) :
    ((windowLaw windowMs maxCalls earlier calls).filter fun call =>
        decide (call.1.caller = caller)) =
      windowLaw windowMs maxCalls (earlier.filter fun call => decide (call.1.caller = caller))
        (calls.filter fun call => decide (call.caller = caller)) := by
  induction calls generalizing earlier with
  | nil => rfl
  | cons call calls ih =>
    by_cases own : call.caller = caller
    · have counted : callsInWindow windowMs
          (earlier.filter fun call => decide (call.1.caller = caller)) call =
            callsInWindow windowMs earlier call := by
        rw [callsInWindow, callsInWindow, List.filter_filter]
        refine List.filter_congr fun other _ => ?_
        by_cases same : other.1.caller = call.caller
        · simp [same, own]
        · simp [same]
      rw [windowLaw, List.filter_cons_of_pos (by simpa using own),
        List.filter_cons_of_pos (by simpa using own), windowLaw, counted, ih,
        List.filter_append, List.filter_cons_of_pos (by simpa using own), List.filter_nil]
    · rw [windowLaw, List.filter_cons_of_neg (by simpa using own),
        List.filter_cons_of_neg (by simpa using own), ih, List.filter_append,
        List.filter_cons_of_neg (by simpa using own), List.filter_nil, List.append_nil]

theorem judge_new (allow : RateLimiter → String → Int → RateLimiter × Bool)
    (answers : ∀ earlier limiter (call : RateCall Caller),
    Remembers keyOf earlier limiter call.now → (allow limiter (keyOf call.caller) call.now).2 =
          decide ((((allowedTimes keyOf earlier (keyOf call.caller)).filter fun timestamp =>
            decide (call.now - limiter.windowMs < timestamp)).length : Int) < limiter.maxCalls) ∧
        Remembers keyOf (earlier ++ [(call, (allow limiter (keyOf call.caller) call.now).2)])
          (allow limiter (keyOf call.caller) call.now).1 call.now)
    (same : ∀ limiter key now, (allow limiter key now).1.windowMs = limiter.windowMs ∧
      (allow limiter key now).1.maxCalls = limiter.maxCalls)
    (windowMs maxCalls : Int) (ordered : Ordered calls) (unambiguous : Unambiguous keyOf calls) :
    judge allow keyOf (new windowMs maxCalls) calls = windowLaw windowMs maxCalls [] calls := by
  cases calls with
  | nil => rfl
  | cons call calls =>
    have passed : ∀ other ∈ call :: calls, call.now ≤ other.now := by
      intro other member
      rcases List.mem_cons.mp member with rfl | later
      · exact le_refl _
      · exact (List.pairwise_cons.mp ordered).1 other later
    exact judge_eq_windowLaw allow answers same (remembers_new windowMs maxCalls call.now) ordered
      passed unambiguous

variable (windowMs maxCalls : Int) (ordered : Ordered calls) (unambiguous : Unambiguous keyOf calls)
include windowMs maxCalls ordered unambiguous

theorem judge_allow : judge allow keyOf (new windowMs maxCalls) calls =
      windowLaw windowMs maxCalls [] calls := by
  refine judge_new allow ?_ ?_ windowMs maxCalls ordered unambiguous
  · intro earlier limiter call remembers
    have sameWindow := maybeSweep_windowMs limiter call.now
    have sameCap := maybeSweep_maxCalls limiter call.now
    have answered := remembers.maybeSweep.answer call rfl
    rw [← allow_eq, sameWindow, sameCap] at answered
    exact answered
  · intro limiter key now
    obtain ⟨sameWindow, sameCap⟩ := allowUnswept_same (limiter.maybeSweep now) key now
    rw [allow_eq, sameWindow, sameCap, maybeSweep_windowMs, maybeSweep_maxCalls]
    exact ⟨rfl, rfl⟩

theorem exactWindow_new : ExactWindow keyOf (new windowMs maxCalls) calls where
  law := judge_allow windowMs maxCalls ordered unambiguous
  unswept := by
    have unswept := judge_new allowUnswept (fun _ _ call remembers => remembers.answer call rfl)
      allowUnswept_same windowMs maxCalls ordered unambiguous
    rw [judge_allow windowMs maxCalls ordered unambiguous, unswept]
  apart caller := by
    have chosen : (calls.filter fun call => decide (call.caller = caller)).Sublist calls :=
      List.filter_sublist
    have orderedPart : Ordered (calls.filter fun call => decide (call.caller = caller)) :=
      ordered.sublist chosen
    have unambiguousPart : Unambiguous keyOf
        (calls.filter fun call => decide (call.caller = caller)) :=
      fun first isFirst second isSecond => unambiguous first (chosen.subset isFirst) second
        (chosen.subset isSecond)
    rw [judge_allow windowMs maxCalls ordered unambiguous, windowLaw_filter, List.filter_nil,
      judge_allow windowMs maxCalls orderedPart unambiguousPart]

end

def telemetryKeyOf (caller : String × String) : String :=
  telemetryKey caller.1 caller.2

theorem telemetryKey_injective {peerId otherPeerId skill otherSkill : String}
    (plain : '\x00' ∉ peerId.toList) (otherPlain : '\x00' ∉ otherPeerId.toList)
    (same : telemetryKey peerId skill = telemetryKey otherPeerId otherSkill) :
    peerId = otherPeerId ∧ skill = otherSkill := by
  have spelled (peer name : String) (unbroken : '\x00' ∉ peer.toList) :
      (telemetryKey peer name).toList.takeWhile (· ≠ '\x00') = peer.toList := by
    have keyEq : (telemetryKey peer name).toList = peer.toList ++ '\x00' :: name.toList := by
      simp [telemetryKey]
    have all : ∀ char ∈ peer.toList, decide (char ≠ '\x00') := by
      intro char member
      refine decide_eq_true fun nul => unbroken ?_
      rwa [← nul]
    rw [keyEq, List.takeWhile_append_of_pos all, List.takeWhile_cons_of_neg (by simp),
      List.append_nil]
  have peers : peerId.toList = otherPeerId.toList := by
    rw [← spelled peerId skill plain, same, spelled otherPeerId otherSkill otherPlain]
  obtain rfl := String.toList_inj.mp peers
  refine ⟨rfl, ?_⟩
  exact (String.append_right_inj _).mp same

theorem unambiguous_of_plain {calls : List (RateCall (String × String))}
    (plain : ∀ call ∈ calls, '\x00' ∉ call.caller.1.toList) : Unambiguous telemetryKeyOf calls := by
  intro first isFirst second isSecond same
  obtain ⟨peers, skills⟩ := telemetryKey_injective (plain first isFirst)
    (plain second isSecond) same
  exact Prod.ext peers skills

/-- The peer limiter is an exact sliding window for every caller, and the
telemetry limiter is one for every peer and skill as long as no two of the
callers share a key. -/
theorem rate_limiters_exact (peerConfig : PeerRateLimitConfig) (config : TelemetryRateLimitConfig) :
    (∀ (limiter : RateLimiter) (calls : List (RateCall String)),
      peerRateLimiter peerConfig = .ok limiter → Ordered calls → ExactWindow id limiter calls) ∧
    ∀ calls : List (RateCall (String × String)), Ordered calls → Unambiguous telemetryKeyOf calls →
        ExactWindow telemetryKeyOf (.new config.windowMs config.maxCalls) calls := by
  constructor
  · intro limiter calls made ordered
    unfold peerRateLimiter at made
    split at made
    · cases made
      exact exactWindow_new _ _ ordered fun _ _ _ _ same => same
    · cases made
  · intro calls ordered unambiguous
    exact exactWindow_new _ _ ordered unambiguous

def plainCalls : List (RateCall (String × String)) :=
  [⟨("a", "s"), 0⟩, ⟨("b", "s"), 1⟩, ⟨("a", "s"), 2⟩]

theorem rate_limiters_exact_plain :
    ExactWindow id (.new 60000 30) [(⟨"a", 0⟩ : RateCall String), ⟨"b", 1⟩] ∧
      ExactWindow telemetryKeyOf (.new 1000 10) plainCalls := by
  obtain ⟨peers, telemetry⟩ := rate_limiters_exact defaultPeerRateLimit defaultTelemetryRateLimit
  refine ⟨peers _ _ rfl ?_, telemetry plainCalls ?_ ?_⟩
  · simp [Ordered]
  · simp [Ordered, plainCalls]
  · exact unambiguous_of_plain (by decide)

/-- Two peers with one key share a budget. -/
theorem rate_limiters_shared_key :
    ¬∀ (config : TelemetryRateLimitConfig) (calls : List (RateCall (String × String))),
      0 < config.windowMs → 0 < config.maxCalls → Ordered calls →
        ExactWindow telemetryKeyOf (.new config.windowMs config.maxCalls) calls := by
  intro exact
  have window := exact ⟨1000, 1⟩ [⟨("a", "b\x00c"), 0⟩, ⟨("a\x00b", "c"), 0⟩] (by decide)
    (by decide) (by simp [Ordered])
  have law := window.law
  revert law
  decide +kernel

end RateLimiter

end P2PHub
