import P2PHub.InsertionOrderedMap
import P2PHub.JavaScriptValues

/-!
# The sliding-window rate limiters of the task broker

`PeerRateLimiter` and `TelemetryRateLimiter` after
`core/src/task-broker/peer-rate-limiter.ts` and `telemetry-rate-limiter.ts`:
one algorithm on buckets of timestamps, under keys of their own.
-/

namespace P2PHub

structure RateBucket where
  timestamps : List Int
  lastTouch : Int
  deriving DecidableEq

/-- `maxCalls` is the `maxTasks` of a peer limiter. -/
structure RateLimiter where
  windowMs : Int
  maxCalls : Int
  buckets : OrderedMap String RateBucket
  lastSweep : Int

namespace RateLimiter

def new (windowMs maxCalls : Int) : RateLimiter where
  windowMs := windowMs
  maxCalls := maxCalls
  buckets := .empty
  lastSweep := 0

def maybeSweep (limiter : RateLimiter) (now : Int) : RateLimiter :=
  if now - limiter.lastSweep < limiter.windowMs then limiter
  else
    { limiter with
      lastSweep := now
      buckets := limiter.buckets.deleteWhere fun _ bucket =>
        decide (bucket.lastTouch < now - limiter.windowMs) }

/-- The timestamps under a key that are still in the window at `now`. -/
def recent (limiter : RateLimiter) (key : String) (now : Int) : List Int :=
  (((limiter.maybeSweep now).buckets.get key).elim [] RateBucket.timestamps).dropWhile
    fun timestamp => decide (timestamp ≤ now - limiter.windowMs)

def allow (limiter : RateLimiter) (key : String) (now : Int) : RateLimiter × Bool :=
  let swept := limiter.maybeSweep now
  let timestamps := limiter.recent key now
  if limiter.maxCalls ≤ timestamps.length then
    ({ swept with buckets := swept.buckets.set key ⟨timestamps, now⟩ }, false)
  else
    ({ swept with buckets := swept.buckets.set key ⟨timestamps ++ [now], now⟩ }, true)

def HasRoom (limiter : RateLimiter) (key : String) (now : Int) : Prop :=
  (limiter.recent key now).length < limiter.maxCalls

theorem allow_eq_true {limiter : RateLimiter} {key : String} {now : Int} :
    (limiter.allow key now).2 ↔ limiter.HasRoom key now := by
  unfold allow HasRoom
  by_cases full : limiter.maxCalls ≤ (limiter.recent key now).length
  · simp [full]
  · simp only [full, if_false, true_iff]
    omega

end RateLimiter

def telemetryKey (peerId skill : String) : String :=
  peerId ++ "\x00" ++ skill

structure PeerRateLimitConfig where
  windowMs : JsNumber
  maxTasks : JsNumber

def defaultPeerRateLimit : PeerRateLimitConfig where
  windowMs := .integer 60000
  maxTasks := .integer 30

def peerRateLimiter (config : PeerRateLimitConfig) : Except String RateLimiter :=
  match config.windowMs.positive?, config.maxTasks.positive? with
  | some windowMs, some maxTasks => .ok (.new windowMs.val maxTasks.val)
  | _, _ =>
    .error "invalid peer rate limit config: windowMs and maxTasks must be positive integers"

structure TelemetryRateLimitConfig where
  windowMs : Int
  maxCalls : Int

def defaultTelemetryRateLimit : TelemetryRateLimitConfig where
  windowMs := 1000
  maxCalls := 10

def peerRateLimitMessage (peerId : String) : String :=
  "peer \"" ++ peerId ++ "\" exceeded the per-minute network task budget"

def telemetryRateLimitMessage (peerId skill : String) : String :=
  "telemetry rate limit exceeded for peer \"" ++ peerId ++ "\" on skill \"" ++ skill ++ "\""

end P2PHub
