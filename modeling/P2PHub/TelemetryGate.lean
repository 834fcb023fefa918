import P2PHub.InsertionOrderedMap
import P2PHub.JavaScriptValues
import Mathlib.Algebra.GroupWithZero.Nat

/-!
# The streaming frequency gate

A per-peer, per-channel sliding-window budget on messages and bytes, with a
cooldown for a channel that keeps overflowing, after
`core/src/security/telemetry-gate.ts`.  Every method takes the reading of the
gate's clock that it uses.
-/

namespace P2PHub

/-- A validated per-window configuration. -/
structure StreamRateConfig where
  windowMs : Nat
  maxMessagesPerSecond : Nat
  maxBytesPerSecond : Nat
  windowMs_pos : 0 < windowMs
  maxMessagesPerSecond_pos : 0 < maxMessagesPerSecond
  maxBytesPerSecond_pos : 0 < maxBytesPerSecond
  deriving DecidableEq

/-- `Partial<StreamRateConfig>`: the fields a caller sets. -/
structure StreamRateOptions where
  windowMs : Option JsNumber := none
  maxMessagesPerSecond : Option JsNumber := none
  maxBytesPerSecond : Option JsNumber := none

def defaultStreamRateConfig : StreamRateConfig where
  windowMs := 1000
  maxMessagesPerSecond := 60
  maxBytesPerSecond := 1048576
  windowMs_pos := by decide
  maxMessagesPerSecond_pos := by decide
  maxBytesPerSecond_pos := by decide

inductive StreamDenyReason
  | messageCap
  | byteCap
  | streamViolation
  deriving DecidableEq, Repr

inductive StreamCheckResult
  | allowed
  | denied (reason : StreamDenyReason)
  deriving DecidableEq, Repr

inductive GateError
  | invalidConfig (label : String)
  | invalidByteSize (byteSize : JsNumber)
  | peerStreamViolation (peerId channelId : String)
  deriving DecidableEq

def GateError.message : GateError → String
  | invalidConfig label =>
    label ++ ": windowMs, maxMessagesPerSecond and maxBytesPerSecond must be positive integers"
  | invalidByteSize byteSize =>
    "byteSize must be a non-negative integer, got " ++ byteSize.text
  | peerStreamViolation peerId channelId =>
    "peer \"" ++ peerId ++ "\" sustained >2x the telemetry message cap on channel \""
      ++ channelId ++ "\""

/-- A frame that was allowed; `time` is the source's `at`. -/
structure StreamEntry where
  time : Int
  bytes : Nat
  deriving DecidableEq, Repr

structure StreamBucket where
  config : StreamRateConfig
  entries : List StreamEntry
  denials : Nat
  pinchedUntil : Int
  lastTouch : Int

structure TelemetryGate where
  defaultConfig : StreamRateConfig
  buckets : OrderedMap String StreamBucket
  lastSweep : Int

/-- The key that a gate and a hub give to a peer and a channel or id. -/
def keyFor (peerId channelId : String) : String :=
  peerId ++ "\x00" ++ channelId

/-- The spread of a base configuration and the caller's fields, validated. -/
def validateConfig (base : StreamRateConfig) (config : StreamRateOptions) (label : String) :
    Except GateError StreamRateConfig :=
  let windowMs := config.windowMs.getD (.integer base.windowMs)
  let maxMessages := config.maxMessagesPerSecond.getD (.integer base.maxMessagesPerSecond)
  let maxBytes := config.maxBytesPerSecond.getD (.integer base.maxBytesPerSecond)
  match windowMs.positive?, maxMessages.positive?, maxBytes.positive? with
  | some windowMs, some maxMessages, some maxBytes =>
    .ok
      { windowMs := windowMs.val
        maxMessagesPerSecond := maxMessages.val
        maxBytesPerSecond := maxBytes.val
        windowMs_pos := windowMs.property
        maxMessagesPerSecond_pos := maxMessages.property
        maxBytesPerSecond_pos := maxBytes.property }
  | _, _, _ => .error (.invalidConfig label)

namespace StreamBucket

def fresh (config : StreamRateConfig) (now : Int) : StreamBucket where
  config := config
  entries := []
  denials := 0
  pinchedUntil := 0
  lastTouch := now

/-- An expired cooldown reopens the channel on a clean slate. -/
def reopen (bucket : StreamBucket) (now : Int) : StreamBucket :=
  if bucket.pinchedUntil ≠ 0 ∧ bucket.pinchedUntil ≤ now then
    { bucket with pinchedUntil := 0, denials := 0 }
  else bucket

def expire (bucket : StreamBucket) (now : Int) : StreamBucket :=
  { bucket with
    entries := bucket.entries.dropWhile fun entry =>
      decide (entry.time ≤ now - bucket.config.windowMs)
    lastTouch := now }

def deny (bucket : StreamBucket) (peerId channelId : String) (now : Int)
    (reason : StreamDenyReason) : StreamBucket × Except GateError StreamCheckResult :=
  let denials := bucket.denials + 1
  if denials > bucket.config.maxMessagesPerSecond * 2 then
    ({ bucket with denials := denials, pinchedUntil := now + bucket.config.windowMs * 2 },
      .error (.peerStreamViolation peerId channelId))
  else
    ({ bucket with denials := denials }, .ok (.denied reason))

/-- The budget check of a channel that is not pinched, after `reopen` and
`expire`. -/
def spend (bucket : StreamBucket) (peerId channelId : String) (now : Int) (byteSize : Nat) :
    StreamBucket × Except GateError StreamCheckResult :=
  if byteSize > bucket.config.maxBytesPerSecond then
    bucket.deny peerId channelId now .byteCap
  else if bucket.entries.length ≥ bucket.config.maxMessagesPerSecond then
    bucket.deny peerId channelId now .messageCap
  else if (bucket.entries.map StreamEntry.bytes).sum + byteSize >
      bucket.config.maxBytesPerSecond then
    bucket.deny peerId channelId now .byteCap
  else
    ({ bucket with
        denials := 0
        entries := bucket.entries ++ [⟨now, byteSize⟩] }, .ok .allowed)

def consume (bucket : StreamBucket) (peerId channelId : String) (now : Int) (byteSize : Nat) :
    StreamBucket × Except GateError StreamCheckResult :=
  if bucket.pinchedUntil > now then
    ({ bucket with lastTouch := now }, .ok (.denied .streamViolation))
  else
    ((bucket.reopen now).expire now).spend peerId channelId now byteSize

@[simp] theorem reopen_config (bucket : StreamBucket) (now : Int) :
    (bucket.reopen now).config = bucket.config := by
  unfold reopen
  split <;> rfl

@[simp] theorem reopen_entries (bucket : StreamBucket) (now : Int) :
    (bucket.reopen now).entries = bucket.entries := by
  unfold reopen
  split <;> rfl

@[simp] theorem deny_config (bucket : StreamBucket) (peerId channelId : String) (now : Int)
    (reason : StreamDenyReason) :
    (bucket.deny peerId channelId now reason).1.config = bucket.config := by
  unfold deny
  dsimp only
  split <;> rfl

@[simp] theorem deny_entries (bucket : StreamBucket) (peerId channelId : String) (now : Int)
    (reason : StreamDenyReason) :
    (bucket.deny peerId channelId now reason).1.entries = bucket.entries := by
  unfold deny
  dsimp only
  split <;> rfl

@[simp] theorem deny_lastTouch (bucket : StreamBucket) (peerId channelId : String) (now : Int)
    (reason : StreamDenyReason) :
    (bucket.deny peerId channelId now reason).1.lastTouch = bucket.lastTouch := by
  unfold deny
  dsimp only
  split <;> rfl

theorem deny_not_allowed (bucket : StreamBucket) (peerId channelId : String) (now : Int)
    (reason : StreamDenyReason) : (bucket.deny peerId channelId now reason).2 ≠ .ok .allowed := by
  unfold deny
  dsimp only
  split <;> simp

end StreamBucket

namespace TelemetryGate

def new (config : StreamRateOptions) : Except GateError TelemetryGate := do
  let merged ← validateConfig defaultStreamRateConfig config "telemetry gate"
  return { defaultConfig := merged, buckets := .empty, lastSweep := 0 }

def registerStream (gate : TelemetryGate) (peerId channelId : String)
    (config : StreamRateOptions) (now : Int) : Except GateError TelemetryGate := do
  let merged ← validateConfig gate.defaultConfig config ("stream " ++ keyFor peerId channelId)
  return { gate with
    buckets := gate.buckets.set (keyFor peerId channelId) (.fresh merged now) }

def closeStream (gate : TelemetryGate) (peerId channelId : String) : TelemetryGate :=
  { gate with buckets := gate.buckets.delete (keyFor peerId channelId) }

def reset (gate : TelemetryGate) : TelemetryGate :=
  { gate with buckets := gate.buckets.clear }

variable {gate : TelemetryGate} {peerId channelId : String} {now : Int} {byteSize : JsNumber}
  {bytes : Nat}

theorem registerStream_eq_ok {after : TelemetryGate} {config : StreamRateOptions}
    (registered : gate.registerStream peerId channelId config now = .ok after) :
    ∃ merged, validateConfig gate.defaultConfig config
        ("stream " ++ keyFor peerId channelId) = .ok merged ∧ after = { gate with
        buckets := gate.buckets.set (keyFor peerId channelId) (.fresh merged now) } := by
  unfold registerStream at registered
  cases validated : validateConfig gate.defaultConfig config
      ("stream " ++ keyFor peerId channelId) with
  | error failure =>
    rw [validated] at registered
    cases registered
  | ok merged =>
    rw [validated] at registered
    exact ⟨merged, rfl, (Except.ok.inj registered).symm⟩

def SweepDue (gate : TelemetryGate) (now : Int) : Prop :=
  gate.defaultConfig.windowMs ≤ now - gate.lastSweep

instance (gate : TelemetryGate) (now : Int) : Decidable (gate.SweepDue now) :=
  inferInstanceAs (Decidable (_ ≤ _))

/-- The lazy sweep measures silence against the default window. -/
def maybeSweep (gate : TelemetryGate) (now : Int) : TelemetryGate :=
  if gate.SweepDue now then
    { gate with
      lastSweep := now
      buckets := gate.buckets.deleteWhere fun _ bucket =>
        decide (bucket.lastTouch < now - gate.defaultConfig.windowMs) }
  else gate

/-- The bucket that a check at `now` consults: the one that survives the
sweep, or a fresh one on the default budget. -/
def bucketFor (gate : TelemetryGate) (key : String) (now : Int) : StreamBucket :=
  ((gate.maybeSweep now).buckets.get key).getD (.fresh gate.defaultConfig now)

def checkAndConsume (gate : TelemetryGate) (peerId channelId : String) (byteSize : JsNumber)
    (now : Int) : TelemetryGate × Except GateError StreamCheckResult :=
  match byteSize.natural? with
  | none => (gate, .error (.invalidByteSize byteSize))
  | some bytes =>
    let swept := gate.maybeSweep now
    let key := keyFor peerId channelId
    let (bucket, result) := (gate.bucketFor key now).consume peerId channelId now bytes
    ({ swept with buckets := swept.buckets.set key bucket }, result)

@[simp] theorem maybeSweep_defaultConfig (gate : TelemetryGate) (now : Int) :
    (gate.maybeSweep now).defaultConfig = gate.defaultConfig := by
  unfold maybeSweep
  split <;> rfl

/-- The sweep removes exactly the buckets silent for more than a default
window. -/
theorem maybeSweep_get (gate : TelemetryGate) (now : Int) (key : String) :
    (gate.maybeSweep now).buckets.get key = (gate.buckets.get key).filter fun bucket =>
        !decide (gate.SweepDue now ∧ bucket.lastTouch < now - gate.defaultConfig.windowMs) := by
  unfold maybeSweep
  split
  · next due => simp [due]
  · next notDue =>
      cases gate.buckets.get key with
      | none => rfl
      | some bucket => simp [Option.filter, notDue]

@[simp] theorem checkAndConsume_defaultConfig (gate : TelemetryGate) (peerId channelId : String)
    (byteSize : JsNumber) (now : Int) :
    (gate.checkAndConsume peerId channelId byteSize now).1.defaultConfig = gate.defaultConfig := by
  unfold checkAndConsume
  cases byteSize.natural? <;> simp

variable (valid : byteSize.natural? = some bytes)
include valid

theorem checkAndConsume_get_of_ne {key : String} (apart : key ≠ keyFor peerId channelId) :
    (gate.checkAndConsume peerId channelId byteSize now).1.buckets.get key =
      (gate.maybeSweep now).buckets.get key := by
  simp [checkAndConsume, valid, apart]

theorem checkAndConsume_get_self :
    (gate.checkAndConsume peerId channelId byteSize now).1.buckets.get (keyFor peerId channelId) =
      some ((gate.bucketFor (keyFor peerId channelId) now).consume peerId channelId now
        bytes).1 := by
  simp [checkAndConsume, valid]

theorem checkAndConsume_result : (gate.checkAndConsume peerId channelId byteSize now).2 =
      ((gate.bucketFor (keyFor peerId channelId) now).consume peerId channelId now bytes).2 := by
  simp [checkAndConsume, valid]

end TelemetryGate

end P2PHub
