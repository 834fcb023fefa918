import P2PHub.BoundaryGuard
import P2PHub.RateLimiters
import P2PHub.RemoteAccess

/-!
# The task broker

Registration of skills and dispatch of local, HTTP and network tasks, after
`core/src/task-broker/task-broker.ts`.  `execute` is cut at its awaits; the
answers of the injected gates, the readings of the clock and what handlers do
come with the labels.  A handler is known by a number.
-/

namespace P2PHub

inductive CapabilityType
  | action
  | telemetry
  deriving DecidableEq, Repr

/-- `capabilityType` is `none` also for an unknown value. -/
structure SkillRegistrationOptions where
  localOnly : Option Bool := none
  httpExposed : Option Bool := none
  httpBridgeOnly : Bool := false
  remote : Option RemoteAccessPolicy := none
  capabilityType : Option CapabilityType := none

/-- A registered skill, with what registration guarantees of it. -/
structure SkillRecord where
  handler : Nat
  localOnly : Bool
  httpExposed : Bool
  httpBridgeOnly : Bool
  remote : Option RemoteAccessPolicy
  capabilityType : CapabilityType
  validated : ∀ policy, remote = some policy → validateRemotePolicy policy = .ok ()
  bridged : httpBridgeOnly = true → localOnly = true ∧ httpExposed = true ∧ remote = none

/-- The readonly fields of a broker.  Of the agent gate and the approval gate
they say whether one is injected. -/
structure BrokerSettings where
  maxConcurrentTasks : Nat
  peerAccessContext : Option PeerAccessContext
  agentGate : Bool
  taskApprovalGate : Bool

/-- The fields that change.  `peerSkillGate` says whether a permission matrix
is installed. -/
structure TaskBroker where
  skills : OrderedMap String SkillRecord
  peerSkillGate : Bool
  telemetryRateLimiter : RateLimiter
  peerRateLimiter : RateLimiter
  activeTasks : Int

structure TaskBrokerOptions where
  maxConcurrentTasks : Option JsNumber := none
  peerAccessContext : Option PeerAccessContext := none
  agentGate : Bool := false
  peerSkillGate : Bool := false
  taskApprovalGate : Bool := false
  telemetryRateLimit : Option TelemetryRateLimitConfig := none
  peerRateLimit : Option PeerRateLimitConfig := none

def defaultMaxConcurrentTasks : Nat := 100

def anonymousPeerKey : String := "<anonymous>"

structure TaskRequest where
  id : String
  skill : String
  payload : JsValue
  peerId : Option String

inductive TaskStatus
  | ok
  | error
  deriving DecidableEq, Repr

structure TaskResult where
  taskId : String
  status : TaskStatus
  result : Option JsValue := none
  error : Option String := none
  code : Option String := none

/-- The surface through which a task came in. -/
inductive CallGate
  | inProcess
  | network
  | http
  deriving DecidableEq, Repr

inductive TaskInitiator
  | operator
  | agent
  deriving DecidableEq, Repr

structure SkillInvocationContext where
  peerId : Option String
  initiatedBy : Option TaskInitiator := none
  agentLabel : Option String := none
  deriving DecidableEq, Repr

structure AgentTaskApprovalRequest where
  taskId : String
  skill : String
  agentLabel : String
  peerId : String
  deriving DecidableEq, Repr

/-- The results with which a task is turned away before the guarded section. -/
inductive Denial
  | unknownSkill
  | localOnly
  | matrix
  | policy
  | telemetryRateLimit (peerKey : String)
  | peerRateLimit (peerKey : String)
  | httpNotExposed
  | capacity (maxConcurrentTasks : Nat)
  deriving DecidableEq, Repr

/-- A denial by the registration flags, the permission matrix or the remote
policy. -/
def Denial.ofPolicy : Denial → Bool
  | unknownSkill | localOnly | matrix | policy => true
  | telemetryRateLimit _ | peerRateLimit _ | httpNotExposed | capacity _ => false

def Denial.message (task : TaskRequest) : Denial → String
  | unknownSkill => "no skill registered for \"" ++ task.skill ++ "\""
  | localOnly => "skill \"" ++ task.skill ++ "\" is local-only and not network-accessible"
  | matrix =>
    "skill \"" ++ task.skill ++ "\" is not allowed for this peer by the permission matrix"
  | policy => "skill \"" ++ task.skill ++ "\" is not authorized for this remote peer"
  | telemetryRateLimit peerKey => telemetryRateLimitMessage peerKey task.skill
  | peerRateLimit peerKey => peerRateLimitMessage peerKey
  | httpNotExposed => "skill \"" ++ task.skill ++ "\" is not exposed over the HTTP bridge"
  | capacity maxConcurrentTasks =>
    "broker at capacity (" ++ toString maxConcurrentTasks ++ " concurrent tasks)"

def Denial.code : Denial → Option String
  | matrix => some "access-denied"
  | telemetryRateLimit _ => some "telemetry-rate-limit"
  | peerRateLimit _ => some "peer-rate-limit"
  | _ => none

def Denial.result (task : TaskRequest) (denial : Denial) : TaskResult where
  taskId := task.id
  status := .error
  error := some (denial.message task)
  code := denial.code

/-- How `evaluateRemotePolicy` ends. -/
inductive Verdict
  | allowed
  | refused
  | telemetryExceeded (peerKey : String)
  deriving DecidableEq, Repr

/-- Where a call of `execute` is suspended. -/
inductive BrokerPhase
  | resolvingAgent (record : SkillRecord)
  | checkingMatrix (record : SkillRecord) (agentLabel : Option String)
  | evaluatingGates (record : SkillRecord) (policy : RemoteAccessPolicy)
      (agentLabel : Option String)
  | approving (record : SkillRecord) (policy : RemoteAccessPolicy) (agentLabel : String)
  | decided (record : SkillRecord) (agentLabel : Option String) (verdict : Verdict)
  | running
  | settled (result : TaskResult)
  | rejected

structure BrokerCall where
  gate : CallGate
  task : TaskRequest
  phase : BrokerPhase

/-- What a handler does before it returns its promise. -/
inductive HandlerStart
  | pending
  | threw (thrown : Thrown)

inductive BrokerAction
  | registerSkill (skill : String) (handler : Nat) (options : SkillRegistrationOptions)
  | unregisterSkill (skill : String)
  | setPeerSkillGate (installed : Bool)
  | handle (task : TaskRequest) (start : HandlerStart)
  | handleHttp (task : TaskRequest) (start : HandlerStart)
  | handleRemote (task : TaskRequest)

inductive BrokerAnswer
  | agentLabel (outcome : Outcome (Option String))
  | matrix (outcome : Outcome Bool)
  | access (moment : Nat) (now : Int)
  | approval (outcome : Outcome Bool) (now : Int)
  | proceed (now : Int) (start : HandlerStart)
  | handler (outcome : Except Thrown JsValue)

/-- What can be observed of a call.  A consulted limiter is shown as it was
before. -/
inductive BrokerEvent
  | skillFound (record : SkillRecord)
  | agentResolved (agentLabel : Option String)
  | matrixSkipped (installed : Bool)
  | matrixAnswered (peerId skill : String) (outcome : Outcome Bool)
  | accessChecked (moment : Nat) (decision : PeerAccessDecision)
  | approvalAnswered (request : AgentTaskApprovalRequest) (outcome : Outcome Bool)
  | telemetryConsulted (limiter : RateLimiter) (key : String) (now : Int)
  | peerConsulted (limiter : RateLimiter) (key : String) (now : Int)
  | admitted
  | handlerStarted (handler : Nat) (payload : JsValue) (context : SkillInvocationContext)
  | denied (denial : Denial)
  | settled (result : TaskResult)
  | rejected

def skillRecord (handler : Nat) (options : SkillRegistrationOptions)
    (validated : options.remote.elim (.ok ()) validateRemotePolicy = .ok ()) : SkillRecord where
  handler := handler
  localOnly := options.httpBridgeOnly || options.localOnly.getD true
  httpExposed := options.httpBridgeOnly || options.httpExposed.getD false
  httpBridgeOnly := options.httpBridgeOnly
  remote := if options.httpBridgeOnly then none else options.remote
  capabilityType := options.capabilityType.getD .action
  validated := by
    intro policy remote
    split at remote
    · cases remote
    · simpa [remote] using validated
  bridged := by
    intro bridgeOnly
    simp [bridgeOnly]

namespace TaskBroker

def new (options : TaskBrokerOptions) : Except String (BrokerSettings × TaskBroker) := do
  let peerLimiter ← P2PHub.peerRateLimiter (options.peerRateLimit.getD defaultPeerRateLimit)
  let telemetry := options.telemetryRateLimit.getD defaultTelemetryRateLimit
  let maxConcurrentTasks := (options.maxConcurrentTasks.bind JsNumber.positive?).elim
    defaultMaxConcurrentTasks Subtype.val
  let settings : BrokerSettings :=
    { maxConcurrentTasks := maxConcurrentTasks
      peerAccessContext := options.peerAccessContext
      agentGate := options.agentGate
      taskApprovalGate := options.taskApprovalGate }
  let broker : TaskBroker :=
    { skills := .empty
      peerSkillGate := options.peerSkillGate
      telemetryRateLimiter := .new telemetry.windowMs telemetry.maxCalls
      peerRateLimiter := peerLimiter
      activeTasks := 0 }
  return (settings, broker)

def registerSkill (broker : TaskBroker) (skill : String) (handler : Nat)
    (options : SkillRegistrationOptions) : Except String TaskBroker :=
  match validated : options.remote.elim (.ok ()) validateRemotePolicy with
  | .error message => .error message
  | .ok () =>
    if options.httpBridgeOnly ∧ options.localOnly = some false then
      .error ("skill \"" ++ skill ++
        "\" is registered with httpBridgeOnly: true and cannot also set localOnly: false")
    else if options.httpBridgeOnly ∧ options.remote ≠ none then
      .error ("skill \"" ++ skill ++ "\" is registered with httpBridgeOnly: true and "
        ++ "cannot declare a remote access policy")
    else
      .ok { broker with
        skills := broker.skills.set skill (skillRecord handler options validated) }

def unregisterSkill (broker : TaskBroker) (skill : String) : TaskBroker :=
  { broker with skills := broker.skills.delete skill }

def enter (broker : TaskBroker) : TaskBroker :=
  { broker with activeTasks := broker.activeTasks + 1 }

def leave (broker : TaskBroker) : TaskBroker :=
  { broker with activeTasks := broker.activeTasks - 1 }

end TaskBroker

namespace TaskRequest

/-- The caller's identity when it is there and not empty. -/
def caller (task : TaskRequest) : Option String :=
  task.peerId.filter (· ≠ "")

def peerKey (task : TaskRequest) : String :=
  task.caller.getD anonymousPeerKey

/-- `task.payload ?? null`. -/
def payloadOrNull (task : TaskRequest) : JsValue :=
  match task.payload with
  | .undefined => .null
  | payload => payload

def validatePayload (task : TaskRequest) : Except Thrown Unit := do
  validateObjectDepth task.payload
  let serialized ← task.payloadOrNull.stringify
  validatePayloadSize (serialized.getD "null") maxPayloadBytes

end TaskRequest

/-- The message and the code that the `catch` block reports, unless reporting
throws. -/
def Thrown.report : Thrown → Option (String × Option String)
  | error message code => some (message, code)
  | other (some text) => some (text, none)
  | other none => none

def invocationContext (gate : CallGate) (task : TaskRequest) (agentLabel : Option String) :
    SkillInvocationContext :=
  match gate, agentLabel with
  | .network, some label =>
    { peerId := task.peerId, initiatedBy := some .agent, agentLabel := some label }
  | .network, none =>
    { peerId := task.peerId, initiatedBy := task.caller.map fun _ => .operator }
  | _, _ => { peerId := none }

/-- What one stretch of `execute` between two awaits does. -/
structure BrokerStep where
  broker : TaskBroker
  phase : BrokerPhase
  events : List BrokerEvent

def BrokerStep.after (event : BrokerEvent) (step : BrokerStep) : BrokerStep :=
  { step with events := event :: step.events }

@[simp] theorem BrokerStep.mem_after {step : BrokerStep} {event other : BrokerEvent} :
    other ∈ (step.after event).events ↔ other = event ∨ other ∈ step.events :=
  List.mem_cons

section

variable (settings : BrokerSettings) (broker : TaskBroker) (gate : CallGate) (task : TaskRequest)

def deny (denial : Denial) : BrokerStep where
  broker := broker
  phase := .settled (denial.result task)
  events := [.denied denial, .settled (denial.result task)]

/-- The `catch` and `finally` blocks after a throw in the guarded section. -/
def failTask (thrown : Thrown) : BrokerStep :=
  match thrown.report with
  | some (message, code) =>
    let result : TaskResult :=
      { taskId := task.id, status := .error, error := some message, code := code }
    ⟨broker.leave, .settled result, [.settled result]⟩
  | none => ⟨broker.leave, .rejected, [.rejected]⟩

def finishTask (value : JsValue) : BrokerStep :=
  let result : TaskResult := { taskId := task.id, status := .ok, result := some value }
  ⟨broker.leave, .settled result, [.settled result]⟩

def startHandler (record : SkillRecord) (agentLabel : Option String) (start : HandlerStart) :
    BrokerStep :=
  match task.validatePayload with
  | .error thrown => failTask broker task thrown
  | .ok () =>
    let started := BrokerEvent.handlerStarted record.handler task.payload
      (invocationContext gate task agentLabel)
    match start with
    | .pending => ⟨broker, .running, [started]⟩
    | .threw thrown => (failTask broker task thrown).after started

def admitTask (record : SkillRecord) (agentLabel : Option String) (start : HandlerStart) :
    BrokerStep :=
  if gate = .http ∧ record.httpExposed = false then deny broker task .httpNotExposed
  else if settings.maxConcurrentTasks ≤ broker.activeTasks then
    deny broker task (.capacity settings.maxConcurrentTasks)
  else (startHandler broker.enter gate task record agentLabel start).after .admitted

/-- `evaluateRemotePolicy` up to the access check. -/
def beginPolicy (record : SkillRecord) (agentLabel : Option String) : BrokerPhase :=
  match record.remote with
  | none => .decided record agentLabel .refused
  | some policy =>
    if normalizeRemoteGates policy.gate = [] ∨ remoteModes policy agentLabel = [] then
      .decided record agentLabel .refused
    else .evaluatingGates record policy agentLabel

/-- From the agent gate to the permission matrix, or past it. -/
def beginMatrix (record : SkillRecord) (agentLabel : Option String) : BrokerStep :=
  if task.caller.isSome ∧ broker.peerSkillGate then
    ⟨broker, .checkingMatrix record agentLabel, [.agentResolved agentLabel]⟩
  else
    ⟨broker, beginPolicy record agentLabel,
      [.agentResolved agentLabel, .matrixSkipped broker.peerSkillGate]⟩

def enforceTelemetryRateLimit (record : SkillRecord) (agentLabel : Option String) (now : Int) :
    BrokerStep :=
  if record.capabilityType = .telemetry then
    let key := telemetryKey task.peerKey task.skill
    let (limiter, room) := broker.telemetryRateLimiter.allow key now
    { broker := { broker with telemetryRateLimiter := limiter }
      phase := .decided record agentLabel
        (if room then .allowed else .telemetryExceeded task.peerKey)
      events := [.telemetryConsulted broker.telemetryRateLimiter key now] }
  else ⟨broker, .decided record agentLabel .allowed, []⟩

/-- The rest of `evaluateRemotePolicy` once the gates have let the caller
pass. -/
def applyAgentMatrix (record : SkillRecord) (policy : RemoteAccessPolicy)
    (agentLabel : Option String) (now : Int) : BrokerStep :=
  match agentLabel with
  | none => enforceTelemetryRateLimit broker task record none now
  | some label =>
    match policy.agentLevel with
    | some .never => ⟨broker, .decided record (some label) .refused, []⟩
    | some .approved =>
      if settings.taskApprovalGate then ⟨broker, .approving record policy label, []⟩
      else ⟨broker, .decided record (some label) .refused, []⟩
    | _ => enforceTelemetryRateLimit broker task record (some label) now

def applyPeerRateLimit (record : SkillRecord) (agentLabel : Option String) (now : Int)
    (start : HandlerStart) : BrokerStep :=
  let (limiter, room) := broker.peerRateLimiter.allow task.peerKey now
  let charged := { broker with peerRateLimiter := limiter }
  let step :=
    if room then admitTask settings charged gate task record agentLabel start
    else deny charged task (.peerRateLimit task.peerKey)
  step.after (.peerConsulted broker.peerRateLimiter task.peerKey now)

/-- The code of `execute` up to its first await. -/
def execute (start : HandlerStart) : BrokerStep :=
  match broker.skills.get task.skill with
  | none => deny broker task .unknownSkill
  | some record =>
    let step :=
      if gate = .network then
        if record.localOnly ∨ record.httpBridgeOnly then deny broker task .localOnly
        else if task.caller.isSome then ⟨broker, .resolvingAgent record, []⟩
        else beginMatrix broker task record none
      else admitTask settings broker gate task record none start
    step.after (.skillFound record)

/-- The agent label as the code reads it: no agent without a gate or after a
failed lookup. -/
def resolvedLabel (outcome : Outcome (Option String)) : Option String :=
  match settings.agentGate, outcome with
  | true, .resolved label => label
  | _, _ => none

/-- The code of `execute` from one await to the next. -/
def advance : BrokerPhase → BrokerAnswer → Option BrokerStep
  | .resolvingAgent record, .agentLabel outcome =>
    some (beginMatrix broker task record (resolvedLabel settings outcome))
  | .checkingMatrix record agentLabel, .matrix outcome =>
    let step :=
      if evaluateBool outcome then ⟨broker, beginPolicy record agentLabel, []⟩
      else deny broker task .matrix
    some (step.after (.matrixAnswered (task.peerId.getD "") task.skill outcome))
  | .evaluatingGates record policy agentLabel, .access moment now =>
    let decision := checkPeerAccess moment (some (task.peerId.getD ""))
      (some (remoteOptions policy agentLabel)) settings.peerAccessContext
    let step :=
      if decision.isGranted then
        applyAgentMatrix settings broker task record policy agentLabel now
      else ⟨broker, .decided record agentLabel .refused, []⟩
    some (step.after (.accessChecked moment decision))
  | .approving record _ label, .approval outcome now =>
    let step :=
      if evaluateBool outcome then
        enforceTelemetryRateLimit broker task record (some label) now
      else ⟨broker, .decided record (some label) .refused, []⟩
    some (step.after (.approvalAnswered ⟨task.id, task.skill, label, task.peerId.getD ""⟩ outcome))
  | .decided record agentLabel .allowed, .proceed now start =>
    some (applyPeerRateLimit settings broker gate task record agentLabel now start)
  | .decided _ _ .refused, .proceed _ _ => some (deny broker task .policy)
  | .decided _ _ (.telemetryExceeded peerKey), .proceed _ _ =>
    some (deny broker task (.telemetryRateLimit peerKey))
  | .running, .handler (.ok value) => some (finishTask broker task value)
  | .running, .handler (.error thrown) => some (failTask broker task thrown)
  | _, _ => none

end

/-- Enter `execute`, leaving a call behind. -/
def launchTask (settings : BrokerSettings) (broker : TaskBroker) (gate : CallGate)
    (task : TaskRequest) (start : HandlerStart) :
    TaskBroker × Option (BrokerCall × List BrokerEvent) :=
  let step := execute settings broker gate task start
  (step.broker, some (⟨gate, task, step.phase⟩, step.events))

def brokerProgram (settings : BrokerSettings) :
    AsyncCalls.Program TaskBroker BrokerAction BrokerCall BrokerAnswer BrokerEvent where
  launch broker
    | .registerSkill skill handler options =>
      match broker.registerSkill skill handler options with
      | .ok after => (after, none)
      | .error _ => (broker, none)
    | .unregisterSkill skill => (broker.unregisterSkill skill, none)
    | .setPeerSkillGate installed => ({ broker with peerSkillGate := installed }, none)
    | .handle task start => launchTask settings broker .inProcess task start
    | .handleHttp task start => launchTask settings broker .http task start
    | .handleRemote task => launchTask settings broker .network task .pending
  resume broker call answer :=
    (advance settings broker call.gate call.task call.phase answer).map fun step =>
      (step.broker, { call with phase := step.phase }, step.events)

variable {settings : BrokerSettings} {broker : TaskBroker}

theorem brokerProgram_launch_cases {action : BrokerAction} {after : TaskBroker}
    {left : Option (BrokerCall × List BrokerEvent)}
    (launched : (brokerProgram settings).launch broker action = (after, left)) :
    (left = none ∧ after.activeTasks = broker.activeTasks ∧
      after.telemetryRateLimiter = broker.telemetryRateLimiter ∧
      after.peerRateLimiter = broker.peerRateLimiter) ∨ ∃ gate task start,
      after = (execute settings broker gate task start).broker ∧
      left = some (⟨gate, task, (execute settings broker gate task start).phase⟩,
        (execute settings broker gate task start).events) ∧
      (action = .handle task start ∨ action = .handleHttp task start ∨
        action = .handleRemote task ∧ gate = .network ∧ start = .pending) := by
  cases action with
  | registerSkill skill handler options =>
    left
    simp only [brokerProgram] at launched
    cases registered : broker.registerSkill skill handler options with
    | error message =>
      rw [registered] at launched
      cases launched
      exact ⟨rfl, rfl, rfl, rfl⟩
    | ok stored =>
      rw [registered] at launched
      cases launched
      unfold TaskBroker.registerSkill at registered
      split at registered
      · cases registered
      · split at registered
        · cases registered
        · split at registered
          · cases registered
          · cases registered
            exact ⟨rfl, rfl, rfl, rfl⟩
  | unregisterSkill | setPeerSkillGate =>
    cases launched
    exact Or.inl ⟨rfl, rfl, rfl, rfl⟩
  | handle task start =>
    cases launched
    exact Or.inr ⟨_, _, _, rfl, rfl, Or.inl rfl⟩
  | handleHttp task start =>
    cases launched
    exact Or.inr ⟨_, _, _, rfl, rfl, Or.inr (Or.inl rfl)⟩
  | handleRemote task =>
    cases launched
    exact Or.inr ⟨_, _, _, rfl, rfl, Or.inr (Or.inr ⟨rfl, rfl, rfl⟩)⟩

theorem brokerProgram_resume {call next : BrokerCall} {answer : BrokerAnswer}
    {after : TaskBroker} {emitted : List BrokerEvent}
    (resumed : (brokerProgram settings).resume broker call answer = some (after, next, emitted)) :
    ∃ step, advance settings broker call.gate call.task call.phase answer = some step ∧
      after = step.broker ∧ next = { call with phase := step.phase } ∧
      emitted = step.events := by
  simp only [brokerProgram, Option.map_eq_some_iff, Prod.mk.injEq] at resumed
  obtain ⟨step, advanced, rfl, rfl, rfl⟩ := resumed
  exact ⟨step, advanced, rfl, rfl, rfl⟩

end P2PHub
