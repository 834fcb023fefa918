import P2PHub.SandboxRegistration

/-!
# The host's adapter of a sandboxed plugin

The life of a sandbox from its start to its crash or stop, after
`core/src/sandbox/sandboxed-plugin-adapter.ts`.  Every asynchronous function is
cut at its awaits; its continuation is an action of its own, and actions come in
any order.  The ids of requests are fresh, so a request has the number of its
promise.  A frame may be handled after its channel was closed, with the rest of
a chunk.  `onCrashed` is the last thing a crash does, so what it calls comes as
the next actions.
-/

namespace P2PHub.Sandbox

open JsValue

inductive AdapterState
  | spawning
  | running
  | crashed
  | stopped
  deriving DecidableEq, Repr

inductive SandboxError
  | pluginCrash (reason : String)
  | requestTimeout (method : String) (timeoutMs : JsNumber)
  | executionTimeout (skill : String) (timeoutMs : JsNumber)
  | initialization (reason : String)
  | thrown (value : Thrown)
  deriving DecidableEq, Repr

namespace SandboxError

def error (message : String) : SandboxError :=
  .thrown (.error message none)

def message : SandboxError → String
  | pluginCrash reason => "sandboxed plugin crashed: " ++ reason
  | requestTimeout method timeoutMs =>
    "sandbox request \"" ++ method ++ "\" timed out after " ++ timeoutMs.text ++ "ms"
  | executionTimeout skill timeoutMs =>
    "sandboxed skill \"" ++ skill ++ "\" exceeded the " ++ timeoutMs.text ++ "ms execution timeout"
  | initialization reason => "sandbox initialization failed: " ++ reason
  | thrown (.error message _) => message
  -- Requests only fail with errors; a skill's failure is handed on unread.
  | thrown (.other text) => text.getD ""

end SandboxError

abbrev RequestOutcome := Except SandboxError JsValue

structure PendingRequest where
  method : String
  timeoutMs : JsNumber

structure AdapterOptions where
  pluginId : String
  manifest : PluginManifest
  envAllowlist : Option (List String) := none
  initializeTimeoutMs : Option JsNumber := none
  invokeSkillTimeoutMs : Option JsNumber := none
  heartbeatTimeoutMs : Option JsNumber := none

namespace AdapterOptions

def initializeTimeout (options : AdapterOptions) : JsNumber :=
  options.initializeTimeoutMs.getD (.integer 10000)

def invokeSkillTimeout (options : AdapterOptions) : JsNumber :=
  options.invokeSkillTimeoutMs.getD (.integer 30000)

def heartbeatTimeout (options : AdapterOptions) : JsNumber :=
  options.heartbeatTimeoutMs.getD (.integer 5000)

end AdapterOptions

/-- Where a call of an asynchronous function is: at the await of a request's
promise, at the wait for the child's exit, or done. -/
inductive AdapterCall
  | starting (promise : Nat)
  | invoking (skill : String) (promise : Nat)
  | pinging (promise : Nat)
  | stopping (promise : Nat)
  | exiting
  | finished (outcome : RequestOutcome)

/-- The adapter with the channels that it opened (whether they are open), the
promises of its requests and the calls of its functions. -/
structure Adapter where
  state : AdapterState := .spawning
  crashedReason : Option String := none
  channels : List Bool := []
  transport : Option Nat := none
  heartbeat : Bool := false
  pending : OrderedMap Nat PendingRequest := .empty
  promises : List (Option RequestOutcome) := []
  host : ChildHost
  calls : List AdapterCall := []

inductive AdapterEvent
  | requested (channel id : Nat) (method : String) (params : JsValue)
  | settled (id : Nat) (outcome : RequestOutcome)
  | crashed (reason : String)
  | responded (response : ChildResponse)

structure AdapterStep where
  adapter : Adapter
  events : List AdapterEvent := []

def AdapterStep.andThen (first : AdapterStep) (next : Adapter → AdapterStep) : AdapterStep where
  adapter := (next first.adapter).adapter
  events := first.events ++ (next first.adapter).events

/-- What writing to an open channel does: the frame is written, `send` throws, or
the write throws, which fails the channel. -/
inductive SendResult
  | sent
  | throws (message : String)
  | fails (message : String)

namespace Adapter

/-- Resolve or reject the promise of a request that is no longer pending. -/
def settle (id : Nat) (outcome : RequestOutcome) (adapter : Adapter) : AdapterStep where
  adapter :=
    { adapter with
      pending := adapter.pending.delete id
      promises := adapter.promises.set id (some outcome) }
  events := [.settled id outcome]

def cleanupRegisteredAndPending (reason : String) (adapter : Adapter) : AdapterStep where
  adapter :=
    { adapter with
      host :=
        { skills := adapter.host.registered.keys.foldl OrderedMap.delete adapter.host.skills
          registered := adapter.host.registered.clear }
      pending := adapter.pending.clear
      promises := adapter.pending.keys.foldl
        (fun promises id => promises.set id (some (.error (.pluginCrash reason))))
        adapter.promises }
  events := adapter.pending.keys.map (.settled · (.error (.pluginCrash reason)))

def killAndCrash (reason : String) (adapter : Adapter) : AdapterStep :=
  if adapter.state = .crashed ∨ adapter.state = .stopped then ⟨adapter, []⟩
  else
    (cleanupRegisteredAndPending reason
      { adapter with state := .crashed, crashedReason := some reason, heartbeat := false }).andThen
      fun adapter => ⟨adapter, [.crashed reason]⟩

def onError (message : String) (adapter : Adapter) : AdapterStep :=
  if adapter.state ≠ .stopped then
    adapter.killAndCrash ("sandbox channel error: " ++ message)
  else ⟨adapter, []⟩

def onClose (adapter : Adapter) : AdapterStep :=
  if adapter.state ≠ .stopped ∧ adapter.state ≠ .crashed then
    adapter.killAndCrash "sandbox channel closed unexpectedly"
  else ⟨adapter, []⟩

def isOpen (adapter : Adapter) (channel : Nat) : Bool :=
  adapter.channels[channel]? = some true

/-- `IPCSocketTransport.close`. -/
def closeChannel (channel : Nat) (adapter : Adapter) : AdapterStep :=
  if adapter.isOpen channel then
    { adapter with channels := adapter.channels.set channel false }.onClose
  else ⟨adapter, []⟩

/-- `IPCSocketTransport.fail`. -/
def failChannel (channel : Nat) (message : String) (adapter : Adapter) : AdapterStep :=
  if adapter.isOpen channel then
    ({ adapter with channels := adapter.channels.set channel false }.onError message).andThen
      onClose
  else ⟨adapter, []⟩

/-- `this.transport?.close(); this.transport = null`. -/
def closeTransport (adapter : Adapter) : AdapterStep :=
  match adapter.transport with
  | none => ⟨adapter, []⟩
  | some channel =>
    (adapter.closeChannel channel).andThen fun adapter => ⟨{ adapter with transport := none }, []⟩

section

variable (method : String) (params : JsValue) (timeoutMs : JsNumber) (send : SendResult)

def await (adapter : Adapter) : Adapter :=
  { adapter with
    promises := adapter.promises ++ [none]
    pending := adapter.pending.set adapter.promises.length ⟨method, timeoutMs⟩ }

def refuse (adapter : Adapter) : AdapterStep :=
  settle adapter.promises.length
    (.error (.pluginCrash (adapter.crashedReason.getD "sandbox not running")))
    { adapter with promises := adapter.promises ++ [none] }

def request (adapter : Adapter) : AdapterStep :=
  match adapter.transport with
  | none => adapter.refuse
  | some channel =>
    let id := adapter.promises.length
    if adapter.state ≠ .running ∧ method ≠ "initialize" then adapter.refuse
    else if adapter.isOpen channel then
      match send with
      | .sent => ⟨adapter.await method timeoutMs, [.requested channel id method params]⟩
      | .throws message => (adapter.await method timeoutMs).settle id (.error (.error message))
      | .fails message => (adapter.await method timeoutMs).failChannel channel message
    else
      (adapter.await method timeoutMs).settle id (.error (.pluginCrash "sandbox channel closed"))

/-- A function's call, at its first await or already done. -/
def leave (call : AdapterCall) (adapter : Adapter) : AdapterStep :=
  ⟨{ adapter with calls := adapter.calls ++ [call] }, []⟩

def finish (index : Nat) (call : AdapterCall) (adapter : Adapter) : AdapterStep :=
  ⟨{ adapter with calls := adapter.calls.set index call }, []⟩

def awaitRequest (call : Nat → AdapterCall) (adapter : Adapter) : AdapterStep :=
  (adapter.request method params timeoutMs send).andThen (leave (call adapter.promises.length))

end

section

variable (options : AdapterOptions)

def initializeParams : JsValue :=
  .object [("pluginId", .string options.pluginId),
    ("envAllowlist", options.envAllowlist.elim .undefined fun keys =>
      .array (keys.map JsValue.string))]

/-- `start`, whose spawn throws or opens a channel. -/
def start (spawned : Except String SendResult) (adapter : Adapter) : AdapterStep :=
  if adapter.state ≠ .spawning then
    adapter.leave (.finished (.error (.error "adapter already started")))
  else
    match spawned with
    | .error message => adapter.leave (.finished (.error (.error message)))
    | .ok send =>
      awaitRequest "initialize" (initializeParams options) options.initializeTimeout send .starting
        { adapter with
          channels := adapter.channels ++ [true]
          transport := some adapter.channels.length }

/-- The response to `initialize` that `start` takes for a success. -/
def isInitialized (result : JsValue) : Bool :=
  isBoolean (member result "initialized") true

def asInitializationError : SandboxError → SandboxError
  | .initialization reason => .initialization reason
  | error => .initialization error.message

def failStart (index : Nat) (error : SandboxError) (adapter : Adapter) : AdapterStep :=
  (adapter.killAndCrash ("sandbox failed to initialize: " ++ error.message)).andThen
    (finish index (.finished (.error (asInitializationError error))))

def resumeStart (index : Nat) (outcome : RequestOutcome) (adapter : Adapter) : AdapterStep :=
  match outcome with
  | .ok result =>
    if isInitialized result then
      finish index (.finished (.ok result)) { adapter with state := .running, heartbeat := true }
    else
      adapter.failStart index (.initialization "initialize returned a non-success response")
  | .error error => adapter.failStart index error

def invoke (skill : String) (payload context : JsValue) (send : SendResult) (adapter : Adapter) :
    AdapterStep :=
  if adapter.state ≠ .running then
    adapter.leave (.finished
      (.error (.pluginCrash (adapter.crashedReason.getD "sandbox is not running"))))
  else
    adapter.awaitRequest "invokeSkill"
      (.object [("skill", .string skill), ("payload", payload), ("context", context)])
      options.invokeSkillTimeout send (.invoking skill)

def invokeResult (skill : String) (response : JsValue) : RequestOutcome :=
  if isBoolean (member response "ok") true then
    let result := member response "result"
    match validateObjectDepth result with
    | .error thrown => .error (.thrown thrown)
    | .ok () =>
      match stringify (coalesce result .null) with
      | .error thrown => .error (.thrown thrown)
      | .ok text =>
        -- The values of a frame all have a text.
        match validatePayloadSize (text.getD "") maxPayloadBytes with
        | .error thrown => .error (.thrown thrown)
        | .ok () => .ok result
  else
    .error (.error (((member response "error").string?.filter (· ≠ "")).getD
      ("skill \"" ++ skill ++ "\" invocation failed")))

def resumeInvoke (skill : String) (index : Nat) (outcome : RequestOutcome) (adapter : Adapter) :
    AdapterStep :=
  match outcome with
  | .ok response => adapter.finish index (.finished (invokeResult skill response))
  | .error (.requestTimeout _ _) =>
    (adapter.killAndCrash ("skill \"" ++ skill ++ "\" exceeded the " ++
      options.invokeSkillTimeout.text ++ "ms execution timeout")).andThen
      (finish index (.finished (.error (.executionTimeout skill options.invokeSkillTimeout))))
  | .error error => adapter.finish index (.finished (.error error))

def ping (send : SendResult) (adapter : Adapter) : AdapterStep :=
  if adapter.state ≠ .running then adapter.leave (.finished (.ok .undefined))
  else
    adapter.awaitRequest "sandbox:heartbeat" (.object []) options.heartbeatTimeout send .pinging

def pingFailure : SandboxError → String
  | .requestTimeout _ _ => "heartbeat timeout — sandbox unresponsive"
  | error => error.message

def resumePing (index : Nat) (outcome : RequestOutcome) (adapter : Adapter) : AdapterStep :=
  match outcome with
  | .ok _ => adapter.finish index (.finished (.ok .undefined))
  | .error error =>
    (adapter.killAndCrash (pingFailure error)).andThen (finish index (.finished (.ok .undefined)))

/-- The part of `shutdown` behind the ack: it waits for the exit of a child that
still runs. -/
def stop (exited : Bool) (adapter : Adapter) : AdapterStep :=
  (cleanupRegisteredAndPending "sandbox shut down" { adapter with state := .stopped }).andThen
    fun adapter => if exited then adapter.closeTransport else ⟨adapter, []⟩

def stopCall (exited : Bool) : AdapterCall :=
  if exited then .finished (.ok .undefined) else .exiting

def shutdown (timeoutMs : JsNumber) (exited : Bool) (send : SendResult) (adapter : Adapter) :
    AdapterStep :=
  if adapter.state = .stopped then adapter.leave (.finished (.ok .undefined))
  else if adapter.state = .running then
    awaitRequest "shutdown" (.object []) timeoutMs send .stopping { adapter with heartbeat := false }
  else
    (stop exited { adapter with heartbeat := false }).andThen (leave (stopCall exited))

def kill (adapter : Adapter) : AdapterStep :=
  if adapter.state = .stopped then ⟨adapter, []⟩
  else
    (cleanupRegisteredAndPending "sandbox killed"
      { adapter with heartbeat := false, state := .stopped }).andThen closeTransport

end

variable (options : AdapterOptions)

def handleResponse (id : Nat) (outcome : Except String JsValue) (adapter : Adapter) : AdapterStep :=
  if adapter.state = .stopped then ⟨adapter, []⟩
  else
    match adapter.pending.get id with
    | none => ⟨adapter, []⟩
    | some _ =>
      match outcome with
      | .ok result => adapter.settle id (.ok result)
      | .error message => adapter.settle id (.error (.error message))

def crashReason (params : Option JsValue) : String :=
  ((member (coalesce (params.getD .undefined) (.object [])) "message").string?.filter
    (· ≠ "")).getD "sandbox reported an unhandled crash"

def handleNotification (method : String) (params : Option JsValue) (adapter : Adapter) :
    AdapterStep :=
  if adapter.state = .stopped then ⟨adapter, []⟩
  else if method = "sandbox:crash" then
    adapter.killAndCrash ("sandbox reported a crash: " ++ crashReason params)
  else ⟨adapter, []⟩

def handleRequest (method : String) (params : Option JsValue) (adapter : Adapter) : AdapterStep :=
  if adapter.state = .stopped then ⟨adapter, []⟩
  else
    let handled := handleChildRequest options.manifest options.pluginId adapter.host method params
    ⟨{ adapter with host := handled.1 }, [.responded handled.2]⟩

def expire (id : Nat) (adapter : Adapter) : AdapterStep :=
  match adapter.pending.get id with
  | none => ⟨adapter, []⟩
  | some pending =>
    adapter.settle id (.error (.requestTimeout pending.method pending.timeoutMs))

end Adapter

inductive AdapterAction
  | start (spawned : Except String SendResult)
  | invoke (skill : String) (payload context : JsValue) (send : SendResult)
  | heartbeat (send : SendResult)
  | shutdown (timeoutMs : JsNumber) (exited : Bool) (send : SendResult)
  | kill
  | response (id : Nat) (outcome : Except String JsValue)
  | notification (method : String) (params : Option JsValue)
  | childRequest (method : String) (params : Option JsValue)
  | timeout (id : Nat)
  | channelError (channel : Nat) (message : String)
  | channelClosed (channel : Nat)
  | resume (call : Nat) (exited : Bool)
  | registered (key : String) (handler : Nat) (options : RawOptions)
  | unregistered (key : String)

namespace Adapter

variable (options : AdapterOptions)

/-- The continuation of a call whose promise is settled. -/
def resume (index : Nat) (exited : Bool) (adapter : Adapter) : Option AdapterStep :=
  match adapter.calls[index]? with
  | some (.starting promise) =>
    (adapter.promises[promise]?).join.map (adapter.resumeStart index ·)
  | some (.invoking skill promise) =>
    (adapter.promises[promise]?).join.map (adapter.resumeInvoke options skill index ·)
  | some (.pinging promise) =>
    (adapter.promises[promise]?).join.map (adapter.resumePing index ·)
  | some (.stopping promise) =>
    (adapter.promises[promise]?).join.map fun _ =>
      (adapter.stop exited).andThen (finish index (stopCall exited))
  | some .exiting =>
    some (adapter.closeTransport.andThen (finish index (.finished (.ok .undefined))))
  | _ => none

def registerOther (key : String) (handler : Nat) (options : RawOptions) (adapter : Adapter) :
    AdapterStep :=
  match registerSkill adapter.host.skills key (.other handler) options with
  | .ok skills => ⟨{ adapter with host := { adapter.host with skills := skills } }, []⟩
  | .error _ => ⟨adapter, []⟩

def unregisterOther (key : String) (adapter : Adapter) : AdapterStep :=
  ⟨{ adapter with host := { adapter.host with skills := adapter.host.skills.delete key } }, []⟩

def act (adapter : Adapter) : AdapterAction → Option AdapterStep
  | .start spawned => some (adapter.start options spawned)
  | .invoke skill payload context send =>
    some (adapter.invoke options skill payload context send)
  | .heartbeat send => if adapter.heartbeat then some (adapter.ping options send) else none
  | .shutdown timeoutMs exited send => some (adapter.shutdown timeoutMs exited send)
  | .kill => some adapter.kill
  | .response id outcome => some (adapter.handleResponse id outcome)
  | .notification method params => some (adapter.handleNotification method params)
  | .childRequest method params => some (adapter.handleRequest options method params)
  | .timeout id => some (adapter.expire id)
  | .channelError channel message => some (adapter.failChannel channel message)
  | .channelClosed channel => some (adapter.closeChannel channel)
  | .resume call exited => adapter.resume options call exited
  | .registered key handler options => some (adapter.registerOther key handler options)
  | .unregistered key => some (adapter.unregisterOther key)

def step (adapter : Adapter) (action : AdapterAction) : Option (Adapter × List AdapterEvent) :=
  (adapter.act options action).map fun step => (step.adapter, step.events)

def initial (skills : Skills) : Adapter where
  host := ⟨skills, .empty⟩

end Adapter

end P2PHub.Sandbox
