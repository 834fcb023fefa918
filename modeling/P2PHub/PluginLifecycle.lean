import P2PHub.PluginCapabilities

/-!
# The life of a plugin

What plugins register with their host through the contexts they are activated
with, and how a host boots and deactivates plugins, after
`core/src/plugin-host/plugin-host.ts`, `core/src/disposable.ts` and the hooks,
skills, timers and `onDispose` of `core/src/plugin-loader/plugin-loader.ts`.
-/

namespace P2PHub.Lifecycle

open Plugins (LoadedManifest ownsEvent assertRegistrationAllowed)
open Sandbox (RawOptions RawSkillRecord brokerKey)

/-- A call of a plugin on its context.  A disposer is known by the calls that it
makes and by whether it throws in the end. -/
inductive PluginCall
  | on (event : String) (priority : Int)
  | registerFilter (event : String) (priority : Int)
  | setTimeout (ms : Int)
  | setInterval (ms : Int)
  | release (serial : Nat)
  | register (skillName : String) (handler : Nat) (options : RawOptions)
  | unregister (skillName : String)
  | onDispose (body : List PluginCall) (throws : Bool)

inductive ResourceKind
  | action (event : String) (priority : Int)
  | filter (event : String) (priority : Int)
  | timeout (ms : Int)
  | interval (ms : Int)
  deriving DecidableEq

/-- A handler or filter in the hook registry, or an active timer, with the
context through which it was made. -/
structure Resource where
  serial : Nat
  context : Nat
  kind : ResourceKind
  deriving DecidableEq

/-- What a bag runs when it is disposed. -/
inductive Disposer
  | release (serial : Nat)
  | unregisterSkill (skill : String)
  | custom (body : List PluginCall) (throws : Bool)

structure DisposerBag where
  disposers : List (Nat × Disposer)
  disposed : Bool

structure PluginContext where
  manifest : LoadedManifest
  bag : DisposerBag

/-- A registration of the broker, with the context through which it was made. -/
structure OwnedSkill where
  context : Nat
  record : RawSkillRecord

inductive PluginState
  | active
  | failedActivation
  | failedActivationTimeout
  deriving DecidableEq

/-- What a host keeps of its plugins, by their ids.  The context of an activation
stands for what the plugin returned. -/
structure Registries where
  activated : OrderedMap String Nat
  disposers : OrderedMap String Nat
  plugins : List LoadedManifest
  pluginDirs : OrderedMap String String
  states : OrderedMap String PluginState
  signatures : OrderedMap String Bool
  certificationStatus : OrderedMap String Bool
  exposedEvents : List String

/-- A host.  The contexts of all activations are kept, in their order, and so are
the contexts of all disposers ever added to a bag and the serials of the ones that
have run. -/
structure PluginHost extends Registries where
  contexts : List PluginContext
  resources : List Resource
  skills : OrderedMap String OwnedSkill
  added : List Nat
  ran : List Nat

def PluginHost.start : PluginHost where
  activated := .empty
  disposers := .empty
  plugins := []
  pluginDirs := .empty
  states := .empty
  signatures := .empty
  certificationStatus := .empty
  exposedEvents := []
  contexts := []
  resources := []
  skills := .empty
  added := []
  ran := []

section

variable (context : Nat)

def PluginHost.isDisposed (host : PluginHost) : Bool :=
  (host.contexts[context]?).all fun loaded => loaded.bag.disposed

def PluginHost.push (host : PluginHost) (serial : Nat) (disposer : Disposer) : PluginHost :=
  { host with contexts := host.contexts.modify context fun loaded =>
      { loaded with bag := { loaded.bag with
          disposers := loaded.bag.disposers ++ [(serial, disposer)] } } }

def PluginHost.issue (host : PluginHost) : PluginHost :=
  { host with added := host.added ++ [context] }

def PluginHost.note (host : PluginHost) (serial : Nat) : PluginHost :=
  { host with ran := host.ran ++ [serial] }

/-- `dispose` of a handle: it removes its own entry, or clears its own timer. -/
def PluginHost.releaseResource (host : PluginHost) (serial : Nat) : PluginHost :=
  { host with resources := host.resources.filter fun resource =>
      !(resource.serial = serial && resource.context = context) }

def PluginHost.unregisterSkill (host : PluginHost) (skill : String) : PluginHost :=
  { host with skills := host.skills.delete skill }

/-- `on` and `registerFilter` of the registry, and the making of a timer, up to the
disposer, which is added at once. -/
def PluginHost.acquire (host : PluginHost) (kind : ResourceKind) : PluginHost :=
  let serial := host.added.length
  let resource : Resource := ⟨serial, context, kind⟩
  let made := { host with resources := host.resources ++ [resource] }
  let issued := made.issue context
  if host.isDisposed context then (issued.note serial).releaseResource context serial
  else issued.push context serial (.release serial)

def lacksHookPermission (manifest : LoadedManifest) (permission purpose : String) : String :=
  "plugin \"" ++ manifest.id ++ "\" lacks permission \"" ++ permission ++ "\" to " ++ purpose

/-- An event of the plugin's own namespace needs no permission. -/
def mayHook (manifest : LoadedManifest) (event permission : String) : Bool :=
  ownsEvent manifest.id event || permission ∈ manifest.permissions

def PluginHost.on (host : PluginHost) (manifest : LoadedManifest) (event : String)
    (priority : Int) : Except String PluginHost :=
  let permission := "hooks:on:" ++ event
  if mayHook manifest event permission then
    .ok (host.acquire context (.action event priority))
  else .error (lacksHookPermission manifest permission "subscribe to a cross-namespace event")

def PluginHost.registerFilter (host : PluginHost) (manifest : LoadedManifest) (event : String)
    (priority : Int) : Except String PluginHost :=
  let permission := "hooks:filter:" ++ event
  if mayHook manifest event permission then
    .ok (host.acquire context (.filter event priority))
  else .error (lacksHookPermission manifest permission "register a cross-namespace filter")

/-- The record that the broker makes, unless it rejects the options. -/
def skillRecord (skill : String) (handler : Nat) (options : RawOptions) :
    Except String RawSkillRecord :=
  (Sandbox.registerSkill .empty skill (.other handler) options).map fun _ =>
    Sandbox.rawSkillRecord (.other handler) options

/-- What a registration is rejected for, or the record of the skill. -/
def checkRegistration (manifest : LoadedManifest) (skillName : String) (handler : Nat)
    (options : RawOptions) : Except String RawSkillRecord :=
  match assertRegistrationAllowed manifest skillName options with
  | .error message => .error message
  | .ok () => skillRecord (brokerKey manifest.id skillName) handler options

/-- `registerSkill` of the broker, and the disposer, which knows the name only. -/
def PluginHost.registerSkill (host : PluginHost) (skill : String) (record : RawSkillRecord) :
    PluginHost :=
  let serial := host.added.length
  let made := { host with skills := host.skills.set skill ⟨context, record⟩ }
  let issued := made.issue context
  if host.isDisposed context then (issued.note serial).unregisterSkill skill
  else issued.push context serial (.unregisterSkill skill)

def PluginHost.register (host : PluginHost) (manifest : LoadedManifest) (skillName : String)
    (handler : Nat) (options : RawOptions) : Except String PluginHost :=
  match checkRegistration manifest skillName handler options with
  | .error message => .error message
  | .ok record => .ok (host.registerSkill context (brokerKey manifest.id skillName) record)

def PluginHost.orElse (host : PluginHost) : Except String PluginHost → PluginHost
  | .ok after => after
  | .error _ => host

mutual

def PluginHost.perform (manifest : LoadedManifest) : PluginCall → PluginHost → PluginHost
  | .on event priority, host => host.orElse (host.on context manifest event priority)
  | .registerFilter event priority, host =>
    host.orElse (host.registerFilter context manifest event priority)
  | .setTimeout ms, host => host.acquire context (.timeout ms)
  | .setInterval ms, host => host.acquire context (.interval ms)
  | .release serial, host => host.releaseResource context serial
  | .register skillName handler options, host =>
    host.orElse (host.register context manifest skillName handler options)
  | .unregister skillName, host => host.unregisterSkill (brokerKey manifest.id skillName)
  | .onDispose body throws, host =>
    let serial := host.added.length
    if host.isDisposed context then
      PluginHost.performAll manifest body ((host.issue context).note serial)
    else (host.issue context).push context serial (.custom body throws)

def PluginHost.performAll (manifest : LoadedManifest) : List PluginCall → PluginHost → PluginHost
  | [], host => host
  | call :: calls, host =>
    PluginHost.performAll manifest calls (PluginHost.perform manifest call host)

end

def PluginHost.runDisposer (manifest : LoadedManifest) (host : PluginHost) (serial : Nat) :
    Disposer → PluginHost × Bool
  | .release resource => ((host.note serial).releaseResource context resource, false)
  | .unregisterSkill skill => ((host.note serial).unregisterSkill skill, false)
  | .custom body throws => (PluginHost.performAll context manifest body (host.note serial), throws)

/-- The loop of `DisposerBag.dispose`: what a disposer throws is caught. -/
def PluginHost.runDisposers (manifest : LoadedManifest) :
    List (Nat × Disposer) → PluginHost → PluginHost
  | [], host => host
  | (serial, disposer) :: disposers, host =>
    match host.runDisposer context manifest serial disposer with
    | (after, _) => PluginHost.runDisposers manifest disposers after

/-- `DisposerBag.dispose` of the bag of a context. -/
def PluginHost.dispose (host : PluginHost) : PluginHost :=
  match host.contexts[context]? with
  | none => host
  | some loaded =>
    if loaded.bag.disposed then host
    else PluginHost.runDisposers context loaded.manifest loaded.bag.disposers
      { host with contexts := host.contexts.set context { loaded with bag := ⟨[], true⟩ } }

end

structure HostOptions where
  requireSignedPlugins : Bool
  requireCertifiedPlugins : Bool

/-- The awaits of `boot`. -/
inductive BootPhase
  | listing
  | loadingRegister (names : List String)
  | loadingManifest (name : String) (rest : List String)
  | certifying (name : String) (manifest : LoadedManifest) (signed : Bool) (rest : List String)
  | activating (name : String) (manifest : LoadedManifest) (context : Nat) (signed : Bool)
      (rest : List String)
  | settled (resolved : Bool)

/-- How an activation ends for the host: it can go on after its timeout. -/
inductive Activation
  | resolved
  | failed
  | timedOut
  deriving DecidableEq

/-- The verdict on a certificate comes with the manifest that `loadPlugin` is going
to read, for its context, from the same directory. -/
inductive BootAnswer
  | failed
  | listed (names : List String)
  | done
  | manifest (manifest : LoadedManifest) (signed : Bool)
  | certification (certified : Bool) (reread : LoadedManifest)
  | activation (outcome : Activation)

inductive Request
  | boot
  | deactivate (pluginId : String)
  | call (context : Nat) (call : PluginCall)
  | fire (serial : Nat)

variable (options : HostOptions)

def nextDirectory : List String → BootPhase
  | [] => .settled true
  | name :: rest => .loadingManifest name rest

def PluginHost.load (host : PluginHost) (manifest : LoadedManifest) : PluginHost :=
  { host with contexts := host.contexts ++ [⟨manifest, ⟨[], false⟩⟩] }

def PluginHost.setState (host : PluginHost) (pluginId : String) (state : PluginState) :
    PluginHost :=
  { host with states := host.states.set pluginId state }

def addEvents (events : List String) (added : List String) : List String :=
  added.foldl (fun events event => if event ∈ events then events else events ++ [event]) events

def PluginHost.activate (host : PluginHost) (name : String) (context : Nat)
    (manifest : LoadedManifest) (signed : Bool) : PluginHost :=
  { host with
    activated := host.activated.set manifest.id context
    disposers := host.disposers.set manifest.id context
    plugins := host.plugins ++ [manifest]
    pluginDirs := host.pluginDirs.set manifest.id name
    states := host.states.set manifest.id .active
    signatures := host.signatures.set manifest.id signed
    exposedEvents := addEvents host.exposedEvents manifest.exposedEvents }

/-- The end of an activation that failed or took too long. -/
def PluginHost.failActivation (host : PluginHost) (context : Nat) (manifest : LoadedManifest)
    (state : PluginState) : PluginHost :=
  (host.dispose context).setState manifest.id state

/-- The verdict on the certificate of a plugin, up to its activation. -/
def PluginHost.certify (host : PluginHost) (name : String) (manifest : LoadedManifest)
    (signed certified : Bool) (reread : LoadedManifest) (rest : List String) :
    PluginHost × BootPhase :=
  let judged := { host with
    certificationStatus := host.certificationStatus.set manifest.id certified }
  if options.requireCertifiedPlugins && !certified then
    (judged.setState manifest.id .failedActivation, nextDirectory rest)
  else (judged.load reread, .activating name manifest host.contexts.length signed rest)

def PluginHost.settleActivation (host : PluginHost) (name : String) (context : Nat)
    (manifest : LoadedManifest) (signed : Bool) : Activation → PluginHost
  | .resolved => host.activate name context manifest signed
  | .failed => host.failActivation context manifest .failedActivation
  | .timedOut => host.failActivation context manifest .failedActivationTimeout

def PluginHost.deactivate (host : PluginHost) (pluginId : String) : PluginHost :=
  let disposed := match host.disposers.get pluginId with
    | some context => host.dispose context
    | none => host
  { disposed with
    disposers := disposed.disposers.delete pluginId
    activated := disposed.activated.delete pluginId
    states := disposed.states.delete pluginId
    signatures := disposed.signatures.delete pluginId
    certificationStatus := disposed.certificationStatus.delete pluginId
    pluginDirs := disposed.pluginDirs.delete pluginId
    plugins := disposed.plugins.eraseP fun plugin => plugin.id = pluginId }

def PluginHost.fire (host : PluginHost) (serial : Nat) : PluginHost :=
  { host with resources := host.resources.filter fun resource =>
      match resource.kind with
      | .timeout _ => resource.serial ≠ serial
      | _ => true }

def launch (host : PluginHost) : Request → PluginHost × Option (BootPhase × List Empty)
  | .boot => (host, some (.listing, []))
  | .deactivate pluginId => (host.deactivate pluginId, none)
  | .call context call =>
    match host.contexts[context]? with
    | some loaded => (PluginHost.perform context loaded.manifest call host, none)
    | none => (host, none)
  | .fire serial => (host.fire serial, none)

/-- `boot` goes on after an await.  What the answers stand for is read from disk, or
done by the plugin. -/
def resume (host : PluginHost) (phase : BootPhase) (answer : BootAnswer) :
    Option (PluginHost × BootPhase × List Empty) :=
  match phase, answer with
  | .listing, .failed => some (host, .settled false, [])
  | .listing, .listed names => some (host, .loadingRegister names, [])
  | .loadingRegister _, .failed => some (host, .settled false, [])
  | .loadingRegister names, .done => some (host, nextDirectory names, [])
  | .loadingManifest _ rest, .failed => some (host, nextDirectory rest, [])
  | .loadingManifest name rest, .manifest manifest signed =>
    some (host, if options.requireSignedPlugins && !signed then nextDirectory rest
      else .certifying name manifest signed rest, [])
  | .certifying _ _ _ _, .failed => some (host, .settled false, [])
  | .certifying name manifest signed rest, .certification certified reread =>
    let (after, next) := host.certify options name manifest signed certified reread rest
    some (after, next, [])
  | .activating name manifest context signed rest, .activation outcome =>
    some (host.settleActivation name context manifest signed outcome, nextDirectory rest, [])
  | _, _ => none

def hostProgram : AsyncCalls.Program PluginHost Request BootPhase BootAnswer Empty where
  launch := launch
  resume := resume options

end P2PHub.Lifecycle
