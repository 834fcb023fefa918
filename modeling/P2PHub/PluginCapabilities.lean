import P2PHub.SandboxRegistration
import P2PHub.SubscriptionHubExposure

/-!
# The capabilities of a plugin

What a plugin does to its host by calls on its `PluginContext` and by its
manifest, after `core/src/plugin-loader/plugin-loader.ts` and
`core/src/plugin-host/plugin-host.ts`.  The event layer, which the host builds on
first use from the events exposed by then, is taken to be there from the start,
or never where the loader runs without a host.
-/

namespace P2PHub.Plugins

open Sandbox (Skills RawOptions isAlphanumeric brokerKey)

def isPluginId (id : String) : Bool :=
  match id.toList with
  | [] => false
  | first :: rest =>
    isAlphanumeric first && rest.all fun char => isAlphanumeric char || char ∈ ['_', '-']

theorem isPluginId_letter : isPluginId "p" := by
  decide

structure LoadedManifest extends Sandbox.PluginManifest where
  exposedEvents : List String := []
  valid : isPluginId id = true

def ownsEvent (pluginId event : String) : Bool :=
  (pluginId ++ ":").toList.isPrefixOf event.toList

def eventNamespace (event : String) : String :=
  String.ofList (event.toList.takeWhile (· ≠ ':'))

def assertOwnNamespace (pluginId event verb : String) : Except String Unit :=
  if ownsEvent pluginId event then .ok ()
  else
    .error ("plugin \"" ++ pluginId ++ "\" cannot " ++ verb ++ " on namespace \"" ++
      eventNamespace event ++ "\"")

/-- The loader's checks of a registration, which the sandbox adapter mirrors. -/
def assertRegistrationAllowed (manifest : LoadedManifest) (skillName : String)
    (options : RawOptions) : Except String Unit :=
  Sandbox.assertSandboxRegistrationAllowed manifest.toPluginManifest skillName options

structure PluginGuard where
  plugin : String
  guard : Nat
  deriving DecidableEq, Repr

inductive HookRun
  | action (event : String)
  | filters (event : String)
  deriving DecidableEq, Repr

def HookRun.event : HookRun → String
  | action event => event
  | filters event => event

/-- What plugins share: the broker's skills, the hooks that ran, the union of the
exposed events, and the hub with its calls and with the functions that its
guards are. -/
structure PluginHost where
  skills : Skills
  hooks : List HookRun
  exposedEvents : List String
  pool : HubPool
  guards : OrderedMap String PluginGuard
  eventLayer : Bool

namespace PluginHost

def hub (host : PluginHost) : SubscriptionHub :=
  host.pool.shared

def withHub (host : PluginHost) (hub : SubscriptionHub) : PluginHost :=
  { host with pool := { host.pool with shared := hub } }

variable (manifest : LoadedManifest) (host : PluginHost)

def registerSkill (skillName : String) (handler : Nat) (options : RawOptions) :
    Except String PluginHost :=
  match assertRegistrationAllowed manifest skillName options with
  | .error message => .error message
  | .ok () =>
    match Sandbox.registerSkill host.skills (brokerKey manifest.id skillName) (.other handler)
        options with
    | .error message => .error message
    | .ok skills => .ok { host with skills := skills }

def unregisterSkill (skillName : String) : PluginHost :=
  { host with skills := host.skills.delete (brokerKey manifest.id skillName) }

def runHook (verb : String) (run : HookRun) : Except String PluginHost :=
  match assertOwnNamespace manifest.id run.event verb with
  | .error message => .error message
  | .ok () => .ok { host with hooks := host.hooks ++ [run] }

def emit (event : String) : Except String PluginHost :=
  host.runHook manifest "emit" (.action event)

def applyFilters (event : String) : Except String PluginHost :=
  host.runHook manifest "applyFilters" (.filters event)

def publishRemote (topic : String) (payload : JsValue) (sweepNow now : Int) :
    Except String PluginHost :=
  match assertOwnNamespace manifest.id topic "publishRemote" with
  | .error message => .error message
  | .ok () =>
    if host.eventLayer then
      let step := emitLocal host.hub topic payload sweepNow now
      .ok { host with pool := ⟨step.hub, host.pool.calls ++ [step.call]⟩ }
    else .error ("topic \"" ++ topic ++ "\" is not exposed for remote events")

/-- `registerSubscriptionGuard`, with what is passed as the guard when it is a
function.  The plugin does not learn whether the hub accepts. -/
def registerSubscriptionGuard (guarded : String) (guard : Option Nat) : PluginHost :=
  if host.eventLayer then
    match host.hub.registerSubscriptionGuard guarded, guard with
    | .ok hub, some guard =>
      { host.withHub hub with guards := host.guards.set guarded ⟨manifest.id, guard⟩ }
    | _, _ => host
  else host

def syncExposedEvents : PluginHost :=
  if host.eventLayer then host.withHub (host.hub.setExposedEvents host.exposedEvents) else host

/-- The end of an activation in `boot`. -/
def activated : PluginHost :=
  syncExposedEvents { host with
      exposedEvents := manifest.exposedEvents.foldl
        (fun events event => if event ∈ events then events else events ++ [event])
        host.exposedEvents }

def resumeHub (settings : HubSettings) (index : Nat) (answer : HubAnswer) : PluginHost :=
  match (hubProgram settings).step host.pool (.resume index answer) with
  | none => host
  | some (pool, _) => { host with pool := pool }

end PluginHost

inductive PluginCall
  | activated
  | registerSkill (skillName : String) (handler : Nat) (options : RawOptions)
  | unregisterSkill (skillName : String)
  | emit (event : String)
  | applyFilters (event : String)
  | publishRemote (topic : String) (payload : JsValue) (sweepNow now : Int)
  | registerSubscriptionGuard (guarded : String) (guard : Option Nat)
  | resumed (index : Nat) (answer : HubAnswer)

variable (settings : HubSettings) (manifest : LoadedManifest)

def PluginHost.call (host : PluginHost) : PluginCall → Except String PluginHost
  | .activated => .ok (host.activated manifest)
  | .registerSkill skillName handler options =>
    host.registerSkill manifest skillName handler options
  | .unregisterSkill skillName => .ok (host.unregisterSkill manifest skillName)
  | .emit event => host.emit manifest event
  | .applyFilters event => host.applyFilters manifest event
  | .publishRemote topic payload sweepNow now =>
    host.publishRemote manifest topic payload sweepNow now
  | .registerSubscriptionGuard guarded guard =>
    .ok (host.registerSubscriptionGuard manifest guarded guard)
  | .resumed index answer => .ok (host.resumeHub settings index answer)

def PluginHost.perform (host : PluginHost) (call : PluginCall) : PluginHost :=
  match host.call settings manifest call with
  | .ok after => after
  | .error _ => host

def PluginHost.performAll (host : PluginHost) (calls : List PluginCall) : PluginHost :=
  calls.foldl (PluginHost.perform settings manifest) host

end P2PHub.Plugins
