import P2PHub.JsonText
import P2PHub.TaskBroker

/-!
# Skills that a sandboxed plugin registers

The requests with which the child process of a sandboxed plugin registers its
skills, after `core/src/sandbox/sandboxed-plugin-adapter.ts`.  The options it
sends are any JSON value: the host checks them against the manifest, and the
broker stores them as they are.
-/

namespace P2PHub.Sandbox

open JsValue

/-- Whether a condition takes a value for true.  A zero has the text `0`. -/
def truthy : JsValue → Bool
  | .undefined | .null => false
  | .boolean value => value
  | .number text => decide (text ≠ "0")
  | .string value => decide (value ≠ "")
  | _ => true

/-- `value ?? fallback`. -/
def coalesce (value fallback : JsValue) : JsValue :=
  match value with
  | .undefined | .null => fallback
  | value => value

/-- A property by one of the names below, which only objects have. -/
def member (value : JsValue) (key : String) : JsValue :=
  match value with
  | .object fields => property fields key
  | _ => .undefined

/-- `value === text`. -/
def isText (value : JsValue) (text : String) : Bool :=
  match value with
  | .string other => decide (other = text)
  | _ => false

/-- `value === expected` for a boolean. -/
def isBoolean (value : JsValue) (expected : Bool) : Bool :=
  match value with
  | .boolean other => other == expected
  | _ => false

def includesText (values : List JsValue) (text : String) : Bool :=
  values.any (isText · text)

/-- The options of a registration as they were sent. -/
structure RawOptions where
  localOnly : JsValue
  httpExposed : JsValue
  httpBridgeOnly : JsValue
  remote : JsValue
  capabilityType : JsValue

def readOptions (options : JsValue) : RawOptions where
  localOnly := member options "localOnly"
  httpExposed := member options "httpExposed"
  httpBridgeOnly := member options "httpBridgeOnly"
  remote := member options "remote"
  capabilityType := member options "capabilityType"

structure PluginManifest where
  id : String
  permissions : List String

def PluginManifest.permission (manifest : PluginManifest) (scope skill : String) : String :=
  scope ++ manifest.id ++ "." ++ skill

def PluginManifest.grants (manifest : PluginManifest) (scope skill : String) : Bool :=
  decide (manifest.permission scope skill ∈ manifest.permissions)

section

variable (manifest : PluginManifest) (skillName : String) (options : RawOptions)

def gateList : JsValue → List JsValue
  | .array kinds => kinds
  | gate => [gate]

def lacksPermission (exposure scope : String) : String :=
  "plugin \"" ++ manifest.id ++ "\" " ++ exposure ++ " but lacks permission \"" ++
    manifest.permission scope skillName ++ "\""

def assertSandboxRegistrationAllowed : Except String Unit :=
  if isBoolean options.localOnly false && !manifest.grants "network:skill:" skillName then
    .error (lacksPermission manifest skillName
      ("exposes skill \"" ++ skillName ++ "\" to the network") "network:skill:")
  else if (isBoolean options.httpExposed true || isBoolean options.httpBridgeOnly true) &&
      !manifest.grants "network:http:" skillName then
    .error (lacksPermission manifest skillName
      ("exposes skill \"" ++ skillName ++ "\" to the local HTTP bridge") "network:http:")
  else if truthy options.remote && includesText (gateList (member options.remote "gate")) "any" &&
      !manifest.grants "network:public:" skillName then
    .error (lacksPermission manifest skillName
      ("marks skill \"" ++ skillName ++ "\" as publicly reachable (remote gate \"any\")")
      "network:public:")
  else .ok ()

end

/-- A handler of the adapter, which asks the child for a skill, or another. -/
inductive SkillHandler
  | sandboxed (skill : String)
  | other (handler : Nat)
  deriving DecidableEq, Repr

/-- What the broker stores of a registration. -/
structure RawSkillRecord where
  handler : SkillHandler
  localOnly : JsValue
  httpExposed : JsValue
  httpBridgeOnly : Bool
  remote : JsValue
  capabilityType : CapabilityType

abbrev Skills := OrderedMap String RawSkillRecord

def normalizeRemoteGates : JsValue → List JsValue
  | .undefined => []
  | .array kinds => kinds
  | gate => [gate]

def isAgentAccessLevel (level : JsValue) : Bool :=
  isText level "telemetry" || isText level "approved" || isText level "never"

def validateRemotePolicy (policy : JsValue) : Except String Unit :=
  if truthy policy then
    let gates := normalizeRemoteGates (member policy "gate")
    if gates.isEmpty then
      .error "remote policy must name at least one gate (verified-contact, access-pass, or any)"
    else if includesText gates "access-pass" && (member policy "scope").string?.isNone then
      .error "remote policy with an \"access-pass\" gate requires a \"scope\""
    else
      match member policy "agent" with
      | .undefined => .ok ()
      | .null => .error "Cannot read properties of null (reading 'level')"
      | agent =>
        if isAgentAccessLevel (member agent "level") then .ok ()
        else
          .error
            "remote policy \"agent\" level must be one of \"telemetry\", \"approved\", \"never\""
  else .ok ()

def capabilityTypeOf (value : JsValue) : CapabilityType :=
  if isText value "telemetry" then .telemetry else .action

def rawSkillRecord (handler : SkillHandler) (options : RawOptions) : RawSkillRecord :=
  let bridgeOnly := isBoolean options.httpBridgeOnly true
  { handler := handler
    localOnly := if bridgeOnly then .boolean true else coalesce options.localOnly (.boolean true)
    httpExposed :=
      if bridgeOnly then .boolean true else coalesce options.httpExposed (.boolean false)
    httpBridgeOnly := bridgeOnly
    remote := if bridgeOnly then .undefined else options.remote
    capabilityType := capabilityTypeOf options.capabilityType }

/-- `TaskBroker.registerSkill` on options that may be of any type. -/
def registerSkill (skills : Skills) (skill : String) (handler : SkillHandler)
    (options : RawOptions) : Except String Skills :=
  match validateRemotePolicy options.remote with
  | .error message => .error message
  | .ok () =>
    if isBoolean options.httpBridgeOnly true && isBoolean options.localOnly false then
      .error ("skill \"" ++ skill ++
        "\" is registered with httpBridgeOnly: true and cannot also set localOnly: false")
    else if isBoolean options.httpBridgeOnly true && !options.remote.isUndefined then
      .error ("skill \"" ++ skill ++ "\" is registered with httpBridgeOnly: true and " ++
        "cannot declare a remote access policy")
    else .ok (skills.set skill (rawSkillRecord handler options))

theorem registerSkill_stored {skills after : Skills} {key : String} {handler : SkillHandler}
    {options : RawOptions} (registered : registerSkill skills key handler options = .ok after) :
    after = skills.set key (rawSkillRecord handler options) := by
  unfold registerSkill at registered
  split at registered
  · cases registered
  · split at registered
    · cases registered
    · split at registered
      · cases registered
      · exact (Except.ok.inj registered).symm

section

/-- What the host keeps of the child's skills: the registrations of the broker,
and the keys among them that are the child's, with their local names. -/
structure ChildHost where
  skills : Skills
  registered : OrderedMap String String

inductive ChildResponse
  | registered (skill : String)
  | unregistered
  | failed (code : Int) (message : String)
  deriving DecidableEq, Repr

def invalidRequestCode : Int := -32600

def methodNotFoundCode : Int := -32601

def invalidParamsCode : Int := -32602

def isAlphanumeric (char : Char) : Bool :=
  ('a' ≤ char && char ≤ 'z') || ('A' ≤ char && char ≤ 'Z') || ('0' ≤ char && char ≤ '9')

/-- `SKILL_NAME_RE`. -/
def isSkillName (text : String) : Bool :=
  match text.toList with
  | [] => false
  | first :: rest =>
    isAlphanumeric first && rest.all fun char => isAlphanumeric char || char ∈ ['.', '_', '-']

/-- The local name that a request gives, when it is one. -/
def skillName? (params : JsValue) : Option String :=
  (member params "skill").string?.filter (isSkillName ·)

def requestOptions? (params : JsValue) : Option JsValue :=
  match member params "options" with
  | .undefined => some (.object [])
  | .object fields => some (.object fields)
  | .exotic json => some (.exotic json)
  | .cyclic => some .cyclic
  | _ => none

variable (manifest : PluginManifest) (pluginId : String)

def brokerKey (skill : String) : String :=
  pluginId ++ "." ++ skill

def registerChildSkill (host : ChildHost) (skill : String) (options : RawOptions) :
    ChildHost × ChildResponse :=
  match assertSandboxRegistrationAllowed manifest skill options with
  | .error message => (host, .failed invalidRequestCode message)
  | .ok () =>
    match registerSkill host.skills (brokerKey pluginId skill) (.sandboxed skill) options with
    | .error message =>
      (host, .failed invalidParamsCode ("registration rejected: " ++ message))
    | .ok skills =>
      (⟨skills, host.registered.set (brokerKey pluginId skill) skill⟩,
        .registered (brokerKey pluginId skill))

def handleChildRequest (host : ChildHost) (method : String) (params : Option JsValue) :
    ChildHost × ChildResponse :=
  let params := coalesce (params.getD .undefined) (.object [])
  if method = "skill:register" then
    match skillName? params with
    | none => (host, .failed invalidParamsCode "invalid skill name")
    | some skill =>
      match requestOptions? params with
      | none => (host, .failed invalidParamsCode "options must be an object")
      | some options => registerChildSkill manifest pluginId host skill (readOptions options)
  else if method = "skill:unregister" then
    match skillName? params with
    | none => (host, .failed invalidParamsCode "invalid skill name")
    | some skill =>
      (⟨host.skills.delete (brokerKey pluginId skill),
        host.registered.delete (brokerKey pluginId skill)⟩, .unregistered)
  else (host, .failed methodNotFoundCode ("unknown method \"" ++ method ++ "\""))

end

/-- What the injected gates, the limiters and the payload checks answer while a
task is dispatched. -/
structure GateAnswers where
  agentLabel : Option String := none
  matrixAllowed : Bool := true
  moment : Nat := 0
  context : Option PeerAccessContext := none
  approved : Bool := false
  telemetryRoom : Bool := true
  peerRoom : Bool := true
  capacity : Bool := true
  payloadValid : Bool := true

variable (answers : GateAnswers) (record : RawSkillRecord) (callerPeerId : Option String)

/-- The caller's identity when it is there and not empty. -/
def caller : Option String :=
  callerPeerId.filter (· ≠ "")

def callerLabel : Option String :=
  (caller callerPeerId).bind fun _ => answers.agentLabel

/-- A mode of the access gate, nothing for a value that is none. -/
def accessMode? (kind : JsValue) : Option PeerAccessMode :=
  if isText kind "verified-contact" then some .verifiedContact
  else if isText kind "access-pass" then some .accessPass
  else if isText kind "open-lan" then some .openLan
  else if isText kind "public" then some .publicMode
  else none

/-- The modes that the gates of a policy stand for: every kind but `any` is
handed on as it is. -/
def accessModes (agentLabel : Option String) (kinds : List JsValue) :
    List (Option PeerAccessMode) :=
  kinds.filterMap fun kind =>
    if isText kind "any" then (if agentLabel = none then some (some .publicMode) else none)
    else some (accessMode? kind)

def evaluateGates (policy : JsValue) : Bool :=
  let modes := accessModes (callerLabel answers callerPeerId)
    (normalizeRemoteGates (member policy "gate"))
  !modes.isEmpty && (checkPeerAccess answers.moment (some (callerPeerId.getD ""))
      (some { modes := some modes, accessPassScope := (member policy "scope").string? })
      answers.context).isGranted

def enforceTelemetryRateLimit : Bool :=
  decide (record.capabilityType ≠ .telemetry) || answers.telemetryRoom

def evaluateRemotePolicy : Bool :=
  let policy := record.remote
  if truthy policy && !(normalizeRemoteGates (member policy "gate")).isEmpty &&
      evaluateGates answers callerPeerId policy then
    match callerLabel answers callerPeerId with
    | none => enforceTelemetryRateLimit answers record
    | some _ =>
      let level := coalesce (member (member policy "agent") "level") (.string "approved")
      if isText level "never" then false
      else if isText level "approved" && !answers.approved then false
      else enforceTelemetryRateLimit answers record
  else false

/-- The gates of `execute` for a record: whether its handler is called. -/
def dispatches (gate : CallGate) : Bool :=
  (if gate = .network then
    !(truthy record.localOnly || record.httpBridgeOnly) &&
      (caller callerPeerId = none || answers.matrixAllowed) &&
      evaluateRemotePolicy answers record callerPeerId && answers.peerRoom
  else true) && !(decide (gate = .http) && !truthy record.httpExposed) && answers.capacity &&
    answers.payloadValid

end P2PHub.Sandbox
