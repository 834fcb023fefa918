import P2PHub.SandboxRegistration

/-!
# Exposure of sandboxed skills

What a child gains by its registrations.  The host compares the options with
the values it expects, the broker takes them by their truth value and hands
unknown gates on; a skill is exposed beyond the manifest only where the two
readings differ.
-/

namespace P2PHub.Sandbox

open JsValue

section

variable {manifest : PluginManifest} {skill : String} {record : RawSkillRecord}
  {mode : PeerAccessMode} {scope callerPeerId : Option String} {peerId : String}
  {modes : List PeerAccessMode} {context : Option PeerAccessContext} {answers : GateAnswers}

/-- A peer that is no verified contact and holds no pass, at any moment. -/
structure Unproven (context : Option PeerAccessContext) (peerId : String) : Prop where
  contact : ∀ contacts moment, context.bind PeerAccessContext.contacts = some contacts →
    contacts.isVerifiedContact moment peerId ≠ .resolved true
  pass : ∀ passes moment scope, context.bind PeerAccessContext.accessPasses = some passes →
    ¬passes.HoldsPass moment peerId scope

/-- No task reaches a skill's handler on a way that the manifest does not
permit. -/
structure WithinManifest (manifest : PluginManifest) (skill : String) (record : RawSkillRecord) :
    Prop where
  network : ∀ answers callerPeerId, dispatches answers record callerPeerId .network = true →
    manifest.grants "network:skill:" skill = true
  http : ∀ answers, dispatches answers record none .http = true →
    manifest.grants "network:http:" skill = true
  unproven : ∀ answers callerPeerId, dispatches answers record callerPeerId .network = true →
    Unproven answers.context (callerPeerId.getD "") → manifest.grants "network:public:" skill = true

def opensToAll (kind : JsValue) : Bool :=
  isText kind "any" || isText kind "open-lan" || isText kind "public"

/-- What a record opens the manifest permits. -/
structure Permitted (manifest : PluginManifest) (skill : String) (record : RawSkillRecord) :
    Prop where
  network : truthy record.localOnly = false → record.httpBridgeOnly = false →
    manifest.grants "network:skill:" skill = true
  http : truthy record.httpExposed = true → manifest.grants "network:http:" skill = true
  unproven : truthy record.remote = true → ∀ kind ∈
    normalizeRemoteGates (member record.remote "gate"), opensToAll kind = true →
      manifest.grants "network:public:" skill = true

theorem accessMode_proving {kind : JsValue} (closed : opensToAll kind = false)
    (modeEq : accessMode? kind = some mode) : mode.permissive = false := by
  simp only [opensToAll, Bool.or_eq_false_iff] at closed
  unfold accessMode? at modeEq
  split at modeEq
  · cases modeEq
    rfl
  · split at modeEq
    · cases modeEq
      rfl
    · rw [closed.1.2, closed.2] at modeEq
      cases modeEq

theorem mem_accessModes {agentLabel : Option String} {kinds : List JsValue}
    (closed : ∀ kind ∈ kinds, opensToAll kind = false)
    (memberMode : some mode ∈ accessModes agentLabel kinds) : mode.permissive = false := by
  obtain ⟨kind, kindIn, modeEq⟩ := List.mem_filterMap.mp memberMode
  have kindClosed := closed kind kindIn
  have notAny : isText kind "any" = false := by
    simp only [opensToAll, Bool.or_eq_false_iff] at kindClosed
    exact kindClosed.1.1
  rw [notAny, if_neg Bool.false_ne_true] at modeEq
  exact accessMode_proving kindClosed (Option.some.inj modeEq)

theorem evaluateModes_unproven {context : PeerAccessContext}
    (unproven : Unproven (some context) peerId) {moment : Nat} {denial : Option PeerDenialReason}
    (proving : ∀ mode ∈ modes, mode.permissive = false) :
    (evaluateModes context scope peerId moment denial modes).isGranted = false := by
  induction modes generalizing moment denial with
  | nil => rfl
  | cons mode modes ih =>
    have modeProving := proving mode List.mem_cons_self
    have rest : (evaluateModes context scope peerId (moment + 1) denial modes).isGranted = false :=
      ih fun other otherIn => proving other (List.mem_cons_of_mem _ otherIn)
    rw [Bool.eq_false_iff, Ne, evaluateModes_proving modeProving]
    rintro (letsIn | granted)
    · cases mode with
      | verifiedContact =>
        obtain ⟨contacts, contactsEq, verified⟩ := letsIn
        exact unproven.contact contacts moment contactsEq verified
      | accessPass =>
        obtain ⟨passes, scope, passesEq, _, _, holds⟩ := letsIn
        exact unproven.pass passes moment scope passesEq holds
      | openLan | publicMode => cases modeProving
    · rw [rest] at granted
      cases granted

theorem unproven_getD
    (unproven : Unproven context peerId) : Unproven (some (context.getD {})) peerId := by
  cases context with
  | none =>
    constructor
    · intro contacts moment contactsEq
      cases contactsEq
    · intro passes moment scope passesEq
      cases passesEq
  | some => exact unproven

theorem mem_of_mapM {values : List (Option PeerAccessMode)}
    (valid : values.mapM id = some modes) (memberMode : mode ∈ modes) : some mode ∈ values := by
  induction values generalizing modes with
  | nil =>
    cases valid
    cases memberMode
  | cons value values ih =>
    rw [List.mapM_cons] at valid
    obtain ⟨first, firstEq, rest⟩ := Option.bind_eq_some_iff.mp valid
    obtain ⟨others, othersEq, modesEq⟩ := Option.bind_eq_some_iff.mp rest
    cases modesEq
    rcases List.mem_cons.mp memberMode with rfl | later
    · obtain rfl : value = some mode := firstEq
      exact List.mem_cons_self
    · exact List.mem_cons_of_mem _ (ih othersEq later)

theorem checkPeerAccess_unproven {moment : Nat} {modes : List (Option PeerAccessMode)}
    (proving : ∀ mode, some mode ∈ modes → mode.permissive = false)
    (unproven : Unproven context peerId) : (checkPeerAccess moment (some peerId)
      (some { modes := some modes, accessPassScope := scope }) context).isGranted = false := by
  unfold checkPeerAccess
  split
  · next other options peerEq optionsEq =>
      cases optionsEq
      obtain ⟨peerIs, -⟩ := Option.filter_eq_some_iff.mp peerEq
      cases peerIs
      split
      · rfl
      · next valid validEq =>
          obtain ⟨found, foundEq, mapped⟩ := Option.bind_eq_some_iff.mp validEq
          obtain ⟨foundIs, -⟩ := Option.filter_eq_some_iff.mp foundEq
          cases foundIs
          exact evaluateModes_unproven (unproven_getD unproven) fun mode modeIn =>
            proving mode (mem_of_mapM mapped modeIn)
  · rfl

/-- The gates of a policy without a public kind let in no peer without a
proof. -/
theorem evaluateGates_unproven {policy : JsValue}
    (closed : ∀ kind ∈ normalizeRemoteGates (member policy "gate"), opensToAll kind = false)
    (unproven : Unproven answers.context (callerPeerId.getD "")) :
    evaluateGates answers callerPeerId policy = false := by
  rw [evaluateGates, Bool.and_eq_false_iff]
  exact .inr (checkPeerAccess_unproven (fun mode => mem_accessModes closed) unproven)

theorem dispatches_network (dispatched : dispatches answers record callerPeerId .network) :
    truthy record.localOnly = false ∧ record.httpBridgeOnly = false ∧
      evaluateRemotePolicy answers record callerPeerId := by
  simp only [dispatches, if_true, Bool.and_eq_true, Bool.not_eq_true', Bool.or_eq_false_iff]
    at dispatched
  obtain ⟨⟨⟨⟨⟨⟨⟨localOnly, bridge⟩, -⟩, policy⟩, -⟩, -⟩, -⟩, -⟩ := dispatched
  exact ⟨localOnly, bridge, policy⟩

theorem evaluateRemotePolicy_gates
    (allowed : evaluateRemotePolicy answers record callerPeerId) :
    truthy record.remote ∧ evaluateGates answers callerPeerId record.remote := by
  simp only [evaluateRemotePolicy] at allowed
  split at allowed
  · next passed =>
      rw [Bool.and_eq_true, Bool.and_eq_true] at passed
      exact ⟨passed.1.1, passed.2⟩
  · cases allowed

theorem Permitted.within (permitted : Permitted manifest skill record) :
    WithinManifest manifest skill record := by
  constructor
  · intro answers callerPeerId dispatched
    obtain ⟨localOnly, bridge, -⟩ := dispatches_network dispatched
    exact permitted.network localOnly bridge
  · intro answers dispatched
    simp only [dispatches, Bool.and_eq_true, decide_true, Bool.true_and, Bool.not_not] at dispatched
    exact permitted.http dispatched.1.1.2
  · intro answers callerPeerId dispatched unproven
    obtain ⟨-, -, allowed⟩ := dispatches_network dispatched
    obtain ⟨policy, gates⟩ := evaluateRemotePolicy_gates allowed
    by_contra denied
    have closed : ∀ kind ∈ normalizeRemoteGates (member record.remote "gate"),
        opensToAll kind = false := by
      intro kind kindIn
      by_contra opened
      exact denied (permitted.unproven policy kind kindIn (by simpa using opened))
    rw [evaluateGates_unproven closed unproven] at gates
    cases gates

end

section

variable {manifest : PluginManifest} {skill : String} {options : RawOptions}

/-- The options that the host and the broker read alike, up to what the
manifest permits: a `localOnly` that is false but not `false`, an `httpExposed`
that is true but not `true`, and a gate that only the access gate knows each
need the permission for what they open. -/
structure ReadAlike (manifest : PluginManifest) (skill : String) (options : RawOptions) : Prop where
  localOnly : truthy (coalesce options.localOnly (.boolean true)) = false →
    isBoolean options.localOnly false = true ∨ manifest.grants "network:skill:" skill = true
  httpExposed : truthy options.httpExposed = true →
    isBoolean options.httpExposed true = true ∨ manifest.grants "network:http:" skill = true
  gates : ∀ kind ∈ normalizeRemoteGates (member options.remote "gate"),
    isText kind "open-lan" = true ∨ isText kind "public" = true →
      manifest.grants "network:public:" skill = true

structure HostAllows (manifest : PluginManifest) (skill : String) (options : RawOptions) :
    Prop where
  network : isBoolean options.localOnly false = true → manifest.grants "network:skill:" skill = true
  http : isBoolean options.httpExposed true = true ∨ isBoolean options.httpBridgeOnly true = true →
    manifest.grants "network:http:" skill = true
  any : truthy options.remote = true →
    includesText (gateList (member options.remote "gate")) "any" = true →
      manifest.grants "network:public:" skill = true

theorem hostAllows_of_assert
    (allowed : assertSandboxRegistrationAllowed manifest skill options = .ok ()) :
    HostAllows manifest skill options := by
  unfold assertSandboxRegistrationAllowed at allowed
  split at allowed
  · cases allowed
  · next network =>
      split at allowed
      · cases allowed
      · next http =>
          split at allowed
          · cases allowed
          · next any =>
              rw [Bool.and_eq_true, Bool.not_eq_true', not_and,
                Bool.not_eq_false] at network http any
              rw [Bool.or_eq_true] at http
              rw [Bool.and_eq_true] at any
              exact ⟨network, http, fun policy includes => any ⟨policy, includes⟩⟩

theorem gateList_eq {gate : JsValue} (some : normalizeRemoteGates gate ≠ []) :
    gateList gate = normalizeRemoteGates gate := by
  cases gate with
  | undefined => exact absurd rfl some
  | _ => rfl

/-- A registration that the host lets pass, with options that both sides read
alike, opens what the manifest permits. -/
theorem permitted_of_registered (allowed : HostAllows manifest skill options)
    (alike : ReadAlike manifest skill options) (handler : SkillHandler) :
    Permitted manifest skill (rawSkillRecord handler options) := by
  constructor
  · intro localOnly bridge
    simp only [rawSkillRecord] at localOnly bridge
    rw [bridge, if_neg Bool.false_ne_true] at localOnly
    rcases alike.localOnly localOnly with isFalse | granted
    · exact allowed.network isFalse
    · exact granted
  · intro exposed
    simp only [rawSkillRecord] at exposed
    split at exposed
    · next bridge => exact allowed.http (.inr bridge)
    · have exposedOption : truthy options.httpExposed := by
        revert exposed
        cases options.httpExposed <;> exact id
      rcases alike.httpExposed exposedOption with isTrue | granted
      · exact allowed.http (.inl isTrue)
      · exact granted
  · intro policy kind kindIn opens
    simp only [rawSkillRecord] at policy kindIn
    split at policy
    · cases policy
    · next bridge =>
        rw [if_neg bridge] at kindIn
        simp only [opensToAll, Bool.or_eq_true] at opens
        rcases opens with (any | openLan) | isPublic
        · refine allowed.any policy ?_
          rw [gateList_eq (List.ne_nil_of_mem kindIn)]
          exact List.any_eq_true.mpr ⟨kind, kindIn, any⟩
        · exact alike.gates kind kindIn (.inl openLan)
        · exact alike.gates kind kindIn (.inr isPublic)

end

variable {manifest : PluginManifest} {pluginId : String} {host : ChildHost}

/-- What changes the registrations of a broker: a request of the child, or the
registrations of others. -/
inductive RegistryStep
  | childRequest (method : String) (params : Option JsValue)
  | registered (skill : String) (handler : Nat) (options : RawOptions)
  | unregistered (skill : String)

def RegistryStep.run (manifest : PluginManifest) (pluginId : String) (host : ChildHost) :
    RegistryStep → ChildHost
  | childRequest method params => (handleChildRequest manifest pluginId host method params).1
  | registered skill handler options =>
    match registerSkill host.skills skill (.other handler) options with
    | .ok skills => { host with skills := skills }
    | .error _ => host
  | unregistered skill => { host with skills := host.skills.delete skill }

/-- Every registration in a request has options that the host and the broker
read alike. -/
def RegistryStep.ReadAlike (manifest : PluginManifest) : RegistryStep → Prop
  | childRequest _ params =>
    ∀ skill options, skillName? (coalesce (params.getD .undefined) (.object [])) = some skill →
      requestOptions? (coalesce (params.getD .undefined) (.object [])) = some options →
        Sandbox.ReadAlike manifest skill (readOptions options)
  | registered _ _ _ => True
  | unregistered _ => True

/-- The child's skills are under its own keys and open what the manifest
permits. -/
def Contained (manifest : PluginManifest) (pluginId : String) (host : ChildHost) : Prop :=
  ∀ key record skill, host.skills.get key = some record → record.handler = .sandboxed skill →
    key = brokerKey pluginId skill ∧ Permitted manifest skill record

section

variable (contained : Contained manifest pluginId host)
include contained

theorem Contained.register
    {key : String} {handler : SkillHandler} {options : RawOptions} {skills : Skills}
    (registered : registerSkill host.skills key handler options = .ok skills)
    (permitted : ∀ skill, handler = .sandboxed skill → key = brokerKey pluginId skill ∧
      Permitted manifest skill (rawSkillRecord handler options))
    (names : OrderedMap String String) : Contained manifest pluginId ⟨skills, names⟩ := by
  intro other record skill found sandboxed
  rw [registerSkill_stored registered, OrderedMap.get_set] at found
  split at found
  · next same =>
      cases found
      rw [same]
      exact permitted skill sandboxed
  · exact contained other record skill found sandboxed

theorem Contained.delete (key : String) (names : OrderedMap String String) :
    Contained manifest pluginId ⟨host.skills.delete key, names⟩ := by
  intro other record skill found sandboxed
  rw [OrderedMap.get_delete] at found
  split at found
  · cases found
  · exact contained other record skill found sandboxed

theorem Contained.step {step : RegistryStep} (alike : step.ReadAlike manifest) :
    Contained manifest pluginId (step.run manifest pluginId host) := by
  cases step with
  | childRequest =>
    simp only [RegistryStep.run, handleChildRequest]
    split
    · split
      · exact contained
      · next skill skillEq =>
          split
          · exact contained
          · next options optionsEq =>
              unfold registerChildSkill
              split
              · exact contained
              · next checked =>
                  split
                  · exact contained
                  · next skills registered =>
                      refine contained.register registered (fun other sameSkill => ?_) _
                      cases sameSkill
                      exact ⟨rfl, permitted_of_registered (hostAllows_of_assert checked)
                        (alike skill options skillEq optionsEq) _⟩
    · split
      · split
        · exact contained
        · exact contained.delete _ _
      · exact contained
  | registered =>
    simp only [RegistryStep.run]
    split
    · next skills registered =>
        exact contained.register registered (fun skill sandboxed => nomatch sandboxed) _
    · exact contained
  | unregistered key => exact contained.delete key _

end

/-- Along every run whose requests have options that are read alike, the child's
skills stay within the manifest. -/
theorem child_within_manifest {host : ChildHost}
    (fresh : ∀ key record skill, host.skills.get key = some record →
      record.handler ≠ .sandboxed skill)
    {steps : List RegistryStep} (alike : ∀ step ∈ steps, step.ReadAlike manifest)
    {key skill : String} {record : RawSkillRecord}
    (found : (steps.foldl (RegistryStep.run manifest pluginId) host).skills.get key = some record)
    (sandboxed : record.handler = .sandboxed skill) :
    key = brokerKey pluginId skill ∧ WithinManifest manifest skill record := by
  have run {host : ChildHost} (contained : Contained manifest pluginId host) :
      Contained manifest pluginId (steps.foldl (RegistryStep.run manifest pluginId) host) := by
    clear found
    induction steps generalizing host with
    | nil => exact contained
    | cons step steps ih =>
      obtain ⟨first, rest⟩ := List.forall_mem_cons.mp alike
      exact ih rest (contained.step first)
  have initial : Contained manifest pluginId host := fun key record skill found sandboxed =>
    absurd sandboxed (fresh key record skill found)
  obtain ⟨keyEq, permitted⟩ := run initial key record skill found sandboxed
  exact ⟨keyEq, permitted.within⟩

/-- A child's request to register the skill `s` with some options. -/
def registerS (options : List (String × JsValue)) : RegistryStep :=
  .childRequest "skill:register"
    (some (.object [("skill", .string "s"), ("options", .object options)]))

def policyOf (gate : String) : JsValue :=
  .object [("gate", .string gate)]

def noSkills : ChildHost :=
  ⟨.empty, .empty⟩

/-- The record of the skill `s` after one request. -/
def storedS (manifest : PluginManifest) (options : List (String × JsValue)) :
    Option RawSkillRecord :=
  ((registerS options).run manifest manifest.id noSkills).skills.get (brokerKey manifest.id "s")

/-- A context in which every peer is a verified contact. -/
def allContacts : PeerAccessContext where
  contacts := some ⟨fun _ _ => .resolved true, none⟩

def networkOptions : List (String × JsValue) :=
  [("localOnly", .boolean false), ("remote", policyOf "verified-contact")]

/-- A skill for the network within the manifest. -/
theorem child_within_manifest_network :
    ∃ record, storedS ⟨"p", ["network:skill:p.s"]⟩ networkOptions = some record ∧
      WithinManifest ⟨"p", ["network:skill:p.s"]⟩ "s" record := by
  have alike : ∀ step ∈ [registerS networkOptions], step.ReadAlike ⟨"p", ["network:skill:p.s"]⟩ := by
    intro step stepIn
    obtain rfl := List.mem_singleton.mp stepIn
    intro skill options _ optionsEq
    cases optionsEq
    constructor
    · exact fun _ => .inl rfl
    · exact fun exposed => absurd exposed (by decide)
    · intro kind kindIn opens
      obtain rfl := List.mem_singleton.mp kindIn
      rcases opens with opens | opens <;> cases opens
  have fresh : ∀ key record skill, noSkills.skills.get key = some record →
      record.handler ≠ .sandboxed skill := by
    intro key record skill found
    cases found
  have found : ([registerS networkOptions].foldl
      (RegistryStep.run ⟨"p", ["network:skill:p.s"]⟩ "p") noSkills).skills.get "p.s" =
      some (rawSkillRecord (.sandboxed "s") (readOptions (.object networkOptions))) :=
    rfl
  exact ⟨_, rfl, (child_within_manifest fresh alike found rfl).2⟩

/-- Without any permission, a child exposes a skill to the network by the option
`localOnly: 0`, to the HTTP bridge by `httpExposed: 1`, and to every peer by the
gate `open-lan`. -/
theorem child_beyond_manifest : (∃ record, storedS ⟨"p", []⟩
        [("localOnly", .number "0"), ("remote", policyOf "verified-contact")] = some record ∧
      dispatches { context := some allContacts } record (some "peer") .network) ∧
    (∃ record, storedS ⟨"p", []⟩ [("httpExposed", .number "1")] = some record ∧
      dispatches {} record none .http) ∧
    (∃ record, storedS ⟨"p", ["network:skill:p.s"]⟩
        [("localOnly", .boolean false), ("remote", policyOf "open-lan")] = some record ∧
      dispatches {} record (some "peer") .network) := by
  refine ⟨⟨_, rfl, ?_⟩, ⟨_, rfl, ?_⟩, ⟨_, rfl, ?_⟩⟩
  · decide +kernel
  · decide +kernel
  · decide +kernel

end P2PHub.Sandbox
