import P2PHub.PeerAccessGate

/-!
# Remote access policies

Who may invoke a skill over the network, after
`core/src/task-broker/remote-access.ts`, the validation of a policy at
registration, and its translation to the modes of the peer access gate.
-/

namespace P2PHub

inductive RemoteGateKind
  | verifiedContact
  | accessPass
  | any
  deriving DecidableEq, Repr

inductive RemoteGateSpec
  | single (kind : RemoteGateKind)
  | list (kinds : List RemoteGateKind)
  deriving DecidableEq, Repr

inductive AgentAccessLevel
  | telemetry
  | approved
  | never
  deriving DecidableEq, Repr

/-- `agent` holds the level of a declared agent policy, `some none` when that
is not a known level. -/
structure RemoteAccessPolicy where
  gate : Option RemoteGateSpec
  scope : Option String := none
  agent : Option (Option AgentAccessLevel) := none
  deriving DecidableEq, Repr

def normalizeRemoteGates : Option RemoteGateSpec → List RemoteGateKind
  | none => []
  | some (.single kind) => [kind]
  | some (.list kinds) => kinds

def defaultAgentAccessLevel : AgentAccessLevel :=
  .approved

def validateRemotePolicy (policy : RemoteAccessPolicy) : Except String Unit :=
  let gates := normalizeRemoteGates policy.gate
  if gates = [] then
    .error "remote policy must name at least one gate (verified-contact, access-pass, or any)"
  else if .accessPass ∈ gates ∧ policy.scope = none then
    .error "remote policy with an \"access-pass\" gate requires a \"scope\""
  else if policy.agent = some none then
    .error "remote policy \"agent\" level must be one of \"telemetry\", \"approved\", \"never\""
  else .ok ()

def RemoteAccessPolicy.agentLevel (policy : RemoteAccessPolicy) : Option AgentAccessLevel :=
  policy.agent.getD (some defaultAgentAccessLevel)

theorem agentLevel_of_validated {policy : RemoteAccessPolicy}
    (validated : validateRemotePolicy policy = .ok ()) :
    policy.agentLevel = some .telemetry ∨ policy.agentLevel = some .approved ∨
      policy.agentLevel = some .never := by
  have known : policy.agent ≠ some none := by
    intro unknown
    simp only [validateRemotePolicy, unknown, if_true] at validated
    split at validated
    · cases validated
    · split at validated <;> cases validated
  unfold RemoteAccessPolicy.agentLevel
  rcases agentEq : policy.agent with _ | _ | level
  · exact Or.inr (Or.inl rfl)
  · exact absurd agentEq known
  · cases level <;> simp

def RemoteGateKind.mode (agentLabel : Option String) : RemoteGateKind → Option PeerAccessMode
  | verifiedContact => some .verifiedContact
  | accessPass => some .accessPass
  | any => if agentLabel = none then some .publicMode else none

def remoteModes (policy : RemoteAccessPolicy) (agentLabel : Option String) : List PeerAccessMode :=
  (normalizeRemoteGates policy.gate).filterMap (RemoteGateKind.mode agentLabel)

/-- The options that the broker hands to the peer access gate. -/
def remoteOptions (policy : RemoteAccessPolicy) (agentLabel : Option String) :
    PeerAccessOptions where
  modes := some ((remoteModes policy agentLabel).map some)
  accessPassScope := policy.scope

end P2PHub
