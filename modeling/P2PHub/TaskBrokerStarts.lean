import P2PHub.TaskBroker

/-!
# A call of the broker starts its handler at most once

Between its gates a call starts no handler, and once it has started one it only
waits for the outcome.
-/

namespace P2PHub

open BrokerStep BrokerEvent

open AsyncCalls (ownOutputs)

def BrokerEvent.isStart : BrokerEvent → Bool
  | handlerStarted _ _ _ => true
  | _ => false

def BrokerPhase.past : BrokerPhase → Bool
  | running => true
  | settled _ => true
  | rejected => true
  | _ => false

/-- The events hold at most one start of a handler, and none as long as the
call is before its last gate. -/
def StartsOnce (events : List BrokerEvent) (phase : BrokerPhase) : Prop :=
  events.countP isStart ≤ phase.past.toNat

variable {settings : BrokerSettings} {broker : TaskBroker} {gate : CallGate} {task : TaskRequest}
  {record : SkillRecord} {agentLabel : Option String} {policy : RemoteAccessPolicy} {now : Int}
  {start : HandlerStart} {step : BrokerStep}

theorem BrokerStep.startsOnce_after {event : BrokerEvent} (other : event.isStart = false)
    (once : StartsOnce step.events step.phase) :
    StartsOnce (step.after event).events (step.after event).phase := by
  have count : (event :: step.events).countP isStart = step.events.countP isStart := by
    rw [List.countP_cons, other]
    rfl
  unfold StartsOnce at once ⊢
  rw [after, count]
  exact once

theorem startsOnce_nil (phase : BrokerPhase) : StartsOnce [] phase :=
  Nat.zero_le _

theorem deny_startsOnce (denial : Denial) :
    StartsOnce (deny broker task denial).events (deny broker task denial).phase :=
  Nat.zero_le _

theorem failTask_starts (broker : TaskBroker) (task : TaskRequest) (thrown : Thrown) :
    (failTask broker task thrown).events.countP isStart = 0 ∧
      (failTask broker task thrown).phase.past := by
  unfold failTask
  split <;> exact ⟨rfl, rfl⟩

theorem startHandler_startsOnce :
    StartsOnce (startHandler broker gate task record agentLabel start).events
      (startHandler broker gate task record agentLabel start).phase := by
  unfold startHandler
  split
  · next thrown _ =>
      unfold StartsOnce
      rw [(failTask_starts broker task thrown).1]
      exact Nat.zero_le _
  · cases start with
    | pending => exact Nat.le_refl 1
    | threw thrown =>
      obtain ⟨none, past⟩ := failTask_starts broker task thrown
      unfold StartsOnce
      dsimp only [after]
      rw [List.countP_cons, none, past]
      exact Nat.le_refl 1

theorem admitTask_startsOnce :
    StartsOnce (admitTask settings broker gate task record agentLabel start).events
      (admitTask settings broker gate task record agentLabel start).phase := by
  unfold admitTask
  split
  · exact deny_startsOnce _
  split
  · exact deny_startsOnce _
  · exact startsOnce_after rfl startHandler_startsOnce

theorem beginMatrix_startsOnce : StartsOnce (beginMatrix broker task record agentLabel).events
      (beginMatrix broker task record agentLabel).phase := by
  unfold beginMatrix
  split <;> exact Nat.zero_le _

theorem enforceTelemetryRateLimit_startsOnce :
    StartsOnce (enforceTelemetryRateLimit broker task record agentLabel now).events
      (enforceTelemetryRateLimit broker task record agentLabel now).phase := by
  unfold enforceTelemetryRateLimit
  split <;> exact Nat.zero_le _

theorem applyAgentMatrix_startsOnce :
    StartsOnce (applyAgentMatrix settings broker task record policy agentLabel now).events
      (applyAgentMatrix settings broker task record policy agentLabel now).phase := by
  unfold applyAgentMatrix
  split
  · exact enforceTelemetryRateLimit_startsOnce
  · split
    · exact startsOnce_nil _
    · split <;> exact startsOnce_nil _
    · exact enforceTelemetryRateLimit_startsOnce

theorem applyPeerRateLimit_startsOnce :
    StartsOnce (applyPeerRateLimit settings broker gate task record agentLabel now start).events
      (applyPeerRateLimit settings broker gate task record agentLabel now start).phase := by
  apply startsOnce_after rfl
  split
  · exact admitTask_startsOnce
  · exact deny_startsOnce _

theorem execute_startsOnce : StartsOnce (execute settings broker gate task start).events
      (execute settings broker gate task start).phase := by
  unfold execute
  split
  · exact deny_startsOnce _
  · apply startsOnce_after rfl
    split
    · split
      · exact deny_startsOnce _
      split
      · exact startsOnce_nil _
      · exact beginMatrix_startsOnce
    · exact admitTask_startsOnce

/-- Before its last gate a call that goes on starts at most one handler, and
past it none. -/
theorem advance_startsOnce {phase : BrokerPhase} {answer : BrokerAnswer}
    (advanced : advance settings broker gate task phase answer = some step) :
    StartsOnce step.events step.phase ∧ (phase.past →
        step.events.countP isStart = 0 ∧ step.phase.past) := by
  unfold advance at advanced
  split at advanced
  all_goals simp only [Option.some.injEq, reduceCtorEq] at advanced
  all_goals subst advanced
  · exact ⟨beginMatrix_startsOnce, nofun⟩
  · refine ⟨startsOnce_after rfl ?_, nofun⟩
    split
    · exact startsOnce_nil _
    · exact deny_startsOnce _
  · refine ⟨startsOnce_after rfl ?_, nofun⟩
    split
    · exact applyAgentMatrix_startsOnce
    · exact startsOnce_nil _
  · refine ⟨startsOnce_after rfl ?_, nofun⟩
    split
    · exact enforceTelemetryRateLimit_startsOnce
    · exact startsOnce_nil _
  · exact ⟨applyPeerRateLimit_startsOnce, nofun⟩
  · exact ⟨deny_startsOnce _, nofun⟩
  · exact ⟨deny_startsOnce _, nofun⟩
  · exact ⟨Nat.zero_le _, fun _ => ⟨rfl, rfl⟩⟩
  · next thrown =>
      have failed := failTask_starts broker task thrown
      refine ⟨?_, fun _ => failed⟩
      unfold StartsOnce
      rw [failed.1]
      exact Nat.zero_le _

theorem starts_at_most_once {history : List (Nat × BrokerEvent)}
    {pool : AsyncCalls.Pool TaskBroker BrokerCall}
    (runs : Transition.Runs (brokerProgram settings).step (fun _ _ _ => True) (.initial broker)
      history pool) (index : Nat) : (ownOutputs history index).countP isStart ≤ 1 := by
  have calls := AsyncCalls.local_invariant (fun own call => StartsOnce own call.phase) ?_ ?_ runs
  · cases found : pool.calls[index]? with
    | none =>
      rw [calls.1 index (List.getElem?_eq_none_iff.mp found)]
      exact Nat.zero_le 1
    | some call =>
      have once := calls.2 index call found
      exact Nat.le_trans once (Bool.toNat_le call.phase.past)
  · intro history pool action after call emitted _ launched
    rcases brokerProgram_launch_cases launched with ⟨none, _⟩ | ⟨gate, task, start, _, left, _⟩
    · cases none
    · cases left
      exact execute_startsOnce
  · intro history pool index answer own call after next emitted _ once resumed
    obtain ⟨step, advanced, _, rfl, rfl⟩ := brokerProgram_resume resumed
    obtain ⟨later, past⟩ := advance_startsOnce advanced
    unfold StartsOnce at once later ⊢
    rw [List.countP_append]
    cases phase : call.phase.past with
    | true =>
      obtain ⟨none, still⟩ := past phase
      rw [phase] at once
      rw [none, still]
      exact once
    | false =>
      rw [phase] at once
      have none : own.countP isStart = 0 := Nat.le_zero.mp once
      rw [none, Nat.zero_add]
      exact later

end P2PHub
