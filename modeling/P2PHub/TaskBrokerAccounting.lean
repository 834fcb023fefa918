import P2PHub.TaskBroker

/-!
# Concurrency accounting of the task broker

The slots of `activeTasks` and the results of the calls.  What is thrown may not
be reportable: the `catch` block itself throws on a value that `String` cannot
convert.
-/

namespace P2PHub

open AsyncCalls TaskBroker BrokerStep BrokerPhase Transition

/-- The guarded section: validation ends within one stretch, so a suspended
call is inside exactly while its handler runs. -/
def BrokerPhase.inside : BrokerPhase → Bool
  | running => true
  | _ => false

def BrokerCall.inside (call : BrokerCall) : Bool :=
  call.phase.inside

/-- What a stretch of `execute` does to the account, seen from `active` tasks
without the call itself. -/
structure BrokerStep.Accounts (step : BrokerStep) (settings : BrokerSettings)
    (task : TaskRequest) (active : Int) : Prop where
  balance : step.broker.activeTasks = active + step.phase.inside.toNat
  bounded : active ≤ settings.maxConcurrentTasks →
    step.broker.activeTasks ≤ settings.maxConcurrentTasks
  ownId : ∀ result, .settled result ∈ step.events → result.taskId = task.id

section

variable {settings : BrokerSettings} {broker : TaskBroker} {gate : CallGate}
  {task : TaskRequest} {record : SkillRecord} {agentLabel : Option String}
  {start : HandlerStart} {step : BrokerStep} {active now : Int} {phase : BrokerPhase}

theorem BrokerStep.Accounts.after {event : BrokerEvent}
    (accounts : step.Accounts settings task active) (other : ∀ result, event ≠ .settled result) :
    (step.after event).Accounts settings task active := by
  refine ⟨accounts.balance, accounts.bounded, fun result member => ?_⟩
  rcases mem_after.mp member with same | old
  · exact absurd same.symm (other result)
  · exact accounts.ownId result old

theorem accounts_of_suspended {events : List BrokerEvent}
    {after : TaskBroker} (same : after.activeTasks = broker.activeTasks)
    (outside : phase.inside = false) (unsettled : ∀ result, .settled result ∉ events) :
    (mk after phase events).Accounts settings task broker.activeTasks := by
  refine ⟨?_, fun bounded => ?_, fun result member => absurd member (unsettled result)⟩
  · simp [same, outside]
  · rwa [same]

theorem deny_accounts (denial : Denial) :
    (deny broker task denial).Accounts settings task broker.activeTasks := by
  refine ⟨?_, fun bounded => bounded, fun result member => ?_⟩
  · simp [deny, inside]
  · have own : result = denial.result task := by simpa [deny] using member
    rw [own]
    rfl

theorem failTask_accounts (thrown : Thrown) :
    (failTask broker task thrown).Accounts settings task (broker.activeTasks - 1) := by
  unfold failTask
  cases thrown.report with
  | none =>
    refine ⟨?_, fun bounded => bounded, by simp⟩
    simp [leave, inside]
  | some report =>
    refine ⟨?_, fun bounded => bounded, fun result member => ?_⟩
    · simp [leave, inside]
    · have own := List.mem_singleton.mp member
      simp only [BrokerEvent.settled.injEq] at own
      rw [own]

theorem finishTask_accounts (value : JsValue) :
    (finishTask broker task value).Accounts settings task (broker.activeTasks - 1) := by
  refine ⟨?_, fun bounded => bounded, fun result member => ?_⟩
  · simp [finishTask, leave, inside]
  · have own := List.mem_singleton.mp member
    simp only [BrokerEvent.settled.injEq] at own
    rw [own]

theorem startHandler_accounts (room : broker.activeTasks < settings.maxConcurrentTasks) :
    (startHandler broker.enter gate task record agentLabel start).Accounts settings task
      broker.activeTasks := by
  have failed (thrown : Thrown) :
      (failTask broker.enter task thrown).Accounts settings task broker.activeTasks := by
    simpa [enter] using
      (failTask_accounts thrown : (failTask broker.enter task thrown).Accounts settings task _)
  unfold startHandler
  cases task.validatePayload with
  | error thrown => exact failed thrown
  | ok _ =>
    cases start with
    | pending =>
      refine ⟨?_, fun _ => ?_, by simp⟩
      · simp [enter, inside]
      · simp only [enter]
        omega
    | threw thrown => exact (failed thrown).after (by simp)

theorem admit_accounts :
    (admitTask settings broker gate task record agentLabel start).Accounts settings task
      broker.activeTasks := by
  unfold admitTask
  split
  · exact deny_accounts _
  · split
    · exact deny_accounts _
    · next room => exact (startHandler_accounts (by omega)).after (by simp)

theorem beginPolicy_inside : (beginPolicy record agentLabel).inside = false := by
  unfold beginPolicy
  split
  · rfl
  · split <;> rfl

theorem beginMatrix_accounts : (beginMatrix broker task record agentLabel).Accounts settings task
      broker.activeTasks := by
  unfold beginMatrix
  split
  · exact accounts_of_suspended rfl rfl (by simp)
  · exact accounts_of_suspended rfl beginPolicy_inside (by simp)

theorem enforceTelemetryRateLimit_accounts :
    (enforceTelemetryRateLimit broker task record agentLabel now).Accounts settings task
      broker.activeTasks := by
  unfold enforceTelemetryRateLimit
  split <;> exact accounts_of_suspended rfl rfl (by simp)

theorem applyAgentMatrix_accounts {policy : RemoteAccessPolicy} :
    (applyAgentMatrix settings broker task record policy agentLabel now).Accounts settings task
      broker.activeTasks := by
  unfold applyAgentMatrix
  cases agentLabel with
  | none => exact enforceTelemetryRateLimit_accounts
  | some label =>
    dsimp only
    split
    · exact accounts_of_suspended rfl rfl (by simp)
    · split <;> exact accounts_of_suspended rfl rfl (by simp)
    · exact enforceTelemetryRateLimit_accounts

theorem applyPeerRateLimit_accounts :
    (applyPeerRateLimit settings broker gate task record agentLabel now start).Accounts settings
      task broker.activeTasks := by
  apply Accounts.after _ (by simp)
  split
  · exact admit_accounts
  · exact deny_accounts _

theorem execute_accounts :
    (execute settings broker gate task start).Accounts settings task broker.activeTasks := by
  unfold execute
  split
  · exact deny_accounts _
  · apply Accounts.after _ (by simp)
    split
    · split
      · exact deny_accounts _
      · split
        · exact accounts_of_suspended rfl rfl (by simp)
        · exact beginMatrix_accounts
    · exact admit_accounts

theorem advance_accounts {answer : BrokerAnswer}
    (advanced : advance settings broker gate task phase answer = some step) :
    step.Accounts settings task
      (if phase.inside then broker.activeTasks - 1 else broker.activeTasks) := by
  unfold advance at advanced
  split at advanced
  all_goals simp only [Option.some.injEq, reduceCtorEq] at advanced
  all_goals try subst advanced
  all_goals simp only [inside, if_true, Bool.false_eq_true, if_false]
  · exact beginMatrix_accounts
  · apply Accounts.after _ (by simp)
    split
    · exact accounts_of_suspended rfl beginPolicy_inside (by simp)
    · exact deny_accounts _
  · apply Accounts.after _ (by simp)
    split
    · exact applyAgentMatrix_accounts
    · exact accounts_of_suspended rfl rfl (by simp)
  · apply Accounts.after _ (by simp)
    split
    · exact enforceTelemetryRateLimit_accounts
    · exact accounts_of_suspended rfl rfl (by simp)
  · exact applyPeerRateLimit_accounts
  · exact deny_accounts _
  · exact deny_accounts _
  · exact finishTask_accounts _
  · exact failTask_accounts _

end

/-- The `catch` block can report the value. -/
def Thrown.Reportable (thrown : Thrown) : Prop :=
  thrown.report ≠ none

def HandlerStart.Reportable : HandlerStart → Prop
  | pending => True
  | threw thrown => thrown.Reportable

def TaskRequest.Reportable (task : TaskRequest) : Prop :=
  ∀ thrown, task.validatePayload = .error thrown → thrown.Reportable

/-- Whatever the handlers, and the serialization of the payloads, throw can be
reported. -/
def ReportableLabel : Label BrokerAction BrokerAnswer → Prop
  | .launch (.handle task start) => task.Reportable ∧ start.Reportable
  | .launch (.handleHttp task start) => task.Reportable ∧ start.Reportable
  | .launch (.handleRemote task) => task.Reportable
  | .resume _ (.proceed _ start) => start.Reportable
  | .resume _ (.handler (.error thrown)) => thrown.Reportable
  | _ => True

section

variable {settings : BrokerSettings} {broker : TaskBroker} {gate : CallGate}
  {task : TaskRequest} {record : SkillRecord} {agentLabel : Option String}
  {start : HandlerStart} {step : BrokerStep} {now : Int}

theorem deny_unrejected (denial : Denial) : .rejected ∉ (deny broker task denial).events := by
  simp [deny]

theorem failTask_unrejected {thrown : Thrown} (reportable : thrown.Reportable) :
    .rejected ∉ (failTask broker task thrown).events := by
  unfold failTask
  cases reported : thrown.report with
  | none => exact absurd reported reportable
  | some report => simp

theorem startHandler_unrejected (payload : task.Reportable) (handler : start.Reportable) :
    .rejected ∉ (startHandler broker gate task record agentLabel start).events := by
  unfold startHandler
  cases validated : task.validatePayload with
  | error thrown => exact failTask_unrejected (payload thrown validated)
  | ok _ =>
    cases start with
    | pending => simp
    | threw thrown => simpa using failTask_unrejected handler

theorem admit_unrejected (payload : task.Reportable) (handler : start.Reportable) :
    .rejected ∉ (admitTask settings broker gate task record agentLabel start).events := by
  unfold admitTask
  split
  · exact deny_unrejected _
  · split
    · exact deny_unrejected _
    · simpa using startHandler_unrejected payload handler

theorem beginMatrix_unrejected :
    .rejected ∉ (beginMatrix broker task record agentLabel).events := by
  unfold beginMatrix
  split <;> simp

theorem enforceTelemetryRateLimit_unrejected :
    .rejected ∉ (enforceTelemetryRateLimit broker task record agentLabel now).events := by
  unfold enforceTelemetryRateLimit
  split <;> simp

theorem applyAgentMatrix_unrejected {policy : RemoteAccessPolicy} :
    .rejected ∉ (applyAgentMatrix settings broker task record policy agentLabel now).events := by
  unfold applyAgentMatrix
  cases agentLabel with
  | none => exact enforceTelemetryRateLimit_unrejected
  | some label =>
    dsimp only
    split
    · simp
    · split <;> simp
    · exact enforceTelemetryRateLimit_unrejected

theorem execute_unrejected (payload : task.Reportable) (handler : start.Reportable) :
    .rejected ∉ (execute settings broker gate task start).events := by
  unfold execute
  split
  · exact deny_unrejected _
  · simp only [mem_after, reduceCtorEq, false_or]
    split
    · split
      · exact deny_unrejected _
      · split
        · simp
        · exact beginMatrix_unrejected
    · exact admit_unrejected payload handler

theorem advance_unrejected {phase : BrokerPhase} {answer : BrokerAnswer} {index : Nat}
    (payload : task.Reportable) (handler : ReportableLabel (.resume index answer))
    (advanced : advance settings broker gate task phase answer = some step) :
    .rejected ∉ step.events := by
  unfold advance at advanced
  split at advanced
  all_goals simp only [Option.some.injEq, reduceCtorEq] at advanced
  all_goals try subst advanced
  · exact beginMatrix_unrejected
  · simp only [mem_after, reduceCtorEq, false_or]
    split
    · simp
    · exact deny_unrejected _
  · simp only [mem_after, reduceCtorEq, false_or]
    split
    · exact applyAgentMatrix_unrejected
    · simp
  · simp only [mem_after, reduceCtorEq, false_or]
    split
    · exact enforceTelemetryRateLimit_unrejected
    · simp
  · simp only [applyPeerRateLimit, mem_after, reduceCtorEq, false_or]
    split
    · exact admit_unrejected payload handler
    · exact deny_unrejected _
  · exact deny_unrejected _
  · exact deny_unrejected _
  · simp [finishTask]
  · exact failTask_unrejected handler

end

section

variable {settings : BrokerSettings} {options : TaskBrokerOptions} {broker : TaskBroker}
  {history : List (Nat × BrokerEvent)} {pool : Pool TaskBroker BrokerCall}
  {allowed : List (Nat × BrokerEvent) → Pool TaskBroker BrokerCall →
    Label BrokerAction BrokerAnswer → Prop}

theorem activeTasks_new (created : new options = .ok (settings, broker)) :
    broker.activeTasks = 0 := by
  unfold new at created
  cases limited : peerRateLimiter (options.peerRateLimit.getD defaultPeerRateLimit) with
  | error message =>
    rw [limited] at created
    cases created
  | ok limiter =>
    rw [limited] at created
    simp only [bind, Except.bind, pure, Except.pure, Except.ok.injEq, Prod.mk.injEq]
      at created
    rw [← created.2]

section

variable (idle : broker.activeTasks = 0)
    (runs : Runs (brokerProgram settings).step allowed (.initial broker) history pool)
include idle runs

theorem activeTasks_eq_countP : pool.shared.activeTasks = pool.calls.countP BrokerCall.inside := by
  refine counter_eq_countP idle ?_ ?_ ?_ runs
  · intro shared action after launched
    rcases brokerProgram_launch_cases launched with ⟨_, same, _⟩ | ⟨_, _, _, _, left, _⟩
    · exact same
    · cases left
  · intro shared action after call emitted launched
    rcases brokerProgram_launch_cases launched with ⟨left, _⟩ | ⟨_, _, _, rfl, left, _⟩
    · cases left
    · cases left
      exact (execute_accounts).balance
  · intro shared call answer after next emitted resumed
    obtain ⟨step, advanced, rfl, rfl, rfl⟩ := brokerProgram_resume resumed
    have balance := (advance_accounts advanced).balance
    simp only [BrokerCall.inside]
    cases inside : call.phase.inside
    all_goals
      simp only [inside, if_true, Bool.false_eq_true, if_false] at balance ⊢
      simp
      omega

theorem activeTasks_le : pool.shared.activeTasks ≤ settings.maxConcurrentTasks := by
  have initial : broker.activeTasks ≤ (settings.maxConcurrentTasks : Int) := by omega
  have acted : ∀ shared action after, shared.activeTasks ≤ (settings.maxConcurrentTasks : Int) →
        (brokerProgram settings).launch shared action = (after, none) →
          after.activeTasks ≤ (settings.maxConcurrentTasks : Int) := by
    intro shared action after bounded launched
    rcases brokerProgram_launch_cases launched with ⟨_, same, _⟩ | ⟨_, _, _, _, left, _⟩
    · rwa [same]
    · cases left
  have launched : ∀ shared action after call emitted,
      shared.activeTasks ≤ (settings.maxConcurrentTasks : Int) →
        (brokerProgram settings).launch shared action = (after, some (call, emitted)) →
          after.activeTasks ≤ (settings.maxConcurrentTasks : Int) := by
    intro shared action after call emitted bounded launched
    rcases brokerProgram_launch_cases launched with ⟨left, _⟩ | ⟨_, _, _, rfl, _⟩
    · cases left
    · exact execute_accounts.bounded bounded
  have resumed : ∀ shared call answer after next emitted,
      shared.activeTasks ≤ (settings.maxConcurrentTasks : Int) →
        (brokerProgram settings).resume shared call answer = some (after, next, emitted) →
          after.activeTasks ≤ (settings.maxConcurrentTasks : Int) := by
    intro shared call answer after next emitted bounded resumed
    obtain ⟨step, advanced, rfl, rfl, rfl⟩ := brokerProgram_resume resumed
    apply (advance_accounts advanced).bounded
    split <;> omega
  exact shared_invariant (fun shared => shared.activeTasks ≤ (settings.maxConcurrentTasks : Int))
    initial acted launched resumed runs

end

theorem settled_of_reportable
    (runs : Runs (brokerProgram settings).step (fun _ _ => ReportableLabel)
      (.initial broker) history pool) : ∀ index call, pool.calls[index]? = some call →
      call.task.Reportable ∧ .rejected ∉ ownOutputs history index ∧
        ∀ result, .settled result ∈ ownOutputs history index → result.taskId = call.task.id := by
  refine (local_invariant (fun own call =>
    call.task.Reportable ∧ .rejected ∉ own ∧
      ∀ result, .settled result ∈ own → result.taskId = call.task.id) ?_ ?_ runs).2
  · intro history pool action after call emitted permitted launched
    rcases brokerProgram_launch_cases launched with
      ⟨left, _⟩ | ⟨gate, task, start, _, left, entry⟩
    · cases left
    · cases left
      have reportable : task.Reportable ∧ start.Reportable := by
        rcases entry with rfl | rfl | ⟨rfl, _, rfl⟩
        · exact permitted
        · exact permitted
        · exact ⟨permitted, trivial⟩
      exact ⟨reportable.1, execute_unrejected reportable.1 reportable.2, execute_accounts.ownId⟩
  · intro history pool index answer own call after next emitted permitted holds resumed
    obtain ⟨step, advanced, rfl, rfl, rfl⟩ := brokerProgram_resume resumed
    obtain ⟨payload, unrejected, ownId⟩ := holds
    refine ⟨payload, fun member => ?_, fun result member => ?_⟩
    · rcases List.mem_append.mp member with old | new
      · exact unrejected old
      · exact advance_unrejected payload permitted advanced new
    · rcases List.mem_append.mp member with old | new
      · exact ownId result old
      · exact (advance_accounts advanced).ownId result new

end

def defaultBrokerSettings : BrokerSettings where
  maxConcurrentTasks := 100
  peerAccessContext := none
  agentGate := false
  taskApprovalGate := false

def defaultBroker : TaskBroker where
  skills := .empty
  peerSkillGate := false
  telemetryRateLimiter := .new 1000 10
  peerRateLimiter := .new 60000 30
  activeTasks := 0

def echoTask : TaskRequest where
  id := "task"
  skill := "echo"
  payload := .null
  peerId := none

end P2PHub
