import P2PHub.TaskBroker

/-!
# The evidence behind a dispatched network task

A network call gathers the answers of the gates among its own events, and
starts its handler only when it has all of them.
-/

namespace P2PHub

open BrokerStep AsyncCalls

open AsyncCalls (ownOutputs)

section

/-- The skill was found with registration flags that open it to the network. -/
structure Exposed (own : List BrokerEvent) (record : SkillRecord) : Prop where
  found : .skillFound record ∈ own
  networked : record.localOnly = false
  unbridged : record.httpBridgeOnly = false

/-- No permission matrix was installed, or it allowed the peer the skill. -/
def MatrixPassed (own : List BrokerEvent) (task : TaskRequest) (peerId : String) : Prop :=
  .matrixSkipped false ∈ own ∨ .matrixAnswered peerId task.skill (.resolved true) ∈ own

/-- A non-empty policy is about to be evaluated. -/
structure PolicyPending (own : List BrokerEvent) (task : TaskRequest) (record : SkillRecord)
    (policy : RemoteAccessPolicy) (agentLabel : Option String) : Prop where
  exposed : Exposed own record
  label : .agentResolved agentLabel ∈ own
  matrix : ∀ peerId, task.caller = some peerId → MatrixPassed own task peerId
  remote : record.remote = some policy
  gates : normalizeRemoteGates policy.gate ≠ []

/-- The peer access gate let an identified peer pass under the policy. -/
structure GatesPassed (settings : BrokerSettings) (own : List BrokerEvent) (task : TaskRequest)
    (peerId : String) (record : SkillRecord) (policy : RemoteAccessPolicy)
    (agentLabel : Option String) : Prop where
  identified : task.peerId = some peerId
  named : peerId ≠ ""
  pending : PolicyPending own task record policy agentLabel
  access : ∃ moment reason, .accessChecked moment (.granted reason) ∈ own ∧
    checkPeerAccess moment (some peerId) (some (remoteOptions policy agentLabel))
      settings.peerAccessContext = .granted reason

/-- Everything that the remote policy asks for. -/
structure Authorized (settings : BrokerSettings) (own : List BrokerEvent) (task : TaskRequest)
    (peerId : String) (record : SkillRecord) (policy : RemoteAccessPolicy)
    (agentLabel : Option String) : Prop where
  passed : GatesPassed settings own task peerId record policy agentLabel
  agent : ∀ label, agentLabel = some label → policy.agentLevel = some .telemetry ∨
    (policy.agentLevel = some .approved ∧
      .approvalAnswered ⟨task.id, task.skill, label, peerId⟩ (.resolved true) ∈ own)
  telemetry : record.capabilityType = .telemetry → ∃ limiter now,
    .telemetryConsulted limiter (telemetryKey peerId task.skill) now ∈ own ∧
      limiter.HasRoom (telemetryKey peerId task.skill) now

/-- Everything that stands behind the start of a handler. -/
def Dispatched (settings : BrokerSettings) (own : List BrokerEvent) (task : TaskRequest)
    (handler : Nat) : Prop :=
  ∃ peerId record policy agentLabel,
    Authorized settings own task peerId record policy agentLabel ∧ record.handler = handler ∧
      ∃ limiter now, .peerConsulted limiter peerId now ∈ own ∧ limiter.HasRoom peerId now

def PhaseEvidence (settings : BrokerSettings) (own : List BrokerEvent) (task : TaskRequest) :
    BrokerPhase → Prop
  | .resolvingAgent record => Exposed own record
  | .checkingMatrix record agentLabel =>
    Exposed own record ∧ .agentResolved agentLabel ∈ own
  | .evaluatingGates record policy agentLabel =>
    PolicyPending own task record policy agentLabel
  | .approving record policy agentLabel =>
    policy.agentLevel = some .approved ∧
      ∃ peerId, GatesPassed settings own task peerId record policy (some agentLabel)
  | .decided record agentLabel .allowed =>
    ∃ peerId policy, Authorized settings own task peerId record policy agentLabel
  | _ => True

variable {settings : BrokerSettings} {own larger : List BrokerEvent} {task : TaskRequest}
  {peerId : String} {record : SkillRecord} {policy : RemoteAccessPolicy}
  {agentLabel : Option String} {handler : Nat}

theorem Exposed.mono (exposed : Exposed own record) (grown : own ⊆ larger) :
    Exposed larger record :=
  ⟨grown exposed.found, exposed.networked, exposed.unbridged⟩

theorem MatrixPassed.mono (passed : MatrixPassed own task peerId) (grown : own ⊆ larger) :
    MatrixPassed larger task peerId := by
  rcases passed with skipped | answered
  · exact Or.inl (grown skipped)
  · exact Or.inr (grown answered)

theorem PolicyPending.mono (pending : PolicyPending own task record policy agentLabel)
    (grown : own ⊆ larger) : PolicyPending larger task record policy agentLabel where
  exposed := pending.exposed.mono grown
  label := grown pending.label
  matrix peerId caller := (pending.matrix peerId caller).mono grown
  remote := pending.remote
  gates := pending.gates

theorem GatesPassed.mono (passed : GatesPassed settings own task peerId record policy agentLabel)
    (grown : own ⊆ larger) : GatesPassed settings larger task peerId record policy agentLabel where
  identified := passed.identified
  named := passed.named
  pending := passed.pending.mono grown
  access := by
    rcases passed.access with ⟨moment, reason, checked, granted⟩
    exact ⟨moment, reason, grown checked, granted⟩

theorem Authorized.mono (authorized : Authorized settings own task peerId record policy agentLabel)
    (grown : own ⊆ larger) : Authorized settings larger task peerId record policy agentLabel where
  passed := authorized.passed.mono grown
  agent label agent := by
    rcases authorized.agent label agent with telemetry | ⟨approved, answered⟩
    · exact Or.inl telemetry
    · exact Or.inr ⟨approved, grown answered⟩
  telemetry limited := by
    rcases authorized.telemetry limited with ⟨limiter, now, consulted, room⟩
    exact ⟨limiter, now, grown consulted, room⟩

theorem Dispatched.mono (dispatched : Dispatched settings own task handler)
    (grown : own ⊆ larger) : Dispatched settings larger task handler := by
  rcases dispatched with
    ⟨peerId, record, policy, agentLabel, authorized, same, limiter, now, consulted, room⟩
  exact ⟨peerId, record, policy, agentLabel, authorized.mono grown, same, limiter, now,
    grown consulted, room⟩

end

section

variable {settings : BrokerSettings} {broker : TaskBroker} {gate : CallGate}
  {own : List BrokerEvent} {task : TaskRequest} {peerId : String} {record : SkillRecord}
  {policy : RemoteAccessPolicy} {agentLabel : Option String} {start : HandlerStart}
  {now : Int} {step : BrokerStep}

theorem caller_eq_some : task.caller = some peerId ↔ task.peerId = some peerId ∧ peerId ≠ "" := by
  simp [TaskRequest.caller, Option.filter_eq_some_iff]

/-- A stretch of a call that gathers no less than its phase needs, and starts
no handler. -/
structure BrokerStep.Gathers (step : BrokerStep) (settings : BrokerSettings)
    (own : List BrokerEvent) (task : TaskRequest) : Prop where
  phase : PhaseEvidence settings (own ++ step.events) task step.phase
  idle : ∀ handler payload context, .handlerStarted handler payload context ∉ step.events

theorem BrokerStep.Gathers.after {event : BrokerEvent}
    (gathers : step.Gathers settings (own ++ [event]) task)
    (quiet : ∀ handler payload context, event ≠ .handlerStarted handler payload context) :
    (step.after event).Gathers settings own task := by
  refine ⟨?_, fun handler payload context member => ?_⟩
  · simpa [BrokerStep.after] using gathers.phase
  · rcases BrokerStep.mem_after.mp member with same | later
    · exact quiet handler payload context same.symm
    · exact gathers.idle handler payload context later

theorem deny_gathers (denial : Denial) : (deny broker task denial).Gathers settings own task :=
  ⟨trivial, by simp [deny]⟩

theorem beginPolicy_evidence (exposed : Exposed own record)
    (label : .agentResolved agentLabel ∈ own)
    (matrix : ∀ peerId, task.caller = some peerId → MatrixPassed own task peerId) :
    PhaseEvidence settings own task (beginPolicy record agentLabel) := by
  unfold beginPolicy
  split
  · trivial
  · next policy remote =>
      split
      · trivial
      · next proving =>
          have gates : normalizeRemoteGates policy.gate ≠ [] := fun empty =>
            proving (Or.inl empty)
          exact ⟨exposed, label, matrix, remote, gates⟩

theorem beginMatrix_gathers (exposed : Exposed own record) :
    (beginMatrix broker task record agentLabel).Gathers settings own task := by
  unfold beginMatrix
  split
  · exact ⟨⟨exposed.mono (by simp), by simp⟩, by simp⟩
  · next skipped =>
      refine ⟨beginPolicy_evidence (exposed.mono (by simp)) (by simp) ?_, by simp⟩
      intro peerId caller
      have absent : broker.peerSkillGate = false := by
        simpa [caller] using skipped
      exact Or.inl (by simp [absent])

section

variable (passed : GatesPassed settings own task peerId record policy agentLabel)
include passed

theorem enforceTelemetryRateLimit_gathers
    (agent : ∀ label, agentLabel = some label → policy.agentLevel = some .telemetry ∨
      (policy.agentLevel = some .approved ∧
        .approvalAnswered ⟨task.id, task.skill, label, peerId⟩ (.resolved true) ∈ own)) :
    (enforceTelemetryRateLimit broker task record agentLabel now).Gathers settings own task := by
  have key : task.peerKey = peerId := by
    have caller := caller_eq_some.mpr ⟨passed.identified, passed.named⟩
    simp [TaskRequest.peerKey, caller]
  unfold enforceTelemetryRateLimit
  split
  · next limited =>
      dsimp only
      rw [key]
      refine ⟨?_, by simp⟩
      cases room : (broker.telemetryRateLimiter.allow (telemetryKey peerId task.skill) now).2 with
      | false => exact trivial
      | true =>
        refine ⟨peerId, policy, passed.mono (by simp), fun label same => ?_, fun _ => ?_⟩
        · rcases agent label same with telemetry | ⟨approved, answered⟩
          · exact Or.inl telemetry
          · exact Or.inr ⟨approved, by simp [answered]⟩
        · exact ⟨_, now, by simp, RateLimiter.allow_eq_true.mp room⟩
  · next unlimited =>
      refine ⟨⟨peerId, policy, passed.mono (by simp), ?_, fun limited => ?_⟩, by simp⟩
      · simpa using agent
      · exact absurd limited unlimited

theorem applyAgentMatrix_gathers :
    (applyAgentMatrix settings broker task record policy agentLabel now).Gathers settings own
      task := by
  unfold applyAgentMatrix
  cases agentLabel with
  | none => exact enforceTelemetryRateLimit_gathers passed (by simp)
  | some label =>
    dsimp only
    split
    · exact ⟨trivial, by simp⟩
    · next approved =>
        split
        · exact ⟨⟨approved, peerId, passed.mono (by simp)⟩, by simp⟩
        · exact ⟨trivial, by simp⟩
    · next notNever notApproved =>
        have validated := record.validated policy passed.pending.remote
        have telemetry : policy.agentLevel = some .telemetry := by
          rcases agentLevel_of_validated validated with telemetry | approved | never
          · exact telemetry
          · exact absurd approved notApproved
          · exact absurd never notNever
        exact enforceTelemetryRateLimit_gathers passed fun _ _ => Or.inl telemetry

end

theorem gatesPassed_of_granted {moment : Nat}
    (pending : PolicyPending own task record policy agentLabel)
    (granted : (checkPeerAccess moment (some (task.peerId.getD ""))
      (some (remoteOptions policy agentLabel)) settings.peerAccessContext).isGranted) :
    ∃ peerId, GatesPassed settings
      (own ++ [.accessChecked moment (checkPeerAccess moment (some (task.peerId.getD ""))
        (some (remoteOptions policy agentLabel)) settings.peerAccessContext)])
      task peerId record policy agentLabel := by
  have named : task.peerId.getD "" ≠ "" := by
    intro empty
    rw [empty, checkPeerAccess_empty] at granted
    cases granted
  cases identified : task.peerId with
  | none => simp [identified] at named
  | some peerId =>
    simp only [identified, Option.getD_some] at named granted ⊢
    cases decided : checkPeerAccess moment (some peerId)
        (some (remoteOptions policy agentLabel)) settings.peerAccessContext with
    | denied reason =>
      rw [decided] at granted
      cases granted
    | granted reason =>
      exact ⟨peerId, identified, named, pending.mono (by simp), moment, reason, by simp, decided⟩

theorem execute_gathers : (execute settings broker .network task start).Gathers settings [] task :=
    by
  unfold execute
  split
  · exact deny_gathers _
  · next record found =>
      apply Gathers.after _ (by simp)
      rw [if_pos rfl]
      split
      · exact deny_gathers _
      · next open_ =>
          have exposed : Exposed ([] ++ [.skillFound record]) record := by
            have flags : record.localOnly = false ∧ record.httpBridgeOnly = false := by
              simpa using open_
            exact ⟨by simp, flags.1, flags.2⟩
          split
          · exact ⟨exposed.mono (by simp), by simp⟩
          · exact beginMatrix_gathers exposed

/-- The guarded section leaves nothing suspended that needs evidence, and
starts no handler but the record's, on the task's payload. -/
theorem admit_started : PhaseEvidence settings own task
        (admitTask settings broker gate task record agentLabel start).phase ∧
      ∀ handler payload context, .handlerStarted handler payload context ∈
        (admitTask settings broker gate task record agentLabel start).events →
          record.handler = handler ∧ payload = task.payload := by
  have failed (broker : TaskBroker) (thrown : Thrown) :
      PhaseEvidence settings own task (failTask broker task thrown).phase ∧
        ∀ handler payload context, .handlerStarted handler payload context ∉
          (failTask broker task thrown).events := by
    unfold failTask
    cases thrown.report with
    | none | some => exact ⟨trivial, by simp⟩
  unfold admitTask
  split
  · exact ⟨trivial, by simp [deny]⟩
  · split
    · exact ⟨trivial, by simp [deny]⟩
    · simp only [mem_after, reduceCtorEq, false_or]
      unfold startHandler
      cases task.validatePayload with
      | error thrown =>
        refine ⟨(failed _ thrown).1, fun handler payload context member => ?_⟩
        exact absurd member ((failed _ thrown).2 handler payload context)
      | ok _ =>
        cases start with
        | pending =>
          refine ⟨trivial, fun handler payload context member => ?_⟩
          have started := List.mem_singleton.mp member
          simp only [BrokerEvent.handlerStarted.injEq] at started
          exact ⟨started.1.symm, started.2.1⟩
        | threw thrown =>
          refine ⟨(failed _ thrown).1, fun handler payload context member => ?_⟩
          rcases mem_after.mp member with started | later
          · simp only [BrokerEvent.handlerStarted.injEq] at started
            exact ⟨started.1.symm, started.2.1⟩
          · exact absurd later ((failed _ thrown).2 handler payload context)

/-- The stretch with the peer budget starts a handler only with every piece of
evidence. -/
theorem applyPeerRateLimit_dispatches
    (authorized : Authorized settings own task peerId record policy agentLabel) :
    PhaseEvidence settings
        (own ++ (applyPeerRateLimit settings broker gate task record agentLabel now start).events)
        task (applyPeerRateLimit settings broker gate task record agentLabel now start).phase ∧
      ∀ handler payload context, .handlerStarted handler payload context ∈
        (applyPeerRateLimit settings broker gate task record agentLabel now start).events →
          Dispatched settings (own ++
              (applyPeerRateLimit settings broker gate task record agentLabel now start).events)
            task handler ∧ payload = task.payload := by
  have key : task.peerKey = peerId := by
    have caller := caller_eq_some.mpr ⟨authorized.passed.identified, authorized.passed.named⟩
    simp [TaskRequest.peerKey, caller]
  unfold applyPeerRateLimit
  dsimp only
  rw [key]
  cases room : (broker.peerRateLimiter.allow peerId now).2 with
  | false => exact ⟨trivial, by simp [deny]⟩
  | true =>
    refine ⟨admit_started.1, fun handler payload context member => ?_⟩
    rcases mem_after.mp member with same | started
    · cases same
    · have own : record.handler = handler ∧ payload = task.payload :=
        (@admit_started settings _ _ [] _ _ _ _).2 handler payload context started
      refine ⟨⟨peerId, record, policy, agentLabel, authorized.mono (by simp), own.1,
        broker.peerRateLimiter, now, ?_, RateLimiter.allow_eq_true.mp room⟩, own.2⟩
      simp [after]

theorem advance_dispatches {phase : BrokerPhase} {answer : BrokerAnswer}
    (evidence : PhaseEvidence settings own task phase)
    (advanced : advance settings broker gate task phase answer = some step) :
    PhaseEvidence settings (own ++ step.events) task step.phase ∧
      ∀ handler payload context, .handlerStarted handler payload context ∈ step.events →
        Dispatched settings (own ++ step.events) task handler ∧ payload = task.payload := by
  have settle (gathers : step.Gathers settings own task) :
      PhaseEvidence settings (own ++ step.events) task step.phase ∧
        ∀ handler payload context, .handlerStarted handler payload context ∈ step.events →
          Dispatched settings (own ++ step.events) task handler ∧ payload = task.payload :=
    ⟨gathers.phase, fun handler payload context member =>
      absurd member (gathers.idle handler payload context)⟩
  unfold advance at advanced
  split at advanced
  all_goals simp only [Option.some.injEq, reduceCtorEq] at advanced
  · subst advanced
    exact settle (beginMatrix_gathers evidence)
  · next record agentLabel outcome =>
      subst advanced
      apply settle
      apply Gathers.after _ (by simp)
      split
      · next answered =>
          have allowed := evaluateBool_eq_true.mp answered
          refine ⟨?_, by simp⟩
          refine beginPolicy_evidence (evidence.1.mono (by simp)) (by simp [evidence.2]) ?_
          intro peerId caller
          have identified := (caller_eq_some.mp caller).1
          exact Or.inr (by simp [identified, allowed])
      · exact deny_gathers _
  · next record policy agentLabel moment now =>
      subst advanced
      apply settle
      apply Gathers.after _ (by simp)
      split
      · next granted =>
          rcases gatesPassed_of_granted evidence granted with ⟨peerId, passed⟩
          exact applyAgentMatrix_gathers passed
      · exact ⟨trivial, by simp⟩
  · next record policy label outcome now =>
      subst advanced
      apply settle
      apply Gathers.after _ (by simp)
      split
      · next answered =>
          have approved := evaluateBool_eq_true.mp answered
          rcases evidence with ⟨level, peerId, passed⟩
          refine enforceTelemetryRateLimit_gathers (passed.mono (by simp)) ?_
          intro agent same
          cases same
          exact Or.inr ⟨level, by simp [passed.identified, approved]⟩
      · exact ⟨trivial, by simp⟩
  · subst advanced
    rcases evidence with ⟨peerId, policy, authorized⟩
    exact applyPeerRateLimit_dispatches authorized
  · subst advanced
    exact settle (deny_gathers _)
  · subst advanced
    exact settle (deny_gathers _)
  · subst advanced
    exact ⟨trivial, by simp [finishTask]⟩
  · next thrown =>
      subst advanced
      unfold failTask
      cases thrown.report with
      | none | some => exact ⟨trivial, by simp⟩

end

theorem dispatched_of_handlerStarted {settings : BrokerSettings} {broker : TaskBroker}
    {history : List (Nat × BrokerEvent)} {pool : Pool TaskBroker BrokerCall}
    {allowed : List (Nat × BrokerEvent) → Pool TaskBroker BrokerCall →
      Label BrokerAction BrokerAnswer → Prop}
    (runs : Transition.Runs (brokerProgram settings).step allowed (.initial broker) history pool) :
    ∀ index call, pool.calls[index]? = some call → call.gate = .network →
      PhaseEvidence settings (ownOutputs history index) call.task call.phase ∧
        ∀ handler payload context,
          .handlerStarted handler payload context ∈ ownOutputs history index →
            Dispatched settings (ownOutputs history index) call.task handler ∧
              payload = call.task.payload := by
  refine (local_invariant (fun own call => call.gate = .network →
    PhaseEvidence settings own call.task call.phase ∧
      ∀ handler payload context, .handlerStarted handler payload context ∈ own →
        Dispatched settings own call.task handler ∧ payload = call.task.payload) ?_ ?_ runs).2
  · intro history pool action after call emitted _ launched network
    rcases brokerProgram_launch_cases launched with ⟨left, _⟩ | ⟨gate, task, start, _, left, _⟩
    · cases left
    · cases left
      obtain rfl : gate = .network := network
      have gathers : (execute settings pool.shared .network task start).Gathers settings []
          task := execute_gathers
      exact ⟨gathers.phase, fun handler payload context member =>
        absurd member (gathers.idle handler payload context)⟩
  · intro history pool index answer own call after next emitted _ holds resumed network
    obtain ⟨step, advanced, rfl, rfl, rfl⟩ := brokerProgram_resume resumed
    have earlier := holds network
    have later := advance_dispatches earlier.1 advanced
    refine ⟨later.1, fun handler payload context member => ?_⟩
    rcases List.mem_append.mp member with old | new
    · have started := earlier.2 handler payload context old
      exact ⟨started.1.mono (List.subset_append_left _ _), started.2⟩
    · exact later.2 handler payload context new

end P2PHub
