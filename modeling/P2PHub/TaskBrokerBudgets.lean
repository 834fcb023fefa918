import P2PHub.TaskBroker

/-!
# Who is charged for a task

The limiters are consulted and the counter of active tasks moves only in
stretches that show it in their events, and a call turned away by the
registration flags, the permission matrix or the policy has no such stretch.
-/

namespace P2PHub

open BrokerStep AsyncCalls Transition

open AsyncCalls (ownOutputs)

/-- The events of stretches that charge a limiter or enter the guarded
section. -/
def BrokerEvent.charges : BrokerEvent → Bool
  | telemetryConsulted _ _ _ | peerConsulted _ _ _ | admitted => true
  | _ => false

def Uncharged (events : List BrokerEvent) : Prop :=
  ∀ event ∈ events, event.charges = false

def RefusedByPolicy (events : List BrokerEvent) : Prop :=
  ∃ denial, .denied denial ∈ events ∧ denial.ofPolicy = true

def BrokerPhase.free : BrokerPhase → Bool
  | resolvingAgent _ | checkingMatrix _ _ | evaluatingGates _ _ _ | approving _ _ _ => true
  | decided _ _ .refused => true
  | _ => false

def BrokerPhase.isSettled : BrokerPhase → Bool
  | settled _ => true
  | _ => false

/-- Neither a limiter nor the counter of active tasks differs. -/
structure SameBudgets (before after : TaskBroker) : Prop where
  telemetry : after.telemetryRateLimiter = before.telemetryRateLimiter
  peer : after.peerRateLimiter = before.peerRateLimiter
  active : after.activeTasks = before.activeTasks

theorem SameBudgets.refl (broker : TaskBroker) : SameBudgets broker broker :=
  ⟨rfl, rfl, rfl⟩

/-- What a stretch of a call whose handler does not run does to the budgets;
`fresh` says that the call was in a phase before any charge. -/
structure BrokerStep.Ledger (step : BrokerStep) (broker : TaskBroker) (fresh : Prop) : Prop where
  refused : RefusedByPolicy step.events →
    fresh ∧ step.phase.isSettled = true ∧ Uncharged step.events
  free : step.phase.free = true → fresh ∧ Uncharged step.events
  running : step.phase = .running → .admitted ∈ step.events
  same : Uncharged step.events → SameBudgets broker step.broker

section

variable {settings : BrokerSettings} {broker : TaskBroker} {gate : CallGate}
  {task : TaskRequest} {record : SkillRecord} {policy : RemoteAccessPolicy}
  {agentLabel : Option String} {start : HandlerStart} {now : Int} {step : BrokerStep}
  {fresh : Prop} {event : BrokerEvent} {phase : BrokerPhase} {answer : BrokerAnswer}

theorem uncharged_nil : Uncharged [] := by
  simp [Uncharged]

theorem uncharged_after (free : event.charges = false) :
    Uncharged (step.after event).events ↔ Uncharged step.events := by
  simp [Uncharged, after, free]

theorem BrokerStep.Ledger.after (ledger : step.Ledger broker fresh)
    (free : event.charges = false) (other : ∀ denial, event ≠ .denied denial) :
    (step.after event).Ledger broker fresh := by
  refine ⟨fun refused => ?_, fun phase => ?_, fun running => ?_, fun uncharged => ?_⟩
  · rcases refused with ⟨denial, member, ofPolicy⟩
    rcases mem_after.mp member with same | later
    · exact absurd same.symm (other denial)
    · rw [uncharged_after free]
      exact ledger.refused ⟨denial, later, ofPolicy⟩
  · rw [uncharged_after free]
    exact ledger.free phase
  · exact mem_after.mpr (Or.inr (ledger.running running))
  · exact ledger.same ((uncharged_after free).mp uncharged)

theorem ledger_of_charge (member : event ∈ step.events) (charged : event.charges)
    (unrefused : ¬ RefusedByPolicy step.events) (taken : step.phase.free = false)
    (running : step.phase = .running → .admitted ∈ step.events) : step.Ledger broker fresh := by
  have notFree (uncharged : Uncharged step.events) : False := by
    have free := uncharged event member
    rw [charged] at free
    cases free
  refine ⟨fun refused => absurd refused unrefused, fun free => ?_, running, fun uncharged => ?_⟩
  · rw [taken] at free
    cases free
  · exact (notFree uncharged).elim

theorem ledger_of_suspended {events : List BrokerEvent}
    (uncharged : Uncharged events) (unrefused : ¬ RefusedByPolicy events)
    (early : fresh) (outside : phase ≠ .running) : (mk broker phase events).Ledger broker fresh :=
  ⟨fun refused => absurd refused unrefused, fun _ => ⟨early, uncharged⟩,
    fun running => absurd running outside, fun _ => .refl broker⟩

theorem deny_uncharged (denial : Denial) : Uncharged (deny broker task denial).events := by
  simp [Uncharged, deny, BrokerEvent.charges]

theorem deny_ledger {denial : Denial} (early : denial.ofPolicy → fresh) :
    (deny broker task denial).Ledger broker fresh := by
  refine ⟨fun refused => ?_, fun free => ?_, fun running => ?_, fun _ => .refl broker⟩
  · rcases refused with ⟨other, member, ofPolicy⟩
    have same : other = denial := by simpa [deny] using member
    rw [same] at ofPolicy
    exact ⟨early ofPolicy, rfl, deny_uncharged denial⟩
  · cases free
  · cases running

theorem beginPolicy_ne_running : beginPolicy record agentLabel ≠ .running := by
  unfold beginPolicy
  split
  · simp
  · split <;> simp

theorem beginMatrix_ledger (early : fresh) :
    (beginMatrix broker task record agentLabel).Ledger broker fresh := by
  unfold beginMatrix
  split
  · exact ledger_of_suspended (by simp [Uncharged, BrokerEvent.charges])
      (by simp [RefusedByPolicy]) early (by simp)
  · exact ledger_of_suspended (by simp [Uncharged, BrokerEvent.charges])
      (by simp [RefusedByPolicy]) early beginPolicy_ne_running

theorem enforceTelemetryRateLimit_ledger (early : fresh) :
    (enforceTelemetryRateLimit broker task record agentLabel now).Ledger broker fresh := by
  unfold enforceTelemetryRateLimit
  split
  · dsimp only
    apply ledger_of_charge (List.mem_singleton.mpr rfl) rfl (by simp [RefusedByPolicy])
    · split <;> rfl
    · intro running
      cases running
  · exact ledger_of_suspended uncharged_nil (by simp [RefusedByPolicy]) early (by simp)

theorem applyAgentMatrix_ledger (early : fresh) :
    (applyAgentMatrix settings broker task record policy agentLabel now).Ledger broker fresh := by
  have suspended (phase : BrokerPhase) (outside : phase ≠ .running) :
      (mk broker phase []).Ledger broker fresh :=
    ledger_of_suspended uncharged_nil (by simp [RefusedByPolicy]) early outside
  unfold applyAgentMatrix
  cases agentLabel with
  | none => exact enforceTelemetryRateLimit_ledger early
  | some label =>
    dsimp only
    split
    · exact suspended _ (by simp)
    · split <;> exact suspended _ (by simp)
    · exact enforceTelemetryRateLimit_ledger early

theorem admit_unrefused :
    ¬ RefusedByPolicy (admitTask settings broker gate task record agentLabel start).events ∧
      (admitTask settings broker gate task record agentLabel start).phase.free = false ∧
      ((admitTask settings broker gate task record agentLabel start).phase = .running →
        .admitted ∈ (admitTask settings broker gate task record agentLabel start).events) := by
  have failed (broker : TaskBroker) (thrown : Thrown) :
      ¬ RefusedByPolicy (failTask broker task thrown).events ∧
        (failTask broker task thrown).phase.free = false := by
    unfold failTask
    cases thrown.report with
    | none | some => exact ⟨by simp [RefusedByPolicy], rfl⟩
  have denied (denial : Denial) (other : denial.ofPolicy = false) :
      ¬ RefusedByPolicy (deny broker task denial).events := by
    simp [RefusedByPolicy, deny, other]
  unfold admitTask
  split
  · exact ⟨denied _ rfl, rfl, by simp [deny]⟩
  · split
    · exact ⟨denied _ rfl, rfl, by simp [deny]⟩
    · refine ⟨?_, ?_, fun _ => by simp⟩
      · simp only [RefusedByPolicy, mem_after, reduceCtorEq, false_or]
        unfold startHandler
        cases task.validatePayload with
        | error thrown => exact (failed _ thrown).1
        | ok _ =>
          cases start with
          | pending => simp
          | threw thrown =>
            simpa only [RefusedByPolicy, mem_after, reduceCtorEq, false_or] using
              (failed _ thrown).1
      · unfold startHandler
        cases task.validatePayload with
        | error thrown => exact (failed _ thrown).2
        | ok _ =>
          cases start with
          | pending => rfl
          | threw thrown => exact (failed _ thrown).2

theorem applyPeerRateLimit_ledger :
    (applyPeerRateLimit settings broker gate task record agentLabel now start).Ledger broker
      fresh := by
  apply ledger_of_charge (mem_after.mpr (Or.inl rfl)) rfl
  · simp only [RefusedByPolicy, mem_after, reduceCtorEq, false_or]
    split
    · exact admit_unrefused.1
    · simp [deny, Denial.ofPolicy]
  · split
    · exact admit_unrefused.2.1
    · rfl
  · split
    · intro running
      exact mem_after.mpr (Or.inr (admit_unrefused.2.2 running))
    · intro running
      cases running

theorem admit_ledger :
    (admitTask settings broker gate task record agentLabel start).Ledger broker fresh := by
  unfold admitTask
  split
  · exact deny_ledger (by simp [Denial.ofPolicy])
  · next exposed =>
      split
      · exact deny_ledger (by simp [Denial.ofPolicy])
      · next room =>
          have same : (startHandler broker.enter gate task record agentLabel start).after
              .admitted = admitTask settings broker gate task record agentLabel start := by
            simp [admitTask, exposed, room]
          have member : .admitted ∈
              (admitTask settings broker gate task record agentLabel start).events := by
            simp [← same]
          rw [same]
          exact ledger_of_charge member rfl admit_unrefused.1 admit_unrefused.2.1
            admit_unrefused.2.2

theorem execute_ledger (early : fresh) :
    (execute settings broker gate task start).Ledger broker fresh := by
  unfold execute
  split
  · exact deny_ledger fun _ => early
  · apply Ledger.after _ rfl (by simp)
    split
    · split
      · exact deny_ledger fun _ => early
      · split
        · exact ledger_of_suspended uncharged_nil (by simp [RefusedByPolicy]) early (by simp)
        · exact beginMatrix_ledger early
    · exact admit_ledger

theorem advance_ledger (outside : phase ≠ .running)
    (advanced : advance settings broker gate task phase answer = some step) :
    step.Ledger broker (phase.free) := by
  unfold advance at advanced
  split at advanced
  all_goals simp only [Option.some.injEq, reduceCtorEq] at advanced
  all_goals try subst advanced
  · exact beginMatrix_ledger rfl
  · apply Ledger.after _ rfl (by simp)
    split
    · exact ledger_of_suspended uncharged_nil (by simp [RefusedByPolicy]) rfl beginPolicy_ne_running
    · exact deny_ledger fun _ => rfl
  · apply Ledger.after _ rfl (by simp)
    split
    · exact applyAgentMatrix_ledger rfl
    · exact ledger_of_suspended uncharged_nil (by simp [RefusedByPolicy]) rfl (by simp)
  · apply Ledger.after _ rfl (by simp)
    split
    · exact enforceTelemetryRateLimit_ledger rfl
    · exact ledger_of_suspended uncharged_nil (by simp [RefusedByPolicy]) rfl (by simp)
  · exact applyPeerRateLimit_ledger
  · exact deny_ledger fun _ => rfl
  · exact deny_ledger (by simp [Denial.ofPolicy])
  · exact absurd rfl outside
  · exact absurd rfl outside

theorem advance_running (advanced : advance settings broker gate task .running answer = some step) :
    ¬ RefusedByPolicy step.events ∧ step.phase.free = false ∧ step.phase ≠ .running := by
  cases answer with
  | handler outcome =>
    cases outcome with
    | ok value =>
      cases advanced
      exact ⟨by simp [RefusedByPolicy, finishTask], rfl, by simp [finishTask]⟩
    | error thrown =>
      cases advanced
      unfold failTask
      cases thrown.report with
      | none | some => exact ⟨by simp [RefusedByPolicy], rfl, by simp⟩
  | _ => cases advanced

theorem advance_settled (advanced : advance settings broker gate task phase answer = some step) :
    phase.isSettled = false := by
  cases phase with
  | settled result => cases advanced
  | _ => rfl

end

/-- What the events of a call say about the phase it is in. -/
structure Clean (own : List BrokerEvent) (phase : BrokerPhase) : Prop where
  refused : RefusedByPolicy own → phase.isSettled = true ∧ Uncharged own
  free : phase.free = true → Uncharged own
  running : phase = .running → ¬ Uncharged own

variable {settings : BrokerSettings} {broker : TaskBroker} {own earlier later : List BrokerEvent}

theorem uncharged_append : Uncharged (earlier ++ later) ↔ Uncharged earlier ∧ Uncharged later :=
  List.forall_mem_append

theorem refusedByPolicy_append :
    RefusedByPolicy (earlier ++ later) ↔ RefusedByPolicy earlier ∨ RefusedByPolicy later := by
  simp only [RefusedByPolicy, List.mem_append, or_and_right, exists_or]

theorem charged_of_admitted (admitted : .admitted ∈ own) : ¬ Uncharged own := by
  intro uncharged
  have free := uncharged _ admitted
  cases free

theorem clean_of_ledger {step : BrokerStep} (ledger : step.Ledger broker True) :
    Clean step.events step.phase where
  refused refused := (ledger.refused refused).2
  free free := (ledger.free free).2
  running running := charged_of_admitted (ledger.running running)

theorem Clean.advance {gate : CallGate} {task : TaskRequest} {phase : BrokerPhase}
    {answer : BrokerAnswer} {step : BrokerStep} (clean : Clean own phase)
    (advanced : advance settings broker gate task phase answer = some step) :
    Clean (own ++ step.events) step.phase := by
  have unrefused : ¬ RefusedByPolicy own := by
    intro refused
    have settled := (clean.refused refused).1
    rw [advance_settled advanced] at settled
    cases settled
  by_cases running : phase = .running
  · rw [running] at advanced
    rcases advance_running advanced with ⟨stillUnrefused, taken, ended⟩
    refine ⟨fun refused => ?_, fun free => ?_, fun again => absurd again ended⟩
    · rcases refusedByPolicy_append.mp refused with old | new
      · exact absurd old unrefused
      · exact absurd new stillUnrefused
    · rw [taken] at free
      cases free
  · have ledger := advance_ledger running advanced
    refine ⟨fun refused => ?_, fun free => ?_, fun admitted => ?_⟩
    · rcases refusedByPolicy_append.mp refused with old | new
      · exact absurd old unrefused
      · rcases ledger.refused new with ⟨early, settled, uncharged⟩
        exact ⟨settled, uncharged_append.mpr ⟨clean.free early, uncharged⟩⟩
    · rcases ledger.free free with ⟨early, uncharged⟩
      exact uncharged_append.mpr ⟨clean.free early, uncharged⟩
    · exact charged_of_admitted (List.mem_append_right _ (ledger.running admitted))

variable {before after final : Pool TaskBroker BrokerCall}
  {history outputs rest : List (Nat × BrokerEvent)}
  {label : Label BrokerAction BrokerAnswer} {index : Nat}

theorem clean_of_runs {allowed : List (Nat × BrokerEvent) → Pool TaskBroker BrokerCall →
      Label BrokerAction BrokerAnswer → Prop}
    (runs : Runs (brokerProgram settings).step allowed (.initial broker) history final) :
    (∀ index, final.calls.length ≤ index → ownOutputs history index = []) ∧
      ∀ index call, final.calls[index]? = some call →
        Clean (ownOutputs history index) call.phase := by
  refine local_invariant (fun own call => Clean own call.phase) ?_ ?_ runs
  · intro history pool action after call emitted _ launched
    rcases brokerProgram_launch_cases launched with ⟨left, _⟩ | ⟨_, _, _, _, left, _⟩
    · cases left
    · cases left
      exact clean_of_ledger (execute_ledger trivial)
  · intro history pool index answer own call after next emitted _ clean resumed
    obtain ⟨step, advanced, rfl, rfl, rfl⟩ := brokerProgram_resume resumed
    exact clean.advance advanced

def Concerns (index : Nat) (pool : Pool TaskBroker BrokerCall) :
    Label BrokerAction BrokerAnswer → Prop
  | .launch _ => pool.calls.length = index
  | .resume position _ => position = index

/-- No turn of a call that is turned away by flags, matrix or policy charges a
limiter or counts it as active. -/
theorem sameBudgets_of_refused (first : Runs (brokerProgram settings).step (fun _ _ _ => True)
      (.initial broker) history before)
    (stepped : (brokerProgram settings).step before label = some (after, outputs))
    (concerns : Concerns index before label)
    (second : Runs (brokerProgram settings).step (fun _ _ _ => True) after rest final)
    (refused : RefusedByPolicy (ownOutputs (history ++ outputs ++ rest) index)) :
    SameBudgets before.shared after.shared := by
  have whole : Runs (brokerProgram settings).step (fun _ _ _ => True)
      (.initial broker) (history ++ outputs ++ rest) final :=
    Runs.trans (.tail first trivial stepped) second
  have uncharged : Uncharged (ownOutputs (history ++ outputs ++ rest) index) := by
    rcases clean_of_runs whole with ⟨silent, clean⟩
    cases found : final.calls[index]? with
    | some call => exact ((clean index call found).refused refused).2
    | none =>
      rw [silent index (List.getElem?_eq_none_iff.mp found)]
      exact uncharged_nil
  simp only [ownOutputs_append, uncharged_append] at uncharged
  rcases Program.step_cases stepped with
    ⟨action, rfl, launched, _, rfl⟩ |
    ⟨action, call, emitted, rfl, launched, _, rfl⟩ |
    ⟨position, answer, call, next, emitted, rfl, found, resumed, _, rfl⟩
  · rcases brokerProgram_launch_cases launched with ⟨_, active, telemetry, peer⟩ | ⟨_, _, _, _,
    left, _⟩
    · exact ⟨telemetry, peer, active⟩
    · cases left
  · rcases brokerProgram_launch_cases launched with ⟨left, _⟩ | ⟨_, _, _, same, left, _⟩
    · cases left
    · cases left
      rw [same]
      have free := uncharged.1.2
      rw [show before.calls.length = index from concerns, ownOutputs_self] at free
      exact (execute_ledger trivial).same free
  · obtain rfl : position = index := concerns
    obtain ⟨step, advanced, same, rfl, rfl⟩ := brokerProgram_resume resumed
    rw [same]
    have outside : call.phase ≠ .running := fun running =>
      ((clean_of_runs first).2 position call found).running running uncharged.1.1
    have free := uncharged.1.2
    rw [ownOutputs_self] at free
    exact (advance_ledger outside advanced).same free

end P2PHub
