import P2PHub.TaskBrokerDispatch

/-!
# Registrations and the calls that captured them

`execute` looks the skill's record up once and goes on with it through all of
its awaits.
-/

namespace P2PHub

open AsyncCalls Transition BrokerStep

open AsyncCalls (ownOutputs)

/-- The record with which a suspended call goes on towards its handler. -/
def BrokerPhase.record : BrokerPhase → Option SkillRecord
  | resolvingAgent record | checkingMatrix record _ | evaluatingGates record _ _
  | approving record _ _ | decided record _ _ => some record
  | running | settled _ | rejected => none

/-- What the code checks between the end of the policy evaluation and the
start of the handler. -/
structure GetsThrough (settings : BrokerSettings) (broker : TaskBroker) (gate : CallGate)
    (task : TaskRequest) (record : SkillRecord) (now : Int) : Prop where
  budget : (broker.peerRateLimiter.allow task.peerKey now).2 = true
  exposed : ¬ (gate = .http ∧ record.httpExposed = false)
  capacity : broker.activeTasks < settings.maxConcurrentTasks
  payload : task.validatePayload = .ok ()

/-- A turn takes no call past its last check whose registration has gone or
has been replaced since the call looked it up. -/
def Unrevoked (settings : BrokerSettings) (pool : Pool TaskBroker BrokerCall)
    (label : Label BrokerAction BrokerAnswer) : Prop :=
  ∀ index now start call record agentLabel,
    label = .resume index (.proceed now start) → pool.calls[index]? = some call →
      call.phase = .decided record agentLabel .allowed →
        GetsThrough settings pool.shared call.gate call.task record now →
          pool.shared.skills.get call.task.skill = some record

/-- A turn starts no handler but that of the registration in force of the
skill, and only of a call that was judged by that registration alone. -/
def StartsInForce (settings : BrokerSettings) (history : List (Nat × BrokerEvent))
    (pool : Pool TaskBroker BrokerCall)
    (label : Label BrokerAction BrokerAnswer) : Prop :=
  ∀ after outputs, (brokerProgram settings).step pool label = some (after, outputs) →
    ∀ index handler payload context, (index, .handlerStarted handler payload context) ∈ outputs →
        ∃ call record, after.calls[index]? = some call ∧
          pool.shared.skills.get call.task.skill = some record ∧ record.handler = handler ∧
            ∀ other, (index, .skillFound other) ∈ history ++ outputs ↔ other = record

def Registers (skill : String) (pool : Pool TaskBroker BrokerCall)
    (label : Label BrokerAction BrokerAnswer) : Prop :=
  ∃ handler options after, label = .launch (.registerSkill skill handler options) ∧
    pool.shared.registerSkill skill handler options = .ok after

/-- Once the skill is unregistered and as long as it is not registered again,
no call of it starts a handler, in the runs whose turns are allowed. -/
def Silenced (settings : BrokerSettings) (allowed : Pool TaskBroker BrokerCall →
      Label BrokerAction BrokerAnswer → Prop)
    (pool : Pool TaskBroker BrokerCall) (skill : String) : Prop :=
  ∀ later last, Runs (brokerProgram settings).step
      (fun _ before label => allowed before label ∧ ¬ Registers skill before label)
      ⟨pool.shared.unregisterSkill skill, pool.calls⟩ later last →
    ∀ index call handler payload context, last.calls[index]? = some call →
      call.task.skill = skill → (index, .handlerStarted handler payload context) ∉ later

section

variable {settings : BrokerSettings} {broker : TaskBroker} {gate : CallGate}
  {task : TaskRequest} {record : SkillRecord} {agentLabel : Option String}
  {start : HandlerStart} {now : Int} {step : BrokerStep} {event : BrokerEvent} {phase : BrokerPhase}
  {answer : BrokerAnswer}

/-- A stretch after the lookup leaves the registry alone, goes on with the
record that was found, and starts no other handler. -/
structure BrokerStep.Carries (step : BrokerStep) (broker : TaskBroker)
    (record : SkillRecord) : Prop where
  skills : step.broker.skills = broker.skills
  carried : ∀ other, step.phase.record = some other → other = record
  found : ∀ other, .skillFound other ∉ step.events
  started : ∀ handler payload context,
    .handlerStarted handler payload context ∈ step.events → record.handler = handler

def BrokerStep.Idle (step : BrokerStep) : Prop :=
  ∀ handler payload context, .handlerStarted handler payload context ∉ step.events

theorem BrokerStep.Carries.after (carries : step.Carries broker record)
    (found : ∀ other, event ≠ .skillFound other)
    (started : ∀ handler payload context, event = .handlerStarted handler payload context →
      record.handler = handler) : (step.after event).Carries broker record where
  skills := carries.skills
  carried := carries.carried
  found other member := by
    rcases mem_after.mp member with same | later
    · exact found other same.symm
    · exact carries.found other later
  started handler payload context member := by
    rcases mem_after.mp member with same | later
    · exact started handler payload context same.symm
    · exact carries.started handler payload context later

theorem BrokerStep.Idle.after (idle : step.Idle)
    (quiet : ∀ handler payload context, event ≠ .handlerStarted handler payload context) :
    (step.after event).Idle := by
  intro handler payload context member
  rcases mem_after.mp member with same | later
  · exact quiet handler payload context same.symm
  · exact idle handler payload context later

theorem deny_carries (denial : Denial) : (deny broker task denial).Carries broker record :=
  ⟨rfl, by simp [deny, BrokerPhase.record], by simp [deny], by simp [deny]⟩

theorem deny_idle (denial : Denial) : (deny broker task denial).Idle := by
  simp [Idle, deny]

theorem failTask_carries (thrown : Thrown) :
    (failTask broker task thrown).Carries broker record := by
  unfold failTask
  cases thrown.report with
  | none | some => exact ⟨rfl, by simp [BrokerPhase.record], by simp, by simp⟩

theorem failTask_idle (thrown : Thrown) : (failTask broker task thrown).Idle := by
  unfold failTask Idle
  cases thrown.report with
  | none | some => simp

theorem finishTask_carries (value : JsValue) :
    (finishTask broker task value).Carries broker record :=
  ⟨rfl, by simp [finishTask, BrokerPhase.record], by simp [finishTask], by simp [finishTask]⟩

theorem finishTask_idle (value : JsValue) : (finishTask broker task value).Idle := by
  simp [Idle, finishTask]

theorem startHandler_carries :
    (startHandler broker gate task record agentLabel start).Carries broker record := by
  unfold startHandler
  cases task.validatePayload with
  | error thrown => exact failTask_carries thrown
  | ok _ =>
    cases start with
    | pending =>
      refine ⟨rfl, by simp [BrokerPhase.record], by simp, ?_⟩
      intro handler payload context member
      simp only [List.mem_singleton, BrokerEvent.handlerStarted.injEq] at member
      exact member.1.symm
    | threw thrown =>
      refine (failTask_carries thrown).after (by simp) ?_
      intro handler payload context same
      simp only [BrokerEvent.handlerStarted.injEq] at same
      exact same.1

theorem startHandler_starts : (∃ handler payload context, .handlerStarted handler payload context ∈
      (startHandler broker gate task record agentLabel start).events) ↔
      task.validatePayload = .ok () := by
  unfold startHandler
  cases task.validatePayload with
  | error thrown =>
    have idle : (failTask broker task thrown).Idle := failTask_idle thrown
    simp only [Idle] at idle
    simp [idle]
  | ok _ =>
    cases start with
    | pending => simp
    | threw thrown =>
      exact iff_of_true ⟨_, _, _, mem_after.mpr (Or.inl rfl)⟩ rfl

theorem admitTask_carries :
    (admitTask settings broker gate task record agentLabel start).Carries broker record := by
  unfold admitTask
  split
  · exact deny_carries _
  · split
    · exact deny_carries _
    · have entered : (startHandler broker.enter gate task record agentLabel start).Carries
          broker.enter record := startHandler_carries
      have same : broker.enter.skills = broker.skills := rfl
      have carries : (startHandler broker.enter gate task record agentLabel start).Carries
          broker record := { entered with skills := entered.skills.trans same }
      exact carries.after (by simp) (by simp)

theorem admitTask_starts : (∃ handler payload context, .handlerStarted handler payload context ∈
      (admitTask settings broker gate task record agentLabel start).events) ↔
      ¬ (gate = .http ∧ record.httpExposed = false) ∧
        broker.activeTasks < settings.maxConcurrentTasks ∧ task.validatePayload = .ok () := by
  unfold admitTask
  split
  · next hidden => simp [deny, hidden]
  · next exposed =>
      split
      · next full =>
          have full : ¬ broker.activeTasks < settings.maxConcurrentTasks := by omega
          simp [deny, full]
      · next room =>
          have below : broker.activeTasks < settings.maxConcurrentTasks := by omega
          simp only [mem_after, reduceCtorEq, false_or, startHandler_starts, exposed,
            below, not_false_eq_true, true_and]

theorem beginPolicy_record {other : SkillRecord}
    (carried : (beginPolicy record agentLabel).record = some other) : other = record := by
  unfold beginPolicy at carried
  split at carried
  · exact (Option.some.inj carried).symm
  · split at carried <;> exact (Option.some.inj carried).symm

theorem beginMatrix_carries : (beginMatrix broker task record agentLabel).Carries broker record :=
    by
  unfold beginMatrix
  split
  · refine ⟨rfl, ?_, by simp, by simp⟩
    intro other carried
    exact (Option.some.inj carried).symm
  · exact ⟨rfl, fun _ => beginPolicy_record, by simp, by simp⟩

theorem beginMatrix_idle : (beginMatrix broker task record agentLabel).Idle := by
  unfold beginMatrix Idle
  split <;> simp

theorem carries_of_suspended {suspended : BrokerStep} (skills : suspended.broker.skills =
    broker.skills) (phase : suspended.phase.record = some record)
    (events : ∀ event ∈ suspended.events, ∃ limiter key now,
      event = .telemetryConsulted limiter key now) :
    suspended.Carries broker record ∧ suspended.Idle := by
  have other (event : BrokerEvent) (member : event ∈ suspended.events) :
      (∀ found, event ≠ .skillFound found) ∧
        ∀ handler payload context, event ≠ .handlerStarted handler payload context := by
    rcases events event member with ⟨limiter, key, now, rfl⟩
    simp
  refine ⟨⟨skills, ?_, ?_, ?_⟩, ?_⟩
  · intro found carried
    rw [phase] at carried
    exact (Option.some.inj carried).symm
  · intro found member
    exact (other _ member).1 found rfl
  · intro handler payload context member
    exact absurd rfl ((other _ member).2 handler payload context)
  · intro handler payload context member
    exact (other _ member).2 handler payload context rfl

theorem enforceTelemetryRateLimit_carries :
    (enforceTelemetryRateLimit broker task record agentLabel now).Carries broker record ∧
      (enforceTelemetryRateLimit broker task record agentLabel now).Idle := by
  unfold enforceTelemetryRateLimit
  split <;> exact carries_of_suspended rfl rfl (by simp)

theorem applyAgentMatrix_carries {policy : RemoteAccessPolicy} :
    (applyAgentMatrix settings broker task record policy agentLabel now).Carries broker record ∧
      (applyAgentMatrix settings broker task record policy agentLabel now).Idle := by
  unfold applyAgentMatrix
  cases agentLabel with
  | none => exact enforceTelemetryRateLimit_carries
  | some label =>
    dsimp only
    split
    · exact carries_of_suspended rfl rfl (by simp)
    · split <;> exact carries_of_suspended rfl rfl (by simp)
    · exact enforceTelemetryRateLimit_carries

theorem applyPeerRateLimit_carries :
    (applyPeerRateLimit settings broker gate task record agentLabel now start).Carries broker
      record := by
  refine Carries.after ?_ (by simp) (by simp)
  split
  · have charged : (admitTask settings { broker with
          peerRateLimiter := (broker.peerRateLimiter.allow task.peerKey now).1 }
        gate task record agentLabel start).Carries _ record := admitTask_carries
    exact { charged with skills := charged.skills }
  · exact ⟨rfl, by simp [deny, BrokerPhase.record], by simp [deny], by simp [deny]⟩

theorem applyPeerRateLimit_starts (agentLabel : Option String) (start : HandlerStart) :
    (∃ handler payload context, .handlerStarted handler payload context ∈
      (applyPeerRateLimit settings broker gate task record agentLabel now start).events) ↔
      GetsThrough settings broker gate task record now := by
  unfold applyPeerRateLimit
  simp only [mem_after, reduceCtorEq, false_or]
  split
  · next room =>
      rw [admitTask_starts]
      constructor
      · rintro ⟨exposed, capacity, payload⟩
        exact ⟨room, exposed, capacity, payload⟩
      · intro through
        exact ⟨through.exposed, through.capacity, through.payload⟩
  · next full =>
      constructor
      · rintro ⟨handler, payload, context, member⟩
        exact absurd member (deny_idle _ handler payload context)
      · intro through
        exact absurd through.budget full

theorem execute_carries (settings : BrokerSettings) (broker : TaskBroker) (gate : CallGate)
    (task : TaskRequest) (start : HandlerStart) : ((execute settings broker gate task start).Idle ∧
      (∀ found, .skillFound found ∉ (execute settings broker gate task start).events) ∧
      (execute settings broker gate task start).phase.record = none ∧
      (execute settings broker gate task start).broker.skills = broker.skills) ∨
    ∃ record rest, broker.skills.get task.skill = some record ∧ Carries rest broker record ∧
      execute settings broker gate task start = rest.after (.skillFound record) := by
  unfold execute
  split
  · exact Or.inl ⟨deny_idle _, by simp [deny], rfl, rfl⟩
  · next record found =>
      refine Or.inr ⟨record, _, found, ?_, rfl⟩
      split
      · split
        · exact deny_carries _
        · split
          · exact (carries_of_suspended rfl rfl (by simp)).1
          · exact beginMatrix_carries
      · exact admitTask_carries

/-- A resumed call goes on with its record, and starts a handler only at its
last check. -/
theorem advance_carries (record : SkillRecord)
    (advanced : advance settings broker gate task phase answer = some step)
    (captured : ∀ other, phase.record = some other → other = record) : step.Carries broker record ∧
      (step.Idle ∨ ∃ agentLabel now start, phase = .decided record agentLabel .allowed ∧
        answer = .proceed now start ∧
        step = applyPeerRateLimit settings broker gate task record agentLabel now start) := by
  unfold advance at advanced
  split at advanced <;> simp only [Option.some.injEq, reduceCtorEq] at advanced
  · next found outcome =>
      obtain rfl := captured found rfl
      subst advanced
      exact ⟨beginMatrix_carries, Or.inl beginMatrix_idle⟩
  · next found agentLabel outcome =>
      obtain rfl := captured found rfl
      subst advanced
      refine ⟨Carries.after ?_ (by simp) (by simp), Or.inl (Idle.after ?_ (by simp))⟩
      · split
        · exact ⟨rfl, fun _ => beginPolicy_record, by simp, by simp⟩
        · exact deny_carries _
      · split
        · simp [Idle]
        · exact deny_idle _
  · next found policy agentLabel moment now =>
      obtain rfl := captured found rfl
      subst advanced
      refine ⟨Carries.after ?_ (by simp) (by simp), Or.inl (Idle.after ?_ (by simp))⟩
      · split
        · exact applyAgentMatrix_carries.1
        · exact (carries_of_suspended rfl rfl (by simp)).1
      · split
        · exact applyAgentMatrix_carries.2
        · simp [Idle]
  · next found policy label outcome now =>
      obtain rfl := captured found rfl
      subst advanced
      refine ⟨Carries.after ?_ (by simp) (by simp), Or.inl (Idle.after ?_ (by simp))⟩
      · split
        · exact enforceTelemetryRateLimit_carries.1
        · exact (carries_of_suspended rfl rfl (by simp)).1
      · split
        · exact enforceTelemetryRateLimit_carries.2
        · simp [Idle]
  · next found agentLabel now start =>
      obtain rfl := captured found rfl
      subst advanced
      exact ⟨applyPeerRateLimit_carries, Or.inr ⟨agentLabel, now, start, rfl, rfl, rfl⟩⟩
  · subst advanced
    exact ⟨deny_carries _, Or.inl (deny_idle _)⟩
  · subst advanced
    exact ⟨deny_carries _, Or.inl (deny_idle _)⟩
  · subst advanced
    exact ⟨finishTask_carries _, Or.inl (finishTask_idle _)⟩
  · subst advanced
    exact ⟨failTask_carries _, Or.inl (failTask_idle _)⟩

theorem advance_released (advanced : advance settings broker gate task phase answer = some step)
    (released : phase.record = none) :
    step.phase.record = none ∧ step.Idle ∧ step.broker.skills = broker.skills := by
  unfold advance at advanced
  split at advanced <;> simp only [Option.some.injEq, reduceCtorEq] at advanced
  all_goals simp only [BrokerPhase.record, reduceCtorEq] at released
  · subst advanced
    exact ⟨rfl, finishTask_idle _, rfl⟩
  · next thrown =>
      subst advanced
      refine ⟨?_, failTask_idle thrown, ?_⟩
      · unfold failTask
        cases thrown.report <;> rfl
      · unfold failTask
        cases thrown.report <;> rfl

end

section

variable {settings : BrokerSettings} {broker : TaskBroker}
  {history : List (Nat × BrokerEvent)} {pool after : Pool TaskBroker BrokerCall}
  {allowed : List (Nat × BrokerEvent) → Pool TaskBroker BrokerCall →
    Label BrokerAction BrokerAnswer → Prop}
  {label : Label BrokerAction BrokerAnswer} {outputs : List (Nat × BrokerEvent)}
  {index : Nat} {handler : Nat} {payload : JsValue} {context : SkillInvocationContext}

theorem found_once
    (runs : Runs (brokerProgram settings).step allowed (.initial broker) history pool) :
    (∀ index, pool.calls.length ≤ index → ownOutputs history index = []) ∧
      ∀ index call, pool.calls[index]? = some call → ∀ record, call.phase.record = some record →
          ∀ other, .skillFound other ∈ ownOutputs history index ↔ other = record := by
  refine local_invariant (fun own call => ∀ record, call.phase.record = some record →
      ∀ other, .skillFound other ∈ own ↔ other = record) ?_ ?_ runs
  · intro history pool action after call emitted _ launched record carried other
    rcases brokerProgram_launch_cases launched with ⟨left, _⟩ | ⟨gate, task, start, _, left, _⟩
    · cases left
    · cases left
      rcases execute_carries settings pool.shared gate task start with ⟨_, _, released, _⟩ | ⟨found,
        rest, _, carries, same⟩
      · rw [released] at carried
        cases carried
      · rw [same] at carried ⊢
        obtain rfl := carries.carried record carried
        simp [mem_after, carries.found other]
  · intro history pool index answer own call after next emitted _ holds resumed record carried other
    obtain ⟨step, advanced, rfl, rfl, rfl⟩ := brokerProgram_resume resumed
    cases before : call.phase.record with
    | none =>
      have released := (advance_released advanced before).1
      simp only [released, reduceCtorEq] at carried
    | some captured =>
      have carries := (advance_carries captured advanced (by simp [before, eq_comm])).1
      obtain rfl := carries.carried record carried
      rw [List.mem_append, holds record before other]
      simp [carries.found other]

theorem started_registered (unrevoked : Unrevoked settings pool label)
    (stepped : (brokerProgram settings).step pool label = some (after, outputs))
    (started : (index, .handlerStarted handler payload context) ∈ outputs) :
    ∃ call record, after.calls[index]? = some call ∧
      pool.shared.skills.get call.task.skill = some record ∧ record.handler = handler ∧
        ((index = pool.calls.length ∧
            ∀ other, (index, .skillFound other) ∈ outputs ↔ other = record) ∨
          ∃ earlier, pool.calls[index]? = some earlier ∧ earlier.phase.record = some record ∧
            ∀ other, (index, .skillFound other) ∉ outputs) := by
  rcases Program.step_cases stepped with
    ⟨action, rfl, _, _, rfl⟩ | ⟨action, call, emitted, rfl, launched, callsEq, rfl⟩ |
    ⟨turn, answer, call, next, emitted, rfl, found, resumed, callsEq, rfl⟩
  · cases started
  · simp only [List.mem_map, Prod.mk.injEq] at started
    obtain ⟨event, member, rfl, rfl⟩ := started
    rcases brokerProgram_launch_cases launched with ⟨left, _⟩ | ⟨gate, task, start, _, left, _⟩
    · cases left
    · cases left
      rcases execute_carries settings pool.shared gate task start with ⟨idle, _⟩ | ⟨record, rest,
        found, carries, same⟩
      · exact absurd member (idle handler payload context)
      · rw [same] at member
        rcases mem_after.mp member with clash | later
        · cases clash
        · have located : after.calls[pool.calls.length]? =
              some ⟨gate, task, (execute settings pool.shared gate task start).phase⟩ := by
            simp [callsEq]
          refine ⟨_, record, located, found,
            carries.started handler payload context later, Or.inl ⟨rfl, fun other => ?_⟩⟩
          simp [same, carries.found other]
  · simp only [List.mem_map, Prod.mk.injEq] at started
    obtain ⟨event, member, rfl, rfl⟩ := started
    obtain ⟨step, advanced, sharedEq, rfl, rfl⟩ := brokerProgram_resume resumed
    have bound := (List.getElem?_eq_some_iff.mp found).1
    cases before : call.phase.record with
    | none =>
      exact absurd member ((advance_released advanced before).2.1 handler payload context)
    | some record =>
      obtain ⟨carries, idle | ⟨agentLabel, now, start, phase, rfl, stepEq⟩⟩ :=
        advance_carries record advanced (by simp [before, eq_comm])
      · exact absurd member (idle handler payload context)
      · have through : GetsThrough settings pool.shared call.gate call.task record now := by
          rw [← applyPeerRateLimit_starts agentLabel start, ← stepEq]
          exact ⟨handler, payload, context, member⟩
        have registered := unrevoked turn now start call record agentLabel rfl found phase through
        have located : after.calls[turn]? = some { call with phase := step.phase } := by
          rw [callsEq, List.getElem?_set_self bound]
        refine ⟨_, record, located, registered, carries.started handler payload context member,
          Or.inr ⟨call, found, before, fun other listed => ?_⟩⟩
        simp only [List.mem_map, Prod.mk.injEq] at listed
        obtain ⟨event, listed, _, rfl⟩ := listed
        exact carries.found other listed

section

variable (runs : Runs (brokerProgram settings).step allowed (.initial broker) history pool)
include runs

theorem startsInForce_of_unrevoked (unrevoked : Unrevoked settings pool label) :
    StartsInForce settings history pool label := by
  intro after outputs stepped index handler payload context started
  obtain ⟨call, record, located, registered, same, judged⟩ :=
    started_registered unrevoked stepped started
  refine ⟨call, record, located, registered, same, fun other => ?_⟩
  obtain ⟨silent, once⟩ := found_once runs
  have listed : (index, .skillFound other) ∈ history ↔
      .skillFound other ∈ ownOutputs history index := mem_ownOutputs.symm
  rw [List.mem_append, listed]
  rcases judged with ⟨rfl, judged⟩ | ⟨earlier, found, carried, judged⟩
  · rw [silent _ (Nat.le_refl _), judged other]
    simp
  · rw [once index earlier found record carried other]
    simp [judged other]

theorem unrevoked_of_startsInForce (inForce : StartsInForce settings history pool label) :
    Unrevoked settings pool label := by
  rintro index now start call record agentLabel rfl found phase through
  obtain ⟨handler, payload, context, member⟩ :=
    (applyPeerRateLimit_starts agentLabel start).mpr through
  obtain ⟨step, stepEq⟩ : ∃ step, step = applyPeerRateLimit settings pool.shared call.gate
    call.task record agentLabel now start := ⟨_, rfl⟩
  rw [← stepEq] at member
  have advanced : advance settings pool.shared call.gate call.task call.phase
      (.proceed now start) = some step := by
    rw [phase, stepEq]
    rfl
  have stepped : (brokerProgram settings).step pool (.resume index (.proceed now start)) =
      some (⟨step.broker, pool.calls.set index { call with phase := step.phase }⟩,
        step.events.map (index, ·)) := by
    simp only [Program.step, found, Option.bind_some, brokerProgram, advanced, Option.map_some]
  have bound := (List.getElem?_eq_some_iff.mp found).1
  obtain ⟨resumed, other, located, registered, _, judged⟩ :=
    inForce _ _ stepped index handler payload context (by simp [member])
  have carried : call.phase.record = some record := by
    rw [phase]
    rfl
  have present : .skillFound record ∈ ownOutputs history index :=
    ((found_once runs).2 index call found record carried record).mpr rfl
  have sameRecord : record = other := by
    refine (judged record).mp (List.mem_append_left _ ?_)
    exact mem_ownOutputs.mp present
  rw [List.getElem?_set_self bound] at located
  cases located
  rw [sameRecord]
  exact registered

end

theorem unregistered_of_step {skill : String} (absent : pool.shared.skills.get skill = none)
    (silent : ¬ Registers skill pool label)
    (stepped : (brokerProgram settings).step pool label = some (after, outputs)) :
    after.shared.skills.get skill = none := by
  have launched_kept (gate : CallGate) (task : TaskRequest) (start : HandlerStart) :
      (execute settings pool.shared gate task start).broker.skills = pool.shared.skills := by
    rcases execute_carries settings pool.shared gate task start with ⟨_, _, _, kept⟩ | ⟨record,
      rest, _, carries, same⟩
    · exact kept
    · rw [same]
      exact carries.skills
  rcases Program.step_cases stepped with
    ⟨action, rfl, launched, _, _⟩ | ⟨action, call, emitted, rfl, launched, _, _⟩ |
    ⟨turn, answer, call, next, emitted, rfl, found, resumed, _, _⟩
  · cases action with
    | registerSkill name handler options =>
      simp only [brokerProgram] at launched
      cases registered : pool.shared.registerSkill name handler options with
      | error message =>
        simp only [registered, Prod.mk.injEq] at launched
        rwa [← launched.1]
      | ok stored =>
        have apart : name ≠ skill := by
          rintro rfl
          exact silent ⟨handler, options, stored, rfl, registered⟩
        simp only [registered, Prod.mk.injEq] at launched
        rw [← launched.1]
        unfold TaskBroker.registerSkill at registered
        split at registered
        · cases registered
        · split at registered
          · cases registered
          · split at registered
            · cases registered
            · cases registered
              rwa [OrderedMap.get_set_of_ne _ _ (Ne.symm apart)]
    | unregisterSkill name =>
      simp only [brokerProgram, Prod.mk.injEq] at launched
      rw [← launched.1, TaskBroker.unregisterSkill, OrderedMap.get_delete]
      split
      · rfl
      · exact absent
    | setPeerSkillGate installed =>
      simp only [brokerProgram, Prod.mk.injEq] at launched
      rwa [← launched.1]
    | handle | handleHttp | handleRemote => simp [brokerProgram, launchTask] at launched
  · rcases brokerProgram_launch_cases launched with ⟨left, _⟩ | ⟨gate, task, start, same, _⟩
    · cases left
    · rw [same, launched_kept]
      exact absent
  · obtain ⟨step, advanced, sharedEq, _, _⟩ := brokerProgram_resume resumed
    rw [sharedEq]
    cases before : call.phase.record with
    | none =>
      rw [(advance_released advanced before).2.2]
      exact absent
    | some record =>
      rw [(advance_carries record advanced (by simp [before, eq_comm])).1.skills]
      exact absent

theorem task_resumed (shared : TaskBroker) (call : BrokerCall) (answer : BrokerAnswer)
    (after : TaskBroker) (next : BrokerCall) (emitted : List BrokerEvent)
    (resumed : (brokerProgram settings).resume shared call answer = some (after, next, emitted)) :
    next.task = call.task := by
  obtain ⟨step, _, _, rfl, _⟩ := brokerProgram_resume resumed
  rfl

/-- A skill that is not registered stays silent where no turn takes a call
past a revoked registration. -/
theorem silenced_of_unrevoked (pool : Pool TaskBroker BrokerCall) (skill : String) :
    Silenced settings (Unrevoked settings) pool skill := by
  intro later last runs
  suffices invariant : last.shared.skills.get skill = none ∧
      ∀ index handler payload context, (index, .handlerStarted handler payload context) ∈ later →
        ∃ call, last.calls[index]? = some call ∧ call.task.skill ≠ skill by
    intro index call handler payload context found same started
    obtain ⟨other, located, apart⟩ := invariant.2 index handler payload context started
    rw [found] at located
    cases located
    exact apart same
  refine runs.invariant (fun later last => last.shared.skills.get skill = none ∧
    ∀ index handler payload context, (index, .handlerStarted handler payload context) ∈ later →
      ∃ call, last.calls[index]? = some call ∧ call.task.skill ≠ skill) ?_ ?_
  · refine ⟨?_, by simp⟩
    simp [TaskBroker.unregisterSkill]
  · rintro later before label after outputs ⟨absent, others⟩ ⟨unrevoked, silent⟩ stepped
    refine ⟨unregistered_of_step absent silent stepped, ?_⟩
    intro index handler payload context member
    rcases List.mem_append.mp member with old | new
    · obtain ⟨call, found, apart⟩ := others index handler payload context old
      have once : Runs (brokerProgram settings).step unrestricted before
          ([] ++ outputs) after := .tail .refl trivial stepped
      obtain ⟨evolved, located, same⟩ := call_evolves
        (fun call next : BrokerCall => next.task = call.task) (fun _ => rfl)
        (fun _ _ _ first second => second.trans first) task_resumed once found
      exact ⟨evolved, located, by rwa [same]⟩
    · obtain ⟨call, record, found, registered, _⟩ := started_registered unrevoked stepped new
      refine ⟨call, found, ?_⟩
      rintro same
      rw [same, absent] at registered
      cases registered

end

/-- A handler is started under the registration in force exactly where no call
goes past its last check with a registration that has gone or has been
replaced; and then an unregistered skill stays silent until it is registered
again. -/
theorem unregistration_effective_iff {settings : BrokerSettings} {broker : TaskBroker}
    {history : List (Nat × BrokerEvent)} {pool : Pool TaskBroker BrokerCall}
    (runs : Runs (brokerProgram settings).step unrestricted (.initial broker) history pool) :
    (∀ label, StartsInForce settings history pool label ↔ Unrevoked settings pool label) ∧
      ∀ skill, Silenced settings (Unrevoked settings) pool skill := by
  refine ⟨fun label => ⟨?_, ?_⟩, fun skill => silenced_of_unrevoked pool skill⟩
  · exact unrevoked_of_startsInForce runs
  · exact startsInForce_of_unrevoked runs

/-- The calls of a public skill while one of them waits for its last check. -/
theorem unregistration_effective_iff_public :
    ∃ (history : List (Nat × BrokerEvent)) (pool : Pool TaskBroker BrokerCall),
      pool.shared.skills.keys = ["echo"] ∧
      (∀ label, StartsInForce anonymousSettings history pool label ↔
        Unrevoked anonymousSettings pool label) ∧
      ∀ skill, Silenced anonymousSettings (Unrevoked anonymousSettings) pool skill := by
  obtain ⟨history, pool, runs, registered⟩ := exists_runs_of_any
    (brokerProgram anonymousSettings).step (fun _ => True) (.initial publicBroker)
    [.launch (.registerSkill "echo" 7 publicSkill), .launch (.handleRemote remoteTask),
      .resume 0 (.agentLabel .failed), .resume 0 (.access 0 0)]
    (fun result => result.1.shared.skills.keys == ["echo"])
    (fun _ _ => trivial) rfl
  exact ⟨history, pool, by simpa using registered, unregistration_effective_iff runs⟩

def resumes : Label BrokerAction BrokerAnswer → Bool
  | .launch _ => false
  | .resume _ _ => true

def startsSeventh : Nat × BrokerEvent → Bool
  | (caller, .handlerStarted handler _ _) => caller == 0 && handler == 7
  | _ => false

theorem eq_of_startsSeventh {output : Nat × BrokerEvent} (started : startsSeventh output) :
    ∃ payload context, output = (0, .handlerStarted 7 payload context) := by
  obtain ⟨caller, event⟩ := output
  cases event with
  | handlerStarted handler payload context =>
    simp only [startsSeventh, Bool.and_eq_true, beq_iff_eq] at started
    exact ⟨payload, context, by rw [started.1, started.2]⟩
  | _ => cases started

/-- A call that waits for its gates starts the handler of a skill that was
unregistered meanwhile. -/
theorem unregistered_skill_runs :
    ¬ ∀ (settings : BrokerSettings) (broker : TaskBroker) (history : List (Nat × BrokerEvent))
      (pool : Pool TaskBroker BrokerCall),
      Runs (brokerProgram settings).step unrestricted (.initial broker)
        history pool → ∀ skill, Silenced settings (fun _ _ => True) pool skill := by
  intro silenced
  let program := brokerProgram anonymousSettings
  let back : List (Label BrokerAction BrokerAnswer) :=
    [.resume 0 (.agentLabel .failed), .resume 0 (.access 0 0), .resume 0 (.proceed 0 .pending)]
  have passed : ((run program.step (.initial publicBroker)
      [.launch (.registerSkill "echo" 7 publicSkill), .launch (.handleRemote remoteTask)]).bind
      fun front => (run program.step
        ⟨front.1.shared.unregisterSkill "echo", front.1.calls⟩ back).map fun result =>
          result.2.any startsSeventh &&
          (result.1.calls[0]?.any fun call => call.task.skill = "echo")) = some true := rfl
  simp only [Option.bind_eq_some_iff, Option.map_eq_some_iff, Bool.and_eq_true] at passed
  obtain ⟨⟨before, history⟩, first, ⟨last, later⟩, second, started, found⟩ := passed
  have silent : Runs program.step (fun _ pool label => True ∧ ¬ Registers "echo" pool label)
      ⟨before.shared.unregisterSkill "echo", before.calls⟩ later last := by
    have admitted : ∀ label ∈ back, resumes label := by decide
    refine (runs_of_run admitted second).mono ?_
    rintro _ pool label admitted
    refine ⟨trivial, ?_⟩
    rintro ⟨handler, options, stored, rfl, _⟩
    cases admitted
  have runs : Runs program.step unrestricted (.initial publicBroker)
      history before := runs_of_run (fun _ _ => trivial) first
  obtain ⟨call, located, same⟩ := Option.any_eq_true _ _ |>.mp found
  obtain ⟨output, member, handled⟩ := List.any_eq_true.mp started
  obtain ⟨payload, context, rfl⟩ := eq_of_startsSeventh handled
  exact silenced anonymousSettings publicBroker history before runs "echo" later last silent
    0 call 7 payload context located (by simpa using same) member

end P2PHub
