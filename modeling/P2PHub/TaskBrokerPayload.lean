import P2PHub.TaskBrokerBudgets

/-!
# The payload of a network task

Up to its admission a network call goes the same way whatever its payload is:
exchanging the payload exchanges nothing else in the pool of calls, and the
call is admitted with either payload or with neither.
-/

namespace P2PHub

open AsyncCalls Transition BrokerCall

open AsyncCalls (ownOutputs)

def TaskRequest.withPayload (task : TaskRequest) (payload : JsValue) : TaskRequest :=
  { task with payload := payload }

def BrokerCall.withPayload (payload : JsValue) (call : BrokerCall) : BrokerCall :=
  { call with task := call.task.withPayload payload }

def exchangePayload (payload : JsValue) (index : Nat)
    (pool : Pool TaskBroker BrokerCall) : Pool TaskBroker BrokerCall :=
  ⟨pool.shared, pool.calls.modify index (withPayload payload)⟩

/-- Two stretches that are the same, or that both let the call in. -/
def BrokerStep.Agree (first second : BrokerStep) : Prop :=
  first = second ∨ (.admitted ∈ first.events ∧ .admitted ∈ second.events)

section

variable {settings : BrokerSettings} {broker : TaskBroker} {gate : CallGate}
  {task : TaskRequest} {record : SkillRecord} {agentLabel : Option String}
  {start : HandlerStart} {now : Int} {first second : BrokerStep} (payload : JsValue)

theorem BrokerStep.Agree.after (agree : first.Agree second) (event : BrokerEvent) :
    (first.after event).Agree (second.after event) := by
  rcases agree with rfl | ⟨admitted, alsoAdmitted⟩
  · exact Or.inl rfl
  · exact Or.inr ⟨by simp [admitted], by simp [alsoAdmitted]⟩

theorem admit_agree : (admitTask settings broker gate task record agentLabel start).Agree
      (admitTask settings broker gate (task.withPayload payload) record agentLabel start) := by
  unfold admitTask
  split
  · exact Or.inl rfl
  · split
    · exact Or.inl rfl
    · exact Or.inr ⟨by simp, by simp⟩

theorem applyPeerRateLimit_agree :
    (applyPeerRateLimit settings broker gate task record agentLabel now start).Agree
      (applyPeerRateLimit settings broker gate (task.withPayload payload) record agentLabel now
        start) := by
  apply BrokerStep.Agree.after
  change BrokerStep.Agree (if (broker.peerRateLimiter.allow task.peerKey now).2 then _ else _)
    (if (broker.peerRateLimiter.allow task.peerKey now).2 then _ else _)
  split
  · exact admit_agree payload
  · exact Or.inl rfl

theorem advance_agree {phase : BrokerPhase} {answer : BrokerAnswer} (outside : phase ≠ .running) :
    advance settings broker gate (task.withPayload payload) phase answer =
        advance settings broker gate task phase answer ∨
      ∃ first second, advance settings broker gate task phase answer = some first ∧
        advance settings broker gate (task.withPayload payload) phase answer = some second ∧
          .admitted ∈ first.events ∧ .admitted ∈ second.events := by
  cases phase with
  | resolvingAgent | checkingMatrix | evaluatingGates | approving =>
    cases answer <;> exact Or.inl rfl
  | decided record agentLabel verdict =>
    cases verdict with
    | refused | telemetryExceeded => cases answer <;> exact Or.inl rfl
    | allowed =>
      cases answer with
      | proceed now start =>
        rcases applyPeerRateLimit_agree payload with same | admitted
        · exact Or.inl (congrArg some same.symm)
        · exact Or.inr ⟨_, _, rfl, rfl, admitted⟩
      | _ => exact Or.inl rfl
  | running => exact absurd rfl outside
  | settled | rejected => exact Or.inl rfl

end

variable {settings : BrokerSettings} {pool after : Pool TaskBroker BrokerCall}
  {index : Nat} {label : Label BrokerAction BrokerAnswer}
  {labels : List (Label BrokerAction BrokerAnswer)}
  {history outputs : List (Nat × BrokerEvent)} (payload : JsValue)

def Admits (settings : BrokerSettings) (index : Nat) (pool : Pool TaskBroker BrokerCall)
    (label : Label BrokerAction BrokerAnswer) : Prop :=
  ∃ after outputs, (brokerProgram settings).step pool label = some (after, outputs) ∧
    .admitted ∈ ownOutputs outputs index

def Awaiting (index : Nat) (pool : Pool TaskBroker BrokerCall) : Prop :=
  ∃ call, pool.calls[index]? = some call ∧ call.phase ≠ .running

theorem modify_append_of_lt {Value : Type*} {values later : List Value}
    {change : Value → Value} (bound : index < values.length) :
    (values ++ later).modify index change = values.modify index change ++ later := by
  rw [List.modify_eq_take_cons_drop bound,
    List.modify_eq_take_cons_drop (by rw [List.length_append]; omega),
    List.take_append_of_le_length (by omega), List.drop_append_of_le_length (by omega),
    List.getElem_append_left bound]
  simp

theorem set_modify_of_ne {Value : Type*} {values : List Value} {change : Value → Value}
    {value : Value} {position : Nat} (apart : position ≠ index) :
    (values.modify index change).set position value =
      (values.set position value).modify index change := by
  apply List.ext_getElem?
  intro other
  by_cases atPosition : position = other
  · subst other
    simp [List.getElem?_set, apart.symm]
  · simp [List.getElem?_modify, atPosition]

theorem set_modify_self {Value : Type*} {values : List Value} {change : Value → Value}
    {value : Value} : (values.modify index change).set index (change value) =
      (values.set index value).modify index change := by
  apply List.ext_getElem?
  intro other
  by_cases same : index = other
  · subst other
    by_cases bound : index < values.length <;> simp [bound]
  · simp [same]

section

variable (awaiting : Awaiting index pool)
include awaiting

theorem step_exchangePayload :
    (brokerProgram settings).step (exchangePayload payload index pool) label =
        ((brokerProgram settings).step pool label).map
          (fun result => (exchangePayload payload index result.1, result.2)) ∨
      (Admits settings index pool label ∧
        Admits settings index (exchangePayload payload index pool) label) := by
  rcases awaiting with ⟨call, found, outside⟩
  have bound := (List.getElem?_eq_some_iff.mp found).1
  cases label with
  | launch action =>
    left
    simp only [Program.step, exchangePayload, List.length_modify]
    rcases (brokerProgram settings).launch pool.shared action with ⟨shared, _ | left⟩
    · rfl
    · simp [modify_append_of_lt bound]
  | resume position answer =>
    simp only [Admits, Program.step, exchangePayload]
    by_cases same : position = index
    · subst position
      rw [List.getElem?_modify_eq, found]
      simp only [Option.map_eq_map, Option.map_some, Option.bind_some, brokerProgram,
        withPayload, Option.map_map]
      rcases advance_agree payload outside with
        equal | ⟨first, second, advanced, alsoAdvanced, admitted, alsoAdmitted⟩
      · left
        congr 1
        funext step
        simp only [Function.comp_apply, Prod.mk.injEq, and_true]
        congr 1
        have exchanged : withPayload payload { call with phase := step.phase } =
            { call.withPayload payload with phase := step.phase } := rfl
        rw [← set_modify_self, exchanged]
        rfl
      · right
        rw [advanced, alsoAdvanced]
        refine ⟨⟨_, _, rfl, ?_⟩, ⟨_, _, rfl, ?_⟩⟩
        · simpa [ownOutputs_self] using admitted
        · simpa [ownOutputs_self] using alsoAdmitted
    · left
      rw [List.getElem?_modify_ne _ _ (Ne.symm same)]
      cases pool.calls[position]? with
      | none => rfl
      | some other =>
        simp only [Option.bind_some, Option.map_map]
        congr 1
        funext result
        simp [set_modify_of_ne same]

theorem awaiting_step (stepped : (brokerProgram settings).step pool label = some (after, outputs))
    (unadmitted : .admitted ∉ ownOutputs outputs index) : Awaiting index after := by
  rcases awaiting with ⟨call, found, outside⟩
  rcases Program.step_cases stepped with
    ⟨action, rfl, launched, callsEq, rfl⟩ |
    ⟨action, other, emitted, rfl, launched, callsEq, rfl⟩ |
    ⟨position, answer, other, next, emitted, rfl, located, resumed, callsEq, rfl⟩
  · exact ⟨call, by rw [callsEq, found], outside⟩
  · have bound := (List.getElem?_eq_some_iff.mp found).1
    exact ⟨call, by rw [callsEq, List.getElem?_append_left bound, found], outside⟩
  · by_cases same : position = index
    · subst position
      rw [found] at located
      cases located
      obtain ⟨step, advanced, _, rfl, rfl⟩ := brokerProgram_resume resumed
      rw [ownOutputs_self] at unadmitted
      refine ⟨{ call with phase := step.phase }, ?_, fun running => ?_⟩
      · rw [callsEq, List.getElem?_set_self (List.getElem?_eq_some_iff.mp found).1]
      · exact unadmitted ((advance_ledger outside advanced).running running)
    · exact ⟨call, by rw [callsEq, List.getElem?_set_ne same, found], outside⟩

/-- A run that does not let the call in goes the same way with another
payload. -/
theorem run_exchangePayload
    (executed : run (brokerProgram settings).step pool labels = some (after, history))
    (unadmitted : .admitted ∉ ownOutputs history index) : Awaiting index after ∧
      run (brokerProgram settings).step (exchangePayload payload index pool) labels =
        some (exchangePayload payload index after, history) := by
  induction labels generalizing pool history with
  | nil =>
    cases executed
    exact ⟨awaiting, rfl⟩
  | cons label labels ih =>
    simp only [run, Option.bind_eq_some_iff, Option.map_eq_some_iff, Prod.mk.injEq] at executed
    obtain ⟨⟨middle, outputs⟩, stepped, ⟨_, later⟩, continued, rfl, rfl⟩ := executed
    rw [ownOutputs_append, List.mem_append, not_or] at unadmitted
    have stillAwaiting := awaiting_step awaiting stepped unadmitted.1
    rcases ih stillAwaiting continued unadmitted.2 with ⟨atEnd, sameRun⟩
    refine ⟨atEnd, ?_⟩
    rcases step_exchangePayload payload awaiting with same | ⟨⟨_, _, admits, member⟩, _⟩
    · rw [stepped, Option.map_some] at same
      simp only [run, same, Option.bind_some, sameRun, Option.map_some]
    · rw [stepped] at admits
      cases admits
      exact absurd member unadmitted.1

end

/-- The payload has no part in the decision on a network task: as long as the
call is not admitted the run is the same with another payload, and the next
turn admits it with either payload or with neither. -/
theorem payload_irrelevant {task : TaskRequest} (executed : run (brokerProgram settings).step pool
      (.launch (.handleRemote task) :: labels) = some (after, history))
    (unadmitted : .admitted ∉ ownOutputs history pool.calls.length) :
    run (brokerProgram settings).step pool
        (.launch (.handleRemote (task.withPayload payload)) :: labels) =
          some (exchangePayload payload pool.calls.length after, history) ∧
      ∀ label, Admits settings pool.calls.length after label ↔
        Admits settings pool.calls.length (exchangePayload payload pool.calls.length after)
          label := by
  simp only [run, Option.bind_eq_some_iff, Option.map_eq_some_iff, Prod.mk.injEq] at executed
  obtain ⟨⟨middle, outputs⟩, stepped, ⟨_, later⟩, continued, rfl, rfl⟩ := executed
  rw [ownOutputs_append, List.mem_append, not_or] at unadmitted
  let step := execute settings pool.shared .network task .pending
  have launched : (brokerProgram settings).step pool (.launch (.handleRemote task)) =
      some (⟨step.broker, pool.calls ++ [⟨.network, task, step.phase⟩]⟩,
        step.events.map (pool.calls.length, ·)) := rfl
  have twin : (brokerProgram settings).step pool
      (.launch (.handleRemote (task.withPayload payload))) =
        some (⟨step.broker, pool.calls ++ [⟨.network, task.withPayload payload, step.phase⟩]⟩,
          step.events.map (pool.calls.length, ·)) := rfl
  rw [launched] at stepped
  cases stepped
  rw [ownOutputs_self] at unadmitted
  have awaiting : Awaiting pool.calls.length
      ⟨step.broker, pool.calls ++ [⟨.network, task, step.phase⟩]⟩ := by
    refine ⟨⟨.network, task, step.phase⟩, by simp, fun running => ?_⟩
    have ledger : step.Ledger pool.shared True := execute_ledger trivial
    exact unadmitted.1 (ledger.running running)
  rcases run_exchangePayload payload awaiting continued unadmitted.2 with ⟨atEnd, sameRun⟩
  have exchanged : exchangePayload payload pool.calls.length
      ⟨step.broker, pool.calls ++ [⟨.network, task, step.phase⟩]⟩ =
        ⟨step.broker, pool.calls ++ [⟨.network, task.withPayload payload, step.phase⟩]⟩ := by
    simp [exchangePayload, List.modify_eq_take_drop, withPayload]
  rw [exchanged] at sameRun
  refine ⟨?_, fun label => ?_⟩
  · simp only [run, twin, Option.bind_some, sameRun, Option.map_some]
  · rcases step_exchangePayload payload atEnd with same | ⟨admits, alsoAdmits⟩
    · unfold Admits
      rw [same]
      constructor
      · rintro ⟨next, outputs, moved, member⟩
        exact ⟨_, outputs, by rw [moved]; rfl, member⟩
      · rintro ⟨next, outputs, moved, member⟩
        obtain ⟨⟨last, outputs⟩, moved, equal⟩ := Option.map_eq_some_iff.mp moved
        simp only [Prod.mk.injEq] at equal
        exact ⟨last, outputs, moved, by rw [equal.2]; exact member⟩
    · exact ⟨fun _ => alsoAdmits, fun _ => admits⟩

end P2PHub
