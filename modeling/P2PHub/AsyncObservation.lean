import P2PHub.AsyncCalls

/-!
# Observed programs

A program with an observer, who keeps a note of the actions and puts out what it
sees of the shared state and the call at every turn.  The observation changes
nothing: erased, it leaves the outputs of the program's own runs, and every run
of the program can be observed.
-/

namespace P2PHub.AsyncCalls

open Program

variable {Shared Action Call Answer Output Sight Note : Type*}
  {history : List (Nat × (Output ⊕ Sight))}

/-- An observer: how an action changes its note, and what it sees at the launches
that leave a call behind and at the resumptions. -/
structure Observer (Shared Action Call Answer Sight Note : Type*) where
  note : Note → Shared → Action → Note
  launched : Shared → Note → Action → List Sight
  resumed : Shared → Note → Call → Answer → List Sight

/-- The program under observation; the note stands beside the shared state. -/
def Program.observed (program : Program Shared Action Call Answer Output)
    (observer : Observer Shared Action Call Answer Sight Note) :
    Program (Shared × Note) Action Call Answer (Output ⊕ Sight) where
  launch state action :=
    match program.launch state.1 action with
    | (after, none) => ((after, observer.note state.2 state.1 action), none)
    | (after, some (call, outputs)) =>
      ((after, observer.note state.2 state.1 action),
        some (call, (observer.launched state.1 state.2 action).map .inr ++ outputs.map .inl))
  resume state call answer :=
    (program.resume state.1 call answer).map fun (after, next, outputs) =>
      ((after, state.2), next,
        (observer.resumed state.1 state.2 call answer).map .inr ++ outputs.map .inl)

def erase (history : List (Nat × (Output ⊕ Sight))) : List (Nat × Output) :=
  history.filterMap fun output => output.2.getLeft?.map (output.1, ·)

def Pool.erase (pool : Pool (Shared × Note) Call) : Pool Shared Call :=
  ⟨pool.shared.1, pool.calls⟩

theorem erase_append (history later : List (Nat × (Output ⊕ Sight))) :
    erase (history ++ later) = erase history ++ erase later :=
  List.filterMap_append

theorem erase_seen (index : Nat) (sights : List Sight) (outputs : List Output) :
    erase ((sights.map (Sum.inr : Sight → Output ⊕ Sight) ++ outputs.map Sum.inl).map
      (index, ·)) = outputs.map (index, ·) := by
  simp [erase, List.filterMap_map, Function.comp_def]

theorem mem_erase {index : Nat} {output : Output} :
    (index, output) ∈ erase history ↔ (index, Sum.inl output) ∈ history := by
  simp only [erase, List.mem_filterMap, Option.map_eq_some_iff, Prod.mk.injEq]
  constructor
  · rintro ⟨⟨tag, seen⟩, member, _, isOutput, rfl, rfl⟩
    rw [Sum.getLeft?_eq_some_iff] at isOutput
    rw [← isOutput]
    exact member
  · intro member
    exact ⟨_, member, output, rfl, rfl, rfl⟩

variable {program : Program Shared Action Call Answer Output}
  {observer : Observer Shared Action Call Answer Sight Note}

section

variable {state after : Shared × Note} {action : Action} {call next : Call} {answer : Answer}

theorem observed_launch {left : Option (Call × List (Output ⊕ Sight))}
    (launched : (program.observed observer).launch state action = (after, left)) :
    after.2 = observer.note state.2 state.1 action ∧
    ((left = none ∧ program.launch state.1 action = (after.1, none)) ∨
      ∃ call outputs, left = some (call,
          (observer.launched state.1 state.2 action).map .inr ++ outputs.map .inl) ∧
        program.launch state.1 action = (after.1, some (call, outputs))) := by
  simp only [observed] at launched
  cases made : program.launch state.1 action with
  | mk other began =>
    rw [made] at launched
    cases began with
    | none =>
      cases launched
      exact ⟨rfl, .inl ⟨rfl, rfl⟩⟩
    | some =>
      cases launched
      exact ⟨rfl, .inr ⟨_, _, rfl, rfl⟩⟩

theorem observed_resume {emitted : List (Output ⊕ Sight)}
    (resumed : (program.observed observer).resume state call answer = some (after, next, emitted)) :
    after.2 = state.2 ∧ ∃ outputs,
      program.resume state.1 call answer = some (after.1, next, outputs) ∧
      emitted = (observer.resumed state.1 state.2 call answer).map .inr ++ outputs.map .inl := by
  simp only [observed, Option.map_eq_some_iff, Prod.mk.injEq] at resumed
  obtain ⟨⟨shared, call, outputs⟩, same, rfl, rfl, rfl⟩ := resumed
  exact ⟨rfl, outputs, same, rfl⟩

end

theorem erase_step {pool after : Pool (Shared × Note) Call} {label : Label Action Answer}
    {seen : List (Nat × (Output ⊕ Sight))}
    (stepped : (program.observed observer).step pool label = some (after, seen)) :
    program.step pool.erase label = some (after.erase, erase seen) := by
  rcases step_cases stepped with
    ⟨action, rfl, launched, callsEq, rfl⟩ |
    ⟨action, call, emitted, rfl, launched, callsEq, rfl⟩ |
    ⟨index, answer, call, next, emitted, rfl, found, resumed, callsEq, rfl⟩
  · obtain ⟨-, ⟨-, same⟩ | ⟨_, _, different, -⟩⟩ := observed_launch launched
    · simp only [step, Pool.erase, same, callsEq]
      rfl
    · cases different
  · obtain ⟨-, ⟨different, -⟩ | ⟨_, outputs, leftEq, same⟩⟩ := observed_launch launched
    · cases different
    · cases leftEq
      simp only [step, Pool.erase, same, callsEq, erase_seen]
  · obtain ⟨-, outputs, same, rfl⟩ := observed_resume resumed
    simp only [step, Pool.erase, found, Option.bind_some, same, Option.map_some, callsEq,
      erase_seen]

variable {admits : Pool Shared Call → Label Action Answer → Prop}
  {start pool : Pool (Shared × Note) Call}

theorem runs_of_observed (runs : Transition.Runs (program.observed observer).step
      (fun _ pool => admits pool.erase) start history pool) :
    Transition.Runs program.step (fun _ => admits) start.erase (erase history) pool.erase := by
  induction runs with
  | refl => exact .refl
  | tail earlier permitted stepped ih =>
    rw [erase_append]
    exact .tail ih permitted (erase_step stepped)

end P2PHub.AsyncCalls
