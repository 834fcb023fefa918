import P2PHub.TransitionRuns
import Mathlib.Data.List.Count

/-!
# Asynchronous calls on a single-threaded event loop

An asynchronous function is cut at its suspension points: `launch` is the code
up to the first one and `resume` the code from one to the next, both atomic
with respect to the shared state.  A pool holds every call ever launched, at
the point where it is suspended or with its result, and the loop interleaves
them in any order.
-/

namespace P2PHub

open Transition

/-- What awaiting an injected function gives: it resolves, or it throws or
rejects. -/
inductive Outcome (Value : Type*)
  | resolved (value : Value)
  | failed
  deriving DecidableEq, Repr

namespace AsyncCalls

/-- The code of the asynchronous and the synchronous entry points of a
component.  A synchronous entry point leaves no call behind. -/
structure Program (Shared Action Call Answer Output : Type*) where
  launch : Shared → Action → Shared × Option (Call × List Output)
  resume : Shared → Call → Answer → Option (Shared × Call × List Output)

structure Pool (Shared Call : Type*) where
  shared : Shared
  calls : List Call

inductive Label (Action Answer : Type*)
  | launch (action : Action)
  | resume (index : Nat) (answer : Answer)

variable {Shared Action Call Answer Output : Type*}

def Pool.initial (shared : Shared) : Pool Shared Call :=
  ⟨shared, []⟩

/-- One turn of the loop.  Outputs are tagged with the call they come from. -/
def Program.step (program : Program Shared Action Call Answer Output) (pool : Pool Shared Call) :
    Label Action Answer → Option (Pool Shared Call × List (Nat × Output))
  | .launch action =>
    match program.launch pool.shared action with
    | (shared, none) => some (⟨shared, pool.calls⟩, [])
    | (shared, some (call, outputs)) =>
      some (⟨shared, pool.calls ++ [call]⟩, outputs.map (pool.calls.length, ·))
  | .resume index answer =>
    (pool.calls[index]?).bind fun call =>
      (program.resume pool.shared call answer).map fun (shared, next, outputs) =>
        (⟨shared, pool.calls.set index next⟩, outputs.map (index, ·))

variable {pool after : Pool Shared Call} {label : Label Action Answer}
  {outputs history : List (Nat × Output)} {start : Shared}

theorem Program.step_cases {program : Program Shared Action Call Answer Output}
    (stepped : program.step pool label = some (after, outputs)) :
    (∃ action, label = .launch action ∧ program.launch pool.shared action = (after.shared, none) ∧
      after.calls = pool.calls ∧ outputs = []) ∨ (∃ action call emitted, label = .launch action ∧
      program.launch pool.shared action = (after.shared, some (call, emitted)) ∧
      after.calls = pool.calls ++ [call] ∧ outputs = emitted.map (pool.calls.length, ·)) ∨
    (∃ index answer call next emitted, label = .resume index answer ∧
      pool.calls[index]? = some call ∧
      program.resume pool.shared call answer = some (after.shared, next, emitted) ∧
      after.calls = pool.calls.set index next ∧ outputs = emitted.map (index, ·)) := by
  cases label with
  | launch action =>
    simp only [step] at stepped
    split at stepped
    · next shared launched =>
        cases stepped
        exact Or.inl ⟨action, rfl, launched, rfl, rfl⟩
    · next shared call emitted launched =>
        cases stepped
        exact Or.inr (Or.inl ⟨action, call, emitted, rfl, launched, rfl, rfl⟩)
  | resume index answer =>
    simp only [step, Option.bind_eq_some_iff, Option.map_eq_some_iff, Prod.mk.injEq]
      at stepped
    obtain ⟨call, found, ⟨shared, next, emitted⟩, resumed, rfl, rfl⟩ := stepped
    exact Or.inr (Or.inr ⟨index, answer, call, next, emitted, rfl, found, resumed, rfl, rfl⟩)

/-- The turn that a step takes, when every entry point leaves a call: the call
of the turn has its place, and every other one stays where it is. -/
structure Turn (program : Program Shared Action Call Answer Output) (pool next : Pool Shared Call)
    (label : Label Action Answer) (index : Nat) (call : Call) (emitted : List Output) : Prop where
  taken : (∃ action, label = .launch action ∧ pool.calls[index]? = none ∧
      program.launch pool.shared action = (next.shared, some (call, emitted))) ∨
    ∃ answer before, label = .resume index answer ∧ pool.calls[index]? = some before ∧
      program.resume pool.shared before answer = some (next.shared, call, emitted)
  located : next.calls[index]? = some call
  others : ∀ other, other ≠ index → next.calls[other]? = pool.calls[other]?

theorem Program.exists_turn {program : Program Shared Action Call Answer Output}
    (leaves : ∀ shared action, (program.launch shared action).2.isSome) {next : Pool Shared Call}
    (stepped : program.step pool label = some (next, outputs)) :
    ∃ index call emitted, outputs = emitted.map (index, ·) ∧
      Turn program pool next label index call emitted := by
  rcases Program.step_cases stepped with
    ⟨action, rfl, launched, callsEq, rfl⟩ |
    ⟨action, call, emitted, rfl, launched, callsEq, rfl⟩ |
    ⟨index, answer, before, call, emitted, rfl, found, resumed, callsEq, rfl⟩
  · have left := leaves pool.shared action
    rw [launched] at left
    cases left
  · refine ⟨pool.calls.length, call, emitted, rfl, ?_, ?_, fun other apart => ?_⟩
    · exact Or.inl ⟨action, rfl, List.getElem?_eq_none (Nat.le_refl _), launched⟩
    · rw [callsEq, List.getElem?_concat_length]
    · rw [callsEq]
      rcases Nat.lt_or_gt_of_ne apart with old | beyond
      · exact List.getElem?_append_left old
      · rw [List.getElem?_eq_none (by simp; omega), List.getElem?_eq_none (by omega)]
  · have bound := (List.getElem?_eq_some_iff.mp found).1
    refine ⟨index, call, emitted, rfl, ?_, ?_, fun other apart => ?_⟩
    · exact Or.inr ⟨answer, before, rfl, found, resumed⟩
    · rw [callsEq, List.getElem?_set_self bound]
    · rw [callsEq, List.getElem?_set_ne (Ne.symm apart)]

/-- An invariant of a pool: a property of the shared state, and a property of
every call against the shared state. -/
def Holds (sharedHolds : List (Nat × Output) → Shared → Prop)
    (callHolds : List (Nat × Output) → Shared → Nat → Call → Prop)
    (history : List (Nat × Output)) (pool : Pool Shared Call) : Prop :=
  sharedHolds history pool.shared ∧ ∀ index call, pool.calls[index]? = some call →
      callHolds history pool.shared index call

variable {program : Program Shared Action Call Answer Output}
  {allowed : List (Nat × Output) → Pool Shared Call → Label Action Answer → Prop}
  {begin : Pool Shared Call} {sharedHolds : List (Nat × Output) → Shared → Prop}
  {callHolds : List (Nat × Output) → Shared → Nat → Call → Prop}

/-- What must be shown of a pool invariant for each turn of the loop: it is
kept by the entry points, established for the call they leave behind, kept for
the call that is resumed, and kept for every other call. -/
structure Preserved (program : Program Shared Action Call Answer Output)
    (allowed : List (Nat × Output) → Pool Shared Call → Label Action Answer → Prop)
    (begin : Pool Shared Call) (sharedHolds : List (Nat × Output) → Shared → Prop)
    (callHolds : List (Nat × Output) → Shared → Nat → Call → Prop) : Prop where
  acted : ∀ history pool action shared, Runs program.step allowed begin history pool →
      Holds sharedHolds callHolds history pool → allowed history pool (.launch action) →
      program.launch pool.shared action = (shared, none) → sharedHolds history shared ∧
          ∀ index call, pool.calls[index]? = some call →
            callHolds history pool.shared index call → callHolds history shared index call
  launched : ∀ history pool action shared call emitted,
    Runs program.step allowed begin history pool →
      Holds sharedHolds callHolds history pool → allowed history pool (.launch action) →
      program.launch pool.shared action = (shared, some (call, emitted)) →
        sharedHolds (history ++ emitted.map (pool.calls.length, ·)) shared ∧
          callHolds (history ++ emitted.map (pool.calls.length, ·)) shared pool.calls.length call ∧
          ∀ index other, pool.calls[index]? = some other →
            callHolds history pool.shared index other →
              callHolds (history ++ emitted.map (pool.calls.length, ·)) shared index other
  resumed : ∀ history pool index answer call shared next emitted,
    Runs program.step allowed begin history pool →
      Holds sharedHolds callHolds history pool → allowed history pool (.resume index answer) →
      pool.calls[index]? = some call →
      program.resume pool.shared call answer = some (shared, next, emitted) →
        sharedHolds (history ++ emitted.map (index, ·)) shared ∧
          callHolds (history ++ emitted.map (index, ·)) shared index next ∧
          ∀ position other, position ≠ index → pool.calls[position]? = some other →
            callHolds history pool.shared position other →
              callHolds (history ++ emitted.map (index, ·)) shared position other

section

variable (preserved : Preserved program allowed begin sharedHolds callHolds)
include preserved

theorem Preserved.step_holds (earlier : Runs program.step allowed begin history pool)
    (holds : Holds sharedHolds callHolds history pool) (permitted : allowed history pool label)
    (stepped : program.step pool label = some (after, outputs)) :
    Holds sharedHolds callHolds (history ++ outputs) after := by
  rcases Program.step_cases stepped with
    ⟨action, rfl, launched, callsEq, rfl⟩ |
    ⟨action, call, emitted, rfl, launched, callsEq, rfl⟩ |
    ⟨index, answer, call, next, emitted, rfl, found, resumed, callsEq, rfl⟩
  · obtain ⟨sharedKept, callsKept⟩ :=
      preserved.acted _ _ _ _ earlier holds permitted launched
    rw [List.append_nil]
    refine ⟨sharedKept, fun index call found => ?_⟩
    rw [callsEq] at found
    exact callsKept index call found (holds.2 index call found)
  · obtain ⟨sharedKept, newHolds, callsKept⟩ :=
      preserved.launched _ _ _ _ _ _ earlier holds permitted launched
    refine ⟨sharedKept, fun index other found => ?_⟩
    rw [callsEq] at found
    by_cases old : index < pool.calls.length
    · rw [List.getElem?_append_left old] at found
      exact callsKept index other found (holds.2 index other found)
    · have bound := (List.getElem?_eq_some_iff.mp found).1
      rw [List.length_append, List.length_singleton] at bound
      obtain rfl : index = pool.calls.length := by omega
      obtain rfl : call = other := by simpa using found
      exact newHolds
  · obtain ⟨sharedKept, nextHolds, callsKept⟩ :=
      preserved.resumed _ _ _ _ _ _ _ _ earlier holds permitted found resumed
    refine ⟨sharedKept, fun position other located => ?_⟩
    rw [callsEq] at located
    by_cases same : position = index
    · subst position
      rw [List.getElem?_set_self (List.getElem?_eq_some_iff.mp found).1] at located
      cases located
      exact nextHolds
    · rw [List.getElem?_set_ne (Ne.symm same)] at located
      exact callsKept position other same located (holds.2 position other located)

theorem Preserved.run_holds (initial : Holds sharedHolds callHolds [] begin)
    (runs : Runs program.step allowed begin history pool) :
    Holds sharedHolds callHolds history pool := by
  induction runs with
  | refl => exact initial
  | tail earlier permitted stepped ih =>
    exact preserved.step_holds earlier ih permitted stepped

end

theorem call_evolves (evolves : Call → Call → Prop) (reflexive : ∀ call, evolves call call)
    (transitive : ∀ first second third, evolves first second → evolves second third →
      evolves first third) (resumed : ∀ shared call answer after next emitted,
      program.resume shared call answer = some (after, next, emitted) → evolves call next)
    (runs : Runs program.step allowed begin history pool) {index : Nat} {call : Call}
    (found : begin.calls[index]? = some call) :
    ∃ evolved, pool.calls[index]? = some evolved ∧ evolves call evolved := by
  refine runs.invariant (fun _ pool => ∃ evolved, pool.calls[index]? = some evolved ∧
    evolves call evolved) ⟨call, found, reflexive call⟩ ?_
  rintro history before label after outputs ⟨evolved, located, related⟩ _ stepped
  rcases Program.step_cases stepped with
    ⟨action, rfl, _, callsEq, rfl⟩ | ⟨action, new, emitted, rfl, _, callsEq, rfl⟩ |
    ⟨turn, answer, turned, next, emitted, rfl, turnFound, resumeEq, callsEq, rfl⟩
  · rw [callsEq]
    exact ⟨evolved, located, related⟩
  · have bound := (List.getElem?_eq_some_iff.mp located).1
    rw [callsEq, List.getElem?_append_left bound]
    exact ⟨evolved, located, related⟩
  · rw [callsEq]
    by_cases same : turn = index
    · subst turn
      have sameCall : turned = evolved := by
        rw [located] at turnFound
        exact (Option.some.inj turnFound).symm
      rw [List.getElem?_set_self (List.getElem?_eq_some_iff.mp located).1]
      rw [sameCall] at resumeEq
      exact ⟨next, rfl, transitive _ _ _ related (resumed _ _ _ _ _ _ resumeEq)⟩
    · rw [List.getElem?_set_ne same]
      exact ⟨evolved, located, related⟩

/-- Resource accounting: a shared counter that every entry and every
resumption changes by the change of what the calls hold counts the calls that
hold. -/
theorem counter_eq_countP {counter : Shared → Int} {holding : Call → Bool}
    (zero : counter start = 0) (acted : ∀ shared action after,
      program.launch shared action = (after, none) → counter after = counter shared)
    (launched : ∀ shared action after call emitted,
      program.launch shared action = (after, some (call, emitted)) →
        counter after = counter shared + (holding call).toNat)
    (resumed : ∀ shared call answer after next emitted,
      program.resume shared call answer = some (after, next, emitted) →
        counter after + (holding call).toNat = counter shared + (holding next).toNat)
    (runs : Runs program.step allowed (Pool.initial start) history pool) :
    counter pool.shared = pool.calls.countP holding := by
  refine runs.invariant (fun _ pool => counter pool.shared = pool.calls.countP holding)
    (by simpa [Pool.initial] using zero) ?_
  intro history before label after outputs counted _ stepped
  rcases Program.step_cases stepped with
    ⟨action, rfl, launchEq, callsEq, rfl⟩ |
    ⟨action, call, emitted, rfl, launchEq, callsEq, rfl⟩ |
    ⟨index, answer, call, next, emitted, rfl, found, resumeEq, callsEq, rfl⟩
  · rw [callsEq, acted _ _ _ launchEq, counted]
  · rw [callsEq, launched _ _ _ _ _ launchEq, counted, List.countP_append]
    cases held : holding call <;> simp [held]
  · have change := resumed _ _ _ _ _ _ resumeEq
    obtain ⟨bound, callEq⟩ := List.getElem?_eq_some_iff.mp found
    rw [callsEq, List.countP_set bound, callEq]
    have present : (holding call).toNat ≤ before.calls.countP holding := by
      cases held : holding call with
      | false => exact Nat.zero_le _
      | true =>
        exact List.countP_pos_iff.mpr ⟨call, List.mem_of_getElem? found, held⟩
    cases heldCall : holding call <;> cases heldNext : holding next <;>
      simp only [heldCall, heldNext, Bool.toNat_true, Bool.toNat_false] at change present ⊢ <;>
      simp <;> omega

theorem shared_invariant (holds : Shared → Prop) (initial : holds start)
    (acted : ∀ shared action after,
      holds shared → program.launch shared action = (after, none) → holds after)
    (launched : ∀ shared action after call emitted, holds shared →
      program.launch shared action = (after, some (call, emitted)) → holds after)
    (resumed : ∀ shared call answer after next emitted, holds shared →
      program.resume shared call answer = some (after, next, emitted) → holds after)
    (runs : Runs program.step allowed (Pool.initial start) history pool) : holds pool.shared := by
  refine runs.invariant (fun _ pool => holds pool.shared) initial ?_
  intro history before label after outputs held _ stepped
  rcases Program.step_cases stepped with
    ⟨action, rfl, launchEq, _, rfl⟩ |
    ⟨action, call, emitted, rfl, launchEq, _, rfl⟩ |
    ⟨index, answer, call, next, emitted, rfl, _, resumeEq, _, rfl⟩
  · exact acted _ _ _ held launchEq
  · exact launched _ _ _ _ _ held launchEq
  · exact resumed _ _ _ _ _ _ held resumeEq

/-- What every turn emits satisfies what each entry point and each resumption
emits. -/
theorem outputs_invariant (emits : Output → Prop) (launched : ∀ shared action after call emitted,
      program.launch shared action = (after, some (call, emitted)) →
        ∀ output ∈ emitted, emits output) (resumed : ∀ shared call answer after next emitted,
      program.resume shared call answer = some (after, next, emitted) →
        ∀ output ∈ emitted, emits output)
    (runs : Runs program.step allowed (Pool.initial start) history pool) :
    ∀ output ∈ history, emits output.2 := by
  refine runs.invariant (fun history _ => ∀ output ∈ history, emits output.2) (by simp) ?_
  intro history before label after outputs held _ stepped output member
  rcases List.mem_append.mp member with earlier | latest
  · exact held output earlier
  · rcases Program.step_cases stepped with
      ⟨action, rfl, _, _, rfl⟩ |
      ⟨action, call, emitted, rfl, launchEq, _, rfl⟩ |
      ⟨index, answer, call, next, emitted, rfl, _, resumeEq, _, rfl⟩
    · cases latest
    · obtain ⟨own, ownMem, rfl⟩ := List.mem_map.mp latest
      exact launched _ _ _ _ _ launchEq own ownMem
    · obtain ⟨own, ownMem, rfl⟩ := List.mem_map.mp latest
      exact resumed _ _ _ _ _ _ resumeEq own ownMem

def ownOutputs (history : List (Nat × Output)) (index : Nat) : List Output :=
  history.filterMap fun output => if output.1 = index then some output.2 else none

theorem mem_ownOutputs {history : List (Nat × Output)} {index : Nat} {output : Output} :
    output ∈ ownOutputs history index ↔ (index, output) ∈ history := by
  simp only [ownOutputs, List.mem_filterMap]
  constructor
  · rintro ⟨⟨tag, value⟩, member, chosen⟩
    by_cases same : tag = index
    · rw [if_pos same] at chosen
      cases chosen
      rwa [← same]
    · rw [if_neg same] at chosen
      cases chosen
  · intro member
    exact ⟨(index, output), member, if_pos rfl⟩

theorem ownOutputs_append (history later : List (Nat × Output)) (index : Nat) :
    ownOutputs (history ++ later) index = ownOutputs history index ++ ownOutputs later index :=
  List.filterMap_append

theorem ownOutputs_self (emitted : List Output) (index : Nat) :
    ownOutputs (emitted.map (index, ·)) index = emitted := by
  simp [ownOutputs, List.filterMap_map]

theorem ownOutputs_of_ne {emitted : List Output} {index other : Nat} (apart : other ≠ index) :
    ownOutputs (emitted.map (other, ·)) index = [] := by
  simp [ownOutputs, List.filterMap_map, apart]

/-- An invariant of one call, of its own outputs and the shared state: it is
established when the call is launched, kept when the call is resumed, and kept
by the turns of everything else. -/
theorem focused_invariant {start : Shared} (index : Nat)
    (focusedHolds : List Output → Shared → Call → Prop)
    (launched : ∀ history pool action after call emitted,
      Runs program.step allowed (Pool.initial start) history pool →
        allowed history pool (.launch action) →
        program.launch pool.shared action = (after, some (call, emitted)) →
          focusedHolds emitted after call)
    (resumed : ∀ history pool answer own call after next emitted,
      Runs program.step allowed (Pool.initial start) history pool →
        allowed history pool (.resume index answer) → own = ownOutputs history index →
        pool.calls[index]? = some call → focusedHolds own pool.shared call →
        program.resume pool.shared call answer = some (after, next, emitted) →
          focusedHolds (own ++ emitted) after next)
    (entered : ∀ history pool action own call after left,
      Runs program.step allowed (Pool.initial start) history pool →
        allowed history pool (.launch action) → own = ownOutputs history index →
        pool.calls[index]? = some call → focusedHolds own pool.shared call →
        program.launch pool.shared action = (after, left) → focusedHolds own after call)
    (interleaved : ∀ history pool other answer own call turned after next emitted,
      Runs program.step allowed (Pool.initial start) history pool →
        allowed history pool (.resume other answer) → own = ownOutputs history index →
        pool.calls[index]? = some call → focusedHolds own pool.shared call →
        pool.calls[other]? = some turned →
        program.resume pool.shared turned answer = some (after, next, emitted) →
          focusedHolds own after call) {history : List (Nat × Output)} {pool : Pool Shared Call}
    (runs : Runs program.step allowed (Pool.initial start) history pool) :
    (pool.calls.length ≤ index → ownOutputs history index = []) ∧
      ∀ call, pool.calls[index]? = some call →
        focusedHolds (ownOutputs history index) pool.shared call := by
  induction runs with
  | refl => exact ⟨fun _ => rfl, by simp [Pool.initial]⟩
  | @tail history before after label outputs earlier permitted stepped ih =>
    obtain ⟨silent, held⟩ := ih
    rcases Program.step_cases stepped with
      ⟨action, rfl, launchEq, callsEq, rfl⟩ |
      ⟨action, call, emitted, rfl, launchEq, callsEq, rfl⟩ |
      ⟨turn, answer, turned, next, emitted, rfl, found, resumeEq, callsEq, rfl⟩
    · rw [callsEq, List.append_nil]
      refine ⟨silent, fun call located => ?_⟩
      exact entered _ _ _ _ _ _ _ earlier permitted rfl located (held call located) launchEq
    · rw [callsEq, List.length_append, List.length_singleton, ownOutputs_append]
      refine ⟨fun beyond => ?_, fun other located => ?_⟩
      · rw [silent (by omega), ownOutputs_of_ne (by omega)]
        rfl
      · by_cases old : index < before.calls.length
        · rw [List.getElem?_append_left old] at located
          rw [ownOutputs_of_ne (by omega), List.append_nil]
          exact entered _ _ _ _ _ _ _ earlier permitted rfl located (held other located) launchEq
        · have bound := (List.getElem?_eq_some_iff.mp located).1
          rw [List.length_append, List.length_singleton] at bound
          obtain rfl : index = before.calls.length := by omega
          obtain rfl : call = other := by simpa using located
          rw [ownOutputs_self, silent (Nat.le_refl _)]
          exact launched _ _ _ _ _ _ earlier permitted launchEq
    · have bound := (List.getElem?_eq_some_iff.mp found).1
      rw [callsEq, List.length_set, ownOutputs_append]
      refine ⟨fun beyond => ?_, fun other located => ?_⟩
      · rw [silent beyond, ownOutputs_of_ne (by omega)]
        rfl
      · by_cases same : turn = index
        · subst turn
          rw [List.getElem?_set_self bound] at located
          cases located
          rw [ownOutputs_self]
          exact resumed _ _ _ _ _ _ _ _ earlier permitted rfl found (held turned found) resumeEq
        · rw [List.getElem?_set_ne same] at located
          rw [ownOutputs_of_ne same, List.append_nil]
          exact interleaved _ _ _ _ _ _ _ _ _ _ earlier permitted rfl located
            (held other located) found resumeEq

/-- An invariant of single calls, of their own outputs and their own state, is
established by the entry points and kept by the resumptions. -/
theorem local_invariant (localHolds : List Output → Call → Prop) {start : Shared}
    (launched : ∀ history pool action after call emitted, allowed history pool (.launch action) →
        program.launch pool.shared action = (after, some (call, emitted)) → localHolds emitted call)
    (resumed : ∀ history pool index answer own call after next emitted,
      allowed history pool (.resume index answer) → localHolds own call →
        program.resume pool.shared call answer = some (after, next, emitted) →
          localHolds (own ++ emitted) next)
    {history : List (Nat × Output)} {pool : Pool Shared Call}
    (runs : Runs program.step allowed (Pool.initial start) history pool) :
    (∀ index, pool.calls.length ≤ index → ownOutputs history index = []) ∧
      ∀ index call, pool.calls[index]? = some call →
        localHolds (ownOutputs history index) call := by
  have focused (index : Nat) := focused_invariant index (fun own _ call => localHolds own call)
    (fun _ _ _ _ _ _ _ permitted launchEq => launched _ _ _ _ _ _ permitted launchEq)
    (fun _ _ _ _ _ _ _ _ _ permitted _ _ holds resumeEq =>
      resumed _ _ _ _ _ _ _ _ _ permitted holds resumeEq)
    (fun _ _ _ _ _ _ _ _ _ _ _ holds _ => holds)
    (fun _ _ _ _ _ _ _ _ _ _ _ _ _ _ holds _ _ => holds) runs
  exact ⟨fun index => (focused index).1, fun index => (focused index).2⟩

end AsyncCalls

end P2PHub
