import Mathlib.Data.List.Basic

/-!
# Runs of executable transition systems

A system is a step function that either refuses a label or yields the next
state and the outputs of the step.  `Runs` are the finite runs all of whose
steps satisfy a condition on what happened before; they carry the outputs of
the whole run.
-/

namespace P2PHub.Transition

variable {State Label Output : Type*} {step : State → Label → Option (State × List Output)}
  {labels : List Label} {history : List Output}

def run (step : State → Label → Option (State × List Output)) :
    State → List Label → Option (State × List Output)
  | state, [] => some (state, [])
  | state, label :: labels =>
    (step state label).bind fun after =>
      (run step after.1 labels).map fun last => (last.1, after.2 ++ last.2)

def unrestricted : List Output → State → Label → Prop :=
  fun _ _ _ => True

/-- `Runs step allowed start history state`: some run from `start` ends in
`state`, has the outputs `history`, and takes only allowed steps. -/
inductive Runs (step : State → Label → Option (State × List Output))
    (allowed : List Output → State → Label → Prop) (start : State) :
    List Output → State → Prop
  | refl : Runs step allowed start [] start
  | tail {history : List Output} {before after : State} {label : Label}
      {outputs : List Output}
      (earlier : Runs step allowed start history before)
      (permitted : allowed history before label)
      (stepped : step before label = some (after, outputs)) :
      Runs step allowed start (history ++ outputs) after

namespace Runs

variable {step : State → Label → Option (State × List Output)}
  {allowed wider : List Output → State → Label → Prop} {start state : State}
  {history : List Output} {later : List Output}

/-- What holds at the start and is kept by every allowed step holds in every
state a run reaches, together with the outputs up to there. -/
theorem invariant (holds : List Output → State → Prop) (initial : holds [] start)
    (preserved : ∀ history before label after outputs,
      holds history before → allowed history before label →
        step before label = some (after, outputs) → holds (history ++ outputs) after)
    (runs : Runs step allowed start history state) : holds history state := by
  induction runs with
  | refl => exact initial
  | tail earlier permitted stepped ih => exact preserved _ _ _ _ _ ih permitted stepped

theorem mono (weaker : ∀ history before label,
      allowed history before label → wider history before label)
    (runs : Runs step allowed start history state) : Runs step wider start history state := by
  induction runs with
  | refl => exact .refl
  | tail earlier permitted stepped ih => exact .tail ih (weaker _ _ _ permitted) stepped

theorem unrestrict (runs : Runs step allowed start history state) :
    Runs step unrestricted start history state :=
  runs.mono fun _ _ _ _ => trivial

theorem trans {middle : State} {admits : State → Label → Prop}
    (first : Runs step (fun _ => admits) start history middle)
    (second : Runs step (fun _ => admits) middle later state) :
    Runs step (fun _ => admits) start (history ++ later) state := by
  induction second with
  | refl => simpa using first
  | tail earlier permitted stepped ih =>
    rw [← List.append_assoc]
    exact .tail ih permitted stepped

theorem trans_unrestricted {middle : State} (first : Runs step unrestricted start history middle)
    (second : Runs step unrestricted middle later state) :
    Runs step unrestricted start (history ++ later) state := by
  have firstAdmitted : Runs step (fun _ _ _ => True) start history middle := first
  exact firstAdmitted.trans second

end Runs

theorem runs_of_run {admits : Label → Prop} {start state : State}
    (admitted : ∀ label ∈ labels, admits label)
    (executed : run step start labels = some (state, history)) :
    Runs step (fun _ _ => admits) start history state := by
  induction labels generalizing start history with
  | nil =>
    cases executed
    exact .refl
  | cons label labels ih =>
    simp only [run, Option.bind_eq_some_iff, Option.map_eq_some_iff, Prod.mk.injEq]
      at executed
    obtain ⟨⟨after, outputs⟩, stepped, ⟨_, later⟩, continued, rfl, rfl⟩ := executed
    have first : Runs step (fun _ _ => admits) start ([] ++ outputs) after :=
      .tail .refl (admitted label (by simp)) stepped
    have admittedLater : ∀ label ∈ labels, admits label :=
      fun later member => admitted later (by simp [member])
    exact first.trans (ih admittedLater continued)

theorem exists_runs_of_any (step : State → Label → Option (State × List Output))
    (admits : Label → Prop) (start : State) (labels : List Label)
    (test : State × List Output → Bool) (admitted : ∀ label ∈ labels, admits label)
    (passed : (run step start labels).any test) :
    ∃ history state, Runs step (fun _ _ => admits) start history state ∧
      test (state, history) := by
  cases executed : run step start labels with
  | none =>
    rw [executed] at passed
    cases passed
  | some result =>
    rw [executed] at passed
    exact ⟨result.2, result.1, runs_of_run admitted executed, passed⟩

/-- Two executions around a step whose outcome passes a test are runs around a
step. -/
theorem exists_runs_around (step : State → Label → Option (State × List Output))
    (start : State) (front : List Label) (label : Label) (back : List Label)
    (test : State → List Output → List Output → State → Bool)
    (passed : ((run step start front).bind fun earlier =>
      (step earlier.1 label).bind fun stepped =>
        (run step stepped.1 back).map fun last =>
          test earlier.1 stepped.2 last.2 last.1) = some true) :
    ∃ history before after outputs later last, Runs step unrestricted start history before ∧
        step before label = some (after, outputs) ∧
        Runs step unrestricted after later last ∧ test before outputs later last := by
  simp only [Option.bind_eq_some_iff, Option.map_eq_some_iff] at passed
  obtain ⟨⟨before, history⟩, first, ⟨after, outputs⟩, stepped, ⟨last, later⟩, second, passed⟩ :=
    passed
  exact ⟨history, before, after, outputs, later, last, runs_of_run (fun _ _ => trivial) first,
    stepped, runs_of_run (fun _ _ => trivial) second, passed⟩

/-- Execute a list of labels as long as a test of the outputs, the state and
the label admits every step. -/
def runWhile (step : State → Label → Option (State × List Output))
    (admits : List Output → State → Label → Bool) :
    List Output → State → List Label → Option (State × List Output)
  | history, state, [] => some (state, history)
  | history, state, label :: labels =>
    if admits history state label then
      (step state label).bind fun after =>
        runWhile step admits (history ++ after.2) after.1 labels
    else none

theorem runs_of_runWhile {admits : List Output → State → Label → Bool}
    {allowed : List Output → State → Label → Prop} {start state last : State} {final : List Output}
    (permitted : ∀ history state label, admits history state label →
      allowed history state label) (earlier : Runs step allowed start history state)
    (executed : runWhile step admits history state labels = some (last, final)) :
    Runs step allowed start final last := by
  induction labels generalizing history state with
  | nil =>
    cases executed
    exact earlier
  | cons label labels ih =>
    rw [runWhile] at executed
    split at executed
    · next admitted =>
        obtain ⟨⟨after, outputs⟩, stepped, continued⟩ :=
          Option.bind_eq_some_iff.mp executed
        have longer : Runs step allowed start (history ++ outputs) after :=
          .tail earlier (permitted _ _ _ admitted) stepped
        exact ih longer continued
    · cases executed

theorem exists_runs_of_runWhile (step : State → Label → Option (State × List Output))
    (admits : List Output → State → Label → Bool) (allowed : List Output → State → Label → Prop)
    (start : State) (labels : List Label) (test : State × List Output → Bool)
    (permitted : ∀ history state label, admits history state label →
      allowed history state label)
    (passed : (runWhile step admits [] start labels).any test) :
    ∃ history state, Runs step allowed start history state ∧ test (state, history) := by
  cases executed : runWhile step admits [] start labels with
  | none =>
    rw [executed] at passed
    cases passed
  | some result =>
    rw [executed] at passed
    exact ⟨result.2, result.1, runs_of_runWhile permitted .refl executed, passed⟩

end P2PHub.Transition
