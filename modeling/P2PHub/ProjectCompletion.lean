import P2PHub.ProjectGraphs

/-!
# Completion of tasks

A task completes with the tasks below it: the guard asks for the dependencies of
all of them, and the cascade closes them.
-/

namespace P2PHub.SmartTasks

open WorklistSearch

abbrev Below (doc : Project) : String → String → Prop :=
  Leads (childIds doc)

def Project.closeBelow (doc : Project) (closed : List String) : Project :=
  { doc with
    tasks := doc.tasks.map fun task =>
      if task.parentTaskId.any (· ∈ closed) then { task with status := some .done } else task }

section

variable {doc : Project} {taskId : String}

theorem closeBelow_nil : doc.closeBelow [] = doc := by
  have unchanged : (doc.tasks.map fun task : Task =>
      if task.parentTaskId.any (· ∈ ([] : List String)) then { task with status := some .done }
      else task) = doc.tasks := by
    conv_rhs => rw [← List.map_id doc.tasks]
    apply List.map_congr_left
    intro task _
    cases task.parentTaskId <;> simp
  rw [Project.closeBelow, unchanged]

theorem closeChildren_closeBelow (closed : List String) (id : String) :
    (doc.closeBelow closed).closeChildren id = doc.closeBelow (id :: closed) := by
  simp only [Project.closeChildren, Project.closeBelow, List.map_map]
  congr 1
  apply List.map_congr_left
  intro task _
  cases parent : task.parentTaskId with
  | none => simp [parent]
  | some above =>
    by_cases same : above = id
    · subst same
      by_cases known : above ∈ closed <;> simp [parent, known]
    · by_cases known : above ∈ closed <;> simp [parent, known, same]

theorem cascadeDone_spec (doc : Project) (taskId : String) :
    ∃ closed, cascadeDone doc taskId = doc.closeBelow closed ∧
      ∀ id, id ∈ closed ↔ Below doc taskId id := by
  unfold cascadeDone
  split
  · next cascaded closed ran =>
      have edits : cascaded = doc.closeBelow closed := by
        refine run_invariant (fun state visited _ => state = doc.closeBelow visited)
          (fun _ _ _ _ _ held => held) ?_ closeBelow_nil.symm ran
        intro _ visited id _ _ _ _ held visits
        cases visits
        rw [held, closeChildren_closeBelow]
      refine ⟨closed, edits, fun id => ⟨fun visited => ?_, fun below => ?_⟩⟩
      · have reached : ∃ start ∈ [taskId], Below doc start id := by
          refine run_reached ?_ ran visited
          intro _ _ _ _ _ visits other pushed
          cases visits
          exact pushed
        obtain ⟨start, isStart, below⟩ := reached
        rwa [List.mem_singleton.mp isStart] at below
      · refine run_visits ?_ ran (List.mem_singleton.mpr rfl) below
        intro _ _ _ _ _ visits successor follows
        cases visits
        exact .inr follows
  · next impossible _ => exact nomatch impossible

end

variable {doc : Project} {task : Task}

theorem mem_taskIds_of_child {id parent : String} (child : id ∈ childIds doc parent) :
    id ∈ doc.tasks.map Task.id := by
  obtain ⟨task, member, rfl⟩ := List.mem_map.mp child
  exact List.mem_map_of_mem (List.mem_of_mem_filter member)

/-- No dependency of the task with an id is unfinished. -/
def Unblocked (doc : Project) (id : String) : Prop :=
  ∀ task, findTask doc id = some task → blockingDependencies doc task = []

theorem assertCanComplete_iff (present : task.id ∈ doc.tasks.map Task.id) :
    assertCanComplete doc task = .ok () ↔ ∀ id, Below doc task.id id → Unblocked doc id := by
  unfold assertCanComplete
  cases ran : (completionSearch doc).run () [] [task.id] with
  | ok result =>
    refine iff_of_true rfl ?_
    intro id below
    -- Only tasks are reached, so the children of a missing one do not matter.
    have reached : Leads (fun id => if (findTask doc id).isSome then childIds doc id else [])
        task.id id ∧ id ∈ doc.tasks.map Task.id := by
      induction below with
      | refl => exact ⟨.refl, present⟩
      | @tail between last _ child ih =>
        obtain ⟨path, isTask⟩ := ih
        obtain ⟨found, foundEq⟩ := findTask_isSome isTask
        refine ⟨path.tail ?_, mem_taskIds_of_child child⟩
        simpa [foundEq] using child
    have visited : id ∈ result.2 := by
      refine run_visits ?_ ran (List.mem_singleton.mpr rfl) reached.1
      intro _ _ node _ pushed visits successor follows
      simp only [completionSearch] at visits
      cases found : findTask doc node with
      | none => simp [found] at follows
      | some =>
        simp only [found] at visits
        split at visits
        · cases visits
          exact .inr (by simpa [found] using follows)
        · cases visits
    have passed : ∀ node ∈ result.2, Unblocked doc node := by
      refine run_passed ?_ ran
      intro _ _ node _ pushed visits task found
      simp only [completionSearch, found] at visits
      split at visits
      · next unblocked => exact unblocked
      · cases visits
    exact passed id visited
  | error message =>
    refine iff_of_false (fun same => nomatch same) ?_
    intro unblocked
    have stopped : ∃ start ∈ [task.id], ∃ node last visited, Below doc start node ∧
        (completionSearch doc).visit last visited node = .error message := by
      refine run_stops_reached ?_ ran
      intro _ _ node _ pushed visits other member
      simp only [completionSearch] at visits
      split at visits
      · cases visits
        cases member
      · split at visits
        · cases visits
          exact member
        · cases visits
    obtain ⟨start, isStart, node, last, visited, below, stops⟩ := stopped
    rw [List.mem_singleton.mp isStart] at below
    simp only [completionSearch] at stops
    split at stops
    · cases stops
    · next task found =>
        rw [if_pos (unblocked node below task found)] at stops
        cases stops

theorem assertCanStart_iff :
    assertCanStart doc task = .ok () ↔ blockingDependencies doc task = [] := by
  unfold assertCanStart
  dsimp only
  split
  · next unblocked => exact iff_of_true rfl unblocked
  · next blocked => exact iff_of_false (fun same => nomatch same) blocked

theorem blockingDependencies_eq_nil :
    blockingDependencies doc task = [] ↔ ∀ id ∈ dependenciesOf task, isDone doc id := by
  simp [blockingDependencies, List.filter_eq_nil_iff]

end P2PHub.SmartTasks
