import P2PHub.ProjectMutations

/-!
# Steps of a project

What a mutation that succeeds has checked, and what it does to the tasks of the
project.
-/

namespace P2PHub.SmartTasks

theorem bind_eq_ok {First Second : Type} {first : Except String First}
    {next : First → Except String Second} {result : Second} :
    (first >>= next) = .ok result ↔ ∃ value, first = .ok value ∧ next value = .ok result := by
  cases first with
  | error | ok => simp [bind, Except.bind]

theorem pure_eq_ok {Result : Type} {value result : Result} :
    (pure value : Except String Result) = .ok result ↔ value = result := by
  simp [pure, Except.pure]

theorem map_eq_ok {First Second : Type} {first : Except String First} {change : First → Second}
    {result : Second} :
    first.map change = .ok result ↔ ∃ value, first = .ok value ∧ change value = result := by
  cases first with
  | error | ok => simp [Except.map]

theorem ensure_eq_ok {holds : Bool} {message : String} {result : Unit} :
    ensure holds message = .ok result ↔ holds := by
  cases holds <;> simp [ensure]

theorem requireTask_ok {operation kind taskId : String} {doc : Project} {task : Task}
    (required : requireTask operation kind doc taskId = .ok task) :
    findTask doc taskId = some task := by
  unfold requireTask at required
  split at required
  · next found => rw [found, Except.ok.inj required]
  · cases required

theorem requireProject_ok {operation projectId : String} {stored : StoredProject} {doc : Project}
    (required : requireProject operation projectId stored = .ok doc) : stored = .ok (some doc) := by
  unfold requireProject at required
  split at required
  · rw [Except.ok.inj required]
  · cases required
  · cases required

structure SameTasks (doc base : Project) : Prop where
  tasks : base.tasks = doc.tasks
  id : base.id = doc.id
  mutationSeq : base.mutationSeq = doc.mutationSeq

/-- An edit of a task that keeps its status and its place in the graphs. -/
structure KeepsNode (change : Task → Task) : Prop where
  id (task : Task) : (change task).id = task.id
  status (task : Task) : (change task).status = task.status
  parentTaskId (task : Task) : (change task).parentTaskId = task.parentTaskId
  dependencies (task : Task) : (change task).dependencies = task.dependencies
  predecessors (task : Task) : (change task).predecessors = task.predecessors

/-- What a mutation that succeeds does to the tasks of a project, before it is
counted and stored. -/
inductive TaskStep (runtime : Runtime) (doc : Project) (freshId : String) : Project → Prop
  | kept {base : Project} (same : SameTasks doc base) : TaskStep runtime doc freshId base
  | edited {base : Project} {taskId : String} {change : Task → Task} (same : SameTasks doc base)
      (keeps : KeepsNode change) : TaskStep runtime doc freshId (base.modifyTask taskId change)
  | added {patch : Patch} {parent : Option String}
      (exists_ : ∀ above, parent = some above → ∃ task, findTask doc above = some task) :
      TaskStep runtime doc freshId { doc with tasks := doc.tasks ++ [patch.newTask freshId parent] }
  | moved {operation cycle taskId : String} {value : Value} {parent : Option String}
      (given : newParentOf runtime operation cycle doc taskId value = .ok parent) :
      TaskStep runtime doc freshId
        (doc.modifyTask taskId fun task => { task with parentTaskId := parent })
  | updated {taskId : String} {task : Task} {patch : Patch} {value : Value}
      {moved : Project × Task} (found : findTask doc taskId = some task)
      (moves : moveUpdated runtime (doc.modifyTask taskId patch.apply) (patch.apply task) value =
        .ok moved)
      (guarded : guardStatus moved.1 moved.2 patch.status = .ok ()) :
      TaskStep runtime doc freshId (closeSubtree moved.1 taskId patch.status)
  | restatused {taskId : String} {task : Task} {status : Option TaskStatus}
      {proof : Task → Option TaskCompletionProof} (found : findTask doc taskId = some task)
      (guarded : guardStatus doc task status = .ok ()) :
      TaskStep runtime doc freshId (closeSubtree (doc.modifyTask taskId fun task =>
          { task with status, completionProof := proof task }) taskId status)
  | linked {taskId : String} {task : Task} {predecessor : Predecessor}
      {predecessors : List Predecessor} (found : findTask doc taskId = some task)
      (exists_ : ∃ other, findTask doc predecessor.taskId = some other)
      (set : setPredecessor doc task predecessor = .ok predecessors) :
      TaskStep runtime doc freshId (doc.modifyTask taskId fun task =>
          syncDependencyFields { task with predecessors } (predecessors.map Predecessor.taskId))
  | redirected {operation taskId : String} {ids : List String} {replaced : Project}
      (unrepeated : ids.Nodup)
      (replaces : replaceDependencies operation doc taskId ids = .ok replaced) :
      TaskStep runtime doc freshId replaced

section

variable {runtime : Runtime} {around : Surroundings} {projectId : String} {doc : Project}
  {applied : Applied} {taskId : String}

def Steps (runtime : Runtime) (around : Surroundings) (doc : Project) (applied : Applied) : Prop :=
  ∃ edited, TaskStep runtime doc around.freshId edited ∧
    applied = saveProject around edited applied.action

theorem steps_saveProject {edited : Project} {action : String}
    (step : TaskStep runtime doc around.freshId edited) :
    Steps runtime around doc (saveProject around edited action) :=
  ⟨edited, step, rfl⟩

theorem addedParentOf_ok {value : Value} {parent : Option String}
    (given : addedParentOf runtime doc value = .ok parent) :
    ∀ above, parent = some above → ∃ task, findTask doc above = some task := by
  intro above isParent
  subst isParent
  cases value with
  | undefined => cases given
  | string =>
    obtain ⟨task, required, same⟩ := map_eq_ok.mp given
    rw [← Option.some.inj same]
    exact ⟨task, requireTask_ok required⟩
  | _ => cases given

theorem rawAddTask_steps {input : AddTaskInput}
    (applies : rawAddTask runtime around projectId input (.ok (some doc)) = .ok applied) :
    Steps runtime around doc applied := by
  simp only [rawAddTask, bind_eq_ok, pure_eq_ok] at applies
  obtain ⟨-, -, patch, -, -, -, read, isDoc, parent, given, rfl⟩ := applies
  cases requireProject_ok isDoc
  exact steps_saveProject (.added (addedParentOf_ok given))

theorem rawUpdateTask_steps {input : UpdateTaskInput}
    (applies : rawUpdateTask runtime around projectId input (.ok (some doc)) = .ok applied) :
    Steps runtime around doc applied := by
  simp only [rawUpdateTask, bind_eq_ok, pure_eq_ok] at applies
  obtain ⟨read, isDoc, task, required, patch, -, moved, moves, -, -, ⟨⟩, guarded, rfl⟩ := applies
  cases requireProject_ok isDoc
  exact steps_saveProject (.updated (requireTask_ok required) moves guarded)

theorem rawSetDependency_steps {input : SetDependencyInput}
    (applies : rawSetDependency around projectId input (.ok (some doc)) = .ok applied) :
    Steps runtime around doc applied := by
  simp only [rawSetDependency, bind_eq_ok, pure_eq_ok] at applies
  obtain ⟨type, -, lagDays, -, read, isDoc, task, required, other, there, predecessors, set, rfl⟩ :=
    applies
  cases requireProject_ok isDoc
  exact steps_saveProject (.linked (requireTask_ok required) ⟨other, requireTask_ok there⟩ set)

theorem eraseDups_nodup (ids : List String) : ids.eraseDups.Nodup := by
  induction length : ids.length using Nat.strongRecOn generalizing ids with
  | ind count ih =>
    cases ids with
    | nil => exact List.nodup_nil
    | cons id rest =>
      rw [List.eraseDups_cons, List.nodup_cons]
      constructor
      · rw [List.mem_eraseDups]
        simp
      · refine ih _ ?_ _ rfl
        have shorter := List.length_filter_le (fun other => !other == id) rest
        rw [← length, List.length_cons]
        omega

theorem dependencyIdsOf_nodup {operation : String} {value : Value} {ids : List String}
    (given : dependencyIdsOf operation value = .ok ids) : ids.Nodup := by
  cases value with
  | array =>
    simp only [dependencyIdsOf] at given
    split at given
    · rw [← Except.ok.inj given]
      exact eraseDups_nodup _
    · cases given
  | _ => cases given

theorem rawSetDependencies_steps {dependencyIds : Value}
    (applies : rawSetDependencies around projectId taskId dependencyIds (.ok (some doc)) =
    .ok applied) : Steps runtime around doc applied := by
  simp only [rawSetDependencies, bind_eq_ok, pure_eq_ok] at applies
  obtain ⟨ids, given, read, isDoc, -, -, replaced, replaces, rfl⟩ := applies
  cases requireProject_ok isDoc
  exact steps_saveProject (.redirected (dependencyIdsOf_nodup given) replaces)

theorem sameTasks_addMemberToList (doc : Project) (peerId : String) :
    SameTasks doc (addMemberToList doc peerId) := by
  unfold addMemberToList
  split <;> exact ⟨rfl, rfl, rfl⟩

theorem rawDelegateTask_steps {peerId : String}
    (applies : rawDelegateTask around projectId taskId peerId (.ok (some doc)) = .ok applied) :
    Steps runtime around doc applied := by
  simp only [rawDelegateTask, bind_eq_ok, pure_eq_ok] at applies
  obtain ⟨-, -, read, isDoc, -, -, rfl⟩ := applies
  cases requireProject_ok isDoc
  apply steps_saveProject
  apply TaskStep.edited (sameTasks_addMemberToList doc peerId)
  constructor <;> intro task <;> rfl

theorem rawAssignResource_steps {contactPeerId : String}
    (applies : rawAssignResource around projectId taskId contactPeerId (.ok (some doc)) =
    .ok applied) : Steps runtime around doc applied := by
  simp only [rawAssignResource, bind_eq_ok, pure_eq_ok] at applies
  obtain ⟨read, isDoc, -, -, -, -, -, -, rfl⟩ := applies
  cases requireProject_ok isDoc
  apply steps_saveProject
  have same : SameTasks doc
      { doc with contacts := doc.contacts ++ [⟨around.freshId, contactPeerId⟩] } := ⟨rfl, rfl, rfl⟩
  apply TaskStep.edited same
  constructor <;> intro task <;> rfl

theorem rawAddMember_steps {peerId : Value}
    (applies : rawAddMember around projectId peerId (.ok (some doc)) = .ok applied) :
    Steps runtime around doc applied := by
  simp only [rawAddMember, bind_eq_ok, pure_eq_ok] at applies
  obtain ⟨peerId, -, read, isDoc, rfl⟩ := applies
  cases requireProject_ok isDoc
  exact steps_saveProject (.kept (sameTasks_addMemberToList doc peerId))

theorem rawUpdateBudget_steps {budgetCents spentCents : Value}
    (applies : rawUpdateBudget around projectId budgetCents spentCents (.ok (some doc)) =
    .ok applied) : Steps runtime around doc applied := by
  simp only [rawUpdateBudget, bind_eq_ok, pure_eq_ok] at applies
  obtain ⟨read, isDoc, budget, -, spent, -, rfl⟩ := applies
  cases requireProject_ok isDoc
  exact steps_saveProject (.kept ⟨rfl, rfl, rfl⟩)

theorem rawAttachNote_steps {noteId : Value}
    (applies : rawAttachNote around projectId noteId (.ok (some doc)) = .ok applied) :
    Steps runtime around doc applied := by
  simp only [rawAttachNote, bind_eq_ok, pure_eq_ok] at applies
  obtain ⟨noteId, -, read, isDoc, targetClass, -, rfl⟩ := applies
  cases requireProject_ok isDoc
  exact steps_saveProject (.kept ⟨rfl, rfl, rfl⟩)

end

section

variable {runtime : Runtime} {around : Surroundings} {projectId senderPeerId : String}
  {doc : Project} {task : Task} {payload : RequestPayload} {applied : Applied}

theorem createSubtask_steps (found : findTask doc task.id = some task)
    (applies : createSubtask runtime around doc task payload = .ok applied) :
    Steps runtime around doc applied := by
  simp only [createSubtask, bind_eq_ok, pure_eq_ok] at applies
  obtain ⟨patch, -, -, -, rfl⟩ := applies
  apply steps_saveProject
  apply TaskStep.added
  intro above isParent
  rw [← Option.some.inj isParent]
  exact ⟨task, found⟩

theorem moveTask_steps (applies : moveTask runtime around doc task payload = .ok applied) :
    Steps runtime around doc applied := by
  simp only [moveTask, bind_eq_ok, pure_eq_ok] at applies
  obtain ⟨newParent, given, rfl⟩ := applies
  exact steps_saveProject (.moved given)

theorem updateStatus_steps (found : findTask doc task.id = some task)
    (applies : updateStatus runtime around doc task payload = .ok applied) :
    Steps runtime around doc applied := by
  simp only [updateStatus, bind_eq_ok, pure_eq_ok] at applies
  obtain ⟨patch, -, ⟨⟩, guarded, rfl⟩ := applies
  exact steps_saveProject (.restatused found guarded)

theorem logTime_steps
    (applies : logTime runtime around doc task senderPeerId payload = .ok applied) :
    Steps runtime around doc applied := by
  simp only [logTime, bind_eq_ok, pure_eq_ok] at applies
  obtain ⟨start, -, finish, -, -, -, rfl⟩ := applies
  apply steps_saveProject
  apply TaskStep.edited ⟨rfl, rfl, rfl⟩
  constructor <;> intro task <;> rfl

theorem answerDelegation_steps {answer : DelegationStatus} {action : String}
    (applies : answerDelegation around doc task senderPeerId answer action = .ok applied) :
    Steps runtime around doc applied := by
  simp only [answerDelegation, bind_eq_ok, pure_eq_ok] at applies
  obtain ⟨delegation, -, -, -, rfl⟩ := applies
  apply steps_saveProject
  apply TaskStep.edited ⟨rfl, rfl, rfl⟩
  constructor <;> intro task <;> rfl

theorem submitCompletionProof_steps (found : findTask doc task.id = some task)
    (applies : submitCompletionProof runtime around doc task senderPeerId payload projectId =
      .ok applied) : Steps runtime around doc applied := by
  simp only [submitCompletionProof, bind_eq_ok, pure_eq_ok] at applies
  obtain ⟨-, -, -, -, proof, -, -, -, ⟨⟩, guarded, rfl⟩ := applies
  exact steps_saveProject (.restatused found guarded)

theorem setDependencies_steps (applies : setDependencies around doc task payload = .ok applied) :
    Steps runtime around doc applied := by
  simp only [setDependencies, bind_eq_ok, pure_eq_ok] at applies
  obtain ⟨ids, given, replaced, replaces, rfl⟩ := applies
  exact steps_saveProject (.redirected (dependencyIdsOf_nodup given) replaces)

theorem applyCase_steps {type : MutationType} (found : findTask doc task.id = some task)
    (applies : applyCase runtime around doc task senderPeerId payload projectId type =
      .ok applied) : Steps runtime around doc applied := by
  cases type with
  | createSubtask => exact createSubtask_steps found applies
  | moveTask => exact moveTask_steps applies
  | updateStatus => exact updateStatus_steps found applies
  | logTime => exact logTime_steps applies
  | acceptDelegation | declineDelegation => exact answerDelegation_steps applies
  | submitCompletionProof => exact submitCompletionProof_steps found applies
  | setDependencies => exact setDependencies_steps applies

theorem applyRequestMutation_steps {request : ProjectMutationRequest}
    (applies : applyRequestMutation runtime around projectId senderPeerId request (.ok (some doc)) =
      .ok applied) : Steps runtime around doc applied := by
  simp only [applyRequestMutation, bind_eq_ok] at applies
  obtain ⟨-, -, type, -, taskId, -, read, isDoc, -, -, -, -, task, required, applies⟩ := applies
  cases requireProject_ok isDoc
  have found := requireTask_ok required
  have sameId := (findTask_some found).2
  exact applyCase_steps (sameId.symm ▸ found) applies

end

theorem Mutation.apply_steps {mutation : Mutation} {runtime : Runtime} {around : Surroundings}
    {projectId : String} {doc : Project} {applied : Applied}
    (applies : mutation.apply runtime around projectId (.ok (some doc)) = .ok applied) :
    Steps runtime around doc applied := by
  cases mutation with
  | addTask => exact rawAddTask_steps applies
  | updateTask => exact rawUpdateTask_steps applies
  | setDependency => exact rawSetDependency_steps applies
  | setDependencies => exact rawSetDependencies_steps applies
  | delegateTask => exact rawDelegateTask_steps applies
  | assignResource => exact rawAssignResource_steps applies
  | addMember => exact rawAddMember_steps applies
  | updateBudget => exact rawUpdateBudget_steps applies
  | attachNote => exact rawAttachNote_steps applies
  | request => exact applyRequestMutation_steps applies

end P2PHub.SmartTasks
