import P2PHub.ProjectGuards

/-!
# Edits of tasks

The runs of a project with all their mutations, and what one mutation may do to
a task: which fields it writes, and what it has checked before.
-/

namespace P2PHub.SmartTasks

/-- The runs of a project: its document, and the mutations so far, each with the
document that it found, the last one first. -/
inductive Chronicle (runtime : Runtime) : List (Project × Turn) → Project → Prop
  | created {around : Surroundings} {ownerPeerId : String} {name budgetCents : Value}
      {doc : Project} (creates : createProject around ownerPeerId name budgetCents = .ok doc) :
      Chronicle runtime [] doc
  | taken {steps : List (Project × Turn)} {doc after : Project} {turn : Turn}
      {result : Except String Applied} (run : Chronicle runtime steps doc)
      (fresh : turn.around.freshId ∉ doc.objectIds)
      (takes : turn.take runtime doc.id (some doc) = (some after, result)) :
      Chronicle runtime ((doc, turn) :: steps) after

def Stored (runtime : Runtime) (step : Project × Turn) : Prop :=
  step.2.stores runtime step.1.id (some step.1) = true

structure ProjectMutationRequest.Asks (body : ProjectMutationRequest) (type : MutationType)
    (taskId : String) : Prop where
  type : mutationTypeOf body.type = .ok type
  taskId : body.taskId = .string taskId

/-- A request names a new task, and gives a status where it changes one. -/
structure ProjectMutationRequest.Complete (body : ProjectMutationRequest) : Prop where
  name : mutationTypeOf body.type = .ok .createSubtask →
    ∃ name, body.payload.fields.name = .string name
  status : mutationTypeOf body.type = .ok .updateStatus → body.payload.fields.status ≠ .undefined

def Mutation.Complete : Mutation → Prop
  | request _ body => body.Complete
  | _ => True

def TaskCompletionProof.Verifies (runtime : Runtime) (projectId taskId : String)
    (proof : TaskCompletionProof) : Prop :=
  runtime.verify proof.signedBy completionProofDomainPrefix
    (taskId ++ ":" ++ projectId ++ ":" ++ proof.timestamp) proof.signatureHex = true

/-- What a mutation may make of a task. -/
inductive TaskEdit (runtime : Runtime) (projectId : String) (mutation : Mutation) (task : Task) :
    Task → Prop
  | kept {parentTaskId : Option String} {predecessors : List Predecessor}
      {dependencies : Option (List String)} {resourceAssignments : List String} :
      TaskEdit runtime projectId mutation task
        { task with parentTaskId, predecessors, dependencies, resourceAssignments }
  | patched {fields : PatchInput} {patch : Patch} {parentTaskId : Option String}
      (valid : validatePatch runtime fields = .ok patch)
      (ordered : assertChronology runtime (patch.apply task).start (patch.apply task).finish =
        .ok ()) :
      TaskEdit runtime projectId mutation task { patch.apply task with parentTaskId }
  | restatused {status : Option TaskStatus} (given : mutation.Complete → status ≠ none) :
      TaskEdit runtime projectId mutation task { task with status }
  | logged {entry : TimeEntry} {startTime finishTime : Int}
      (start : runtime.parseDate entry.start = some startTime)
      (finish : runtime.parseDate entry.finish = some finishTime)
      (ordered : startTime ≤ finishTime) :
      TaskEdit runtime projectId mutation task
        { task with timeEntries := task.timeEntries ++ [entry] }
  | delegated {peerId : String} (delegates : mutation = .delegateTask task.id peerId) :
      TaskEdit runtime projectId mutation task
        { task with delegation := some { assignedTo := peerId, status := .pending } }
  | answered {peerId : String} {body : ProjectMutationRequest} {type : MutationType}
      {answer : DelegationStatus} (requests : mutation = .request peerId body)
      (asks : body.Asks type task.id)
      (answers : type = .acceptDelegation ∧ answer = .accepted ∨
        type = .declineDelegation ∧ answer = .declined)
      (pending : task.delegation = some { assignedTo := peerId, status := .pending }) :
      TaskEdit runtime projectId mutation task
        { task with delegation := some { assignedTo := peerId, status := answer } }
  | proven {body : ProjectMutationRequest} {proof : TaskCompletionProof}
      (requests : mutation = .request proof.signedBy body)
      (asks : body.Asks .submitCompletionProof task.id)
      (accepted : task.delegation = some { assignedTo := proof.signedBy, status := .accepted })
      (verifies : proof.Verifies runtime projectId task.id) :
      TaskEdit runtime projectId mutation task
        { task with status := some .done, completionProof := some proof }
  | closed {edited : Task} (edit : TaskEdit runtime projectId mutation task edited) :
      TaskEdit runtime projectId mutation task { edited with status := some .done }

def Added (runtime : Runtime) (freshId : String) (mutation : Mutation) (task : Task) : Prop :=
  ∃ fields patch parent, validatePatch runtime fields = .ok patch ∧
    assertChronology runtime patch.start patch.finish = .ok () ∧
    (mutation.Complete → patch.name ≠ none) ∧ task = patch.newTask freshId parent

def Edits (runtime : Runtime) (projectId : String) (mutation : Mutation)
    (tasks after : List Task) : Prop :=
  ∀ task ∈ after, ∃ before ∈ tasks, TaskEdit runtime projectId mutation before task

def Turns (runtime : Runtime) (projectId freshId : String) (mutation : Mutation)
    (tasks after : List Task) : Prop :=
  ∀ task ∈ after, Added runtime freshId mutation task ∨
    ∃ before ∈ tasks, TaskEdit runtime projectId mutation before task

section

variable {runtime : Runtime} {projectId freshId taskId : String} {mutation : Mutation}
  {doc base : Project} {change : Task → Task} {status : Option TaskStatus}

theorem Edits.turns {tasks after : List Task}
    (edits : Edits runtime projectId mutation tasks after) :
    Turns runtime projectId freshId mutation tasks after :=
  fun task member => .inr (edits task member)

theorem edits_refl (tasks : List Task) : Edits runtime projectId mutation tasks tasks :=
  fun task member => ⟨task, member, .kept⟩

theorem edits_modifyTask (same : base.tasks = doc.tasks)
    (edit : ∀ task ∈ doc.tasks, task.id = taskId →
      TaskEdit runtime projectId mutation task (change task)) :
    Edits runtime projectId mutation doc.tasks (base.modifyTask taskId change).tasks := by
  intro task member
  obtain ⟨before, present, rfl⟩ := List.mem_map.mp member
  rw [same] at present
  refine ⟨before, present, ?_⟩
  split
  · next isTask => exact edit before present isTask
  · exact .kept

theorem edits_closeSubtree {tasks : List Task}
    (edits : Edits runtime projectId mutation tasks base.tasks) :
    Edits runtime projectId mutation tasks (closeSubtree base taskId status).tasks := by
  unfold closeSubtree
  split
  · obtain ⟨closed, same, -⟩ := cascadeDone_spec base taskId
    rw [same]
    intro task member
    obtain ⟨edited, present, rfl⟩ := List.mem_map.mp member
    obtain ⟨before, isBefore, edit⟩ := edits edited present
    refine ⟨before, isBefore, ?_⟩
    split
    · exact .closed edit
    · exact edit
  · exact edits

theorem turns_added {fields : PatchInput} {patch : Patch} {parent : Option String}
    (valid : validatePatch runtime fields = .ok patch)
    (ordered : assertChronology runtime patch.start patch.finish = .ok ())
    (named : mutation.Complete → patch.name ≠ none) :
    Turns runtime projectId freshId mutation doc.tasks
      (doc.tasks ++ [patch.newTask freshId parent]) := by
  intro task member
  rcases List.mem_append.mp member with old | new
  · exact .inr ⟨task, old, .kept⟩
  · exact .inl ⟨fields, patch, parent, valid, ordered, named, List.mem_singleton.mp new⟩

end

section

variable {runtime : Runtime} {around : Surroundings} {projectId : String} {doc : Project}
  {applied : Applied} {taskId : String}

theorem validatePatch_named {fields : PatchInput} {patch : Patch} {name : String}
    (valid : validatePatch runtime fields = .ok patch) (given : fields.name = .string name) :
    patch.name ≠ none := by
  simp only [validatePatch, bind_eq_ok, pure_eq_ok] at valid
  obtain ⟨named, accepted, -, -, -, -, -, -, -, -, -, -, -, -, rfl⟩ := valid
  rw [given] at accepted
  simp only [patchName] at accepted
  split at accepted
  · cases accepted
  · rw [← Except.ok.inj accepted]
    exact Option.some_ne_none _

theorem rawAddTask_turns {input : AddTaskInput}
    (applies : rawAddTask runtime around projectId input (.ok (some doc)) = .ok applied) :
    Turns runtime projectId around.freshId (.addTask input) doc.tasks applied.doc.tasks := by
  simp only [rawAddTask, bind_eq_ok, pure_eq_ok, ensure_eq_ok] at applies
  obtain ⟨-, isNamed, patch, valid, ⟨⟩, ordered, read, isDoc, parent, -, rfl⟩ := applies
  cases requireProject_ok isDoc
  refine turns_added valid ordered fun _ => ?_
  cases given : input.fields.name with
  | string => exact validatePatch_named valid given
  | _ =>
    rw [given] at isNamed
    cases isNamed

theorem moveUpdated_edit {task : Task} {patch : Patch} {value : Value}
    {moved : Project × Task} (sameId : task.id = taskId)
    (moves : moveUpdated runtime (doc.modifyTask taskId patch.apply) (patch.apply task) value =
      .ok moved) : ∃ parent : Task → Option String, moved.1 = doc.modifyTask taskId (fun task =>
        { patch.apply task with parentTaskId := parent task }) ∧
      moved.2 = { patch.apply task with parentTaskId := parent task } := by
  rcases moveUpdated_ok moves with rfl | ⟨_, _, newParent, -, rfl⟩
  · exact ⟨Task.parentTaskId, rfl, rfl⟩
  · have isTask : (patch.apply task).id = taskId := sameId
    have keepsId : ∀ task, (patch.apply task).id = task.id := fun _ => rfl
    refine ⟨fun _ => newParent, ?_, rfl⟩
    rw [isTask, modifyTask_modifyTask keepsId]
    rfl

theorem rawUpdateTask_edits {input : UpdateTaskInput} (distinct : (doc.tasks.map Task.id).Nodup)
    (applies : rawUpdateTask runtime around projectId input (.ok (some doc)) = .ok applied) :
    Edits runtime projectId (.updateTask input) doc.tasks applied.doc.tasks := by
  simp only [rawUpdateTask, bind_eq_ok, pure_eq_ok] at applies
  obtain ⟨read, isDoc, task, required, patch, valid, moved, moves, ⟨⟩, ordered, -, -, rfl⟩ :=
    applies
  cases requireProject_ok isDoc
  have found := requireTask_ok required
  obtain ⟨parent, written, edited⟩ := moveUpdated_edit (findTask_some found).2 moves
  rw [edited] at ordered
  apply edits_closeSubtree
  rw [written]
  apply edits_modifyTask rfl
  intro before member isTask
  have same := findTask_of_mem distinct member
  rw [isTask, found] at same
  cases same
  exact .patched valid ordered

theorem rawSetDependency_edits {input : SetDependencyInput}
    (applies : rawSetDependency around projectId input (.ok (some doc)) = .ok applied) :
    Edits runtime projectId (.setDependency input) doc.tasks applied.doc.tasks := by
  simp only [rawSetDependency, bind_eq_ok, pure_eq_ok] at applies
  obtain ⟨-, -, -, -, read, isDoc, -, -, -, -, predecessors, -, rfl⟩ := applies
  cases requireProject_ok isDoc
  exact edits_modifyTask rfl fun _ _ _ => .kept

theorem replaceDependencies_edits {operation : String} {mutation : Mutation}
    {ids : List String} {replaced : Project}
    (replaces : replaceDependencies operation doc taskId ids = .ok replaced) :
    Edits runtime projectId mutation doc.tasks replaced.tasks := by
  obtain ⟨-, -, rfl⟩ := replaceDependencies_ok replaces
  exact edits_modifyTask rfl fun _ _ _ => .kept

theorem rawSetDependencies_edits {dependencyIds : Value}
    (applies : rawSetDependencies around projectId taskId dependencyIds (.ok (some doc)) =
      .ok applied) : Edits runtime projectId (.setDependencies taskId dependencyIds) doc.tasks
      applied.doc.tasks := by
  simp only [rawSetDependencies, bind_eq_ok, pure_eq_ok] at applies
  obtain ⟨ids, -, read, isDoc, -, -, replaced, replaces, rfl⟩ := applies
  cases requireProject_ok isDoc
  apply replaceDependencies_edits replaces

theorem rawDelegateTask_edits {peerId : String}
    (applies : rawDelegateTask around projectId taskId peerId (.ok (some doc)) = .ok applied) :
    Edits runtime projectId (.delegateTask taskId peerId) doc.tasks applied.doc.tasks := by
  simp only [rawDelegateTask, bind_eq_ok, pure_eq_ok] at applies
  obtain ⟨-, -, read, isDoc, -, -, rfl⟩ := applies
  cases requireProject_ok isDoc
  apply edits_modifyTask (sameTasks_addMemberToList doc peerId).tasks
  intro task _ isTask
  exact .delegated (isTask ▸ rfl)

theorem sameTasks_import (doc : Project) (id peerId : String) :
    SameTasks doc { doc with contacts := doc.contacts ++ [⟨id, peerId⟩] } :=
  ⟨rfl, rfl, rfl⟩

theorem rawAssignResource_edits {contactPeerId : String}
    (applies : rawAssignResource around projectId taskId contactPeerId (.ok (some doc)) =
      .ok applied) : Edits runtime projectId (.assignResource taskId contactPeerId) doc.tasks
      applied.doc.tasks := by
  simp only [rawAssignResource, bind_eq_ok, pure_eq_ok] at applies
  obtain ⟨read, isDoc, -, -, -, -, -, -, rfl⟩ := applies
  cases requireProject_ok isDoc
  exact edits_modifyTask (sameTasks_import doc around.freshId contactPeerId).tasks
    fun _ _ _ => .kept

end

section

variable {runtime : Runtime} {around : Surroundings} {projectId senderPeerId : String}
  {doc : Project} {task : Task} {body : ProjectMutationRequest} {applied : Applied}
  {type : MutationType}

theorem createSubtask_turns (asks : body.Asks .createSubtask task.id)
    (applies : createSubtask runtime around doc task body.payload = .ok applied) :
    Turns runtime projectId around.freshId (.request senderPeerId body) doc.tasks
      applied.doc.tasks := by
  simp only [createSubtask, bind_eq_ok, pure_eq_ok] at applies
  obtain ⟨patch, valid, ⟨⟩, ordered, rfl⟩ := applies
  refine turns_added valid ordered fun complete => ?_
  obtain ⟨name, given⟩ := complete.name asks.type
  exact validatePatch_named valid given

theorem updateStatus_edits (asks : body.Asks .updateStatus task.id)
    (applies : updateStatus runtime around doc task body.payload = .ok applied) :
    Edits runtime projectId (.request senderPeerId body) doc.tasks applied.doc.tasks := by
  simp only [updateStatus, bind_eq_ok, pure_eq_ok] at applies
  obtain ⟨patch, valid, ⟨⟩, -, rfl⟩ := applies
  apply edits_closeSubtree
  refine edits_modifyTask rfl fun _ _ _ => .restatused fun complete => ?_
  have given := complete.status asks.type
  simp only [validatePatch, bind_eq_ok, pure_eq_ok] at valid
  obtain ⟨-, -, status, accepted, -, -, -, -, -, -, -, -, -, -, rfl⟩ := valid
  cases isStatus : body.payload.fields.status with
  | undefined => exact absurd isStatus given
  | string =>
    rw [isStatus] at accepted
    simp only [patchStatus] at accepted
    split at accepted
    · rw [← Except.ok.inj accepted]
      exact Option.some_ne_none _
    · cases accepted
  | _ =>
    rw [isStatus] at accepted
    cases accepted

theorem textOf_ok {message : String} {accepts : String → Bool} {value : Value} {text : String}
    (given : textOf message accepts value = .ok text) : value = .string text ∧ accepts text =
    true := by
  cases value with
  | string =>
    simp only [textOf] at given
    split at given
    · next accepted => exact Except.ok.inj given ▸ ⟨rfl, accepted⟩
    · cases given
  | _ => cases given

theorem logTime_edits
    (applies : logTime runtime around doc task senderPeerId body.payload = .ok applied) :
    Edits runtime projectId (.request senderPeerId body) doc.tasks applied.doc.tasks := by
  simp only [logTime, bind_eq_ok, pure_eq_ok, ensure_eq_ok] at applies
  obtain ⟨start, isStart, finish, isFinish, ⟨⟩, ordered, rfl⟩ := applies
  obtain ⟨startTime, startParses⟩ := Option.isSome_iff_exists.mp (textOf_ok isStart).2
  obtain ⟨finishTime, finishParses⟩ := Option.isSome_iff_exists.mp (textOf_ok isFinish).2
  refine edits_modifyTask rfl fun _ _ _ => .logged startParses finishParses ?_
  simpa [logTime.isBefore, startParses, finishParses] using ordered

theorem delegateeOf_ok {delegation : TaskDelegation}
    (accepted : delegateeOf task senderPeerId = .ok delegation) :
    task.delegation = some delegation ∧ delegation.assignedTo = senderPeerId := by
  unfold delegateeOf at accepted
  split at accepted
  · next given found =>
      split at accepted
      · next same => exact Except.ok.inj accepted ▸ ⟨found, same⟩
      · cases accepted
  · cases accepted

section

variable (distinct : (doc.tasks.map Task.id).Nodup) (found : findTask doc task.id = some task)
include distinct found

theorem edits_found {change : Task → Task} {mutation : Mutation}
    (edit : TaskEdit runtime projectId mutation task (change task)) :
    Edits runtime projectId mutation doc.tasks (doc.modifyTask task.id change).tasks := by
  apply edits_modifyTask rfl
  intro before member isTask
  have same := findTask_of_mem distinct member
  rw [isTask, found] at same
  exact Option.some.inj same ▸ edit

theorem answerDelegation_edits {answer : DelegationStatus} {action : String}
    (asks : body.Asks type task.id) (answers : type = .acceptDelegation ∧ answer = .accepted ∨
      type = .declineDelegation ∧ answer = .declined)
    (applies : answerDelegation around doc task senderPeerId answer action = .ok applied) :
    Edits runtime projectId (.request senderPeerId body) doc.tasks applied.doc.tasks := by
  simp only [answerDelegation, bind_eq_ok, pure_eq_ok, ensure_eq_ok, decide_eq_true_eq] at applies
  obtain ⟨⟨assignedTo, status⟩, isDelegatee, ⟨⟩, pending, rfl⟩ := applies
  obtain ⟨isDelegation, rfl⟩ := delegateeOf_ok isDelegatee
  obtain rfl : status = .pending := pending
  exact edits_found distinct found (.answered rfl asks answers isDelegation)

end

theorem proofOf_signedBy {value : Value} {proof : TaskCompletionProof}
    (accepted : proofOf runtime senderPeerId value = .ok proof) : proof.signedBy = senderPeerId :=
    by
  cases value with
  | object =>
    simp only [proofOf, bind_eq_ok, pure_eq_ok] at accepted
    obtain ⟨signedBy, given, timestamp, -, signatureHex, -, rfl⟩ := accepted
    exact of_decide_eq_true (textOf_ok given).2
  | _ => cases accepted

section

variable (distinct : (doc.tasks.map Task.id).Nodup) (found : findTask doc task.id = some task)
include distinct found

theorem submitCompletionProof_edits (asks : body.Asks .submitCompletionProof task.id)
    (applies : submitCompletionProof runtime around doc task senderPeerId body.payload projectId =
      .ok applied) :
    Edits runtime projectId (.request senderPeerId body) doc.tasks applied.doc.tasks := by
  simp only [submitCompletionProof, bind_eq_ok, pure_eq_ok, ensure_eq_ok, decide_eq_true_eq]
    at applies
  obtain ⟨⟨assignedTo, status⟩, isDelegatee, ⟨⟩, accepted, proof, given, ⟨⟩, verified, -, -, rfl⟩ :=
    applies
  obtain ⟨isDelegation, rfl⟩ := delegateeOf_ok isDelegatee
  obtain rfl : status = .accepted := accepted
  obtain rfl := proofOf_signedBy given
  exact edits_closeSubtree (edits_found distinct found (.proven rfl asks isDelegation verified))

theorem applyCase_turns (asks : body.Asks type task.id)
    (applies : applyCase runtime around doc task senderPeerId body.payload projectId type =
      .ok applied) : Turns runtime projectId around.freshId (.request senderPeerId body) doc.tasks
      applied.doc.tasks := by
  cases type with
  | createSubtask => exact createSubtask_turns asks applies
  | moveTask =>
    simp only [applyCase, moveTask, bind_eq_ok, pure_eq_ok] at applies
    obtain ⟨newParent, -, rfl⟩ := applies
    exact (edits_modifyTask rfl fun _ _ _ => .kept).turns
  | updateStatus => exact (updateStatus_edits asks applies).turns
  | logTime => exact (logTime_edits applies).turns
  | acceptDelegation =>
    exact (answerDelegation_edits distinct found asks (.inl ⟨rfl, rfl⟩) applies).turns
  | declineDelegation =>
    exact (answerDelegation_edits distinct found asks (.inr ⟨rfl, rfl⟩) applies).turns
  | submitCompletionProof => exact (submitCompletionProof_edits distinct found asks applies).turns
  | setDependencies =>
    simp only [applyCase, setDependencies, bind_eq_ok, pure_eq_ok] at applies
    obtain ⟨ids, -, replaced, replaces, rfl⟩ := applies
    exact (replaceDependencies_edits replaces).turns

end

theorem applyRequestMutation_case
    (applies : applyRequestMutation runtime around projectId senderPeerId body (.ok (some doc)) =
      .ok applied) : ∃ type task, body.Asks type task.id ∧ findTask doc task.id = some task ∧
      applyCase runtime around doc task senderPeerId body.payload projectId type = .ok applied := by
  simp only [applyRequestMutation, bind_eq_ok] at applies
  obtain ⟨-, -, type, isType, taskId, isTaskId, read, isDoc, -, -, -, -, task, required, applies⟩ :=
    applies
  cases requireProject_ok isDoc
  have found := requireTask_ok required
  obtain rfl := (findTask_some found).2
  exact ⟨type, task, ⟨isType, (textOf_ok isTaskId).1⟩, found, applies⟩

end

theorem Mutation.apply_turns {mutation : Mutation} {runtime : Runtime} {around : Surroundings}
    {projectId : String} {doc : Project} {applied : Applied}
    (distinct : (doc.tasks.map Task.id).Nodup)
    (applies : mutation.apply runtime around projectId (.ok (some doc)) = .ok applied) :
    Turns runtime projectId around.freshId mutation doc.tasks applied.doc.tasks := by
  cases mutation with
  | addTask => exact rawAddTask_turns applies
  | updateTask => exact (rawUpdateTask_edits distinct applies).turns
  | setDependency => exact (rawSetDependency_edits applies).turns
  | setDependencies => exact (rawSetDependencies_edits applies).turns
  | delegateTask => exact (rawDelegateTask_edits applies).turns
  | assignResource => exact (rawAssignResource_edits applies).turns
  | addMember peerId =>
    simp only [Mutation.apply, rawAddMember, bind_eq_ok, pure_eq_ok] at applies
    obtain ⟨peerId, -, read, isDoc, rfl⟩ := applies
    cases requireProject_ok isDoc
    have same : (addMemberToList doc peerId).tasks = doc.tasks :=
      (sameTasks_addMemberToList doc peerId).tasks
    exact same ▸ (edits_refl _).turns
  | updateBudget =>
    simp only [Mutation.apply, rawUpdateBudget, bind_eq_ok, pure_eq_ok] at applies
    obtain ⟨read, isDoc, -, -, -, -, rfl⟩ := applies
    cases requireProject_ok isDoc
    exact (edits_refl _).turns
  | attachNote =>
    simp only [Mutation.apply, rawAttachNote, bind_eq_ok, pure_eq_ok] at applies
    obtain ⟨-, -, read, isDoc, -, -, rfl⟩ := applies
    cases requireProject_ok isDoc
    exact (edits_refl _).turns
  | request =>
    obtain ⟨type, task, asks, found, applied⟩ := applyRequestMutation_case applies
    exact applyCase_turns distinct found asks applied

variable {runtime : Runtime} {steps : List (Project × Turn)} {doc after : Project} {turn : Turn}
  {result : Except String Applied}

theorem Chronicle.reached (run : Chronicle runtime steps doc) :
    ∃ count, Reached runtime doc count := by
  induction run with
  | created creates => exact ⟨0, .created creates⟩
  | taken _ fresh takes ih =>
    obtain ⟨count, reached⟩ := ih
    exact ⟨_, .taken reached fresh takes⟩

theorem Chronicle.distinct (run : Chronicle runtime steps doc) : (doc.tasks.map Task.id).Nodup := by
  obtain ⟨count, reached⟩ := run.reached
  exact graph_ids doc ▸ reached.sound.1.distinct

/-- A step that is stored has applied its mutation, and another changes nothing. -/
theorem stored_or_unchanged (takes : turn.take runtime doc.id (some doc) = (some after, result)) :
    (¬Stored runtime (doc, turn) ∧ after = doc) ∨ Stored runtime (doc, turn) ∧ ∃ applied,
        turn.mutation.apply runtime turn.around doc.id (.ok (some doc)) = .ok applied ∧
          after = applied.doc := by
  rcases turn.take_cases runtime doc.id (some doc) with
    ⟨kept, message, same⟩ | ⟨stores, applied, outcome, applies, same, -⟩
  · rw [same] at takes
    refine .inl ⟨?_, (Option.some.inj (Prod.mk.inj takes).1).symm⟩
    rw [Stored, kept]
    exact Bool.false_ne_true
  · rw [same] at takes
    exact .inr ⟨stores, applied, Turn.apply_reads applies,
      (Option.some.inj (Prod.mk.inj takes).1).symm⟩

end P2PHub.SmartTasks
