import P2PHub.ProjectGuards

/-!
# Status changes of owners and members

The owner's update writes the status before its guard, the member's request
after it.  The two agree unless the task itself is all that blocks the tasks
below it.
-/

namespace P2PHub.SmartTasks

open WorklistSearch

def ownerUpdate (taskId : String) (status : TaskStatus) : Mutation :=
  .updateTask { taskId, fields := { status := .string status.text } }

/-- A member's request for a status; the payload may have other fields. -/
def memberUpdate (senderPeerId taskId : String) (payload : RequestPayload) (status : TaskStatus) :
    Mutation :=
  .request senderPeerId
    { type := .string "UPDATE_STATUS"
      taskId := .string taskId
      payload := { payload with
        fields := { payload.fields with status := .string status.text } } }

def Project.statuses (doc : Project) : List (String × Option TaskStatus) :=
  doc.tasks.map fun task => (task.id, task.status)

/-- Both succeed or none, and where both do the statuses are the same. -/
def StatusesAgree (owner member : Except String Applied) : Prop :=
  (owner.isOk = true ↔ member.isOk = true) ∧
    ∀ byOwner byMember, owner = .ok byOwner → member = .ok byMember →
      byOwner.doc.statuses = byMember.doc.statuses

def Chronological (runtime : Runtime) (task : Task) : Prop :=
  ∀ start finish, task.start.bind runtime.parseDate = some start →
    task.finish.bind runtime.parseDate = some finish → start ≤ finish

/-- An unfinished task on which a task depends, or for completion one below it. -/
def Blocks (doc : Project) (taskId : String) : TaskStatus → String → Prop
  | .inProgress, id => DependsOn doc.graph taskId id ∧ isDone doc id = false
  | .done, id => ∃ below, Below doc taskId below ∧ DependsOn doc.graph below id ∧
      isDone doc id = false
  | _, _ => False

section

variable {runtime : Runtime} {doc : Project} {taskId : String} {task : Task} {status : TaskStatus}

theorem assertChronology_iff {start finish : Option String} :
    assertChronology runtime start finish = .ok () ↔
      ∀ startTime finishTime, start.bind runtime.parseDate = some startTime →
        finish.bind runtime.parseDate = some finishTime → startTime ≤ finishTime := by
  unfold assertChronology
  split
  · next startTime finishTime isStart isFinish =>
      rw [isStart, isFinish]
      split
      · next late =>
          refine iff_of_false (fun same => nomatch same) fun ordered => ?_
          have inOrder := ordered startTime finishTime rfl rfl
          omega
      · next inOrder =>
          refine iff_of_true rfl fun first last isFirst isLast => ?_
          rw [← Option.some.inj isFirst, ← Option.some.inj isLast]
          omega
  · next missing =>
      refine iff_of_true rfl fun startTime finishTime isStart isFinish => ?_
      exact absurd isFinish (missing startTime finishTime isStart)

theorem unblocked_iff (distinct : (doc.tasks.map Task.id).Nodup) {id : String} :
    Unblocked doc id ↔ ∀ dependency, DependsOn doc.graph id dependency →
      isDone doc dependency := by
  constructor
  · intro unblocked dependency depends
    obtain ⟨task, member, rfl, listed⟩ := dependsOn_iff.mp depends
    exact unblocked_dependencies distinct member unblocked dependency listed
  · intro done task found
    obtain ⟨member, sameId⟩ := findTask_some found
    apply blockingDependencies_eq_nil.mpr
    exact fun id listed => done id (dependsOn_iff.mpr ⟨task, member, sameId, listed⟩)

/-- The guard of a task that stands in the document lets a status pass exactly
when no task blocks it. -/
theorem guardStatus_iff (distinct : (doc.tasks.map Task.id).Nodup)
    (found : findTask doc taskId = some task) :
    guardStatus doc task (some status) = .ok () ↔ ∀ id, ¬Blocks doc taskId status id := by
  obtain ⟨member, sameId⟩ := findTask_some found
  have here : Unblocked doc taskId ↔ blockingDependencies doc task = [] := by
    constructor
    · exact fun unblocked => unblocked task found
    · intro unblocked other isOther
      rwa [← Option.some.inj (found.symm.trans isOther)]
  cases status with
  | todo | blocked => exact iff_of_true rfl fun _ => id
  | inProgress =>
    simp only [guardStatus, assertCanStart_iff, ← here, unblocked_iff distinct, Blocks, not_and,
      Bool.not_eq_false]
  | done =>
    have present : task.id ∈ doc.tasks.map Task.id := List.mem_map_of_mem member
    simp only [guardStatus, assertCanComplete_iff present, sameId, unblocked_iff distinct, Blocks,
      not_exists, not_and, Bool.not_eq_false]
    exact ⟨fun done id below reached => done below reached id, fun done below reached id =>
      done id below reached⟩

/-- Once the status of a task is written, only the task itself may have ceased to
block. -/
theorem blocks_written (sound : SoundGraph doc.graph) (found : findTask doc taskId = some task)
    {change : Task → Task} (restatuses : Restatuses change fun _ => some status)
    (same : (doc.modifyTask taskId change).graph = doc.graph) {id : String} :
    Blocks (doc.modifyTask taskId change) taskId status id ↔
      Blocks doc taskId status id ∧ ¬(status = .done ∧ id = taskId) := by
  have isDone_other {other : String} (apart : other ≠ taskId) :
      isDone (doc.modifyTask taskId change) other = isDone doc other := by
    unfold isDone
    rw [findTask_modifyTask restatuses.id]
    cases isOther : findTask doc other with
    | none => rfl
    | some task =>
      have notTask : task.id ≠ taskId := (findTask_some isOther).2 ▸ apart
      simp [notTask]
  have isDone_self (completes : status = .done) :
      isDone (doc.modifyTask taskId change) taskId := by
    apply isDone_iff.mpr
    rw [findTask_modifyTask restatuses.id, found, Option.map_some, if_pos (findTask_some found).2]
    exact ⟨_, rfl, (restatuses.status task).trans (congrArg some completes)⟩
  cases status with
  | todo | blocked => exact ⟨fun blocks => blocks.elim, fun blocks => blocks.1.elim⟩
  | inProgress =>
    simp only [Blocks, same, reduceCtorEq, false_and, not_false_eq_true, and_true]
    apply and_congr_right
    intro depends
    have apart : id ≠ taskId := by
      rintro rfl
      exact sound.acyclic _ (.single depends)
    rw [isDone_other apart]
  | done =>
    simp only [Blocks, same, true_and]
    constructor
    · rintro ⟨below, reached, depends, unfinished⟩
      have apart : id ≠ taskId := by
        rintro rfl
        rw [isDone_self rfl] at unfinished
        cases unfinished
      rw [isDone_other apart] at unfinished
      exact ⟨⟨below, (below_congr same).mp reached, depends, unfinished⟩, apart⟩
    · rintro ⟨⟨below, reached, depends, unfinished⟩, apart⟩
      rw [← isDone_other apart] at unfinished
      exact ⟨below, (below_congr same).mpr reached, depends, unfinished⟩

end

section

variable {runtime : Runtime} {around : Surroundings} {projectId taskId senderPeerId : String}
  {doc : Project} {task : Task} {status : TaskStatus} {payload : RequestPayload}

def statusPatch (status : TaskStatus) : Patch :=
  { status := some status }

theorem validatePatch_status :
    validatePatch runtime { status := .string status.text } = .ok (statusPatch status) := by
  cases status <;> rfl

def writeStatus (doc : Project) (taskId : String) (status : TaskStatus) : Project :=
  doc.modifyTask taskId fun task => { task with status := some status }

theorem writeStatus_graph : (writeStatus doc taskId status).graph = doc.graph :=
  graph_modifyTask_same fun _ => rfl

theorem ownerUpdate_apply (found : findTask doc taskId = some task) :
    (ownerUpdate taskId status).apply runtime around projectId (.ok (some doc)) =
      (assertChronology runtime task.start task.finish).bind fun _ =>
        (guardStatus (writeStatus doc taskId status) { task with status := some status }
          (some status)).map fun _ =>
            saveProject around
              (closeSubtree (writeStatus doc taskId status) taskId (some status)) "updateTask" := by
  simp only [ownerUpdate, Mutation.apply, rawUpdateTask, requireProject, requireTask, found,
    validatePatch_status, moveUpdated, bind, Except.bind, pure, Except.pure]
  rfl

theorem memberUpdate_apply (found : findTask doc taskId = some task) (named : taskId ≠ "")
    (sender : senderPeerId ≠ "")
    (member : isMember doc senderPeerId) (known : around.trust.isKnown) :
    (memberUpdate senderPeerId taskId payload status).apply runtime around projectId
        (.ok (some doc)) = (guardStatus doc task (some status)).map fun _ =>
        saveProject around
          (closeSubtree (writeStatus doc taskId status) taskId (some status)) "updateStatus" := by
  have sameId : task.id = taskId := (findTask_some found).2
  have type : mutationTypeOf (.string "UPDATE_STATUS") = .ok .updateStatus := rfl
  simp only [memberUpdate, Mutation.apply, applyRequestMutation, type, ensure, sender, ne_eq,
    not_false_eq_true, decide_true, if_true, nonEmptyText, textOf, named, requireProject,
    requireTask, member, known, found, applyCase, updateStatus, validatePatch_status, statusPatch,
    bind, Except.bind, pure, Except.pure, sameId]
  cases guardStatus doc task (some status) <;> rfl

theorem isOk_map {Value Result : Type} {result : Except String Value} {change : Value → Result} :
    (result.map change).isOk = result.isOk := by
  cases result <;> rfl

theorem isOk_unit {result : Except String Unit} : result.isOk ↔ result = .ok () := by
  cases result <;> simp [Except.isOk, Except.toBool]

section

variable (sound : SoundGraph doc.graph) (found : findTask doc taskId = some task)
include sound found

theorem ownerUpdate_isOk :
    ((ownerUpdate taskId status).apply runtime around projectId (.ok (some doc))).isOk ↔
      Chronological runtime task ∧
        ∀ id, Blocks doc taskId status id → status = .done ∧ id = taskId := by
  have distinct : (doc.tasks.map Task.id).Nodup := graph_ids doc ▸ sound.distinct
  have restatuses : Restatuses (fun task => { task with status := some status })
      fun _ => some status := ⟨fun _ => rfl, fun _ => rfl, fun _ => rfl⟩
  have written : findTask (writeStatus doc taskId status) taskId =
      some { task with status := some status } := by
    rw [writeStatus, findTask_modifyTask restatuses.id, found, Option.map_some,
      if_pos (findTask_some found).2]
  have stillDistinct : ((writeStatus doc taskId status).tasks.map Task.id).Nodup := by
    rw [writeStatus, taskIds_modifyTask restatuses]
    exact distinct
  have guarded : guardStatus (writeStatus doc taskId status) { task with status := some status }
      (some status) = .ok () ↔ ∀ id, Blocks doc taskId status id → status = .done ∧ id = taskId :=
        by
    rw [guardStatus_iff stillDistinct written]
    apply forall_congr'
    intro id
    rw [writeStatus, blocks_written sound found restatuses writeStatus_graph, not_and_not_right]
  rw [ownerUpdate_apply found, Chronological, ← assertChronology_iff, ← guarded]
  cases assertChronology runtime task.start task.finish with
  | error => simp [Except.bind, Except.isOk, Except.toBool]
  | ok =>
    simp only [Except.bind, isOk_map, isOk_unit, true_and]

theorem memberUpdate_isOk (named : taskId ≠ "") (sender : senderPeerId ≠ "")
    (member : isMember doc senderPeerId) (known : around.trust.isKnown) :
    ((memberUpdate senderPeerId taskId payload status).apply runtime around projectId
        (.ok (some doc))).isOk ↔ ∀ id, ¬Blocks doc taskId status id := by
  have distinct : (doc.tasks.map Task.id).Nodup := graph_ids doc ▸ sound.distinct
  rw [memberUpdate_apply found named sender member known, isOk_map, isOk_unit,
    guardStatus_iff distinct found]

end

theorem done_of_blocks_self (sound : SoundGraph doc.graph)
    (blocks : Blocks doc taskId status taskId) : status = .done := by
  cases status with
  | inProgress => exact (sound.acyclic taskId (.single blocks.1)).elim
  | done => rfl
  | todo | blocked => exact blocks.elim

end

/-- Owner and member agree on a status exactly when the dates of the task are in
order or something blocks it anyway, and when it is not the case that the owner
completes a task that is all that blocks the tasks below it. -/
theorem statuses_agree_iff {runtime : Runtime} {ownerAround memberAround : Surroundings}
    {projectId taskId senderPeerId : String} {doc : Project} {task : Task} {status : TaskStatus}
    {payload : RequestPayload} (sound : SoundGraph doc.graph)
    (found : findTask doc taskId = some task) (named : taskId ≠ "") (sender : senderPeerId ≠ "")
    (member : isMember doc senderPeerId) (known : memberAround.trust.isKnown) :
    StatusesAgree ((ownerUpdate taskId status).apply runtime ownerAround projectId (.ok (some doc)))
        ((memberUpdate senderPeerId taskId payload status).apply runtime memberAround projectId
          (.ok (some doc))) ↔ (Chronological runtime task ∨ ∃ id, Blocks doc taskId status id) ∧
        ¬(Chronological runtime task ∧ Blocks doc taskId status taskId ∧
          ∀ id, Blocks doc taskId status id → id = taskId) := by
  have sameStatuses : ∀ byOwner byMember,
      (ownerUpdate taskId status).apply runtime ownerAround projectId (.ok (some doc)) =
        .ok byOwner →
      (memberUpdate senderPeerId taskId payload status).apply runtime memberAround projectId
        (.ok (some doc)) = .ok byMember →
      byOwner.doc.statuses = byMember.doc.statuses := by
    intro byOwner byMember isOwner isMember
    rw [ownerUpdate_apply found] at isOwner
    rw [memberUpdate_apply found named sender member known] at isMember
    obtain ⟨-, -, isOwner⟩ := bind_eq_ok.mp isOwner
    obtain ⟨-, -, rfl⟩ := map_eq_ok.mp isOwner
    obtain ⟨-, -, rfl⟩ := map_eq_ok.mp isMember
    rfl
  rw [StatusesAgree, and_iff_left sameStatuses, ownerUpdate_isOk sound found,
    memberUpdate_isOk sound found named sender member known]
  have completes : Blocks doc taskId status taskId → status = .done := done_of_blocks_self sound
  constructor
  · intro agree
    constructor
    · by_cases blocked : ∃ id, Blocks doc taskId status id
      · exact .inr blocked
      · exact .inl (agree.mpr fun id blocks => blocked ⟨id, blocks⟩).1
    · rintro ⟨ordered, itself, only⟩
      exact agree.mp ⟨ordered, fun id blocks => ⟨completes itself, only id blocks⟩⟩ taskId itself
  · rintro ⟨possible, notOnly⟩
    constructor
    · rintro ⟨ordered, only⟩ id blocks
      apply notOnly
      have same : id = taskId := (only id blocks).2
      exact ⟨ordered, same ▸ blocks, fun other blocksToo => (only other blocksToo).2⟩
    · intro unblocked
      refine ⟨?_, fun id blocks => absurd blocks (unblocked id)⟩
      rcases possible with ordered | ⟨id, blocks⟩
      · exact ordered
      · exact absurd blocks (unblocked id)

theorem statuses_agree_iff_pack : StatusesAgree
      ((ownerUpdate "t" .done).apply launchRuntime { freshId := "", now := "" } "p"
        (.ok (some packProject)))
      ((memberUpdate "owner" "t" {} .done).apply launchRuntime { freshId := "", now := "" } "p"
        (.ok (some packProject))) := by
  obtain ⟨count, reached⟩ := packProject_reached
  have unblocked (id : String) : ¬Blocks packProject "t" .done id := by
    rintro ⟨below, -, depends, -⟩
    obtain ⟨task, member, -, listed⟩ := dependsOn_iff.mp depends
    rw [List.mem_singleton.mp member] at listed
    cases listed
  refine (statuses_agree_iff reached.sound.1 rfl (by decide) (by decide) (by decide) rfl).mpr
    ⟨.inl ?_, fun itself => unblocked "t" itself.2.1⟩
  exact fun start finish isStart _ => nomatch isStart

def tripTask (id name : String) (parentTaskId : Option String) (dependencies : List String) :
    Task :=
  { packTask .todo with
    id
    name := some name
    parentTaskId
    dependencies := some dependencies
    predecessors := dependencies.map fun id => ⟨id, .FS, .ofInt 0⟩ }

def tripProject (tasks : List Task) (mutationSeq : Nat) : Project :=
  { launchProject with updatedAt := "", tasks, mutationSeq }

theorem tripProject_reached : ∃ count, Reached launchRuntime
    (tripProject [tripTask "a" "Trip" none [], tripTask "b" "Pack" (some "a") ["a"]] 3) count := by
  let trip : Turn :=
    { mutation := .addTask { fields := { name := .string "Trip" } }
      around := { freshId := "a", now := "" } }
  let pack : Turn :=
    { mutation := .addTask { fields := { name := .string "Pack" }, parentTaskId := .string "a" }
      around := { freshId := "b", now := "" } }
  let wait : Turn :=
    { mutation := .setDependencies "b" (.array [.string "a"])
      around := { freshId := "", now := "" } }
  have tripTakes : trip.take launchRuntime "p" (some launchProject) =
      (some (tripProject [tripTask "a" "Trip" none []] 1),
        .ok ⟨tripProject [tripTask "a" "Trip" none []] 1, "addTask"⟩) := by
    decide +kernel
  have packTakes : pack.take launchRuntime "p" (some (tripProject [tripTask "a" "Trip" none []] 1)) =
      (some (tripProject [tripTask "a" "Trip" none [], tripTask "b" "Pack" (some "a") []] 2),
        .ok ⟨tripProject [tripTask "a" "Trip" none [], tripTask "b" "Pack" (some "a") []] 2,
          "addTask"⟩) := by
    decide +kernel
  have waitTakes : wait.take launchRuntime "p"
      (some (tripProject [tripTask "a" "Trip" none [], tripTask "b" "Pack" (some "a") []] 2)) =
      (some (tripProject [tripTask "a" "Trip" none [], tripTask "b" "Pack" (some "a") ["a"]] 3),
        .ok ⟨tripProject [tripTask "a" "Trip" none [], tripTask "b" "Pack" (some "a") ["a"]] 3,
          "setDependencies"⟩) := by
    decide +kernel
  exact ⟨_, .taken (.taken (.taken launchProject_reached (by decide) tripTakes) (by decide)
    packTakes) (by decide) waitTakes⟩

/-- The owner may complete the trip, a member may not. -/
theorem statuses_disagree : ¬∀ (runtime : Runtime) (ownerAround memberAround : Surroundings)
      (projectId taskId senderPeerId : String) (doc : Project) (task : Task) (status : TaskStatus)
      (payload : RequestPayload), SoundGraph doc.graph → findTask doc taskId = some task →
      taskId ≠ "" → senderPeerId ≠ "" → isMember doc senderPeerId →
      memberAround.trust.isKnown → StatusesAgree
        ((ownerUpdate taskId status).apply runtime ownerAround projectId (.ok (some doc)))
        ((memberUpdate senderPeerId taskId payload status).apply runtime memberAround projectId
          (.ok (some doc))) := by
  intro agree
  obtain ⟨count, reached⟩ := tripProject_reached
  have both := (agree launchRuntime { freshId := "", now := "" } { freshId := "", now := "" } "p"
    "a" "owner" _ _ .done {} reached.sound.1 rfl (by decide) (by decide) (by decide) rfl).1
  revert both
  decide +kernel

end P2PHub.SmartTasks
