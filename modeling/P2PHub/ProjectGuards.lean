import P2PHub.ProjectHistories

/-!
# The dependency guard

A task that a mutation starts or completes has all its dependencies done, on
each of the paths that write a status and below a task that is completed.
-/

namespace P2PHub.SmartTasks

open WorklistSearch

section

variable {doc : Project} {id taskId : String} {change : Task → Task}

def Project.mapTasks (doc : Project) (change : Task → Task) : Project :=
  { doc with tasks := doc.tasks.map change }

theorem findTask_mapTasks (ids : ∀ task, (change task).id = task.id) :
    findTask (doc.mapTasks change) id = (findTask doc id).map change := by
  unfold findTask Project.mapTasks
  rw [List.find?_map]
  congr 2
  funext task
  simp only [Function.comp_apply, ids]

theorem findTask_modifyTask (ids : ∀ task, (change task).id = task.id) :
    findTask (doc.modifyTask taskId change) id =
      (findTask doc id).map fun task => if task.id = taskId then change task else task := by
  apply findTask_mapTasks
  intro task
  split
  · exact ids task
  · rfl

theorem findTask_closeBelow (closed : List String) :
    findTask (doc.closeBelow closed) id = (findTask doc id).map fun task =>
      if task.parentTaskId.any (· ∈ closed) then { task with status := some .done } else task := by
  apply findTask_mapTasks
  intro task
  split <;> rfl

theorem isDone_iff :
    isDone doc id ↔ ∃ task, findTask doc id = some task ∧ task.status = some .done := by
  unfold isDone
  cases findTask doc id <;> simp

theorem isDone_closeBelow (closed : List String) (done : isDone doc id) :
    isDone (doc.closeBelow closed) id := by
  obtain ⟨task, found, isDone⟩ := isDone_iff.mp done
  apply isDone_iff.mpr
  rw [findTask_closeBelow, found]
  refine ⟨_, rfl, ?_⟩
  dsimp only
  split
  · rfl
  · exact isDone

theorem childIds_congr {base : Project} (same : base.graph = doc.graph) (parent : String) :
    id ∈ childIds base parent ↔ id ∈ childIds doc parent := by
  rw [mem_childIds, mem_childIds, same]

theorem below_congr {base : Project} (same : base.graph = doc.graph) :
    Below base taskId id ↔ Below doc taskId id := by
  have children (parent child : String) :
      child ∈ childIds base parent ↔ child ∈ childIds doc parent := childIds_congr same parent
  constructor <;> intro below
  · exact Relation.ReflTransGen.mono (fun parent child => (children parent child).mp) _ _ below
  · exact Relation.ReflTransGen.mono (fun parent child => (children parent child).mpr) _ _ below

end

/-- The tasks that `after` has newly in progress or done have their dependencies
done in it. -/
def Guarded (before after : Project) : Prop :=
  ∀ task ∈ after.tasks, task.status = some .inProgress ∨ task.status = some .done →
    (∀ old, findTask before task.id = some old → old.status ≠ task.status) →
    ∀ id ∈ dependenciesOf task, isDone after id = true

section

variable {doc edited : Project} {change : Task → Task}

/-- A task that `before` has at the same status. -/
def Kept (before : Project) (task : Task) : Prop :=
  ∃ old, findTask before task.id = some old ∧ old.status = task.status

theorem kept_of_mem (distinct : (doc.tasks.map Task.id).Nodup) {old task : Task}
    (member : old ∈ doc.tasks) (sameId : task.id = old.id) (status : old.status = task.status) :
    Kept doc task :=
  ⟨old, sameId ▸ findTask_of_mem distinct member, status⟩

theorem guarded_of_kept (kept : ∀ task ∈ edited.tasks, Kept doc task ∨ dependenciesOf task = []) :
    Guarded doc edited := by
  intro task member _ changed id listed
  rcases kept task member with ⟨old, found, same⟩ | independent
  · exact absurd same (changed old found)
  · rw [independent] at listed
    cases listed

theorem kept_modifyTask (distinct : (doc.tasks.map Task.id).Nodup) {taskId : String}
    (keeps : ∀ task, (change task).id = task.id ∧ (change task).status = task.status) :
    ∀ task ∈ (doc.modifyTask taskId change).tasks, Kept doc task := by
  intro task member
  obtain ⟨old, present, rfl⟩ := List.mem_map.mp member
  split
  · exact kept_of_mem distinct present (keeps old).1 (keeps old).2.symm
  · exact kept_of_mem distinct present rfl rfl

theorem guarded_modifyTask (distinct : (doc.tasks.map Task.id).Nodup) {taskId : String}
    (keeps : ∀ task, (change task).id = task.id ∧ (change task).status = task.status) :
    Guarded doc (doc.modifyTask taskId change) := by
  apply guarded_of_kept
  intro task member
  exact .inl (kept_modifyTask distinct keeps task member)

end

section

variable {doc written : Project} {taskId : String} {task : Task} {change : Task → Task}
  {status : Task → Option TaskStatus}

/-- A status is written to one task, which is then guarded where it stands. -/
structure StatusWrite (doc written : Project) (taskId : String) (status : Option TaskStatus) :
    Prop where
  distinct : (written.tasks.map Task.id).Nodup
  others : ∀ task ∈ written.tasks, task.id = taskId ∨ Kept doc task
  started : status = some .inProgress → Unblocked written taskId
  completed : status = some .done → ∀ id, Below written taskId id → Unblocked written id
  settled : status ≠ some .inProgress → status ≠ some .done →
    ∀ task ∈ written.tasks, task.id = taskId →
      Kept doc task ∨ (task.status ≠ some .inProgress ∧ task.status ≠ some .done)

theorem unblocked_dependencies (distinct : (written.tasks.map Task.id).Nodup)
    (member : task ∈ written.tasks) (unblocked : Unblocked written task.id) :
    ∀ id ∈ dependenciesOf task, isDone written id :=
  blockingDependencies_eq_nil.mp (unblocked task (findTask_of_mem distinct member))

theorem guarded_of_started (write : StatusWrite doc written taskId (some .inProgress)) :
    Guarded doc written := by
  intro task member _ changed
  rcases write.others task member with rfl | ⟨old, found, same⟩
  · exact unblocked_dependencies write.distinct member (write.started rfl)
  · exact absurd same (changed old found)

theorem guarded_of_completed (write : StatusWrite doc written taskId (some .done)) :
    Guarded doc (cascadeDone written taskId) := by
  obtain ⟨closed, cascaded, below⟩ := cascadeDone_spec written taskId
  rw [cascaded]
  intro task member _ changed id listed
  obtain ⟨before, present, rfl⟩ := List.mem_map.mp member
  apply isDone_closeBelow
  have unblocked (reached : Below written taskId before.id) :
      ∀ id ∈ dependenciesOf before, isDone written id :=
    unblocked_dependencies write.distinct present (write.completed rfl _ reached)
  split at listed
  · next isClosed =>
      -- The task is a child of a task that is closed.
      obtain ⟨parent, isParent, known⟩ : ∃ parent, before.parentTaskId = some parent ∧
          parent ∈ closed := by
        cases parent : before.parentTaskId with
        | none => simp [parent] at isClosed
        | some above => exact ⟨above, rfl, by simpa [parent] using isClosed⟩
      have child : before.id ∈ childIds written parent :=
        mem_childIds.mpr ⟨before.node, List.mem_map_of_mem present, rfl, isParent⟩
      exact unblocked (((below parent).mp known).tail child) id listed
  · next open_ =>
      rw [if_neg open_] at changed
      rcases write.others before present with rfl | ⟨old, found, same⟩
      · exact unblocked .refl id listed
      · exact absurd same (changed old found)

theorem StatusWrite.guarded {status : Option TaskStatus}
    (write : StatusWrite doc written taskId status) :
    Guarded doc (closeSubtree written taskId status) := by
  by_cases starts : status = some .inProgress
  · subst starts
    exact guarded_of_started write
  by_cases completes : status = some .done
  · subst completes
    exact guarded_of_completed write
  have same : closeSubtree written taskId status = written := by
    unfold closeSubtree
    split
    · exact absurd rfl completes
    · rfl
  rw [same]
  intro task member guarded changed id listed
  have kept : Kept doc task ∨ (task.status ≠ some .inProgress ∧ task.status ≠ some .done) := by
    rcases write.others task member with isTask | kept
    · exact write.settled starts completes task member isTask
    · exact .inl kept
  rcases kept with ⟨old, found, sameStatus⟩ | ⟨notStarted, notDone⟩
  · exact absurd sameStatus (changed old found)
  · exact (guarded.elim notStarted notDone).elim

/-- An edit that writes a status and keeps the dependencies. -/
structure Restatuses (change : Task → Task) (status : Task → Option TaskStatus) : Prop where
  id (task : Task) : (change task).id = task.id
  status (task : Task) : (change task).status = status task
  dependencies (task : Task) : dependenciesOf (change task) = dependenciesOf task

theorem modifyTask_modifyTask {first second : Task → Task}
    (ids : ∀ task, (first task).id = task.id) :
    (doc.modifyTask taskId first).modifyTask taskId second =
      doc.modifyTask taskId (second ∘ first) := by
  simp only [Project.modifyTask, List.map_map]
  congr 1
  apply List.map_congr_left
  intro task _
  by_cases same : task.id = taskId
  · simp [same, ids]
  · simp [same]

theorem updated_change {runtime : Runtime} {patch : Patch} {value : Value}
    {moved : Project × Task} (sameId : task.id = taskId)
    (moves : moveUpdated runtime (doc.modifyTask taskId patch.apply) (patch.apply task) value =
      .ok moved) : ∃ change, Restatuses change (fun task => patch.status.or task.status) ∧
      moved = (doc.modifyTask taskId change, change task) := by
  have patches : Restatuses patch.apply fun task => patch.status.or task.status :=
    ⟨fun _ => rfl, fun _ => rfl, fun _ => rfl⟩
  rcases moveUpdated_ok moves with same | ⟨_, _, newParent, -, same⟩
  · exact ⟨patch.apply, patches, same⟩
  · have isTask : (patch.apply task).id = taskId := sameId
    refine ⟨fun task => { patch.apply task with parentTaskId := newParent },
      ⟨fun _ => rfl, fun _ => rfl, fun _ => rfl⟩, ?_⟩
    rw [same]
    apply Prod.ext
    · dsimp only
      rw [isTask, modifyTask_modifyTask patches.id]
      rfl
    · rfl

theorem mem_modifyTask (distinct : (doc.tasks.map Task.id).Nodup)
    (member : task ∈ (doc.modifyTask taskId change).tasks) :
    (∃ old ∈ doc.tasks, old.id = taskId ∧ task = change old) ∨ Kept doc task := by
  obtain ⟨old, present, rfl⟩ := List.mem_map.mp member
  split
  · next isTask => exact .inl ⟨old, present, isTask, rfl⟩
  · exact .inr (kept_of_mem distinct present rfl rfl)

theorem taskIds_modifyTask (restatuses : Restatuses change status) :
    (doc.modifyTask taskId change).tasks.map Task.id = doc.tasks.map Task.id := by
  simp only [Project.modifyTask, List.map_map]
  apply List.map_congr_left
  intro task _
  simp only [Function.comp_apply]
  split
  · exact restatuses.id task
  · rfl

theorem others_modifyTask
    (distinct : (doc.tasks.map Task.id).Nodup) (restatuses : Restatuses change status) :
    ∀ task ∈ (doc.modifyTask taskId change).tasks, task.id = taskId ∨ Kept doc task := by
  intro task member
  rcases mem_modifyTask distinct member with ⟨old, -, isTask, rfl⟩ | kept
  · exact .inl ((restatuses.id old).trans isTask)
  · exact .inr kept

theorem findTask_restatused {id : String} (restatuses : Restatuses change status)
    (found : findTask (doc.modifyTask taskId change) id = some task) :
    ∃ old, findTask doc id = some old ∧
      ((old.id = taskId ∧ task = change old) ∨ (old.id ≠ taskId ∧ task = old)) ∧
      dependenciesOf task = dependenciesOf old := by
  rw [findTask_modifyTask restatuses.id] at found
  obtain ⟨old, before, rfl⟩ := Option.map_eq_some_iff.mp found
  refine ⟨old, before, ?_⟩
  split
  · next isTask => exact ⟨.inl ⟨isTask, rfl⟩, restatuses.dependencies old⟩
  · next other => exact ⟨.inr ⟨other, rfl⟩, rfl⟩

end

section

variable {runtime : Runtime} {doc edited : Project} {taskId freshId : String} {task : Task}

theorem statusWrite_updated (sound : SoundGraph doc.graph) {patch : Patch} {value : Value}
    {moved : Project × Task} (found : findTask doc taskId = some task)
    (moves : moveUpdated runtime (doc.modifyTask taskId patch.apply) (patch.apply task) value =
      .ok moved) (guarded : guardStatus moved.1 moved.2 patch.status = .ok ()) :
    StatusWrite doc moved.1 taskId patch.status := by
  have distinct : (doc.tasks.map Task.id).Nodup := graph_ids doc ▸ sound.distinct
  obtain ⟨member, sameId⟩ := findTask_some found
  obtain ⟨change, restatuses, rfl⟩ := updated_change sameId moves
  have isTask : (change task).id = taskId := (restatuses.id task).trans sameId
  have present : findTask (doc.modifyTask taskId change) taskId = some (change task) := by
    rw [findTask_modifyTask restatuses.id, found, Option.map_some, if_pos sameId]
  refine ⟨?_, others_modifyTask distinct restatuses, ?_, ?_, ?_⟩
  · rw [taskIds_modifyTask restatuses]
    exact distinct
  · intro starts other isOther
    rw [starts] at guarded
    rw [← Option.some.inj (present.symm.trans isOther)]
    exact assertCanStart_iff.mp guarded
  · intro completes
    rw [completes] at guarded
    have unblocked := (assertCanComplete_iff ?_).mp guarded
    · rwa [isTask] at unblocked
    · dsimp only
      rw [isTask]
      exact mem_taskIds_of_findTask present
  · intro notStarts notCompletes other otherMember _
    rcases mem_modifyTask distinct otherMember with ⟨old, isOld, sameTask, rfl⟩ | kept
    · cases given : patch.status with
      | none =>
        refine .inl (kept_of_mem distinct isOld (restatuses.id old) ?_)
        rw [restatuses.status, given, Option.none_or]
      | some status =>
        rw [given] at notStarts notCompletes
        rw [restatuses.status, given, Option.some_or]
        exact .inr ⟨notStarts, notCompletes⟩
    · exact .inl kept

/-- A member's request guards the document before it writes the status.  What was
done then is done after it, and no task depends on itself. -/
theorem statusWrite_restatused (sound : SoundGraph doc.graph) {status : Option TaskStatus}
    {proof : Task → Option TaskCompletionProof} (found : findTask doc taskId = some task)
    (guarded : guardStatus doc task status = .ok ()) :
    StatusWrite doc (doc.modifyTask taskId fun task =>
      { task with status, completionProof := proof task }) taskId status := by
  have distinct : (doc.tasks.map Task.id).Nodup := graph_ids doc ▸ sound.distinct
  have restatuses : Restatuses
      (fun task => { task with status, completionProof := proof task }) fun _ => status :=
    ⟨fun _ => rfl, fun _ => rfl, fun _ => rfl⟩
  obtain ⟨member, sameId⟩ := findTask_some found
  refine ⟨?_, others_modifyTask distinct restatuses, ?_, ?_, ?_⟩
  · rw [taskIds_modifyTask restatuses]
    exact distinct
  · rintro rfl other isOther
    obtain ⟨old, isOld, -, same⟩ := findTask_restatused restatuses isOther
    cases found.symm.trans isOld
    have unblocked := blockingDependencies_eq_nil.mp (assertCanStart_iff.mp guarded)
    apply blockingDependencies_eq_nil.mpr
    intro dependency listed
    rw [same] at listed
    have depends : DependsOn doc.graph taskId dependency :=
      dependsOn_iff.mpr ⟨task, member, sameId, listed⟩
    obtain ⟨other, isDependency, done⟩ := isDone_iff.mp (unblocked dependency listed)
    have apart : other.id ≠ taskId := by
      rw [(findTask_some isDependency).2]
      rintro rfl
      exact sound.acyclic dependency (.single depends)
    apply isDone_iff.mpr
    rw [findTask_modifyTask restatuses.id, isDependency]
    exact ⟨other, by rw [Option.map_some, if_neg apart], done⟩
  · rintro rfl id below
    have present : task.id ∈ doc.tasks.map Task.id := List.mem_map_of_mem member
    have unblocked := (assertCanComplete_iff present).mp guarded
    rw [sameId] at unblocked
    intro other isOther
    obtain ⟨old, isOld, -, same⟩ := findTask_restatused restatuses isOther
    have before := unblocked id ((below_congr graph_restatus).mp below) old isOld
    apply blockingDependencies_eq_nil.mpr
    intro dependency listed
    rw [same] at listed
    obtain ⟨finished, isDependency, done⟩ :=
      isDone_iff.mp (blockingDependencies_eq_nil.mp before dependency listed)
    apply isDone_iff.mpr
    rw [findTask_modifyTask restatuses.id, isDependency]
    refine ⟨_, rfl, ?_⟩
    dsimp only
    split
    · rfl
    · exact done
  · intro notStarts notCompletes other otherMember _
    rcases mem_modifyTask distinct otherMember with ⟨old, -, -, rfl⟩ | kept
    · exact .inr ⟨notStarts, notCompletes⟩
    · exact .inl kept

theorem TaskStep.guarded (step : TaskStep runtime doc freshId edited)
    (sound : SoundGraph doc.graph) : Guarded doc edited := by
  have distinct : (doc.tasks.map Task.id).Nodup := graph_ids doc ▸ sound.distinct
  cases step with
  | kept same =>
    apply guarded_of_kept
    intro task member
    exact .inl (kept_of_mem distinct (same.tasks ▸ member) rfl rfl)
  | edited same keeps =>
    apply guarded_of_kept
    intro task member
    rw [Project.modifyTask, same.tasks] at member
    exact .inl (kept_modifyTask distinct (fun task => ⟨keeps.id task, keeps.status task⟩)
      task member)
  | added =>
    apply guarded_of_kept
    intro task member
    rcases List.mem_append.mp member with old | new
    · exact .inl (kept_of_mem distinct old rfl rfl)
    · rw [List.mem_singleton.mp new]
      exact .inr rfl
  | moved _ | linked => exact guarded_modifyTask distinct fun _ => ⟨rfl, rfl⟩
  | updated found moves guarded => exact (statusWrite_updated sound found moves guarded).guarded
  | restatused found guarded => exact (statusWrite_restatused sound found guarded).guarded
  | redirected _ replaces =>
    obtain ⟨-, -, rfl⟩ := replaceDependencies_ok replaces
    exact guarded_modifyTask distinct fun _ => ⟨rfl, rfl⟩

end

/-- Whatever a mutation starts or completes has all its dependencies done in the
document that is stored. -/
theorem mutation_guarded {runtime : Runtime} {doc after : Project} {count : Nat} {turn : Turn}
    {applied : Applied} (reached : Reached runtime doc count)
    (takes : turn.take runtime doc.id (some doc) = (some after, .ok applied)) :
    Guarded doc after := by
  rcases turn.take_cases runtime doc.id (some doc) with
    ⟨-, message, same⟩ | ⟨-, given, result, applies, same, -⟩
  · cases (Prod.mk.inj (same.symm.trans takes)).2
  · obtain ⟨edited, step, saved⟩ := Mutation.apply_steps (Turn.apply_reads applies)
    rw [← Option.some.inj (Prod.mk.inj (same.symm.trans takes)).1, saved]
    exact step.guarded reached.sound.1

def packTask (status : TaskStatus) : Task where
  id := "t"
  name := some "Pack"
  status := some status
  parentTaskId := none
  start := none
  finish := none
  durationDays := none
  percentComplete := none
  estimatedHours := none
  predecessors := []
  dependencies := some []
  resourceAssignments := []
  timeEntries := []
  delegation := none
  completionProof := none

def packProject : Project :=
  { launchProject with
    updatedAt := "2026-01-02T00:00:00.000Z"
    tasks := [packTask .todo]
    mutationSeq := 1 }

def packTurn : Turn where
  mutation := .updateTask { taskId := "t", fields := { status := .string "in-progress" } }
  around := { freshId := "", now := "2026-01-03T00:00:00.000Z" }

theorem packProject_takes :
    (launchTurn .written).take launchRuntime launchProject.id (some launchProject) =
      (some packProject, .ok ⟨packProject, "addTask"⟩) := by
  decide +kernel

theorem packProject_reached : ∃ count, Reached launchRuntime packProject count :=
  ⟨_, .taken launchProject_reached (by decide) packProject_takes⟩

theorem mutation_guarded_pack :
    ∃ started applied, packTurn.take launchRuntime packProject.id (some packProject) =
        (some started, .ok applied) ∧ started.tasks = [packTask .inProgress] ∧
      Guarded packProject started := by
  obtain ⟨count, reached⟩ := packProject_reached
  have takes : packTurn.take launchRuntime packProject.id (some packProject) =
      (some { packProject with
        updatedAt := "2026-01-03T00:00:00.000Z", tasks := [packTask .inProgress], mutationSeq := 2 },
      .ok ⟨{ packProject with
        updatedAt := "2026-01-03T00:00:00.000Z", tasks := [packTask .inProgress], mutationSeq := 2 },
        "updateTask"⟩) := by
    decide +kernel
  exact ⟨_, _, takes, rfl, mutation_guarded reached takes⟩

end P2PHub.SmartTasks
