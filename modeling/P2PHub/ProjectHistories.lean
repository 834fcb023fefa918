import P2PHub.ProjectInvariants

/-!
# Histories of a project

The documents that are reached from a new project by its mutations, one after
the other, whether they succeed or fail.
-/

namespace P2PHub.SmartTasks

open Mutation

/-- What becomes of the write of a document.  `notReleased`: the file is
replaced, but then its lock cannot be released, and the write is rejected. -/
inductive WriteOutcome
  | written
  | failed (message : String)
  | notReleased (message : String)
  deriving DecidableEq, Repr

/-- A mutation with its surroundings and what the storage does in it. -/
structure Turn where
  mutation : Mutation
  around : Surroundings
  readError : Option String := none
  write : WriteOutcome := .written

def Turn.read (turn : Turn) (stored : Option Project) : StoredProject :=
  match turn.readError with
  | some message => .error message
  | none => .ok stored

/-- What a mutation leaves stored, and what comes of it. -/
def Turn.take (turn : Turn) (runtime : Runtime) (projectId : String) (stored : Option Project) :
    Option Project × Except String Applied :=
  match turn.mutation.apply runtime turn.around projectId (turn.read stored), turn.write with
  | .error message, _ => (stored, .error message)
  | .ok applied, .written => (some applied.doc, .ok applied)
  | .ok _, .failed message => (stored, .error message)
  | .ok applied, .notReleased message => (some applied.doc, .error message)

def Turn.stores (turn : Turn) (runtime : Runtime) (projectId : String) (stored : Option Project) :
    Bool :=
  match turn.mutation.apply runtime turn.around projectId (turn.read stored), turn.write with
  | .error _, _ => false
  | .ok _, .written => true
  | .ok _, .failed _ => false
  | .ok _, .notReleased _ => true

def Project.objectIds (doc : Project) : List String :=
  doc.id :: doc.tasks.map Task.id ++ doc.contacts.map ImportedContact.id ++
    doc.embedded.map EmbeddedObject.id

/-- The documents that a project may have, with the number of mutations that
were stored.  The ids of new objects are fresh. -/
inductive Reached (runtime : Runtime) : Project → Nat → Prop
  | created {around : Surroundings} {ownerPeerId : String} {name budgetCents : Value}
      {doc : Project} (creates : createProject around ownerPeerId name budgetCents = .ok doc) :
      Reached runtime doc 0
  | taken {doc after : Project} {count : Nat} {turn : Turn} {result : Except String Applied}
      (reached : Reached runtime doc count) (fresh : turn.around.freshId ∉ doc.objectIds)
      (takes : turn.take runtime doc.id (some doc) = (some after, result)) :
      Reached runtime after (count + if turn.stores runtime doc.id (some doc) then 1 else 0)

section

variable {runtime : Runtime} {doc : Project} {turn : Turn} {projectId : String}
  {stored : Option Project}

theorem Turn.take_cases (turn : Turn) (runtime : Runtime) (projectId : String)
    (stored : Option Project) : (turn.stores runtime projectId stored = false ∧ ∃ message,
        turn.take runtime projectId stored = (stored, .error message)) ∨
      (turn.stores runtime projectId stored ∧ ∃ applied result,
        turn.mutation.apply runtime turn.around projectId (turn.read stored) = .ok applied ∧
        turn.take runtime projectId stored = (some applied.doc, result) ∧
        ((turn.write = .written ∧ result = .ok applied) ∨
          ∃ message, turn.write = .notReleased message ∧ result = .error message)) := by
  unfold Turn.stores Turn.take
  cases applies : turn.mutation.apply runtime turn.around projectId (turn.read stored) with
  | error message => exact .inl ⟨rfl, message, rfl⟩
  | ok applied =>
    cases written : turn.write with
    | written => exact .inr ⟨rfl, applied, .ok applied, rfl, rfl, .inl ⟨rfl, rfl⟩⟩
    | failed message => exact .inl ⟨rfl, message, rfl⟩
    | notReleased message =>
      exact .inr ⟨rfl, applied, .error message, rfl, rfl, .inr ⟨message, rfl, rfl⟩⟩

theorem Turn.read_ok {value : Option Project} (reads : turn.read stored = .ok value) :
    value = stored := by
  unfold Turn.read at reads
  split at reads
  · cases reads
  · exact (Except.ok.inj reads).symm

theorem Mutation.apply_reads {mutation : Mutation} {around : Surroundings}
    {read : StoredProject} {applied : Applied}
    (applies : mutation.apply runtime around projectId read = .ok applied) :
    ∃ doc, read = .ok (some doc) := by
  have reads {operation : String} {doc : Project}
      (required : requireProject operation projectId read = .ok doc) :
      ∃ doc, read = .ok (some doc) := ⟨doc, requireProject_ok required⟩
  cases mutation with
  | addTask =>
    simp only [apply, rawAddTask, bind_eq_ok] at applies
    obtain ⟨-, -, -, -, -, -, doc, isDoc, -⟩ := applies
    exact reads isDoc
  | updateTask =>
    simp only [apply, rawUpdateTask, bind_eq_ok] at applies
    obtain ⟨doc, isDoc, -⟩ := applies
    exact reads isDoc
  | setDependency =>
    simp only [apply, rawSetDependency, bind_eq_ok] at applies
    obtain ⟨-, -, -, -, doc, isDoc, -⟩ := applies
    exact reads isDoc
  | setDependencies =>
    simp only [apply, rawSetDependencies, bind_eq_ok] at applies
    obtain ⟨-, -, doc, isDoc, -⟩ := applies
    exact reads isDoc
  | delegateTask =>
    simp only [apply, rawDelegateTask, bind_eq_ok] at applies
    obtain ⟨-, -, doc, isDoc, -⟩ := applies
    exact reads isDoc
  | assignResource =>
    simp only [apply, rawAssignResource, bind_eq_ok] at applies
    obtain ⟨doc, isDoc, -⟩ := applies
    exact reads isDoc
  | addMember =>
    simp only [apply, rawAddMember, bind_eq_ok] at applies
    obtain ⟨-, -, doc, isDoc, -⟩ := applies
    exact reads isDoc
  | updateBudget =>
    simp only [apply, rawUpdateBudget, bind_eq_ok] at applies
    obtain ⟨doc, isDoc, -⟩ := applies
    exact reads isDoc
  | attachNote =>
    simp only [apply, rawAttachNote, bind_eq_ok] at applies
    obtain ⟨-, -, doc, isDoc, -⟩ := applies
    exact reads isDoc
  | request =>
    simp only [apply, applyRequestMutation, bind_eq_ok] at applies
    obtain ⟨-, -, -, -, -, -, doc, isDoc, -⟩ := applies
    exact reads isDoc

theorem Turn.apply_reads {applied : Applied}
    (applies : turn.mutation.apply runtime turn.around projectId (turn.read (some doc)) =
      .ok applied) :
    turn.mutation.apply runtime turn.around projectId (.ok (some doc)) = .ok applied := by
  obtain ⟨read, reads⟩ := Mutation.apply_reads applies
  have same := Turn.read_ok reads
  rwa [reads, same] at applies

end

section

variable {runtime : Runtime} {doc edited : Project} {freshId : String} {around : Surroundings}

theorem closeSubtree_frame {taskId : String} {status : Option TaskStatus} :
    (closeSubtree doc taskId status).mutationSeq = doc.mutationSeq ∧
      (closeSubtree doc taskId status).id = doc.id := by
  unfold closeSubtree
  split
  · obtain ⟨closed, same, -⟩ := cascadeDone_spec doc taskId
    rw [same]
    exact ⟨rfl, rfl⟩
  · exact ⟨rfl, rfl⟩

/-- A step leaves the count of mutations and the id of the project alone. -/
theorem TaskStep.frame (step : TaskStep runtime doc freshId edited) :
    edited.mutationSeq = doc.mutationSeq ∧ edited.id = doc.id := by
  cases step with
  | kept same | edited same => exact ⟨same.mutationSeq, same.id⟩
  | added | moved | linked => exact ⟨rfl, rfl⟩
  | updated _ moves =>
    rw [closeSubtree_frame.1, closeSubtree_frame.2]
    rcases moveUpdated_ok moves with rfl | ⟨_, _, newParent, -, rfl⟩ <;> exact ⟨rfl, rfl⟩
  | restatused => exact closeSubtree_frame
  | redirected _ replaces =>
    obtain ⟨-, -, rfl⟩ := replaceDependencies_ok replaces
    exact ⟨rfl, rfl⟩

theorem graph_fresh (fresh : freshId ∉ doc.objectIds) : freshId ∉ doc.graph.map GraphNode.id := by
  rw [graph_ids]
  intro member
  apply fresh
  simp only [Project.objectIds, List.cons_append, List.mem_cons, List.mem_append]
  exact .inr (.inl (.inl member))

theorem Mutation.apply_sound {mutation : Mutation} {projectId : String}
    {applied : Applied} (sound : SoundGraph doc.graph) (fresh : around.freshId ∉ doc.objectIds)
    (applies : mutation.apply runtime around projectId (.ok (some doc)) = .ok applied) :
    SoundGraph applied.doc.graph ∧ applied.doc.mutationSeq = doc.mutationSeq + 1 := by
  obtain ⟨edited, step, saved⟩ := apply_steps applies
  rw [saved]
  constructor
  · exact (step.graphStep sound).sound (graph_fresh fresh) sound
  · exact congrArg (· + 1) step.frame.1

theorem createProject_sound {ownerPeerId : String} {name budgetCents : Value}
    (creates : createProject around ownerPeerId name budgetCents = .ok doc) :
    SoundGraph doc.graph ∧ doc.mutationSeq = 0 := by
  simp only [createProject, bind_eq_ok, pure_eq_ok] at creates
  obtain ⟨title, -, budget, -, rfl⟩ := creates
  exact ⟨soundGraph_nil, rfl⟩

theorem Reached.sound {count : Nat} (reached : Reached runtime doc count) :
    SoundGraph doc.graph ∧ doc.mutationSeq = count := by
  induction reached with
  | created creates => exact createProject_sound creates
  | @taken doc after count turn result _ fresh takes ih =>
    obtain ⟨sound, counted⟩ := ih
    rcases turn.take_cases runtime doc.id (some doc) with
      ⟨kept, message, same⟩ | ⟨stores, applied, result, applies, same, -⟩
    · rw [same] at takes
      rw [kept, ← Option.some.inj (Prod.mk.inj takes).1]
      exact ⟨sound, counted⟩
    · rw [same] at takes
      rw [stores, ← Option.some.inj (Prod.mk.inj takes).1]
      have step := apply_sound sound fresh (Turn.apply_reads applies)
      exact ⟨step.1, by rw [step.2, counted]; rfl⟩

end

/-- In every document of a project the graphs are sound and the mutations that
were stored are counted.  A mutation that succeeds is one of these, and one that
throws leaves the document as it is, unless only the lock was not released. -/
theorem project_invariants {runtime : Runtime} {doc : Project} {count : Nat}
    (reached : Reached runtime doc count) : SoundGraph doc.graph ∧ doc.mutationSeq = count ∧
      ∀ (turn : Turn) (stored : Option Project) (result : Except String Applied),
        turn.around.freshId ∉ doc.objectIds →
        turn.take runtime doc.id (some doc) = (stored, result) → (∀ applied, result = .ok applied →
          stored = some applied.doc ∧ applied.doc.mutationSeq = doc.mutationSeq + 1) ∧
        (∀ message, result = .error message → (∀ late, turn.write ≠ .notReleased late) →
          stored = some doc) := by
  obtain ⟨sound, counted⟩ := reached.sound
  refine ⟨sound, counted, ?_⟩
  intro turn stored result fresh takes
  rcases turn.take_cases runtime doc.id (some doc) with
    ⟨-, message, same⟩ | ⟨-, applied, given, applies, same, outcome⟩
  · cases same.symm.trans takes
    exact ⟨(fun applied succeeded => nomatch succeeded), fun _ _ _ => rfl⟩
  · cases same.symm.trans takes
    have step := apply_sound sound fresh (Turn.apply_reads applies)
    rcases outcome with ⟨-, rfl⟩ | ⟨message, late, rfl⟩
    · refine ⟨fun other succeeded => ?_, (fun _ threw => nomatch threw)⟩
      cases succeeded
      exact ⟨rfl, step.2⟩
    · exact ⟨(fun _ succeeded => nomatch succeeded), fun _ _ released => absurd late (released _)⟩

def launchRuntime : Runtime where
  parseDate _ := none
  text _ := ""
  verify _ _ _ _ := false

def launchProject : Project where
  id := "p"
  name := "Launch"
  createdAt := "2026-01-01T00:00:00.000Z"
  updatedAt := "2026-01-01T00:00:00.000Z"
  tasks := []
  members := ["owner"]
  mutationSeq := 0
  budgetCents := none
  spentCents := none
  noteRef := none
  contacts := []
  embedded := []

theorem launchProject_created :
    createProject { freshId := "p", now := "2026-01-01T00:00:00.000Z" } "owner" (.string "Launch")
      .undefined = .ok launchProject := by
  decide +kernel

theorem launchProject_reached : Reached launchRuntime launchProject 0 :=
  .created launchProject_created

def launchTurn (write : WriteOutcome) : Turn where
  mutation := .addTask { fields := { name := .string "Pack" } }
  around := { freshId := "t", now := "2026-01-02T00:00:00.000Z" }
  write := write

theorem project_invariants_launch :
    SoundGraph launchProject.graph ∧ launchProject.mutationSeq = 0 ∧ ∃ applied,
      (launchTurn .written).take launchRuntime "p" (some launchProject) =
        (some applied.doc, .ok applied) ∧ applied.doc.mutationSeq = 1 := by
  obtain ⟨sound, counted, turns⟩ := project_invariants launchProject_reached
  refine ⟨sound, counted, ?_⟩
  have succeeds :
      ((launchTurn .written).take launchRuntime "p" (some launchProject)).2.isOk := by
    decide +kernel
  cases taken : (launchTurn .written).take launchRuntime "p" (some launchProject) with
  | mk stored result =>
    rw [taken] at succeeds
    cases result with
    | error => cases succeeds
    | ok applied =>
      obtain ⟨rfl, grown⟩ := (turns _ _ _ (by decide) taken).1 applied rfl
      exact ⟨applied, rfl, grown⟩

/-- A mutation may throw and yet have changed the stored document. -/
theorem throwing_mutation_stores :
    ¬∀ (runtime : Runtime) (doc : Project) (count : Nat), Reached runtime doc count →
      ∀ (turn : Turn) (stored : Option Project) (result : Except String Applied),
        turn.around.freshId ∉ doc.objectIds →
        turn.take runtime doc.id (some doc) = (stored, result) →
        ∀ message, result = .error message → stored = some doc := by
  intro unchanged
  have kept := unchanged launchRuntime launchProject 0 launchProject_reached
    (launchTurn (.notReleased "EPERM: operation not permitted, unlink")) _ _ (by decide) rfl
    "EPERM: operation not permitted, unlink" (by decide +kernel)
  revert kept
  decide +kernel

end P2PHub.SmartTasks
