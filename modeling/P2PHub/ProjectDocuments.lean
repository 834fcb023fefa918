import P2PHub.Binary64
import P2PHub.ColoredSearch

/-!
# Project documents

The documents of `plugins/tasks/src/index.ts`: a project with its tasks, the two
representations of the dependencies between them, and the walks over the
dependencies and the parents that its guards make.  The objects of a document
are known by their ids; the references of the root to its tasks are the list of
the tasks themselves.
-/

namespace P2PHub.SmartTasks

inductive DependencyType
  | FS
  | SS
  | FF
  | SF
  deriving DecidableEq, Repr

inductive TaskStatus
  | todo
  | inProgress
  | done
  | blocked
  deriving DecidableEq, Repr

inductive DelegationStatus
  | pending
  | accepted
  | declined
  deriving DecidableEq, Repr

def DelegationStatus.text : DelegationStatus → String
  | pending => "pending"
  | accepted => "accepted"
  | declined => "declined"

structure Predecessor where
  taskId : String
  type : DependencyType
  lagDays : Binary64
  deriving DecidableEq

structure TimeEntry where
  taskId : String
  peerId : String
  start : String
  finish : String
  deriving DecidableEq

structure TaskDelegation where
  assignedTo : String
  status : DelegationStatus
  deriving DecidableEq

structure TaskCompletionProof where
  signedBy : String
  timestamp : String
  signatureHex : String
  deriving DecidableEq

/-- A task.  Documents of the first version have no `dependencies`. -/
structure Task where
  id : String
  name : Option String
  status : Option TaskStatus
  parentTaskId : Option String
  start : Option String
  finish : Option String
  durationDays : Option Binary64
  percentComplete : Option Binary64
  estimatedHours : Option Binary64
  predecessors : List Predecessor
  dependencies : Option (List String)
  resourceAssignments : List String
  timeEntries : List TimeEntry
  delegation : Option TaskDelegation
  completionProof : Option TaskCompletionProof
  deriving DecidableEq

structure ImportedContact where
  id : String
  peerId : String
  deriving DecidableEq

structure EmbeddedObject where
  id : String
  targetClass : String
  targetId : String
  attachedAt : String
  deriving DecidableEq

structure Project where
  id : String
  name : String
  createdAt : String
  updatedAt : String
  tasks : List Task
  members : List String
  mutationSeq : Nat
  budgetCents : Option Binary64
  spentCents : Option Binary64
  noteRef : Option String
  contacts : List ImportedContact
  embedded : List EmbeddedObject
  deriving DecidableEq

def findTask (doc : Project) (taskId : String) : Option Task :=
  doc.tasks.find? fun task => decide (task.id = taskId)

def childrenOf (doc : Project) (parentId : String) : List Task :=
  doc.tasks.filter fun task => decide (task.parentTaskId = some parentId)

def isMember (doc : Project) (peerId : String) : Bool :=
  doc.members.contains peerId

def predecessorsOf (task : Task) : List String :=
  task.predecessors.map Predecessor.taskId

/-- The block-list, or the predecessors where there is none. -/
def dependenciesOf (task : Task) : List String :=
  task.dependencies.getD (predecessorsOf task)

def isDone (doc : Project) (id : String) : Bool :=
  match findTask doc id with
  | some task => decide (task.status = some .done)
  | none => false

def blockingDependencies (doc : Project) (task : Task) : List String :=
  (dependenciesOf task).filter fun id => !isDone doc id

def Project.modifyTask (doc : Project) (taskId : String) (change : Task → Task) : Project :=
  { doc with tasks := doc.tasks.map fun task => if task.id = taskId then change task else task }

def addMemberToList (doc : Project) (peerId : String) : Project :=
  if isMember doc peerId then doc else { doc with members := doc.members ++ [peerId] }

/-- Write the dependencies in both representations.  Predecessors that stay
keep their type and lag. -/
def syncDependencyFields (task : Task) (ids : List String) : Task :=
  { task with
    dependencies := some ids
    predecessors := ids.map fun id =>
      (task.predecessors.reverse.find? fun predecessor => decide (predecessor.taskId = id)).getD
        { taskId := id, type := .FS, lagDays := .ofInt 0 } }

def Project.closeChildren (doc : Project) (parentId : String) : Project :=
  { doc with
    tasks := doc.tasks.map fun task =>
      if task.parentTaskId = some parentId then { task with status := some .done } else task }

section

def parents (doc : Project) : List String :=
  doc.tasks.filterMap Task.parentTaskId

variable {doc : Project} {id : String}

theorem mem_parents_of_childrenOf {child : Task}
    (member : child ∈ childrenOf doc id) : id ∈ parents doc := by
  obtain ⟨present, isChild⟩ := List.mem_filter.mp member
  exact List.mem_filterMap.mpr ⟨child, present, of_decide_eq_true isChild⟩

def childIds (doc : Project) (id : String) : List String :=
  (childrenOf doc id).map Task.id

theorem childIds_length_le (doc : Project) (id : String) :
    (childIds doc id).length ≤ if id ∈ parents doc then (childIds doc id).length else 0 := by
  split
  · exact Nat.le_refl _
  · next childless =>
      have none : childrenOf doc id = [] := by
        apply List.eq_nil_iff_forall_not_mem.mpr
        exact fun child member => childless (mem_parents_of_childrenOf member)
      simp [childIds, none]

theorem findTask_some {task : Task}
    (found : findTask doc id = some task) : task ∈ doc.tasks ∧ task.id = id := by
  have same := List.find?_some found
  exact ⟨List.mem_of_find?_eq_some found, of_decide_eq_true same⟩

theorem mem_taskIds_of_findTask {task : Task}
    (found : findTask doc id = some task) : id ∈ doc.tasks.map Task.id := by
  obtain ⟨member, same⟩ := findTask_some found
  exact List.mem_map.mpr ⟨task, member, same⟩

/-- What `assertCanComplete` does at a task of the subtree. -/
def completionSearch (doc : Project) : WorklistSearch String Unit String where
  visit _ _ id :=
    match findTask doc id with
    | none => .ok ((), [])
    | some node =>
      let blocking := blockingDependencies doc node
      if blocking = [] then .ok ((), childIds doc id)
      else .error ("Invalid Dependency State: cannot complete \"" ++ node.name.getD id ++
        "\" while unfinished dependencies remain: " ++ String.intercalate ", " blocking)
  sources := parents doc
  degree id := (childIds doc id).length
  bounded := by
    intro _ _ id _ pushed visited
    split at visited
    · cases visited
      exact Nat.zero_le _
    · dsimp only at visited
      split at visited
      · cases visited
        exact childIds_length_le doc id
      · cases visited

/-- What `cascadeDone` does at a task.  It changes no parent, so the children
are those of the document before it. -/
def cascadeSearch (doc : Project) : WorklistSearch String Project Empty where
  visit cascaded _ id := .ok (cascaded.closeChildren id, childIds doc id)
  sources := parents doc
  degree id := (childIds doc id).length
  bounded := by
    intro _ _ id _ pushed visited
    cases visited
    exact childIds_length_le doc id

def predecessorIds (doc : Project) (id : String) : List String :=
  match findTask doc id with
  | none => []
  | some task => predecessorsOf task

theorem predecessorIds_eq_nil
    (absent : id ∉ doc.tasks.map Task.id) : predecessorIds doc id = [] := by
  unfold predecessorIds
  split
  · rfl
  · next found => exact absurd (mem_taskIds_of_findTask found) absent

/-- What `wouldCreateCycle` does at a task on the way back to `taskId`. -/
def predecessorSearch (doc : Project) (taskId : String) : WorklistSearch String Unit Unit where
  visit _ visited id :=
    if id = taskId then .error ()
    else .ok ((), (predecessorIds doc id).filter (· ∉ visited))
  sources := doc.tasks.map Task.id
  degree id := (predecessorIds doc id).length
  bounded := by
    intro _ visited id _ pushed visits
    split at visits
    · cases visits
    · cases visits
      split
      · exact List.length_filter_le _ _
      · next absent =>
          rw [predecessorIds_eq_nil absent]
          exact Nat.le_refl 0

def parentIds (doc : Project) (id : String) : List String :=
  match findTask doc id with
  | none => []
  | some task => task.parentTaskId.toList

/-- What `wouldCreateParentCycle` does on its way up. -/
def ancestorSearch (doc : Project) (taskId : String) : WorklistSearch String Unit Unit where
  visit _ _ id := if id = taskId then .error () else .ok ((), parentIds doc id)
  sources := doc.tasks.map Task.id
  degree _ := 1
  bounded := by
    intro _ _ id _ pushed visits
    split at visits
    · cases visits
    · cases visits
      unfold parentIds
      split
      · exact Nat.zero_le _
      · next found =>
          rw [if_pos (mem_taskIds_of_findTask found)]
          exact Option.length_toList_le

def overriddenDependencies (doc : Project) (taskId : String) (newDependencyIds : List String) :
    Adjacency String where
  nodes := doc.tasks.map Task.id
  next id :=
    match findTask doc id with
    | none => []
    | some task => if task.id = taskId then newDependencyIds else dependenciesOf task
  outside := by
    intro id absent
    split
    · rfl
    · next found => exact absurd (mem_taskIds_of_findTask found) absent

end

def assertCanStart (doc : Project) (task : Task) : Except String Unit :=
  let blocking := blockingDependencies doc task
  if blocking = [] then .ok ()
  else .error ("Invalid Dependency State: cannot start \"" ++ task.name.getD task.id ++
    "\" while unfinished dependencies remain: " ++ String.intercalate ", " blocking)

def assertCanComplete (doc : Project) (task : Task) : Except String Unit :=
  ((completionSearch doc).run () [] [task.id]).map fun _ => ()

/-- Whether `taskId` is reached back from `predecessorTaskId`. -/
def wouldCreateCycle (doc : Project) (taskId predecessorTaskId : String) : Bool :=
  match (predecessorSearch doc taskId).run () [] [predecessorTaskId] with
  | .error _ => true
  | .ok _ => false

/-- Whether `taskId` is the new parent or one of its ancestors. -/
def wouldCreateParentCycle (doc : Project) (taskId : String) : Option String → Bool
  | none => false
  | some newParentId =>
    match (ancestorSearch doc taskId).run () [] [newParentId] with
    | .error _ => true
    | .ok _ => false

def wouldCreateDependencyCycle (doc : Project) (taskId : String)
    (newDependencyIds : List String) : Bool :=
  (overriddenDependencies doc taskId newDependencyIds).hasCycle

def cascadeDone (doc : Project) (taskId : String) : Project :=
  match (cascadeSearch doc).run doc [] [taskId] with
  | .ok (cascaded, _) => cascaded
  | .error impossible => nomatch impossible

end P2PHub.SmartTasks
