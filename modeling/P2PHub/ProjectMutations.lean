import P2PHub.FormulaSyntax
import P2PHub.ProjectDocuments

/-!
# Mutations of a project

The owner's mutations and the requests of members, after the mutators of
`plugins/tasks/src/index.ts`.  A mutation works on the document that it has read
and yields the one that it stores, or the text of the error that it throws.
What it gets at its other awaits and from the clock are its surroundings.
-/

namespace P2PHub.SmartTasks

/-- A value of unknown type in an input. -/
inductive Value
  | undefined
  | null
  | boolean (value : Bool)
  | number (value : Binary64)
  | string (value : String)
  | array (items : List Value)
  | object (fields : List (String × Value))

def Value.field (fields : List (String × Value)) (key : String) : Value :=
  ((fields.find? fun entry => decide (entry.1 = key)).map Prod.snd).getD .undefined

/-- What the mutators use of the language and of the identity capability:
`Date.parse` (`NaN` is missing), `String(value)`, and `ctx.identity.verify` of a
signer, a domain, a payload and a signature in hexadecimal digits. -/
structure Runtime where
  parseDate : String → Option Int
  text : Value → String
  verify : String → String → String → String → Bool

/-- What `ctx.trust.getContact` gives, where a lookup is wired. -/
inductive TrustLookup
  | notWired
  | failed
  | unknown
  | contact (blocked : Bool)
  deriving DecidableEq, Repr

/-- What the notepad's storage gives for a note. -/
inductive NoteLookup
  | noAccess
  | notFound
  | noRoot
  | found (targetClass : String)
  deriving DecidableEq, Repr

/-- What a mutation gets besides the document: the id of an object that it adds,
the time, and what it looks up elsewhere.  The contacts are those of the contact
book by their peers, where the book may be read. -/
structure Surroundings where
  freshId : String
  now : String
  trust : TrustLookup := .notWired
  contacts : Option (List String) := none
  note : NoteLookup := .noAccess
  deriving DecidableEq, Repr

def TaskStatus.ofText : String → Option TaskStatus
  | "todo" => some .todo
  | "in-progress" => some .inProgress
  | "done" => some .done
  | "blocked" => some .blocked
  | _ => none

def TaskStatus.text : TaskStatus → String
  | todo => "todo"
  | inProgress => "in-progress"
  | done => "done"
  | blocked => "blocked"

def DependencyType.ofText : String → Option DependencyType
  | "FS" => some .FS
  | "SS" => some .SS
  | "FF" => some .FF
  | "SF" => some .SF
  | _ => none

/-- The fields of an input that `validatePatch` reads. -/
structure PatchInput where
  name : Value := .undefined
  status : Value := .undefined
  start : Value := .undefined
  finish : Value := .undefined
  durationDays : Value := .undefined
  percentComplete : Value := .undefined
  estimatedHours : Value := .undefined

structure Patch where
  name : Option String := none
  status : Option TaskStatus := none
  start : Option String := none
  finish : Option String := none
  durationDays : Option Binary64 := none
  percentComplete : Option Binary64 := none
  estimatedHours : Option Binary64 := none

def isFinite : Binary64 → Bool
  | .finite _ _ => true
  | _ => false

def patchName : Value → Except String (Option String)
  | .string name =>
    let trimmed := String.ofList (Calc.trim name.toList)
    if trimmed = "" then .error "task name must be a non-empty string" else .ok (some trimmed)
  | _ => .ok none

def patchStatus : Value → Except String (Option TaskStatus)
  | .undefined => .ok none
  | .string status =>
    match TaskStatus.ofText status with
    | some status => .ok (some status)
    | none => .error "status must be one of todo, in-progress, done, blocked"
  | _ => .error "status must be one of todo, in-progress, done, blocked"

def isIsoDate (runtime : Runtime) (value : String) : Bool :=
  (runtime.parseDate value).isSome

/-- A date field; `field` is its name. -/
def patchDate (runtime : Runtime) (field : String) : Value → Except String (Option String)
  | .undefined => .ok none
  | .string date =>
    if isIsoDate runtime date then .ok (some date)
    else .error (field ++ " must be an ISO 8601 date string")
  | _ => .error (field ++ " must be an ISO 8601 date string")

/-- A numeric field that must be finite and within its range. -/
def patchNumber (message : String) (within : Binary64 → Bool) :
    Value → Except String (Option Binary64)
  | .undefined => .ok none
  | .number value =>
    if isFinite value && within value then .ok (some value) else .error message
  | _ => .error message

def notNegative (value : Binary64) : Bool :=
  !value.lt (.ofInt 0)

def isPercentage (value : Binary64) : Bool :=
  notNegative value && !(Binary64.ofInt 100).lt value

def validatePatch (runtime : Runtime) (input : PatchInput) : Except String Patch := do
  let name ← patchName input.name
  let status ← patchStatus input.status
  let start ← patchDate runtime "start" input.start
  let finish ← patchDate runtime "finish" input.finish
  let durationDays ←
    patchNumber "durationDays must be a non-negative number" notNegative input.durationDays
  let percentComplete ←
    patchNumber "percentComplete must be a number between 0 and 100" isPercentage
      input.percentComplete
  let estimatedHours ←
    patchNumber "estimatedHours must be a non-negative number" notNegative input.estimatedHours
  return { name, status, start, finish, durationDays, percentComplete, estimatedHours }

def assertChronology (runtime : Runtime) (start finish : Option String) : Except String Unit :=
  match start.bind runtime.parseDate, finish.bind runtime.parseDate with
  | some startTime, some finishTime =>
    if finishTime < startTime then .error "finish must not be before start" else .ok ()
  | _, _ => .ok ()

def Patch.apply (patch : Patch) (task : Task) : Task :=
  { task with
    name := patch.name.or task.name
    status := patch.status.or task.status
    start := patch.start.or task.start
    finish := patch.finish.or task.finish
    durationDays := patch.durationDays.or task.durationDays
    percentComplete := patch.percentComplete.or task.percentComplete
    estimatedHours := patch.estimatedHours.or task.estimatedHours }

def Patch.newTask (patch : Patch) (id : String) (parentTaskId : Option String) : Task where
  id := id
  name := patch.name
  status := some (patch.status.getD .todo)
  parentTaskId := parentTaskId
  start := patch.start
  finish := patch.finish
  durationDays := patch.durationDays
  percentComplete := patch.percentComplete
  estimatedHours := patch.estimatedHours
  predecessors := []
  dependencies := some []
  resourceAssignments := []
  timeEntries := []
  delegation := none
  completionProof := none

def nonNegativeInteger (message : String) : Value → Except String (Option Binary64)
  | .undefined => .ok none
  | .number value =>
    if value.isInteger && notNegative value then .ok (some value) else .error message
  | _ => .error message

/-- What a mutation yields: the document that it stores, and its action. -/
structure Applied where
  doc : Project
  action : String
  deriving DecidableEq

def bumpMutationSeq (doc : Project) : Project :=
  { doc with mutationSeq := doc.mutationSeq + 1 }

def saveProject (around : Surroundings) (doc : Project) (action : String) : Applied :=
  ⟨{ bumpMutationSeq doc with updatedAt := around.now }, action⟩

/-- What `getProject` gives: the document that is stored, if there is one, or the
error of a read that fails. -/
abbrev StoredProject :=
  Except String (Option Project)

def requireProject (operation projectId : String) (stored : StoredProject) :
    Except String Project :=
  match stored with
  | .ok (some doc) => .ok doc
  | .ok none => .error (operation ++ ": project \"" ++ projectId ++ "\" not found")
  | .error message => .error message

/-- The task with an id; `kind` says in the error what it is for. -/
def requireTask (operation kind : String) (doc : Project) (taskId : String) : Except String Task :=
  match findTask doc taskId with
  | some task => .ok task
  | none => .error (operation ++ ": " ++ kind ++ " \"" ++ taskId ++ "\" not found")

def textOf (message : String) (accepts : String → Bool) : Value → Except String String
  | .string text => if accepts text then .ok text else .error message
  | _ => .error message

def nonEmptyText (message : String) : Value → Except String String :=
  textOf message fun text => decide (text ≠ "")

def ensure (holds : Bool) (message : String) : Except String Unit :=
  if holds then .ok () else .error message

/-- The parent that a task is moved to, which must be there and not below it. -/
def newParentOf (runtime : Runtime) (operation cycle : String) (doc : Project)
    (taskId : String) : Value → Except String (Option String)
  | .undefined => .ok none
  | .null => .ok none
  | .string newParent => do
      let _ ← requireTask operation "parent task" doc newParent
      let _ ← ensure (!wouldCreateParentCycle doc taskId (some newParent)) cycle
      return some newParent
  | other => .error (operation ++ ": parent task \"" ++ runtime.text other ++ "\" not found")

def guardStatus (doc : Project) (task : Task) : Option TaskStatus → Except String Unit
  | some .inProgress => assertCanStart doc task
  | some .done => assertCanComplete doc task
  | _ => .ok ()

def closeSubtree (doc : Project) (taskId : String) : Option TaskStatus → Project
  | some .done => cascadeDone doc taskId
  | _ => doc

def dependencyIdsOf (operation : String) : Value → Except String (List String)
  | .array items =>
    match items.mapM fun item =>
      match item with
      | .string id => if id = "" then none else some id
      | _ => none with
    | some ids => .ok ids.eraseDups
    | none => .error (operation ++ ": dependencyIds must be an array of non-empty task ids")
  | _ => .error (operation ++ ": dependencyIds must be an array of non-empty task ids")

def checkDependencies (operation : String) (doc : Project) (taskId : String) :
    List String → Except String Unit
  | [] => .ok ()
  | id :: ids => do
      let _ ← ensure (decide (id ≠ taskId)) (operation ++ ": a task cannot depend on itself")
      let _ ← requireTask operation "dependency task" doc id
      checkDependencies operation doc taskId ids

def replaceDependencies (operation : String) (doc : Project) (taskId : String)
    (ids : List String) : Except String Project := do
  let _ ← checkDependencies operation doc taskId ids
  let _ ← ensure (!wouldCreateDependencyCycle doc taskId ids)
    (operation ++ ": dependency set would create a cycle")
  return doc.modifyTask taskId fun task => syncDependencyFields task ids

section

structure AddTaskInput where
  fields : PatchInput
  parentTaskId : Value := .undefined

structure UpdateTaskInput where
  taskId : String
  fields : PatchInput
  parentTaskId : Value := .undefined

structure SetDependencyInput where
  taskId : String
  predecessorTaskId : String
  type : Value := .undefined
  lagDays : Value := .undefined

variable (runtime : Runtime) (around : Surroundings)

def isNamed : Value → Bool
  | .string name => decide (Calc.trim name.toList ≠ [])
  | _ => false

def addedParentOf (doc : Project) : Value → Except String (Option String)
  | .undefined => .ok none
  | .string parent => (requireTask "addTask" "parent task" doc parent).map fun _ => some parent
  | other => .error ("addTask: parent task \"" ++ runtime.text other ++ "\" not found")

def rawAddTask (projectId : String) (input : AddTaskInput) (stored : StoredProject) :
    Except String Applied := do
  let _ ← ensure (isNamed input.fields.name) "addTask: name must be a non-empty string"
  let patch ← validatePatch runtime input.fields
  let _ ← assertChronology runtime patch.start patch.finish
  let doc ← requireProject "addTask" projectId stored
  let parentTaskId ← addedParentOf runtime doc input.parentTaskId
  return saveProject around
    { doc with tasks := doc.tasks ++ [patch.newTask around.freshId parentTaskId] } "addTask"

def moveUpdated (doc : Project) (task : Task) : Value → Except String (Project × Task)
  | .undefined => .ok (doc, task)
  | parent =>
    (newParentOf runtime "updateTask" "updateTask: moving the task would create a cycle" doc
      task.id parent).map fun newParent =>
        (doc.modifyTask task.id fun task => { task with parentTaskId := newParent },
          { task with parentTaskId := newParent })

def rawUpdateTask (projectId : String) (input : UpdateTaskInput) (stored : StoredProject) :
    Except String Applied := do
  let doc ← requireProject "updateTask" projectId stored
  let task ← requireTask "updateTask" "task" doc input.taskId
  let patch ← validatePatch runtime input.fields
  let moved ← moveUpdated runtime (doc.modifyTask input.taskId patch.apply) (patch.apply task)
    input.parentTaskId
  let _ ← assertChronology runtime moved.2.start moved.2.finish
  let _ ← guardStatus moved.1 moved.2 patch.status
  return saveProject around (closeSubtree moved.1 input.taskId patch.status) "updateTask"

def dependencyTypeOf : Value → Except String DependencyType
  | .undefined => .ok .FS
  | .null => .ok .FS
  | .string type =>
    match DependencyType.ofText type with
    | some type => .ok type
    | none => .error "setDependency: type must be one of FS, SS, FF, SF"
  | _ => .error "setDependency: type must be one of FS, SS, FF, SF"

def lagDaysOf : Value → Except String Binary64
  | .undefined => .ok (.ofInt 0)
  | .null => .ok (.ofInt 0)
  | .number lagDays =>
    if isFinite lagDays then .ok lagDays else .error "setDependency: lagDays must be a number"
  | _ => .error "setDependency: lagDays must be a number"

def setPredecessor (doc : Project) (task : Task) (predecessor : Predecessor) :
    Except String (List Predecessor) :=
  if predecessor.taskId ∈ predecessorsOf task then
    .ok (task.predecessors.replaceF fun existing =>
      if existing.taskId = predecessor.taskId then some predecessor else none)
  else if wouldCreateCycle doc task.id predecessor.taskId then
    .error "setDependency: dependency would create a cycle"
  else .ok (task.predecessors ++ [predecessor])

def rawSetDependency (projectId : String) (input : SetDependencyInput) (stored : StoredProject) :
    Except String Applied := do
  let type ← dependencyTypeOf input.type
  let lagDays ← lagDaysOf input.lagDays
  let doc ← requireProject "setDependency" projectId stored
  let task ← requireTask "setDependency" "task" doc input.taskId
  let _ ← requireTask "setDependency" "predecessor task" doc input.predecessorTaskId
  let predecessors ← setPredecessor doc task { taskId := input.predecessorTaskId, type, lagDays }
  return saveProject around (doc.modifyTask input.taskId fun task =>
      syncDependencyFields { task with predecessors } (predecessors.map Predecessor.taskId))
    "setDependency"

def rawSetDependencies (projectId taskId : String) (dependencyIds : Value)
    (stored : StoredProject) : Except String Applied := do
  let ids ← dependencyIdsOf "setDependencies" dependencyIds
  let doc ← requireProject "setDependencies" projectId stored
  let _ ← requireTask "setDependencies" "task" doc taskId
  let replaced ← replaceDependencies "setDependencies" doc taskId ids
  return saveProject around replaced "setDependencies"

def rawDelegateTask (projectId taskId peerId : String) (stored : StoredProject) :
    Except String Applied := do
  let _ ← ensure (decide (peerId ≠ "")) "delegateTask: peerId must be a non-empty string"
  let doc ← requireProject "delegateTask" projectId stored
  let _ ← requireTask "delegateTask" "task" doc taskId
  return saveProject around ((addMemberToList doc peerId).modifyTask taskId fun task =>
      { task with delegation := some { assignedTo := peerId, status := .pending } })
    "delegateTask"

def readContacts : Except String (List String) :=
  match around.contacts with
  | some contacts => .ok contacts
  | none => .error "assignResource: no read access to contacts storage"

def rawAssignResource (projectId taskId contactPeerId : String) (stored : StoredProject) :
    Except String Applied := do
  let doc ← requireProject "assignResource" projectId stored
  let _ ← requireTask "assignResource" "task" doc taskId
  let contacts ← readContacts around
  let _ ← ensure (contacts.contains contactPeerId)
    ("assignResource: contact \"" ++ contactPeerId ++ "\" not found")
  let imported : Project :=
    { doc with contacts := doc.contacts ++ [⟨around.freshId, contactPeerId⟩] }
  return saveProject around (imported.modifyTask taskId fun task =>
      { task with resourceAssignments := task.resourceAssignments ++ [around.freshId] })
    "assignResource"

def rawAddMember (projectId : String) (peerId : Value) (stored : StoredProject) :
    Except String Applied := do
  let peerId ← nonEmptyText "addMember: peerId must be a non-empty string" peerId
  let doc ← requireProject "addMember" projectId stored
  return saveProject around (addMemberToList doc peerId)
    (if isMember doc peerId then "memberAlreadyPresent" else "addMember")

def rawUpdateBudget (projectId : String) (budgetCents spentCents : Value)
    (stored : StoredProject) : Except String Applied := do
  let doc ← requireProject "updateBudget" projectId stored
  let budget ←
    nonNegativeInteger "updateBudget: budgetCents must be a non-negative integer" budgetCents
  let spent ←
    nonNegativeInteger "updateBudget: spentCents must be a non-negative integer" spentCents
  return saveProject around
    { doc with budgetCents := budget.or doc.budgetCents, spentCents := spent.or doc.spentCents }
    "updateBudget"

def readNote (noteId : String) : Except String String :=
  match around.note with
  | .found targetClass => .ok targetClass
  | .noAccess => .error "attachNote: no read access to notepad storage"
  | .notFound => .error ("attachNote: note \"" ++ noteId ++ "\" not found")
  | .noRoot => .error ("attachNote: note \"" ++ noteId ++ "\" has no root object")

def rawAttachNote (projectId : String) (noteId : Value) (stored : StoredProject) :
    Except String Applied := do
  let noteId ← nonEmptyText "attachNote: noteId must be a non-empty string" noteId
  let doc ← requireProject "attachNote" projectId stored
  let targetClass ← readNote around noteId
  return saveProject around { doc with
      embedded := doc.embedded ++
        [{ id := around.freshId, targetClass, targetId := noteId, attachedAt := around.now }]
      noteRef := some around.freshId }
    "attachNote"

end

inductive MutationType
  | createSubtask
  | moveTask
  | updateStatus
  | logTime
  | acceptDelegation
  | declineDelegation
  | submitCompletionProof
  | setDependencies
  deriving DecidableEq, Repr

def MutationType.ofText : String → Option MutationType
  | "CREATE_SUBTASK" => some .createSubtask
  | "MOVE_TASK" => some .moveTask
  | "UPDATE_STATUS" => some .updateStatus
  | "LOG_TIME" => some .logTime
  | "ACCEPT_DELEGATION" => some .acceptDelegation
  | "DECLINE_DELEGATION" => some .declineDelegation
  | "SUBMIT_COMPLETION_PROOF" => some .submitCompletionProof
  | "SET_DEPENDENCIES" => some .setDependencies
  | _ => none

structure RequestPayload where
  fields : PatchInput := {}
  newParentTaskId : Value := .undefined
  start : Value := .undefined
  finish : Value := .undefined
  proof : Value := .undefined
  dependencyIds : Value := .undefined

structure ProjectMutationRequest where
  type : Value
  taskId : Value
  payload : RequestPayload := {}

def mutationTypeOf : Value → Except String MutationType
  | .string type =>
    match MutationType.ofText type with
    | some type => .ok type
    | none => .error message
  | _ => .error message
where
  message : String :=
    "requestMutation: type must be one of CREATE_SUBTASK, MOVE_TASK, UPDATE_STATUS, LOG_TIME, " ++
      "ACCEPT_DELEGATION, DECLINE_DELEGATION, SUBMIT_COMPLETION_PROOF, SET_DEPENDENCIES"

/-- Whether the sender is a contact that is not blocked, where that can be
looked up. -/
def TrustLookup.isKnown : TrustLookup → Bool
  | notWired => true
  | failed => false
  | unknown => false
  | contact blocked => !blocked

/-- The delegation of a task to the sender, which must be in a status. -/
def delegateeOf (task : Task) (senderPeerId : String) : Except String TaskDelegation :=
  match task.delegation with
  | some delegation =>
    if delegation.assignedTo = senderPeerId then .ok delegation
    else .error ("requestMutation: peer \"" ++ senderPeerId ++
      "\" is not the assignee of this task")
  | none => .error ("requestMutation: peer \"" ++ senderPeerId ++
      "\" is not the assignee of this task")

def requestDate (runtime : Runtime) (field : String) : Value → Except String String :=
  textOf ("requestMutation: " ++ field ++ " must be an ISO 8601 date string") (isIsoDate runtime)

def isHexDigit (char : Char) : Bool :=
  char.isDigit || decide ('a' ≤ char ∧ char ≤ 'f') || decide ('A' ≤ char ∧ char ≤ 'F')

def isHex (text : String) : Bool :=
  decide (text.toList ≠ []) && text.toList.all isHexDigit && decide (text.toList.length % 2 = 0)

def completionProofDomainPrefix : String :=
  "p2p-hub:tasks:completion-proof:v1:"

/-- The fields of a completion proof, checked against its sender. -/
def proofOf (runtime : Runtime) (senderPeerId : String) : Value → Except String TaskCompletionProof
  | .object fields => do
      let signedBy ← textOf "requestMutation: proof.signedBy must equal the transport-verified sender"
        (fun text => decide (text = senderPeerId)) (Value.field fields "signedBy")
      let timestamp ← requestDate runtime "proof.timestamp" (Value.field fields "timestamp")
      let signatureHex ← textOf "requestMutation: proof.signatureHex must be hex" isHex
        (Value.field fields "signatureHex")
      return { signedBy, timestamp, signatureHex }
  | _ => .error "requestMutation: a completion proof is required"

section

variable (runtime : Runtime) (around : Surroundings) (doc : Project) (task : Task)
  (senderPeerId : String) (payload : RequestPayload)

def createSubtask : Except String Applied := do
  let patch ← validatePatch runtime { payload.fields with estimatedHours := .undefined }
  let _ ← assertChronology runtime patch.start patch.finish
  return saveProject around
    { doc with tasks := doc.tasks ++ [patch.newTask around.freshId (some task.id)] }
    "createSubtask"

def moveTask : Except String Applied := do
  let newParent ← newParentOf runtime "requestMutation" "requestMutation: move would create a cycle"
    doc task.id payload.newParentTaskId
  return saveProject around
    (doc.modifyTask task.id fun task => { task with parentTaskId := newParent }) "moveTask"

/-- The guard stands before the status is written.  A status that is missing is
written as missing. -/
def updateStatus : Except String Applied := do
  let patch ← validatePatch runtime { status := payload.fields.status }
  let _ ← guardStatus doc task patch.status
  let written := doc.modifyTask task.id fun task => { task with status := patch.status }
  return saveProject around (closeSubtree written task.id patch.status) "updateStatus"

def logTime : Except String Applied := do
  let start ← requestDate runtime "start" payload.start
  let finish ← requestDate runtime "end" payload.finish
  let _ ← ensure (!isBefore finish start) "requestMutation: end must not be before start"
  return saveProject around (doc.modifyTask task.id fun task =>
      { task with timeEntries := task.timeEntries ++ [⟨task.id, senderPeerId, start, finish⟩] })
    "logTime"
where
  /-- Whether one date is before another. -/
  isBefore (first second : String) : Bool :=
    match runtime.parseDate first, runtime.parseDate second with
    | some firstTime, some secondTime => decide (firstTime < secondTime)
    | _, _ => false

def answerDelegation (answer : DelegationStatus) (action : String) : Except String Applied := do
  let delegation ← delegateeOf task senderPeerId
  let _ ← ensure (decide (delegation.status = .pending))
    ("requestMutation: delegation for task \"" ++ task.id ++ "\" is not pending (status: " ++
      delegation.status.text ++ ")")
  return saveProject around (doc.modifyTask task.id fun task =>
      { task with delegation := some { assignedTo := delegation.assignedTo, status := answer } })
    action

def acceptDelegation : Except String Applied :=
  answerDelegation around doc task senderPeerId .accepted "acceptDelegation"

def declineDelegation : Except String Applied :=
  answerDelegation around doc task senderPeerId .declined "declineDelegation"

def submitCompletionProof (projectId : String) : Except String Applied := do
  let delegation ← delegateeOf task senderPeerId
  let _ ← ensure (decide (delegation.status = .accepted))
    ("requestMutation: delegation for task \"" ++ task.id ++ "\" must be accepted before a " ++
      "completion proof can be submitted (status: " ++ delegation.status.text ++ ")")
  let proof ← proofOf runtime senderPeerId payload.proof
  let _ ← ensure (runtime.verify proof.signedBy completionProofDomainPrefix
      (task.id ++ ":" ++ projectId ++ ":" ++ proof.timestamp) proof.signatureHex)
    "requestMutation: completion proof signature verification failed"
  let _ ← guardStatus doc task (some .done)
  let written := doc.modifyTask task.id fun task =>
    { task with status := some .done, completionProof := some proof }
  return saveProject around (closeSubtree written task.id (some .done)) "submitCompletionProof"

def setDependencies : Except String Applied := do
  let ids ← dependencyIdsOf "requestMutation" payload.dependencyIds
  let replaced ← replaceDependencies "requestMutation" doc task.id ids
  return saveProject around replaced "setDependencies"

def applyCase (projectId : String) : MutationType → Except String Applied
  | .createSubtask => createSubtask runtime around doc task payload
  | .moveTask => moveTask runtime around doc task payload
  | .updateStatus => updateStatus runtime around doc task payload
  | .logTime => logTime runtime around doc task senderPeerId payload
  | .acceptDelegation => acceptDelegation around doc task senderPeerId
  | .declineDelegation => declineDelegation around doc task senderPeerId
  | .submitCompletionProof =>
    submitCompletionProof runtime around doc task senderPeerId payload projectId
  | .setDependencies => setDependencies around doc task payload

end

def applyRequestMutation (runtime : Runtime) (around : Surroundings) (projectId : String)
    (senderPeerId : String) (request : ProjectMutationRequest) (stored : StoredProject) :
    Except String Applied := do
  let _ ← ensure (decide (senderPeerId ≠ ""))
    "requestMutation: no transport-verified sender identity"
  let type ← mutationTypeOf request.type
  let taskId ← nonEmptyText "requestMutation: taskId must be a non-empty string" request.taskId
  let doc ← requireProject "requestMutation" projectId stored
  let _ ← ensure (isMember doc senderPeerId)
    ("requestMutation: peer \"" ++ senderPeerId ++ "\" is not a member of the project")
  let _ ← ensure around.trust.isKnown
    ("requestMutation: peer \"" ++ senderPeerId ++ "\" is not a verified contact")
  let task ← requireTask "requestMutation" "task" doc taskId
  applyCase runtime around doc task senderPeerId request.payload projectId type

/-- The mutations that go through the queue of a project. -/
inductive Mutation
  | addTask (input : AddTaskInput)
  | updateTask (input : UpdateTaskInput)
  | setDependency (input : SetDependencyInput)
  | setDependencies (taskId : String) (dependencyIds : Value)
  | delegateTask (taskId peerId : String)
  | assignResource (taskId contactPeerId : String)
  | addMember (peerId : Value)
  | updateBudget (budgetCents spentCents : Value)
  | attachNote (noteId : Value)
  | request (senderPeerId : String) (body : ProjectMutationRequest)

def Mutation.apply (mutation : Mutation) (runtime : Runtime) (around : Surroundings)
    (projectId : String) (stored : StoredProject) : Except String Applied :=
  match mutation with
  | addTask input => rawAddTask runtime around projectId input stored
  | updateTask input => rawUpdateTask runtime around projectId input stored
  | setDependency input => rawSetDependency around projectId input stored
  | setDependencies taskId dependencyIds =>
    rawSetDependencies around projectId taskId dependencyIds stored
  | delegateTask taskId peerId => rawDelegateTask around projectId taskId peerId stored
  | assignResource taskId contactPeerId =>
    rawAssignResource around projectId taskId contactPeerId stored
  | addMember peerId => rawAddMember around projectId peerId stored
  | updateBudget budgetCents spentCents =>
    rawUpdateBudget around projectId budgetCents spentCents stored
  | attachNote noteId => rawAttachNote around projectId noteId stored
  | request senderPeerId body =>
    applyRequestMutation runtime around projectId senderPeerId body stored

def createProject (around : Surroundings) (ownerPeerId : String) (name budgetCents : Value) :
    Except String Project := do
  let name ← projectName name
  let budget ←
    nonNegativeInteger "createProject: budgetCents must be a non-negative integer" budgetCents
  return {
    id := around.freshId
    name := name
    createdAt := around.now
    updatedAt := around.now
    tasks := []
    members := [ownerPeerId]
    mutationSeq := 0
    budgetCents := budget
    spentCents := none
    noteRef := none
    contacts := []
    embedded := [] }
where
  projectName : Value → Except String String
    | .string name =>
      let trimmed := String.ofList (Calc.trim name.toList)
      if trimmed = "" then .error "createProject: name must not be empty" else .ok trimmed
    | _ => .error "createProject: name must not be empty"

end P2PHub.SmartTasks
