import P2PHub.ProjectHistories
import P2PHub.PromiseQueues

/-!
# The mutation queue

The mutations of all projects as they run beside each other, after
`projectQueue` of `plugins/tasks/src/index.ts` and the storage below it.  A
mutation waits for the last one of its project, reads the file of the plugin,
waits for what it looks up elsewhere, and has its document written.  A write
waits for the last write, loads the whole file, and replaces it with one entry
changed.  Then come the hooks, and the mutation settles.
-/

namespace P2PHub.SmartTasks

open PromiseQueue

abbrev ProjectFile :=
  OrderedMap String Project

/-- How far the run of a mutation has come. -/
inductive CallPhase
  | enqueued
  | started
  | read (readError : Option String) (stored : Option Project)
  | saving (readError : Option String) (around : Surroundings) (applied : Applied)
  | notifying (turn : Turn) (applied : Applied)
  | settled (turn : Turn) (result : Except String Applied)

structure Call where
  mutation : Mutation
  phase : CallPhase

def Call.stage (call : Call) : Stage :=
  match call.phase with
  | .enqueued => .waiting
  | .settled _ _ => .settled
  | _ => .running

def Call.done (call : Call) : Option (Turn × Except String Applied) :=
  match call.phase with
  | .notifying turn applied => some (turn, .ok applied)
  | .settled turn result => some (turn, result)
  | _ => none

inductive WritePhase
  | enqueued
  | loaded (file : ProjectFile)
  | settled

/-- A write of a document, for the mutation that waits for it or for the
creation of a project. -/
structure Write where
  projectId : String
  doc : Project
  caller : Option Nat
  phase : WritePhase

def Write.stage (write : Write) : Stage :=
  match write.phase with
  | .enqueued => .waiting
  | .loaded _ => .running
  | .settled => .settled

/-- The plugin: its mutations by their projects, its writes, its file, and what
each project started with. -/
structure TasksPlugin where
  queue : PromiseQueue String Call
  writes : PromiseQueue Unit Write
  file : ProjectFile
  origins : ProjectFile

def TasksPlugin.activate (file : ProjectFile) : TasksPlugin :=
  ⟨.empty, .empty, file, file⟩

def WriteOutcome.stores : WriteOutcome → Bool
  | written => true
  | failed _ => false
  | notReleased _ => true

def Write.land (write : Write) (loaded file : ProjectFile) (outcome : WriteOutcome) : ProjectFile :=
  if outcome.stores then loaded.set write.projectId write.doc else file

def afterWrite (turn : Turn) (applied : Applied) : CallPhase :=
  match turn.write with
  | .written => .notifying turn applied
  | .failed message => .settled turn (.error message)
  | .notReleased message => .settled turn (.error message)

def TasksPlugin.proceed (plugin : TasksPlugin) (index : Nat) (call : Call) (phase : CallPhase) :
    TasksPlugin :=
  { plugin with queue := plugin.queue.update index { call with phase } }

def TasksPlugin.proceedWrite (plugin : TasksPlugin) (index : Nat) (write : Write)
    (phase : WritePhase) : TasksPlugin :=
  { plugin with writes := plugin.writes.update index { write with phase } }

def TasksPlugin.write (plugin : TasksPlugin) (doc : Project) (projectId : String)
    (caller : Option Nat) : TasksPlugin :=
  { plugin with writes := plugin.writes.enqueue () ⟨projectId, doc, caller, .enqueued⟩ }

inductive TasksStep (runtime : Runtime) : TasksPlugin → TasksPlugin → Prop
  | enqueue {plugin : TasksPlugin} {projectId : String} {mutation : Mutation} :
      TasksStep runtime plugin
        { plugin with queue := plugin.queue.enqueue projectId ⟨mutation, .enqueued⟩ }
  | start {plugin : TasksPlugin} {index : Nat} {run : QueuedRun String Call}
      (found : plugin.queue.runs[index]? = some run)
      (ready : plugin.queue.Ready Call.stage index) :
      TasksStep runtime plugin (plugin.proceed index run.job .started)
  | read {plugin : TasksPlugin} {index : Nat} {run : QueuedRun String Call}
      {readError : Option String} (found : plugin.queue.runs[index]? = some run)
      (phase : run.job.phase = .started) :
      TasksStep runtime plugin
        (plugin.proceed index run.job (.read readError (plugin.file.get run.key)))
  | refuse {plugin : TasksPlugin} {index : Nat} {run : QueuedRun String Call}
      {stored : Option Project} {turn : Turn} {message : String}
      (found : plugin.queue.runs[index]? = some run)
      (phase : run.job.phase = .read turn.readError stored)
      (mutation : turn.mutation = run.job.mutation)
      (refuses : turn.mutation.apply runtime turn.around run.key (turn.read stored) =
        .error message) :
      TasksStep runtime plugin (plugin.proceed index run.job (.settled turn (.error message)))
  | save {plugin : TasksPlugin} {index : Nat} {run : QueuedRun String Call}
      {stored : Option Project} {turn : Turn} {applied : Applied}
      (found : plugin.queue.runs[index]? = some run)
      (phase : run.job.phase = .read turn.readError stored)
      (mutation : turn.mutation = run.job.mutation)
      (applies : turn.mutation.apply runtime turn.around run.key (turn.read stored) = .ok applied) :
      TasksStep runtime plugin
        ((plugin.proceed index run.job (.saving turn.readError turn.around applied)).write
          applied.doc run.key (some index))
  | create {plugin : TasksPlugin} {around : Surroundings} {ownerPeerId : String}
      {name budgetCents : Value} {doc : Project}
      (creates : createProject around ownerPeerId name budgetCents = .ok doc) :
      TasksStep runtime plugin (plugin.write doc doc.id none)
  | load {plugin : TasksPlugin} {index : Nat} {run : QueuedRun Unit Write}
      (found : plugin.writes.runs[index]? = some run)
      (ready : plugin.writes.Ready Write.stage index) :
      TasksStep runtime plugin (plugin.proceedWrite index run.job (.loaded plugin.file))
  | landMutation {plugin : TasksPlugin} {index caller : Nat} {run : QueuedRun Unit Write}
      {call : QueuedRun String Call} {loaded : ProjectFile} {turn : Turn} {applied : Applied}
      (found : plugin.writes.runs[index]? = some run) (phase : run.job.phase = .loaded loaded)
      (isCaller : run.job.caller = some caller)
      (called : plugin.queue.runs[caller]? = some call)
      (waits : call.job.phase = .saving turn.readError turn.around applied)
      (mutation : turn.mutation = call.job.mutation) :
      TasksStep runtime plugin
        { (plugin.proceedWrite index run.job .settled).proceed caller call.job
            (afterWrite turn applied) with
          file := run.job.land loaded plugin.file turn.write }
  | landCreation {plugin : TasksPlugin} {index : Nat} {run : QueuedRun Unit Write}
      {loaded : ProjectFile} {outcome : WriteOutcome}
      (found : plugin.writes.runs[index]? = some run) (phase : run.job.phase = .loaded loaded)
      (creation : run.job.caller = none)
      (fresh : ∀ call ∈ plugin.queue.runs, call.key ≠ run.job.projectId) :
      TasksStep runtime plugin { plugin.proceedWrite index run.job .settled with
          file := run.job.land loaded plugin.file outcome
          origins := run.job.land plugin.origins plugin.origins outcome }
  | notified {plugin : TasksPlugin} {index : Nat} {run : QueuedRun String Call} {turn : Turn}
      {applied : Applied} (found : plugin.queue.runs[index]? = some run)
      (phase : run.job.phase = .notifying turn applied) :
      TasksStep runtime plugin (plugin.proceed index run.job (.settled turn (.ok applied)))

/-- The states that are reached from a file. -/
inductive TasksReach (runtime : Runtime) (file : ProjectFile) : TasksPlugin → Prop
  | activated : TasksReach runtime file (.activate file)
  | stepped {plugin after : TasksPlugin} (reached : TasksReach runtime file plugin)
      (step : TasksStep runtime plugin after) : TasksReach runtime file after

/-- The mutations of a history are applied one after the other. -/
def Serially (runtime : Runtime) (projectId : String) :
    Option Project → List (Turn × Except String Applied) → Option Project → Prop
  | stored, [], last => last = stored
  | stored, (turn, result) :: rest, last =>
    ∃ after, turn.take runtime projectId stored = (after, result) ∧
      Serially runtime projectId after rest last

theorem serially_append {runtime : Runtime} {projectId : String}
    {stored middle last : Option Project} {first second : List (Turn × Except String Applied)}
    (before : Serially runtime projectId stored first middle)
    (after : Serially runtime projectId middle second last) :
    Serially runtime projectId stored (first ++ second) last := by
  induction first generalizing stored with
  | nil => exact before ▸ after
  | cons entry rest ih =>
    obtain ⟨turn, result⟩ := entry
    obtain ⟨next, takes, continues⟩ := before
    exact ⟨next, takes, ih continues⟩

/-- What has come of the mutations of a project, in the order of the queue. -/
def TasksPlugin.history (plugin : TasksPlugin) (projectId : String) :
    List (Turn × Except String Applied) :=
  plugin.queue.results Call.done projectId

/-- A run that has read the project finds there what is stored now. -/
structure ReadsFile (runtime : Runtime) (file : ProjectFile) (run : QueuedRun String Call) :
    Prop where
  read : ∀ readError stored, run.job.phase = .read readError stored → stored = file.get run.key
  saving : ∀ (turn : Turn) (applied : Applied), turn.mutation = run.job.mutation →
    run.job.phase = .saving turn.readError turn.around applied →
    turn.mutation.apply runtime turn.around run.key (turn.read (file.get run.key)) = .ok applied

/-- A mutation whose document is to be written, or was. -/
def Call.wrote (call : Call) : Prop :=
  match call.phase with
  | .enqueued => False
  | .started => False
  | .read _ _ => False
  | _ => True

/-- A write has the document of the mutation that waits for it. -/
def WritesFor (queue : PromiseQueue String Call) (write : Write) : Prop :=
  ∀ caller, write.caller = some caller → ∃ call, queue.runs[caller]? = some call ∧
    call.job.wrote ∧ ∀ readError around applied, call.job.phase = .saving readError around applied →
      write.projectId = call.key ∧ write.doc = applied.doc

/-- A project that `createProject` makes. -/
def Created (projectId : String) (doc : Project) : Prop :=
  doc.id = projectId ∧ ∃ around ownerPeerId name budgetCents,
    createProject around ownerPeerId name budgetCents = .ok doc

structure Serialized (runtime : Runtime) (initial : ProjectFile) (plugin : TasksPlugin) :
    Prop where
  queue : plugin.queue.Chained Call.stage
  writes : plugin.writes.Chained Write.stage
  loaded : ∀ {index : Nat} {run : QueuedRun Unit Write} {file : ProjectFile},
    plugin.writes.runs[index]? = some run → run.job.phase = .loaded file → file = plugin.file
  reads : ∀ {index : Nat} {run : QueuedRun String Call},
    plugin.queue.runs[index]? = some run → ReadsFile runtime plugin.file run
  owned : ∀ {index : Nat} {run : QueuedRun String Call} {turn : Turn}
    {result : Except String Applied}, plugin.queue.runs[index]? = some run →
    run.job.done = some (turn, result) → turn.mutation = run.job.mutation
  writesFor : ∀ {index : Nat} {run : QueuedRun Unit Write},
    plugin.writes.runs[index]? = some run → WritesFor plugin.queue run.job
  creations : ∀ {index : Nat} {run : QueuedRun Unit Write},
    plugin.writes.runs[index]? = some run → run.job.caller = none →
    Created run.job.projectId run.job.doc
  origins : ∀ projectId, plugin.origins.get projectId = initial.get projectId ∨
    ∃ doc, plugin.origins.get projectId = some doc ∧ Created projectId doc
  serial : ∀ projectId, Serially runtime projectId (plugin.origins.get projectId)
    (plugin.history projectId) (plugin.file.get projectId)

variable {runtime : Runtime} {initial : ProjectFile} {plugin : TasksPlugin} {index : Nat}
  {run : QueuedRun String Call} {phase : CallPhase}

theorem started_of_done (call : Call) (done : call.done ≠ none) : call.stage ≠ .waiting := by
  cases call with
  | mk mutation phase => cases phase <;> simp_all [Call.done, Call.stage]

theorem done_of_settled (call : Call) (settled : call.stage = .settled) : call.done ≠ none := by
  cases call with
  | mk mutation phase => cases phase <;> simp_all [Call.done, Call.stage]

theorem waiting_iff (call : Call) : call.stage = .waiting ↔ call.phase = .enqueued := by
  cases call with
  | mk mutation phase => cases phase <;> simp [Call.stage]

variable (serialized : Serialized runtime initial plugin)
    (found : plugin.queue.runs[index]? = some run)
include serialized found

theorem Serialized.proceed (unsettled : run.job.stage ≠ .settled)
    (starts : run.job.stage = .waiting → plugin.queue.Ready Call.stage index)
    (reads : ReadsFile runtime plugin.file { run with job := { run.job with phase } })
    (wrote : run.job.wrote → Call.wrote { run.job with phase } ∧
      ∀ readError around applied, phase ≠ .saving readError around applied)
    (owned : ∀ turn result, Call.done { run.job with phase } = some (turn, result) →
      turn.mutation = run.job.mutation)
    (serial : ∀ projectId, Serially runtime projectId (plugin.origins.get projectId)
      ((plugin.proceed index run.job phase).history projectId) (plugin.file.get projectId)) :
    Serialized runtime initial (plugin.proceed index run.job phase) where
  queue := by
    apply serialized.queue.update
    · intro other isOther waits
      cases found.symm.trans isOther
      exact starts waits
    · intro other isOther settled
      cases found.symm.trans isOther
      exact absurd settled unsettled
  writes := serialized.writes
  loaded := serialized.loaded
  reads := by
    intro other after isOther
    rcases runs_update isOther with ⟨-, old⟩ | ⟨-, before, isBefore, rfl⟩
    · exact serialized.reads old
    · cases found.symm.trans isBefore
      exact reads
  owned := by
    intro other after turn result isOther done
    rcases runs_update isOther with ⟨-, old⟩ | ⟨-, before, isBefore, rfl⟩
    · exact serialized.owned old done
    · cases found.symm.trans isBefore
      exact owned turn result done
  writesFor := by
    intro other write isWrite caller isCaller
    obtain ⟨call, called, hasWritten, same⟩ := serialized.writesFor isWrite caller isCaller
    by_cases isIndex : caller = index
    · subst isIndex
      cases found.symm.trans called
      obtain ⟨still, notSaving⟩ := wrote hasWritten
      refine ⟨_, runs_update_self found, still, ?_⟩
      exact fun readError around applied saves => absurd saves (notSaving readError around applied)
    · exact ⟨call, (runs_update_of_ne isIndex).trans called, hasWritten, same⟩
  creations := serialized.creations
  origins := serialized.origins
  serial := serial

theorem Serialized.serial_same (same : Call.done { run.job with phase } = run.job.done) :
    ∀ projectId, Serially runtime projectId (plugin.origins.get projectId)
      ((plugin.proceed index run.job phase).history projectId) (plugin.file.get projectId) := by
  intro projectId
  have kept : (plugin.proceed index run.job phase).history projectId = plugin.history projectId :=
    results_update_same found same
  rw [kept]
  exact serialized.serial projectId

theorem Serialized.history_grows (unfinished : run.job.done = none)
    {entry : Turn × Except String Applied} (finished : Call.done { run.job with phase } =
    some entry) (projectId : String) :
    (plugin.queue.update index { run.job with phase }).results Call.done projectId =
      plugin.history projectId ++ if run.key = projectId then [entry] else [] := by
  apply serialized.queue.results_update started_of_done found unfinished ?_ finished
  intro settled
  exact done_of_settled run.job settled unfinished

end P2PHub.SmartTasks
