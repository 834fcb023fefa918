import P2PHub.ProjectGuards
import P2PHub.ProjectQueue

/-!
# Serialization of mutations

In every interleaving the file holds for each project what its mutations make of
it one after the other, in the order of the queue.
-/

namespace P2PHub.SmartTasks

open PromiseQueue TasksPlugin Call TasksStep

section

variable {runtime : Runtime} {initial : ProjectFile} {plugin : TasksPlugin} {index : Nat}
  {run : QueuedRun String Call} {projectId : String} {stored : Option Project} {turn : Turn}
  {applied : Applied} {write : QueuedRun Unit Write} {loaded : ProjectFile} {outcome : WriteOutcome}
  {call : QueuedRun String Call}

theorem done_of_enqueued (waits : run.job.stage = .waiting) : run.job.done = none := by
  have phase := (waiting_iff run.job).mp waits
  simp [done, phase]

section

variable (serialized : Serialized runtime initial plugin)
include serialized

theorem Serialized.enqueue {mutation : Mutation} : Serialized runtime initial
      { plugin with queue := plugin.queue.enqueue projectId ⟨mutation, .enqueued⟩ } where
  queue := serialized.queue.enqueue rfl
  writes := serialized.writes
  loaded := serialized.loaded
  reads := by
    intro other run isRun
    rcases runs_enqueue isRun with old | ⟨-, rfl⟩
    · exact serialized.reads old
    · exact ⟨(fun _ _ phase => nomatch phase), (fun _ _ _ phase => nomatch phase)⟩
  owned := by
    intro other run turn result isRun done
    rcases runs_enqueue isRun with old | ⟨-, rfl⟩
    · exact serialized.owned old done
    · cases done
  writesFor := by
    intro other write isWrite caller isCaller
    obtain ⟨call, called, wrote, same⟩ := serialized.writesFor isWrite caller isCaller
    exact ⟨call, runs_enqueue_old called, wrote, same⟩
  creations := serialized.creations
  origins := serialized.origins
  serial := by
    intro other
    rw [history, results_enqueue rfl]
    exact serialized.serial other

theorem Serialized.start
    (found : plugin.queue.runs[index]? = some run) (ready : plugin.queue.Ready Call.stage index) :
    Serialized runtime initial (plugin.proceed index run.job .started) := by
  have ⟨same, isSame, waits, _⟩ := ready
  cases found.symm.trans isSame
  have phase := (waiting_iff run.job).mp waits
  apply serialized.proceed found
  · rw [waits]
    exact fun settled => nomatch settled
  · exact fun _ => ready
  · exact ⟨fun _ _ read => (by cases read), fun _ _ _ saves => (by cases saves)⟩
  · intro wrote
    simp [Call.wrote, phase] at wrote
  · exact fun turn result done => nomatch done
  · apply serialized.serial_same found
    rw [done_of_enqueued waits]
    rfl

theorem Serialized.read {readError : Option String} (found : plugin.queue.runs[index]? = some run)
    (phase : run.job.phase = .started) : Serialized runtime initial
      (plugin.proceed index run.job (.read readError (plugin.file.get run.key))) := by
  apply serialized.proceed found
  · simp [Call.stage, phase]
  · simp [Call.stage, phase]
  · refine ⟨fun _ stored isRead => ?_, fun _ _ _ saves => (by cases saves)⟩
    exact (CallPhase.read.inj isRead).2.symm
  · intro wrote
    simp [Call.wrote, phase] at wrote
  · intro turn result done
    cases done
  · apply serialized.serial_same found
    simp [Call.done, phase]

theorem Serialized.refuse {message : String} (found : plugin.queue.runs[index]? = some run)
    (phase : run.job.phase = .read turn.readError stored)
    (mutation : turn.mutation = run.job.mutation)
    (refuses : turn.mutation.apply runtime turn.around run.key (turn.read stored) =
      .error message) :
    Serialized runtime initial (plugin.proceed index run.job (.settled turn (.error message))) := by
  have isStored := (serialized.reads found).read _ _ phase
  apply serialized.proceed found
  · simp [Call.stage, phase]
  · simp [Call.stage, phase]
  · exact ⟨fun _ _ read => (by cases read), fun _ _ _ saves => (by cases saves)⟩
  · intro wrote
    simp [Call.wrote, phase] at wrote
  · intro other result done
    cases done
    exact mutation
  · intro projectId
    have unfinished : run.job.done = none := by simp [Call.done, phase]
    have finished : Call.done { run.job with phase := .settled turn (.error message) } =
        some (turn, .error message) := rfl
    have grows := serialized.history_grows found unfinished finished projectId
    rw [TasksPlugin.history, TasksPlugin.proceed, grows]
    split
    · next isKey =>
        subst isKey
        apply serially_append (serialized.serial run.key)
        refine ⟨plugin.file.get run.key, ?_, rfl⟩
        rw [Turn.take, ← isStored, refuses]
    · rw [List.append_nil]
      exact serialized.serial projectId

theorem Serialized.save (found : plugin.queue.runs[index]? = some run)
    (phase : run.job.phase = .read turn.readError stored)
    (mutation : turn.mutation = run.job.mutation)
    (applies : turn.mutation.apply runtime turn.around run.key (turn.read stored) = .ok applied) :
    Serialized runtime initial
      ((plugin.proceed index run.job (.saving turn.readError turn.around applied)).write
        applied.doc run.key (some index)) := by
  have isStored := (serialized.reads found).read _ _ phase
  have notWrote : ¬run.job.wrote := by simp [wrote, phase]
  have saves : Serialized runtime initial
      (plugin.proceed index run.job (.saving turn.readError turn.around applied)) := by
    apply serialized.proceed found
    · simp [stage, phase]
    · simp [stage, phase]
    · refine ⟨fun _ _ read => (by cases read), fun other given same saves => ?_⟩
      obtain ⟨readErrors, arounds, rfl⟩ := CallPhase.saving.inj saves
      rw [← isStored, same, ← arounds, Turn.read, ← readErrors]
      rw [mutation] at applies
      exact applies
    · exact fun wrote => absurd wrote notWrote
    · intro turn result done
      cases done
    · apply serialized.serial_same found
      simp [done, phase]
  refine ⟨saves.queue, saves.writes.enqueue rfl, ?_, saves.reads, saves.owned, ?_, ?_,
    saves.origins, saves.serial⟩
  · intro other write file isWrite isLoaded
    rcases runs_enqueue isWrite with old | ⟨-, rfl⟩
    · exact saves.loaded old isLoaded
    · cases isLoaded
  · intro other write isWrite
    rcases runs_enqueue isWrite with old | ⟨-, rfl⟩
    · exact saves.writesFor old
    · intro caller isCaller
      cases isCaller
      refine ⟨_, runs_update_self found, trivial, ?_⟩
      intro readError around given isSaving
      cases isSaving
      exact ⟨rfl, rfl⟩
  · intro other write isWrite isCreation
    rcases runs_enqueue isWrite with old | ⟨-, rfl⟩
    · exact saves.creations old isCreation
    · cases isCreation

theorem Serialized.create
    {around : Surroundings} {ownerPeerId : String} {name budgetCents : Value} {doc : Project}
    (creates : createProject around ownerPeerId name budgetCents = .ok doc) :
    Serialized runtime initial (plugin.write doc doc.id none) := by
  refine ⟨serialized.queue, serialized.writes.enqueue rfl, ?_, serialized.reads, serialized.owned,
    ?_, ?_, serialized.origins, serialized.serial⟩
  · intro other write file isWrite isLoaded
    rcases runs_enqueue isWrite with old | ⟨-, rfl⟩
    · exact serialized.loaded old isLoaded
    · cases isLoaded
  · intro other write isWrite
    rcases runs_enqueue isWrite with old | ⟨-, rfl⟩
    · exact serialized.writesFor old
    · exact fun caller isCaller => nomatch isCaller
  · intro other write isWrite isCreation
    rcases runs_enqueue isWrite with old | ⟨-, rfl⟩
    · exact serialized.creations old isCreation
    · exact ⟨rfl, around, ownerPeerId, name, budgetCents, creates⟩

theorem Serialized.load (found : plugin.writes.runs[index]? = some write)
    (ready : plugin.writes.Ready Write.stage index) : Serialized runtime initial
      (plugin.proceedWrite index write.job (.loaded plugin.file)) := by
  have ⟨same, isSame, waits, _⟩ := ready
  cases found.symm.trans isSame
  refine ⟨serialized.queue, ?_, ?_, serialized.reads, serialized.owned, ?_, ?_,
    serialized.origins, serialized.serial⟩
  · apply serialized.writes.update
    · exact fun _ _ _ => ready
    · intro other isOther settled
      cases found.symm.trans isOther
      rw [waits] at settled
      cases settled
  · intro other after file isAfter isLoaded
    rcases runs_update isAfter with ⟨-, old⟩ | ⟨-, before, -, rfl⟩
    · exact serialized.loaded old isLoaded
    · exact (WritePhase.loaded.inj isLoaded).symm
  · intro other after isAfter
    rcases runs_update isAfter with ⟨-, old⟩ | ⟨-, before, -, rfl⟩
    · exact serialized.writesFor old
    · have held := serialized.writesFor found
      exact fun caller isCaller => held caller isCaller
  · intro other after isAfter isCreation
    rcases runs_update isAfter with ⟨-, old⟩ | ⟨-, before, -, rfl⟩
    · exact serialized.creations old isCreation
    · have created := serialized.creations found
      exact created isCreation

theorem Serialized.writes_settled {file : ProjectFile}
    (found : plugin.writes.runs[index]? = some write) (phase : write.job.phase = .loaded file) :
    (plugin.writes.update index { write.job with phase := .settled }).Chained Write.stage ∧
      ∀ {other : Nat} {after : QueuedRun Unit Write} {loaded : ProjectFile},
        (plugin.writes.update index { write.job with phase := .settled }).runs[other]? =
          some after → after.job.phase ≠ .loaded loaded := by
  constructor
  · apply serialized.writes.update
    · intro other isOther waits
      cases found.symm.trans isOther
      simp [Write.stage, phase] at waits
    · exact fun _ _ _ => rfl
  · intro other after loaded isAfter isLoaded
    rcases runs_update isAfter with ⟨apart, old⟩ | ⟨-, before, -, rfl⟩
    · apply apart
      apply serialized.writes.alone old found (Subsingleton.elim _ _)
      · simp [Write.stage, isLoaded]
      · simp [Write.stage, phase]
    · cases isLoaded

end

theorem file_land {write : Write} (same : loaded = plugin.file) :
    (write.land loaded plugin.file outcome).get projectId =
      if outcome.stores ∧ projectId = write.projectId then some write.doc
      else plugin.file.get projectId := by
  subst same
  unfold Write.land
  split
  · next stores => simp [OrderedMap.get_set, stores]
  · next kept => simp [kept]

theorem done_afterWrite (mutation : Mutation) (turn : Turn) (applied : Applied) :
    ∃ result, done ⟨mutation, afterWrite turn applied⟩ = some (turn, result) ∧
      wrote ⟨mutation, afterWrite turn applied⟩ ∧
      (∀ readError around given, afterWrite turn applied ≠ .saving readError around given) ∧
      (∀ readError stored, afterWrite turn applied ≠ .read readError stored) ∧
      ∀ {runtime : Runtime} {projectId : String} {stored : Option Project},
        turn.mutation.apply runtime turn.around projectId (turn.read stored) = .ok applied →
        turn.take runtime projectId stored =
          (if turn.write.stores then some applied.doc else stored, result) := by
  unfold afterWrite
  cases written : turn.write with
  | written =>
    refine ⟨.ok applied, rfl, trivial, (fun _ _ _ same => nomatch same),
      (fun _ _ same => nomatch same), fun applies => ?_⟩
    simp [Turn.take, applies, written, WriteOutcome.stores]
  | failed message | notReleased message =>
    refine ⟨.error message, rfl, trivial, (fun _ _ _ same => nomatch same),
      (fun _ _ same => nomatch same), fun applies => ?_⟩
    simp [Turn.take, applies, written, WriteOutcome.stores]

theorem Serialized.reads_alone (serialized : Serialized runtime initial plugin) {caller : Nat}
    (called : plugin.queue.runs[caller]? = some call)
    (runs : call.job.stage = .running) {file : ProjectFile}
    (others : ∀ projectId, projectId ≠ call.key →
      file.get projectId = plugin.file.get projectId) {other : Nat}
    (apart : other ≠ caller) (isOther : plugin.queue.runs[other]? = some run) :
    ReadsFile runtime file run := by
  have held := serialized.reads isOther
  have otherKey (underway : run.job.stage = .running) : run.key ≠ call.key := by
    intro sameKey
    exact apart (serialized.queue.alone isOther called sameKey underway runs)
  constructor
  · intro readError stored phase
    rw [others run.key (otherKey (by simp [stage, phase]))]
    exact held.read readError stored phase
  · intro turn applied mutation phase
    rw [others run.key (otherKey (by simp [stage, phase]))]
    exact held.saving turn applied mutation phase

theorem Serialized.landMutation (serialized : Serialized runtime initial plugin) {caller : Nat}
    (found : plugin.writes.runs[index]? = some write)
    (phase : write.job.phase = .loaded loaded) (isCaller : write.job.caller = some caller)
    (called : plugin.queue.runs[caller]? = some call)
    (waits : call.job.phase = .saving turn.readError turn.around applied)
    (mutation : turn.mutation = call.job.mutation) : Serialized runtime initial
      { (plugin.proceedWrite index write.job .settled).proceed caller call.job
          (afterWrite turn applied) with
        file := write.job.land loaded plugin.file turn.write } := by
  obtain ⟨chained, noneLoaded⟩ := serialized.writes_settled found phase
  obtain ⟨result, done, wrote, notSaving, notRead, takes⟩ :=
    done_afterWrite call.job.mutation turn applied
  have same := serialized.loaded found phase
  have underway : call.job.stage = .running := by simp [Call.stage, waits]
  have applies := (serialized.reads called).saving turn applied mutation waits
  obtain ⟨sameId, sameDoc⟩ : write.job.projectId = call.key ∧ write.job.doc = applied.doc := by
    obtain ⟨other, isOther, -, given⟩ := serialized.writesFor found caller isCaller
    cases called.symm.trans isOther
    exact given _ _ _ waits
  have others : ∀ projectId, projectId ≠ call.key →
      (write.job.land loaded plugin.file turn.write).get projectId = plugin.file.get projectId := by
    intro projectId apart
    rw [file_land same, if_neg]
    rintro ⟨-, isProject⟩
    exact apart (isProject.trans sameId)
  constructor
  · apply serialized.queue.update
    · intro other isOther waiting
      cases called.symm.trans isOther
      rw [underway] at waiting
      cases waiting
    · intro other isOther settled
      cases called.symm.trans isOther
      rw [underway] at settled
      cases settled
  · exact chained
  · intro other after file isAfter isLoaded
    exact absurd isLoaded (noneLoaded isAfter)
  · intro other after isAfter
    rcases runs_update isAfter with ⟨apart, old⟩ | ⟨-, before, isBefore, rfl⟩
    · exact serialized.reads_alone called underway others apart old
    · refine ⟨fun _ _ isRead => absurd isRead (notRead _ _), fun _ _ _ saves => ?_⟩
      exact absurd saves (notSaving _ _ _)
  · intro other after turn' result' isAfter isDone
    rcases runs_update isAfter with ⟨-, old⟩ | ⟨-, before, isBefore, rfl⟩
    · exact serialized.owned old isDone
    · cases done.symm.trans isDone
      exact mutation
  · intro other after isAfter
    have held : ∀ third, after.job.caller = some third → ∃ call,
        plugin.queue.runs[third]? = some call ∧ call.job.wrote ∧ ∀ readError around applied,
          call.job.phase = .saving readError around applied →
          after.job.projectId = call.key ∧ after.job.doc = applied.doc := by
      rcases runs_update isAfter with ⟨-, old⟩ | ⟨-, before, -, rfl⟩
      · exact serialized.writesFor old
      · have given := serialized.writesFor found
        exact fun third isThird => given third isThird
    intro third isThird
    obtain ⟨thirdCall, thirdCalled, hasWritten, given⟩ := held third isThird
    by_cases isIt : third = caller
    · subst isIt
      refine ⟨_, runs_update_self called, wrote, ?_⟩
      exact fun _ _ _ saves => absurd saves (notSaving _ _ _)
    · exact ⟨thirdCall, (runs_update_of_ne isIt).trans thirdCalled, hasWritten, given⟩
  · intro other after isAfter isCreation
    rcases runs_update isAfter with ⟨-, old⟩ | ⟨-, before, -, rfl⟩
    · exact serialized.creations old isCreation
    · rw [isCaller] at isCreation
      cases isCreation
  · exact serialized.origins
  · intro projectId
    have unfinished : call.job.done = none := by simp [Call.done, waits]
    have grows := serialized.history_grows called unfinished done projectId
    rw [TasksPlugin.history, TasksPlugin.proceed]
    rw [TasksPlugin.proceedWrite, grows]
    split
    · next isKey =>
        subst isKey
        apply serially_append (serialized.serial call.key)
        refine ⟨_, takes applies, ?_⟩
        rw [Serially, file_land same, sameId, sameDoc]
        simp
    · next apart =>
        rw [List.append_nil, others projectId (Ne.symm apart)]
        exact serialized.serial projectId

theorem history_of_fresh (fresh : ∀ call ∈ plugin.queue.runs, call.key ≠ projectId) :
    plugin.history projectId = [] := by
  apply List.filterMap_eq_nil_iff.mpr
  intro call member
  rw [if_neg (fresh call member)]

variable (serialized : Serialized runtime initial plugin)
include serialized

theorem Serialized.landCreation
    (found : plugin.writes.runs[index]? = some write) (phase : write.job.phase = .loaded loaded)
    (creation : write.job.caller = none)
    (fresh : ∀ call ∈ plugin.queue.runs, call.key ≠ write.job.projectId) :
    Serialized runtime initial { plugin.proceedWrite index write.job .settled with
        file := write.job.land loaded plugin.file outcome
        origins := write.job.land plugin.origins plugin.origins outcome } := by
  obtain ⟨chained, noneLoaded⟩ := serialized.writes_settled found phase
  have same := serialized.loaded found phase
  have others {call : QueuedRun String Call} (member : call ∈ plugin.queue.runs) :
      (write.job.land loaded plugin.file outcome).get call.key = plugin.file.get call.key := by
    rw [file_land same, if_neg]
    rintro ⟨-, isProject⟩
    exact fresh call member isProject
  have origin (projectId : String) :
      (write.job.land plugin.origins plugin.origins outcome).get projectId =
        if outcome.stores ∧ projectId = write.job.projectId then some write.job.doc
        else plugin.origins.get projectId := by
    unfold Write.land
    split
    · next stores => simp [OrderedMap.get_set, stores]
    · next kept => simp [kept]
  refine ⟨serialized.queue, chained, ?_, ?_, serialized.owned, ?_, ?_, ?_, ?_⟩
  · intro other after file isAfter isLoaded
    exact absurd isLoaded (noneLoaded isAfter)
  · intro other call called
    have held := serialized.reads called
    constructor
    · intro readError stored isRead
      rw [others (List.mem_of_getElem? called)]
      exact held.read readError stored isRead
    · intro turn applied mutation saves
      rw [others (List.mem_of_getElem? called)]
      exact held.saving turn applied mutation saves
  · intro other after isAfter
    rcases runs_update isAfter with ⟨-, old⟩ | ⟨-, before, -, rfl⟩
    · exact serialized.writesFor old
    · intro caller isCaller
      rw [creation] at isCaller
      cases isCaller
  · intro other after isAfter isCreation
    rcases runs_update isAfter with ⟨-, old⟩ | ⟨-, before, -, rfl⟩
    · exact serialized.creations old isCreation
    · have created := serialized.creations found
      exact created isCreation
  · intro projectId
    rw [origin]
    split
    · next isProject =>
        refine .inr ⟨_, rfl, ?_⟩
        rw [isProject.2]
        exact serialized.creations found creation
    · exact serialized.origins projectId
  · intro projectId
    have held := serialized.serial projectId
    rw [origin, file_land same]
    split
    · next isProject =>
        rw [history, proceedWrite]
        have empty : plugin.history projectId = [] :=
          history_of_fresh fun call member => isProject.2 ▸ fresh call member
        have noResults : plugin.queue.results done projectId = [] := empty
        rw [noResults, Serially]
    · exact held

theorem Serialized.notified (found : plugin.queue.runs[index]? = some run)
    (phase : run.job.phase = .notifying turn applied) :
    Serialized runtime initial (plugin.proceed index run.job (.settled turn (.ok applied))) := by
  apply serialized.proceed found
  · simp [stage, phase]
  · simp [stage, phase]
  · exact ⟨fun _ _ read => (by cases read), fun _ _ _ saves => (by cases saves)⟩
  · exact fun _ => ⟨trivial, fun _ _ _ saves => (by cases saves)⟩
  · intro other result done
    cases done
    have done : run.job.done = some (turn, .ok applied) := by simp [done, phase]
    exact serialized.owned found done
  · apply serialized.serial_same found
    simp [done, phase]

theorem Serialized.step {after : TasksPlugin}
    (step : TasksStep runtime plugin after) : Serialized runtime initial after := by
  cases step with
  | enqueue => exact serialized.enqueue
  | start found ready => exact serialized.start found ready
  | read found phase => exact serialized.read found phase
  | refuse found phase mutation refuses => exact serialized.refuse found phase mutation refuses
  | save found phase mutation applies => exact serialized.save found phase mutation applies
  | create creates => exact serialized.create creates
  | load found ready => exact serialized.load found ready
  | landMutation found phase isCaller called waits mutation =>
    exact serialized.landMutation found phase isCaller called waits mutation
  | landCreation found phase creation fresh =>
    exact serialized.landCreation found phase creation fresh
  | notified found phase => exact serialized.notified found phase

end

theorem serialized_activate (runtime : Runtime) (file : ProjectFile) :
    Serialized runtime file (.activate file) where
  queue := chained_empty
  writes := chained_empty
  loaded isRun := by simp [activate, empty] at isRun
  reads isRun := by simp [activate, empty] at isRun
  owned isRun := by simp [activate, empty] at isRun
  writesFor isRun := by simp [activate, empty] at isRun
  creations isRun := by simp [activate, empty] at isRun
  origins _ := .inl rfl
  serial _ := rfl

theorem TasksReach.serialized {runtime : Runtime} {file : ProjectFile} {plugin : TasksPlugin}
    (reached : TasksReach runtime file plugin) : Serialized runtime file plugin := by
  induction reached with
  | activated => exact serialized_activate runtime file
  | stepped _ step ih => exact ih.step step

/-- In every interleaving the stored document of each project is what its
mutations make of it one after the other in the order of the queue, from the
file at the start or from what `createProject` stored.  Each mutation stands in
the history at its own place, and starts once those before it have settled. -/
theorem queue_serializes {runtime : Runtime} {file : ProjectFile} {plugin : TasksPlugin}
    (reached : TasksReach runtime file plugin) (projectId : String) :
    Serially runtime projectId (plugin.origins.get projectId) (plugin.history projectId)
        (plugin.file.get projectId) ∧ (plugin.origins.get projectId = file.get projectId ∨
        ∃ doc, plugin.origins.get projectId = some doc ∧ Created projectId doc) ∧
      (∀ (position : Nat) (call : Call), (plugin.queue.jobs projectId)[position]? = some call →
        (plugin.history projectId)[position]? = call.done ∧
        ∀ turn result, call.done = some (turn, result) → turn.mutation = call.mutation) ∧
      ∀ (index : Nat) (run : QueuedRun String Call), plugin.queue.runs[index]? = some run →
        run.key = projectId → run.job.phase = .enqueued →
        (∀ (other : Nat) (earlier : QueuedRun String Call), other < index →
          plugin.queue.runs[other]? = some earlier → earlier.key = projectId →
          ∃ turn result, earlier.job.phase = .settled turn result) →
        TasksStep runtime plugin (plugin.proceed index run.job .started) := by
  have serialized := reached.serialized
  refine ⟨serialized.serial projectId, serialized.origins projectId, ?_, ?_⟩
  · intro position call isCall
    constructor
    · obtain ⟨rest, same⟩ :=
      serialized.queue.results_first started_of_done done_of_settled projectId
      have atPosition := congrArg (·[position]?) same
      simp only [List.getElem?_map, isCall, Option.map_some] at atPosition
      rw [history]
      by_cases within : position < ((plugin.queue.results done projectId).map some).length
      · rw [List.getElem?_append_left within, List.getElem?_map] at atPosition
        obtain ⟨entry, isEntry, given⟩ := Option.map_eq_some_iff.mp atPosition.symm
        rw [isEntry, given]
      · rw [List.getElem?_append_right (by omega), List.getElem?_replicate] at atPosition
        rw [List.length_map] at within
        rw [List.getElem?_eq_none (by omega)]
        split at atPosition
        · exact (Option.some.inj atPosition).symm
        · cases atPosition
    · intro turn result done
      obtain ⟨run, member, isJob⟩ := List.mem_filterMap.mp (List.mem_of_getElem? isCall)
      split at isJob
      · cases isJob
        obtain ⟨index, isRun⟩ := List.mem_iff_getElem?.mp member
        exact serialized.owned isRun done
      · cases isJob
  · intro index run found isKey phase settled
    apply start found
    apply serialized.queue.ready found ((waiting_iff run.job).mpr phase)
    intro other earlier lower isEarlier sameKey
    obtain ⟨turn, result, settles⟩ := settled other earlier lower isEarlier (sameKey.trans isKey)
    simp [stage, settles]

def launchFile : ProjectFile :=
  OrderedMap.empty.set "p" launchProject

/-- The task is added while another project is waiting for its turn. -/
theorem queue_serializes_launch : ∃ plugin, TasksReach launchRuntime launchFile plugin ∧
    plugin.file.get "p" = some packProject ∧
    Serially launchRuntime "p" (plugin.origins.get "p") (plugin.history "p")
      (plugin.file.get "p") := by
  let queued : TasksPlugin :=
    { activate launchFile with
      queue := (empty.enqueue "p" ⟨(launchTurn .written).mutation, .enqueued⟩).enqueue
        "q" ⟨(launchTurn .written).mutation, .enqueued⟩ }
  have enqueued : TasksReach launchRuntime launchFile queued :=
    .stepped (.stepped .activated .enqueue) .enqueue
  have started := enqueued.stepped
    (@start _ _ 0 _ rfl ⟨_, rfl, rfl, fun _ _ isPrevious => nomatch isPrevious⟩)
  have read := started.stepped (@read _ _ 0 _ none rfl rfl)
  have applies : (launchTurn .written).mutation.apply launchRuntime (launchTurn .written).around "p"
      ((launchTurn .written).read (launchFile.get "p")) = .ok ⟨packProject, "addTask"⟩ := by
    decide +kernel
  have saves := read.stepped (@save _ _ 0 _ _ (launchTurn .written) _ rfl rfl rfl applies)
  have loads := saves.stepped
    (@load _ _ 0 _ rfl ⟨_, rfl, rfl, fun _ _ isPrevious => nomatch isPrevious⟩)
  have lands := loads.stepped
    (@landMutation _ _ 0 0 _ _ _ (launchTurn .written) _ rfl rfl rfl rfl rfl rfl)
  exact ⟨_, lands, by decide +kernel, (queue_serializes lands "p").1⟩

end P2PHub.SmartTasks
