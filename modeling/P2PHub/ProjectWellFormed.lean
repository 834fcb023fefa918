import P2PHub.ProjectEdits

/-!
# Well-formed tasks

What the validators of `plugins/tasks/src/index.ts` keep of every task: its
name, status, dates, percentage and time entries.  A request may leave out the
name of a new task and the status that it changes to, and both are written as
missing.
-/

namespace P2PHub.SmartTasks

structure WellFormed (runtime : Runtime) (task : Task) : Prop where
  named : ∃ name, task.name = some name ∧ name ≠ ""
  status : task.status ≠ none
  started : ∀ date, task.start = some date → isIsoDate runtime date = true
  finished : ∀ date, task.finish = some date → isIsoDate runtime date = true
  ordered : ∀ start finish, task.start.bind runtime.parseDate = some start →
    task.finish.bind runtime.parseDate = some finish → start ≤ finish
  percent : ∀ percent, task.percentComplete = some percent →
    ∃ value, percent.toRat? = some value ∧ 0 ≤ value ∧ value ≤ 100
  entries : ∀ entry ∈ task.timeEntries, ∃ start finish,
    runtime.parseDate entry.start = some start ∧ runtime.parseDate entry.finish = some finish ∧
      start ≤ finish

section

variable {runtime : Runtime} {fields : PatchInput} {patch : Patch} {task : Task} {value : Value}

theorem patchName_ok {name : String} (accepted : patchName value = .ok (some name)) :
    name ≠ "" := by
  cases value with
  | string =>
    simp only [patchName] at accepted
    split at accepted
    · cases accepted
    · next nonempty =>
        rw [← Option.some.inj (Except.ok.inj accepted)]
        exact nonempty
  | _ => cases accepted

theorem patchDate_ok {field date : String}
    (accepted : patchDate runtime field value = .ok (some date)) :
    isIsoDate runtime date := by
  cases value with
  | string =>
    simp only [patchDate] at accepted
    split at accepted
    · next isDate => exact Option.some.inj (Except.ok.inj accepted) ▸ isDate
    · cases accepted
  | _ => cases accepted

theorem patchPercent_ok {message : String} {percent : Binary64}
    (accepted : patchNumber message isPercentage value = .ok (some percent)) :
    ∃ value, percent.toRat? = some value ∧ 0 ≤ value ∧ value ≤ 100 := by
  cases value with
  | number given =>
    simp only [patchNumber] at accepted
    split at accepted
    · next within =>
        obtain rfl := Option.some.inj (Except.ok.inj accepted)
        obtain ⟨finite, range⟩ := Bool.and_eq_true_iff.mp within
        cases given with
        | finite value =>
          have zero := @Binary64.ofInt_of_safe 0 (by decide)
          have hundred := @Binary64.ofInt_of_safe 100 (by decide)
          simp only [isPercentage, notNegative, zero, hundred, Binary64.lt, Bool.and_eq_true,
            Bool.not_eq_true', decide_eq_false_iff_not, not_lt] at range
          exact ⟨value, rfl, by exact_mod_cast range.1, by exact_mod_cast range.2⟩
        | _ => cases finite
    · cases accepted
  | _ => cases accepted

/-- What is known of the fields of a patch. -/
structure ValidPatch (runtime : Runtime) (patch : Patch) : Prop where
  named : ∀ name, patch.name = some name → name ≠ ""
  started : ∀ date, patch.start = some date → isIsoDate runtime date = true
  finished : ∀ date, patch.finish = some date → isIsoDate runtime date = true
  percent : ∀ percent, patch.percentComplete = some percent →
    ∃ value, percent.toRat? = some value ∧ 0 ≤ value ∧ value ≤ 100

theorem validatePatch_ok (valid : validatePatch runtime fields = .ok patch) :
    ValidPatch runtime patch := by
  simp only [validatePatch, bind_eq_ok, pure_eq_ok] at valid
  obtain ⟨name, isName, status, -, start, isStart, finish, isFinish, durationDays, -,
    percentComplete, isPercent, estimatedHours, -, rfl⟩ := valid
  constructor
  · rintro name rfl
    exact patchName_ok isName
  · rintro date rfl
    exact patchDate_ok isStart
  · rintro date rfl
    exact patchDate_ok isFinish
  · rintro percent rfl
    exact patchPercent_ok isPercent

theorem assertChronology_ok {start finish : Option String}
    (accepted : assertChronology runtime start finish = .ok ()) :
    ∀ startTime finishTime, start.bind runtime.parseDate = some startTime →
      finish.bind runtime.parseDate = some finishTime → startTime ≤ finishTime := by
  intro startTime finishTime starts finishes
  simp only [assertChronology, starts, finishes] at accepted
  split at accepted
  · cases accepted
  · next ordered => exact not_lt.mp ordered

theorem newTask_wellFormed {id : String} {parent : Option String}
    (valid : validatePatch runtime fields = .ok patch)
    (ordered : assertChronology runtime patch.start patch.finish = .ok ())
    (named : patch.name ≠ none) : WellFormed runtime (patch.newTask id parent) := by
  have isValid := validatePatch_ok valid
  obtain ⟨name, isName⟩ := Option.ne_none_iff_exists'.mp named
  exact {
    named := ⟨name, isName, isValid.named name isName⟩
    status := Option.some_ne_none _
    started := isValid.started
    finished := isValid.finished
    ordered := assertChronology_ok ordered
    percent := isValid.percent
    entries := List.forall_mem_nil _ }

theorem apply_wellFormed (valid : validatePatch runtime fields = .ok patch)
    (ordered : assertChronology runtime (patch.apply task).start (patch.apply task).finish = .ok ())
    (before : WellFormed runtime task) : WellFormed runtime (patch.apply task) := by
  have isValid := validatePatch_ok valid
  constructor
  · obtain ⟨name, isName, nonempty⟩ := before.named
    cases given : patch.name with
    | none => exact ⟨name, by simp [Patch.apply, given, isName], nonempty⟩
    | some other => exact ⟨other, by simp [Patch.apply, given], isValid.named other given⟩
  · have stands := before.status
    cases given : patch.status <;> simp [Patch.apply, given, stands]
  · intro date isStart
    rcases Option.or_eq_some_iff.mp isStart with given | ⟨-, old⟩
    · exact isValid.started date given
    · exact before.started date old
  · intro date isFinish
    rcases Option.or_eq_some_iff.mp isFinish with given | ⟨-, old⟩
    · exact isValid.finished date given
    · exact before.finished date old
  · exact assertChronology_ok ordered
  · intro percent isPercent
    rcases Option.or_eq_some_iff.mp isPercent with given | ⟨-, old⟩
    · exact isValid.percent percent given
    · exact before.percent percent old
  · exact before.entries

end

variable {runtime : Runtime} {projectId : String} {mutation : Mutation} {doc : Project}
  {steps : List (Project × Turn)}

theorem TaskEdit.wellFormed {task edited : Task}
    (edit : TaskEdit runtime projectId mutation task edited) (complete : mutation.Complete)
    (before : WellFormed runtime task) : WellFormed runtime edited := by
  induction edit with
  | kept | delegated | answered => exact { before with }
  | patched valid ordered => exact { apply_wellFormed valid ordered before with }
  | restatused given => exact { before with status := given complete }
  | @logged entry startTime finishTime start finish ordered =>
    refine { before with entries := ?_ }
    intro other member
    rcases List.mem_append.mp member with old | new
    · exact before.entries other old
    · rw [List.mem_singleton.mp new]
      exact ⟨startTime, finishTime, start, finish, ordered⟩
  | proven => exact { before with status := Option.some_ne_none _ }
  | closed _ ih => exact { ih with status := Option.some_ne_none _ }

theorem Turns.wellFormed {tasks after : List Task} {freshId : String}
    (turns : Turns runtime projectId freshId mutation tasks after) (complete : mutation.Complete)
    (before : ∀ task ∈ tasks, WellFormed runtime task) :
    ∀ task ∈ after, WellFormed runtime task := by
  intro task member
  rcases turns task member with ⟨fields, patch, parent, valid, ordered, named, rfl⟩ |
    ⟨old, present, edit⟩
  · exact newTask_wellFormed valid ordered (named complete)
  · exact edit.wellFormed complete (before old present)

theorem Mutation.complete_of_wellFormed {around : Surroundings} {applied : Applied}
    (applies : mutation.apply runtime around projectId (.ok (some doc)) = .ok applied)
    (after : ∀ task ∈ applied.doc.tasks, WellFormed runtime task) : mutation.Complete := by
  cases mutation with
  | request senderPeerId body =>
    obtain ⟨type, task, asks, found, applies⟩ := applyRequestMutation_case applies
    constructor
    · intro isType
      cases asks.type.symm.trans isType
      simp only [applyCase, createSubtask, bind_eq_ok, pure_eq_ok] at applies
      obtain ⟨patch, valid, -, -, rfl⟩ := applies
      obtain ⟨name, isName, -⟩ :=
        (after _ (List.mem_append_right _ (List.mem_singleton.mpr rfl))).named
      simp only [validatePatch, bind_eq_ok, pure_eq_ok] at valid
      obtain ⟨given, accepted, _, -, _, -, _, -, _, -, _, -, _, -, rfl⟩ := valid
      obtain rfl : given = some name := isName
      cases isGiven : body.payload.fields.name with
      | string text => exact ⟨text, rfl⟩
      | _ =>
        rw [isGiven] at accepted
        cases accepted
    · intro isType missing
      cases asks.type.symm.trans isType
      simp only [applyCase, updateStatus, missing] at applies
      cases applies
      have member : { task with status := none } ∈
          (doc.modifyTask task.id fun task => { task with status := none }).tasks :=
        List.mem_map.mpr ⟨task, (findTask_some found).1, if_pos rfl⟩
      exact (after _ member).status rfl
  | _ => trivial

/-- In a run, the tasks are well-formed at all times exactly when every mutation
that is stored names the task that it adds and gives the status that it changes. -/
theorem tasks_wellFormed_iff (run : Chronicle runtime steps doc) :
    (∀ visited ∈ doc :: steps.map Prod.fst, ∀ task ∈ visited.tasks, WellFormed runtime task) ↔
      ∀ step ∈ steps, Stored runtime step → step.2.mutation.Complete := by
  induction run with
  | created creates =>
    simp only [createProject, bind_eq_ok, pure_eq_ok] at creates
    obtain ⟨title, -, budget, -, rfl⟩ := creates
    simp
  | @taken steps doc after turn result run fresh takes ih =>
    rw [List.forall_mem_cons, List.map_cons, ih, List.forall_mem_cons, and_congr_left_iff]
    intro completes
    have before := ih.mpr completes doc List.mem_cons_self
    rcases stored_or_unchanged takes with ⟨kept, rfl⟩ | ⟨stored, applied, applies, rfl⟩
    · exact iff_of_true before fun stored => absurd stored kept
    · constructor
      · exact fun well _ => Mutation.complete_of_wellFormed applies well
      · intro complete
        exact (Mutation.apply_turns run.distinct applies).wellFormed (complete stored) before

theorem packProject_run :
    Chronicle launchRuntime [(launchProject, launchTurn .written)] packProject :=
  .taken (.created launchProject_created) (by decide) packProject_takes

theorem tasks_wellFormed_iff_pack : packProject.tasks ≠ [] ∧
    ∀ task ∈ packProject.tasks, WellFormed launchRuntime task := by
  refine ⟨by simp [packProject], ?_⟩
  apply (tasks_wellFormed_iff packProject_run).mpr _ packProject List.mem_cons_self
  intro step member _
  rw [List.mem_singleton.mp member]
  trivial

def namelessTurn : Turn where
  mutation := .request "owner" { type := .string "CREATE_SUBTASK", taskId := .string "t" }
  around := { freshId := "s", now := "" }

theorem nameless_subtask : ¬∀ (runtime : Runtime) (steps : List (Project × Turn)) (doc : Project),
    Chronicle runtime steps doc → ∀ task ∈ doc.tasks, WellFormed runtime task := by
  intro claimed
  let subtask : Task := { packTask .todo with id := "s", name := none, parentTaskId := some "t" }
  let after : Project :=
    { packProject with updatedAt := "", tasks := packProject.tasks ++ [subtask], mutationSeq := 2 }
  have takes : namelessTurn.take launchRuntime packProject.id (some packProject) =
      (some after, .ok ⟨after, "createSubtask"⟩) := by
    decide +kernel
  have wellFormed := claimed _ _ _ (.taken packProject_run (by decide) takes) subtask
    (List.mem_append_right _ (List.mem_singleton.mpr rfl))
  obtain ⟨name, isName, -⟩ := wellFormed.named
  cases isName

end P2PHub.SmartTasks
