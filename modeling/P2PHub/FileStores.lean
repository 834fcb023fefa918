import Mathlib.Data.List.Induction
import Mathlib.Data.Set.Function
import P2PHub.PromiseQueues
import P2PHub.TransitionRuns

/-!
# Stores in files

Operations of one process on the files of a directory.  A write is queued by the
path of its file; its turn takes a lock, reads the file, decides at once what
becomes of it, and replaces it.  Reads are not queued.  Every await can fail.
When paths that are used denote different files, each file is what the writes on
its path have made of it, in the order in which they were enqueued.
-/

namespace P2PHub

open PromiseQueue Transition

/-- What a write does after it has read the file; to throw is to return. -/
inductive FileWork (Content Result : Type*)
  | returns (result : Result)
  | writes (content : Content) (result : Result)

def FileWork.outcome {Content Result : Type*} : FileWork Content Result → Bool × Result
  | returns result => (false, result)
  | writes _ result => (true, result)

def FileWork.map {Content Result Other : Type*} (tag : Result → Other) :
    FileWork Content Result → FileWork Content Other
  | returns result => .returns (tag result)
  | writes content result => .writes content (tag result)

/-- The operations of a component on files.  A file can be absent. -/
structure FileCode (Path Write Read Content Result Answer : Type*) where
  writePath : Write → Path
  readPath : Read → Path
  work : Write → Option Content → FileWork Content Result
  answer : Read → Option Content → Answer

def FileCode.apply {Path Write Read Content Result Answer : Type*}
    (code : FileCode Path Write Read Content Result Answer) (content : Option Content)
    (write : Write) : Option Content :=
  match code.work write content with
  | .returns _ => content
  | .writes replaced _ => some replaced

theorem FileCode.apply_of_writes {Path Write Read Content Result Answer : Type*}
    {code : FileCode Path Write Read Content Result Answer} {content : Option Content}
    {write : Write} {replaced : Content} {result : Result}
    (worked : code.work write content = .writes replaced result) :
    code.apply content write = some replaced := by
  rw [apply, worked]

theorem FileCode.apply_of_returns {Path Write Read Content Result Answer : Type*}
    {code : FileCode Path Write Read Content Result Answer} {content : Option Content}
    {write : Write} {result : Result} (worked : code.work write content = .returns result) :
    code.apply content write = content := by
  rw [apply, worked]

namespace FileStore

/-- Where a write stands; `applied` tells whether the file was replaced. -/
inductive Phase (Content Result : Type*)
  | enqueued
  | locking
  | reading
  | writing (content : Content) (result : Result)
  | releasing (applied : Bool) (result : Option Result)
  | settled (applied : Bool) (result : Option Result)

structure Job (Write Content Result : Type*) where
  write : Write
  phase : Phase Content Result

structure State (Path File Write Content Result : Type*) where
  disk : File → Option Content
  queue : PromiseQueue Path (Job Write Content Result)

inductive Label (Write Read : Type*)
  | enqueue (write : Write)
  | proceed (index : Nat) (succeeds : Bool)
  | read (read : Read) (succeeds : Bool)

/-- A promise of a write has settled, with nothing when it was rejected by a
failure, or one of a read. -/
inductive Event (Read Result Answer : Type*)
  | settled (index : Nat) (result : Option Result)
  | answered (read : Read) (answer : Option Answer)

variable {Path File Write Read Content Result Answer : Type*}

def Job.stage (job : Job Write Content Result) : Stage :=
  match job.phase with
  | .enqueued => .waiting
  | .settled _ _ => .settled
  | _ => .running

/-- Once it is known whether the file is replaced: the write, if it is. -/
def Job.done (job : Job Write Content Result) : Option (Option Write) :=
  match job.phase with
  | .releasing applied _ => some (if applied then some job.write else none)
  | .settled applied _ => some (if applied then some job.write else none)
  | _ => none

def State.start (disk : File → Option Content) : State Path File Write Content Result :=
  ⟨disk, .empty⟩

section

variable [DecidableEq File] (code : FileCode Path Write Read Content Result Answer)
  (resolve : Path → File)

def turns (queue : PromiseQueue Path (Job Write Content Result))
    (run : QueuedRun Path (Job Write Content Result)) : Bool :=
  run.previous.all fun before =>
    queue.runs[before]?.all fun earlier => earlier.job.stage == .settled

def advance (disk : File → Option Content) (path : Path) (job : Job Write Content Result)
    (succeeds : Bool) : Option ((File → Option Content) × Phase Content Result) :=
  match job.phase with
  | .enqueued => some (disk, .locking)
  | .locking => some (disk, if succeeds then .reading else .settled false none)
  | .reading =>
    if succeeds then
      match code.work job.write (disk (resolve path)) with
      | .returns result => some (disk, .releasing false (some result))
      | .writes content result => some (disk, .writing content result)
    else some (disk, .releasing false none)
  | .writing content result =>
    if succeeds then
      some (Function.update disk (resolve path) (some content), .releasing true (some result))
    else some (disk, .releasing false none)
  | .releasing applied result =>
    some (disk, .settled applied (if succeeds then result else none))
  | .settled _ _ => none

def settlement (index : Nat) : Phase Content Result → List (Event Read Result Answer)
  | .settled _ result => [.settled index result]
  | _ => []

def step [DecidableEq Path] (s : State Path File Write Content Result) : Label Write Read →
      Option (State Path File Write Content Result × List (Event Read Result Answer))
  | .enqueue write =>
    some ({ s with queue := s.queue.enqueue (code.writePath write) ⟨write, .enqueued⟩ }, [])
  | .proceed index succeeds =>
    (s.queue.runs[index]?).bind fun run =>
      if run.job.stage = .waiting ∧ turns s.queue run = false then none
      else
        (advance code resolve s.disk run.key run.job succeeds).map fun (disk, phase) =>
          (⟨disk, s.queue.update index ⟨run.job.write, phase⟩⟩, settlement index phase)
  | .read read succeeds =>
    some (s, [.answered read
      (if succeeds then some (code.answer read (s.disk (resolve (code.readPath read))))
        else none)])

end

section

variable [DecidableEq Path]

/-- The writes among some runs that have replaced the file of a path, in the
order in which they were enqueued. -/
def applied (runs : List (QueuedRun Path (Job Write Content Result))) (path : Path) : List Write :=
  (runs.filterMap fun run => if run.key = path then run.job.done else none).filterMap id

end

section

variable [DecidableEq File]
  {code : FileCode Path Write Read Content Result Answer} {resolve : Path → File}
  {disk after : File → Option Content} {path : Path} {job : Job Write Content Result}
  {succeeds : Bool} {phase : Phase Content Result}
  {queue : PromiseQueue Path (Job Write Content Result)}

theorem ready_of_turns {index : Nat} {run : QueuedRun Path (Job Write Content Result)}
    (found : queue.runs[index]? = some run) (waits : run.job.stage = .waiting)
    (turn : turns queue run) : queue.Ready Job.stage index := by
  refine ⟨run, found, waits, fun before earlier isPrevious isEarlier => ?_⟩
  simp only [turns, isPrevious, Option.all_some, isEarlier, beq_iff_eq] at turn
  exact turn

/-- What an await can lead to: the file and what is known of it stay, the write
is given up, or the file is replaced. -/
inductive Turn (disk : File → Option Content) (file : File) (job : Job Write Content Result) :
    (File → Option Content) → Phase Content Result → Prop
  | goesOn {phase : Phase Content Result} (done : Job.done ⟨job.write, phase⟩ = job.done) :
      Turn disk file job disk phase
  | givesUp {phase : Phase Content Result} (undecided : job.done = none)
      (running : job.stage = .running) (done : Job.done ⟨job.write, phase⟩ = some none) :
      Turn disk file job disk phase
  | replaces {content : Content} {result : Result} (writing : job.phase = .writing content result) :
      Turn disk file job (Function.update disk file (some content)) (.releasing true (some result))

theorem advance_turn (advanced : advance code resolve disk path job succeeds = some (after, phase))
    : Turn disk (resolve path) job after phase := by
  obtain ⟨write, before⟩ := job
  cases before with
  | enqueued | releasing =>
    cases advanced
    exact .goesOn rfl
  | locking =>
    cases advanced
    cases succeeds with
    | true => exact .goesOn rfl
    | false => exact .givesUp rfl rfl rfl
  | reading =>
    cases succeeds with
    | true =>
      simp only [advance, if_true] at advanced
      split at advanced
      · cases advanced
        exact .givesUp rfl rfl rfl
      · cases advanced
        exact .goesOn rfl
    | false =>
      cases advanced
      exact .givesUp rfl rfl rfl
  | writing =>
    cases succeeds with
    | true =>
      cases advanced
      exact .replaces rfl
    | false =>
      cases advanced
      exact .givesUp rfl rfl rfl
  | settled => cases advanced

/-- A content is about to be written when it is what the write makes of the
file. -/
theorem advance_writing {content : Content} {result : Result}
    (advanced : advance code resolve disk path job succeeds =
      some (after, .writing content result)) :
    code.work job.write (after (resolve path)) = .writes content result := by
  obtain ⟨write, before⟩ := job
  cases before with
  | enqueued | releasing | settled => cases advanced
  | locking | writing => cases succeeds <;> cases advanced
  | reading =>
    cases succeeds with
    | true =>
      simp only [advance, if_true] at advanced
      split at advanced
      · cases advanced
      · next worked =>
          obtain ⟨rfl, same⟩ := Prod.mk.inj (Option.some.inj advanced)
          cases same
          exact worked
    | false => cases advanced

theorem advance_settled (settled : job.stage = .settled) :
    advance code resolve disk path job succeeds = none := by
  obtain ⟨write, before⟩ := job
  cases before with
  | settled => rfl
  | _ => cases settled

end

section

variable [DecidableEq Path]
  {code : FileCode Path Write Read Content Result Answer} {resolve : Path → File}
  {paths : Set Path} {disk : File → Option Content}
  {s after : State Path File Write Content Result}

def Enqueues (admits : Write → Prop) (_ : List (Event Read Result Answer))
    (_ : State Path File Write Content Result) : Label Write Read → Prop
  | .enqueue write => admits write
  | _ => True

/-- Each file is what the writes on its path have made of it, and a content that
is about to be written is what its write makes of the file. -/
structure Holds (code : FileCode Path Write Read Content Result Answer) (resolve : Path → File)
    (paths : Set Path) (disk : File → Option Content) (s : State Path File Write Content Result) :
    Prop where
  chained : s.queue.Chained Job.stage
  keyed : ∀ (index : Nat) (run : QueuedRun Path (Job Write Content Result)),
    s.queue.runs[index]? = some run → run.key = code.writePath run.job.write
  used : ∀ (index : Nat) (run : QueuedRun Path (Job Write Content Result)),
    s.queue.runs[index]? = some run → run.key ∈ paths
  decided : ∀ (index : Nat) (run : QueuedRun Path (Job Write Content Result)) content result,
    s.queue.runs[index]? = some run →
    run.job.phase = .writing content result →
      code.work run.job.write (s.disk (resolve run.key)) = .writes content result
  contents : ∀ path ∈ paths, s.disk (resolve path) =
    (applied s.queue.runs path).foldl code.apply (disk (resolve path))

theorem holds_start : Holds code resolve paths disk (.start disk) where
  chained := chained_empty
  keyed _ _ found := nomatch found
  used _ _ found := nomatch found
  decided _ _ _ _ found := nomatch found
  contents _ _ := rfl

theorem done_started (job : Job Write Content Result) (decided : job.done ≠ none) :
    job.stage ≠ .waiting := by
  obtain ⟨write, phase⟩ := job
  cases phase with
  | enqueued => exact absurd rfl decided
  | _ => exact nofun

theorem done_unsettled {job : Job Write Content Result} (undecided : job.done = none) :
    job.stage ≠ .settled := by
  obtain ⟨write, phase⟩ := job
  cases phase with
  | settled => cases undecided
  | _ => exact nofun

section

variable {queue : PromiseQueue Path (Job Write Content Result)} {path : Path}
  {run : QueuedRun Path (Job Write Content Result)} {job : Job Write Content Result}

theorem applied_enqueue {key : Path} {write : Write} :
    applied (queue.enqueue key ⟨write, .enqueued⟩).runs path = applied queue.runs path :=
  congrArg (List.filterMap id) (results_enqueue rfl)

theorem applied_update_same {index : Nat} (found : queue.runs[index]? = some run)
    (same : job.done = run.job.done) :
    applied (queue.update index job).runs path = applied queue.runs path :=
  congrArg (List.filterMap id) (results_update_same found same)

theorem applied_update (chained : queue.Chained Job.stage) {index : Nat}
    {decided : Option Write} (found : queue.runs[index]? = some run)
    (undecided : run.job.done = none) (done : job.done = some decided) :
    applied (queue.update index job).runs path =
      applied queue.runs path ++ if run.key = path then decided.toList else [] := by
  have update : (queue.update index job).results Job.done path =
      queue.results Job.done path ++ if run.key = path then [decided] else [] :=
    chained.results_update done_started found undecided (done_unsettled undecided) done
  have results := congrArg (List.filterMap id) update
  rw [List.filterMap_append] at results
  refine results.trans (congrArg (applied queue.runs path ++ ·) ?_)
  split
  · cases decided <;> rfl
  · rfl

end

theorem Holds.enqueue (holds : Holds code resolve paths disk s) {write : Write}
    (used : code.writePath write ∈ paths) : Holds code resolve paths disk
      { s with queue := s.queue.enqueue (code.writePath write) ⟨write, .enqueued⟩ } := by
  constructor
  · exact holds.chained.enqueue rfl
  · intro index run found
    rcases runs_enqueue found with old | ⟨rfl, rfl⟩
    · exact holds.keyed index run old
    · rfl
  · intro index run found
    rcases runs_enqueue found with old | ⟨rfl, rfl⟩
    · exact holds.used index run old
    · exact used
  · intro index run content result found writing
    rcases runs_enqueue found with old | ⟨rfl, rfl⟩
    · exact holds.decided index run content result old writing
    · cases writing
  · intro path member
    rw [applied_enqueue]
    exact holds.contents path member

/-- An await of one run leaves the files of the other paths, and makes of its
own what its write makes of it. -/
theorem Holds.proceed [DecidableEq File] (separate : Set.InjOn resolve paths)
    (holds : Holds code resolve paths disk s) {index : Nat}
    {run : QueuedRun Path (Job Write Content Result)} {succeeds : Bool}
    {phase : Phase Content Result} {moved : File → Option Content}
    (found : s.queue.runs[index]? = some run)
    (turn : run.job.stage = .waiting → turns s.queue run)
    (advanced : advance code resolve s.disk run.key run.job succeeds = some (moved, phase)) :
    Holds code resolve paths disk ⟨moved, s.queue.update index ⟨run.job.write, phase⟩⟩ := by
  have chained : (s.queue.update index ⟨run.job.write, phase⟩).Chained Job.stage := by
    apply holds.chained.update
    · intro same isSame waits
      cases found.symm.trans isSame
      exact ready_of_turns found waits (turn waits)
    · intro same isSame settled
      cases found.symm.trans isSame
      rw [advance_settled settled] at advanced
      cases advanced
  have keyed : ∀ (position : Nat) (other : QueuedRun Path (Job Write Content Result)),
      (s.queue.update index ⟨run.job.write, phase⟩).runs[position]? = some other →
        other.key = code.writePath other.job.write := by
    intro position other isOther
    rcases runs_update isOther with ⟨_, old⟩ | ⟨rfl, before, old, rfl⟩
    · exact holds.keyed position other old
    · cases found.symm.trans old
      exact holds.keyed position run found
  have used : ∀ (position : Nat) (other : QueuedRun Path (Job Write Content Result)),
      (s.queue.update index ⟨run.job.write, phase⟩).runs[position]? = some other →
        other.key ∈ paths := by
    intro position other isOther
    rcases runs_update isOther with ⟨_, old⟩ | ⟨rfl, before, old, rfl⟩
    · exact holds.used position other old
    · exact holds.used position before old
  cases advance_turn advanced with
  | goesOn done =>
    refine ⟨chained, keyed, used, ?_, fun path member => ?_⟩
    · intro position other content result isOther writing
      rcases runs_update isOther with ⟨_, old⟩ | ⟨rfl, before, old, rfl⟩
      · exact holds.decided position other content result old writing
      · cases found.symm.trans old
        obtain rfl : phase = .writing content result := writing
        have worked := advance_writing advanced
        exact worked
    · rw [applied_update_same found done]
      exact holds.contents path member
  | givesUp undecided running done =>
    refine ⟨chained, keyed, used, ?_, fun path member => ?_⟩
    · intro position other content result isOther writing
      rcases runs_update isOther with ⟨_, old⟩ | ⟨rfl, before, old, rfl⟩
      · exact holds.decided position other content result old writing
      · obtain rfl : phase = .writing content result := writing
        cases done
    · rw [applied_update holds.chained found undecided done, Option.toList_none, ite_self,
        List.append_nil]
      exact holds.contents path member
  | @replaces content result writing =>
    have worked := holds.decided index run content result found writing
    have undecided : run.job.done = none := by
      rw [Job.done, writing]
    have running : run.job.stage = .running := by
      rw [Job.stage, writing]
    have elsewhere {path : Path} (member : path ∈ paths) (apart : path ≠ run.key) :
        resolve path ≠ resolve run.key := fun same =>
      apart (separate member (holds.used index run found) same)
    refine ⟨chained, keyed, used, ?_, fun path member => ?_⟩
    · intro position other otherContent otherResult isOther otherWriting
      rcases runs_update isOther with ⟨moved, old⟩ | ⟨rfl, before, old, rfl⟩
      · have otherRunning : other.job.stage = .running := by
          rw [Job.stage, otherWriting]
        have apart : other.key ≠ run.key := fun same =>
          moved (holds.chained.alone old found same otherRunning running)
        dsimp only
        rw [Function.update_of_ne (elsewhere (holds.used position other old) apart)]
        exact holds.decided position other otherContent otherResult old otherWriting
      · cases otherWriting
    · have writes : (⟨run.job.write, .releasing true (some result)⟩ :
          Job Write Content Result).done = some (some run.job.write) := rfl
      rw [applied_update holds.chained found undecided writes,
        List.foldl_append, ← holds.contents path member]
      by_cases same : run.key = path
      · subst same
        simp only [if_true, Option.toList_some, List.foldl_cons, List.foldl_nil,
          Function.update_self, FileCode.apply, worked]
      · rw [if_neg same, List.foldl_nil]
        exact Function.update_of_ne (elsewhere member (Ne.symm same)) _ _

end

section

variable [DecidableEq Path]
  {code : FileCode Path Write Read Content Result Answer} {resolve : Path → File}
  {paths : Set Path} {disk : File → Option Content}
  {s : State Path File Write Content Result} {path : Path} {job : Job Write Content Result}
  {runs : List (QueuedRun Path (Job Write Content Result))} {index : Nat}
  {run : QueuedRun Path (Job Write Content Result)} {moved : File → Option Content}
  {phase : Phase Content Result}

/-- Whether a write replaces the file and what it returns, once it has decided. -/
def Job.outcome? (job : Job Write Content Result) : Option (Bool × Result) :=
  match job.phase with
  | .writing _ result => some (true, result)
  | .releasing applied result => result.map (applied, ·)
  | .settled applied result => result.map (applied, ·)
  | _ => none

/-- What comes of a write is decided by the file as the writes before it have
made it. -/
def Answered (code : FileCode Path Write Read Content Result Answer) (resolve : Path → File)
    (disk : File → Option Content) (s : State Path File Write Content Result) : Prop :=
  ∀ (index : Nat) (run : QueuedRun Path (Job Write Content Result)) outcome,
    s.queue.runs[index]? = some run → run.job.outcome? = some outcome →
      (code.work run.job.write ((applied (s.queue.runs.take index) run.key).foldl code.apply
        (disk (resolve run.key)))).outcome = outcome

theorem outcome_started (decided : job.outcome? ≠ none) : job.stage ≠ .waiting := by
  obtain ⟨write, phase⟩ := job
  cases phase with
  | enqueued => exact absurd rfl decided
  | _ => exact nofun

theorem applied_append (runs others : List (QueuedRun Path (Job Write Content Result))) :
    applied (runs ++ others) path = applied runs path ++ applied others path := by
  rw [applied, List.filterMap_append, List.filterMap_append]
  rfl

theorem mem_applied {write : Write} (member : write ∈ applied runs path) :
    ∃ run ∈ runs, run.key = path ∧ run.job.write = write := by
  obtain ⟨decided, found, rfl⟩ := List.mem_filterMap.mp member
  obtain ⟨run, inside, done⟩ := List.mem_filterMap.mp found
  obtain ⟨isPath, done⟩ := Option.ite_none_right_eq_some.mp done
  refine ⟨run, inside, isPath, ?_⟩
  unfold Job.done at done
  split at done
  · obtain ⟨_, same⟩ := Option.ite_none_right_eq_some.mp (Option.some.inj done)
    exact Option.some.inj same
  · obtain ⟨_, same⟩ := Option.ite_none_right_eq_some.mp (Option.some.inj done)
    exact Option.some.inj same
  · cases done

theorem applied_modify (apart : ∀ run, runs[index]? = some run → run.key ≠ path) :
    applied (runs.modify index fun run => { run with job }) path = applied runs path := by
  induction runs generalizing index with
  | nil => rw [List.modify_nil]
  | cons run runs ih =>
    cases index with
    | zero =>
      have other : run.key ≠ path := apart run rfl
      simp only [List.modify_zero_cons, applied, List.filterMap_cons, if_neg other]
    | succ index =>
      have rest := @ih index fun run found => apart run found
      rw [List.modify_succ_cons, ← List.singleton_append, applied_append, rest,
        ← applied_append, List.singleton_append]

theorem applied_take (chained : s.queue.Chained Job.stage) (found : s.queue.runs[index]? = some run)
    (undecided : run.job.done = none) :
    applied s.queue.runs run.key = applied (s.queue.runs.take index) run.key := by
  have behind : applied (s.queue.runs.drop (index + 1)) run.key = [] := by
    have undecidedToo : ∀ later ∈ s.queue.runs.drop (index + 1),
        (if later.key = run.key then later.job.done else none) = none := by
      intro later member
      obtain ⟨offset, isLater⟩ := List.mem_iff_getElem?.mp member
      rw [List.getElem?_drop] at isLater
      split
      · next same =>
          by_contra decided
          exact done_unsettled undecided (chained.settled_before isLater
            (done_started _ decided) found (by omega) same.symm)
      · rfl
    rw [applied, List.filterMap_eq_nil_iff.mpr undecidedToo]
    rfl
  have here : applied [run] run.key = [] := by
    rw [applied, List.filterMap_cons_none]
    · rfl
    · rw [if_pos rfl, undecided]
  conv_lhs => rw [runs_eq found]
  rw [applied_append, ← List.singleton_append, applied_append, here, behind, List.append_nil,
    List.append_nil]

theorem Answered.enqueue {key : Path} {write : Write} (answered : Answered code resolve disk s) :
    Answered code resolve disk { s with queue := s.queue.enqueue key ⟨write, .enqueued⟩ } := by
  intro index run outcome found decided
  rcases PromiseQueue.runs_enqueue found with old | ⟨_, rfl⟩
  · have bound := PromiseQueue.lt_of_runs old
    dsimp only [PromiseQueue.enqueue]
    rw [List.take_append_of_le_length (Nat.le_of_lt bound)]
    exact answered index run outcome old decided
  · cases decided

omit [DecidableEq Path] in
theorem advance_outcome [DecidableEq File] {succeeds : Bool} {outcome : Bool × Result}
    (advanced : advance code resolve disk path job succeeds = some (moved, phase))
    (decided : Job.outcome? ⟨job.write, phase⟩ = some outcome) :
    job.outcome? = some outcome ∨ job.done = none ∧
      (code.work job.write (disk (resolve path))).outcome = outcome := by
  obtain ⟨write, before⟩ := job
  cases before with
  | enqueued =>
    cases advanced
    cases decided
  | locking =>
    cases advanced
    cases succeeds <;> cases decided
  | reading =>
    cases succeeds with
    | true =>
      right
      simp only [advance, if_true] at advanced
      split at advanced
      · next worked =>
          cases advanced
          refine ⟨rfl, ?_⟩
          rw [worked]
          exact Option.some.inj decided
      · next worked =>
          cases advanced
          refine ⟨rfl, ?_⟩
          rw [worked]
          exact Option.some.inj decided
    | false =>
      cases advanced
      cases decided
  | writing =>
    cases succeeds with
    | true =>
      cases advanced
      exact .inl decided
    | false =>
      cases advanced
      cases decided
  | releasing =>
    cases advanced
    cases succeeds with
    | true => exact .inl decided
    | false => cases decided
  | settled => cases advanced

theorem Answered.proceed [DecidableEq File] (answered : Answered code resolve disk s)
    (holds : Holds code resolve paths disk s) {succeeds : Bool}
    (found : s.queue.runs[index]? = some run)
    (advanced : advance code resolve s.disk run.key run.job succeeds = some (moved, phase)) :
    Answered code resolve disk ⟨moved, s.queue.update index ⟨run.job.write, phase⟩⟩ := by
  intro position other outcome isOther decided
  dsimp only [update]
  rw [List.take_modify]
  rcases runs_update isOther with ⟨elsewhere, old⟩ | ⟨rfl, before, old, rfl⟩
  · rw [applied_modify]
    · exact answered position other outcome old decided
    · intro same isSame sameKey
      rw [List.getElem?_take] at isSame
      obtain ⟨lower, isSame⟩ := Option.ite_none_right_eq_some.mp isSame
      cases found.symm.trans isSame
      have started : other.job.stage ≠ .waiting :=
        outcome_started (by rw [decided]; exact nofun)
      have settled := holds.chained.settled_before old started found lower sameKey
      rw [advance_settled settled] at advanced
      cases advanced
  · cases found.symm.trans old
    rw [applied_modify]
    · rcases advance_outcome advanced decided with earlier | ⟨undecided, worked⟩
      · exact answered position run outcome found earlier
      · rw [← worked, holds.contents run.key (holds.used position run found),
          applied_take holds.chained found undecided]
    · intro same isSame
      rw [List.getElem?_take] at isSame
      obtain ⟨lower, _⟩ := Option.ite_none_right_eq_some.mp isSame
      exact absurd lower (Nat.lt_irrefl _)

end

variable [DecidableEq Path] [DecidableEq File]
  {code : FileCode Path Write Read Content Result Answer} {resolve : Path → File}
  {paths : Set Path} {disk : File → Option Content}
  {s after : State Path File Write Content Result} {history : List (Event Read Result Answer)}
  {admits : Write → Prop}

theorem admitted (runs : Runs (step code resolve) (Enqueues admits) (.start disk) history s) :
    ∀ run ∈ s.queue.runs, admits run.job.write := by
  refine runs.invariant (fun _ s => ∀ run ∈ s.queue.runs, admits run.job.write)
    (List.forall_mem_nil _) ?_
  intro _ before label after _ held permitted stepped
  cases label with
  | enqueue =>
    cases stepped
    exact List.forall_mem_append.mpr ⟨held, List.forall_mem_singleton.mpr permitted⟩
  | proceed =>
    obtain ⟨run, found, stepped⟩ := Option.bind_eq_some_iff.mp stepped
    split at stepped
    · cases stepped
    · obtain ⟨⟨moved, phase⟩, _, same⟩ := Option.map_eq_some_iff.mp stepped
      cases same
      intro other member
      obtain ⟨position, isOther⟩ := List.mem_iff_getElem?.mp member
      rcases runs_update isOther with ⟨_, old⟩ | ⟨rfl, first, old, rfl⟩
      · exact held other (List.mem_of_getElem? old)
      · exact held run (List.mem_of_getElem? found)
  | read =>
    cases stepped
    exact held

theorem run_holds (separate : Set.InjOn resolve paths) (runs : Runs (step code resolve)
    (Enqueues fun write => code.writePath write ∈ paths) (.start disk) history s) :
    Holds code resolve paths disk s ∧ Answered code resolve disk s := by
  refine runs.invariant (fun _ s => Holds code resolve paths disk s ∧
    Answered code resolve disk s) ⟨holds_start, fun _ _ _ found => nomatch found⟩ ?_
  rintro _ before label after outputs ⟨holds, answered⟩ permitted stepped
  cases label with
  | enqueue =>
    cases stepped
    exact ⟨holds.enqueue permitted, answered.enqueue⟩
  | proceed =>
    obtain ⟨run, found, stepped⟩ := Option.bind_eq_some_iff.mp stepped
    split at stepped
    · cases stepped
    · next entered =>
        obtain ⟨⟨moved, phase⟩, advanced, same⟩ := Option.map_eq_some_iff.mp stepped
        cases same
        have turn : run.job.stage = .waiting → turns before.queue run := by
          intro waits
          by_contra closed
          exact entered ⟨waits, Bool.eq_false_iff.mpr closed⟩
        exact ⟨holds.proceed separate found turn advanced, answered.proceed holds found advanced⟩
  | read =>
    cases stepped
    exact ⟨holds, answered⟩

/-- An abstract state that every admitted write keeps to a file is kept to it by
the writes of any run, and by those before any write of a run. -/
theorem run_simulates {Abstract : Type*} {path : Path} {start : Abstract}
    (related : Option Content → Abstract → Prop) (apply : Abstract → Write → Abstract)
    (separate : Set.InjOn resolve paths) (isPath : path ∈ paths)
    (within : ∀ write, admits write → code.writePath write ∈ paths)
    (keeps : ∀ content state write, admits write → related content state →
      related (code.apply content write) (apply state write))
    (begins : related (disk (resolve path)) start)
    (runs : Runs (step code resolve) (Enqueues admits) (.start disk) history s) :
    related (s.disk (resolve path)) ((applied s.queue.runs path).foldl apply start) ∧
      ∀ index, related
        ((applied (s.queue.runs.take index) path).foldl code.apply (disk (resolve path)))
        ((applied (s.queue.runs.take index) path).foldl apply start) := by
  have uses : Runs (step code resolve)
      (Enqueues fun write => code.writePath write ∈ paths) (.start disk) history s :=
    runs.mono fun _ _ label permitted => by
      cases label with
      | enqueue write => exact within write permitted
      | proceed | read => exact True.intro
  have folds (writes : List Write) (admitted : ∀ write ∈ writes, admits write) :
      related (writes.foldl code.apply (disk (resolve path))) (writes.foldl apply start) := by
    induction writes using List.reverseRecOn with
    | nil => exact begins
    | append_singleton writes write ih =>
      obtain ⟨earlier, last⟩ := List.forall_mem_append.mp admitted
      rw [List.foldl_append, List.foldl_append]
      exact keeps _ _ write (last write (List.mem_singleton_self write)) (ih earlier)
  have admits (runs : List (QueuedRun Path (Job Write Content Result)))
      (held : ∀ run ∈ runs, admits run.job.write) : ∀ write ∈ applied runs path, admits write := by
    intro write member
    obtain ⟨run, inside, _, rfl⟩ := mem_applied member
    exact held run inside
  have held := admitted runs
  constructor
  · rw [(run_holds separate uses).1.contents path isPath]
    exact folds _ (admits _ held)
  · intro index
    exact folds _ (admits _ fun run inside => held run (List.mem_of_mem_take inside))

theorem disk_elsewhere {index : Nat} {succeeds : Bool} {outputs : List (Event Read Result Answer)}
    {run : QueuedRun Path (Job Write Content Result)} {file : File}
    (found : s.queue.runs[index]? = some run) (apart : file ≠ resolve run.key)
    (stepped : step code resolve s (.proceed index succeeds) = some (after, outputs)) :
    after.disk file = s.disk file := by
  obtain ⟨same, isSame, stepped⟩ := Option.bind_eq_some_iff.mp stepped
  cases found.symm.trans isSame
  split at stepped
  · cases stepped
  · obtain ⟨⟨moved, phase⟩, advanced, same⟩ := Option.map_eq_some_iff.mp stepped
    cases same
    cases advance_turn advanced with
    | goesOn | givesUp => rfl
    | replaces => exact Function.update_of_ne apart _ _

end FileStore

end P2PHub
