import P2PHub.InsertionOrderedMap

/-!
# Promise queues

A map keeps for each key the promise of the last run for it; a new run starts
when the promise that it finds there has settled, and becomes the last one.
The runs of one key are then made one at a time in the order in which they were
enqueued, whatever becomes of them, and runs of different keys do not wait for
each other.
-/

namespace P2PHub

/-- Where a run stands. -/
inductive Stage
  | waiting
  | running
  | settled
  deriving DecidableEq, Repr

/-- A run, with the run whose promise it waits for. -/
structure QueuedRun (Key Job : Type*) where
  key : Key
  previous : Option Nat
  job : Job

/-- The runs in the order in which they were enqueued. -/
structure PromiseQueue (Key Job : Type*) where
  tails : OrderedMap Key Nat
  runs : List (QueuedRun Key Job)

namespace PromiseQueue

variable {Key Job Result : Type*}

def empty : PromiseQueue Key Job :=
  ⟨.empty, []⟩

def update (queue : PromiseQueue Key Job) (index : Nat) (job : Job) : PromiseQueue Key Job :=
  { queue with runs := queue.runs.modify index fun run => { run with job } }

/-- The promise that a waiting run waits for has settled. -/
def Ready (stage : Job → Stage) (queue : PromiseQueue Key Job) (index : Nat) : Prop :=
  ∃ run, queue.runs[index]? = some run ∧ stage run.job = .waiting ∧
    ∀ before earlier, run.previous = some before → queue.runs[before]? = some earlier →
      stage earlier.job = .settled

section

variable {queue : PromiseQueue Key Job} {index : Nat} {job : Job} {run : QueuedRun Key Job}

theorem lt_of_runs (found : queue.runs[index]? = some run) : index < queue.runs.length :=
  (List.getElem?_eq_some_iff.mp found).1

theorem runs_update_self (found : queue.runs[index]? = some run) :
    (queue.update index job).runs[index]? = some { run with job } := by
  simp [update, found]

theorem runs_update_of_ne {other : Nat} (apart : other ≠ index) :
    (queue.update index job).runs[other]? = queue.runs[other]? := by
  simp [update, apart.symm]

theorem runs_update {other : Nat} (found : (queue.update index job).runs[other]? = some run) :
    (other ≠ index ∧ queue.runs[other]? = some run) ∨
      (other = index ∧ ∃ before, queue.runs[index]? = some before ∧ run = { before with job }) := by
  by_cases same : other = index
  · subst same
    cases before : queue.runs[other]? with
    | none => simp [update, before] at found
    | some earlier =>
      rw [runs_update_self before] at found
      exact .inr ⟨rfl, earlier, rfl, (Option.some.inj found).symm⟩
  · rw [runs_update_of_ne same] at found
    exact .inl ⟨same, found⟩

theorem update_eq (found : queue.runs[index]? = some run) (job : Job) :
    (queue.update index job).runs =
      queue.runs.take index ++ { run with job } :: queue.runs.drop (index + 1) := by
  have bound := lt_of_runs found
  have same : queue.runs[index] = run := by
    rw [List.getElem?_eq_getElem bound] at found
    exact Option.some.inj found
  rw [update, List.modify_eq_take_cons_drop bound, same]

theorem runs_eq (found : queue.runs[index]? = some run) :
    queue.runs = queue.runs.take index ++ run :: queue.runs.drop (index + 1) := by
  have bound := lt_of_runs found
  rw [List.getElem?_eq_getElem bound] at found
  rw [← Option.some.inj found, List.getElem_cons_drop, List.take_append_drop]

end

variable [DecidableEq Key]

def enqueue (queue : PromiseQueue Key Job) (key : Key) (job : Job) : PromiseQueue Key Job where
  tails := queue.tails.set key queue.runs.length
  runs := queue.runs ++ [⟨key, queue.tails.get key, job⟩]

/-- The runs are chained: each waits for the last one before it with its key. -/
structure Chained (stage : Job → Stage) (queue : PromiseQueue Key Job) : Prop where
  tail : ∀ {key : Key} {index : Nat}, queue.tails.get key = some index →
    ∃ run, queue.runs[index]? = some run ∧ run.key = key
  last : ∀ {index : Nat} {run : QueuedRun Key Job}, queue.runs[index]? = some run →
    ∃ tail, queue.tails.get run.key = some tail ∧ index ≤ tail
  previous : ∀ {index before : Nat} {run : QueuedRun Key Job}, queue.runs[index]? = some run →
    run.previous = some before →
    before < index ∧ ∃ earlier, queue.runs[before]? = some earlier ∧ earlier.key = run.key
  behind : ∀ {index other : Nat} {run earlier : QueuedRun Key Job},
    queue.runs[index]? = some run → queue.runs[other]? = some earlier → other < index →
    earlier.key = run.key → ∃ before, run.previous = some before ∧ other ≤ before
  started : ∀ {index before : Nat} {run earlier : QueuedRun Key Job},
    queue.runs[index]? = some run → stage run.job ≠ .waiting → run.previous = some before →
    queue.runs[before]? = some earlier → stage earlier.job = .settled

section

variable {queue : PromiseQueue Key Job} {index : Nat} {job : Job} {run : QueuedRun Key Job}

theorem runs_enqueue {key : Key} (found : (queue.enqueue key job).runs[index]? = some run) :
    queue.runs[index]? = some run ∨
      (index = queue.runs.length ∧ run = ⟨key, queue.tails.get key, job⟩) := by
  simp only [enqueue] at found
  rcases Nat.lt_trichotomy index queue.runs.length with old | new | beyond
  · rw [List.getElem?_append_left old] at found
    exact .inl found
  · subst new
    rw [List.getElem?_concat_length] at found
    exact .inr ⟨rfl, (Option.some.inj found).symm⟩
  · rw [List.getElem?_eq_none (by simp; omega)] at found
    cases found

theorem runs_enqueue_old {key : Key} (found : queue.runs[index]? = some run) :
    (queue.enqueue key job).runs[index]? = some run := by
  have old := (List.getElem?_eq_some_iff.mp found).1
  rw [enqueue, List.getElem?_append_left old]
  exact found

end

section

variable {stage : Job → Stage} {queue : PromiseQueue Key Job} {index : Nat}
  {run : QueuedRun Key Job}

theorem chained_empty : Chained stage (empty : PromiseQueue Key Job) where
  tail found := by simp [empty, OrderedMap.get_empty] at found
  last found := by simp [empty] at found
  previous found := by simp [empty] at found
  behind found := by simp [empty] at found
  started found := by simp [empty] at found

variable (chained : Chained stage queue)
include chained

theorem Chained.enqueue {key : Key} {job : Job}
    (waits : stage job = .waiting) : Chained stage (queue.enqueue key job) := by
  constructor
  · intro other index found
    simp only [PromiseQueue.enqueue, OrderedMap.get_set] at found
    split at found
    · next same =>
        cases found
        exact ⟨_, List.getElem?_concat_length, same.symm⟩
    · obtain ⟨run, isRun, sameKey⟩ := chained.tail found
      exact ⟨run, runs_enqueue_old isRun, sameKey⟩
  · intro index run found
    simp only [PromiseQueue.enqueue, OrderedMap.get_set]
    rcases runs_enqueue found with old | ⟨rfl, rfl⟩
    · split
      · exact ⟨_, rfl, Nat.le_of_lt (lt_of_runs old)⟩
      · exact chained.last old
    · exact ⟨_, if_pos rfl, Nat.le_refl _⟩
  · intro index before run found isPrevious
    rcases runs_enqueue found with old | ⟨rfl, rfl⟩
    · obtain ⟨earlier, other, isOther, sameKey⟩ := chained.previous old isPrevious
      exact ⟨earlier, other, runs_enqueue_old isOther, sameKey⟩
    · obtain ⟨other, isOther, sameKey⟩ := chained.tail isPrevious
      exact ⟨lt_of_runs isOther, other, runs_enqueue_old isOther, sameKey⟩
  · intro index other run earlier found foundEarlier lower sameKey
    rcases runs_enqueue found with old | ⟨rfl, rfl⟩
    · rcases runs_enqueue foundEarlier with oldEarlier | ⟨rfl, -⟩
      · exact chained.behind old oldEarlier lower sameKey
      · have bound := lt_of_runs old
        omega
    · rcases runs_enqueue foundEarlier with oldEarlier | ⟨rfl, -⟩
      · obtain ⟨tail, isTail, bound⟩ := chained.last oldEarlier
        obtain rfl : earlier.key = key := sameKey
        exact ⟨tail, isTail, bound⟩
      · omega
  · intro index before run earlier found isStarted isPrevious foundEarlier
    rcases runs_enqueue found with old | ⟨rfl, rfl⟩
    · obtain ⟨lower, -⟩ := chained.previous old isPrevious
      rcases runs_enqueue foundEarlier with oldEarlier | ⟨rfl, -⟩
      · exact chained.started old isStarted isPrevious oldEarlier
      · have bound := lt_of_runs old
        omega
    · exact absurd waits isStarted

theorem Chained.update {job : Job}
    (starts : ∀ run, queue.runs[index]? = some run → stage run.job = .waiting →
      Ready stage queue index)
    (settles : ∀ run, queue.runs[index]? = some run → stage run.job = .settled →
      stage job = .settled) : Chained stage (queue.update index job) := by
  have kept {other : Nat} {run : QueuedRun Key Job}
      (found : (queue.update index job).runs[other]? = some run) :
      ∃ before, queue.runs[other]? = some before ∧ run.key = before.key ∧
        run.previous = before.previous := by
    rcases runs_update found with ⟨-, old⟩ | ⟨rfl, before, old, rfl⟩
    · exact ⟨run, old, rfl, rfl⟩
    · exact ⟨before, old, rfl, rfl⟩
  have stays {other : Nat} {run : QueuedRun Key Job} (found : queue.runs[other]? = some run) :
      ∃ after, (queue.update index job).runs[other]? = some after ∧ after.key = run.key := by
    by_cases same : other = index
    · subst same
      exact ⟨_, runs_update_self found, rfl⟩
    · exact ⟨run, (runs_update_of_ne same).trans found, rfl⟩
  constructor
  · intro key other found
    obtain ⟨run, isRun, sameKey⟩ := chained.tail found
    obtain ⟨after, isAfter, stillKey⟩ := stays isRun
    exact ⟨after, isAfter, stillKey.trans sameKey⟩
  · intro other run found
    obtain ⟨before, old, sameKey, -⟩ := kept found
    rw [sameKey]
    exact chained.last old
  · intro other earlier run found isPrevious
    obtain ⟨before, old, sameKey, samePrevious⟩ := kept found
    obtain ⟨lower, run', isRun, sameKey'⟩ := chained.previous old (samePrevious ▸ isPrevious)
    obtain ⟨after, isAfter, stillKey⟩ := stays isRun
    exact ⟨lower, after, isAfter, by rw [stillKey, sameKey', sameKey]⟩
  · intro other first run earlier found foundFirst lower sameKey
    obtain ⟨before, old, runKey, samePrevious⟩ := kept found
    obtain ⟨beforeFirst, oldFirst, firstKey, -⟩ := kept foundFirst
    rw [samePrevious]
    exact chained.behind old oldFirst lower (by rw [← firstKey, sameKey, runKey])
  · intro other before run earlier found isStarted isPrevious foundEarlier
    -- What is waited for settled before the update, and so it is settled after it.
    have settled {first : QueuedRun Key Job} (old : queue.runs[before]? = some first)
        (isSettled : stage first.job = .settled) : stage earlier.job = .settled := by
      rcases runs_update foundEarlier with ⟨-, same⟩ | ⟨rfl, again, same, rfl⟩
      · rwa [← Option.some.inj (old.symm.trans same)]
      · exact settles first old isSettled
    obtain ⟨first, oldFirst, -⟩ := kept foundEarlier
    apply settled oldFirst
    rcases runs_update found with ⟨-, old⟩ | ⟨rfl, again, old, rfl⟩
    · exact chained.started old isStarted isPrevious oldFirst
    · by_cases waits : stage again.job = .waiting
      · obtain ⟨same, isSame, -, ready⟩ := starts again old waits
        cases old.symm.trans isSame
        exact ready before first isPrevious oldFirst
      · exact chained.started old waits isPrevious oldFirst

theorem Chained.settled_before {other : Nat}
    {earlier : QueuedRun Key Job} (found : queue.runs[index]? = some run)
    (isStarted : stage run.job ≠ .waiting) (foundEarlier : queue.runs[other]? = some earlier)
    (lower : other < index) (sameKey : earlier.key = run.key) : stage earlier.job = .settled := by
  induction index using Nat.strongRecOn generalizing run with
  | ind index ih =>
    obtain ⟨before, isPrevious, bound⟩ := chained.behind found foundEarlier lower sameKey
    obtain ⟨below, middle, isMiddle, middleKey⟩ := chained.previous found isPrevious
    have settled := chained.started found isStarted isPrevious isMiddle
    rcases Nat.eq_or_lt_of_le bound with rfl | between
    · rwa [Option.some.inj (foundEarlier.symm.trans isMiddle)]
    · have middleStarted : stage middle.job ≠ .waiting := by
        rw [settled]
        exact fun same => nomatch same
      exact ih before below isMiddle middleStarted between (sameKey.trans middleKey.symm)

theorem Chained.ready (found : queue.runs[index]? = some run) (waits : stage run.job = .waiting)
    (settled : ∀ other earlier, other < index → queue.runs[other]? = some earlier →
      earlier.key = run.key → stage earlier.job = .settled) : Ready stage queue index := by
  refine ⟨run, found, waits, ?_⟩
  intro before earlier isPrevious isEarlier
  obtain ⟨lower, same, isSame, sameKey⟩ := chained.previous found isPrevious
  cases isEarlier.symm.trans isSame
  exact settled before earlier lower isEarlier sameKey

theorem Chained.alone {first second : Nat}
    {other : QueuedRun Key Job} (isFirst : queue.runs[first]? = some run)
    (isSecond : queue.runs[second]? = some other) (sameKey : run.key = other.key)
    (firstRuns : stage run.job = .running) (secondRuns : stage other.job = .running) :
    first = second := by
  have started {job : Job} (runs : stage job = .running) : stage job ≠ .waiting := by
    rw [runs]
    exact fun same => nomatch same
  rcases Nat.lt_trichotomy first second with lower | same | higher
  · have settled := chained.settled_before isSecond (started secondRuns) isFirst lower sameKey
    rw [firstRuns] at settled
    cases settled
  · exact same
  · have settled := chained.settled_before isFirst (started firstRuns) isSecond higher sameKey.symm
    rw [secondRuns] at settled
    cases settled

end

variable {stage : Job → Stage} {outcome : Job → Option Result} {queue : PromiseQueue Key Job}
  {key : Key} {job : Job} {run : QueuedRun Key Job}

/-- The results of the runs of a key, in the order in which they were enqueued. -/
def results (outcome : Job → Option Result) (queue : PromiseQueue Key Job) (key : Key) :
    List Result :=
  queue.runs.filterMap fun run => if run.key = key then outcome run.job else none

/-- The runs of a key, in the order in which they were enqueued. -/
def jobs (queue : PromiseQueue Key Job) (key : Key) : List Job :=
  queue.runs.filterMap fun run => if run.key = key then some run.job else none

theorem results_enqueue {other : Key} (unfinished : outcome job = none) :
    (queue.enqueue other job).results outcome key = queue.results outcome key := by
  simp [results, enqueue, List.filterMap_append, unfinished]

theorem results_update_same {index : Nat}
    (found : queue.runs[index]? = some run) (same : outcome job = outcome run.job) :
    (queue.update index job).results outcome key = queue.results outcome key := by
  rw [results, update_eq found, results]
  conv_rhs => rw [runs_eq found]
  simp only [List.filterMap_append, List.filterMap_cons, same]

theorem Chained.results_update (chained : Chained stage queue)
    (started : ∀ job, outcome job ≠ none → stage job ≠ .waiting) {index : Nat} {result : Result}
    (found : queue.runs[index]? = some run) (unfinished : outcome run.job = none)
    (unsettled : stage run.job ≠ .settled) (finished : outcome job = some result) :
    (queue.update index job).results outcome key =
      queue.results outcome key ++ if run.key = key then [result] else [] := by
  rw [results, update_eq found, results]
  conv_rhs => rw [runs_eq found]
  have behind : run.key = key → (queue.runs.drop (index + 1)).filterMap (fun later =>
        if later.key = key then outcome later.job else none) = [] := by
    intro isKey
    rw [List.filterMap_eq_nil_iff]
    intro later member
    by_cases sameKey : later.key = key
    · obtain ⟨offset, isLater⟩ := List.mem_iff_getElem?.mp member
      rw [List.getElem?_drop] at isLater
      have waits : outcome later.job = none := by
        by_contra finishedToo
        exact unsettled (chained.settled_before isLater (started _ finishedToo) found (by omega)
          (isKey.trans sameKey.symm))
      rw [if_pos sameKey, waits]
    · rw [if_neg sameKey]
  by_cases isKey : run.key = key
  · simp only [List.filterMap_append, List.filterMap_cons, isKey, if_true, unfinished, finished,
      behind isKey, List.append_nil]
  · simp only [List.filterMap_append, List.filterMap_cons, isKey, if_false, List.append_nil]

theorem filterMap_first {Value : Type*} {values : List Value} {outcome : Value → Option Result}
    (first : values.Pairwise fun earlier later => outcome later ≠ none → outcome earlier ≠ none) :
    ∃ rest, values.map outcome =
      (values.filterMap outcome).map some ++ List.replicate rest none := by
  induction values with
  | nil => exact ⟨0, rfl⟩
  | cons value values ih =>
    obtain ⟨here, there⟩ := List.pairwise_cons.mp first
    obtain ⟨rest, same⟩ := ih there
    cases finished : outcome value with
    | some => exact ⟨rest, by simp [finished, same]⟩
    | none =>
      have unfinished : ∀ later ∈ values, outcome later = none := by
        intro later member
        by_contra finishedToo
        exact here later member finishedToo finished
      refine ⟨values.length + 1, ?_⟩
      have empty : values.filterMap outcome = [] := List.filterMap_eq_nil_iff.mpr unfinished
      rw [List.map_cons, List.filterMap_cons_none finished, empty, finished,
        List.map_congr_left unfinished, List.map_const', List.replicate_succ, List.map_nil,
        List.nil_append]

theorem Chained.results_first (chained : Chained stage queue)
    (started : ∀ job, outcome job ≠ none → stage job ≠ .waiting)
    (finished : ∀ job, stage job = .settled → outcome job ≠ none) (key : Key) :
    ∃ rest, (queue.jobs key).map outcome =
      (queue.results outcome key).map some ++ List.replicate rest none := by
  have ordered : (queue.jobs key).Pairwise fun earlier later =>
      outcome later ≠ none → outcome earlier ≠ none := by
    rw [jobs, List.pairwise_filterMap, List.pairwise_iff_getElem]
    intro first second firstBound secondBound lower earlier isEarlier later isLater laterFinished
    split at isEarlier
    · next earlierKey =>
        split at isLater
        · next laterKey =>
            cases isEarlier
            cases isLater
            exact finished _ (chained.settled_before (List.getElem?_eq_getElem secondBound)
              (started _ laterFinished) (List.getElem?_eq_getElem firstBound) lower
              (earlierKey.trans laterKey.symm))
        · cases isLater
    · cases isEarlier
  obtain ⟨rest, same⟩ := filterMap_first ordered
  refine ⟨rest, same.trans ?_⟩
  congr 2
  rw [jobs, results, List.filterMap_filterMap]
  congr 1
  funext run
  split <;> rfl

end PromiseQueue

end P2PHub
