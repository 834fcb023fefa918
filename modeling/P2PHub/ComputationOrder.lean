import P2PHub.CriticalPath
import P2PHub.ProjectCapacity

/-!
# The order of the tasks

The determinism contract of `plugins/tasks/src/computations.ts`, that a
re-ordered input yields the same result.  The capacity of a project meets it.
Of several heaviest chains the critical path is the one that starts at the task
listed first, so that it meets the contract only when they all start at one task.
-/

namespace P2PHub.Tasks

def OrderIndependent (parseDate : String → Option ℤ)
    (localeCompare : JsonString → JsonString → Bool) (tasks : List TaskLike)
    (capacityTasks : List CapacityTask) (timeEntries : List TimeEntryLike) : Prop :=
  (∀ others, tasks.Perm others → calculateCriticalPath others = calculateCriticalPath tasks) ∧
    ∀ others moved, capacityTasks.Perm others → timeEntries.Perm moved →
      calculateProjectCapacity parseDate localeCompare others moved =
        calculateProjectCapacity parseDate localeCompare capacityTasks timeEntries

/-- A heaviest chain starts at a task. -/
def Heads (tasks : List TaskLike) (task : TaskLike) : Prop :=
  ∃ rest, NeedsChain tasks (task :: rest) ∧ ∀ chain, NeedsChain tasks chain →
    (chainWeight chain).le (chainWeight (task :: rest)) = true

section

variable {tasks others chain : List TaskLike} {task : TaskLike} {meaning : TaskLike → Longest}
  {path : TaskLike → List TaskLike}

theorem indexById_perm (distinct : (tasks.map TaskLike.id).Nodup) (same : tasks.Perm others)
    (id : String) : (indexById others).get id = (indexById tasks).get id := by
  ext task
  rw [indexById_get distinct, indexById_get ((same.map _).nodup_iff.mp distinct), same.mem_iff]

theorem needs_perm (same : tasks.Perm others) : Needs others = Needs tasks := by
  funext task other
  simp only [Needs, DependsOn, same.mem_iff]

theorem NoLongCycle.perm (acyclic : NoLongCycle tasks) (same : tasks.Perm others) :
    NoLongCycle others := by
  rw [NoLongCycle, needs_perm same]
  exact acyclic

theorem NeedsChain.perm (linked : NeedsChain tasks chain) (same : tasks.Perm others) :
    NeedsChain others chain where
  known task inside := same.mem_iff.mp (linked.known task inside)
  linked := by
    rw [needs_perm same]
    exact linked.linked

theorem Means.perm (means : Means tasks meaning) (distinct : (tasks.map TaskLike.id).Nodup)
    (same : tasks.Perm others) : Means others meaning where
  step task member := by
    have looks : seen others meaning task = seen tasks meaning task := by
      funext id
      rw [seen, seen, indexById_perm distinct same]
    rw [looks]
    exact means.step task (same.mem_iff.mpr member)
  nonneg task member := means.nonneg task (same.mem_iff.mpr member)

theorem Paths.perm (paths : Paths tasks meaning path) (same : tasks.Perm others) :
    Paths others meaning path := by
  intro task member
  obtain ⟨starts, linked, sum, followed⟩ := paths task (same.mem_iff.mpr member)
  refine ⟨starts, linked.perm same, sum, fun memo complete => ?_⟩
  rw [← same.length_eq]
  exact followed memo fun other inside => complete other (same.mem_iff.mp inside)

theorem Greatest.perm (greatest : Greatest others meaning task) (same : tasks.Perm others) :
    Greatest tasks meaning task :=
  ⟨same.mem_iff.mpr greatest.1, fun other inside => greatest.2 other (same.mem_iff.mp inside)⟩

section

variable (distinct : (tasks.map TaskLike.id).Nodup)
include distinct

/-- What is computed from the tasks in another order. -/
theorem calculateCriticalPath_perm
    (acyclic : NoLongCycle tasks) (means : Means tasks meaning) (paths : Paths tasks meaning path)
    (nonempty : tasks ≠ []) (same : tasks.Perm others) : ∃ task, Greatest tasks meaning task ∧
      (∀ first rest, others = first :: rest → Greatest tasks meaning first → task = first) ∧
      calculateCriticalPath others = some ⟨(path task).map TaskLike.id, (meaning task).weight,
        (path task).map TaskLike.id⟩ := by
  have otherNonempty : others ≠ [] := by
    rintro rfl
    exact nonempty same.eq_nil
  obtain ⟨task, greatest, first, result⟩ := calculateCriticalPath_eq
    ((same.map _).nodup_iff.mp distinct) (acyclic.perm same) (means.perm distinct same)
    (paths.perm same) otherNonempty
  exact ⟨task, greatest.perm same,
    fun head rest isOthers isGreatest => first head rest isOthers (isGreatest.perm same.symm),
      result⟩

theorem heads_iff (means : Means tasks meaning)
    (paths : Paths tasks meaning path) : Heads tasks task ↔ Greatest tasks meaning task := by
  constructor
  · rintro ⟨rest, linked, greatest⟩
    have member := linked.known task List.mem_cons_self
    refine ⟨member, fun other inside => ?_⟩
    obtain ⟨-, otherLinked, sum, -⟩ := paths other inside
    have below := greatest _ otherLinked
    rw [sum] at below
    exact (means.nonneg other inside).le_trans (chainWeight_nonneg _) (means.nonneg task member)
      below (means.chainWeight_le distinct linked)
  · intro greatest
    obtain ⟨⟨rest, isPath⟩, linked, sum, -⟩ := paths task greatest.1
    rw [isPath] at linked sum
    exact ⟨rest, linked, fun chain inside => sum ▸ greatest.chainWeight_le distinct means inside⟩

/-- The task at the head of the list is that of the path, if a heaviest chain starts there. -/
theorem exists_perm_path (acyclic : NoLongCycle tasks)
    (means : Means tasks meaning) (paths : Paths tasks meaning path)
    (greatest : Greatest tasks meaning task) : ∃ others, tasks.Perm others ∧
      (calculateCriticalPath others).bind (·.path.head?) = some task.id := by
  obtain ⟨before, after, split⟩ := List.append_of_mem greatest.1
  have same : tasks.Perm (task :: (before ++ after)) := split ▸ List.perm_middle
  obtain ⟨found, -, first, result⟩ := calculateCriticalPath_perm distinct acyclic means paths
    (List.ne_nil_of_mem greatest.1) same
  obtain rfl := first task _ rfl greatest
  obtain ⟨⟨rest, isPath⟩, -⟩ := paths found greatest.1
  refine ⟨_, same, ?_⟩
  rw [result, isPath]
  rfl

end

/-- Without long cycles the contract holds exactly when all heaviest chains
start at one task. -/
theorem orderIndependent_iff (parseDate : String → Option ℤ)
    (localeCompare : JsonString → JsonString → Bool) (capacityTasks : List CapacityTask)
    (timeEntries : List TimeEntryLike) (distinct : (tasks.map TaskLike.id).Nodup)
    (capacityDistinct : (capacityTasks.map CapacityTask.id).Nodup) (acyclic : NoLongCycle tasks) :
    OrderIndependent parseDate localeCompare tasks capacityTasks timeEntries ↔
      ∀ first second, Heads tasks first → Heads tasks second → first = second := by
  obtain ⟨meaning, means⟩ := exists_meaning distinct acyclic
  obtain ⟨path, paths⟩ := exists_paths distinct acyclic means
  simp only [heads_iff distinct means paths]
  constructor
  · rintro ⟨independent, -⟩ first second firstGreatest secondGreatest
    obtain ⟨others, same, head⟩ := exists_perm_path distinct acyclic means paths firstGreatest
    obtain ⟨moved, movedSame, movedHead⟩ :=
      exists_perm_path distinct acyclic means paths secondGreatest
    rw [independent others same, ← independent moved movedSame, movedHead] at head
    exact List.inj_on_of_nodup_map distinct firstGreatest.1 secondGreatest.1 (Option.some.inj head).symm
  · intro unique
    refine ⟨fun others same => ?_, fun others moved same sameEntries =>
      calculateProjectCapacity_perm localeCompare capacityDistinct same sameEntries⟩
    by_cases nonempty : tasks = []
    · subst nonempty
      rw [List.nil_perm.mp same]
    · obtain ⟨task, greatest, -, result⟩ :=
        calculateCriticalPath_perm distinct acyclic means paths nonempty (List.Perm.refl tasks)
      obtain ⟨other, otherGreatest, -, otherResult⟩ :=
        calculateCriticalPath_perm distinct acyclic means paths nonempty same
      rw [result, otherResult, unique task other greatest otherGreatest]

end

def shipping : List CapacityTask :=
  [⟨⟨none, none⟩, "ship", some 3, some [Json.jsonString "alice"]⟩]

theorem orderIndependent_iff_twoTasks :
    OrderIndependent (fun _ => none) (fun _ _ => true) twoTasks shipping [] ↔
      ∀ first second, Heads twoTasks first → Heads twoTasks second → first = second :=
  orderIndependent_iff _ _ _ _ (by decide) (by decide) acyclic_twoTasks.noLongCycle

def twoFree : List TaskLike :=
  [⟨"ship", none, none, none⟩, ⟨"build", none, none, none⟩]

/-- Each of two tasks without dependencies is critical when it is listed first. -/
theorem tie_depends_on_order :
    ¬∀ (parseDate : String → Option ℤ) (localeCompare : JsonString → JsonString → Bool)
      (tasks : List TaskLike) (capacityTasks : List CapacityTask)
      (timeEntries : List TimeEntryLike), (tasks.map TaskLike.id).Nodup →
      (capacityTasks.map CapacityTask.id).Nodup →
      OrderIndependent parseDate localeCompare tasks capacityTasks timeEntries := by
  intro claimed
  have same := (claimed (fun _ => none) (fun _ _ => true) twoFree [] [] (by decide) (by decide)).1
    twoFree.reverse (List.reverse_perm _).symm
  have paths := congrArg (Option.map CriticalPath.path) same
  revert paths
  decide +kernel

end P2PHub.Tasks
