import P2PHub.ProjectAgreement

/-!
# The cycle detectors of a project

`wouldCreateDependencyCycle` and `wouldCreateCycle` of
`plugins/tasks/src/index.ts`, and the two mutations that add a dependency.
-/

namespace P2PHub.SmartTasks

open WorklistSearch

section

variable {doc : Project} {taskId predecessorTaskId id dependency : String} {ids : List String}

def Depends (doc : Project) (id dependency : String) : Prop :=
  ∃ task, findTask doc id = some task ∧ dependency ∈ dependenciesOf task

def Precedes (doc : Project) (id predecessor : String) : Prop :=
  ∃ task, findTask doc id = some task ∧ predecessor ∈ predecessorsOf task

def DependsWith (doc : Project) (taskId : String) (ids : List String) (id dependency : String) :
    Prop :=
  ∃ task, findTask doc id = some task ∧
    dependency ∈ if id = taskId then ids else dependenciesOf task

theorem mem_overriddenDependencies : dependency ∈ (overriddenDependencies doc taskId ids).next id ↔
      DependsWith doc taskId ids id dependency := by
  simp only [overriddenDependencies, DependsWith]
  cases found : findTask doc id with
  | none => simp
  | some =>
    obtain ⟨-, rfl⟩ := findTask_some found
    simp

theorem wouldCreateDependencyCycle_iff : wouldCreateDependencyCycle doc taskId ids ↔
      ∃ id, Relation.TransGen (DependsWith doc taskId ids) id id := by
  have same : (fun id dependency => dependency ∈ (overriddenDependencies doc taskId ids).next id) =
      DependsWith doc taskId ids := by
    funext id dependency
    exact propext mem_overriddenDependencies
  rw [wouldCreateDependencyCycle, Adjacency.hasCycle_iff, Adjacency.Reaches, same]

theorem mem_predecessorIds_iff : dependency ∈ predecessorIds doc id ↔ Precedes doc id dependency :=
    by
  rw [predecessorIds, Precedes]
  cases findTask doc id with
  | none | some => simp

theorem leads_predecessorIds : Leads (predecessorIds doc) id dependency ↔
      Relation.ReflTransGen (Precedes doc) id dependency := by
  have same : (fun id dependency => dependency ∈ predecessorIds doc id) = Precedes doc := by
    funext id dependency
    exact propext mem_predecessorIds_iff
  rw [Leads, same]

theorem wouldCreateCycle_iff : wouldCreateCycle doc taskId predecessorTaskId ↔
      Relation.ReflTransGen (Precedes doc) predecessorTaskId taskId := by
  rw [← leads_predecessorIds, wouldCreateCycle]
  cases ran : (predecessorSearch doc taskId).run () [] [predecessorTaskId] with
  | error =>
    simp only [true_iff]
    have follows : ∀ state visited id after pushed,
        (predecessorSearch doc taskId).visit state visited id = .ok (after, pushed) →
          ∀ other ∈ pushed, other ∈ predecessorIds doc id := by
      intro _ visited id _ pushed visits other member
      simp only [predecessorSearch] at visits
      split at visits
      · cases visits
      · cases visits
        exact List.mem_of_mem_filter member
    obtain ⟨start, isStart, id, _, visited, leads, stops⟩ := run_stops_reached follows ran
    obtain rfl := List.mem_singleton.mp isStart
    simp only [predecessorSearch] at stops
    split at stops
    · next same => exact same ▸ leads
    · cases stops
  | ok =>
    simp only [Bool.false_eq_true, false_iff]
    refine run_misses ?_ ran (List.mem_singleton.mpr rfl)
    intro _ visited id _ pushed visits
    simp only [predecessorSearch] at visits
    split at visits
    · cases visits
    · next apart =>
        cases visits
        refine ⟨apart, fun successor follows => ?_⟩
        by_cases known : successor ∈ visited
        · exact .inl known
        · exact .inr (List.mem_filter.mpr ⟨follows, decide_eq_true known⟩)

end

section

variable {doc : Project} {taskId predecessorTaskId : String} {ids : List String} {task : Task}
  {id dependency : String} {change : Task → Task}

/-- The two representations of the dependencies of every task have the same ids. -/
def EdgesAgree (doc : Project) : Prop :=
  ∀ task ∈ doc.tasks, ∀ id, id ∈ dependenciesOf task ↔ id ∈ predecessorsOf task

theorem EdgesAgree.precedes (agree : EdgesAgree doc) : Precedes doc = Depends doc := by
  funext id other
  apply propext
  constructor
  · rintro ⟨task, found, listed⟩
    exact ⟨task, found, (agree task (findTask_some found).1 other).mpr listed⟩
  · rintro ⟨task, found, listed⟩
    exact ⟨task, found, (agree task (findTask_some found).1 other).mp listed⟩

theorem dependsWith_added (found : findTask doc taskId = some task)
    (added : ∀ id, id ∈ ids ↔ id ∈ dependenciesOf task ∨ id = predecessorTaskId) :
    DependsWith doc taskId ids id dependency ↔
      Depends doc id dependency ∨ (id = taskId ∧ dependency = predecessorTaskId) := by
  constructor
  · rintro ⟨other, otherFound, listed⟩
    split at listed
    · next same =>
        subst same
        cases found.symm.trans otherFound
        exact ((added dependency).mp listed).imp (fun old => ⟨task, found, old⟩) fun new => ⟨rfl,
          new⟩
    · exact .inl ⟨other, otherFound, listed⟩
  · rintro (⟨other, otherFound, listed⟩ | ⟨rfl, rfl⟩)
    · refine ⟨other, otherFound, ?_⟩
      split
      · next same =>
          subst same
          cases found.symm.trans otherFound
          exact (added dependency).mpr (.inl listed)
      · exact listed
    · exact ⟨task, found, by rw [if_pos rfl]; exact (added dependency).mpr (.inr rfl)⟩

theorem cycle_dependsWith_iff (acyclic : Acyclic (Depends doc))
    (found : findTask doc taskId = some task)
    (added : ∀ id, id ∈ ids ↔ id ∈ dependenciesOf task ∨ id = predecessorTaskId) :
    (∃ id, Relation.TransGen (DependsWith doc taskId ids) id id) ↔
      Relation.ReflTransGen (Depends doc) predecessorTaskId taskId := by
  constructor
  · rintro ⟨id, cycle⟩
    by_contra unreached
    have extended := (acyclic.addEdge unreached).mono fun _ _ =>
      (dependsWith_added found added).mp
    exact extended id cycle
  · intro path
    have lifted : Relation.ReflTransGen (DependsWith doc taskId ids) predecessorTaskId taskId :=
      Relation.ReflTransGen.mono (fun _ _ old => (dependsWith_added found added).mpr (.inl old))
        _ _ path
    have edge : DependsWith doc taskId ids taskId predecessorTaskId :=
      (dependsWith_added found added).mpr (.inr ⟨rfl, rfl⟩)
    exact ⟨taskId, .trans_left (.single edge) lifted⟩

theorem depends_sync (keeps : ∀ task, (change task).id = task.id) :
    Depends (doc.modifyTask taskId fun task => syncDependencyFields (change task) ids) id dependency ↔
      DependsWith doc taskId ids id dependency := by
  have found : findTask (doc.modifyTask taskId fun task => syncDependencyFields (change task) ids) id =
      (findTask doc id).map fun task =>
        if task.id = taskId then syncDependencyFields (change task) ids else task :=
    findTask_modifyTask keeps
  rw [Depends, DependsWith, found]
  cases here : findTask doc id with
  | none => simp
  | some =>
    obtain ⟨-, rfl⟩ := findTask_some here
    simp only [Option.map_some, Option.some.injEq, exists_eq_left']
    split <;> rfl

theorem precedes_sync (keeps : ∀ task, (change task).id = task.id) (agree : EdgesAgree doc) :
    Precedes (doc.modifyTask taskId fun task => syncDependencyFields (change task) ids) id dependency ↔
      DependsWith doc taskId ids id dependency := by
  have found : findTask (doc.modifyTask taskId fun task => syncDependencyFields (change task) ids) id =
      (findTask doc id).map fun task =>
        if task.id = taskId then syncDependencyFields (change task) ids else task :=
    findTask_modifyTask keeps
  rw [Precedes, DependsWith, found]
  cases here : findTask doc id with
  | none => simp
  | some task =>
    obtain ⟨member, rfl⟩ := findTask_some here
    simp only [Option.map_some, Option.some.injEq, exists_eq_left']
    split
    · rw [predecessorsOf_sync]
    · exact (agree task member dependency).symm

end

section

variable {around : Surroundings} {projectId : String} {doc : Project}
  {taskId : String} {ids : List String} {task : Task} {type lagDays : Value}
  {applied : Applied} {input : SetDependencyInput}

theorem checkDependencies_eq_ok {operation : String}
    (checks : ∀ id ∈ ids, id ≠ taskId ∧ ∃ task, findTask doc id = some task) :
    checkDependencies operation doc taskId ids = .ok () := by
  induction ids with
  | nil => rfl
  | cons id ids ih =>
    obtain ⟨⟨apart, task, found⟩, others⟩ := List.forall_mem_cons.mp checks
    simp only [checkDependencies, bind_eq_ok, ensure_eq_ok, decide_eq_true_eq]
    exact ⟨(), apart, task, by rw [requireTask, found], ih others⟩

theorem dependencyIdsOf_strings {operation : String} (named : ∀ id ∈ ids, id ≠ "") :
    dependencyIdsOf operation (.array (ids.map .string)) = .ok ids.eraseDups := by
  have read (step : Value → Option String) (reads : ∀ id ∈ ids, step (.string id) = some id) :
      (ids.map Value.string).mapM step = some ids := by
    clear named
    induction ids with
    | nil => rfl
    | cons id ids ih =>
      obtain ⟨here, others⟩ := List.forall_mem_cons.mp reads
      rw [List.map_cons, List.mapM_cons, here, ih others]
      rfl
  unfold dependencyIdsOf
  dsimp only
  rw [read _ fun id member => if_neg (named id member)]

/-- A dependency is added when the task and the predecessor are there, and the
edge is there already or closes no cycle. -/
theorem rawSetDependency_ok_iff {kind : DependencyType}
    {lag : Binary64} (isType : dependencyTypeOf input.type = .ok kind)
    (isLag : lagDaysOf input.lagDays = .ok lag) :
    (∃ applied, rawSetDependency around projectId input (.ok (some doc)) = .ok applied) ↔
      ∃ task, findTask doc input.taskId = some task ∧
        (∃ other, findTask doc input.predecessorTaskId = some other) ∧
        (input.predecessorTaskId ∈ predecessorsOf task ∨
          wouldCreateCycle doc input.taskId input.predecessorTaskId = false) := by
  constructor
  · rintro ⟨applied, applies⟩
    simp only [rawSetDependency, bind_eq_ok, pure_eq_ok] at applies
    obtain ⟨type, -, lagDays, -, read, isDoc, task, required, other, there, predecessors, set, -⟩ :=
      applies
    cases requireProject_ok isDoc
    have found := requireTask_ok required
    refine ⟨task, found, ⟨other, requireTask_ok there⟩, ?_⟩
    obtain ⟨-, sameId⟩ := findTask_some found
    rcases setPredecessor_ok set with ⟨-, known⟩ | ⟨-, -, acyclic⟩
    · exact .inl known
    · rw [sameId] at acyclic
      exact .inr acyclic
  · rintro ⟨task, found, ⟨other, there⟩, free⟩
    have set : ∃ predecessors, setPredecessor doc task ⟨input.predecessorTaskId, kind, lag⟩ =
        .ok predecessors := by
      unfold setPredecessor
      split
      · exact ⟨_, rfl⟩
      · next unknown =>
          have acyclic := free.resolve_left unknown
          obtain ⟨-, sameId⟩ := findTask_some found
          rw [sameId, acyclic]
          exact ⟨_, rfl⟩
    obtain ⟨predecessors, set⟩ := set
    let linked := doc.modifyTask input.taskId fun task =>
      syncDependencyFields { task with predecessors } (predecessors.map Predecessor.taskId)
    refine ⟨saveProject around linked "setDependency", ?_⟩
    simp only [rawSetDependency, bind_eq_ok, pure_eq_ok]
    exact ⟨kind, isType, lag, isLag, doc, rfl, task, by rw [requireTask, found], other,
      by rw [requireTask, there], predecessors, set, rfl⟩

/-- Dependencies are replaced when all of them are other tasks and they close
no cycle. -/
theorem rawSetDependencies_ok_iff (named : ∀ id ∈ ids, id ≠ "") :
    (∃ applied, rawSetDependencies around projectId taskId (.array (ids.map .string))
      (.ok (some doc)) = .ok applied) ↔ (∃ task, findTask doc taskId = some task) ∧
          (∀ id ∈ ids, id ≠ taskId ∧ ∃ task, findTask doc id = some task) ∧
            wouldCreateDependencyCycle doc taskId ids.eraseDups = false := by
  constructor
  · rintro ⟨applied, applies⟩
    simp only [rawSetDependencies, bind_eq_ok, pure_eq_ok, dependencyIdsOf_strings named,
      Except.ok.injEq, exists_eq_left'] at applies
    obtain ⟨read, isDoc, task, required, replaced, replaces, -⟩ := applies
    cases requireProject_ok isDoc
    simp only [replaceDependencies, bind_eq_ok, ensure_eq_ok] at replaces
    obtain ⟨⟨⟩, checked, ⟨⟩, acyclic, -⟩ := replaces
    refine ⟨⟨task, requireTask_ok required⟩, ?_, by simpa using acyclic⟩
    intro id member
    exact checkDependencies_ok checked id (List.mem_eraseDups.mpr member)
  · rintro ⟨⟨task, found⟩, checks, acyclic⟩
    have checked : checkDependencies "setDependencies" doc taskId ids.eraseDups = .ok () :=
      checkDependencies_eq_ok fun id member => checks id (List.mem_eraseDups.mp member)
    let replaced := doc.modifyTask taskId fun task => syncDependencyFields task ids.eraseDups
    refine ⟨saveProject around replaced "setDependencies", ?_⟩
    simp only [rawSetDependencies, bind_eq_ok, pure_eq_ok, dependencyIdsOf_strings named,
      Except.ok.injEq, exists_eq_left']
    refine ⟨doc, rfl, task, by rw [requireTask, found], replaced, ?_, rfl⟩
    simp only [replaceDependencies, bind_eq_ok, ensure_eq_ok, pure_eq_ok]
    exact ⟨(), checked, (), by rw [acyclic]; rfl, rfl⟩

/-- The edges that a project stores when the dependencies of a task are replaced. -/
def StoresEdges (doc : Project) (taskId : String) (ids : List String) (after : Project) : Prop :=
  (∀ id dependency, Depends after id dependency ↔ DependsWith doc taskId ids id dependency) ∧
    ∀ id dependency, Precedes after id dependency ↔ DependsWith doc taskId ids id dependency

theorem rawSetDependency_stores (agree : EdgesAgree doc)
    (applies : rawSetDependency around projectId input (.ok (some doc)) = .ok applied) :
    ∃ task ids, findTask doc input.taskId = some task ∧
      (∀ id, id ∈ ids ↔ id ∈ dependenciesOf task ∨ id = input.predecessorTaskId) ∧
        StoresEdges doc input.taskId ids applied.doc := by
  simp only [rawSetDependency, bind_eq_ok, pure_eq_ok] at applies
  obtain ⟨type, -, lagDays, -, read, isDoc, task, required, other, there, predecessors, set, rfl⟩ :=
    applies
  cases requireProject_ok isDoc
  have found := requireTask_ok required
  refine ⟨task, predecessors.map Predecessor.taskId, found, ?_, ?_⟩
  · intro id
    rw [agree task (findTask_some found).1 id]
    rcases setPredecessor_ok set with ⟨sameIds, known⟩ | ⟨moreIds, -⟩
    · rw [sameIds]
      constructor
      · exact .inl
      · rintro (old | rfl)
        · exact old
        · exact known
    · rw [moreIds, List.mem_append, List.mem_singleton]
  · let change (task : Task) : Task := { task with predecessors }
    have keeps : ∀ task, (change task).id = task.id := fun _ => rfl
    exact ⟨fun id dependency => depends_sync keeps, fun id dependency => precedes_sync keeps agree⟩

theorem rawSetDependencies_stores (agree : EdgesAgree doc) (named : ∀ id ∈ ids, id ≠ "")
    (applies : rawSetDependencies around projectId taskId (.array (ids.map .string))
      (.ok (some doc)) = .ok applied) : StoresEdges doc taskId ids.eraseDups applied.doc := by
  simp only [rawSetDependencies, bind_eq_ok, pure_eq_ok, dependencyIdsOf_strings named,
    Except.ok.injEq, exists_eq_left'] at applies
  obtain ⟨read, isDoc, -, -, replaced, replaces, rfl⟩ := applies
  cases requireProject_ok isDoc
  simp only [replaceDependencies, bind_eq_ok, ensure_eq_ok, pure_eq_ok] at replaces
  obtain ⟨-, -, -, -, rfl⟩ := replaces
  have keeps : ∀ task, (id task : Task).id = task.id := fun _ => rfl
  exact ⟨fun id dependency => depends_sync keeps, fun id dependency => precedes_sync keeps agree⟩

end

variable {around : Surroundings} {projectId : String} {doc : Project}
  {taskId predecessorTaskId : String}

def dependencyIds (doc : Project) (taskId : String) : List String :=
  match findTask doc taskId with
  | none => []
  | some task => dependenciesOf task

def addsDependency (around : Surroundings) (projectId taskId predecessorTaskId : String)
    (doc : Project) : Except String Applied :=
  rawSetDependency around projectId { taskId, predecessorTaskId } (.ok (some doc))

def addsDependencies (around : Surroundings) (projectId taskId predecessorTaskId : String)
    (doc : Project) : Except String Applied :=
  rawSetDependencies around projectId taskId
    (.array ((dependencyIds doc taskId ++ [predecessorTaskId]).map .string)) (.ok (some doc))

theorem added_accepted_iff (acyclic : Acyclic (Depends doc)) (agree : EdgesAgree doc)
    (existing : ∀ id ∈ dependencyIds doc taskId, id ≠ "" ∧ ∃ task, findTask doc id = some task)
    (named : predecessorTaskId ≠ "") :
    (∃ applied, addsDependency around projectId taskId predecessorTaskId doc = .ok applied) ↔
      ∃ applied, addsDependencies around projectId taskId predecessorTaskId doc = .ok applied := by
  have allNamed : ∀ id ∈ dependencyIds doc taskId ++ [predecessorTaskId], id ≠ "" := by
    intro id member
    rcases List.mem_append.mp member with old | new
    · exact (existing id old).1
    · exact List.mem_singleton.mp new ▸ named
  rw [addsDependency, rawSetDependency_ok_iff rfl rfl, addsDependencies,
    rawSetDependencies_ok_iff allNamed]
  cases found : findTask doc taskId with
  | none => simp
  | some task =>
    have own : dependencyIds doc taskId = dependenciesOf task := by rw [dependencyIds, found]
    rw [own] at existing ⊢
    have added : ∀ id, id ∈ (dependenciesOf task ++ [predecessorTaskId]).eraseDups ↔
        id ∈ dependenciesOf task ∨ id = predecessorTaskId := by
      intro id
      rw [List.mem_eraseDups, List.mem_append, List.mem_singleton]
    have cycles : wouldCreateDependencyCycle doc taskId
        (dependenciesOf task ++ [predecessorTaskId]).eraseDups = false ↔
          ¬Relation.ReflTransGen (Depends doc) predecessorTaskId taskId := by
      rw [← Bool.not_eq_true, wouldCreateDependencyCycle_iff,
        cycle_dependsWith_iff acyclic found added]
    have walks : wouldCreateCycle doc taskId predecessorTaskId = false ↔
        ¬Relation.ReflTransGen (Depends doc) predecessorTaskId taskId := by
      rw [← Bool.not_eq_true, wouldCreateCycle_iff, agree.precedes]
    have known : predecessorTaskId ∈ predecessorsOf task →
        ¬Relation.ReflTransGen (Depends doc) predecessorTaskId taskId := by
      intro listed path
      have edge : Depends doc taskId predecessorTaskId :=
        ⟨task, found, (agree task (findTask_some found).1 _).mpr listed⟩
      exact acyclic taskId (.trans_left (.single edge) path)
    have apart : ∀ id ∈ dependenciesOf task, id ≠ taskId := by
      rintro id listed rfl
      exact acyclic id (.single ⟨task, found, listed⟩)
    rw [cycles, walks]
    constructor
    · rintro ⟨_, same, there, free⟩
      cases same
      have unreached := free.elim known id
      refine ⟨⟨task, rfl⟩, ?_, unreached⟩
      intro id member
      rcases List.mem_append.mp member with old | new
      · exact ⟨apart id old, (existing id old).2⟩
      · obtain rfl := List.mem_singleton.mp new
        exact ⟨fun same => unreached (same ▸ .refl), there⟩
    · rintro ⟨-, checks, unreached⟩
      exact ⟨task, rfl, (checks _ (by simp)).2, .inr unreached⟩

theorem added_edges (agree : EdgesAgree doc)
    (existing : ∀ id ∈ dependencyIds doc taskId, id ≠ "" ∧ ∃ task, findTask doc id = some task)
    (named : predecessorTaskId ≠ "") {one other : Applied}
    (single : addsDependency around projectId taskId predecessorTaskId doc = .ok one)
    (whole : addsDependencies around projectId taskId predecessorTaskId doc = .ok other)
    (id dependency : String) : (Depends one.doc id dependency ↔ Depends other.doc id dependency) ∧
      (Precedes one.doc id dependency ↔ Precedes other.doc id dependency) := by
  have allNamed : ∀ id ∈ dependencyIds doc taskId ++ [predecessorTaskId], id ≠ "" := by
    intro id member
    rcases List.mem_append.mp member with old | new
    · exact (existing id old).1
    · exact List.mem_singleton.mp new ▸ named
  obtain ⟨task, ids, found, added, oneDepends, onePrecedes⟩ := rawSetDependency_stores agree single
  obtain ⟨otherDepends, otherPrecedes⟩ := rawSetDependencies_stores agree allNamed whole
  have own : dependencyIds doc taskId = dependenciesOf task := by rw [dependencyIds, found]
  have same : DependsWith doc taskId ids id dependency ↔ DependsWith doc taskId
      (dependencyIds doc taskId ++ [predecessorTaskId]).eraseDups id dependency := by
    rw [dependsWith_added found added, dependsWith_added found]
    intro id
    rw [List.mem_eraseDups, List.mem_append, List.mem_singleton, own]
  constructor
  · rw [oneDepends, otherDepends, same]
  · rw [onePrecedes, otherPrecedes, same]

/-- Both detectors are exact on any project.  Where the dependencies have no
cycle and both representations agree, and those of the task are tasks, the two
mutations that add a dependency accept the same ones and store the same edges. -/
theorem cycleDetectors_exact (doc : Project) :
    (∀ taskId ids, wouldCreateDependencyCycle doc taskId ids ↔
      ∃ id, Relation.TransGen (DependsWith doc taskId ids) id id) ∧
    (∀ taskId predecessorTaskId, wouldCreateCycle doc taskId predecessorTaskId ↔
      taskId = predecessorTaskId ∨ Relation.TransGen (Precedes doc) predecessorTaskId taskId) ∧
    (Acyclic (Depends doc) → EdgesAgree doc → ∀ around projectId taskId predecessorTaskId,
      (∀ id ∈ dependencyIds doc taskId, id ≠ "" ∧ ∃ task, findTask doc id = some task) →
        predecessorTaskId ≠ "" →
          ((∃ applied, addsDependency around projectId taskId predecessorTaskId doc = .ok applied) ↔
            ∃ applied,
              addsDependencies around projectId taskId predecessorTaskId doc = .ok applied) ∧
          ∀ one other, addsDependency around projectId taskId predecessorTaskId doc = .ok one →
              addsDependencies around projectId taskId predecessorTaskId doc = .ok other →
                ∀ id dependency, (Depends one.doc id dependency ↔ Depends other.doc id dependency) ∧
                  (Precedes one.doc id dependency ↔ Precedes other.doc id dependency)) := by
  refine ⟨fun _ _ => wouldCreateDependencyCycle_iff, ?_, ?_⟩
  · intro taskId predecessorTaskId
    rw [wouldCreateCycle_iff, Relation.reflTransGen_iff_eq_or_transGen]
  · intro acyclic agree around projectId taskId predecessorTaskId existing named
    exact ⟨added_accepted_iff acyclic agree existing named,
      fun _ _ single whole => added_edges agree existing named single whole⟩

theorem addsDependency_leaf {task other : Task} (found : findTask doc taskId = some task)
    (there : findTask doc predecessorTaskId = some other) (apart : taskId ≠ predecessorTaskId)
    (leaf : predecessorsOf other = []) :
    ∃ applied, addsDependency around projectId taskId predecessorTaskId doc = .ok applied := by
  refine (rawSetDependency_ok_iff rfl rfl).mpr ⟨task, found, ⟨other, there⟩, .inr ?_⟩
  rw [← Bool.not_eq_true, wouldCreateCycle_iff, Relation.reflTransGen_iff_eq_or_transGen]
  rintro (same | path)
  · exact apart same
  · obtain ⟨_, ⟨task, isTask, listed⟩, -⟩ := Relation.TransGen.head'_iff.mp path
    cases there.symm.trans isTask
    rw [leaf] at listed
    cases listed

theorem cycleDetectors_exact_trip :
    ∃ applied, addsDependencies { freshId := "", now := "" } "p" "b" "a"
      (tripProject [tripTask "a" "Trip" none [], tripTask "b" "Pack" none []] 0) = .ok applied := by
  let doc := tripProject [tripTask "a" "Trip" none [], tripTask "b" "Pack" none []] 0
  have none : ∀ id, dependencyIds doc id = [] := by
    intro id
    unfold dependencyIds
    cases found : findTask doc id with
    | none => rfl
    | some =>
      have member := (findTask_some found).1
      rcases List.mem_pair.mp member with rfl | rfl <;> rfl
  have acyclic : Acyclic (Depends doc) := by
    intro id cycle
    obtain ⟨_, ⟨task, found, listed⟩, -⟩ := Relation.TransGen.head'_iff.mp cycle
    have empty := none id
    rw [dependencyIds, found] at empty
    rw [show dependenciesOf task = [] from empty] at listed
    cases listed
  have agree : EdgesAgree doc := by
    intro task member id
    rcases List.mem_pair.mp member with rfl | rfl <;> rfl
  refine ((cycleDetectors_exact doc).2.2 acyclic agree { freshId := "", now := "" } "p" "b" "a" ?_
    (by decide)).1.mp (addsDependency_leaf rfl rfl (by decide) rfl)
  exact List.forall_mem_nil _

/-- A dependency that is missing is in the way of replacing the dependencies,
but not of adding one. -/
theorem missing_dependency_divides : ¬∀ (doc : Project) (around : Surroundings)
    (projectId taskId predecessorTaskId : String), Acyclic (Depends doc) → EdgesAgree doc →
      ((∃ applied, addsDependency around projectId taskId predecessorTaskId doc = .ok applied) ↔
        ∃ applied, addsDependencies around projectId taskId predecessorTaskId doc = .ok applied) :=
          by
  intro accepted
  let doc := tripProject [tripTask "a" "Trip" none ["gone"], tripTask "b" "Pack" none []] 0
  have edges : ∀ id dependency, Depends doc id dependency → id = "a" ∧ dependency = "gone" := by
    rintro id dependency ⟨task, found, listed⟩
    obtain ⟨member, rfl⟩ := findTask_some found
    rcases List.mem_pair.mp member with rfl | rfl
    · exact ⟨rfl, List.mem_singleton.mp listed⟩
    · cases listed
  have acyclic : Acyclic (Depends doc) := by
    intro id cycle
    obtain ⟨_, first, -⟩ := Relation.TransGen.head'_iff.mp cycle
    obtain ⟨_, -, last⟩ := Relation.TransGen.tail'_iff.mp cycle
    have differs : ("a" : String) ≠ "gone" := by decide
    exact differs ((edges _ _ first).1.symm.trans (edges _ _ last).2)
  have agree : EdgesAgree doc := by
    intro task member id
    rcases List.mem_pair.mp member with rfl | rfl <;> rfl
  obtain ⟨applied, whole⟩ :=
    (accepted doc { freshId := "", now := "" } "p" "a" "b" acyclic agree).mp
      (addsDependency_leaf rfl rfl (by decide) rfl)
  cases whole

end P2PHub.SmartTasks
