import Mathlib.Data.List.Nodup
import P2PHub.ProjectDocuments

/-!
# The graphs of a project

The dependencies and the parents of the tasks as two relations on their ids, when
they are sound, and what the walks of the guards say about them.
-/

namespace P2PHub.SmartTasks

open WorklistSearch

structure GraphNode where
  id : String
  parent : Option String
  dependencies : Option (List String)
  predecessors : List String
  deriving DecidableEq, Repr

def Task.node (task : Task) : GraphNode :=
  ⟨task.id, task.parentTaskId, task.dependencies, predecessorsOf task⟩

def Project.graph (doc : Project) : List GraphNode :=
  doc.tasks.map Task.node

def DependsOn (graph : List GraphNode) (id dependency : String) : Prop :=
  ∃ node ∈ graph, node.id = id ∧ dependency ∈ node.dependencies.getD node.predecessors

def ChildOf (graph : List GraphNode) (id parent : String) : Prop :=
  ∃ node ∈ graph, node.id = id ∧ node.parent = some parent

/-- The dependencies are acyclic, without duplicates and the same in both
representations, the parents are a forest, and all of them are tasks. -/
structure SoundGraph (graph : List GraphNode) : Prop where
  distinct : (graph.map GraphNode.id).Nodup
  synced : ∀ node ∈ graph, node.dependencies = some node.predecessors
  unrepeated : ∀ node ∈ graph, node.predecessors.Nodup
  existing : ∀ node ∈ graph, ∀ id ∈ node.predecessors, id ∈ graph.map GraphNode.id
  acyclic : Acyclic (DependsOn graph)
  parentsExist : ∀ node ∈ graph, ∀ parent, node.parent = some parent →
    parent ∈ graph.map GraphNode.id
  forest : Acyclic (ChildOf graph)

section

variable {graph : List GraphNode} {id : String} {parent : Option String}

def addNode (graph : List GraphNode) (id : String) (parent : Option String) : List GraphNode :=
  graph ++ [⟨id, parent, some [], []⟩]

def setParent (graph : List GraphNode) (id : String) (parent : Option String) : List GraphNode :=
  graph.map fun node => if node.id = id then { node with parent } else node

def redirect (graph : List GraphNode) (id : String) (ids : List String) : List GraphNode :=
  graph.map fun node =>
    if node.id = id then { node with dependencies := some ids, predecessors := ids } else node

theorem soundGraph_nil : SoundGraph [] where
  distinct := List.nodup_nil
  synced _ member := absurd member List.not_mem_nil
  unrepeated _ member := absurd member List.not_mem_nil
  existing _ member := absurd member List.not_mem_nil
  acyclic := acyclic_of_acc fun _ => ⟨_, fun _ ⟨_, member, _⟩ => absurd member List.not_mem_nil⟩
  parentsExist _ member := absurd member List.not_mem_nil
  forest := acyclic_of_acc fun _ => ⟨_, fun _ ⟨_, member, _⟩ => absurd member List.not_mem_nil⟩

theorem SoundGraph.mem_of_childOf (sound : SoundGraph graph) {parent : String}
    (child : ChildOf graph id parent) : parent ∈ graph.map GraphNode.id := by
  obtain ⟨node, member, -, isParent⟩ := child
  exact sound.parentsExist node member parent isParent

theorem SoundGraph.addNode (sound : SoundGraph graph) (fresh : id ∉ graph.map GraphNode.id)
    (exists_ : ∀ above, parent = some above → above ∈ graph.map GraphNode.id) :
    SoundGraph (addNode graph id parent) := by
  have ids : (SmartTasks.addNode graph id parent).map GraphNode.id =
      graph.map GraphNode.id ++ [id] := by
    simp [SmartTasks.addNode]
  have old {node : GraphNode} (member : node ∈ SmartTasks.addNode graph id parent) :
      node ∈ graph ∨ node = ⟨id, parent, some [], []⟩ := by
    simpa [SmartTasks.addNode] using member
  constructor
  · rw [ids]
    apply List.Nodup.append sound.distinct (List.nodup_singleton id)
    simpa using fresh
  · intro node member
    rcases old member with before | rfl
    · exact sound.synced node before
    · rfl
  · intro node member
    rcases old member with before | rfl
    · exact sound.unrepeated node before
    · exact List.nodup_nil
  · intro node member other isPredecessor
    rw [ids]
    rcases old member with before | rfl
    · exact List.mem_append_left _ (sound.existing node before other isPredecessor)
    · cases isPredecessor
  · apply sound.acyclic.mono
    rintro other dependency ⟨node, member, rfl, listed⟩
    rcases old member with before | rfl
    · exact ⟨node, before, rfl, listed⟩
    · cases listed
  · intro node member above isParent
    rw [ids]
    rcases old member with before | rfl
    · exact List.mem_append_left _ (sound.parentsExist node before above isParent)
    · exact List.mem_append_left _ (exists_ above isParent)
  · cases parent with
    | none =>
      apply sound.forest.mono
      rintro other above ⟨node, member, rfl, isParent⟩
      rcases old member with before | rfl
      · exact ⟨node, before, rfl, isParent⟩
      · cases isParent
    | some above =>
      have unreached : ¬Relation.ReflTransGen (ChildOf graph) above id := by
        intro path
        rcases Relation.ReflTransGen.cases_tail path with rfl | ⟨last, -, child⟩
        · exact fresh (exists_ id rfl)
        · exact fresh (sound.mem_of_childOf child)
      apply (sound.forest.addEdge unreached).mono
      rintro other upper ⟨node, member, rfl, isParent⟩
      rcases old member with before | rfl
      · exact .inl ⟨node, before, rfl, isParent⟩
      · exact .inr ⟨rfl, (Option.some.inj isParent).symm⟩

theorem mem_setParent {node : GraphNode} (member : node ∈ setParent graph id parent) :
    ∃ before ∈ graph, node = if before.id = id then { before with parent } else before := by
  obtain ⟨before, present, same⟩ := List.mem_map.mp member
  exact ⟨before, present, same.symm⟩

theorem SoundGraph.setParent (sound : SoundGraph graph)
    (exists_ : ∀ above, parent = some above → above ∈ graph.map GraphNode.id ∧
      ¬Relation.ReflTransGen (ChildOf graph) above id) :
    SoundGraph (setParent graph id parent) := by
  have ids : (SmartTasks.setParent graph id parent).map GraphNode.id = graph.map GraphNode.id := by
    rw [SmartTasks.setParent, List.map_map]
    apply List.map_congr_left
    intro node _
    simp only [Function.comp_apply]
    split <;> rfl
  have linked {node : GraphNode} (member : node ∈ SmartTasks.setParent graph id parent) :
      ∃ before ∈ graph, node.id = before.id ∧ node.dependencies = before.dependencies ∧
        node.predecessors = before.predecessors ∧
        (node.parent = before.parent ∨ (node.id = id ∧ node.parent = parent)) := by
    obtain ⟨before, present, rfl⟩ := mem_setParent member
    refine ⟨before, present, ?_⟩
    split
    · next same => exact ⟨rfl, rfl, rfl, .inr ⟨same, rfl⟩⟩
    · exact ⟨rfl, rfl, rfl, .inl rfl⟩
  constructor
  · rw [ids]
    exact sound.distinct
  · intro node member
    obtain ⟨before, present, -, dependencies, predecessors, -⟩ := linked member
    rw [dependencies, predecessors]
    exact sound.synced before present
  · intro node member
    obtain ⟨before, present, -, -, predecessors, -⟩ := linked member
    rw [predecessors]
    exact sound.unrepeated before present
  · intro node member other isPredecessor
    obtain ⟨before, present, -, -, predecessors, -⟩ := linked member
    rw [predecessors] at isPredecessor
    rw [ids]
    exact sound.existing before present other isPredecessor
  · apply sound.acyclic.mono
    rintro other dependency ⟨node, member, rfl, listed⟩
    obtain ⟨before, present, sameId, dependencies, predecessors, -⟩ := linked member
    rw [dependencies, predecessors] at listed
    exact ⟨before, present, sameId.symm, listed⟩
  · intro node member above isParent
    obtain ⟨before, present, -, -, -, kept | ⟨-, new⟩⟩ := linked member
    · rw [ids]
      exact sound.parentsExist before present above (kept ▸ isParent)
    · rw [ids]
      exact (exists_ above (new.symm.trans isParent)).1
  · have edges {other above : String}
        (child : ChildOf (SmartTasks.setParent graph id parent) other above) :
        ChildOf graph other above ∨ (other = id ∧ parent = some above) := by
      obtain ⟨node, member, rfl, isParent⟩ := child
      obtain ⟨before, present, sameId, -, -, kept | ⟨moved, new⟩⟩ := linked member
      · exact .inl ⟨before, present, sameId.symm, kept ▸ isParent⟩
      · exact .inr ⟨moved, new.symm.trans isParent⟩
    cases parent with
    | none =>
      apply sound.forest.mono
      intro other above child
      rcases edges child with old | ⟨-, none⟩
      · exact old
      · cases none
    | some above =>
      apply (sound.forest.addEdge (exists_ above rfl).2).mono
      intro other upper child
      rcases edges child with old | ⟨moved, new⟩
      · exact .inl old
      · exact .inr ⟨moved, (Option.some.inj new).symm⟩

theorem SoundGraph.redirect (sound : SoundGraph graph) {ids : List String}
    (unrepeated : ids.Nodup) (existing : ∀ other ∈ ids, other ∈ graph.map GraphNode.id)
    (acyclic : Acyclic (DependsOn (redirect graph id ids))) : SoundGraph (redirect graph id ids) :=
    by
  have sameIds : (SmartTasks.redirect graph id ids).map GraphNode.id = graph.map GraphNode.id := by
    rw [SmartTasks.redirect, List.map_map]
    apply List.map_congr_left
    intro node _
    simp only [Function.comp_apply]
    split <;> rfl
  have linked {node : GraphNode} (member : node ∈ SmartTasks.redirect graph id ids) :
      ∃ before ∈ graph, node.id = before.id ∧ node.parent = before.parent ∧
        ((node.dependencies = before.dependencies ∧ node.predecessors = before.predecessors) ∨
          (node.dependencies = some ids ∧ node.predecessors = ids)) := by
    obtain ⟨before, present, rfl⟩ := List.mem_map.mp member
    refine ⟨before, present, ?_⟩
    split
    · exact ⟨rfl, rfl, .inr ⟨rfl, rfl⟩⟩
    · exact ⟨rfl, rfl, .inl ⟨rfl, rfl⟩⟩
  constructor
  · rw [sameIds]
    exact sound.distinct
  · intro node member
    obtain ⟨before, present, -, -, ⟨dependencies, predecessors⟩ | ⟨dependencies, predecessors⟩⟩ :=
      linked member
    · rw [dependencies, predecessors]
      exact sound.synced before present
    · rw [dependencies, predecessors]
  · intro node member
    obtain ⟨before, present, -, -, ⟨-, predecessors⟩ | ⟨-, predecessors⟩⟩ := linked member
    · rw [predecessors]
      exact sound.unrepeated before present
    · rw [predecessors]
      exact unrepeated
  · intro node member other isPredecessor
    rw [sameIds]
    obtain ⟨before, present, -, -, ⟨-, predecessors⟩ | ⟨-, predecessors⟩⟩ := linked member
    · rw [predecessors] at isPredecessor
      exact sound.existing before present other isPredecessor
    · rw [predecessors] at isPredecessor
      exact existing other isPredecessor
  · exact acyclic
  · intro node member above isParent
    obtain ⟨before, present, -, sameParent, -⟩ := linked member
    rw [sameIds]
    exact sound.parentsExist before present above (sameParent ▸ isParent)
  · apply sound.forest.mono
    rintro other above ⟨node, member, rfl, isParent⟩
    obtain ⟨before, present, sameId, sameParent, -⟩ := linked member
    exact ⟨before, present, sameId.symm, sameParent ▸ isParent⟩

end

section

variable {doc : Project} {id : String} {dependency : String}

theorem graph_ids (doc : Project) : doc.graph.map GraphNode.id = doc.tasks.map Task.id := by
  simp [Project.graph, Task.node, Function.comp_def]

theorem findTask_of_mem (distinct : (doc.tasks.map Task.id).Nodup) {task : Task}
    (member : task ∈ doc.tasks) : findTask doc task.id = some task := by
  cases found : findTask doc task.id with
  | none =>
    have absent := List.find?_eq_none.mp found task member
    simp at absent
  | some =>
    obtain ⟨otherMember, sameId⟩ := findTask_some found
    rw [List.inj_on_of_nodup_map distinct otherMember member sameId]

theorem findTask_isSome (member : id ∈ doc.tasks.map Task.id) :
    ∃ task, findTask doc id = some task := by
  obtain ⟨task, present, rfl⟩ := List.mem_map.mp member
  apply Option.isSome_iff_exists.mp
  rw [findTask, List.find?_isSome]
  exact ⟨task, present, decide_eq_true rfl⟩

theorem mem_childIds {parent : String} :
    id ∈ childIds doc parent ↔ ChildOf doc.graph id parent := by
  simp only [childIds, childrenOf, List.mem_map, List.mem_filter, decide_eq_true_eq, ChildOf,
    Project.graph, Task.node, exists_exists_and_eq_and]
  constructor
  · rintro ⟨task, ⟨member, isChild⟩, rfl⟩
    exact ⟨task, member, rfl, isChild⟩
  · rintro ⟨task, member, rfl, isChild⟩
    exact ⟨task, ⟨member, isChild⟩, rfl⟩

theorem mem_parentIds (sound : SoundGraph doc.graph) {parent : String} :
    parent ∈ parentIds doc id ↔ ChildOf doc.graph id parent := by
  have distinct : (doc.tasks.map Task.id).Nodup := graph_ids doc ▸ sound.distinct
  constructor
  · intro isParent
    unfold parentIds at isParent
    split at isParent
    · cases isParent
    · next task found =>
        obtain ⟨member, rfl⟩ := findTask_some found
        exact ⟨task.node, List.mem_map_of_mem member, rfl, Option.mem_toList.mp isParent⟩
  · rintro ⟨node, member, rfl, isParent⟩
    obtain ⟨task, present, rfl⟩ := List.mem_map.mp member
    simp only [parentIds, Task.node, findTask_of_mem distinct present]
    exact Option.mem_toList.mpr isParent

theorem dependsOn_iff : DependsOn doc.graph id dependency ↔
      ∃ task ∈ doc.tasks, task.id = id ∧ dependency ∈ dependenciesOf task := by
  simp only [DependsOn, Project.graph, Task.node, List.mem_map, exists_exists_and_eq_and,
    dependenciesOf]

theorem mem_predecessorIds (sound : SoundGraph doc.graph) :
    dependency ∈ predecessorIds doc id ↔ DependsOn doc.graph id dependency := by
  have distinct : (doc.tasks.map Task.id).Nodup := graph_ids doc ▸ sound.distinct
  have synced {task : Task} (member : task ∈ doc.tasks) :
      task.dependencies = some (predecessorsOf task) :=
    sound.synced task.node (List.mem_map_of_mem member)
  rw [dependsOn_iff]
  constructor
  · intro listed
    unfold predecessorIds at listed
    split at listed
    · cases listed
    · next task found =>
        obtain ⟨member, rfl⟩ := findTask_some found
        refine ⟨task, member, rfl, ?_⟩
        rw [dependenciesOf, synced member]
        exact listed
  · rintro ⟨task, member, rfl, listed⟩
    rw [dependenciesOf, synced member] at listed
    simp only [predecessorIds, findTask_of_mem distinct member]
    exact listed

end

variable {doc : Project} {taskId other : String}

variable (sound : SoundGraph doc.graph)
include sound

theorem not_leads_of_wouldCreateCycle (acyclic : wouldCreateCycle doc taskId other = false) :
    ¬Relation.ReflTransGen (DependsOn doc.graph) other taskId := by
  intro path
  have leads : Leads (predecessorIds doc) other taskId :=
    Relation.ReflTransGen.mono (fun _ _ => (mem_predecessorIds sound).mpr) _ _ path
  unfold wouldCreateCycle at acyclic
  split at acyclic
  · cases acyclic
  · next ran =>
      refine run_misses ?_ ran (List.mem_singleton.mpr rfl) leads
      intro _ visited id _ pushed visits
      simp only [predecessorSearch] at visits
      split at visits
      · cases visits
      · next apart =>
          cases visits
          refine ⟨apart, fun successor follows => ?_⟩
          by_cases known : successor ∈ visited
          · exact .inl known
          · exact .inr (List.mem_filter.mpr ⟨follows, decide_eq_true known⟩)

theorem not_leads_of_wouldCreateParentCycle
    (acyclic : wouldCreateParentCycle doc taskId (some other) = false) :
    ¬Relation.ReflTransGen (ChildOf doc.graph) other taskId := by
  intro path
  have leads : Leads (parentIds doc) other taskId :=
    Relation.ReflTransGen.mono (fun _ _ => (mem_parentIds sound).mpr) _ _ path
  simp only [wouldCreateParentCycle] at acyclic
  split at acyclic
  · cases acyclic
  · next ran =>
      refine run_misses ?_ ran (List.mem_singleton.mpr rfl) leads
      intro _ visited id _ pushed visits
      simp only [ancestorSearch] at visits
      split at visits
      · cases visits
      · next apart =>
          cases visits
          exact ⟨apart, fun successor follows => .inr follows⟩

theorem acyclic_of_wouldCreateDependencyCycle {ids : List String}
    (acyclic : wouldCreateDependencyCycle doc taskId ids = false) :
    Acyclic (DependsOn (redirect doc.graph taskId ids)) := by
  have distinct : (doc.tasks.map Task.id).Nodup := graph_ids doc ▸ sound.distinct
  apply (acyclic_of_acc (Adjacency.acc_of_hasCycle acyclic)).mono
  rintro id dependency ⟨node, member, rfl, listed⟩
  obtain ⟨before, present, rfl⟩ := List.mem_map.mp member
  obtain ⟨task, isTask, rfl⟩ := List.mem_map.mp present
  simp only [Adjacency.Succeeds, overriddenDependencies]
  split at listed
  · next same =>
      have same : task.id = taskId := same
      simp only [Task.node, same, if_true, Option.getD_some] at listed ⊢
      rw [← same, findTask_of_mem distinct isTask]
      simpa [same] using listed
  · next apart =>
      have apart : task.id ≠ taskId := apart
      simp only [Task.node, apart, if_false] at listed ⊢
      rw [findTask_of_mem distinct isTask]
      simpa [apart, dependenciesOf] using listed

end P2PHub.SmartTasks
