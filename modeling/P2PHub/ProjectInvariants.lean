import P2PHub.ProjectCompletion
import P2PHub.ProjectSteps

/-!
# Invariants of projects

What a mutation that succeeds does to the graphs of a project, and the sound
graphs of every document that a sequence of mutations leads to.
-/

namespace P2PHub.SmartTasks

open Project

section

variable {doc : Project} {taskId : String} {change : Task → Task} {status : Option TaskStatus}

theorem graph_modifyTask {update : GraphNode → GraphNode}
    (changes : ∀ task, (change task).node = update task.node) :
    (doc.modifyTask taskId change).graph =
      doc.graph.map fun node => if node.id = taskId then update node else node := by
  simp only [graph, modifyTask, List.map_map]
  apply List.map_congr_left
  intro task _
  have nodeId : task.node.id = task.id := rfl
  simp only [Function.comp_apply, nodeId]
  split
  · exact changes task
  · rfl

theorem graph_modifyTask_same (same : ∀ task, (change task).node = task.node) :
    (doc.modifyTask taskId change).graph = doc.graph := by
  have mapped : (doc.modifyTask taskId change).graph =
      doc.graph.map fun node => if node.id = taskId then node else node :=
    graph_modifyTask (fun task => same task)
  rw [mapped]
  simp

theorem graph_restatus {proof : Task → Option TaskCompletionProof} :
    (doc.modifyTask taskId fun task =>
      { task with status, completionProof := proof task }).graph = doc.graph :=
  graph_modifyTask_same fun _ => rfl

theorem graph_modifyTask_parent {parent : Option String} :
    (doc.modifyTask taskId fun task => { task with parentTaskId := parent }).graph =
      setParent doc.graph taskId parent :=
  graph_modifyTask fun _ => rfl

theorem predecessorsOf_sync (task : Task) (ids : List String) :
    predecessorsOf (syncDependencyFields task ids) = ids := by
  simp only [predecessorsOf, syncDependencyFields, List.map_map]
  conv_rhs => rw [← List.map_id ids]
  apply List.map_congr_left
  intro id _
  simp only [Function.comp_apply, id_eq]
  cases found : task.predecessors.reverse.find? fun predecessor => decide (predecessor.taskId = id)
    with
  | none => rfl
  | some =>
    have matching := List.find?_some found
    exact of_decide_eq_true matching

theorem node_sync (task : Task) (ids : List String) : (syncDependencyFields task ids).node =
      { task.node with dependencies := some ids, predecessors := ids } := by
  unfold Task.node
  rw [predecessorsOf_sync]
  rfl

theorem graph_modifyTask_sync {ids : List String}
    (keeps : ∀ task, (change task).node.id = task.node.id ∧
      (change task).node.parent = task.node.parent) :
    (doc.modifyTask taskId fun task => syncDependencyFields (change task) ids).graph =
      redirect doc.graph taskId ids := by
  apply graph_modifyTask
  intro task
  simp only [node_sync, (keeps task).1, (keeps task).2]

theorem graph_addTask (patch : Patch) (id : String) (parent : Option String) :
    { doc with tasks := doc.tasks ++ [patch.newTask id parent] }.graph =
      addNode doc.graph id parent := by
  simp [graph, addNode, Task.node, Patch.newTask, predecessorsOf]

theorem graph_closeBelow (closed : List String) : (doc.closeBelow closed).graph = doc.graph := by
  simp only [graph, closeBelow, List.map_map]
  apply List.map_congr_left
  intro task _
  simp only [Function.comp_apply]
  split <;> rfl

theorem graph_cascadeDone : (cascadeDone doc taskId).graph = doc.graph := by
  obtain ⟨closed, same, -⟩ := cascadeDone_spec doc taskId
  rw [same, graph_closeBelow]

theorem graph_closeSubtree : (closeSubtree doc taskId status).graph = doc.graph := by
  unfold closeSubtree
  split
  · exact graph_cascadeDone
  · rfl

end

/-- What a mutation may do to the graphs of a project. -/
inductive GraphStep (graph : List GraphNode) (freshId : String) : List GraphNode → Prop
  | kept : GraphStep graph freshId graph
  | added {parent : Option String}
      (exists_ : ∀ above, parent = some above → above ∈ graph.map GraphNode.id) :
      GraphStep graph freshId (addNode graph freshId parent)
  | moved {id : String} {parent : Option String}
      (exists_ : ∀ above, parent = some above → above ∈ graph.map GraphNode.id ∧
        ¬Relation.ReflTransGen (ChildOf graph) above id) :
      GraphStep graph freshId (setParent graph id parent)
  | redirected {id : String} {ids : List String} (unrepeated : ids.Nodup)
      (existing : ∀ other ∈ ids, other ∈ graph.map GraphNode.id)
      (acyclic : Acyclic (DependsOn (redirect graph id ids))) :
      GraphStep graph freshId (redirect graph id ids)

variable {graph : List GraphNode} {operation taskId : String} {value : Value}
  {parent : Option String} {task : Task} {moved : Project × Task} {ids : List String}
  {predecessor : Predecessor} {predecessors : List Predecessor}

theorem GraphStep.sound {after : List GraphNode} {freshId : String}
    (step : GraphStep graph freshId after) (fresh : freshId ∉ graph.map GraphNode.id)
    (sound : SoundGraph graph) : SoundGraph after := by
  cases step with
  | kept => exact sound
  | added exists_ => exact sound.addNode fresh exists_
  | moved exists_ => exact sound.setParent exists_
  | redirected unrepeated existing acyclic => exact sound.redirect unrepeated existing acyclic

variable {runtime : Runtime} {doc edited : Project} {freshId : String}

theorem graph_congr {base : Project} (same : base.tasks = doc.tasks) : base.graph = doc.graph := by
  rw [graph, graph, same]

theorem KeepsNode.node {change : Task → Task} (keeps : KeepsNode change) (task : Task) :
    (change task).node = task.node := by
  simp only [Task.node, predecessorsOf, keeps.id, keeps.parentTaskId, keeps.dependencies,
    keeps.predecessors]

theorem mem_graph_ids {id : String} (there : ∃ task, findTask doc id = some task) :
    id ∈ doc.graph.map GraphNode.id := by
  obtain ⟨task, found⟩ := there
  rw [graph_ids]
  exact mem_taskIds_of_findTask found

theorem newParentOf_ok (sound : SoundGraph doc.graph) {cycle : String}
    (given : newParentOf runtime operation cycle doc taskId value = .ok parent) :
    ∀ above, parent = some above → above ∈ doc.graph.map GraphNode.id ∧
      ¬Relation.ReflTransGen (ChildOf doc.graph) above taskId := by
  intro above isParent
  subst isParent
  cases value with
  | string =>
    simp only [newParentOf, bind_eq_ok, ensure_eq_ok, pure_eq_ok, Option.some.injEq] at given
    obtain ⟨task, required, ⟨⟩, acyclic, rfl⟩ := given
    constructor
    · exact mem_graph_ids ⟨task, requireTask_ok required⟩
    · apply not_leads_of_wouldCreateParentCycle sound
      simpa using acyclic
  | _ => cases given

theorem moveUpdated_ok (moves : moveUpdated runtime doc task value = .ok moved) :
    moved = (doc, task) ∨ ∃ operation cycle newParent,
      newParentOf runtime operation cycle doc task.id value = .ok newParent ∧
        moved = (doc.modifyTask task.id fun task => { task with parentTaskId := newParent },
          { task with parentTaskId := newParent }) := by
  cases value with
  | undefined => exact .inl (Except.ok.inj moves).symm
  | _ =>
    simp only [moveUpdated, map_eq_ok] at moves
    obtain ⟨newParent, given, rfl⟩ := moves
    exact .inr ⟨_, _, newParent, given, rfl⟩

theorem graphStep_of_moved (sound : SoundGraph doc.graph) {cycle : String}
    (given : newParentOf runtime operation cycle doc taskId value = .ok parent) :
    GraphStep doc.graph freshId
      (doc.modifyTask taskId fun task => { task with parentTaskId := parent }).graph := by
  rw [graph_modifyTask_parent]
  exact .moved (newParentOf_ok sound given)

theorem graphStep_of_updated (sound : SoundGraph doc.graph) {patch : Patch}
    (moves : moveUpdated runtime (doc.modifyTask taskId patch.apply) (patch.apply task) value =
      .ok moved) :
    GraphStep doc.graph freshId (closeSubtree moved.1 taskId patch.status).graph := by
  have patched : (doc.modifyTask taskId patch.apply).graph = doc.graph :=
    graph_modifyTask_same fun _ => rfl
  rw [graph_closeSubtree]
  rcases moveUpdated_ok moves with rfl | ⟨_, _, newParent, given, rfl⟩
  · rw [patched]
    exact .kept
  · rw [← patched]
    exact graphStep_of_moved (patched ▸ sound) given

theorem dependsOn_redirect {id dependency : String}
    (depends : DependsOn (redirect graph taskId ids) id dependency) :
    DependsOn graph id dependency ∨ (id = taskId ∧ dependency ∈ ids) := by
  obtain ⟨node, member, rfl, listed⟩ := depends
  obtain ⟨before, present, rfl⟩ := List.mem_map.mp member
  split at listed
  · next same => exact .inr ⟨by rw [if_pos same]; exact same, listed⟩
  · next apart =>
      rw [if_neg apart]
      exact .inl ⟨before, present, rfl, listed⟩

theorem map_taskId_replaceF (predecessors : List Predecessor) (predecessor : Predecessor) :
    (predecessors.replaceF fun existing =>
      if existing.taskId = predecessor.taskId then some predecessor else none).map
        Predecessor.taskId = predecessors.map Predecessor.taskId := by
  induction predecessors with
  | nil => rfl
  | cons existing rest ih =>
    by_cases same : existing.taskId = predecessor.taskId
    · simp [List.replaceF, same]
    · simp [List.replaceF, same, ih]

theorem setPredecessor_ok (set : setPredecessor doc task predecessor = .ok predecessors) :
    (predecessors.map Predecessor.taskId = predecessorsOf task ∧
        predecessor.taskId ∈ predecessorsOf task) ∨
      (predecessors.map Predecessor.taskId = predecessorsOf task ++ [predecessor.taskId] ∧
        predecessor.taskId ∉ predecessorsOf task ∧
        wouldCreateCycle doc task.id predecessor.taskId = false) := by
  unfold setPredecessor at set
  split at set
  · next known =>
      rw [← Except.ok.inj set, map_taskId_replaceF]
      exact .inl ⟨rfl, known⟩
  · next unknown =>
      split at set
      · cases set
      · next acyclic =>
          rw [← Except.ok.inj set, List.map_append]
          exact .inr ⟨rfl, unknown, by simpa using acyclic⟩

section

variable (sound : SoundGraph doc.graph) (found : findTask doc taskId = some task)
include sound found

theorem predecessorsOf_sound : (predecessorsOf task).Nodup ∧
      (∀ id ∈ predecessorsOf task, id ∈ doc.graph.map GraphNode.id ∧
        DependsOn doc.graph taskId id) := by
  obtain ⟨member, rfl⟩ := findTask_some found
  have isNode : task.node ∈ doc.graph := List.mem_map_of_mem member
  refine ⟨sound.unrepeated _ isNode, fun id listed => ⟨sound.existing _ isNode id listed, ?_⟩⟩
  refine ⟨task.node, isNode, rfl, ?_⟩
  rw [sound.synced _ isNode]
  exact listed

theorem graphStep_of_linked (exists_ : ∃ other, findTask doc predecessor.taskId = some other)
    (set : setPredecessor doc task predecessor = .ok predecessors) : GraphStep doc.graph freshId
      (doc.modifyTask taskId fun task =>
        syncDependencyFields { task with predecessors }
          (predecessors.map Predecessor.taskId)).graph := by
  have sameId := (findTask_some found).2
  obtain ⟨unrepeated, existing⟩ := predecessorsOf_sound sound found
  have redirects : (doc.modifyTask taskId fun task =>
      syncDependencyFields { task with predecessors } (predecessors.map Predecessor.taskId)).graph =
        redirect doc.graph taskId (predecessors.map Predecessor.taskId) :=
    graph_modifyTask_sync fun _ => ⟨rfl, rfl⟩
  rw [redirects]
  rcases setPredecessor_ok set with ⟨ids, known⟩ | ⟨ids, unknown, acyclic⟩ <;> rw [ids]
  · refine .redirected unrepeated (fun id listed => (existing id listed).1) ?_
    apply sound.acyclic.mono
    intro id dependency depends
    rcases dependsOn_redirect depends with before | ⟨rfl, listed⟩
    · exact before
    · exact (existing dependency listed).2
  · refine .redirected ?_ ?_ ?_
    · apply List.Nodup.append unrepeated (List.nodup_singleton _)
      simpa using unknown
    · intro id listed
      rcases List.mem_append.mp listed with old | new
      · exact (existing id old).1
      · rw [List.mem_singleton.mp new]
        exact mem_graph_ids exists_
    · rw [sameId] at acyclic
      apply (sound.acyclic.addEdge (not_leads_of_wouldCreateCycle sound acyclic)).mono
      intro id dependency depends
      rcases dependsOn_redirect depends with before | ⟨rfl, listed⟩
      · exact .inl before
      · rcases List.mem_append.mp listed with old | new
        · exact .inl (existing dependency old).2
        · exact .inr ⟨rfl, List.mem_singleton.mp new⟩

end

theorem checkDependencies_ok (checked : checkDependencies operation doc taskId ids = .ok ()) :
    ∀ id ∈ ids, id ≠ taskId ∧ ∃ task, findTask doc id = some task := by
  induction ids with
  | nil => exact fun id member => absurd member List.not_mem_nil
  | cons id ids ih =>
    simp only [checkDependencies, bind_eq_ok, ensure_eq_ok, decide_eq_true_eq] at checked
    obtain ⟨⟨⟩, apart, task, required, rest⟩ := checked
    intro other member
    rcases List.mem_cons.mp member with rfl | later
    · exact ⟨apart, task, requireTask_ok required⟩
    · exact ih rest other later

theorem replaceDependencies_ok
    {replaced : Project} (replaces : replaceDependencies operation doc taskId ids = .ok replaced) :
    (∀ id ∈ ids, id ≠ taskId ∧ ∃ task, findTask doc id = some task) ∧
      wouldCreateDependencyCycle doc taskId ids = false ∧
      replaced = doc.modifyTask taskId fun task => syncDependencyFields task ids := by
  simp only [replaceDependencies, bind_eq_ok, ensure_eq_ok, pure_eq_ok] at replaces
  obtain ⟨⟨⟩, checked, ⟨⟩, acyclic, rfl⟩ := replaces
  exact ⟨checkDependencies_ok checked, by simpa using acyclic, rfl⟩

theorem graphStep_of_redirected (sound : SoundGraph doc.graph)
    {replaced : Project} (unrepeated : ids.Nodup)
    (replaces : replaceDependencies operation doc taskId ids = .ok replaced) :
    GraphStep doc.graph freshId replaced.graph := by
  obtain ⟨existing, acyclic, rfl⟩ := replaceDependencies_ok replaces
  rw [graph_modifyTask_sync fun _ => ⟨rfl, rfl⟩]
  exact .redirected unrepeated (fun id listed => mem_graph_ids (existing id listed).2)
    (acyclic_of_wouldCreateDependencyCycle sound acyclic)

theorem TaskStep.graphStep (step : TaskStep runtime doc freshId edited)
    (sound : SoundGraph doc.graph) : GraphStep doc.graph freshId edited.graph := by
  cases step with
  | kept same =>
    rw [graph_congr same.tasks]
    exact .kept
  | edited same keeps =>
    rw [graph_modifyTask_same keeps.node, graph_congr same.tasks]
    exact .kept
  | added exists_ =>
    rw [graph_addTask]
    exact .added fun above isParent => mem_graph_ids (exists_ above isParent)
  | moved given => exact graphStep_of_moved sound given
  | updated _ moves => exact graphStep_of_updated sound moves
  | restatused =>
    rw [graph_closeSubtree, graph_restatus]
    exact .kept
  | linked found exists_ set => exact graphStep_of_linked sound found exists_ set
  | redirected unrepeated replaces => exact graphStep_of_redirected sound unrepeated replaces

end P2PHub.SmartTasks
