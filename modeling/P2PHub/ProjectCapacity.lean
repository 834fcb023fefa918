import Mathlib.Algebra.Order.Field.Rat
import Mathlib.Data.List.Dedup
import Mathlib.Data.List.Perm.Basic
import P2PHub.CanonicalJson
import P2PHub.InsertionOrderedMap
import P2PHub.TaskDays

/-!
# The capacity of a project

`calculateProjectCapacity` of `plugins/tasks/src/computations.ts` with exact
sums: what it computes does not depend on the order of the tasks and of the
time entries.
-/

namespace P2PHub.Tasks

open Json OrderedMap

section

structure CapacityTask extends TaskWindow where
  id : String
  estimatedHours : Option ℚ
  assignedPeerIds : Option (List JsonString)

structure TimeEntryLike where
  peerId : JsonString
  start : String
  finish : String

structure PeerCapacity where
  peerId : JsonString
  estimatedHours : ℚ
  spentHours : ℚ
  workingDays : ℕ
  estimatedHoursPerDay : ℚ
  overCapacity : Bool
deriving DecidableEq

structure ProjectCapacity where
  totalEstimatedHours : ℚ
  totalSpentHours : ℚ
  workingDays : ℕ
  estimatedHoursPerDay : ℚ
  perPeer : List PeerCapacity
  overAllocation : List (JsonString × ℚ)
deriving DecidableEq

def standardHoursPerDay : ℚ := 8

def CapacityTask.estimated (task : CapacityTask) : ℚ :=
  task.estimatedHours.getD 0

/-- The rounds of the loop over the assigned peers, for all tasks. -/
def assignments (tasks : List CapacityTask) : List (JsonString × CapacityTask) :=
  tasks.flatMap fun task => (task.assignedPeerIds.getD []).map (·, task)

def estimatedByPeer (tasks : List CapacityTask) : OrderedMap JsonString ℚ :=
  empty.tally Prod.fst 0 (fun sum round => sum + round.2.estimated) (assignments tasks)

def taskIdsByPeer (tasks : List CapacityTask) : OrderedMap JsonString (List String) :=
  empty.tally Prod.fst [] (fun ids round => ids ++ [round.2.id]) (assignments tasks)

def peerTasks (tasks : List CapacityTask) (peerId : JsonString) : List CapacityTask :=
  (((taskIdsByPeer tasks).get peerId).getD []).filterMap fun id => tasks.find? (·.id = id)

variable (parseDate : String → Option ℤ)

def hoursBetween (start finish : String) : ℚ :=
  match parseDate start, parseDate finish with
  | some startMs, some endMs => if endMs ≤ startMs then 0 else (endMs - startMs) / msPerHour
  | _, _ => 0

def TimeEntryLike.duration (entry : TimeEntryLike) : ℚ :=
  hoursBetween parseDate entry.start entry.finish

def spentByPeer (timeEntries : List TimeEntryLike) : OrderedMap JsonString ℚ :=
  empty.tally TimeEntryLike.peerId 0 (fun sum entry => sum + entry.duration parseDate)
    (timeEntries.filter (·.peerId ≠ []))

/-- The days of some tasks, each once. -/
def daysOf (tasks : List CapacityTask) : List (List Char) :=
  tasks.foldl (fun days task => (taskDaySet parseDate task.toTaskWindow).foldl addDay days) []

def sortedPeerIds (tasks : List CapacityTask) (timeEntries : List TimeEntryLike) :
    List JsonString :=
  ((estimatedByPeer tasks).keys ++ (spentByPeer parseDate timeEntries).keys).dedup.insertionSort
    KeyOrder

def projectWorkingDays (tasks : List CapacityTask) : ℕ :=
  if 0 < (daysOf parseDate tasks).length then (daysOf parseDate tasks).length else 1

def peerCapacity (tasks : List CapacityTask) (timeEntries : List TimeEntryLike)
    (peerId : JsonString) : PeerCapacity :=
  let estimatedHours := ((estimatedByPeer tasks).get peerId).getD 0
  let peerDays := daysOf parseDate (peerTasks tasks peerId)
  let workingDays := if 0 < peerDays.length then peerDays.length
    else projectWorkingDays parseDate tasks
  { peerId
    estimatedHours
    spentHours := ((spentByPeer parseDate timeEntries).get peerId).getD 0
    workingDays
    estimatedHoursPerDay := estimatedHours / workingDays
    overCapacity := standardHoursPerDay < estimatedHours / workingDays }

/-- `localeCompare` tells whether its first argument may stand before its second. -/
def calculateProjectCapacity (localeCompare : JsonString → JsonString → Bool)
    (tasks : List CapacityTask) (timeEntries : List TimeEntryLike) : ProjectCapacity :=
  let totalEstimatedHours := tasks.foldl (fun sum task => sum + task.estimated) 0
  let perPeer := (sortedPeerIds parseDate tasks timeEntries).map
    (peerCapacity parseDate tasks timeEntries)
  { totalEstimatedHours
    totalSpentHours := timeEntries.foldl (fun sum entry => sum + entry.duration parseDate) 0
    workingDays := projectWorkingDays parseDate tasks
    estimatedHoursPerDay := totalEstimatedHours / projectWorkingDays parseDate tasks
    perPeer
    overAllocation := ((perPeer.filter PeerCapacity.overCapacity).map fun peer =>
      (peer.peerId, peer.estimatedHoursPerDay)).mergeSort fun peer other =>
        localeCompare peer.1 other.1 }

end

variable {parseDate : String → Option ℤ} {tasks others : List CapacityTask}
  {timeEntries moved : List TimeEntryLike} {peerId : JsonString}

theorem foldl_add_perm {Item : Type} {items moved : List Item} (amount : Item → ℚ)
    (same : items.Perm moved) : items.foldl (fun sum item => sum + amount item) 0 =
      moved.foldl (fun sum item => sum + amount item) 0 :=
  same.foldl_eq' (fun first _ second _ sum => add_right_comm sum (amount first) (amount second)) 0

theorem assignments_perm (same : tasks.Perm others) : (assignments tasks).Perm (assignments others)
    :=
  same.flatMap_right _

theorem estimatedByPeer_perm (same : tasks.Perm others) :
    ((estimatedByPeer tasks).get peerId).getD 0 = ((estimatedByPeer others).get peerId).getD 0 := by
  rw [estimatedByPeer, estimatedByPeer, getD_get_tally, getD_get_tally]
  exact foldl_add_perm _ ((assignments_perm same).filter _)

theorem spentByPeer_perm (same : timeEntries.Perm moved) :
    ((spentByPeer parseDate timeEntries).get peerId).getD 0 =
      ((spentByPeer parseDate moved).get peerId).getD 0 := by
  rw [spentByPeer, spentByPeer, getD_get_tally, getD_get_tally]
  exact foldl_add_perm _ ((same.filter _).filter _)

theorem taskIdsByPeer_perm (same : tasks.Perm others) :
    (((taskIdsByPeer tasks).get peerId).getD []).Perm
      (((taskIdsByPeer others).get peerId).getD []) := by
  rw [taskIdsByPeer, taskIdsByPeer, getD_get_tally, getD_get_tally,
    List.foldl_append_eq_append, List.foldl_append_eq_append]
  exact (((assignments_perm same).filter _).flatMap_right _).append_left _

theorem find?_id (distinct : (tasks.map CapacityTask.id).Nodup) {id : String} {task : CapacityTask}
    : tasks.find? (·.id = id) = some task ↔ task ∈ tasks ∧ task.id = id := by
  constructor
  · intro found
    exact ⟨List.mem_of_find?_eq_some found, by simpa using List.find?_some found⟩
  · rintro ⟨member, rfl⟩
    cases found : tasks.find? (·.id = task.id) with
    | none => simpa using List.find?_eq_none.mp found task member
    | some other =>
      have same : other.id = task.id := by simpa using List.find?_some found
      rw [List.inj_on_of_nodup_map distinct (List.mem_of_find?_eq_some found) member same]

theorem peerTasks_perm (distinct : (tasks.map CapacityTask.id).Nodup) (same : tasks.Perm others) :
    (peerTasks tasks peerId).Perm (peerTasks others peerId) := by
  have finds (id : String) : tasks.find? (·.id = id) = others.find? (·.id = id) := by
    ext task
    rw [find?_id distinct, find?_id ((same.map _).nodup_iff.mp distinct), same.mem_iff]
  simp only [peerTasks, finds]
  exact (taskIdsByPeer_perm same).filterMap _

theorem foldl_addDay (days : List (List Char)) {seen : List (List Char)} (unrepeated : seen.Nodup) :
    (days.foldl addDay seen).Nodup ∧
      ∀ day, day ∈ days.foldl addDay seen ↔ day ∈ seen ∨ day ∈ days := by
  induction days generalizing seen with
  | nil => exact ⟨unrepeated, fun day => by simp⟩
  | cons first days ih =>
    have known : (addDay seen first).Nodup := addDay_nodup unrepeated
    obtain ⟨nodup, members⟩ := ih known
    refine ⟨nodup, fun day => ?_⟩
    rw [List.foldl_cons, members, mem_addDay, List.mem_cons, or_assoc]

theorem daysOf_eq (tasks : List CapacityTask) : daysOf parseDate tasks =
    (tasks.flatMap fun task => taskDaySet parseDate task.toTaskWindow).foldl addDay [] :=
  List.foldl_flatMap.symm

theorem length_daysOf_perm (same : tasks.Perm others) :
    (daysOf parseDate tasks).length = (daysOf parseDate others).length := by
  rw [daysOf_eq, daysOf_eq]
  obtain ⟨nodup, members⟩ := foldl_addDay (tasks.flatMap fun task =>
    taskDaySet parseDate task.toTaskWindow) List.nodup_nil
  obtain ⟨otherNodup, otherMembers⟩ := foldl_addDay (others.flatMap fun task =>
    taskDaySet parseDate task.toTaskWindow) List.nodup_nil
  apply List.Perm.length_eq
  rw [List.perm_ext_iff_of_nodup nodup otherNodup]
  intro day
  rw [members, otherMembers, (same.flatMap_right _).mem_iff]

theorem projectWorkingDays_perm (same : tasks.Perm others) :
    projectWorkingDays parseDate tasks = projectWorkingDays parseDate others := by
  rw [projectWorkingDays, projectWorkingDays, length_daysOf_perm same]

theorem peerCapacity_perm (distinct : (tasks.map CapacityTask.id).Nodup)
    (same : tasks.Perm others) (sameEntries : timeEntries.Perm moved) :
    peerCapacity parseDate tasks timeEntries = peerCapacity parseDate others moved := by
  funext peerId
  simp only [peerCapacity, estimatedByPeer_perm same, spentByPeer_perm sameEntries,
    length_daysOf_perm (peerTasks_perm distinct same), projectWorkingDays_perm same]

theorem sortedPeerIds_perm (same : tasks.Perm others) (sameEntries : timeEntries.Perm moved) :
    sortedPeerIds parseDate tasks timeEntries = sortedPeerIds parseDate others moved := by
  have known (peerId : JsonString) :
      peerId ∈ (estimatedByPeer tasks).keys ++ (spentByPeer parseDate timeEntries).keys ↔
        peerId ∈ (estimatedByPeer others).keys ++ (spentByPeer parseDate moved).keys := by
    simp only [List.mem_append, estimatedByPeer, spentByPeer, mem_keys_tally,
      (assignments_perm same).mem_iff, (sameEntries.filter _).mem_iff]
  have perm := (List.perm_ext_iff_of_nodup (List.nodup_dedup _) (List.nodup_dedup _)).mpr
    (by simpa only [List.mem_dedup] using known)
  apply List.Perm.eq_of_pairwise (fun _ _ _ _ => KeyOrder.antisymm)
    (List.pairwise_insertionSort _ _) (List.pairwise_insertionSort _ _)
  exact ((List.perm_insertionSort _ _).trans perm).trans (List.perm_insertionSort _ _).symm

theorem calculateProjectCapacity_perm (localeCompare : JsonString → JsonString → Bool)
    (distinct : (tasks.map CapacityTask.id).Nodup) (same : tasks.Perm others)
    (sameEntries : timeEntries.Perm moved) :
    calculateProjectCapacity parseDate localeCompare others moved =
      calculateProjectCapacity parseDate localeCompare tasks timeEntries := by
  simp only [calculateProjectCapacity, foldl_add_perm CapacityTask.estimated same,
    foldl_add_perm (TimeEntryLike.duration parseDate) sameEntries,
    sortedPeerIds_perm same sameEntries, peerCapacity_perm distinct same sameEntries,
    projectWorkingDays_perm same]

end P2PHub.Tasks
