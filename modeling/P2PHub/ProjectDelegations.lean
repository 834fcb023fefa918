import P2PHub.ProjectWellFormed

/-!
# Delegated tasks

The handshake of `plugins/tasks/src/index.ts`: the owner delegates a task, the
delegatee accepts or declines, and only then submits the signed proof that the
task is complete.
-/

namespace P2PHub.SmartTasks

/-- Something has happened in a history, the last step of which comes first, and
a property of the steps has held since. -/
inductive Since {Step : Type} (happened : Step → List Step → Prop) (holds : Step → Prop) :
    List Step → Prop
  | now {step : Step} {earlier : List Step} (happens : happened step earlier) :
      Since happened holds (step :: earlier)
  | later {step : Step} {earlier : List Step} (since : Since happened holds earlier)
      (still : holds step) : Since happened holds (step :: earlier)

section

variable (runtime : Runtime) (taskId peerId : String)

def Delegates (step : Project × Turn) : Prop :=
  Stored runtime step ∧ step.2.mutation = .delegateTask taskId peerId

def Requests (type : MutationType) (step : Project × Turn) : Prop :=
  Stored runtime step ∧ ∃ body, step.2.mutation = .request peerId body ∧ body.Asks type taskId

/-- A step finds a task delegated to a peer, in a status. -/
def FindsDelegated (status : DelegationStatus) (step : Project × Turn) : Prop :=
  ∃ task ∈ step.1.tasks, task.id = taskId ∧ task.delegation = some { assignedTo := peerId, status }

/-- A peer has been made the delegatee, and has not answered yet. -/
def DelegatedTo : List (Project × Turn) → Prop :=
  Since (fun step _ => Delegates runtime taskId peerId step) (FindsDelegated taskId peerId .pending)

/-- The delegatee has accepted the delegation, which stands. -/
def AcceptedBy : List (Project × Turn) → Prop :=
  Since (fun step earlier => Requests runtime taskId peerId .acceptDelegation step ∧
      FindsDelegated taskId peerId .pending step ∧ DelegatedTo runtime taskId peerId earlier)
    (FindsDelegated taskId peerId .accepted)

/-- The delegatee has submitted a proof after the acceptance. -/
def SubmittedBy : List (Project × Turn) → Prop :=
  Since (fun step earlier => Requests runtime taskId peerId .submitCompletionProof step ∧
      FindsDelegated taskId peerId .accepted step ∧ AcceptedBy runtime taskId peerId earlier)
    fun _ => True

end

section

variable {runtime : Runtime} {projectId : String} {mutation : Mutation} {task edited : Task}

section

variable (edit : TaskEdit runtime projectId mutation task edited)
include edit

theorem TaskEdit.id : edited.id = task.id := by
  induction edit with
  | closed _ ih => exact ih
  | _ => rfl

/-- How a delegation comes about or changes. -/
theorem TaskEdit.delegation :
    edited.delegation = task.delegation ∨ (∃ peerId, mutation = .delegateTask task.id peerId ∧
        edited.delegation = some { assignedTo := peerId, status := .pending }) ∨
      ∃ peerId body type answer, mutation = .request peerId body ∧ body.Asks type task.id ∧
        (type = .acceptDelegation ∧ answer = .accepted ∨
          type = .declineDelegation ∧ answer = .declined) ∧
        task.delegation = some { assignedTo := peerId, status := .pending } ∧
        edited.delegation = some { assignedTo := peerId, status := answer } := by
  induction edit with
  | @delegated peerId delegates => exact .inr (.inl ⟨peerId, delegates, rfl⟩)
  | @answered peerId body type answer requests asks answers pending =>
    exact .inr (.inr ⟨peerId, body, type, answer, requests, asks, answers, pending, rfl⟩)
  | closed _ ih => exact ih
  | _ => exact .inl rfl

theorem TaskEdit.completionProof : edited.completionProof = task.completionProof ∨
      ∃ body proof, mutation = .request proof.signedBy body ∧
        body.Asks .submitCompletionProof task.id ∧
        task.delegation = some { assignedTo := proof.signedBy, status := .accepted } ∧
        proof.Verifies runtime projectId task.id ∧ edited.completionProof = some proof := by
  induction edit with
  | @proven body proof requests asks accepted verifies =>
    exact .inr ⟨body, proof, requests, asks, accepted, verifies, rfl⟩
  | closed _ ih => exact ih
  | _ => exact .inl rfl

end

/-- What the delegation and the proof of a task tell of the history. -/
structure Handed (runtime : Runtime) (projectId : String) (steps : List (Project × Turn))
    (task : Task) : Prop where
  pending : ∀ peerId, task.delegation = some { assignedTo := peerId, status := .pending } →
    DelegatedTo runtime task.id peerId steps
  accepted : ∀ peerId, task.delegation = some { assignedTo := peerId, status := .accepted } →
    AcceptedBy runtime task.id peerId steps
  proven : ∀ proof, task.completionProof = some proof →
    proof.Verifies runtime projectId task.id ∧ SubmittedBy runtime task.id proof.signedBy steps

variable {steps : List (Project × Turn)} {doc : Project} {turn : Turn}

section

variable (handed : Handed runtime projectId steps task) (present : task ∈ doc.tasks)
include handed present

theorem Handed.later : Handed runtime projectId ((doc, turn) :: steps) task where
  pending peerId delegated := .later (handed.pending peerId delegated) ⟨task, present, rfl,
    delegated⟩
  accepted peerId delegated :=
    .later (handed.accepted peerId delegated) ⟨task, present, rfl, delegated⟩
  proven proof isProof :=
    ⟨(handed.proven proof isProof).1, .later (handed.proven proof isProof).2 trivial⟩

theorem Handed.edit (stored : Stored runtime (doc, turn))
    (edit : TaskEdit runtime projectId turn.mutation task edited) :
    Handed runtime projectId ((doc, turn) :: steps) edited := by
  have later : Handed runtime projectId ((doc, turn) :: steps) task := handed.later present
  have sameId := edit.id
  constructor
  · intro peerId delegated
    rw [sameId]
    rcases edit.delegation with same | ⟨other, delegates, now⟩ |
      ⟨other, body, type, answer, -, -, answers, -, now⟩
    · exact later.pending peerId (same ▸ delegated)
    · obtain ⟨rfl, -⟩ := TaskDelegation.mk.inj (Option.some.inj (now.symm.trans delegated))
      exact .now ⟨stored, delegates⟩
    · obtain ⟨-, isPending⟩ := TaskDelegation.mk.inj (Option.some.inj (now.symm.trans delegated))
      rcases answers with ⟨-, rfl⟩ | ⟨-, rfl⟩ <;> cases isPending
  · intro peerId delegated
    rw [sameId]
    rcases edit.delegation with same | ⟨other, -, now⟩ |
      ⟨other, body, type, answer, requests, asks, answers, pending, now⟩
    · exact later.accepted peerId (same ▸ delegated)
    · cases now.symm.trans delegated
    · obtain ⟨rfl, isAccepted⟩ :=
        TaskDelegation.mk.inj (Option.some.inj (now.symm.trans delegated))
      rcases answers with ⟨rfl, -⟩ | ⟨-, rfl⟩
      · exact .now ⟨⟨stored, body, requests, asks⟩, ⟨task, present, rfl, pending⟩,
          handed.pending other pending⟩
      · cases isAccepted
  · intro proof isProof
    rw [sameId]
    rcases edit.completionProof with same | ⟨body, given, requests, asks, accepted, verifies, now⟩
    · exact later.proven proof (same ▸ isProof)
    · obtain rfl := Option.some.inj (now.symm.trans isProof)
      exact ⟨verifies, .now ⟨⟨stored, body, requests, asks⟩, ⟨task, present, rfl, accepted⟩,
        handed.accepted given.signedBy accepted⟩⟩

end

theorem Chronicle.handed (run : Chronicle runtime steps doc) :
    ∀ task ∈ doc.tasks, Handed runtime doc.id steps task := by
  induction run with
  | created creates =>
    simp only [createProject, bind_eq_ok, pure_eq_ok] at creates
    obtain ⟨title, -, budget, -, rfl⟩ := creates
    exact List.forall_mem_nil _
  | @taken steps doc after turn result run fresh takes ih =>
    rcases stored_or_unchanged takes with ⟨-, rfl⟩ | ⟨stored, applied, applies, rfl⟩
    · exact fun task member => (ih task member).later member
    · obtain ⟨written, step, saved⟩ := Mutation.apply_steps applies
      have sameId : applied.doc.id = doc.id := by
        rw [saved]
        exact step.frame.2
      rw [sameId]
      intro task member
      rcases Mutation.apply_turns run.distinct applies task member with
        ⟨fields, patch, parent, -, -, -, rfl⟩ | ⟨before, present, edit⟩
      · constructor <;> intro _ none <;> cases none
      · exact (ih before present).edit present stored edit

end

/-- In every run, a task has a completion proof only if its signature verifies
and its signer, made the delegatee by the owner, has accepted that delegation
and submitted the proof.  A delegation that is pending is answered by its
delegatee alone, and any other change of one is a new delegation by the owner. -/
theorem delegations_sound {runtime : Runtime} {steps : List (Project × Turn)} {doc : Project}
    (run : Chronicle runtime steps doc) :
    (∀ task ∈ doc.tasks, ∀ proof, task.completionProof = some proof →
      proof.Verifies runtime doc.id task.id ∧ SubmittedBy runtime task.id proof.signedBy steps) ∧
    ∀ (turn : Turn) (after : Project) (result : Except String Applied),
      turn.around.freshId ∉ doc.objectIds →
      turn.take runtime doc.id (some doc) = (some after, result) →
      ∀ old ∈ doc.tasks, ∀ new ∈ after.tasks, new.id = old.id → new.delegation = old.delegation ∨
        (∃ peerId, Delegates runtime old.id peerId (doc, turn) ∧
          new.delegation = some { assignedTo := peerId, status := .pending }) ∨
        ∃ peerId, old.delegation = some { assignedTo := peerId, status := .pending } ∧
          (Requests runtime old.id peerId .acceptDelegation (doc, turn) ∧
              new.delegation = some { assignedTo := peerId, status := .accepted } ∨
            Requests runtime old.id peerId .declineDelegation (doc, turn) ∧
              new.delegation = some { assignedTo := peerId, status := .declined }) := by
  refine ⟨fun task member => (run.handed task member).proven, ?_⟩
  intro turn after result fresh takes old oldMember new newMember sameId
  have unique : ∀ other ∈ doc.tasks, other.id = new.id → other = old := fun other member same =>
    List.inj_on_of_nodup_map run.distinct member oldMember (same.trans sameId)
  rcases stored_or_unchanged takes with ⟨-, rfl⟩ | ⟨stored, applied, applies, rfl⟩
  · exact .inl (unique new newMember rfl ▸ rfl)
  · rcases Mutation.apply_turns run.distinct applies new newMember with
      ⟨fields, patch, parent, -, -, -, rfl⟩ | ⟨before, present, edit⟩
    · have known : turn.around.freshId ∈ doc.graph.map GraphNode.id := by
        rw [graph_ids]
        exact List.mem_map.mpr ⟨old, oldMember, sameId.symm⟩
      exact absurd known (graph_fresh fresh)
    · obtain rfl := unique before present edit.id.symm
      rcases edit.delegation with same | ⟨peerId, delegates, now⟩ |
        ⟨peerId, body, type, answer, requests, asks, answers, pending, now⟩
      · exact .inl same
      · exact .inr (.inl ⟨peerId, ⟨stored, delegates⟩, now⟩)
      · refine .inr (.inr ⟨peerId, pending, ?_⟩)
        rcases answers with ⟨rfl, rfl⟩ | ⟨rfl, rfl⟩
        · exact .inl ⟨⟨stored, body, requests, asks⟩, now⟩
        · exact .inr ⟨⟨stored, body, requests, asks⟩, now⟩

/-- Every text is a date here, and every signature is one of `bo`. -/
def proofRuntime : Runtime where
  parseDate _ := some 0
  text _ := ""
  verify signedBy _ _ _ := decide (signedBy = "bo")

def packProof : TaskCompletionProof where
  signedBy := "bo"
  timestamp := "2026-01-04"
  signatureHex := "00"

/-- The project while its task is delegated to `bo`. -/
def handedProject (status : TaskStatus) (delegation : DelegationStatus)
    (completionProof : Option TaskCompletionProof) (mutationSeq : Nat) : Project :=
  { packProject with
    updatedAt := ""
    members := ["owner", "bo"]
    tasks := [{ packTask status with delegation := some ⟨"bo", delegation⟩, completionProof }]
    mutationSeq }

def handTurn (mutation : Mutation) : Turn where
  mutation := mutation
  around := { freshId := "", now := "" }

def boRequests (type : String) (proof : Value) : Turn :=
  handTurn (.request "bo" { type := .string type, taskId := .string "t", payload := { proof } })

def submitTurn : Turn :=
  boRequests "SUBMIT_COMPLETION_PROOF" (.object [("signedBy", .string "bo"),
    ("timestamp", .string "2026-01-04"), ("signatureHex", .string "00")])

def handedSteps : List (Project × Turn) :=
  [(handedProject .todo .accepted none 3, submitTurn),
    (handedProject .todo .pending none 2, boRequests "ACCEPT_DELEGATION" .undefined),
    (packProject, handTurn (.delegateTask "t" "bo")), (launchProject, launchTurn .written)]

theorem handedProject_run :
    Chronicle proofRuntime handedSteps (handedProject .done .accepted (some packProof) 4) := by
  have added : (launchTurn .written).take proofRuntime launchProject.id (some launchProject) =
      (some packProject, .ok ⟨packProject, "addTask"⟩) := by
    decide +kernel
  have delegated : (handTurn (.delegateTask "t" "bo")).take proofRuntime packProject.id
      (some packProject) = (some (handedProject .todo .pending none 2),
        .ok ⟨handedProject .todo .pending none 2, "delegateTask"⟩) := by
    decide +kernel
  have accepted : (boRequests "ACCEPT_DELEGATION" .undefined).take proofRuntime "p"
      (some (handedProject .todo .pending none 2)) = (some (handedProject .todo .accepted none 3),
          .ok ⟨handedProject .todo .accepted none 3, "acceptDelegation"⟩) := by
    decide +kernel
  have submitted : submitTurn.take proofRuntime "p" (some (handedProject .todo .accepted none 3)) =
      (some (handedProject .done .accepted (some packProof) 4),
        .ok ⟨handedProject .done .accepted (some packProof) 4, "submitCompletionProof"⟩) := by
    decide +kernel
  exact .taken (.taken (.taken (.taken (.created launchProject_created) (by decide) added)
    (by decide) delegated) (by decide) accepted) (by decide) submitted

theorem delegations_sound_pack :
    packProof.Verifies proofRuntime "p" "t" ∧ SubmittedBy proofRuntime "t" "bo" handedSteps :=
  (delegations_sound handedProject_run).1 _ (List.mem_singleton.mpr rfl) packProof rfl

end P2PHub.SmartTasks
