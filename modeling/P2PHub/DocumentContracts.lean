import P2PHub.DocumentWork

/-!
# Contracts of document calls

What the code of a call may save, by the document that it loaded and by what it
took in until then.  A contract speaks of documents that are sound after a
number of draws, so that what is drawn later is new to them.
-/

namespace P2PHub.Documents

open DocumentCall

open AsyncCalls (Pool Label Turn)

variable {Request Document Answer Result : Type}

/-- A contract: what may be saved, and what may be returned without a save. -/
structure WorkContract (Document Answer Result : Type) where
  change : List (Work.Input Answer) → Document → Document → Prop
  refuse : Result → Prop

/-- A work meets a contract: it draws from a number on, took something in, and
has loaded a document or none yet. -/
def Work.Meets (source : Nat → String) (sound : Nat → Document → Prop)
    (contract : WorkContract Document Answer Result) :
    Work Document Answer Result → Nat → List (Input Answer) → Option Document → Prop
  | done result, _, _, _ => contract.refuse result
  | draw next, least, taken, loaded => ∀ drawn, least ≤ drawn →
      (next (source drawn)).Meets source sound contract (drawn + 1)
        (taken ++ [.text (source drawn)]) loaded
  | clock next, least, taken, loaded => ∀ now,
      (next now).Meets source sound contract least (taken ++ [.text now]) loaded
  | await next, least, taken, loaded => ∀ answer,
      (next answer).Meets source sound contract least (taken ++ [.answer answer]) loaded
  | load next, least, taken, none => ∀ drawn document, least ≤ drawn → sound drawn document →
      (next document).Meets source sound contract drawn taken (some document)
  | load _, _, _, some _ => False
  | save document next, least, taken, some loaded =>
    contract.change taken loaded document ∧ sound least document ∧ next.Idle
  | save _ _, _, _, none => False

section

variable {source : Nat → String} {sound : Nat → Document → Prop}
  {contract : WorkContract Document Answer Result} {work : Work Document Answer Result}
  {least drawn : Nat} {taken : List (Work.Input Answer)} {loaded : Option Document}

variable
    (later : ∀ least drawn document, least ≤ drawn → sound least document → sound drawn document)
    (meets : work.Meets source sound contract least taken loaded)
include later meets

theorem Work.Meets.mono (le : least ≤ drawn) :
    work.Meets source sound contract drawn taken loaded := by
  induction work generalizing least drawn taken loaded with
  | done => exact meets
  | draw => exact fun number bound => meets number (Nat.le_trans le bound)
  | clock next ih => exact fun now => ih now (meets now) le
  | await next ih => exact fun answer => ih answer (meets answer) le
  | load =>
    cases loaded with
    | none => exact fun number document bound => meets number document (Nat.le_trans le bound)
    | some => exact meets.elim
  | save document =>
    cases loaded with
    | none => exact meets.elim
    | some => exact ⟨meets.1, later _ _ _ le meets.2.1, meets.2.2⟩

theorem Work.Meets.settle (now : String) (le : least ≤ drawn) :
    (work.settle source now drawn).2.2.Meets source sound contract (work.settle source now drawn).1
      (taken ++ (work.settle source now drawn).2.1) loaded := by
  have still (other : Work Document Answer Result)
      (otherMeets : other.Meets source sound contract least taken loaded) :
      other.Meets source sound contract drawn (taken ++ []) loaded := by
    rw [List.append_nil]
    exact otherMeets.mono later le
  induction work generalizing least drawn taken with
  | draw next ih =>
    have rest := ih (source drawn) (meets drawn le) (Nat.le_refl _)
      fun other otherMeets => by rwa [List.append_nil]
    rwa [List.append_assoc] at rest
  | clock next ih =>
    have rest := ih now (meets now) le fun other otherMeets => by
      rw [List.append_nil]
      exact otherMeets.mono later le
    rwa [List.append_assoc] at rest
  | done | await | load | save => exact still _ meets

end

variable {code : Request → Work Document Answer Result} {source : Nat → String}
  {sound : Nat → Document → Prop} {contract : Request → WorkContract Document Answer Result}
  {pool next : Pool (DocumentStore Document) (DocumentCall Request Document Answer Result)}
  {label : Label (Request × String) (DocumentReply Answer)} {index : Nat}
  {call : DocumentCall Request Document Answer Result}
  {emitted : List (DocumentEvent Request Document Result)} {store : DocumentStore Document}

inductive CallMeets (source : Nat → String) (sound : Nat → Document → Prop)
    (contract : Request → WorkContract Document Answer Result) (drawn : Nat)
    (call : DocumentCall Request Document Answer Result) : Prop
  | working {work : Work Document Answer Result} (left : call.work? = some work)
      (unsaved : call.saved = none)
      (known : ∀ document, call.loaded = some document → sound drawn document)
      (meets : work.Meets source sound (contract call.request) drawn call.inputs call.loaded)
  | written {work : Work Document Answer Result} (left : call.work? = some work)
      (saved : call.saved.isSome) (idle : work.Idle)
  | failed (stage : call.stage = .failed)

/-- The stored document is sound, and every call meets its contract. -/
structure MeetsContracts (source : Nat → String) (sound : Nat → Document → Prop)
    (contract : Request → WorkContract Document Answer Result)
    (pool : Pool (DocumentStore Document) (DocumentCall Request Document Answer Result)) :
    Prop where
  stored : sound pool.shared.drawn pool.shared.stored
  calls : ∀ (index : Nat) call, pool.calls[index]? = some call →
    CallMeets source sound contract pool.shared.drawn call

theorem CallMeets.mono (later : ∀ least drawn document, least ≤ drawn → sound least document →
      sound drawn document) {least drawn : Nat}
    (meets : CallMeets source sound contract least call) (le : least ≤ drawn) :
    CallMeets source sound contract drawn call := by
  cases meets with
  | working left unsaved known meets =>
    exact .working left unsaved (fun document loaded => later _ _ _ le (known document loaded))
      (meets.mono later le)
  | written left saved idle => exact .written left saved idle
  | failed stage => exact .failed stage

theorem drawn_goOn (now : String) (store : DocumentStore Document)
    (call : DocumentCall Request Document Answer Result) (taken : List (Work.Input Answer))
    (work : Work Document Answer Result) :
    store.drawn ≤ (call.goOn source now store taken work).1.drawn :=
  Work.drawn_le_settle work store.drawn

theorem Served.drawn_le {after : DocumentStore Document}
    {before : Option (DocumentCall Request Document Answer Result)}
    (served : Served code source store label before after call emitted) :
    store.drawn ≤ after.drawn := by
  cases served with
  | began | answered | settled => exact drawn_goOn _ _ _ _ _
  | loaded | saved | failed => exact Nat.le_refl _

section

variable
    (later : ∀ least drawn document, least ≤ drawn → sound least document → sound drawn document)
include later

theorem CallMeets.goOn {taken : List (Work.Input Answer)}
    {work remaining : Work Document Answer Result} (now : String)
    (callMeets : CallMeets source sound contract store.drawn call)
    (left : call.work? = some work) (idle : work.Idle → remaining.Idle)
    (continued : work.Meets source sound (contract call.request) store.drawn call.inputs
        call.loaded →
      remaining.Meets source sound (contract call.request) store.drawn (call.inputs ++ taken)
        call.loaded) :
    CallMeets source sound contract (call.goOn source now store taken remaining).1.drawn
      (call.goOn source now store taken remaining).2 := by
  cases callMeets with
  | working known unsaved sounds meets =>
    cases left.symm.trans known
    refine .working rfl unsaved (fun document loaded => ?_) ?_
    · exact later _ _ _ (drawn_goOn _ _ _ _ _) (sounds document loaded)
    · exact (continued meets).settle later now (Nat.le_refl _)
  | written known saved shape =>
    cases left.symm.trans known
    exact .written rfl saved ((idle shape).settle _)
  | failed stage =>
    rw [work?, stage] at left
    cases left

theorem MeetsContracts.step (codeMeets : ∀ request drawn,
      (code request).Meets source sound (contract request) drawn [] none)
    (meets : MeetsContracts source sound contract pool)
    (turn : Turn (documentProgram code source) pool next label index call emitted) :
    MeetsContracts source sound contract next := by
  have served := served_turn turn
  have grown : pool.shared.drawn ≤ next.shared.drawn := served.drawn_le
  have combine (stored : sound next.shared.drawn next.shared.stored)
      (own : CallMeets source sound contract next.shared.drawn call) :
      MeetsContracts source sound contract next := by
    refine ⟨stored, fun position other found => ?_⟩
    by_cases same : position = index
    · subst same
      rw [turn.located] at found
      exact Option.some.inj found ▸ own
    · rw [turn.others position same] at found
      exact (meets.calls position other found).mono later grown
  have kept : sound next.shared.drawn pool.shared.stored := later _ _ _ grown meets.stored
  generalize beforeEq : pool.calls[index]? = before at served
  generalize sharedEq : next.shared = shared at served combine kept grown
  cases served with
  | began request now =>
    refine combine kept (.working rfl rfl nofun ?_)
    exact (codeMeets request pool.shared.drawn).settle later now (Nat.le_refl _)
  | @loaded earlier rest position stage =>
    have left : earlier.work? = some (.load rest) := by rw [work?, stage]
    cases meets.calls index earlier beforeEq with
    | working known unsaved sounds contracted =>
      cases left.symm.trans known
      refine combine kept (.working rfl unsaved (fun document loaded => ?_) ?_)
      · exact Option.some.inj loaded ▸ meets.stored
      · cases loadedEq : earlier.loaded with
        | none =>
          rw [loadedEq] at contracted
          exact contracted _ _ (Nat.le_refl _) meets.stored
        | some =>
          rw [loadedEq] at contracted
          exact contracted.elim
    | written known saved idle =>
      cases left.symm.trans known
      exact idle.elim
    | failed failed => cases stage.symm.trans failed
  | @saved earlier document rest position stage =>
    have left : earlier.work? = some (.save document rest) := by rw [work?, stage]
    cases meets.calls index earlier beforeEq with
    | working known unsaved sounds contracted =>
      cases left.symm.trans known
      cases loadedEq : earlier.loaded with
      | none =>
        rw [loadedEq] at contracted
        exact contracted.elim
      | some =>
        rw [loadedEq] at contracted
        exact combine contracted.2.1 (.written rfl rfl contracted.2.2)
    | written known saved idle =>
      cases left.symm.trans known
      exact idle.elim
    | failed failed => cases stage.symm.trans failed
  | failed => exact combine kept (.failed rfl)
  | @answered earlier rest position now answer stage =>
    have left : earlier.work? = some (.await rest) := by rw [work?, stage]
    refine combine kept ((meets.calls index earlier beforeEq).goOn later now left ?_ ?_)
    · exact fun idle => idle answer
    · exact fun contracted => contracted answer
  | @settled earlier work position now stage =>
    have left : earlier.work? = some work := by rw [work?, stage]
    refine combine kept ((meets.calls index earlier beforeEq).goOn later now left id ?_)
    rw [List.append_nil]
    exact id

end

theorem meetsContracts_of_runs (later : ∀ least drawn document, least ≤ drawn →
      sound least document → sound drawn document) (codeMeets : ∀ request drawn,
      (code request).Meets source sound (contract request) drawn [] none)
    {allowed : List (Nat × DocumentEvent Request Document Result) →
      Pool (DocumentStore Document) (DocumentCall Request Document Answer Result) →
      Label (Request × String) (DocumentReply Answer) → Prop}
    {start : Document} {drawn : Nat} (begins : sound drawn start)
    {history : List (Nat × DocumentEvent Request Document Result)}
    (runs : Transition.Runs (documentProgram code source).step allowed (.initial ⟨start, drawn⟩)
      history pool) : MeetsContracts source sound contract pool := by
  refine runs.invariant (fun _ pool => MeetsContracts source sound contract pool)
    ⟨begins, fun _ _ found => by cases found⟩ ?_
  intro history before label after outputs meets _ stepped
  obtain ⟨index, call, emitted, _, turn⟩ :=
    AsyncCalls.Program.exists_turn (documentProgram_leaves code source) stepped
  exact meets.step later codeMeets turn

end P2PHub.Documents
