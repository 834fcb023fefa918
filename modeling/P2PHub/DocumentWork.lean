import P2PHub.AsyncCalls

/-!
# Work on a stored document

The code of an asynchronous function as a tree: it draws fresh texts and reads
the clock within a turn, and is suspended where it awaits an answer, loads the
stored document or saves one.  A storage access takes effect at some time
between the turn that asks for it and the turn that goes on with it.
-/

namespace P2PHub.Documents

open AsyncCalls (Pool Label Turn)

inductive Work (Document Answer Result : Type)
  | done (result : Result)
  | draw (next : String → Work Document Answer Result)
  | clock (next : String → Work Document Answer Result)
  | await (next : Answer → Work Document Answer Result)
  | load (next : Document → Work Document Answer Result)
  | save (document : Document) (next : Work Document Answer Result)

namespace Work

variable {Document Answer Result Other : Type}

def andThen : Work Document Answer Result → (Result → Work Document Answer Other) →
    Work Document Answer Other
  | done result, continued => continued result
  | draw next, continued => draw fun text => (next text).andThen continued
  | clock next, continued => clock fun now => (next now).andThen continued
  | await next, continued => await fun answer => (next answer).andThen continued
  | load next, continued => load fun document => (next document).andThen continued
  | save document next, continued => save document (next.andThen continued)

instance : Monad (Work Document Answer) where
  pure := done
  bind := andThen

/-- What a work takes in: the texts that it draws and reads off the clock, and
the answers it awaits. -/
inductive Input (Answer : Type)
  | text (text : String)
  | answer (answer : Answer)

/-- Run a work to its next suspension point.  Gives how many texts are drawn
then, and what the work took in. -/
def settle (source : Nat → String) (now : String) (drawn : Nat) :
    Work Document Answer Result → Nat × List (Input Answer) × Work Document Answer Result
  | draw next =>
    let rest := settle source now (drawn + 1) (next (source drawn))
    (rest.1, .text (source drawn) :: rest.2.1, rest.2.2)
  | clock next =>
    let rest := settle source now drawn (next now)
    (rest.1, .text now :: rest.2.1, rest.2.2)
  | work => (drawn, [], work)

def Idle : Work Document Answer Result → Prop
  | done _ => True
  | draw next => ∀ text, (next text).Idle
  | clock next => ∀ now, (next now).Idle
  | await next => ∀ answer, (next answer).Idle
  | load _ => False
  | save _ _ => False

variable {source : Nat → String} {now : String}

theorem Idle.settle {work : Work Document Answer Result} (idle : work.Idle) (drawn : Nat) :
    (work.settle source now drawn).2.2.Idle := by
  induction work generalizing drawn with
  | draw next ih | clock next ih => exact ih _ (idle _) _
  | _ => exact idle

theorem drawn_le_settle (work : Work Document Answer Result) (drawn : Nat) :
    drawn ≤ (work.settle source now drawn).1 := by
  induction work generalizing drawn with
  | draw next ih =>
    have later : drawn + 1 ≤ ((next (source drawn)).settle source now (drawn + 1)).1 := ih _ _
    exact Nat.le_of_succ_le later
  | clock next ih => exact ih _ _
  | _ => exact Nat.le_refl drawn

end Work

/-- The stored document, and how many texts are drawn. -/
structure DocumentStore (Document : Type) where
  stored : Document
  drawn : Nat

/-- Where a call stands: suspended, or with the storage access done that it
goes on after, or ended by an access that failed. -/
inductive Stage (Document Answer Result : Type)
  | suspended (work : Work Document Answer Result)
  | performed (work : Work Document Answer Result)
  | failed

structure DocumentCall (Request Document Answer Result : Type) where
  request : Request
  inputs : List (Work.Input Answer)
  loaded : Option Document
  saved : Option Document
  stage : Stage Document Answer Result

inductive DocumentReply (Answer : Type)
  | performed
  | failed
  | settled (now : String)
  | answered (now : String) (answer : Answer)

inductive DocumentEvent (Request Document Result : Type)
  | started (request : Request)
  | saved (document : Document)
  | returned (result : Result)

section

variable {Request Document Answer Result : Type}

def DocumentCall.result? (call : DocumentCall Request Document Answer Result) : Option Result :=
  match call.stage with
  | .suspended (.done result) => some result
  | _ => none

def DocumentCall.goOn (source : Nat → String) (now : String) (store : DocumentStore Document)
    (call : DocumentCall Request Document Answer Result) (taken : List (Work.Input Answer))
    (work : Work Document Answer Result) :
    DocumentStore Document × DocumentCall Request Document Answer Result :=
  let settled := work.settle source now store.drawn
  ({ store with drawn := settled.1 },
    { call with inputs := call.inputs ++ taken ++ settled.2.1, stage := .suspended settled.2.2 })

def DocumentCall.returns (call : DocumentCall Request Document Answer Result) :
    List (DocumentEvent Request Document Result) :=
  (call.result?).toList.map .returned

def newCall (request : Request) : DocumentCall Request Document Answer Result where
  request := request
  inputs := []
  loaded := none
  saved := none
  stage := .failed

/-- Calls that work on one stored document without a lock. -/
def documentProgram (code : Request → Work Document Answer Result) (source : Nat → String) :
    AsyncCalls.Program (DocumentStore Document) (Request × String)
      (DocumentCall Request Document Answer Result) (DocumentReply Answer)
      (DocumentEvent Request Document Result) where
  launch store action :=
    let begun := (newCall action.1).goOn source action.2 store [] (code action.1)
    (begun.1, some (begun.2, .started action.1 :: begun.2.returns))
  resume store call reply :=
    match call.stage, reply with
    | .suspended (.load next), .performed =>
      some (store, { call with
        loaded := some store.stored, stage := .performed (next store.stored) }, [])
    | .suspended (.save document next), .performed =>
      some ({ store with stored := document }, { call with
        saved := some document, stage := .performed next }, [.saved document])
    | .suspended (.load _), .failed => some (store, { call with stage := .failed }, [])
    | .suspended (.save _ _), .failed => some (store, { call with stage := .failed }, [])
    | .suspended (.await next), .answered now answer =>
      let turn := call.goOn source now store [.answer answer] (next answer)
      some (turn.1, turn.2, turn.2.returns)
    | .performed work, .settled now =>
      let turn := call.goOn source now store [] work
      some (turn.1, turn.2, turn.2.returns)
    | _, _ => none

theorem documentProgram_leaves (code : Request → Work Document Answer Result)
    (source : Nat → String) (store : DocumentStore Document) (action : Request × String) :
    ((documentProgram code source).launch store action).2.isSome :=
  rfl

end

section

variable {Request Document Answer Result : Type}
  {code : Request → Work Document Answer Result} {source : Nat → String}

inductive Served (code : Request → Work Document Answer Result) (source : Nat → String)
    (store : DocumentStore Document) :
    Label (Request × String) (DocumentReply Answer) →
      Option (DocumentCall Request Document Answer Result) → DocumentStore Document →
      DocumentCall Request Document Answer Result →
      List (DocumentEvent Request Document Result) → Prop
  | began (request : Request) (now : String) :
      Served code source store (.launch (request, now)) none
        ((newCall request).goOn source now store [] (code request)).1
        ((newCall request).goOn source now store [] (code request)).2
        (.started request :: ((newCall request).goOn source now store [] (code request)).2.returns)
  | loaded {call : DocumentCall Request Document Answer Result}
      {next : Document → Work Document Answer Result} (index : Nat)
      (stage : call.stage = .suspended (.load next)) :
      Served code source store (.resume index .performed) (some call) store
        { call with loaded := some store.stored, stage := .performed (next store.stored) } []
  | saved {call : DocumentCall Request Document Answer Result} {document : Document}
      {next : Work Document Answer Result} (index : Nat)
      (stage : call.stage = .suspended (.save document next)) :
      Served code source store (.resume index .performed) (some call)
        { store with stored := document }
        { call with saved := some document, stage := .performed next } [.saved document]
  | failed {call : DocumentCall Request Document Answer Result}
      {work : Work Document Answer Result} (index : Nat) (stage : call.stage = .suspended work)
      (busy : ¬work.Idle) :
      Served code source store (.resume index .failed) (some call) store
        { call with stage := .failed } []
  | answered {call : DocumentCall Request Document Answer Result}
      {next : Answer → Work Document Answer Result} (index : Nat) (now : String) (answer : Answer)
      (stage : call.stage = .suspended (.await next)) :
      Served code source store (.resume index (.answered now answer)) (some call)
        (call.goOn source now store [.answer answer] (next answer)).1
        (call.goOn source now store [.answer answer] (next answer)).2
        (call.goOn source now store [.answer answer] (next answer)).2.returns
  | settled {call : DocumentCall Request Document Answer Result}
      {work : Work Document Answer Result} (index : Nat) (now : String)
      (stage : call.stage = .performed work) :
      Served code source store (.resume index (.settled now)) (some call)
        (call.goOn source now store [] work).1 (call.goOn source now store [] work).2
        (call.goOn source now store [] work).2.returns

theorem served_turn {pool next : Pool (DocumentStore Document)
      (DocumentCall Request Document Answer Result)}
    {label : Label (Request × String) (DocumentReply Answer)} {index : Nat}
    {call : DocumentCall Request Document Answer Result}
    {emitted : List (DocumentEvent Request Document Result)}
    (turn : Turn (documentProgram code source) pool next label index call emitted) :
    Served code source pool.shared label pool.calls[index]? next.shared call emitted := by
  rcases turn.taken with ⟨action, rfl, missing, launched⟩ | ⟨reply, before, rfl, found, resumed⟩
  · simp only [documentProgram, Prod.mk.injEq, Option.some.injEq] at launched
    obtain ⟨sharedEq, callEq, emittedEq⟩ := launched
    rw [missing, ← sharedEq, ← callEq, ← emittedEq]
    exact .began action.1 action.2
  · rw [found]
    simp only [documentProgram] at resumed
    split at resumed
    · next stage =>
        simp only [Option.some.injEq, Prod.mk.injEq] at resumed
        obtain ⟨sharedEq, rfl, rfl⟩ := resumed
        rw [← sharedEq]
        exact .loaded index stage
    · next stage =>
        simp only [Option.some.injEq, Prod.mk.injEq] at resumed
        obtain ⟨sharedEq, rfl, rfl⟩ := resumed
        rw [← sharedEq]
        exact .saved index stage
    · next stage =>
        simp only [Option.some.injEq, Prod.mk.injEq] at resumed
        obtain ⟨sharedEq, rfl, rfl⟩ := resumed
        rw [← sharedEq]
        exact .failed index stage id
    · next stage =>
        simp only [Option.some.injEq, Prod.mk.injEq] at resumed
        obtain ⟨sharedEq, rfl, rfl⟩ := resumed
        rw [← sharedEq]
        exact .failed index stage id
    · next now answer stage =>
        simp only [Option.some.injEq, Prod.mk.injEq] at resumed
        obtain ⟨sharedEq, rfl, rfl⟩ := resumed
        rw [← sharedEq]
        exact .answered index now answer stage
    · next now stage =>
        simp only [Option.some.injEq, Prod.mk.injEq] at resumed
        obtain ⟨sharedEq, rfl, rfl⟩ := resumed
        rw [← sharedEq]
        exact .settled index now stage
    · cases resumed

end

variable {Request Document Answer Result : Type}
  {call : DocumentCall Request Document Answer Result}

def DocumentCall.work? (call : DocumentCall Request Document Answer Result) :
    Option (Work Document Answer Result) :=
  match call.stage with
  | .suspended work => some work
  | .performed work => some work
  | .failed => none

theorem work_of_result {result : Result} (returned : call.result? = some result) :
    call.work? = some (.done result) := by
  unfold DocumentCall.result? at returned
  split at returned
  · next stage =>
      cases returned
      rw [DocumentCall.work?, stage]
  · cases returned

def DocumentCall.isSaving (call : DocumentCall Request Document Answer Result) : Bool :=
  match call.stage with
  | .suspended (.save _ _) => true
  | _ => false

end P2PHub.Documents
