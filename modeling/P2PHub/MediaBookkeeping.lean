import P2PHub.MediaConsent

/-!
# The books of the media plugin

How many calls and sessions there are and whose they are.  The caps and the
uniqueness of a peer's call and session are checked before a request asks for
its confirmation and hold on when nothing takes the place in between.
-/

namespace P2PHub.Media

open MediaPhase OrderedMap MediaState Transition MediaAction SessionState AsyncCalls

open AsyncCalls (Pool Label)

section

variable (settings : MediaSettings)

/-- The call object of a request that inserted one and is suspended. -/
def MediaPhase.holds? : MediaPhase → Option Nat
  | offering place => some place
  | awaitingAnswer place => some place
  | answering place => some place
  | _ => none

def MediaPhase.peer? (state : MediaState) : MediaPhase → Option String
  | initiatorAccess peerId _ => some peerId
  | initiatorConfirming peerId _ _ => some peerId
  | offerAccess peerId _ => some peerId
  | offerConfirming peerId _ _ => some peerId
  | answerAccess peerId _ => some peerId
  | candidateAccess peerId _ => some peerId
  | candidateVerdict peerId _ _ => some peerId
  | sessionAccess peerId _ _ => some peerId
  | sessionConfirming peerId _ _ _ => some peerId
  | offering place => (state.objects[place]?).map CallState.peerId
  | awaitingAnswer place => (state.objects[place]?).map CallState.peerId
  | answering place => (state.objects[place]?).map CallState.peerId
  | finished _ => none

def operationPeer (pool : Pool MediaState MediaPhase) : Label MediaAction MediaReply → Option String
  | .launch (.initiateCall peerId _) => some (peerIdOf peerId)
  | .launch (.requestSession peerId _ _) => some (peerIdOf peerId)
  | .launch (.hangup peerId) => some (peerIdOf peerId)
  | .launch (.handleOffer _ invoker) => invoker
  | .launch (.handleAnswer _ invoker) => invoker
  | .launch (.handleCandidate _ invoker _) => invoker
  | .launch _ => none
  | .resume index _ => (pool.calls[index]?).bind (peer? pool.shared)

structure WithinBounds (state : MediaState) : Prop where
  calls : state.callCount ≤ maxCalls
  sessions : state.sessionCount ≤ maxSessions
  one_session : ∀ first second firstSession secondSession,
    state.sessions.get first = some firstSession → state.sessions.get second = some secondSession →
      firstSession.peerId = secondSession.peerId → first = second
  one_inbound : ∀ first second firstPlace secondPlace firstCall secondCall,
    state.callUnder first = some (firstPlace, firstCall) →
      state.callUnder second = some (secondPlace, secondCall) → firstCall.role = .callee →
      secondCall.role = .callee → firstCall.peerId = secondCall.peerId → first = second

/-- A turn leaves the entries of other peers, and a call that it reports as
initiated is in the map. -/
structure FairTurn (pool : Pool MediaState MediaPhase) (label : Label MediaAction MediaReply)
    (next : Pool MediaState MediaPhase) : Prop where
  entries : ∀ callId place call, pool.shared.callUnder callId = some (place, call) →
    next.shared.calls.get callId = some place ∨ operationPeer pool label = some call.peerId
  initiated : ∀ (index : Nat) callId sdp,
    next.calls[index]? = some (.finished (.initiated callId sdp)) →
      pool.calls[index]? = next.calls[index]? ∨
        ∃ place, pool.calls[index]? = some (.awaitingAnswer place) ∧
          next.shared.calls.get callId = some place

/-- No entry has the identifier, and no suspended request holds a call object
with it. -/
def FreeCallId (pool : Pool MediaState MediaPhase) (callId : String) : Bool :=
  (pool.shared.calls.get callId).isNone && pool.calls.all fun phase =>
    (phase.holds?).all fun place =>
      (pool.shared.objects[place]?).all fun call => decide (call.callId ≠ callId)

/-- Some call in the map is an inbound one of the peer. -/
def MediaState.hasInbound (state : MediaState) (peerId : String) : Bool :=
  state.calls.values.any fun place =>
    (state.objects[place]?).any fun call => decide (call.role = .callee ∧ call.peerId = peerId)

/-- Whether what a request checked before it asked still holds when it goes on. -/
def MediaPhase.stillAdmitted (pool : Pool MediaState MediaPhase) : MediaPhase → Bool
  | initiatorConfirming _ _ _ =>
    decide (pool.shared.callCount < maxCalls) &&
      FreeCallId pool (callIdText (settings.randomUUID pool.shared.drawn))
  | offerConfirming peerId offer _ =>
    decide (pool.shared.callCount < maxCalls) && !pool.shared.hasInbound peerId &&
      FreeCallId pool offer.callId
  | sessionConfirming peerId _ _ _ =>
    decide (pool.shared.sessionCount < maxSessions) &&
      (pool.shared.findSessionForPeer peerId).isNone
  | _ => true

/-- The call object of a request that awaits an answer. -/
def MediaPhase.initiates? : MediaPhase → Option Nat
  | offering place => some place
  | awaitingAnswer place => some place
  | _ => none

/-- A suspended request awaits an answer that has come, to a call with the
peer. -/
def awaitsAnswered (pool : Pool MediaState MediaPhase) (peerId : String) (phase : MediaPhase) :
    Bool :=
  (phase.initiates?).any fun place =>
    (pool.shared.objects[place]?).any fun call =>
      decide (call.peerId = peerId) && call.answer.any Option.isSome

def MediaPhase.goesOn (state : MediaState) (phase : MediaPhase) : Bool :=
  decide ((phase.waiter?).bind state.confirmed = some true)

/-- The turns after which the books are right: a confirmed request goes on only
while its checks still hold, and nobody hangs up on a call whose answer has come
and is not taken up yet. -/
def Timely (pool : Pool MediaState MediaPhase) : Label MediaAction MediaReply → Bool
  | .launch (.hangup peerId) => !pool.calls.any (awaitsAnswered pool (peerIdOf peerId))
  | .launch _ => true
  | .resume index (.settled _) =>
    (pool.calls[index]?).all fun phase =>
      !phase.goesOn pool.shared || phase.stillAdmitted settings pool
  | .resume _ _ => true

end

section

variable {settings : MediaSettings} {state after : MediaState} {before : Option MediaPhase}
  {phase next : MediaPhase} {peer : Option String} {label : Label MediaAction MediaReply}
  {index : Nat} {answered : Nat → Prop} {place : Nat} {change : CallState → CallState}
  {call : CallState} {peerId : String}

/-- The same call after a turn that may have brought an answer for it. -/
structure SameCall (answered : Prop) (call changed : CallState) : Prop where
  callId : changed.callId = call.callId
  peerId : changed.peerId = call.peerId
  role : changed.role = call.role
  answer : ∀ answer, changed.answer = some (some answer) →
    call.answer = some (some answer) ∨ answered

/-- The same call objects after a turn that brought answers for some. -/
structure SameObjects (answered : Nat → Prop) (state after : MediaState) : Prop where
  forth : ∀ (place : Nat) call, state.objects[place]? = some call →
    ∃ changed, after.objects[place]? = some changed ∧ SameCall (answered place) call changed
  back : ∀ (place : Nat) changed, after.objects[place]? = some changed →
    ∃ call, state.objects[place]? = some call ∧ SameCall (answered place) call changed

def SameSessions (state after : MediaState) : Prop :=
  ∀ sessionId, (after.sessions.get sessionId).map SessionState.peerId =
    (state.sessions.get sessionId).map SessionState.peerId

def unanswered : Nat → Prop :=
  fun _ => False

/-- What a turn of a peer's operation can do to the books. -/
inductive Filed (settings : MediaSettings) (state : MediaState)
    (label : Label MediaAction MediaReply) (peer : Option String) :
    Option MediaPhase → MediaState → MediaPhase → Prop
  | kept {before : Option MediaPhase} {after : MediaState} {next : MediaPhase}
      {answered : Nat → Prop} (calls : after.calls = state.calls)
      (objects : SameObjects answered state after) (sessions : SameSessions state after)
      (inMap : ∀ place, answered place → ∃ callId call, state.callUnder callId = some (place, call))
      (holds : ∀ place, next.holds? = some place → before.bind holds? = some place)
      (initiates : ∀ place, next.initiates? = some place → before.bind initiates? = some place) :
      Filed settings state label peer before after next
  | cleaned {phase next : MediaPhase} {after : MediaState} {place : Nat} {call : CallState}
      (holds : phase.holds? = some place) (located : state.objects[place]? = some call)
      (operator : peer = some call.peerId)
      (calls : after.calls = state.calls.delete call.callId)
      (objects : SameObjects unanswered state after) (sessions : SameSessions state after)
      (released : next.holds? = none) :
      Filed settings state label peer (some phase) after next
  | hungUp {after : MediaState} {next : MediaPhase} {peerId : String} {value : JsValue}
      (operator : peer = some peerId) (hangs : label = .launch (.hangup value))
      (named : peerId = peerIdOf value)
      (fewer : ∀ callId place, after.calls.get callId = some place →
        state.calls.get callId = some place)
      (others : ∀ callId place call, state.callUnder callId = some (place, call) →
        call.peerId ≠ peerId → after.calls.get callId = some place)
      (objects : SameObjects unanswered state after) (sessions : SameSessions state after)
      (released : next.holds? = none) :
      Filed settings state label peer none after next
  | entered {phase next : MediaPhase} {after : MediaState} {call : CallState} {index : Nat}
      {now : Int} (settled : label = .resume index (.settled now)) (goes : phase.goesOn state =
        true)
      (made : (∃ peerId kind waiter, phase = .initiatorConfirming peerId kind waiter ∧
          call.role = .initiator ∧ call.callId = callIdText (settings.randomUUID state.drawn)) ∨
        ∃ peerId offer waiter, phase = .offerConfirming peerId offer waiter ∧
          call.peerId = peerId ∧ call.callId = offer.callId)
      (silent : call.answer = none)
      (calls : after.calls = state.calls.set call.callId state.objects.length)
      (objects : after.objects = state.objects ++ [call])
      (sessions : SameSessions state after) (holds : next.holds? = some state.objects.length)
      (initiates : ∀ place, next.initiates? = some place → place = state.objects.length) :
      Filed settings state label peer (some phase) after next
  | opened {after : MediaState} {next : MediaPhase} {peerId : String} {kind : MediaKind}
      {telemetry : StreamRateOptions} {waiter : Nat} {session : SessionState}
      {index : Nat} {now : Int} (settled : label = .resume index (.settled now))
      (goes : (sessionConfirming peerId kind telemetry waiter).goesOn state = true)
      (calls : after.calls = state.calls) (objects : after.objects = state.objects)
      (sessions : after.sessions = state.sessions.set (state.newSessionId settings) session)
      (with_peer : session.peerId = peerId) (released : next.holds? = none) :
      Filed settings state label peer (some (.sessionConfirming peerId kind telemetry waiter)) after next
  | closed {after : MediaState} {next : MediaPhase} {sessionId : String}
      (calls : after.calls = state.calls) (objects : after.objects = state.objects)
      (sessions : after.sessions = state.sessions.delete sessionId)
      (released : next.holds? = none) :
      Filed settings state label peer none after next

theorem initiates_of_released (released : phase.holds? = none) : phase.initiates? = none := by
  cases phase <;> first | rfl | cases released

theorem SameCall.refl (answered : Prop) (call : CallState) : SameCall answered call call :=
  ⟨rfl, rfl, rfl, fun _ present => Or.inl present⟩

theorem SameObjects.of_eq (same : after.objects = state.objects) :
    SameObjects answered state after where
  forth := fun place call found => ⟨call, by rw [same, found], .refl _ call⟩
  back := fun place call found => ⟨call, by rw [← same, found], .refl _ call⟩

theorem SameObjects.modify (same : ∀ call, SameCall (answered place) call (change call)) :
    SameObjects answered state (state.modifyObject place change) where
  forth := by
    intro other call found
    refine ⟨if place = other then change call else call, ?_, ?_⟩
    · rw [modifyObject, List.getElem?_modify, found]
      rfl
    · split
      · next here => exact here ▸ same call
      · exact .refl _ call
  back := by
    intro other changed found
    rw [modifyObject, List.getElem?_modify] at found
    obtain ⟨call, located, rfl⟩ := Option.map_eq_some_iff.mp found
    refine ⟨call, located, ?_⟩
    split
    · next here => exact here ▸ same call
    · exact .refl _ call

theorem SameObjects.trans {middle : MediaState} (first : SameObjects unanswered state middle)
    (second : SameObjects unanswered middle after) : SameObjects unanswered state after := by
  have compose {call other last : CallState} (one : SameCall False call other)
      (two : SameCall False other last) : SameCall False call last :=
    { callId := two.callId.trans one.callId
      peerId := two.peerId.trans one.peerId
      role := two.role.trans one.role
      answer := by
        intro answer present
        rcases two.answer answer present with there | impossible
        · exact one.answer answer there
        · exact impossible.elim }
  exact
    { forth := by
        intro place call found
        obtain ⟨other, otherFound, one⟩ := first.forth place call found
        obtain ⟨last, lastFound, two⟩ := second.forth place other otherFound
        exact ⟨last, lastFound, compose one two⟩
      back := by
        intro place last found
        obtain ⟨other, otherFound, two⟩ := second.back place last found
        obtain ⟨call, callFound, one⟩ := first.back place other otherFound
        exact ⟨call, callFound, compose one two⟩ }

theorem SameSessions.refl (state : MediaState) : SameSessions state state :=
  fun _ => rfl

theorem sameObjects_cleanupCall (state : MediaState) (callId : String) :
    SameObjects unanswered state (cleanupCall state callId) := by
  have settling (call : CallState) (answered : Prop) :
      SameCall answered call (call.resolveAnswer none) := by
    refine ⟨rfl, rfl, rfl, fun answer present => Or.inl ?_⟩
    simp only [CallState.resolveAnswer] at present
    cases known : call.answer with
    | none =>
      rw [known] at present
      cases present
    | some =>
      rw [known] at present
      exact present
  unfold cleanupCall
  split
  · next place _ _ =>
      split
      · have changed : SameObjects unanswered state
            (state.modifyObject place (.resolveAnswer none)) := .modify fun call => settling call _
        exact ⟨changed.forth, changed.back⟩
      · exact .of_eq rfl
  · exact .of_eq rfl

theorem calls_cleanupCall (state : MediaState) (callId : String) :
    (cleanupCall state callId).calls = state.calls.delete callId := by
  unfold cleanupCall
  split
  · split <;> rfl
  · rfl

theorem sessions_cleanupCall (state : MediaState) (callId : String) :
    (cleanupCall state callId).sessions = state.sessions := by
  unfold cleanupCall
  split
  · split <;> rfl
  · rfl

theorem callUnder_eq_some {callId : String} : state.callUnder callId = some (place, call) ↔
      state.calls.get callId = some place ∧ state.objects[place]? = some call := by
  simp only [callUnder, Option.bind_eq_some_iff, Option.map_eq_some_iff, Prod.mk.injEq]
  constructor
  · rintro ⟨_, found, _, located, rfl, rfl⟩
    exact ⟨found, located⟩
  · rintro ⟨found, located⟩
    exact ⟨place, found, call, located, rfl, rfl⟩

/-- Some calls with a peer are forgotten, and nothing else is. -/
structure HungUp (peerId : String) (state after : MediaState) : Prop where
  fewer : ∀ callId place, after.calls.get callId = some place → state.calls.get callId = some place
  others : ∀ callId place call, state.callUnder callId = some (place, call) →
    call.peerId ≠ peerId → after.calls.get callId = some place
  objects : SameObjects unanswered state after
  sessions : after.sessions = state.sessions

theorem HungUp.cleanup {callId : String}
    (hungUp : HungUp peerId state after) (found : after.callUnder callId = some (place, call))
    (withPeer : call.peerId = peerId) : HungUp peerId state (cleanupCall after callId) where
  fewer := by
    intro other otherPlace located
    rw [calls_cleanupCall, get_delete] at located
    split at located
    · cases located
    · exact hungUp.fewer other otherPlace located
  others := by
    intro other otherPlace otherCall located apart
    have standing := hungUp.others other otherPlace otherCall located apart
    rw [calls_cleanupCall, get_delete, if_neg ?_]
    · exact standing
    · rintro rfl
      obtain ⟨same, object⟩ := callUnder_eq_some.mp found
      cases same.symm.trans standing
      obtain ⟨changed, changedFound, kept⟩ :=
        hungUp.objects.forth _ otherCall (callUnder_eq_some.mp located).2
      cases object.symm.trans changedFound
      exact apart (kept.peerId.symm.trans withPeer)
  objects := hungUp.objects.trans (sameObjects_cleanupCall after callId)
  sessions := (sessions_cleanupCall after callId).trans hungUp.sessions

theorem hungUp_hangup (peerId : String) : HungUp peerId state (hangup state peerId).1 := by
  have start : HungUp peerId state state :=
    { fewer := fun _ _ found => found
      others := fun _ _ _ found _ => (callUnder_eq_some.mp found).1
      objects := .of_eq rfl
      sessions := rfl }
  -- Every round of the loop keeps it.
  let kept : MediaState × Nat → Prop := fun closing => HungUp peerId state closing.1
  have initial : kept (state, 0) := start
  refine @List.foldlRecOn _ _ kept state.calls.keys _ _ initial fun closing hungUp callId _ => ?_
  split
  · next place call found =>
      split
      · next withPeer => exact HungUp.cleanup hungUp found withPeer
      · exact hungUp
  · exact hungUp

theorem Filed.same {before : Option MediaPhase} {next : MediaPhase}
    (calls : after.calls = state.calls) (objects : after.objects = state.objects)
    (sessions : SameSessions state after) (released : next.holds? = none) :
    Filed settings state label peer before after next := by
  have kept : SameObjects unanswered state after := .of_eq objects
  refine .kept calls kept sessions (fun _ => False.elim) ?_ ?_
  · rw [released]
    nofun
  · rw [initiates_of_released released]
    nofun

theorem Filed.stop {before : Option MediaPhase} (result : MediaResult) :
    Filed settings state label peer before (finish state result).1 (finish state result).2.1 :=
  .same rfl rfl (.refl state) rfl

theorem Filed.modify {before : Option MediaPhase}
    (same : ∀ call, SameCall (answered place) call (change call))
    (inMap : ∀ other, answered other → ∃ callId call, state.callUnder callId = some (other, call))
    (result : MediaResult) :
    Filed settings state label peer before (finish (state.modifyObject place change) result).1
      (finish (state.modifyObject place change) result).2.1 :=
  .kept rfl (.modify same) (.refl _) inMap nofun nofun

theorem Filed.cleanup (holds : phase.holds? = some place)
    (located : state.objects[place]? = some call) (operator : peer = some call.peerId)
    (result : MediaResult) :
    Filed settings state label peer (some phase) (finish (cleanupCall state call.callId) result).1
      (finish (cleanupCall state call.callId) result).2.1 :=
  .cleaned holds located operator (calls_cleanupCall state call.callId)
    (sameObjects_cleanupCall state call.callId)
    (fun sessionId => by
      change ((cleanupCall state call.callId).sessions.get sessionId).map _ = _
      rw [sessions_cleanupCall]) rfl

theorem Filed.receive {Message : Type} {payload : JsValue} {invoker : Option String}
    {parse : JsValue → Option Message} {deny : String → MediaTurn}
    {next : String → Message → MediaTurn}
    (denied : ∀ error, Filed settings state label peer none (deny error).1 (deny error).2.1)
    (admitted : ∀ peerId message, Filed settings state label peer none (next peerId message).1
      (next peerId message).2.1) :
    Filed settings state label peer none (Media.receive state payload invoker parse deny next).1
      (Media.receive state payload invoker parse deny next).2.1 := by
  unfold Media.receive
  split
  · exact .stop .threw
  · split
    · exact denied _
    · split
      · exact denied _
      · exact admitted _ _

theorem sameSessions_set {sessionId : String} {session counts : SessionState}
    (found : state.sessions.get sessionId = some session)
    (sessions : after.sessions = state.sessions.set sessionId counts)
    (same : counts.peerId = session.peerId) : SameSessions state after := by
  intro other
  rw [sessions, get_set]
  split
  · next here =>
      subst here
      rw [found, Option.map_some, Option.map_some, same]
  · rfl

theorem same_consumeStreamFrame (state : MediaState) (sessionId : String) (byteSize : Nat)
    (now : Int) : (consumeStreamFrame state sessionId byteSize now).1.calls = state.calls ∧
      (consumeStreamFrame state sessionId byteSize now).1.objects = state.objects ∧
      SameSessions state (consumeStreamFrame state sessionId byteSize now).1 := by
  unfold consumeStreamFrame
  split
  · exact ⟨rfl, rfl, .refl state⟩
  · next session found =>
      dsimp only
      split <;> exact ⟨rfl, rfl, sameSessions_set found rfl rfl⟩

theorem filed_perform (pool : Pool MediaState MediaPhase) (action : MediaAction) :
    Filed settings pool.shared (.launch action) (operationPeer pool (.launch action)) none
      (action.perform pool.shared).1 (action.perform pool.shared).2.1 := by
  cases action with
  | initiateCall =>
    simp only [perform]
    unfold initiateCall
    split
    · exact .stop _
    · split
      · exact .stop _
      · exact .same rfl rfl (.refl _) rfl
  | handleOffer | handleAnswer =>
    exact .receive (fun _ => .stop _) fun _ _ => .same rfl rfl (.refl _) rfl
  | handleCandidate payload invoker now =>
    refine .receive (fun _ => .stop _) fun peerId message => ?_
    split
    · next session _ =>
        obtain ⟨calls, objects, sessions⟩ := same_consumeStreamFrame pool.shared
          session.sessionId (candidateBytes message) now
        exact .same calls objects sessions rfl
    · exact .same rfl rfl (.refl _) rfl
  | requestSession =>
    simp only [perform]
    unfold requestSession
    split
    · exact .stop _
    · split
      · exact .stop _
      · split
        · exact .stop _
        · exact .same rfl rfl (.refl _) rfl
  | closeSession =>
    simp only [perform]
    unfold closeSession
    split
    · exact .stop _
    · exact .closed rfl rfl rfl rfl
  | hangup peerId =>
    have hungUp : HungUp _ pool.shared _ := hungUp_hangup (peerIdOf peerId)
    refine .hungUp rfl rfl rfl hungUp.fewer hungUp.others hungUp.objects (fun sessionId => ?_) rfl
    exact congrArg (fun sessions : OrderedMap String SessionState =>
      (sessions.get sessionId).map SessionState.peerId) hungUp.sessions
  | resolveMediaAccess =>
    simp only [perform]
    unfold resolveMediaAccess
    split
    · exact .stop _
    · split
      · exact .stop _
      · exact .same rfl rfl (.refl _) rfl
  | accessTimeout =>
    simp only [perform]
    unfold accessTimeout
    split
    · exact .same rfl rfl (.refl _) rfl
    · exact .stop _
  | answerTimeout =>
    have silent : ∀ other, unanswered other →
        ∃ callId call, pool.shared.callUnder callId = some (other, call) := fun _ => False.elim
    refine .modify (fun call => ?_) silent _
    split
    · refine ⟨rfl, rfl, rfl, fun answer present => Or.inl ?_⟩
      cases known : call.answer with
      | none => simp [CallState.resolveAnswer, known] at present
      | some => simpa [CallState.resolveAnswer, known] using present
    · exact .refl _ call

def Files (settings : MediaSettings) (state : MediaState) (label : Label MediaAction MediaReply)
    (phase : MediaPhase) (turn : MediaTurn) : Prop :=
  Filed settings state label (phase.peer? state) (some phase) turn.1 turn.2.1

variable {turn : MediaTurn}

theorem Files.modify (same : ∀ call, SameCall False call (change call)) (result : MediaResult) :
    Files settings state label phase (finish (state.modifyObject place change) result) := by
  have silent : ∀ other, unanswered other →
      ∃ callId call, state.callUnder callId = some (other, call) := fun _ => False.elim
  exact Filed.modify same silent result

theorem files_storeCandidate {message : SignalCandidate} :
    Files settings state label phase (storeCandidate state peerId message) := by
  unfold storeCandidate
  split
  · exact .stop _
  · split
    · exact .stop _
    · refine .modify (fun call => ?_) _
      exact ⟨rfl, rfl, rfl, fun _ present => Or.inl present⟩

theorem files_answerGranted {answer : SignalAnswer} :
    Files settings state label phase (answerGranted state peerId answer) := by
  unfold answerGranted
  split
  · exact .stop _
  · next place call found =>
      split
      · exact .stop _
      · have inMap : ∀ other, other = place →
            ∃ callId call, state.callUnder callId = some (other, call) := by
          rintro other rfl
          exact ⟨answer.callId, call, found⟩
        refine Filed.modify (fun other => ?_) inMap _
        split
        · exact ⟨rfl, rfl, rfl, fun _ _ => Or.inr rfl⟩
        · exact ⟨rfl, rfl, rfl, fun _ present => Or.inl present⟩

theorem files_offerGranted {offer : SignalOffer} :
    Files settings state label phase (offerGranted settings state peerId offer) := by
  unfold offerGranted
  split
  · exact .stop _
  · split
    · exact .stop _
    · split
      · exact .stop _
      · exact .same rfl rfl (.refl state) rfl

theorem files_decided {decision : PeerAccessDecision}
    (decided : phase.decided settings state decision = some turn) :
    Files settings state label phase turn := by
  unfold MediaPhase.decided at decided
  split at decided <;> cases decided
  · exact .stop _
  · exact .same rfl rfl (.refl state) rfl
  · exact .stop _
  · exact files_offerGranted
  · exact .stop _
  · exact files_answerGranted
  · exact .stop _
  · exact files_storeCandidate
  · exact .stop _
  · exact .same rfl rfl (.refl state) rfl

theorem files_proceed {now : Int} (settled : label = .resume index (.settled now))
    (goes : phase.goesOn state) (proceeded : phase.proceed settings state now = some turn) :
    Files settings state label phase turn := by
  cases phase with
  | initiatorConfirming peerId kind waiter =>
    cases proceeded
    split
    · exact .entered settled goes (Or.inl ⟨peerId, kind, waiter, rfl, rfl,
      rfl⟩) rfl rfl rfl (.refl state)
        rfl fun _ same => (Option.some.inj same).symm
    · exact .stop _
  | offerConfirming peerId offer waiter =>
    cases proceeded
    split
    · exact .entered settled goes (Or.inr ⟨peerId, offer, waiter, rfl, rfl,
      rfl⟩) rfl rfl rfl (.refl state)
        rfl nofun
    · exact .stop _
  | sessionConfirming =>
    cases proceeded
    unfold openSession
    dsimp only
    split
    · exact .same rfl rfl (.refl state) rfl
    · exact .opened settled goes rfl rfl rfl rfl rfl
  | _ => cases proceeded

theorem files_awaited {now : Int} (resumes : label = .resume index (.settled now))
    (awaited : phase.awaited settings state now = some turn) :
    Files settings state label phase turn := by
  unfold MediaPhase.awaited at awaited
  split at awaited
  · next place =>
      obtain ⟨call, located, settled⟩ := Option.bind_eq_some_iff.mp awaited
      obtain ⟨answer, _, rfl⟩ := Option.map_eq_some_iff.mp settled
      unfold answerSettled
      split
      · exact .cleanup rfl located (by rw [MediaPhase.peer?, located, Option.map_some]) _
      · refine .modify (fun call => ?_) _
        exact ⟨rfl, rfl, rfl, fun _ present => Or.inl present⟩
  · cases awaited
    exact files_storeCandidate
  · cases awaited
    exact .stop _
  · obtain ⟨waiter, awaits, confirmed⟩ := Option.bind_eq_some_iff.mp awaited
    obtain ⟨granted, settled, proceeded⟩ := Option.bind_eq_some_iff.mp confirmed
    split at proceeded
    · next given =>
        subst given
        refine files_proceed resumes ?_ proceeded
        rw [MediaPhase.goesOn, awaits, Option.bind_some, settled, decide_eq_true rfl]
    · cases proceeded
      unfold MediaPhase.decline
      split <;> exact .stop _

theorem files_delivered {outcome : Outcome SendResult}
    (delivered : phase.delivered state outcome = some turn) :
    Files settings state label phase turn := by
  unfold MediaPhase.delivered at delivered
  split at delivered
  · next place =>
      obtain ⟨call, located, rfl⟩ := Option.map_eq_some_iff.mp delivered
      have operator : (MediaPhase.offering place).peer? state = some call.peerId := by
        rw [MediaPhase.peer?, located, Option.map_some]
      unfold offerSent
      split
      · exact .stop _
      · split
        · exact .cleanup rfl located operator _
        · split
          · exact .cleanup rfl located operator _
          · exact .cleanup rfl located operator _
          · have kept : SameObjects unanswered state state := .of_eq rfl
            exact .kept rfl kept (.refl state) (fun _ => False.elim) (fun _ same => same)
              fun _ same => same
  · next place =>
      obtain ⟨call, located, rfl⟩ := Option.map_eq_some_iff.mp delivered
      unfold answerSent
      split
      · exact .stop _
      · split
        · exact .cleanup rfl located (by rw [MediaPhase.peer?, located, Option.map_some]) _
        · refine .modify (fun call => ?_) _
          exact ⟨rfl, rfl, rfl, fun _ present => Or.inl present⟩
  · cases delivered

theorem filed_turn {pool following : Pool MediaState MediaPhase} {emitted : List MediaEvent}
    (turn : Turn (mediaProgram settings) pool following label index phase emitted) :
    Filed settings pool.shared label (operationPeer pool label) pool.calls[index]?
      following.shared phase := by
  rcases turn.taken with ⟨action, rfl, missing, launched⟩ | ⟨reply, before, rfl, found, resumed⟩
  · simp only [mediaProgram, Prod.mk.injEq, Option.some.injEq] at launched
    obtain ⟨sharedEq, phaseEq, _⟩ := launched
    rw [missing, ← sharedEq, ← phaseEq]
    exact filed_perform pool action
  · rw [operationPeer, found, Option.bind_some]
    cases reply with
    | access => exact files_decided resumed
    | settled => exact files_awaited rfl resumed
    | sent => exact files_delivered resumed

end

section

variable {settings : MediaSettings} {state after : MediaState}
  {pool next : Pool MediaState MediaPhase} {label : Label MediaAction MediaReply} {index : Nat}
  {phase : MediaPhase} {position place : Nat} {other : MediaPhase} {answered : Nat → Prop}
  {callId peerId : String} {session : SessionState} {call : CallState} {emitted : List MediaEvent}
  {turn : MediaTurn}

/-- The bounds, and where the call objects of suspended requests are filed: no
two of them under one identifier, and none whose answer has come is missing. -/
structure Books (pool : Pool MediaState MediaPhase) : Prop where
  bounds : WithinBounds pool.shared
  entries : ∀ callId place, pool.shared.calls.get callId = some place →
    ∃ call, pool.shared.objects[place]? = some call ∧ call.callId = callId
  held : ∀ (position : Nat) phase place, pool.calls[position]? = some phase →
    phase.holds? = some place → ∃ call, pool.shared.objects[place]? = some call ∧
        ∀ other, pool.shared.calls.get call.callId = some other → other = place
  answered : ∀ (position : Nat) phase place call answer, pool.calls[position]? = some phase →
    phase.initiates? = some place → pool.shared.objects[place]? = some call →
      call.answer = some (some answer) → pool.shared.calls.get call.callId = some place
  apart : ∀ (first second : Nat) firstPhase secondPhase firstPlace secondPlace firstCall secondCall,
    pool.calls[first]? = some firstPhase → pool.calls[second]? = some secondPhase →
      firstPhase.holds? = some firstPlace → secondPhase.holds? = some secondPlace →
      pool.shared.objects[firstPlace]? = some firstCall →
      pool.shared.objects[secondPlace]? = some secondCall →
      firstCall.callId = secondCall.callId → first = second

/-- The requests of a pool after a turn. -/
structure Moved (pool next : Pool MediaState MediaPhase) (index : Nat) (phase : MediaPhase) :
    Prop where
  located : next.calls[index]? = some phase
  others : ∀ other, other ≠ index → next.calls[other]? = pool.calls[other]?

theorem Moved.cases (moved : Moved pool next index phase)
    (found : next.calls[position]? = some other) :
    position = index ∧ other = phase ∨ position ≠ index ∧ pool.calls[position]? = some other := by
  by_cases same : position = index
  · subst same
    rw [moved.located] at found
    exact Or.inl ⟨rfl, (Option.some.inj found).symm⟩
  · rw [moved.others position same] at found
    exact Or.inr ⟨same, found⟩

theorem Moved.held_before (moved : Moved pool next index phase) {names? : MediaPhase → Option Nat}
    (kept : ∀ place, names? phase = some place → (pool.calls[index]?).bind names? = some place)
    (found : next.calls[position]? = some other) (holds : names? other = some place) :
    ∃ earlier, pool.calls[position]? = some earlier ∧ names? earlier = some place := by
  rcases moved.cases found with ⟨rfl, rfl⟩ | ⟨_, old⟩
  · exact Option.bind_eq_some_iff.mp (kept place holds)
  · exact ⟨other, old, holds⟩

theorem holds_of_initiates (initiates : phase.initiates? = some place) :
    phase.holds? = some place := by
  cases phase <;> first | exact initiates | cases initiates

theorem callUnder_before (objects : SameObjects answered state after)
    (fewer : ∀ callId place, after.calls.get callId = some place →
      state.calls.get callId = some place) {changed : CallState}
    (found : after.callUnder callId = some (place, changed)) :
    ∃ call, state.callUnder callId = some (place, call) ∧
      SameCall (answered place) call changed := by
  obtain ⟨filed, located⟩ := callUnder_eq_some.mp found
  obtain ⟨call, old, same⟩ := objects.back place changed located
  exact ⟨call, callUnder_eq_some.mpr ⟨fewer callId place filed, old⟩, same⟩

theorem WithinBounds.fewer (bounds : WithinBounds state)
    (objects : SameObjects answered state after)
    (fewer : ∀ callId place, after.calls.get callId = some place →
      state.calls.get callId = some place) (sessions : after.sessionCount ≤ maxSessions)
    (one_session : ∀ first second firstSession secondSession,
      after.sessions.get first = some firstSession →
        after.sessions.get second = some secondSession →
        firstSession.peerId = secondSession.peerId → first = second) : WithinBounds after where
  calls := by
    refine le_trans (length_keys_le ?_) bounds.calls
    intro callId place found
    exact mem_keys.mpr ⟨place, fewer callId place found⟩
  sessions := sessions
  one_session := one_session
  one_inbound := by
    intro first second firstPlace secondPlace firstCall secondCall firstFound secondFound
      firstRole secondRole samePeer
    obtain ⟨firstOld, firstUnder, firstSame⟩ := callUnder_before objects fewer firstFound
    obtain ⟨secondOld, secondUnder, secondSame⟩ := callUnder_before objects fewer secondFound
    refine bounds.one_inbound first second _ _ _ _ firstUnder secondUnder ?_ ?_ ?_
    · rw [← firstSame.role, firstRole]
    · rw [← secondSame.role, secondRole]
    · rw [← firstSame.peerId, ← secondSame.peerId, samePeer]

theorem sessionCount_le (sessions : ∀ sessionId session,
      after.sessions.get sessionId = some session →
        ∃ old, state.sessions.get sessionId = some old) :
    after.sessionCount ≤ state.sessionCount := by
  refine length_keys_le ?_
  intro sessionId session found
  exact mem_keys.mpr (sessions sessionId session found)

theorem SameSessions.before (same : SameSessions state after) {sessionId : String}
    (found : after.sessions.get sessionId = some session) :
    ∃ old, state.sessions.get sessionId = some old ∧ old.peerId = session.peerId := by
  have peers := same sessionId
  rw [found, Option.map_some] at peers
  exact Option.map_eq_some_iff.mp peers.symm

theorem WithinBounds.sameSessions (bounds : WithinBounds state) (same : SameSessions state after) :
    after.sessionCount ≤ maxSessions ∧ ∀ first second firstSession secondSession,
        after.sessions.get first = some firstSession →
          after.sessions.get second = some secondSession →
          firstSession.peerId = secondSession.peerId → first = second := by
  constructor
  · refine le_trans (sessionCount_le fun sessionId session found => ?_) bounds.sessions
    obtain ⟨old, oldFound, _⟩ := same.before found
    exact ⟨old, oldFound⟩
  · intro first second firstSession secondSession firstFound secondFound samePeer
    obtain ⟨firstOld, firstBefore, firstPeer⟩ := same.before firstFound
    obtain ⟨secondOld, secondBefore, secondPeer⟩ := same.before secondFound
    exact bounds.one_session first second _ _ firstBefore secondBefore
      (by rw [firstPeer, secondPeer, samePeer])

/-- The books are right after a turn that enters no call, as long as no call
whose answer has come is forgotten. -/
theorem Books.lessened (books : Books pool)
    (moved : Moved pool next index phase) (bounds : WithinBounds next.shared)
    (objects : SameObjects answered pool.shared next.shared)
    (fewer : ∀ callId place, next.shared.calls.get callId = some place →
      pool.shared.calls.get callId = some place) (inMap : ∀ place, answered place →
      ∃ callId call, pool.shared.callUnder callId = some (place, call))
    (holds : ∀ place, phase.holds? = some place → (pool.calls[index]?).bind holds? = some place)
    (initiates : ∀ place, phase.initiates? = some place →
      (pool.calls[index]?).bind initiates? = some place)
    (stays : ∀ (position : Nat) other place call answer, next.calls[position]? = some other →
      other.initiates? = some place → pool.shared.objects[place]? = some call →
        call.answer = some (some answer) ∨ answered place →
        pool.shared.calls.get call.callId = some place →
        next.shared.calls.get call.callId = some place) : Books next where
  bounds := bounds
  entries := by
    intro callId place found
    obtain ⟨call, located, named⟩ := books.entries callId place (fewer callId place found)
    obtain ⟨changed, changedFound, same⟩ := objects.forth place call located
    exact ⟨changed, changedFound, same.callId.trans named⟩
  held := by
    intro position other place found holding
    obtain ⟨earlier, old, oldHolds⟩ := moved.held_before holds found holding
    obtain ⟨call, located, filed⟩ := books.held position earlier place old oldHolds
    obtain ⟨changed, changedFound, same⟩ := objects.forth place call located
    refine ⟨changed, changedFound, fun entry entryFound => ?_⟩
    rw [same.callId] at entryFound
    exact filed entry (fewer _ _ entryFound)
  answered := by
    intro position other place changed answer found awaiting located present
    obtain ⟨call, oldLocated, same⟩ := objects.back place changed located
    obtain ⟨earlier, old, oldAwaiting⟩ := moved.held_before initiates found awaiting
    rw [same.callId]
    refine stays position other place call answer found awaiting oldLocated
      (same.answer answer present) ?_
    rcases same.answer answer present with before | now
    · exact books.answered position earlier place call answer old oldAwaiting oldLocated before
    · obtain ⟨callId, entry, under⟩ := inMap place now
      obtain ⟨filed, entryLocated⟩ := callUnder_eq_some.mp under
      obtain ⟨named, namedFound, namedEq⟩ := books.entries callId place filed
      cases oldLocated.symm.trans namedFound
      rw [namedEq, filed]
  apart := by
    intro first second firstPhase secondPhase firstPlace secondPlace firstCall secondCall
      firstFound secondFound firstHolds secondHolds firstLocated secondLocated sameId
    obtain ⟨firstEarlier, firstOld, firstOldHolds⟩ :=
      moved.held_before holds firstFound firstHolds
    obtain ⟨secondEarlier, secondOld, secondOldHolds⟩ :=
      moved.held_before holds secondFound secondHolds
    obtain ⟨firstBefore, firstObject, firstSame⟩ := objects.back _ _ firstLocated
    obtain ⟨secondBefore, secondObject, secondSame⟩ := objects.back _ _ secondLocated
    exact books.apart first second _ _ _ _ _ _ firstOld secondOld firstOldHolds secondOldHolds
      firstObject secondObject (by rw [← firstSame.callId, ← secondSame.callId, sameId])

theorem FreeCallId.entry (free : FreeCallId pool callId) :
    pool.shared.calls.get callId = none := by
  rw [FreeCallId, Bool.and_eq_true] at free
  exact Option.isNone_iff_eq_none.mp free.1

theorem FreeCallId.held (free : FreeCallId pool callId)
    (found : pool.calls[position]? = some other) (holds : other.holds? = some place)
    (located : pool.shared.objects[place]? = some call) : call.callId ≠ callId := by
  rw [FreeCallId, Bool.and_eq_true, List.all_eq_true] at free
  have unheld := free.2 other (List.mem_of_getElem? found)
  rw [holds, Option.all_some, located, Option.all_some] at unheld
  exact of_decide_eq_true unheld

theorem not_hasInbound
    (free : (!state.hasInbound peerId)) (found : state.callUnder callId = some (place, call))
    (callee : call.role = .callee) : call.peerId ≠ peerId := by
  intro withPeer
  obtain ⟨filed, located⟩ := callUnder_eq_some.mp found
  rw [Bool.not_eq_true', hasInbound, List.any_eq_false] at free
  refine free place (mem_values.mpr ⟨callId, filed⟩) ?_
  rw [located, Option.any_some, decide_eq_true ⟨callee, withPeer⟩]

theorem Timely.admitted (turn : Turn (mediaProgram settings) pool next label index phase emitted)
    (timely : Timely settings pool label) {resumed : Nat} {now : Int} {before : MediaPhase}
    (settled : label = .resume resumed (.settled now))
    (found : pool.calls[index]? = some before) (goes : before.goesOn pool.shared) :
    before.stillAdmitted settings pool := by
  rcases turn.taken with ⟨action, launched, _⟩ | ⟨reply, _, taken, _⟩
  · rw [settled] at launched
    cases launched
  · rw [settled] at taken
    cases taken
    rw [settled, Timely, found, Option.all_some, goes] at timely
    exact timely

theorem Timely.unanswered {value : JsValue}
    (timely : Timely settings pool (.launch (.hangup value))) {answer : SignalAnswer}
    (found : pool.calls[position]? = some other) (initiates : other.initiates? = some place)
    (located : pool.shared.objects[place]? = some call)
    (answered : call.answer = some (some answer)) : call.peerId ≠ peerIdOf value := by
  intro withPeer
  rw [Timely, Bool.not_eq_true', List.any_eq_false] at timely
  refine timely other (List.mem_of_getElem? found) ?_
  rw [awaitsAnswered, initiates, Option.any_some, located, Option.any_some, answered]
  simp [withPeer]

section

variable (books : Books pool) (moved : Moved pool next index phase)
include books moved

theorem Books.sameCalls (bounds : WithinBounds next.shared)
    (calls : next.shared.calls = pool.shared.calls)
    (objects : SameObjects answered pool.shared next.shared) (inMap : ∀ place, answered place →
      ∃ callId call, pool.shared.callUnder callId = some (place, call))
    (holds : ∀ place, phase.holds? = some place → (pool.calls[index]?).bind holds? = some place)
    (initiates : ∀ place, phase.initiates? = some place →
      (pool.calls[index]?).bind initiates? = some place) : Books next := by
  refine books.lessened moved bounds objects (fun callId place found => ?_) inMap holds initiates
    fun position other place call answer _ _ _ _ filed => ?_
  · rwa [calls] at found
  · rwa [calls]

theorem Books.sessionsOnly (calls : next.shared.calls = pool.shared.calls)
    (objects : next.shared.objects = pool.shared.objects) (released : phase.holds? = none)
    (sessions : next.shared.sessionCount ≤ maxSessions)
    (one_session : ∀ first second firstSession secondSession,
      next.shared.sessions.get first = some firstSession →
        next.shared.sessions.get second = some secondSession →
        firstSession.peerId = secondSession.peerId → first = second) : Books next := by
  have same : SameObjects unanswered pool.shared next.shared := .of_eq objects
  have bounds : WithinBounds next.shared :=
    books.bounds.fewer same (fun callId place found => by rwa [calls] at found) sessions one_session
  refine books.sameCalls moved bounds calls same (fun _ => False.elim) ?_ ?_
  · rw [released]
    nofun
  · rw [initiates_of_released released]
    nofun

theorem Books.opened (calls : next.shared.calls = pool.shared.calls)
    (objects : next.shared.objects = pool.shared.objects) (sessions : next.shared.sessions =
      pool.shared.sessions.set (pool.shared.newSessionId settings) session)
    (with_peer : session.peerId = peerId) (released : phase.holds? = none)
    (room : pool.shared.sessionCount < maxSessions)
    (unopened : pool.shared.findSessionForPeer peerId = none) : Books next := by
  have alone {sessionId : String} {other : SessionState}
      (found : pool.shared.sessions.get sessionId = some other) : other.peerId ≠ peerId := by
    intro samePeer
    rw [findSessionForPeer, List.find?_eq_none] at unopened
    exact unopened other (mem_values.mpr ⟨sessionId, found⟩) (decide_eq_true samePeer)
  refine books.sessionsOnly moved calls objects released ?_ ?_
  · have grown : next.shared.sessionCount ≤ pool.shared.sessionCount + 1 := by
      rw [sessionCount, sessions]
      exact length_keys_set_le _ _ _
    omega
  · intro first second firstSession secondSession firstFound secondFound samePeer
    rw [sessions, get_set] at firstFound secondFound
    split at firstFound
    · next firstNew =>
        cases firstFound
        split at secondFound
        · next secondNew => rw [firstNew, secondNew]
        · exact absurd (samePeer.symm.trans with_peer) (alone secondFound)
    · split at secondFound
      · cases secondFound
        exact absurd (samePeer.trans with_peer) (alone firstFound)
      · exact books.bounds.one_session first second _ _ firstFound secondFound samePeer

theorem Books.closed {sessionId : String} (calls : next.shared.calls = pool.shared.calls)
    (objects : next.shared.objects = pool.shared.objects)
    (sessions : next.shared.sessions = pool.shared.sessions.delete sessionId)
    (released : phase.holds? = none) : Books next := by
  have earlier {other : String} {session : SessionState}
      (found : next.shared.sessions.get other = some session) :
      pool.shared.sessions.get other = some session := by
    rw [sessions, get_delete] at found
    split at found
    · cases found
    · exact found
  refine books.sessionsOnly moved calls objects released ?_ ?_
  · exact le_trans (sessionCount_le fun other session found => ⟨session, earlier found⟩)
      books.bounds.sessions
  · intro first second firstSession secondSession firstFound secondFound
    exact books.bounds.one_session first second _ _ (earlier firstFound) (earlier secondFound)

theorem Books.entered (silent : call.answer = none)
    (calls : next.shared.calls = pool.shared.calls.set call.callId pool.shared.objects.length)
    (objects : next.shared.objects = pool.shared.objects ++ [call])
    (sessions : SameSessions pool.shared next.shared)
    (holds : phase.holds? = some pool.shared.objects.length)
    (initiates : ∀ place, phase.initiates? = some place → place = pool.shared.objects.length)
    (room : pool.shared.callCount < maxCalls) (free : FreeCallId pool call.callId)
    (alone : call.role = .callee → (!pool.shared.hasInbound call.peerId)) : Books next := by
  have entered : next.shared.objects[pool.shared.objects.length]? = some call := by
    rw [objects, List.getElem?_concat_length]
  have kept {place : Nat} {other : CallState} (located : pool.shared.objects[place]? = some other) :
      next.shared.objects[place]? = some other := by
    rw [objects, List.getElem?_append_left (List.getElem?_eq_some_iff.mp located).1]
    exact located
  have elsewhere {position place : Nat} {other : MediaPhase}
      (found : pool.calls[position]? = some other) (holding : other.holds? = some place) :
      ∃ old, pool.shared.objects[place]? = some old ∧ next.shared.objects[place]? = some old ∧
        old.callId ≠ call.callId ∧
        next.shared.calls.get old.callId = pool.shared.calls.get old.callId := by
    obtain ⟨old, located, _⟩ := books.held position other place found holding
    have apart : old.callId ≠ call.callId :=
      FreeCallId.held free found holding located
    exact ⟨old, located, kept located, apart, by rw [calls, get_set_of_ne _ _ apart]⟩
  have filed (callId : String) (place : Nat) (found : next.shared.calls.get callId = some place) :
      callId = call.callId ∧ place = pool.shared.objects.length ∨
        callId ≠ call.callId ∧ pool.shared.calls.get callId = some place := by
    rw [calls, get_set] at found
    split at found
    · next here =>
        cases found
        exact Or.inl ⟨here, rfl⟩
    · next other => exact Or.inr ⟨other, found⟩
  have under {callId : String} {place : Nat} {other : CallState}
      (found : next.shared.callUnder callId = some (place, other)) :
      callId = call.callId ∧ other = call ∨
        callId ≠ call.callId ∧ pool.shared.callUnder callId = some (place, other) := by
    obtain ⟨entry, located⟩ := callUnder_eq_some.mp found
    rcases filed callId place entry with ⟨rfl, rfl⟩ | ⟨apart, old⟩
    · rw [entered] at located
      exact Or.inl ⟨rfl, (Option.some.inj located).symm⟩
    · obtain ⟨before, oldLocated, _⟩ := books.entries callId place old
      cases (kept oldLocated).symm.trans located
      exact Or.inr ⟨apart, callUnder_eq_some.mpr ⟨old, oldLocated⟩⟩
  obtain ⟨sessionBound, oneSession⟩ := books.bounds.sameSessions sessions
  exact
    { bounds :=
        { calls := by
            have grown : next.shared.callCount ≤ pool.shared.callCount + 1 := by
              rw [callCount, calls]
              exact length_keys_set_le _ _ _
            omega
          sessions := sessionBound
          one_session := oneSession
          one_inbound := by
            intro first second _ _ firstCall secondCall firstFound secondFound firstRole secondRole
              samePeer
            rcases under firstFound with ⟨rfl, rfl⟩ | ⟨_, firstOld⟩
            · rcases under secondFound with ⟨rfl, rfl⟩ | ⟨_, secondOld⟩
              · rfl
              · exact absurd samePeer.symm
                  (not_hasInbound (alone firstRole) secondOld secondRole)
            · rcases under secondFound with ⟨rfl, rfl⟩ | ⟨_, secondOld⟩
              · exact absurd samePeer (not_hasInbound (alone secondRole) firstOld firstRole)
              · exact books.bounds.one_inbound first second _ _ _ _ firstOld secondOld firstRole
                  secondRole samePeer }
      entries := by
        intro callId place found
        rcases filed callId place found with ⟨rfl, rfl⟩ | ⟨_, old⟩
        · exact ⟨call, entered, rfl⟩
        · obtain ⟨other, located, named⟩ := books.entries callId place old
          exact ⟨other, kept located, named⟩
      held := by
        intro position other place found holding
        rcases moved.cases found with ⟨rfl, rfl⟩ | ⟨_, old⟩
        · cases holds.symm.trans holding
          refine ⟨call, entered, fun entry entryFound => ?_⟩
          rcases filed _ _ entryFound with ⟨_, rfl⟩ | ⟨apart, _⟩
          · rfl
          · exact absurd rfl apart
        · obtain ⟨oldCall, oldLocated, located, _, same⟩ := elsewhere old holding
          obtain ⟨named, namedLocated, only⟩ := books.held position other place old holding
          cases oldLocated.symm.trans namedLocated
          refine ⟨oldCall, located, fun entry entryFound => only entry ?_⟩
          rwa [same] at entryFound
      answered := by
        intro position other place held answer found awaiting located present
        rcases moved.cases found with ⟨rfl, rfl⟩ | ⟨_, old⟩
        · rw [initiates place awaiting, entered] at located
          cases located
          rw [silent] at present
          cases present
        · obtain ⟨oldCall, oldLocated, keptLocated, _, same⟩ :=
            elsewhere old (holds_of_initiates awaiting)
          cases keptLocated.symm.trans located
          rw [same]
          exact books.answered position other place _ answer old awaiting oldLocated present
      apart := by
        intro first second firstPhase secondPhase firstPlace secondPlace firstCall secondCall
          firstFound secondFound firstHolds secondHolds firstLocated secondLocated sameId
        rcases moved.cases firstFound with ⟨rfl, rfl⟩ | ⟨_, firstOld⟩
        · cases holds.symm.trans firstHolds
          cases entered.symm.trans firstLocated
          rcases moved.cases secondFound with ⟨rfl, _⟩ | ⟨_, secondOld⟩
          · rfl
          · obtain ⟨_, _, located, apart, _⟩ := elsewhere secondOld secondHolds
            cases located.symm.trans secondLocated
            exact absurd sameId.symm apart
        · obtain ⟨_, firstBefore, located, apart, _⟩ := elsewhere firstOld firstHolds
          cases located.symm.trans firstLocated
          rcases moved.cases secondFound with ⟨rfl, rfl⟩ | ⟨_, secondOld⟩
          · cases holds.symm.trans secondHolds
            cases entered.symm.trans secondLocated
            exact absurd sameId apart
          · obtain ⟨_, secondBefore, secondKept, _, _⟩ := elsewhere secondOld secondHolds
            cases secondKept.symm.trans secondLocated
            exact books.apart first second _ _ _ _ _ _ firstOld secondOld firstHolds secondHolds
              firstBefore secondBefore sameId }

theorem Books.cleaned {before : MediaPhase} (found : pool.calls[index]? = some before)
    (holds : before.holds? = some place) (located : pool.shared.objects[place]? = some call)
    (calls : next.shared.calls = pool.shared.calls.delete call.callId)
    (objects : SameObjects unanswered pool.shared next.shared)
    (sessions : SameSessions pool.shared next.shared) (released : phase.holds? = none) :
    Books next := by
  have fewer (callId : String) (entry : Nat)
      (entryFound : next.shared.calls.get callId = some entry) :
      pool.shared.calls.get callId = some entry := by
    rw [calls, get_delete] at entryFound
    split at entryFound
    · cases entryFound
    · exact entryFound
  obtain ⟨sessionBound, oneSession⟩ := books.bounds.sameSessions sessions
  refine books.lessened moved (books.bounds.fewer objects fewer sessionBound oneSession) objects
    fewer (fun _ => False.elim) ?_ ?_ ?_
  · intro otherPlace held
    rw [released] at held
    cases held
  · intro answer awaiting
    rw [initiates_of_released released] at awaiting
    cases awaiting
  · intro position other otherPlace held answer otherFound awaiting otherLocated _ filed
    have holding : other.holds? = some otherPlace := holds_of_initiates awaiting
    rcases moved.cases otherFound with ⟨rfl, rfl⟩ | ⟨elsewhere, old⟩
    · rw [released] at holding
      cases holding
    · rw [calls, get_delete_of_ne, filed]
      intro sameId
      exact elsewhere (books.apart position index _ _ _ _ _ _ old found holding holds otherLocated
        located sameId)

end

theorem Books.step (books : Books pool) (timely : Timely settings pool label)
    (turn : Turn (mediaProgram settings) pool next label index phase emitted) : Books next := by
  have moved : Moved pool next index phase := ⟨turn.located, turn.others⟩
  have filed := filed_turn turn
  generalize beforeEq : pool.calls[index]? = before at filed
  generalize peerEq : operationPeer pool label = peer at filed
  generalize sharedEq : next.shared = shared at filed
  cases filed with
  | kept calls objects sessions inMap holds initiates =>
    subst sharedEq beforeEq
    obtain ⟨sessionBound, oneSession⟩ := books.bounds.sameSessions sessions
    refine books.sameCalls moved (books.bounds.fewer objects (fun callId place found => ?_)
      sessionBound oneSession) calls objects inMap holds initiates
    rwa [calls] at found
  | cleaned holds located operator calls objects sessions released =>
    subst sharedEq
    exact books.cleaned moved beforeEq holds located calls objects sessions released
  | hungUp operator hangs named fewer others objects sessions released =>
    subst sharedEq hangs named
    obtain ⟨sessionBound, oneSession⟩ := books.bounds.sameSessions sessions
    refine books.lessened moved (books.bounds.fewer objects fewer sessionBound oneSession) objects
      fewer (fun _ => False.elim) ?_ ?_ ?_
    · rw [released]
      nofun
    · rw [initiates_of_released released]
      nofun
    · intro position other place call answer found awaiting located present filed
      rcases moved.cases found with ⟨rfl, rfl⟩ | ⟨_, old⟩
      · rw [initiates_of_released released] at awaiting
        cases awaiting
      · rcases present with answered | impossible
        · exact others call.callId place call (callUnder_eq_some.mpr ⟨filed, located⟩)
            (Timely.unanswered timely old awaiting located answered)
        · exact impossible.elim
  | entered settled goes made silent calls objects sessions holds initiates =>
    subst sharedEq
    have admitted := Timely.admitted turn timely settled beforeEq goes
    rcases made with ⟨peerId, kind, waiter, rfl, role, named⟩ |
      ⟨peerId, offer, waiter, rfl, withPeer, named⟩ <;>
      simp only [stillAdmitted, Bool.and_eq_true, decide_eq_true_eq] at admitted
    · refine books.entered moved silent calls objects sessions holds initiates admitted.1 ?_ ?_
      · rw [named]
        exact admitted.2
      · rw [role]
        nofun
    · refine books.entered moved silent calls objects sessions holds initiates admitted.1.1 ?_ ?_
      · rw [named]
        exact admitted.2
      · rw [withPeer]
        exact fun _ => admitted.1.2
  | opened settled goes calls objects sessions with_peer released =>
    subst sharedEq
    have admitted := Timely.admitted turn timely settled beforeEq goes
    simp only [stillAdmitted, Bool.and_eq_true, decide_eq_true_eq,
      Option.isNone_iff_eq_none] at admitted
    exact books.opened moved calls objects sessions with_peer released admitted.1 admitted.2
  | closed calls objects sessions released =>
    subst sharedEq
    exact books.closed moved calls objects sessions released

def MediaPhase.initiated? : MediaPhase → Option String
  | finished (.initiated callId _) => some callId
  | _ => none

theorem finished_of_initiated (initiated : phase.initiated? = some callId) :
    ∃ sdp, phase = .finished (.initiated callId sdp) := by
  unfold initiated? at initiated
  split at initiated
  · next sdp =>
      cases initiated
      exact ⟨sdp, rfl⟩
  · cases initiated

theorem initiated_receive {Message : Type} {payload : JsValue} {invoker : Option String}
    {parse : JsValue → Option Message} {deny : String → MediaTurn}
    {next : String → Message → MediaTurn} (denied : ∀ error, (deny error).2.1.initiated? = none)
    (admitted : ∀ peerId message, (next peerId message).2.1.initiated? = none) :
    (receive state payload invoker parse deny next).2.1.initiated? = none := by
  unfold receive
  split
  · rfl
  · split
    · exact denied _
    · split
      · exact denied _
      · exact admitted _ _

theorem initiated_perform (action : MediaAction) :
    (action.perform state).2.1.initiated? = none := by
  cases action with
  | initiateCall =>
    simp only [perform, initiateCall]
    split
    · rfl
    · split <;> rfl
  | handleOffer | handleAnswer => exact initiated_receive (fun _ => rfl) fun _ _ => rfl
  | handleCandidate =>
    refine initiated_receive (fun _ => rfl) fun peerId message => ?_
    split <;> rfl
  | requestSession =>
    simp only [perform, requestSession]
    split
    · rfl
    · split
      · rfl
      · split <;> rfl
  | closeSession =>
    simp only [perform, closeSession]
    split <;> rfl
  | hangup | answerTimeout => rfl
  | resolveMediaAccess =>
    simp only [perform, resolveMediaAccess]
    split
    · rfl
    · split <;> rfl
  | accessTimeout =>
    simp only [perform, accessTimeout]
    split <;> rfl

theorem initiated_storeCandidate {message : SignalCandidate} :
    (storeCandidate state peerId message).2.1.initiated? = none := by
  unfold storeCandidate
  split
  · rfl
  · split <;> rfl

theorem initiated_decided {decision : PeerAccessDecision}
    (decided : phase.decided settings state decision = some turn) : turn.2.1.initiated? = none := by
  unfold MediaPhase.decided at decided
  split at decided <;> cases decided
  · rfl
  · rfl
  · rfl
  · unfold offerGranted
    split
    · rfl
    · split
      · rfl
      · split <;> rfl
  · rfl
  · unfold answerGranted
    split
    · rfl
    · split <;> rfl
  · rfl
  · exact initiated_storeCandidate
  · rfl
  · rfl

theorem initiated_delivered {outcome : Outcome SendResult}
    (delivered : phase.delivered state outcome = some turn) : turn.2.1.initiated? = none := by
  unfold MediaPhase.delivered at delivered
  split at delivered
  · obtain ⟨call, _, rfl⟩ := Option.map_eq_some_iff.mp delivered
    unfold offerSent
    split
    · rfl
    · split
      · rfl
      · split <;> rfl
  · obtain ⟨call, _, rfl⟩ := Option.map_eq_some_iff.mp delivered
    unfold answerSent
    split
    · rfl
    · split <;> rfl
  · cases delivered

/-- Only a request that awaits an answer reports its call, with the answer
there. -/
theorem initiated_awaited {now : Int} (awaited : phase.awaited settings state now = some turn)
    (initiated : turn.2.1.initiated? = some callId) :
    ∃ place call answer, phase = .awaitingAnswer place ∧ state.objects[place]? = some call ∧
      call.answer = some (some answer) ∧ call.callId = callId ∧ turn.1.calls = state.calls := by
  unfold MediaPhase.awaited at awaited
  split at awaited
  · next place =>
      obtain ⟨call, located, settled⟩ := Option.bind_eq_some_iff.mp awaited
      obtain ⟨answer, present, rfl⟩ := Option.map_eq_some_iff.mp settled
      cases answer with
      | none => cases initiated
      | some answer =>
        exact ⟨place, call, answer, rfl, located, present, Option.some.inj initiated, rfl⟩
  · cases awaited
    rw [initiated_storeCandidate] at initiated
    cases initiated
  · cases awaited
    cases initiated
  · obtain ⟨waiter, awaits, confirmed⟩ := Option.bind_eq_some_iff.mp awaited
    obtain ⟨granted, _, proceeded⟩ := Option.bind_eq_some_iff.mp confirmed
    split at proceeded
    · cases phase with
      | initiatorConfirming | offerConfirming =>
        cases proceeded
        split at initiated <;> cases initiated
      | sessionConfirming =>
        cases proceeded
        unfold openSession at initiated
        dsimp only at initiated
        split at initiated <;> cases initiated
      | _ => cases proceeded
    · cases proceeded
      unfold MediaPhase.decline at initiated
      split at initiated <;> cases initiated

theorem Books.fairTurn (books : Books pool) (timely : Timely settings pool label)
    (turn : Turn (mediaProgram settings) pool next label index phase emitted) :
    FairTurn pool label next where
  entries := by
    intro callId place call found
    obtain ⟨entry, located⟩ := callUnder_eq_some.mp found
    have filed := filed_turn turn
    generalize beforeEq : pool.calls[index]? = before at filed
    cases filed with
    | kept calls | opened settled goes calls | closed calls =>
      left
      rw [calls, entry]
    | cleaned holds held operator calls =>
      rw [calls, get_delete]
      split
      · next same =>
          right
          obtain ⟨own, ownLocated, only⟩ := books.held index _ _ beforeEq holds
          cases held.symm.trans ownLocated
          rw [same] at entry
          rw [operator, Option.some.inj (held.symm.trans ((only place entry) ▸ located))]
      · exact Or.inl entry
    | @hungUp _ _ peerId _ operator hangs named fewer others objects sessions released =>
      by_cases same : call.peerId = peerId
      · exact Or.inr (operator.trans (congrArg some same.symm))
      · exact Or.inl (others callId place call found same)
    | entered settled goes made silent calls =>
      left
      have admitted := Timely.admitted turn timely settled beforeEq goes
      rw [calls, get_set_of_ne, entry]
      rintro rfl
      rcases made with ⟨peerId, kind, waiter, rfl, _, named⟩ |
        ⟨peerId, offer, waiter, rfl, _, named⟩ <;>
        rw [stillAdmitted, Bool.and_eq_true, ← named] at admitted <;>
        rw [FreeCallId.entry admitted.2] at entry
      · cases entry
      · cases entry
  initiated := by
    intro position callId sdp found
    by_cases same : position = index
    · subst same
      rw [turn.located] at found
      cases found
      rcases turn.taken with ⟨action, _, _, launched⟩ | ⟨reply, before, _, present, resumed⟩
      · simp only [mediaProgram, Prod.mk.injEq, Option.some.injEq] at launched
        have silent : (action.perform pool.shared).2.1.initiated? = none := initiated_perform action
        rw [launched.2.1] at silent
        cases silent
      · cases reply with
        | access => cases initiated_decided resumed
        | sent => cases initiated_delivered resumed
        | settled =>
          obtain ⟨place, call, answer, rfl, located, answered, rfl, calls⟩ :=
            initiated_awaited resumed rfl
          refine Or.inr ⟨place, present, ?_⟩
          rw [calls]
          exact books.answered position _ place call answer present rfl located answered
    · exact Or.inl (turn.others position same).symm

end

theorem books_start (telemetryGate : TelemetryGate) : Books (Pool.initial (new telemetryGate)) := by
  have uncalled (callId : String) : (new telemetryGate).callUnder callId = none := by
    rw [callUnder, new, get_empty, Option.bind_none]
  have unlaunched (position : Nat) :
      (Pool.initial (new telemetryGate) : Pool MediaState MediaPhase).calls[position]? =
        none := List.getElem?_nil
  exact
    { bounds :=
        { calls := Nat.zero_le _
          sessions := Nat.zero_le _
          one_session := by
            intro first second firstSession secondSession found
            cases found
          one_inbound := by
            intro first second firstPlace secondPlace firstCall secondCall found
            cases (uncalled first).symm.trans found }
      entries := by
        intro callId place found
        cases found
      held := fun position phase place found => by
        cases (unlaunched position).symm.trans found
      answered := fun position phase place call answer found => by
        cases (unlaunched position).symm.trans found
      apart := fun first second firstPhase secondPhase firstPlace secondPlace firstCall secondCall
          found => by
        cases (unlaunched first).symm.trans found }

/-- In a run of timely turns the calls and sessions stay within their bounds,
and every further timely turn is a fair one. -/
theorem media_bookkeeping (settings : MediaSettings) (telemetryGate : TelemetryGate)
    {history : List (Nat × MediaEvent)} {pool : Pool MediaState MediaPhase}
    (runs : Runs (mediaProgram settings).step
      (fun _ pool label => Timely settings pool label)
      (Pool.initial (new telemetryGate)) history pool) : WithinBounds pool.shared ∧
      ∀ label next outputs, Timely settings pool label →
        (mediaProgram settings).step pool label = some (next, outputs) →
          FairTurn pool label next := by
  have books : Books pool := by
    refine runs.invariant (fun _ pool => Books pool) (books_start telemetryGate) ?_
    intro history before label next outputs books timely stepped
    obtain ⟨index, phase, emitted, _, turn⟩ :=
      Program.exists_turn (mediaProgram_leaves settings) stepped
    exact books.step timely turn
  refine ⟨books.bounds, fun label next outputs timely stepped => ?_⟩
  obtain ⟨index, phase, emitted, _, turn⟩ :=
    Program.exists_turn (mediaProgram_leaves settings) stepped
  exact books.fairTurn timely turn

def firstPeer : String :=
  String.ofList (List.replicate 64 'a')

def secondPeer : String :=
  String.ofList (List.replicate 64 'b')

def answeredCall : List (Label MediaAction MediaReply) :=
  [.launch (.initiateCall (.string firstPeer) (.string "camera")),
    .resume 0 (.access (.granted .verifiedContact)),
    .launch (.resolveMediaAccess "x" true),
    .resume 0 (.settled 0),
    .resume 0 (.sent (.resolved ⟨true, (OfferAck.accepted "xx").encode, none⟩)),
    .launch (.handleAnswer (encodeAnswer ⟨"xx", "v=0"⟩) (some firstPeer)),
    .resume 2 (.access (.granted .verifiedContact))]

theorem media_bookkeeping_call :
    ∃ history pool next outputs, Runs (mediaProgram plainMediaSettings).step
        (fun _ pool label => Timely plainMediaSettings pool label)
        (.initial (.new newTelemetryGate)) history pool ∧
      (mediaProgram plainMediaSettings).step pool (.resume 0 (.settled 0)) = some (next, outputs) ∧
      next.shared.callCount = 1 ∧ WithinBounds pool.shared ∧
      FairTurn pool (.resume 0 (.settled 0)) next := by
  obtain ⟨history, pool, runs, tested⟩ := exists_runs_of_runWhile
    (mediaProgram plainMediaSettings).step (fun _ => Timely plainMediaSettings)
    (fun _ pool label => Timely plainMediaSettings pool label)
    (.initial (.new newTelemetryGate)) answeredCall
    (fun result => Timely plainMediaSettings result.1 (.resume 0 (.settled 0)) &&
      ((mediaProgram plainMediaSettings).step result.1 (.resume 0 (.settled 0))).any
        fun (next : Pool MediaState MediaPhase × List (Nat × MediaEvent)) =>
          decide (next.1.shared.callCount = 1))
    (fun _ _ _ admitted => admitted) (by decide +kernel)
  rw [Bool.and_eq_true, Option.any_eq_true] at tested
  obtain ⟨timely, ⟨next, outputs⟩, stepped, counted⟩ := tested
  obtain ⟨bounds, fair⟩ := media_bookkeeping plainMediaSettings newTelemetryGate runs
  exact ⟨history, pool, next, outputs, runs, stepped, of_decide_eq_true counted, bounds,
    fair _ next outputs timely stepped⟩

/-- Two requests for a session with one peer that are both confirmed. -/
def twoSessions : List (Label MediaAction MediaReply) :=
  [.launch (.requestSession (.string firstPeer) (.string "camera") {}),
    .launch (.requestSession (.string firstPeer) (.string "camera") {}),
    .resume 0 (.access (.granted .verifiedContact)),
    .resume 1 (.access (.granted .verifiedContact)),
    .launch (.resolveMediaAccess "x" true), .launch (.resolveMediaAccess "xx" true),
    .resume 0 (.settled 0), .resume 1 (.settled 0)]

/-- Two peers offer a call under one identifier, and one offer goes on. -/
def twoOffers : List (Label MediaAction MediaReply) :=
  [.launch (.handleOffer (encodeOffer ⟨"call", .camera, "v=0"⟩) (some firstPeer)),
    .launch (.handleOffer (encodeOffer ⟨"call", .camera, "v=0"⟩) (some secondPeer)),
    .resume 0 (.access (.granted .verifiedContact)),
    .resume 1 (.access (.granted .verifiedContact)),
    .launch (.resolveMediaAccess "x" true), .launch (.resolveMediaAccess "xx" true),
    .resume 0 (.settled 0)]

/-- Both sessions of a peer stand, the second offer takes the entry of the first
one, and a call that was hung up on is reported as initiated. -/
theorem media_bookkeeping_overlaps : (∃ history pool, Runs (mediaProgram plainMediaSettings).step
        unrestricted (.initial (.new newTelemetryGate)) history pool ∧ ¬WithinBounds pool.shared) ∧
    (∃ history pool next outputs, Runs (mediaProgram plainMediaSettings).step
        unrestricted (.initial (.new newTelemetryGate)) history pool ∧
      (mediaProgram plainMediaSettings).step pool (.resume 1 (.settled 0)) = some (next, outputs) ∧
      ¬FairTurn pool (.resume 1 (.settled 0)) next) ∧
    ∃ history pool next outputs, Runs (mediaProgram plainMediaSettings).step
        unrestricted (.initial (.new newTelemetryGate)) history pool ∧
      (mediaProgram plainMediaSettings).step pool (.resume 0 (.settled 0)) = some (next, outputs) ∧
      ¬FairTurn pool (.resume 0 (.settled 0)) next := by
  refine ⟨?_, ?_, ?_⟩
  · obtain ⟨history, pool, runs, tested⟩ := exists_runs_of_any
      (mediaProgram plainMediaSettings).step (fun _ => True) (.initial (.new newTelemetryGate))
      twoSessions
      (fun result =>
        decide ((result.1.shared.sessions.get "xxx").map peerId = some firstPeer) &&
          decide ((result.1.shared.sessions.get "xxxx").map peerId = some firstPeer))
      (fun _ _ => trivial) (by decide +kernel)
    rw [Bool.and_eq_true, decide_eq_true_eq, decide_eq_true_eq] at tested
    obtain ⟨first, firstFound, firstPeerEq⟩ := Option.map_eq_some_iff.mp tested.1
    obtain ⟨second, secondFound, secondPeerEq⟩ := Option.map_eq_some_iff.mp tested.2
    refine ⟨history, pool, runs, fun bounds => ?_⟩
    have same : "xxx" = "xxxx" := bounds.one_session _ _ first second firstFound secondFound
      (firstPeerEq.trans secondPeerEq.symm)
    exact absurd same (by decide)
  · obtain ⟨history, pool, runs, tested⟩ := exists_runs_of_any
      (mediaProgram plainMediaSettings).step (fun _ => True) (.initial (.new newTelemetryGate))
      twoOffers
      (fun result =>
        decide ((result.1.shared.callUnder "call").map (fun entry => (entry.1, entry.2.peerId)) =
            some (0, firstPeer)) &&
          decide (operationPeer result.1 (.resume 1 (.settled 0)) = some secondPeer) &&
          ((mediaProgram plainMediaSettings).step result.1 (.resume 1 (.settled 0))).any
            fun (next : Pool MediaState MediaPhase × List (Nat × MediaEvent)) =>
              decide (next.1.shared.calls.get "call" = some 1))
      (fun _ _ => trivial) (by decide +kernel)
    rw [Bool.and_eq_true, Bool.and_eq_true, decide_eq_true_eq, decide_eq_true_eq,
      Option.any_eq_true] at tested
    obtain ⟨⟨entered, operator⟩, ⟨next, outputs⟩, stepped, taken⟩ := tested
    obtain ⟨⟨place, call⟩, found, here⟩ := Option.map_eq_some_iff.mp entered
    obtain ⟨rfl, withFirst⟩ := Prod.mk.inj here
    refine ⟨history, pool, next, outputs, runs, stepped, fun fair => ?_⟩
    rcases fair.entries "call" 0 call found with kept | own
    · cases kept.symm.trans (of_decide_eq_true taken)
    · rw [operator, show call.peerId = firstPeer from withFirst] at own
      exact absurd own (by decide)
  · obtain ⟨history, pool, runs, tested⟩ := exists_runs_of_any
      (mediaProgram plainMediaSettings).step (fun _ => True) (.initial (.new newTelemetryGate))
      (answeredCall ++ [.launch (.hangup (.string firstPeer))])
      (fun result => ((mediaProgram plainMediaSettings).step result.1 (.resume 0 (.settled 0))).any
        fun (next : Pool MediaState MediaPhase × List (Nat × MediaEvent)) =>
          (next.1.shared.calls.get "xx").isNone &&
            decide ((result.1.calls[0]?).bind initiated? = none) &&
            decide ((next.1.calls[0]?).bind initiated? = some "xx"))
      (fun _ _ => trivial) (by decide +kernel)
    rw [Option.any_eq_true] at tested
    obtain ⟨⟨next, outputs⟩, stepped, tested⟩ := tested
    rw [Bool.and_eq_true, Bool.and_eq_true, decide_eq_true_eq, decide_eq_true_eq,
      Option.isNone_iff_eq_none] at tested
    obtain ⟨⟨gone, unreported⟩, reported⟩ := tested
    refine ⟨history, pool, next, outputs, runs, stepped, fun fair => ?_⟩
    obtain ⟨phase, located, initiated⟩ := Option.bind_eq_some_iff.mp reported
    obtain ⟨sdp, rfl⟩ := finished_of_initiated initiated
    rcases fair.initiated 0 "xx" sdp located with same | ⟨_, _, kept⟩
    · rw [same] at unreported
      cases reported.symm.trans unreported
    · cases kept.symm.trans gone

end P2PHub.Media
