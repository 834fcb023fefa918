import P2PHub.MediaPlugin

/-!
# Consent for media

Every call and session of the media plugin goes back to a confirmation of its
own, given after the peer access gate let its peer in and before the request
for it ran out.
-/

namespace P2PHub.Media

open MediaEvent AsyncCalls MediaState Media Transition

def MediaEvent.settles (requestId : String) : MediaEvent → Bool
  | answered other _ => decide (other = requestId)
  | expired other => decide (other = requestId)
  | _ => false

/-- The peer and the kind of a call or session that is inserted. -/
def MediaEvent.inserts : MediaEvent → Option (String × MediaKind)
  | insertedCall _ peerId kind => some (peerId, kind)
  | insertedSession _ peerId kind => some (peerId, kind)
  | _ => none

def Unsettled (history : List (Nat × MediaEvent)) (requestId : String) : Prop :=
  ∀ event ∈ history, event.2.settles requestId = false

def Raised (history : List (Nat × MediaEvent)) (index : Nat) (requestId : String) : Prop :=
  ∃ peerId kind direction, (index, .raised requestId peerId kind direction) ∈ history

/-- The peer was let in, the request raised the confirmation for it and the
kind, and the confirmation was given while it was neither answered nor expired. -/
def Confirmed (history : List (Nat × MediaEvent)) (index : Nat) (peerId : String)
    (kind : MediaKind) (requestId : String) : Prop :=
  ∃ direction resolver earlier later,
    history = earlier ++ (resolver, .answered requestId true) :: later ∧
      List.Sublist [(index, .accessGranted peerId), (index,
        .raised requestId peerId kind direction)]
        earlier ∧
      Unsettled earlier requestId

/-- The confirmation was refused or ran out before it was answered. -/
def Declined (history : List (Nat × MediaEvent)) (requestId : String) : Prop :=
  ∃ resolver event earlier later, history = earlier ++ (resolver, event) :: later ∧
      (event = .answered requestId false ∨ event = .expired requestId) ∧
      Unsettled earlier requestId

/-- Every call and session has a confirmation of its own, and a call object
belongs to a request whose confirmation was given. -/
structure SoundConsent (history : List (Nat × MediaEvent)) (state : MediaState) : Prop where
  inserted : ∀ index event earlier later peerId kind,
    history = earlier ++ (index, event) :: later → event.inserts = some (peerId, kind) →
      ∃ requestId, Confirmed earlier index peerId kind requestId
  once : ∀ requestId earlier first firstEvent middle second secondEvent later,
    history = earlier ++ (first, firstEvent) :: (middle ++ (second, secondEvent) :: later) →
      firstEvent.inserts.isSome → secondEvent.inserts.isSome → Raised history first requestId →
        ¬Raised history second requestId
  declined : ∀ requestId index event, Declined history requestId → Raised history index requestId →
    (index, event) ∈ history → event.inserts = none
  established : ∀ (place : Nat) call, state.objects[place]? = some call →
    call.status = .established →
      ∃ index requestId, (index, .insertedCall place call.peerId call.kind) ∈ history ∧
        Confirmed history index call.peerId call.kind requestId

section

variable {settings : MediaSettings} {state after : MediaState} {change : CallState → CallState}
  {before : Option MediaPhase} {peerId : String} {now : Int}

/-- What a suspended request asks a confirmation for, and the promise of it. -/
def MediaPhase.asks? : MediaPhase → Option (String × MediaKind × Nat)
  | initiatorConfirming peerId kind waiter => some (peerId, kind, waiter)
  | offerConfirming peerId offer waiter => some (peerId, offer.mediaKind, waiter)
  | sessionConfirming peerId kind _ waiter => some (peerId, kind, waiter)
  | _ => none

def MediaPhase.isFresh : MediaPhase → Bool
  | initiatorAccess _ _ => true
  | offerAccess _ _ => true
  | answerAccess _ _ => true
  | candidateAccess _ _ => true
  | candidateVerdict _ _ _ => true
  | sessionAccess _ _ _ => true
  | _ => false

def MediaPhase.isSpent : MediaPhase → Bool
  | offering _ => true
  | awaitingAnswer _ => true
  | answering _ => true
  | finished _ => true
  | _ => false

def CallState.identity (call : CallState) : String × MediaKind :=
  (call.peerId, call.kind)

def MediaState.identities (state : MediaState) : List (String × MediaKind) :=
  state.objects.map CallState.identity

structure SameRequests (state after : MediaState) : Prop where
  pendingRequests : after.pendingRequests = state.pendingRequests
  confirmations : after.confirmations = state.confirmations
  drawn : state.drawn ≤ after.drawn

theorem SameRequests.refl (state : MediaState) : SameRequests state state :=
  ⟨rfl, rfl, le_refl _⟩

/-- Everything a turn can do to the confirmations, the call objects and the
history of its request. -/
inductive Turned (settings : MediaSettings) (state : MediaState) :
    Option MediaPhase → MediaState → MediaPhase → List MediaEvent → Prop
  | begun {after : MediaState} {next : MediaPhase} (same : SameRequests state after)
      (objects : after.identities = state.identities) (fresh : next.isFresh = true) :
      Turned settings state none after next []
  | ended {before : Option MediaPhase} {after : MediaState} {next : MediaPhase}
      (same : SameRequests state after) (objects : after.identities = state.identities)
      (spent : next.isSpent = true) :
      Turned settings state before after next []
  | asked {phase next : MediaPhase} {peerId : String} {kind : MediaKind}
      {direction : MediaDirection} (fresh : phase.isFresh = true)
      (asks : next.asks? = some (peerId, kind, state.confirmations.length)) :
      Turned settings state (some phase)
        (askForMediaAccess settings state peerId kind direction).1 next
        [.accessGranted peerId, .raised (settings.randomUUID state.drawn) peerId kind direction]
  | answered {requestId : String} {entry : PendingAccessRequest} {granted : Bool}
      (found : state.pendingRequests.get requestId = some entry) :
      Turned settings state none (state.settleRequest entry.requestId entry.waiter granted)
        (.finished (.resolved true)) [.answered requestId granted]
  | expired {requestId : String} {waiter : Nat}
      (unanswered : state.confirmations[waiter]? = some ⟨requestId, none⟩) :
      Turned settings state none (state.settleRequest requestId waiter false) (.finished .fired)
        [.expired requestId]
  | entered {phase next : MediaPhase} {after : MediaState} {peerId skill : String}
      {kind : MediaKind} {waiter : Nat} {payload : JsValue}
      (asks : phase.asks? = some (peerId, kind, waiter))
      (granted : state.confirmed waiter = some true) (same : SameRequests state after)
      (objects : after.identities = state.identities ++ [(peerId, kind)])
      (spent : next.isSpent = true) :
      Turned settings state (some phase) after next
        [.insertedCall state.objects.length peerId kind, .sent peerId skill payload]
  | opened {phase next : MediaPhase} {after : MediaState} {peerId sessionId : String}
      {kind : MediaKind} {waiter : Nat} (asks : phase.asks? = some (peerId, kind, waiter))
      (granted : state.confirmed waiter = some true) (same : SameRequests state after)
      (objects : after.identities = state.identities) (spent : next.isSpent = true) :
      Turned settings state (some phase) after next [.insertedSession sessionId peerId kind]

theorem identities_modifyObject {place : Nat}
    (keeps : ∀ call, (change call).identity = call.identity) :
    (state.modifyObject place change).identities = state.identities := by
  rw [identities, identities, modifyObject]
  apply List.ext_getElem?
  intro position
  simp only [List.getElem?_map, List.getElem?_modify]
  cases state.objects[position]? with
  | none => rfl
  | some call =>
    split
    · exact congrArg some (keeps call)
    · rfl

theorem sameRequests_cleanupCall (state : MediaState) (callId : String) :
    SameRequests state (cleanupCall state callId) := by
  unfold cleanupCall
  split
  · split <;> exact ⟨rfl, rfl, le_refl _⟩
  · exact ⟨rfl, rfl, le_refl _⟩

theorem identities_cleanupCall (state : MediaState) (callId : String) :
    (cleanupCall state callId).identities = state.identities := by
  unfold cleanupCall
  split
  · split
    · exact identities_modifyObject fun _ => rfl
    · rfl
  · rfl

theorem Turned.finish (result : MediaResult)
    (same : SameRequests state after) (objects : after.identities = state.identities) :
    Turned settings state before (finish after result).1 (finish after result).2.1
      (finish after result).2.2 :=
  .ended same objects rfl

theorem Turned.stop (result : MediaResult) :
    Turned settings state before (Media.finish state result).1 (Media.finish state result).2.1
      (Media.finish state result).2.2 :=
  .finish result (.refl state) rfl

theorem Turned.cleanup (callId : String) (result : MediaResult) :
    Turned settings state before (Media.finish (cleanupCall state callId) result).1
      (Media.finish (cleanupCall state callId) result).2.1
      (Media.finish (cleanupCall state callId) result).2.2 :=
  .finish result (sameRequests_cleanupCall state callId) (identities_cleanupCall state callId)

theorem Turned.modify {place : Nat} (keeps : ∀ call, (change call).identity = call.identity)
    (result : MediaResult) :
    Turned settings state before (Media.finish (state.modifyObject place change) result).1
      (Media.finish (state.modifyObject place change) result).2.1
      (Media.finish (state.modifyObject place change) result).2.2 :=
  .finish result ⟨rfl, rfl, le_refl _⟩ (identities_modifyObject keeps)

theorem Turned.receive {Message : Type} {payload : JsValue} {invoker : Option String}
    {parse : JsValue → Option Message} {deny : String → MediaTurn}
    {next : String → Message → MediaTurn}
    (denied : ∀ error, Turned settings state none (deny error).1 (deny error).2.1 (deny error).2.2)
    (admitted : ∀ peerId message, Turned settings state none (next peerId message).1
      (next peerId message).2.1 (next peerId message).2.2) :
    Turned settings state none (Media.receive state payload invoker parse deny next).1
      (Media.receive state payload invoker parse deny next).2.1
      (Media.receive state payload invoker parse deny next).2.2 := by
  unfold Media.receive
  split
  · exact .stop .threw
  · split
    · exact denied _
    · split
      · exact denied _
      · exact admitted _ _

theorem sameRequests_consumeStreamFrame (state : MediaState) (sessionId : String)
    (byteSize : Nat) (now : Int) :
    SameRequests state (consumeStreamFrame state sessionId byteSize now).1 ∧
      (consumeStreamFrame state sessionId byteSize now).1.objects = state.objects := by
  unfold consumeStreamFrame
  split
  · exact ⟨.refl state, rfl⟩
  · dsimp only
    split <;> exact ⟨⟨rfl, rfl, le_refl _⟩, rfl⟩

theorem turned_initiateCall (peerId kind : JsValue) :
    Turned settings state none (initiateCall state peerId kind).1
      (initiateCall state peerId kind).2.1 (initiateCall state peerId kind).2.2 := by
  unfold initiateCall
  split
  · exact .stop _
  · split
    · exact .stop _
    · exact .begun (.refl state) rfl rfl

theorem turned_requestSession (peerId kind : JsValue) (telemetry : StreamRateOptions) :
    Turned settings state none (requestSession state peerId kind telemetry).1
      (requestSession state peerId kind telemetry).2.1
      (requestSession state peerId kind telemetry).2.2 := by
  unfold requestSession
  split
  · exact .stop _
  · split
    · exact .stop _
    · split
      · exact .stop _
      · exact .begun (.refl state) rfl rfl

theorem turned_handleCandidate (payload : JsValue) (invoker : Option String) (now : Int) :
    Turned settings state none (handleCandidate state payload invoker now).1
      (handleCandidate state payload invoker now).2.1
      (handleCandidate state payload invoker now).2.2 := by
  refine .receive (fun error => .stop _) fun peerId message => ?_
  split
  · next session _ =>
      obtain ⟨same, objects⟩ := sameRequests_consumeStreamFrame state session.sessionId
        (candidateBytes message) now
      exact .begun same (congrArg (List.map CallState.identity) objects) rfl
  · exact .begun (.refl state) rfl rfl

theorem turned_hangup (peerId : String) :
    Turned settings state none (hangup state peerId).1 (hangup state peerId).2.1
      (hangup state peerId).2.2 := by
  -- Hanging up is one cleanup after another.
  let kept : MediaState × Nat → Prop := fun closing =>
    SameRequests state closing.1 ∧ closing.1.identities = state.identities
  have initial : kept (state, 0) := ⟨.refl state, rfl⟩
  have finished (closed : MediaState × Nat) (held : kept closed) :
      Turned settings state none (finish closed.1 (.closed closed.2)).1
        (finish closed.1 (.closed closed.2)).2.1 (finish closed.1 (.closed closed.2)).2.2 :=
    .finish _ held.1 held.2
  refine finished _ (@List.foldlRecOn _ _ kept state.calls.keys _ _ initial ?_)
  rintro closing ⟨same, objects⟩ callId _
  split
  · split
    · have next := sameRequests_cleanupCall closing.1 callId
      refine ⟨⟨next.pendingRequests.trans same.pendingRequests,
        next.confirmations.trans same.confirmations, same.drawn.trans next.drawn⟩, ?_⟩
      exact (identities_cleanupCall closing.1 callId).trans objects
    · exact ⟨same, objects⟩
  · exact ⟨same, objects⟩

theorem turned_perform (action : MediaAction) :
    Turned settings state none (action.perform state).1 (action.perform state).2.1
      (action.perform state).2.2 := by
  cases action with
  | initiateCall peerId kind => exact turned_initiateCall peerId kind
  | handleOffer | handleAnswer =>
    exact .receive (fun _ => .stop _) fun _ _ => .begun (.refl state) rfl rfl
  | handleCandidate payload invoker now => exact turned_handleCandidate payload invoker now
  | requestSession peerId kind telemetry => exact turned_requestSession peerId kind telemetry
  | closeSession =>
    simp only [MediaAction.perform]
    unfold closeSession
    split
    · exact .stop _
    · exact .finish _ ⟨rfl, rfl, le_refl _⟩ rfl
  | hangup peerId => exact turned_hangup (peerIdOf peerId)
  | resolveMediaAccess =>
    simp only [MediaAction.perform]
    unfold resolveMediaAccess
    split
    · exact .stop _
    · split
      · exact .stop _
      · next entry found => exact .answered found
  | accessTimeout =>
    simp only [MediaAction.perform]
    unfold accessTimeout
    split
    · next requestId unanswered => exact .expired unanswered
    · exact .stop _
  | answerTimeout =>
    refine .modify (fun call => ?_) _
    split <;> rfl

/-- A turn of a request that does something, whatever it is. -/
def Advances (settings : MediaSettings) (state : MediaState) (phase : MediaPhase)
    (turn : MediaTurn) : Prop :=
  Turned settings state (some phase) turn.1 turn.2.1 turn.2.2

variable {phase : MediaPhase} {turn : MediaTurn}

theorem advances_askAfterGate {kind : MediaKind} {direction : MediaDirection}
    {next : Nat → MediaPhase} (fresh : phase.isFresh)
    (asks : ∀ waiter, (next waiter).asks? = some (peerId, kind, waiter)) :
    Advances settings state phase (askAfterGate settings state peerId kind direction next) :=
  .asked fresh (asks _)

theorem advances_storeCandidate {message : SignalCandidate} :
    Advances settings state phase (storeCandidate state peerId message) := by
  unfold storeCandidate
  split
  · exact .stop _
  · split
    · exact .stop _
    · exact Turned.modify (fun _ => by rfl) _

theorem advances_answerGranted {answer : SignalAnswer} :
    Advances settings state phase (answerGranted state peerId answer) := by
  unfold answerGranted
  split
  · exact .stop _
  · split
    · exact .stop _
    · refine .modify (fun call => ?_) _
      split <;> rfl

theorem advances_offerGranted {offer : SignalOffer} :
    Advances settings state (.offerAccess peerId offer)
      (offerGranted settings state peerId offer) := by
  unfold offerGranted
  split
  · exact .stop _
  · split
    · exact .stop _
    · split
      · exact .stop _
      · exact advances_askAfterGate rfl fun _ => rfl

theorem advances_decided {decision : PeerAccessDecision}
    (decided : phase.decided settings state decision = some turn) :
    Advances settings state phase turn := by
  unfold MediaPhase.decided at decided
  split at decided <;> cases decided
  · exact .stop _
  · exact advances_askAfterGate rfl fun _ => rfl
  · exact .stop _
  · exact advances_offerGranted
  · exact .stop _
  · exact advances_answerGranted
  · exact .stop _
  · exact advances_storeCandidate
  · exact .stop _
  · exact advances_askAfterGate rfl fun _ => rfl

theorem identities_insertCall (state : MediaState) (call : CallState) :
    (state.insertCall call).identities = state.identities ++ [call.identity] := by
  simp only [identities, insertCall, List.map_append, List.map_cons, List.map_nil]

theorem advances_openSession {kind : MediaKind} {telemetry : StreamRateOptions} {waiter : Nat}
    (asks : phase.asks? = some (peerId, kind, waiter))
    (granted : state.confirmed waiter = some true) :
    Advances settings state phase (openSession settings state peerId kind telemetry now) := by
  unfold openSession
  dsimp only
  split
  · exact .finish _ ⟨rfl, rfl, Nat.le_succ _⟩ rfl
  · exact .opened asks granted ⟨rfl, rfl, Nat.le_succ _⟩ rfl rfl

theorem advances_proceed {waiter : Nat} (awaits : phase.waiter? = some waiter)
    (granted : state.confirmed waiter = some true)
    (proceeded : phase.proceed settings state now = some turn) :
    Advances settings state phase turn := by
  cases phase with
  | initiatorConfirming | offerConfirming =>
    cases awaits
    cases proceeded
    split
    · exact .entered rfl granted ⟨rfl, rfl, Nat.le_add_right _ _⟩ (identities_insertCall _ _) rfl
    · exact .stop _
  | sessionConfirming =>
    cases awaits
    cases proceeded
    exact advances_openSession rfl granted
  | _ => cases awaits

theorem advances_awaited (awaited : phase.awaited settings state now = some turn) :
    Advances settings state phase turn := by
  unfold MediaPhase.awaited at awaited
  split at awaited
  · obtain ⟨call, _, settled⟩ := Option.bind_eq_some_iff.mp awaited
    obtain ⟨answer, _, rfl⟩ := Option.map_eq_some_iff.mp settled
    unfold answerSettled
    split
    · exact .cleanup _ _
    · exact Turned.modify (fun _ => by rfl) _
  · cases awaited
    exact advances_storeCandidate
  · cases awaited
    exact .stop _
  · obtain ⟨waiter, awaits, confirmed⟩ := Option.bind_eq_some_iff.mp awaited
    obtain ⟨granted, settled, proceeded⟩ := Option.bind_eq_some_iff.mp confirmed
    split at proceeded
    · next given =>
        subst given
        exact advances_proceed awaits settled proceeded
    · cases proceeded
      unfold MediaPhase.decline
      split <;> exact .stop _

theorem advances_delivered {outcome : Outcome SendResult}
    (delivered : phase.delivered state outcome = some turn) :
    Advances settings state phase turn := by
  unfold MediaPhase.delivered at delivered
  split at delivered
  · obtain ⟨call, _, rfl⟩ := Option.map_eq_some_iff.mp delivered
    unfold offerSent
    split
    · exact .stop _
    · split
      · exact .cleanup _ _
      · split
        · exact .cleanup _ _
        · exact .cleanup _ _
        · exact .ended (.refl state) rfl rfl
  · obtain ⟨call, _, rfl⟩ := Option.map_eq_some_iff.mp delivered
    unfold answerSent
    split
    · exact .stop _
    · split
      · exact .cleanup _ _
      · exact Turned.modify (fun _ => by rfl) _
  · cases delivered

theorem media_turn {pool following : Pool MediaState MediaPhase}
    {label : Label MediaAction MediaReply} {index : Nat} {emitted : List MediaEvent}
    (turn : Turn (mediaProgram settings) pool following label index phase emitted) :
    Turned settings pool.shared pool.calls[index]? following.shared phase emitted := by
  rcases turn.taken with ⟨action, _, missing, launched⟩ | ⟨reply, before, _, found, resumed⟩
  · simp only [mediaProgram, Prod.mk.injEq, Option.some.injEq] at launched
    obtain ⟨sharedEq, phaseEq, emittedEq⟩ := launched
    rw [missing, ← sharedEq, ← phaseEq, ← emittedEq]
    exact turned_perform action
  · rw [found]
    cases reply with
    | access => exact advances_decided resumed
    | settled => exact advances_awaited resumed
    | sent => exact advances_delivered resumed

end

section

variable {history later : List (Nat × MediaEvent)} {index : Nat} {requestId peerId : String}
  {kind : MediaKind}

section

variable (confirmed : Confirmed history index peerId kind requestId)
include confirmed

theorem Confirmed.append (later : List (Nat × MediaEvent)) :
    Confirmed (history ++ later) index peerId kind requestId := by
  obtain ⟨direction, resolver, front, back, rfl, raised, unsettled⟩ := confirmed
  exact ⟨direction, resolver, front, back ++ later, by simp, raised, unsettled⟩

theorem not_declined_of_confirmed : ¬Declined history requestId := by
  obtain ⟨_, resolver, front, back, rfl, _, unsettled⟩ := confirmed
  rintro ⟨other, event, earlier, rest, split, refusal, open_⟩
  have settles : event.settles requestId := by
    rcases refusal with rfl | rfl <;> simp [MediaEvent.settles]
  rcases List.append_eq_append_iff.mp split with ⟨middle, rfl, tails⟩ | ⟨middle, rfl, tails⟩
  · cases middle with
    | nil =>
      cases tails
      rcases refusal with refusal | refusal <;> cases refusal
    | cons first =>
      cases tails
      have first := open_ (resolver, .answered requestId true) (by simp)
      simp [MediaEvent.settles] at first
  · cases middle with
    | nil =>
      cases tails
      rcases refusal with refusal | refusal <;> cases refusal
    | cons first =>
      cases tails
      have first := unsettled (other, event) (by simp)
      rw [settles] at first
      cases first

theorem Confirmed.raised : Raised history index requestId := by
  obtain ⟨direction, resolver, front, back, rfl, raised, _⟩ := confirmed
  have member := raised.subset (List.mem_cons_of_mem _ (List.mem_singleton_self _))
  exact ⟨peerId, kind, direction, List.mem_append_left _ member⟩

end

theorem unsettled_append (unsettled : Unsettled history requestId)
    (silent : ∀ event ∈ later, event.2.settles requestId = false) :
    Unsettled (history ++ later) requestId := by
  intro event member
  rcases List.mem_append.mp member with old | new
  · exact unsettled event old
  · exact silent event new

theorem split_append {earlier after : List (Nat × MediaEvent)} {event : Nat × MediaEvent}
    (split : history ++ later = earlier ++ event :: after) :
    (∃ rest, history = earlier ++ event :: rest) ∨
      ∃ front, later = front ++ event :: after ∧ earlier = history ++ front := by
  rcases List.append_eq_append_iff.mp split with ⟨middle, rfl, tails⟩ | ⟨middle, rfl, tails⟩
  · exact Or.inr ⟨middle, tails, rfl⟩
  · cases middle with
    | nil => exact Or.inr ⟨[], tails.symm, by simp⟩
    | cons first middle =>
      cases tails
      exact Or.inl ⟨middle, rfl⟩

end

section

variable {settings : MediaSettings} {state after : MediaState} {phase next : MediaPhase}
  {before : Option MediaPhase} {own emitted : List MediaEvent}

/-- At most one insertion and one confirmation. -/
structure OnceEach (own : List MediaEvent) : Prop where
  inserts : (own.filter fun event => event.inserts.isSome).length ≤ 1
  raises : ∀ first second firstPeer secondPeer firstKind secondKind firstDirection secondDirection,
    .raised first firstPeer firstKind firstDirection ∈ own →
      .raised second secondPeer secondKind secondDirection ∈ own → first = second

/-- The events of a request that is suspended there. -/
structure MediaPhase.Shape (phase : MediaPhase) (own : List MediaEvent) : Prop where
  fresh : phase.isFresh = true → own = []
  asks : ∀ peerId kind waiter, phase.asks? = some (peerId, kind, waiter) → ∃ requestId direction,
      own = [.accessGranted peerId, .raised requestId peerId kind direction]
  once : OnceEach own

theorem asks_of_isFresh (fresh : phase.isFresh) : phase.asks? = none := by
  cases phase <;> first | rfl | cases fresh

theorem asks_of_isSpent (spent : phase.isSpent) : phase.asks? = none := by
  cases phase <;> first | rfl | cases spent

theorem isFresh_of_isSpent (spent : phase.isSpent = true) : phase.isFresh = false := by
  cases phase <;> first | rfl | cases spent

theorem isFresh_of_asks {asked : String × MediaKind × Nat} (asks : phase.asks? = some asked) :
    phase.isFresh = false := by
  cases phase <;> first | rfl | cases asks

theorem onceEach_nil : OnceEach [] :=
  ⟨Nat.zero_le _, by simp⟩

theorem shape_of_isSpent (spent : phase.isSpent) (once : OnceEach own) :
    phase.Shape own where
  fresh := by
    rw [isFresh_of_isSpent spent]
    nofun
  asks := by
    rw [asks_of_isSpent spent]
    nofun
  once := once

theorem Turned.shape (turned : Turned settings state before after next emitted)
    (quiet : before = none → own = [])
    (shape : ∀ phase, before = some phase → phase.Shape own) : next.Shape (own ++ emitted) := by
  cases turned with
  | begun same objects fresh =>
    rw [quiet rfl]
    exact
      { fresh := fun _ => rfl
        asks := by
          rw [asks_of_isFresh fresh]
          nofun
        once := onceEach_nil }
  | ended same objects spent =>
    rw [List.append_nil]
    cases before with
    | none =>
      rw [quiet rfl]
      exact shape_of_isSpent spent onceEach_nil
    | some phase => exact shape_of_isSpent spent (shape phase rfl).once
  | @asked phase next peerId kind direction fresh asks =>
    rw [(shape phase rfl).fresh fresh]
    exact
      { fresh := by
          rw [isFresh_of_asks asks]
          nofun
        asks := by
          intro otherPeer otherKind waiter same
          rw [asks] at same
          cases same
          exact ⟨_, _, rfl⟩
        once := ⟨by simp [inserts], by simp +contextual⟩ }
  | answered =>
    rw [quiet rfl]
    exact shape_of_isSpent rfl ⟨by simp [inserts], by simp⟩
  | expired =>
    rw [quiet rfl]
    exact shape_of_isSpent rfl ⟨by simp [inserts], by simp⟩
  | @entered phase next after peerId skill kind waiter payload asks granted same objects spent =>
    obtain ⟨requestId, direction, rfl⟩ := (shape phase rfl).asks _ _ _ asks
    exact shape_of_isSpent spent ⟨by simp [inserts], by simp +contextual⟩
  | @opened phase next after peerId sessionId kind waiter asks granted same objects spent =>
    obtain ⟨requestId, direction, rfl⟩ := (shape phase rfl).asks _ _ _ asks
    exact shape_of_isSpent spent ⟨by simp [inserts], by simp +contextual⟩

end

section

open AsyncCalls (ownOutputs)

variable {settings : MediaSettings} {history : List (Nat × MediaEvent)}
  {state after : MediaState} {pool following : Pool MediaState MediaPhase} {index : Nat}
  {next : MediaPhase} {before : Option MediaPhase} {emitted : List MediaEvent} {event : MediaEvent}
  {requestId : String}

/-- The identifier of a request that an event is about. -/
def MediaEvent.names : MediaEvent → Option String
  | raised requestId _ _ _ => some requestId
  | answered requestId _ => some requestId
  | expired requestId => some requestId
  | _ => none

theorem names_of_settles
    (settles : event.settles requestId) : event.names = some requestId := by
  cases event <;> simp_all [MediaEvent.settles, MediaEvent.names]

def Drawn (settings : MediaSettings) (state : MediaState) (requestId : String) : Prop :=
  ∃ number < state.drawn, settings.randomUUID number = requestId

/-- What the confirmations say about the history. -/
structure SoundRequests (settings : MediaSettings) (history : List (Nat × MediaEvent))
    (state : MediaState) : Prop where
  names : ∀ event ∈ history, ∀ requestId, event.2.names = some requestId →
    Drawn settings state requestId
  distinct : (state.confirmations.map Confirmation.requestId).Nodup
  confirmations : ∀ (waiter : Nat) confirmation, state.confirmations[waiter]? = some confirmation →
      Drawn settings state confirmation.requestId ∧
        (confirmation.granted = none → Unsettled history confirmation.requestId)
  pending : ∀ requestId entry, state.pendingRequests.get requestId = some entry →
    entry.requestId = requestId ∧ state.confirmations[entry.waiter]? = some ⟨requestId, none⟩
  raised : ∀ first second requestId, Raised history first requestId →
    Raised history second requestId → first = second

/-- What a request that is suspended at a confirmation knows of it. -/
def Awaits (history : List (Nat × MediaEvent)) (state : MediaState) (index : Nat)
    (phase : MediaPhase) : Prop :=
  ∀ peerId kind waiter, phase.asks? = some (peerId, kind, waiter) → ∃ requestId direction granted,
      state.confirmations[waiter]? = some ⟨requestId, granted⟩ ∧ List.Sublist
          [(index, .accessGranted peerId), (index, .raised requestId peerId kind direction)]
          history ∧
        (granted = some true → Confirmed history index peerId kind requestId)

theorem SoundRequests.waiter_unique (sound : SoundRequests settings history state)
    {first second : Nat} {firstConfirmation secondConfirmation : Confirmation}
    (firstFound : state.confirmations[first]? = some firstConfirmation)
    (secondFound : state.confirmations[second]? = some secondConfirmation)
    (same : firstConfirmation.requestId = secondConfirmation.requestId) : first = second := by
  have named (waiter : Nat) : (state.confirmations.map Confirmation.requestId)[waiter]? =
      (state.confirmations[waiter]?).map Confirmation.requestId := List.getElem?_map
  have apart {earlier later : Nat} {confirmation other : Confirmation} (order : earlier < later)
      (found : state.confirmations[earlier]? = some confirmation)
      (otherFound : state.confirmations[later]? = some other) :
      confirmation.requestId ≠ other.requestId := by
    intro equal
    have bound := (List.getElem?_eq_some_iff.mp otherFound).1
    refine List.nodup_iff_getElem?_ne_getElem?.mp sound.distinct earlier later order
      (by rwa [List.length_map]) ?_
    rw [named, named, found, otherFound, Option.map_some, Option.map_some, equal]
  rcases Nat.lt_trichotomy first second with before | same | after
  · exact (apart before firstFound secondFound same).elim
  · exact same
  · exact (apart after secondFound firstFound same.symm).elim

theorem Drawn.mono (drawn : Drawn settings state requestId)
    (more : state.drawn ≤ after.drawn) : Drawn settings after requestId := by
  obtain ⟨number, below, named⟩ := drawn
  exact ⟨number, below.trans_le more, named⟩

section

variable (sound : SoundRequests settings history state)
include sound

theorem SoundRequests.quiet (same : SameRequests state after) (emitted : List MediaEvent)
    (silent : ∀ event ∈ emitted, event.names = none) :
    SoundRequests settings (history ++ emitted.map (index, ·)) after := by
  have silentEvents : ∀ event ∈ emitted.map (index, ·), event.2.names = none := by
    intro event member
    obtain ⟨own, ownMember, rfl⟩ := List.mem_map.mp member
    exact silent own ownMember
  have raisedBefore {first : Nat} {requestId : String}
      (raised : Raised (history ++ emitted.map (index, ·)) first requestId) :
      Raised history first requestId := by
    obtain ⟨peerId, kind, direction, member⟩ := raised
    rcases List.mem_append.mp member with old | new
    · exact ⟨peerId, kind, direction, old⟩
    · cases silentEvents _ new
  exact
    { names := by
        intro event member requestId named
        rcases List.mem_append.mp member with old | new
        · exact (sound.names event old requestId named).mono same.drawn
        · rw [silentEvents event new] at named
          cases named
      distinct := by
        rw [same.confirmations]
        exact sound.distinct
      confirmations := by
        intro waiter confirmation found
        rw [same.confirmations] at found
        obtain ⟨drawn, unsettled⟩ := sound.confirmations waiter confirmation found
        refine ⟨drawn.mono same.drawn, fun ungranted => ?_⟩
        refine unsettled_append (unsettled ungranted) fun event new => ?_
        by_contra settles
        rw [Bool.not_eq_false] at settles
        cases (names_of_settles settles).symm.trans (silentEvents event new)
      pending := by
        rw [same.pendingRequests, same.confirmations]
        exact sound.pending
      raised := by
        intro first second requestId firstRaised secondRaised
        exact sound.raised first second requestId (raisedBefore firstRaised)
          (raisedBefore secondRaised) }

theorem SoundRequests.fresh (injective : Function.Injective settings.randomUUID) :
    (∀ event ∈ history, event.2.names ≠ some (settings.randomUUID state.drawn)) ∧
      ∀ confirmation ∈ state.confirmations,
        confirmation.requestId ≠ settings.randomUUID state.drawn := by
  have undrawn {requestId : String} (drawn : Drawn settings state requestId) :
      requestId ≠ settings.randomUUID state.drawn := by
    obtain ⟨number, below, rfl⟩ := drawn
    intro same
    have equal := injective same
    omega
  constructor
  · intro event member named
    exact undrawn (sound.names event member _ named) rfl
  · intro confirmation member
    obtain ⟨waiter, found⟩ := List.mem_iff_getElem?.mp member
    exact undrawn (sound.confirmations waiter confirmation found).1

theorem SoundRequests.asked
    (injective : Function.Injective settings.randomUUID) (peerId : String) (kind : MediaKind)
    (direction : MediaDirection) : SoundRequests settings (history ++ [.accessGranted peerId,
        .raised (settings.randomUUID state.drawn) peerId kind direction].map (index, ·))
      (askForMediaAccess settings state peerId kind direction).1 := by
  obtain ⟨unnamed, unasked⟩ := sound.fresh injective
  have more : state.drawn ≤ (askForMediaAccess settings state peerId kind direction).1.drawn :=
    Nat.le_succ _
  have new : Drawn settings (askForMediaAccess settings state peerId kind direction).1
      (settings.randomUUID state.drawn) := ⟨state.drawn, Nat.lt_succ_self _, rfl⟩
  have unsettling {requestId : String} :
      ∀ event ∈ ([.accessGranted peerId,
        .raised (settings.randomUUID state.drawn) peerId kind direction].map (index, ·) :
          List (Nat × MediaEvent)), event.2.settles requestId = false := by
    intro event member
    simp only [List.map_cons, List.map_nil, List.mem_cons, List.not_mem_nil, or_false] at member
    rcases member with rfl | rfl <;> rfl
  -- An old request was raised by the one that raised it; the new one by this request.
  have raisedBy {first : Nat} {requestId : String}
      (raised : Raised (history ++ [.accessGranted peerId,
        .raised (settings.randomUUID state.drawn) peerId kind direction].map (index, ·)) first
        requestId) :
      Raised history first requestId ∨
        first = index ∧ requestId = settings.randomUUID state.drawn := by
    obtain ⟨otherPeer, otherKind, otherDirection, member⟩ := raised
    rcases List.mem_append.mp member with old | added
    · exact Or.inl ⟨otherPeer, otherKind, otherDirection, old⟩
    · simp only [List.map_cons, List.map_nil, List.mem_cons, List.not_mem_nil, or_false,
        Prod.mk.injEq, reduceCtorEq, and_false, false_or, raised.injEq] at added
      exact Or.inr ⟨added.1, added.2.1⟩
  have notBoth {first : Nat} (raised : Raised history first (settings.randomUUID state.drawn)) :
      False := by
    obtain ⟨_, _, _, member⟩ := raised
    exact unnamed _ member rfl
  exact
    { names := by
        intro event member requestId named
        rcases List.mem_append.mp member with old | added
        · exact (sound.names event old requestId named).mono more
        · simp only [List.map_cons, List.map_nil, List.mem_cons, List.not_mem_nil, or_false]
            at added
          rcases added with rfl | rfl
          · cases named
          · cases named
            exact new
      distinct := by
        simp only [askForMediaAccess, List.map_append, List.map_cons, List.map_nil]
        refine List.nodup_append.mpr ⟨sound.distinct, List.nodup_singleton _, ?_⟩
        intro old member other otherMember
        obtain ⟨confirmation, found, rfl⟩ := List.mem_map.mp member
        rw [List.mem_singleton.mp otherMember]
        exact unasked confirmation found
      confirmations := by
        intro waiter confirmation found
        rcases Nat.lt_or_ge waiter state.confirmations.length with old | added
        · rw [askForMediaAccess, List.getElem?_append_left old] at found
          obtain ⟨drawn, unsettled⟩ := sound.confirmations waiter confirmation found
          exact ⟨drawn.mono more, fun ungranted =>
            unsettled_append (unsettled ungranted) unsettling⟩
        · rw [askForMediaAccess, List.getElem?_append_right added] at found
          obtain rfl := List.mem_singleton.mp (List.mem_of_getElem? found)
          refine ⟨new, fun _ => unsettled_append (fun event member => ?_) unsettling⟩
          by_contra settles
          rw [Bool.not_eq_false] at settles
          exact unnamed event member (names_of_settles settles)
      pending := by
        intro requestId entry found
        simp only [askForMediaAccess, OrderedMap.get_set] at found ⊢
        split at found
        · next same =>
            cases found
            exact ⟨same.symm, by rw [List.getElem?_concat_length, same]⟩
        · obtain ⟨named, located⟩ := sound.pending requestId entry found
          exact ⟨named, by
            rw [List.getElem?_append_left (List.getElem?_eq_some_iff.mp located).1, located]⟩
      raised := by
        intro first second requestId firstRaised secondRaised
        rcases raisedBy firstRaised with firstOld | ⟨rfl, firstNew⟩
        · rcases raisedBy secondRaised with secondOld | ⟨rfl, secondNew⟩
          · exact sound.raised first second requestId firstOld secondOld
          · rw [secondNew] at firstOld
            exact (notBoth firstOld).elim
        · rcases raisedBy secondRaised with secondOld | ⟨rfl, _⟩
          · rw [firstNew] at secondOld
            exact (notBoth secondOld).elim
          · rfl }

end

theorem getElem?_settleRequest (state : MediaState) (requestId : String) (waiter : Nat)
    (granted : Bool) (other : Nat) :
    (state.settleRequest requestId waiter granted).confirmations[other]? =
      (state.confirmations[other]?).map fun confirmation =>
        if waiter = other then
          { confirmation with granted := confirmation.granted.or (some granted) }
        else confirmation := by
  simp only [settleRequest, List.getElem?_modify]
  rfl

theorem SoundRequests.settled (sound : SoundRequests settings history state)
    {waiter : Nat} {granted : Bool}
    (unanswered : state.confirmations[waiter]? = some ⟨requestId, none⟩)
    (named : event.names = some requestId)
    (unraised : ∀ other peerId kind direction, event ≠ .raised other peerId kind direction) :
    SoundRequests settings (history ++ [event].map (index, ·))
      (state.settleRequest requestId waiter granted) := by
  have raisedBefore {first : Nat} {other : String}
      (raised : Raised (history ++ [event].map (index, ·)) first other) :
      Raised history first other := by
    obtain ⟨peerId, kind, direction, member⟩ := raised
    rcases List.mem_append.mp member with old | added
    · exact ⟨peerId, kind, direction, old⟩
    · simp only [List.map_cons, List.map_nil, List.mem_singleton, Prod.mk.injEq] at added
      exact (unraised _ _ _ _ added.2.symm).elim
  exact
    { names := by
        intro other member otherId otherNamed
        rcases List.mem_append.mp member with old | added
        · exact sound.names other old otherId otherNamed
        · simp only [List.map_cons, List.map_nil, List.mem_singleton] at added
          subst added
          cases named.symm.trans otherNamed
          exact (sound.confirmations waiter _ unanswered).1
      distinct := by
        have same : (state.settleRequest requestId waiter granted).confirmations.map
            Confirmation.requestId = state.confirmations.map Confirmation.requestId := by
          apply List.ext_getElem?
          intro other
          rw [List.getElem?_map, List.getElem?_map, getElem?_settleRequest, Option.map_map]
          congr 1
          funext confirmation
          split <;> rfl
        rw [same]
        exact sound.distinct
      confirmations := by
        intro other confirmation found
        rw [getElem?_settleRequest] at found
        obtain ⟨old, located, rfl⟩ := Option.map_eq_some_iff.mp found
        obtain ⟨drawn, unsettled⟩ := sound.confirmations other old located
        split
        · refine ⟨drawn, fun ungranted => ?_⟩
          simp at ungranted
        · next apart =>
            refine ⟨drawn, fun ungranted => unsettled_append (unsettled ungranted) ?_⟩
            intro added member
            simp only [List.map_cons, List.map_nil, List.mem_singleton] at member
            subst member
            by_contra settles
            rw [Bool.not_eq_false] at settles
            cases named.symm.trans (names_of_settles settles)
            exact apart (sound.waiter_unique unanswered located rfl)
      pending := by
        intro other entry found
        simp only [settleRequest, OrderedMap.get_delete] at found
        split at found
        · cases found
        · next apart =>
            obtain ⟨entryNamed, located⟩ := sound.pending other entry found
            refine ⟨entryNamed, ?_⟩
            rw [getElem?_settleRequest, located, Option.map_some]
            split
            · next same =>
                subst same
                rw [unanswered] at located
                cases located
                exact (apart rfl).elim
            · rfl
      raised := by
        intro first second other firstRaised secondRaised
        exact sound.raised first second other (raisedBefore firstRaised)
          (raisedBefore secondRaised) }

theorem Turned.soundRequests (injective : Function.Injective settings.randomUUID)
    (turned : Turned settings state before after next emitted)
    (sound : SoundRequests settings history state) :
    SoundRequests settings (history ++ emitted.map (index, ·)) after := by
  cases turned with
  | begun same | ended same => exact sound.quiet same [] (by simp)
  | asked => exact sound.asked injective _ _ _
  | answered found =>
    obtain ⟨named, located⟩ := sound.pending _ _ found
    rw [named]
    exact sound.settled located rfl (by simp)
  | expired unanswered => exact sound.settled unanswered rfl (by simp)
  | entered _ _ same _ _ | opened _ _ same => exact sound.quiet same _ (by simp [names])

section

variable (turned : Turned settings state before after next emitted)
include turned

theorem Turned.awaits
    (sound : SoundRequests settings history state) {other : Nat} {phase : MediaPhase}
    (awaits : Awaits history state other phase) :
    Awaits (history ++ emitted.map (index, ·)) after other phase := by
  intro peerId kind waiter asks
  obtain ⟨requestId, direction, granted, found, raised, confirmed⟩ :=
    awaits peerId kind waiter asks
  have longer := raised.trans (List.sublist_append_left history (emitted.map (index, ·)))
  have kept (same : after.confirmations[waiter]? = some ⟨requestId, granted⟩) :
      ∃ requestId direction granted, after.confirmations[waiter]? = some ⟨requestId, granted⟩ ∧
          List.Sublist
            [(other, .accessGranted peerId), (other, .raised requestId peerId kind direction)]
            (history ++ emitted.map (index, ·)) ∧
          (granted = some true →
            Confirmed (history ++ emitted.map (index, ·)) other peerId kind requestId) :=
    ⟨requestId, direction, granted, same, longer, fun given => (confirmed given).append _⟩
  -- Settling one promise either leaves this one alone or is the answer to it.
  have settled {settledId : String} {settledWaiter : Nat} {answer : Bool} {event : MediaEvent}
      (unanswered : state.confirmations[settledWaiter]? = some ⟨settledId, none⟩)
      (emittedEq : emitted = [event])
      (given : answer → event = .answered settledId true)
      (afterEq : after = state.settleRequest settledId settledWaiter answer) :
      ∃ requestId direction granted, after.confirmations[waiter]? = some ⟨requestId, granted⟩ ∧
          List.Sublist
            [(other, .accessGranted peerId), (other, .raised requestId peerId kind direction)]
            (history ++ emitted.map (index, ·)) ∧
          (granted = some true →
            Confirmed (history ++ emitted.map (index, ·)) other peerId kind requestId) := by
    have located := getElem?_settleRequest state settledId settledWaiter answer waiter
    rw [found, Option.map_some] at located
    by_cases same : settledWaiter = waiter
    · subst same
      rw [unanswered] at found
      cases found
      rw [if_pos rfl] at located
      refine ⟨requestId, direction, some answer, by rw [afterEq, located]; rfl, longer, ?_⟩
      intro isGranted
      cases isGranted
      refine ⟨direction, index, history, [], ?_, raised, ?_⟩
      · rw [emittedEq, given rfl]
        rfl
      · exact (sound.confirmations _ _ unanswered).2 rfl
    · rw [if_neg same] at located
      apply kept
      rw [afterEq, located]
  cases turned with
  | begun same | ended same | entered _ _ same | opened _ _ same =>
    exact kept (by rw [same.confirmations, found])
  | asked =>
    refine kept ?_
    rw [askForMediaAccess, List.getElem?_append_left (List.getElem?_eq_some_iff.mp found).1, found]
  | @answered settledId entry answer pending =>
    obtain ⟨named, located⟩ := sound.pending _ _ pending
    rw [named] at settled ⊢
    refine settled located rfl (fun given => ?_) rfl
    rw [given]
  | expired unanswered =>
    refine settled unanswered rfl ?_ rfl
    intro given
    cases given

theorem Turned.awaits_self : Awaits (history ++ emitted.map (index, ·)) after index next := by
  intro peerId kind waiter asks
  cases turned with
  | begun _ _ fresh =>
    rw [asks_of_isFresh fresh] at asks
    cases asks
  | ended _ _ spent | entered _ _ _ _ spent | opened _ _ _ _ spent =>
    rw [asks_of_isSpent spent] at asks
    cases asks
  | @asked phase next askedPeer askedKind direction fresh asked =>
    rw [asked] at asks
    cases asks
    exact ⟨settings.randomUUID state.drawn, direction, none,
      List.getElem?_concat_length, List.sublist_append_right _ _, nofun⟩
  | answered | expired => cases asks

theorem Turned.inserts (awaits : ∀ phase, before = some phase → Awaits history state index phase)
    {front back : List MediaEvent} {peerId : String} {kind : MediaKind}
    (split : emitted = front ++ event :: back) (inserts : event.inserts = some (peerId, kind)) :
    ∃ requestId, Confirmed history index peerId kind requestId := by
  have confirmed {phase : MediaPhase} {waiter : Nat} (isBefore : before = some phase)
      (asks : phase.asks? = some (peerId, kind, waiter))
      (granted : state.confirmed waiter = some true) :
      ∃ requestId, Confirmed history index peerId kind requestId := by
    obtain ⟨requestId, direction, answer, found, _, given⟩ := awaits phase isBefore _ _ _ asks
    rw [confirmed, found] at granted
    exact ⟨requestId, given granted⟩
  have member : event ∈ emitted := by
    rw [split]
    exact List.mem_append_right _ List.mem_cons_self
  cases turned with
  | begun | ended => cases member
  | asked =>
    simp only [List.mem_cons, List.not_mem_nil, or_false] at member
    rcases member with rfl | rfl <;> cases inserts
  | answered | expired =>
    rw [List.mem_singleton.mp member] at inserts
    cases inserts
  | entered asks granted =>
    simp only [List.mem_cons, List.not_mem_nil, or_false] at member
    rcases member with rfl | rfl
    · cases inserts
      exact confirmed rfl asks granted
    · cases inserts
  | opened asks granted =>
    rw [List.mem_singleton.mp member] at inserts
    cases inserts
    exact confirmed rfl asks granted

theorem Turned.objects
    (inserted : ∀ (place : Nat) identity, state.identities[place]? = some identity →
      ∃ index, (index, .insertedCall place identity.1 identity.2) ∈ history)
    (place : Nat) (identity : String × MediaKind) (found : after.identities[place]? =
    some identity) : ∃ other, (other, .insertedCall place identity.1 identity.2) ∈
      history ++ emitted.map (index, ·) := by
  have old (found : state.identities[place]? = some identity) :
      ∃ other, (other, .insertedCall place identity.1 identity.2) ∈
        history ++ emitted.map (index, ·) := by
    obtain ⟨other, member⟩ := inserted place identity found
    exact ⟨other, List.mem_append_left _ member⟩
  cases turned with
  | begun _ objects | ended _ objects | opened _ _ _ objects => exact old (objects ▸ found)
  | asked | answered | expired => exact old found
  | entered _ _ _ objects =>
    rw [objects] at found
    rcases Nat.lt_trichotomy place state.identities.length with before | same | beyond
    · rw [List.getElem?_append_left before] at found
      exact old found
    · rw [same, List.getElem?_concat_length] at found
      cases found
      rw [identities, List.length_map] at same
      exact ⟨index, List.mem_append_right _ (by simp [same])⟩
    · have bound := (List.getElem?_eq_some_iff.mp found).1
      rw [List.length_append, List.length_singleton] at bound
      omega

end

/-- The invariant of the plugin's confirmations. -/
structure Consents (settings : MediaSettings) (history : List (Nat × MediaEvent))
    (pool : Pool MediaState MediaPhase) : Prop where
  requests : SoundRequests settings history pool.shared
  quiet : ∀ index : Nat, pool.calls[index]? = none → ownOutputs history index = []
  shape : ∀ (index : Nat) phase, pool.calls[index]? = some phase →
    phase.Shape (ownOutputs history index)
  awaits : ∀ (index : Nat) phase, pool.calls[index]? = some phase →
    Awaits history pool.shared index phase
  inserted : ∀ index event earlier later peerId kind,
    history = earlier ++ (index, event) :: later → event.inserts = some (peerId, kind) →
      ∃ requestId, Confirmed earlier index peerId kind requestId
  objects : ∀ (place : Nat) identity, pool.shared.identities[place]? = some identity →
    ∃ index, (index, .insertedCall place identity.1 identity.2) ∈ history

theorem consents_start (telemetryGate : TelemetryGate) :
    Consents settings [] (.initial (.new telemetryGate)) where
  requests :=
    { names := nofun
      distinct := List.nodup_nil
      confirmations := by
        intro waiter confirmation found
        cases found
      pending := by
        intro requestId entry found
        cases found
      raised := by
        rintro first second requestId ⟨_, _, _, member⟩
        cases member }
  quiet := fun _ _ => rfl
  shape := by
    intro index phase found
    cases found
  awaits := by
    intro index phase found
    cases found
  inserted := by
    intro index event earlier later peerId kind split
    cases earlier <;> cases split
  objects := by
    intro place identity found
    cases found

theorem Consents.step (injective : Function.Injective settings.randomUUID)
    (consents : Consents settings history pool) {label : Label MediaAction MediaReply}
    {outputs : List (Nat × MediaEvent)}
    (stepped : (mediaProgram settings).step pool label = some (following, outputs)) :
    Consents settings (history ++ outputs) following := by
  obtain ⟨index, phase, emitted, rfl, turn⟩ :=
    Program.exists_turn (mediaProgram_leaves settings) stepped
  have turned := media_turn turn
  have located := turn.located
  have others := turn.others
  -- The request of the turn is at its new place, every other one where it was.
  have placed {other : Nat} {otherPhase : MediaPhase}
      (found : following.calls[other]? = some otherPhase) :
      other = index ∧ otherPhase = phase ∨ other ≠ index ∧ pool.calls[other]? = some otherPhase :=
        by
    by_cases same : other = index
    · subst same
      rw [located] at found
      exact Or.inl ⟨rfl, (Option.some.inj found).symm⟩
    · rw [others other same] at found
      exact Or.inr ⟨same, found⟩
  have ownOthers {other : Nat} (apart : other ≠ index) :
      ownOutputs (history ++ emitted.map (index, ·)) other = ownOutputs history other := by
    rw [ownOutputs_append, ownOutputs_of_ne (Ne.symm apart),
      List.append_nil]
  exact
    { requests := turned.soundRequests injective consents.requests
      quiet := by
        intro other missing
        have apart : other ≠ index := by
          rintro rfl
          rw [located] at missing
          cases missing
        rw [others other apart] at missing
        rw [ownOthers apart]
        exact consents.quiet other missing
      shape := by
        intro other otherPhase found
        rcases placed found with ⟨rfl, rfl⟩ | ⟨apart, old⟩
        · rw [ownOutputs_append, ownOutputs_self]
          exact turned.shape (consents.quiet _) (consents.shape _)
        · rw [ownOthers apart]
          exact consents.shape other otherPhase old
      awaits := by
        intro other otherPhase found
        rcases placed found with ⟨rfl, rfl⟩ | ⟨_, old⟩
        · exact turned.awaits_self
        · exact turned.awaits consents.requests (consents.awaits other otherPhase old)
      inserted := by
        intro other event earlier later peerId kind split inserts
        rcases split_append split with ⟨rest, old⟩ | ⟨front, new, rfl⟩
        · exact consents.inserted other event earlier rest peerId kind old inserts
        · obtain ⟨ownFront, ownRest, emittedEq, rfl, ownSplit⟩ := List.map_eq_append_iff.mp new
          obtain ⟨own, ownBack, rfl, ownEq, rfl⟩ := List.map_eq_cons_iff.mp ownSplit
          cases ownEq
          obtain ⟨requestId, confirmed⟩ :=
            turned.inserts (consents.awaits _) emittedEq inserts
          exact ⟨requestId, confirmed.append _⟩
      objects := turned.objects consents.objects }

section

variable (consents : Consents settings history pool)
include consents

theorem Consents.onceEach (index : Nat) : OnceEach (ownOutputs history index) := by
  cases found : pool.calls[index]? with
  | none =>
    rw [consents.quiet index found]
    exact onceEach_nil
  | some phase => exact (consents.shape index phase found).once

theorem Consents.once {earlier middle later : List (Nat × MediaEvent)} {first second : Nat}
    {firstEvent secondEvent : MediaEvent}
    (split : history = earlier ++ (first, firstEvent) :: (middle ++ (second, secondEvent) :: later))
    (firstInserts : firstEvent.inserts.isSome) (secondInserts : secondEvent.inserts.isSome)
    (firstRaised : Raised history first requestId) : ¬Raised history second requestId := by
  intro secondRaised
  obtain rfl := consents.requests.raised first second requestId firstRaised secondRaised
  have both : List.Sublist [(first, firstEvent), (first, secondEvent)] history := by
    rw [split]
    have tail : List.Sublist [(first, secondEvent)] (middle ++ (first, secondEvent) :: later) :=
      List.singleton_sublist.mpr (List.mem_append_right _ List.mem_cons_self)
    exact (tail.cons_cons _).trans (List.sublist_append_right _ _)
  have own : List.Sublist [firstEvent, secondEvent] (ownOutputs history first) := by
    have filtered := both.filterMap fun output : Nat × MediaEvent =>
      if output.1 = first then some output.2 else none
    simpa [ownOutputs] using filtered
  have counted := (own.filter fun event => event.inserts.isSome).length_le
  simp only [List.filter_cons, firstInserts, secondInserts, if_true, List.filter_nil,
    List.length_cons, List.length_nil] at counted
  have atMost := (consents.onceEach first).inserts
  omega

theorem Consents.declined (declined : Declined history requestId)
    (raised : Raised history index requestId) (member : (index, event) ∈ history) :
    event.inserts = none := by
  cases inserts : event.inserts with
  | none => rfl
  | some asked =>
    obtain ⟨earlier, later, split⟩ := List.append_of_mem member
    obtain ⟨other, confirmed⟩ := consents.inserted _ _ _ _ asked.1 asked.2 split inserts
    have whole : Confirmed history index asked.1 asked.2 other := by
      rw [split]
      exact confirmed.append _
    obtain ⟨firstPeer, firstKind, firstDirection, first⟩ := raised
    obtain ⟨secondPeer, secondKind, secondDirection, second⟩ := whole.raised
    have same := (consents.onceEach index).raises _ _ _ _ _ _ _ _
      (mem_ownOutputs.mpr first) (mem_ownOutputs.mpr second)
    subst same
    exact (not_declined_of_confirmed whole declined).elim

theorem Consents.established {place : Nat}
    {call : CallState} (found : pool.shared.objects[place]? = some call) :
    ∃ index requestId, (index, .insertedCall place call.peerId call.kind) ∈ history ∧
      Confirmed history index call.peerId call.kind requestId := by
  have located : pool.shared.identities[place]? = some call.identity := by
    rw [identities, List.getElem?_map, found]
    rfl
  obtain ⟨index, member⟩ := consents.objects place call.identity located
  obtain ⟨earlier, later, split⟩ := List.append_of_mem member
  obtain ⟨requestId, confirmed⟩ := consents.inserted _ _ _ _ _ _ split rfl
  refine ⟨index, requestId, member, ?_⟩
  rw [split]
  exact confirmed.append _

end

/-- No call and no session without a confirmation of its own, whatever the
order of requests, answers and timers, as long as identifiers are not drawn
twice. -/
theorem media_consent (telemetryGate : TelemetryGate)
    (injective : Function.Injective settings.randomUUID)
    (runs : Runs (mediaProgram settings).step unrestricted
      (.initial (.new telemetryGate)) history pool) : SoundConsent history pool.shared := by
  have consents : Consents settings history pool := by
    refine runs.invariant (Consents settings) (consents_start telemetryGate) ?_
    intro history before label after outputs holds _ stepped
    exact holds.step injective stepped
  exact
    { inserted := consents.inserted
      once := fun _ _ _ _ _ _ _ _ split first second raised =>
        consents.once split first second raised
      declined := fun _ _ _ declined raised member => consents.declined declined raised member
      established := fun _ _ found _ => consents.established found }

end

def newTelemetryGate : TelemetryGate where
  defaultConfig := defaultStreamRateConfig
  buckets := .empty
  lastSweep := 0

def plainMediaSettings : MediaSettings where
  randomUUID := fun number => String.ofList (List.replicate (number + 1) 'x')
  hasNetwork := true

theorem plainMediaSettings_injective : Function.Injective plainMediaSettings.randomUUID := by
  intro first second same
  have texts := String.ofList_injective same
  simpa using congrArg List.length texts

def mediaPeer : JsValue :=
  .string (String.ofList (List.replicate 64 'a'))

/-- A session that is asked for, confirmed and opened. -/
theorem media_consent_session :
    ∃ history pool, Runs (mediaProgram plainMediaSettings).step unrestricted
        (.initial (.new newTelemetryGate)) history pool ∧
      history.any (fun event => event.2.inserts.isSome) ∧
      SoundConsent history pool.shared := by
  obtain ⟨history, pool, runs, inserted⟩ := exists_runs_of_any
    (mediaProgram plainMediaSettings).step (fun _ => True) (.initial (.new newTelemetryGate))
    [.launch (.requestSession mediaPeer (.string "camera") {}),
      .resume 0 (.access (.granted .verifiedContact)),
      .launch (.resolveMediaAccess "x" true), .resume 0 (.settled 0)]
    (fun result => result.2.any fun event => event.2.inserts.isSome) (fun _ _ => trivial)
    (by decide +kernel)
  exact ⟨history, pool, runs, inserted,
    media_consent newTelemetryGate plainMediaSettings_injective runs⟩

end P2PHub.Media
