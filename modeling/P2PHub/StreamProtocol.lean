import P2PHub.ServerConnectionAuth
import P2PHub.StreamServer

/-!
# The protocol of a libp2p stream

The session hands the frames of its stream out in order, and the handler of an
inbound stream calls the task handler at most once, after the first frame was a
hello and the second one an auth that verified.
-/

namespace P2PHub.NetworkLibp2p

open NetworkLight Transition StreamSession

section

def StreamPhase.reading : StreamPhase → Bool
  | readingHello => true
  | readingAuth _ _ => true
  | readingTask _ _ _ => true
  | _ => false

def StreamEvent.isCall : StreamEvent → Bool
  | called _ _ => true
  | _ => false

/-- The log and the frames of a stream whose hello is accepted and
acknowledged. -/
structure Greeted (node : StreamNode) (helloValue : JsValue) (hello : HelloBody)
    (serverNonce : String) (log : List StreamEvent) : Prop where
  parsed : parseEnvelope helloValue = some (.hello hello)
  supported : (supportedVersion hello.versions).isSome
  log : ∃ signature, log =
    [.sent (helloAck node serverNonce signature), .accepted hello serverNonce]

/-- The log and the frames of a stream whose second frame was an auth that
verified against both nonces and the remote peer. -/
structure Authenticated (node : StreamNode) (taken : List JsValue) (hello : HelloBody)
    (serverNonce : String) (binding : IdentityBinding) (log : List StreamEvent) : Prop where
  frames : ∃ helloValue authValue greeting, taken = [helloValue, authValue] ∧
    Greeted node helloValue hello serverNonce greeting ∧ log = .verified binding :: greeting ∧
    parseEnvelope authValue = some (.auth binding)
  verifies : bindingHolds node hello serverNonce binding

/-- The evidence behind a call of the task handler: the frames up to the task
and what was logged before. -/
def Evidence (node : StreamNode) (taken : List JsValue) (peerId : String) (task : TaskBody)
    (older : List StreamEvent) : Prop :=
  ∃ handshake taskValue hello serverNonce binding,
    taken = handshake ++ [taskValue] ∧ parseEnvelope taskValue = some (.task task) ∧
      Authenticated node handshake hello serverNonce binding older ∧ peerId = binding.peerId

/-- How far a stream has come, with the frames that were taken and the log. -/
inductive Progress (node : StreamNode) : StreamPhase → List JsValue → List StreamEvent → Prop
  | readingHello : Progress node .readingHello [] []
  | signing {value : JsValue} {hello : HelloBody} {serverNonce : String}
      (parsed : parseEnvelope value = some (.hello hello))
      (supported : (supportedVersion hello.versions).isSome) :
      Progress node (.signing hello serverNonce) [value] [.accepted hello serverNonce]
  | readingAuth {value : JsValue} {hello : HelloBody} {serverNonce : String}
      {log : List StreamEvent} (greeted : Greeted node value hello serverNonce log) :
      Progress node (.readingAuth hello serverNonce) [value] log
  | readingTask {taken : List JsValue} {hello : HelloBody} {serverNonce : String}
      {binding : IdentityBinding} {log : List StreamEvent}
      (authenticated : Authenticated node taken hello serverNonce binding log) :
      Progress node (.readingTask hello serverNonce binding) taken log
  | running {taken : List JsValue} {peerId : String} {task : TaskBody}
      {older : List StreamEvent} (evidence : Evidence node taken peerId task older) :
      Progress node (.running task) taken (.called peerId task :: older)
  | refused {taken : List JsValue} {log : List StreamEvent}
      (quiet : ∀ event ∈ log, event.isCall = false) : Progress node .ended taken log
  | finished {taken : List JsValue} {peerId : String} {task : TaskBody}
      {older : List StreamEvent} (evidence : Evidence node taken peerId task older)
      {later : List StreamEvent} (quiet : ∀ event ∈ later, event.isCall = false) :
      Progress node .ended taken (later ++ .called peerId task :: older)

variable {node : StreamNode} {helloValue : JsValue} {hello : HelloBody} {serverNonce : String}
  {binding : IdentityBinding} {taken : List JsValue} {log : List StreamEvent} {peerId : String}
  {task : TaskBody}

theorem Greeted.quiet (greeted : Greeted node helloValue hello serverNonce log) :
    ∀ event ∈ log, event.isCall = false := by
  obtain ⟨signature, rfl⟩ := greeted.log
  intro event member
  rcases List.mem_pair.mp member with rfl | rfl <;> rfl

theorem Authenticated.quiet
    (authenticated : Authenticated node taken hello serverNonce binding log) :
    ∀ event ∈ log, event.isCall = false := by
  obtain ⟨_, _, greeting, _, greeted, rfl, _⟩ := authenticated.frames
  exact List.forall_mem_cons.mpr ⟨rfl, greeted.quiet⟩

theorem Evidence.quiet {older : List StreamEvent}
    (evidence : Evidence node taken peerId task older) :
    ∀ event ∈ older, event.isCall = false := by
  obtain ⟨_, _, _, _, _, _, _, authenticated, _⟩ := evidence
  exact authenticated.quiet

theorem Progress.of_readingHello (progress : Progress node .readingHello taken log) :
    taken = [] ∧ log = [] := by
  cases progress
  exact ⟨rfl, rfl⟩

theorem Progress.of_signing (progress : Progress node (.signing hello serverNonce) taken log) :
    ∃ value, taken = [value] ∧ log = [.accepted hello serverNonce] ∧
      parseEnvelope value = some (.hello hello) ∧ (supportedVersion hello.versions).isSome := by
  cases progress with
  | signing parsed supported => exact ⟨_, rfl, rfl, parsed, supported⟩

theorem Progress.of_readingAuth
    (progress : Progress node (.readingAuth hello serverNonce) taken log) :
    ∃ value, taken = [value] ∧ Greeted node value hello serverNonce log := by
  cases progress with
  | readingAuth greeted => exact ⟨_, rfl, greeted⟩

theorem Progress.of_readingTask
    (progress : Progress node (.readingTask hello serverNonce binding) taken log) :
    Authenticated node taken hello serverNonce binding log := by
  cases progress with
  | readingTask authenticated => exact authenticated

theorem Progress.of_running (progress : Progress node (.running task) taken log) :
    ∃ peerId older, log = .called peerId task :: older ∧
      Evidence node taken peerId task older := by
  cases progress with
  | running evidence => exact ⟨_, _, rfl, evidence⟩

theorem only_call {later older laterOther olderOther : List StreamEvent}
    {event other : StreamEvent} (quietLater : ∀ event ∈ later, event.isCall = false)
    (quietOlder : ∀ event ∈ older, event.isCall = false) (call : other.isCall = true)
    (same : later ++ event :: older = laterOther ++ other :: olderOther) :
    later = laterOther ∧ event = other ∧ older = olderOther := by
  rcases List.append_eq_append_iff.mp same with
    ⟨between, rfl, rest⟩ | ⟨between, rfl, rest⟩
  · cases between with
    | nil =>
      cases rest
      exact ⟨(List.append_nil _).symm, rfl, rfl⟩
    | cons first between =>
      cases rest
      have quiet := quietOlder other (by simp)
      rw [call] at quiet
      cases quiet
  · cases between with
    | nil =>
      cases rest
      exact ⟨List.append_nil _, rfl, rfl⟩
    | cons first between =>
      cases rest
      have quiet := quietLater other (by simp)
      rw [call] at quiet
      cases quiet

theorem Progress.call {phase : StreamPhase} (progress : Progress node phase taken log)
    {later older : List StreamEvent} (logged : log = later ++ .called peerId task :: older) :
    Evidence node taken peerId task older ∧
      (∀ event ∈ later, event.isCall = false) ∧ ∀ event ∈ older, event.isCall = false := by
  have member : StreamEvent.called peerId task ∈ log := by
    rw [logged]
    simp
  have refute (quiet : ∀ event ∈ log, event.isCall = false) :
      Evidence node taken peerId task older ∧
        (∀ event ∈ later, event.isCall = false) ∧ ∀ event ∈ older, event.isCall = false :=
    nomatch quiet _ member
  cases progress with
  | readingHello => exact refute (List.forall_mem_nil _)
  | signing =>
    apply refute
    intro event found
    rw [List.mem_singleton.mp found]
    rfl
  | readingAuth greeted => exact refute greeted.quiet
  | readingTask authenticated => exact refute authenticated.quiet
  | refused quiet => exact refute quiet
  | running evidence =>
    have nothing : ∀ event ∈ ([] : List StreamEvent), event.isCall = false :=
      List.forall_mem_nil _
    obtain ⟨rfl, same, rfl⟩ := only_call nothing evidence.quiet rfl logged
    cases same
    exact ⟨evidence, nothing, evidence.quiet⟩
  | finished evidence quiet =>
    obtain ⟨rfl, same, rfl⟩ := only_call quiet evidence.quiet rfl logged
    cases same
    exact ⟨evidence, quiet, evidence.quiet⟩

end

section

variable {node : StreamNode} {s after : StreamServer}

/-- The handler is not waiting for the session: every frame that the session
handed out was taken. -/
structure Paused (s : StreamServer) : Prop where
  session : SessionInv s.answers s.session
  answer : s.answer = none
  waiters : s.session.waiters = []
  taken : delivered s.answers = s.taken

/-- The invariant: the session serves the one call that the handler awaits. -/
structure StreamInv (node : StreamNode) (s : StreamServer) : Prop where
  session : SessionInv s.answers s.session
  progress : Progress node s.phase s.taken s.log
  idle : s.phase.reading = false → s.answer = none
  waiting : s.phase.reading = true → s.answer = none → s.session.waiters = [s.awaited]
  served : s.phase.reading = false ∨ s.answer.isSome → s.session.waiters = []
  taken : delivered s.answers = s.taken ++ (s.answer.bind NextResult.value?).toList

theorem Paused.record (paused : Paused s) (event : StreamEvent) : Paused (s.record event) :=
  ⟨paused.session, paused.answer, paused.waiters, paused.taken⟩

theorem Paused.enter (paused : Paused s) {phase : StreamPhase} (outside : phase.reading = false)
    (progress : Progress node phase s.taken s.log) : StreamInv node (s.enter phase) where
  session := paused.session
  progress := progress
  idle := fun _ => paused.answer
  waiting := fun reading => nomatch outside.symm.trans reading
  served := fun _ => paused.waiters
  taken := by
    have none : (s.enter phase).answer = none := paused.answer
    rw [none, Option.bind_none, Option.toList_none, List.append_nil]
    exact paused.taken

theorem Paused.close (paused : Paused s) (progress : Progress node .ended s.taken s.log) :
    StreamInv node s.close where
  session := paused.session
  progress := progress
  idle := fun _ => rfl
  waiting := nofun
  served := fun _ => paused.waiters
  taken := by
    have none : s.close.answer = none := rfl
    rw [none, Option.bind_none, Option.toList_none, List.append_nil]
    exact paused.taken

theorem answerTo_nil (call : Nat) : answerTo call [] = none :=
  rfl

theorem answerTo_self (call : Nat) (result : NextResult) :
    answerTo call [(call, result)] = some result := by
  simp [answerTo]

theorem delivered_singleton (call : Nat) (result : NextResult) :
    delivered [(call, result)] = result.value?.toList := by
  unfold delivered
  cases value : result.value? with
  | none | some => simp [value]

theorem Paused.read (paused : Paused s) {phase : StreamPhase} (reading : phase.reading)
    (progress : Progress node phase s.taken s.log) : StreamInv node (s.read phase) := by
  have session := paused.session.next
  have outside : phase.reading = false → False := fun other => nomatch reading.symm.trans other
  unfold StreamServer.read
  unfold next at session ⊢
  cases output : s.session.output with
  | none =>
    rw [output] at session
    refine ⟨session, progress, fun other => (outside other).elim, fun _ _ => ?_, ?_, ?_⟩
    · dsimp only
      rw [paused.waiters, List.nil_append]
    · rintro (other | answered)
      · exact (outside other).elim
      · cases answered
    · dsimp only
      rw [List.append_nil, answerTo_nil, Option.bind_none, Option.toList_none, List.append_nil]
      exact paused.taken
  | some output' =>
    obtain ⟨result, frames⟩ := output'
    rw [output] at session
    refine ⟨session, progress, fun other => (outside other).elim, ?_, fun _ => paused.waiters, ?_⟩
    · dsimp only
      rw [answerTo_self]
      exact fun _ unanswered => nomatch unanswered
    · dsimp only
      rw [answerTo_self, delivered_append, delivered_singleton, paused.taken, Option.bind_some]

theorem Paused.initial : Paused {
    session := .initial
    phase := .ended
    awaited := 0
    answer := none
    taken := []
    answers := []
    log := [] } where
  session := sessionInv_initial
  answer := rfl
  waiters := rfl
  taken := rfl

theorem streamInv_initial : StreamInv node .initial :=
  Paused.initial.read rfl .readingHello

theorem StreamInv.take (inv : StreamInv node s) {value : JsValue}
    (answered : s.answer = some (.value value)) : Paused (s.take value) where
  session := inv.session
  answer := rfl
  waiters := inv.served (.inr (by rw [answered]; rfl))
  taken := by
    have taken := inv.taken
    rw [answered] at taken
    exact taken

theorem StreamInv.miss (inv : StreamInv node s) {result : NextResult}
    (answered : s.answer = some result) (none : result.value? = none) :
    Paused { s with answer := .none } where
  session := inv.session
  answer := rfl
  waiters := inv.served (.inr (by rw [answered]; rfl))
  taken := by
    have taken := inv.taken
    rw [answered, Option.bind_some, none, Option.toList_none, List.append_nil] at taken
    exact taken

theorem acceptHello_inv {value : JsValue} (paused : Paused s) (taken : s.taken = [value])
    (log : s.log = []) (serverNonce : String) : StreamInv node (acceptHello value serverNonce s) :=
    by
  have refused : StreamInv node s.close := by
    apply paused.close
    rw [log]
    exact .refused (List.forall_mem_nil _)
  unfold acceptHello
  split
  · next hello parsed =>
      split
      · next supported =>
          apply (paused.record _).enter rfl
          show Progress node _ s.taken (.accepted hello serverNonce :: s.log)
          rw [taken, log]
          exact .signing parsed supported
      · exact refused
  · exact refused

theorem acceptAuth_inv {helloValue value : JsValue} {hello : HelloBody} {serverNonce : String}
    (paused : Paused s) (taken : s.taken = [helloValue, value])
    (greeted : Greeted node helloValue hello serverNonce s.log) :
    StreamInv node (acceptAuth node value hello serverNonce s) := by
  have refused : StreamInv node s.close := paused.close (.refused greeted.quiet)
  unfold acceptAuth
  split
  · next binding parsed =>
      split
      · next verifies =>
          apply (paused.record _).read rfl
          have authenticated : Authenticated node s.taken hello serverNonce binding
              (.verified binding :: s.log) :=
            ⟨⟨helloValue, value, s.log, taken, greeted, rfl, parsed⟩, verifies⟩
          exact .readingTask authenticated
      · exact refused
  · exact refused

theorem acceptTask_inv {handshake : List JsValue} {value : JsValue} {hello : HelloBody}
    {serverNonce : String} {binding : IdentityBinding} (paused : Paused s)
    (taken : s.taken = handshake ++ [value])
    (authenticated : Authenticated node handshake hello serverNonce binding s.log)
    (handler : Bool) : StreamInv node (acceptTask value binding handler s) := by
  unfold acceptTask
  split
  · next task parsed =>
      split
      · apply (paused.record _).enter rfl
        have evidence : Evidence node s.taken binding.peerId task s.log :=
          ⟨handshake, value, hello, serverNonce, binding, taken, parsed, authenticated, rfl⟩
        exact .running evidence
      · apply (paused.record _).close
        exact .refused (List.forall_mem_cons.mpr ⟨rfl, authenticated.quiet⟩)
  · exact paused.close (.refused authenticated.quiet)

section

variable (inv : StreamInv node s)
include inv

theorem StreamInv.resume {result : NextResult}
    (answered : s.answer = some result) (serverNonce : String) (handler : Bool) :
    StreamInv node (s.resume node result serverNonce handler) := by
  have reading : s.phase.reading := by
    by_contra outside
    cases answered.symm.trans (inv.idle (Bool.eq_false_of_not_eq_true outside))
  have progress := inv.progress
  unfold StreamServer.resume
  split
  · next value =>
      have paused := inv.take answered
      split
      · next phase =>
          rw [phase] at progress
          obtain ⟨taken, log⟩ := progress.of_readingHello
          have takenNow : (s.take value).taken = [value] := congrArg (· ++ [value]) taken
          exact acceptHello_inv paused takenNow log serverNonce
      · next hello nonce phase =>
          rw [phase] at progress
          obtain ⟨helloValue, taken, greeted⟩ := progress.of_readingAuth
          have takenNow : (s.take value).taken = [helloValue, value] :=
            congrArg (· ++ [value]) taken
          exact acceptAuth_inv paused takenNow greeted
      · next hello nonce binding phase =>
          rw [phase] at progress
          exact acceptTask_inv paused rfl progress.of_readingTask handler
      · next notHello notAuth notTask =>
          cases phase : s.phase with
          | readingHello => exact absurd phase notHello
          | readingAuth hello nonce => exact absurd phase (notAuth hello nonce)
          | readingTask hello nonce binding => exact absurd phase (notTask hello nonce binding)
          | _ =>
            rw [phase] at reading
            cases reading
  · next missing =>
      have none : result.value? = none := by
        cases result with
        | value frame => exact absurd rfl (missing frame)
        | _ => rfl
      have quiet : ∀ event ∈ s.log, event.isCall = false := by
        cases phase : s.phase with
        | readingHello =>
          rw [phase] at progress
          rw [progress.of_readingHello.2]
          exact List.forall_mem_nil _
        | readingAuth hello nonce =>
          rw [phase] at progress
          obtain ⟨_, _, greeted⟩ := progress.of_readingAuth
          exact greeted.quiet
        | readingTask hello nonce binding =>
          rw [phase] at progress
          exact progress.of_readingTask.quiet
        | _ =>
          rw [phase] at reading
          cases reading
      exact (inv.miss answered none).close (.refused quiet)

theorem StreamInv.paused (outside : s.phase.reading = false) : Paused s where
  session := inv.session
  answer := inv.idle outside
  waiters := inv.served (.inl outside)
  taken := by
    have taken := inv.taken
    rw [inv.idle outside, Option.bind_none, Option.toList_none, List.append_nil] at taken
    exact taken

theorem StreamInv.session_step {label : SessionLabel}
    (notNext : label ≠ .next) {session : StreamSession} {answers : Answers}
    (stepped : sessionStep s.session label = some (session, answers)) :
    StreamInv node { s with
      session
      answer := s.answer.or (answerTo s.awaited answers)
      answers := s.answers ++ answers } := by
  have sessionInv := inv.session.step stepped
  have waiters := inv.session.step_waiters notNext stepped
  by_cases waiting : s.phase.reading ∧ s.answer = none
  · obtain ⟨reading, unanswered⟩ := waiting
    rw [inv.waiting reading unanswered, List.perm_singleton] at waiters
    have taken := inv.taken
    rw [unanswered, Option.bind_none, Option.toList_none, List.append_nil] at taken
    cases answers with
    | nil =>
      rw [List.append_nil, answerTo_nil, Option.or_none]
      rw [List.append_nil] at sessionInv
      refine ⟨sessionInv, inv.progress, inv.idle, fun _ _ => waiters, ?_, inv.taken⟩
      rintro (outside | answered)
      · cases reading.symm.trans outside
      · rw [unanswered] at answered
        cases answered
    | cons answer later =>
      obtain ⟨call, result⟩ := answer
      obtain ⟨rfl, rest⟩ := List.cons.inj waiters
      obtain ⟨laterNil, none⟩ := List.append_eq_nil_iff.mp rest
      obtain rfl := List.map_eq_nil_iff.mp laterNil
      rw [unanswered, Option.none_or, answerTo_self]
      refine ⟨sessionInv, inv.progress, ?_, ?_, fun _ => none, ?_⟩
      · exact fun outside => nomatch reading.symm.trans outside
      · exact fun _ unanswered => nomatch unanswered
      · dsimp only
        rw [delivered_append, delivered_singleton, taken, Option.bind_some]
  · have served : s.session.waiters = [] := by
      apply inv.served
      rw [not_and_or] at waiting
      rcases waiting with outside | answered
      · exact .inl (Bool.eq_false_of_not_eq_true outside)
      · exact .inr (Option.isSome_iff_ne_none.mpr answered)
    rw [served, List.perm_nil, List.append_eq_nil_iff, List.map_eq_nil_iff] at waiters
    obtain ⟨rfl, none⟩ := waiters
    rw [List.append_nil, answerTo_nil, Option.or_none]
    rw [List.append_nil] at sessionInv
    exact ⟨sessionInv, inv.progress, inv.idle,
      fun reading unanswered => absurd ⟨reading, unanswered⟩ waiting, fun _ => none, inv.taken⟩

theorem StreamInv.step {label : StreamLabel} {outputs : List Unit}
    (stepped : streamStep node s label = some (after, outputs)) : StreamInv node after := by
  have progress := inv.progress
  cases label with
  | session label =>
    by_cases isNext : label = .next
    · subst label
      cases stepped
    · have mapped : (sessionStep s.session label).map (fun turn =>
          (({ s with
            session := turn.1
            answer := s.answer.or (answerTo s.awaited turn.2)
            answers := s.answers ++ turn.2 } : StreamServer), ([] : List Unit))) =
            some (after, outputs) := by
        cases label with
        | next => exact absurd rfl isNext
        | _ => exact stepped
      obtain ⟨⟨session, answers⟩, turned, rfl, _⟩ := by
        simpa only [Option.map_eq_some_iff, Prod.mk.injEq] using mapped
      exact inv.session_step isNext turned
  | resume serverNonce handler =>
    simp only [streamStep, Option.map_eq_some_iff, Prod.mk.injEq] at stepped
    obtain ⟨result, answered, rfl, _⟩ := stepped
    exact inv.resume answered serverNonce handler
  | signed signature sent =>
    simp only [streamStep] at stepped
    split at stepped
    · next hello serverNonce phase =>
        have outside : s.phase.reading = false := by rw [phase]; rfl
        have paused := inv.paused outside
        rw [phase] at progress
        obtain ⟨value, taken, log, parsed, supported⟩ := progress.of_signing
        have greeted : Greeted node value hello serverNonce
            (s.record (.sent (helloAck node serverNonce signature))).log := by
          refine ⟨parsed, supported, signature, ?_⟩
          show _ :: s.log = _
          rw [log]
        cases stepped
        split
        · apply (paused.record _).read rfl
          show Progress node _ s.taken _
          rw [taken]
          exact .readingAuth greeted
        · exact (paused.record _).close (.refused greeted.quiet)
    · cases stepped
  | signingFailed =>
    simp only [streamStep] at stepped
    split at stepped
    · next hello serverNonce phase =>
        have outside : s.phase.reading = false := by rw [phase]; rfl
        have paused := inv.paused outside
        rw [phase] at progress
        obtain ⟨_, _, log, _, _⟩ := progress.of_signing
        cases stepped
        apply paused.close
        rw [log]
        exact .refused (List.forall_mem_singleton.mpr rfl)
    · cases stepped
  | handled result =>
    simp only [streamStep] at stepped
    split at stepped
    · next task phase =>
        have outside : s.phase.reading = false := by rw [phase]; rfl
        have paused := inv.paused outside
        rw [phase] at progress
        obtain ⟨peerId, older, log, evidence⟩ := progress.of_running
        cases stepped
        cases result with
        | none =>
          apply paused.close
          rw [log]
          have nothing : ∀ event ∈ ([] : List StreamEvent), event.isCall = false :=
            List.forall_mem_nil _
          exact .finished evidence nothing
        | some result =>
          apply (paused.record _).close
          show Progress node _ s.taken (.sent (.result result) :: s.log)
          rw [log]
          have quiet : ∀ event ∈ [StreamEvent.sent (.result result)], event.isCall = false :=
            List.forall_mem_singleton.mpr rfl
          exact .finished evidence quiet
    · cases stepped

end

theorem streamInv_runs {history : List Unit} (runs : Runs (streamStep node)
    unrestricted .initial history s) : StreamInv node s :=
  runs.invariant (fun _ s => StreamInv node s) streamInv_initial
    fun _ _ _ _ _ inv _ stepped => inv.step stepped

end

/-- The results of `next` are the decoded frames in their order: those that are
not handed out wait in the queue, no call is served twice or out of turn, and a
call waits, or is told that no frame will come, only when none is left. -/
structure DeliversInOrder (answers : Answers) (s : StreamSession) : Prop where
  frames : delivered answers ++ s.frames = (receiveFrames s.chunks).state
  turns : (servedCalls answers).Pairwise (· < ·)
  once : (answers.map Prod.fst).Nodup
  waiting : s.waiters ≠ [] → s.frames = []
  final : ∀ answer ∈ answers, answer.2.isFinal → s.frames = []

/-- The only call of the task handler on a stream: the first frames are a valid
hello, an auth whose binding holds for both nonces and the remote peer, and the
task, and the call is made for the peer of that binding. -/
structure JustifiedCall (node : StreamNode) (frames : List JsValue) (peerId : String)
    (task : TaskBody) (later older : List StreamEvent) : Prop where
  only : ∀ event ∈ later ++ older, event.isCall = false
  evidence : ∃ helloValue authValue taskValue rest hello serverNonce binding signature,
    frames = helloValue :: authValue :: taskValue :: rest ∧
      parseEnvelope helloValue = some (.hello hello) ∧
      (supportedVersion hello.versions).isSome ∧
      parseEnvelope authValue = some (.auth binding) ∧
      parseEnvelope taskValue = some (.task task) ∧
      older = [.verified binding, .sent (helloAck node serverNonce signature),
        .accepted hello serverNonce] ∧
      bindingHolds node hello serverNonce binding ∧ peerId = binding.peerId

theorem SessionInv.deliversInOrder {answers : Answers} {s : StreamSession}
    (inv : SessionInv answers s) : DeliversInOrder answers s where
  frames := inv.frames
  turns := (List.pairwise_append.mp inv.served).1
  once := (List.nodup_append.mp inv.answered).1
  waiting := by
    intro waiting
    have idle := inv.idle waiting
    unfold output at idle
    split at idle
    · cases idle
    · assumption
  final := fun answer member isFinal => (inv.final answer member isFinal).1

theorem StreamInv.justifiedCall {node : StreamNode} {s : StreamServer} (inv : StreamInv node s)
    {later older : List StreamEvent} {peerId : String} {task : TaskBody}
    (logged : s.log = later ++ .called peerId task :: older) :
    JustifiedCall node (receiveFrames s.session.chunks).state peerId task later older := by
  obtain ⟨evidence, quietLater, quietOlder⟩ := inv.progress.call logged
  obtain ⟨handshake, taskValue, hello, serverNonce, binding, taken, parsedTask, authenticated,
    peer⟩ := evidence
  obtain ⟨helloValue, authValue, greeting, rfl, greeted, rfl, parsedAuth⟩ :=
    authenticated.frames
  obtain ⟨signature, rfl⟩ := greeted.log
  have frames : (receiveFrames s.session.chunks).state = helloValue :: authValue :: taskValue ::
      ((s.answer.bind NextResult.value?).toList ++ s.session.frames) := by
    rw [← inv.session.frames, inv.taken, taken]
    rfl
  exact ⟨List.forall_mem_append.mpr ⟨quietLater, quietOlder⟩, helloValue, authValue, taskValue,
    _, hello, serverNonce, binding, signature, frames, greeted.parsed, greeted.supported,
    parsedAuth, parsedTask, rfl, authenticated.verifies, peer⟩

/-- The protocol of a stream. -/
theorem stream_protocol : (∀ answers session, Runs sessionStep unrestricted .initial answers
      session → DeliversInOrder answers session) ∧
    ∀ node history s, Runs (streamStep node) unrestricted .initial
      history s → DeliversInOrder s.answers s.session ∧
        ∀ later older peerId task, s.log = later ++ .called peerId task :: older →
          JustifiedCall node (receiveFrames s.session.chunks).state peerId task later older := by
  constructor
  · intro answers session runs
    exact (sessionInv_runs runs).deliversInOrder
  · intro node history s runs
    have inv := streamInv_runs runs
    exact ⟨inv.session.deliversInOrder, fun _ _ _ _ logged => inv.justifiedCall logged⟩

/-- A node whose peer signs with the key that it presents. -/
def trustingNode : StreamNode where
  skills := ["calc:recalc"]
  maxPayloadBytes := .ofInt 1048576
  peerId := String.ofList (List.replicate 64 'e')
  certFingerprint := "EE:FF"
  verify := fun _ _ _ => true
  sha256 := fun _ => String.ofList (List.replicate 64 'B')
  remotePeer := []

def callsFor (peerId : String) : StreamEvent → Bool
  | .called caller _ => caller = peerId
  | _ => false

theorem callsFor_iff {peerId : String} {event : StreamEvent} :
    callsFor peerId event ↔ ∃ task, event = .called peerId task := by
  cases event <;> simp [callsFor]

/-- The hello, the auth and the task of a client arrive in one chunk. -/
def oneChunkStream : List StreamLabel :=
  [.session (.chunk (clientHello ++ clientAuth ++ clientTask)), .resume "5e" true,
    .signed "5f" true, .resume "" true, .resume "" true]

theorem stream_protocol_one_chunk : DeliversInOrder [(0, .timeout)] { initial with calls := 1 } ∧
      ∃ frames task later older,
        JustifiedCall trustingNode frames clientPeerId task later older := by
  constructor
  · have called : sessionStep .initial .next =
        some ({ initial with waiters := [0], calls := 1 }, []) := rfl
    have timedOut : sessionStep { initial with waiters := [0], calls := 1 }
        (.timeout 0) = some ({ initial with calls := 1 }, [(0, .timeout)]) := rfl
    exact stream_protocol.1 _ _ (.tail (.tail .refl trivial called) trivial timedOut)
  · have served : ((run (streamStep trustingNode) .initial oneChunkStream).any
        fun ending => ending.1.log.any (callsFor clientPeerId)) := by
      decide +kernel
    obtain ⟨history, s, runs, ends⟩ := exists_runs_of_any _ (fun _ => True) _ _ _
      (fun _ _ => trivial) served
    obtain ⟨event, member, calls⟩ := List.any_eq_true.mp ends
    obtain ⟨task, rfl⟩ := callsFor_iff.mp calls
    obtain ⟨later, older, logged⟩ := List.append_of_mem member
    exact ⟨_, task, later, older,
      (stream_protocol.2 _ _ _ runs).2 later older clientPeerId task logged⟩

end P2PHub.NetworkLibp2p
