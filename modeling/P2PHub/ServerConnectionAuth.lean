import P2PHub.ServerConnection

/-!
# Authentication of a server connection

No handler is called and no peer is registered before the connection has
received a hello and then verified exactly one binding, whatever the chunks of
its stream and the turns in which its data handlers are suspended.
-/

namespace P2PHub.NetworkLight

open Connection Transition

/-- The peer in whose name a handler is called or a route is registered. -/
def ConnectionEvent.caller : ConnectionEvent → Option String
  | taskCalled peerId _ => some peerId
  | eventCalled peerId _ => some peerId
  | registered peer => some peer.peerId
  | _ => none

def ConnectionEvent.isVerified : ConnectionEvent → Bool
  | verified _ => true
  | _ => false

def ConnectionEvent.isAuth : ConnectionEvent → Bool
  | received (.auth _) => true
  | _ => false

/-- A published event names the peer that it is handed over for. -/
def ConnectionEvent.Genuine : ConnectionEvent → Prop
  | eventCalled peerId (.eventEmit body) => body.publisherPeerId = peerId
  | _ => True

/-- The first two events of a connection whose hello is accepted. -/
def greeting (hello : HelloBody) (serverNonce : String) : List ConnectionEvent :=
  [.accepted hello serverNonce, .received (.hello hello)]

/-- A log that begins with an accepted hello, without an auth since. -/
structure Greeting (log : List ConnectionEvent) (clientNonce serverNonce : String) where
  hello : HelloBody
  later : List ConnectionEvent
  log_eq : log = later ++ greeting hello serverNonce
  nonce : hello.nonce = clientNonce
  supported : (supportedVersion hello.versions).isSome
  noAuth : ∀ event ∈ later, event.isAuth = false
  notVerified : ∀ event ∈ later, event.isVerified = false

/-- A log that begins with an accepted hello, whose first auth verified against
the nonces of the connection and the presented certificate, and that holds no
other verified binding. -/
structure Authentication (world : Surroundings) (log : List ConnectionEvent) where
  hello : HelloBody
  serverNonce : String
  binding : IdentityBinding
  later : List ConnectionEvent
  between : List ConnectionEvent
  log_eq : log = later ++ .verified binding :: .received (.auth binding) ::
    (between ++ greeting hello serverNonce)
  supported : (supportedVersion hello.versions).isSome
  noAuth : ∀ event ∈ between, event.isAuth = false
  onlyOne : ∀ event ∈ later ++ between, event.isVerified = false
  verifies : verifyIdentity world.verify binding hello.nonce serverNonce
    (normalizeFingerprint world.peerFingerprint)

def AuthenticatedAs (world : Surroundings) (log : List ConnectionEvent) (peerId : String) : Prop :=
  ∃ authentication : Authentication world log, authentication.binding.peerId = peerId

/-- Every event in the name of a peer comes after the authentication as it. -/
def Sound (world : Surroundings) : List ConnectionEvent → Prop
  | [] => True
  | event :: older =>
    (∀ peerId ∈ event.caller, AuthenticatedAs world older peerId) ∧ event.Genuine ∧
      Sound world older

section

variable {world : Surroundings} {c : Connection} {message : WireEnvelope}
    {log : List ConnectionEvent}
  {event : ConnectionEvent} {clientNonce serverNonce : String}

/-- What holds of a connection whether its socket is destroyed or not. -/
structure Safe (world : Surroundings) (c : Connection) : Prop where
  sound : Sound world c.log
  authenticated : ∀ peerId ∈ c.authenticatedPeerId, AuthenticatedAs world c.log peerId
  suspended : 0 < c.suspended → c.handshakeDone = true

/-- The invariant: while its socket lives, the log of a connection is the one
of its phase. -/
structure Inv (world : Surroundings) (c : Connection) : Prop extends Safe world c where
  fresh : c.destroyed = false → c.handshakeDone = false → c.log = []
  greeted : c.destroyed = false → c.handshakeDone = true → c.authenticatedPeerId = none →
    Nonempty (Greeting c.log c.clientNonce c.serverNonce)

theorem inv_initial : Inv world initial where
  sound := trivial
  authenticated := nofun
  suspended := nofun
  fresh := fun _ _ => rfl
  greeted := nofun

theorem Safe.destroy (safe : Safe world c) : Inv world c.destroy where
  sound := safe.sound
  authenticated := safe.authenticated
  suspended := safe.suspended
  fresh := nofun
  greeted := nofun

theorem Greeting.cons
    (greeted : Nonempty (Greeting log clientNonce serverNonce)) (noAuth : event.isAuth = false)
    (notVerified : event.isVerified = false) :
    Nonempty (Greeting (event :: log) clientNonce serverNonce) := by
  obtain ⟨before⟩ := greeted
  exact ⟨{ before with
    later := event :: before.later
    log_eq := congrArg (event :: ·) before.log_eq
    noAuth := List.forall_mem_cons.mpr ⟨noAuth, before.noAuth⟩
    notVerified := List.forall_mem_cons.mpr ⟨notVerified, before.notVerified⟩ }⟩

theorem AuthenticatedAs.cons {peerId : String} (authenticated : AuthenticatedAs world log peerId)
    (notVerified : event.isVerified = false) : AuthenticatedAs world (event :: log) peerId := by
  obtain ⟨before, peerEq⟩ := authenticated
  have onlyOne : ∀ other ∈ event :: before.later ++ before.between, other.isVerified = false :=
    List.forall_mem_cons.mpr ⟨notVerified, before.onlyOne⟩
  exact ⟨{ before with
    later := event :: before.later
    log_eq := congrArg (event :: ·) before.log_eq
    onlyOne }, peerEq⟩

theorem Greeting.authenticate {binding : IdentityBinding}
    (greeted : Nonempty (Greeting log clientNonce serverNonce))
    (verifies : verifyIdentity world.verify binding clientNonce serverNonce
      (normalizeFingerprint world.peerFingerprint)) :
    AuthenticatedAs world (.verified binding :: .received (.auth binding) :: log)
      binding.peerId := by
  obtain ⟨before⟩ := greeted
  refine ⟨{
    hello := before.hello
    serverNonce
    binding
    later := []
    between := before.later
    log_eq := congrArg (fun log => .verified binding :: .received (.auth binding) :: log)
      before.log_eq
    supported := before.supported
    noAuth := before.noAuth
    onlyOne := before.notVerified
    verifies := ?_ }, rfl⟩
  rw [before.nonce]
  exact verifies

/-- An event in nobody's name, or in the name of the authenticated peer. -/
structure Permitted (c : Connection) (event : ConnectionEvent) : Prop where
  notVerified : event.isVerified = false
  caller : ∀ peerId ∈ event.caller, c.authenticatedPeerId = some peerId
  genuine : event.Genuine

theorem Safe.sound_cons (safe : Safe world c) (permitted : Permitted c event) :
    Sound world (event :: c.log) :=
  ⟨fun peerId member => safe.authenticated peerId (permitted.caller peerId member),
    permitted.genuine, safe.sound⟩

theorem Safe.record (safe : Safe world c) (permitted : Permitted c event) :
    Safe world (c.record event) where
  sound := safe.sound_cons permitted
  authenticated := fun peerId member =>
    (safe.authenticated peerId member).cons permitted.notVerified
  suspended := safe.suspended

theorem Inv.record (inv : Inv world c) (shaken : c.handshakeDone)
    (permitted : Permitted c event) (noAuth : event.isAuth = false) :
    Inv world (c.record event) where
  toSafe := inv.toSafe.record permitted
  fresh := fun _ notShaken => absurd (shaken.symm.trans notShaken) nofun
  greeted := fun lives shaken anonymous =>
    Greeting.cons (inv.greeted lives shaken anonymous) noAuth permitted.notVerified

theorem permitted_received (message : WireEnvelope) : Permitted c (.received message) :=
  ⟨rfl, nofun, trivial⟩

theorem permitted_sent (message : WireEnvelope) : Permitted c (.sent message) :=
  ⟨rfl, nofun, trivial⟩

theorem Safe.receive (safe : Safe world c) : Safe world (c.receive message) where
  sound := safe.sound_cons (permitted_received message)
  authenticated := fun peerId member => (safe.authenticated peerId member).cons rfl
  suspended := safe.suspended

theorem Inv.receive (inv : Inv world c) (shaken : c.handshakeDone)
    (noAuth : (ConnectionEvent.received message).isAuth = false) :
    Inv world (c.receive message) where
  toSafe := inv.toSafe.receive
  fresh := fun _ notShaken => absurd (shaken.symm.trans notShaken) nofun
  greeted := fun lives shaken anonymous =>
    Greeting.cons (inv.greeted lives shaken anonymous) noAuth rfl

end

section

variable {world : Surroundings} {c : Connection} {message : WireEnvelope}

theorem acceptHello_inv {hello : HelloBody} (inv : Inv world c) (notShaken : c.handshakeDone =
    false) : Inv world (acceptHello world hello (c.receive (.hello hello))).1 := by
  have safe : Safe world (c.receive (.hello hello)) := inv.toSafe.receive
  unfold acceptHello
  split
  · exact safe.destroy
  · split
    · exact safe.destroy
    · next supported =>
        have supportedSome : (supportedVersion hello.versions).isSome := by
          rwa [Option.isNone_iff_eq_none, ← Ne, ← Option.isSome_iff_ne_none] at supported
        constructor
        · exact {
            sound := ⟨nofun, trivial, safe.sound⟩
            authenticated := fun peerId member => (safe.authenticated peerId member).cons rfl
            suspended := fun _ => rfl }
        · exact fun _ notShaken => nomatch notShaken
        · intro lives _ _
          have logEq : c.log = [] := inv.fresh lives notShaken
          exact ⟨{
            hello
            later := []
            log_eq := by simp [receive, logEq, greeting]
            nonce := rfl
            supported := supportedSome
            noAuth := by simp
            notVerified := by simp }⟩

theorem Safe.present (safe : Safe world c) : Safe world (c.present world) :=
  ⟨safe.sound, safe.authenticated, safe.suspended⟩

theorem handleAuth_inv {binding : IdentityBinding} (inv : Inv world c)
    (shaken : c.handshakeDone) :
    Inv world (handleAuth world binding (c.receive (.auth binding))).1 := by
  have safe : Safe world (c.receive (.auth binding)) := inv.toSafe.receive
  unfold handleAuth
  split
  · exact safe.destroy
  · next first =>
      rw [Bool.or_eq_true, not_or] at first
      have anonymous : c.authenticatedPeerId = none := Option.not_isSome_iff_eq_none.mp first.1
      split
      · exact safe.destroy
      · next alive =>
          have lives : c.destroyed = false := Bool.eq_false_of_not_eq_true alive
          split
          · next verifies =>
              have authenticated := Greeting.authenticate
                (inv.greeted lives shaken anonymous) verifies
              constructor
              · exact {
                  sound := ⟨fun _ member => Option.mem_some.mp member ▸ authenticated, trivial,
                    nofun, trivial, safe.sound⟩
                  authenticated := fun _ member =>
                    Option.mem_some.mp member ▸ authenticated.cons rfl
                  suspended := safe.suspended }
              · exact fun _ notShaken => absurd (shaken.symm.trans notShaken) nofun
              · exact fun _ _ anonymous => nomatch anonymous
          · exact safe.present.destroy

theorem permitted_eventCalled {peerId : String}
    (authenticated : c.authenticatedPeerId = some peerId)
    (genuine : (ConnectionEvent.eventCalled peerId message).Genuine) :
    Permitted c (.eventCalled peerId message) :=
  ⟨rfl, fun _ member => Option.mem_some.mp member ▸ authenticated, genuine⟩

theorem permitted_taskCalled {peerId : String} {task : TaskBody}
    (authenticated : c.authenticatedPeerId = some peerId) : Permitted c (.taskCalled peerId task) :=
  ⟨rfl, fun _ member => Option.mem_some.mp member ▸ authenticated, trivial⟩

variable (inv : Inv world c)
include inv

theorem handleSubReq_inv {body : SubReqBody} (shaken : c.handshakeDone) :
    Inv world (handleSubReq world body c).1 := by
  unfold handleSubReq
  split
  · exact inv.toSafe.destroy
  · next peerId authenticated =>
      split
      · exact inv.toSafe.destroy
      · split
        · exact inv.record shaken (permitted_sent _) rfl
        · have called : Inv world (c.record (.eventCalled peerId (.subReq body))) :=
            inv.record shaken (permitted_eventCalled authenticated trivial) rfl
          unfold handleSubReqMessage
          cases world.eventHandler c.handled with
          | absent => exact inv.record shaken (permitted_sent _) rfl
          | takes | throws => exact called

theorem handleEventEmit_inv {body : EventEmitBody}
    (shaken : c.handshakeDone) : Inv world (handleEventEmit world body c).1 := by
  unfold handleEventEmit
  split
  · exact inv.toSafe.destroy
  · next peerId authenticated =>
      split
      · exact inv.toSafe.destroy
      · next publisher =>
          have samePublisher : body.publisherPeerId = peerId := not_not.mp publisher
          have called : Inv world (c.record (.eventCalled peerId (.eventEmit body))) :=
            inv.record shaken (permitted_eventCalled authenticated samePublisher) rfl
          unfold handleEventEmitMessage
          cases world.eventHandler c.handled with
          | absent => exact inv
          | takes => exact called
          | throws => exact called.toSafe.destroy

theorem Inv.sees : Inv world c.sees where
  toSafe := ⟨inv.sound, inv.authenticated, inv.suspended⟩
  fresh := inv.fresh
  greeted := inv.greeted

theorem handleTask_inv {task : TaskBody} (shaken : c.handshakeDone) :
    Inv world (handleTask world task c).1 := by
  unfold handleTask
  split
  · exact inv.toSafe.destroy
  · next peerId authenticated =>
      split
      · exact inv.sees.toSafe.destroy
      · split
        · exact inv.sees.record shaken (permitted_sent _) rfl
        · unfold handleMessage
          split
          · exact inv.sees.record shaken (permitted_taskCalled authenticated) rfl
          · exact inv.sees

/-- Before the handshake only a hello is taken, and every other message is taken
only after it. -/
theorem handleEnvelope_inv : Inv world (handleEnvelope world message (c.receive message)).1 := by
  have refused : Inv world (c.receive message).destroy := inv.toSafe.receive.destroy
  cases shaken : c.handshakeDone with
  | false =>
    have notShaken : (c.receive message).handshakeDone = false := shaken
    unfold handleEnvelope
    rw [notShaken]
    cases message with
    | hello => exact acceptHello_inv inv shaken
    | _ => exact refused
  | true =>
    have stillShaken : (c.receive message).handshakeDone := shaken
    unfold handleEnvelope
    rw [stillShaken]
    cases message with
    | auth => exact handleAuth_inv inv shaken
    | subReq => exact handleSubReq_inv (inv.receive shaken rfl) shaken
    | eventEmit => exact handleEventEmit_inv (inv.receive shaken rfl) shaken
    | task => exact handleTask_inv (inv.receive shaken rfl) shaken
    | _ => exact refused

end

variable {world : Surroundings} {c : Connection}

theorem handleEnvelope_buffer (message : WireEnvelope) :
    (handleEnvelope world message c).1.buffer = c.buffer := by
  unfold handleEnvelope
  split
  · split
    · unfold acceptHello
      split_ifs <;> rfl
    · rfl
  · split
    · unfold handleAuth
      split_ifs <;> rfl
    · unfold handleSubReq handleSubReqMessage
      split
      · rfl
      · split_ifs <;> try rfl
        split <;> rfl
    · unfold handleEventEmit handleEventEmitMessage
      split
      · rfl
      · split_ifs
        · rfl
        · split <;> rfl
    · unfold handleTask handleMessage
      split
      · rfl
      · split_ifs <;> rfl
    · rfl

section

variable (inv : Inv world c)
include inv

theorem Inv.withBuffer {buffer : List UInt8} : Inv world (c.withBuffer buffer) where
  toSafe := ⟨inv.sound, inv.authenticated, inv.suspended⟩
  fresh := inv.fresh
  greeted := inv.greeted

theorem serve_inv {fuel : Nat} : Inv world (serve world fuel c) := by
  induction fuel generalizing c with
  | zero => exact inv
  | succ fuel ih =>
    unfold serve
    split
    · exact inv.toSafe.destroy
    · exact inv
    · next rest _ =>
      have taken : Inv world (c.withBuffer rest) := inv.withBuffer
      split
      · exact taken.toSafe.destroy
      · next message _ =>
          have handled : Inv world
              (handleEnvelope world message ((c.withBuffer rest).receive message)).1 :=
            handleEnvelope_inv taken
          split
          · next after went =>
              rw [went] at handled
              exact ih handled
          · next after _ _ went =>
              rw [went] at handled
              exact handled

theorem resume_inv {signature : String} (suspended : c.suspended ≠ 0) :
    Inv world (c.resume world signature) := by
  have shaken := inv.suspended (Nat.pos_of_ne_zero suspended)
  have recorded := inv.record shaken (permitted_sent (helloAck world signature c)) rfl
  exact {
    sound := recorded.sound
    authenticated := recorded.authenticated
    suspended := fun _ => shaken
    fresh := recorded.fresh
    greeted := recorded.greeted }

theorem giveUp_inv (suspended : c.suspended ≠ 0) : Inv world c.giveUp := by
  have shaken := inv.suspended (Nat.pos_of_ne_zero suspended)
  exact Safe.destroy ⟨inv.sound, inv.authenticated, fun _ => shaken⟩

theorem connectionStep_inv {label : ConnectionLabel} {after : Connection} {outputs : List Unit}
    (stepped : connectionStep world c label = some (after, outputs)) : Inv world after := by
  cases label with
  | data =>
    obtain ⟨rfl, _⟩ : _ ∧ _ := by simpa [connectionStep] using stepped
    exact serve_inv inv.withBuffer
  | signed =>
    simp only [connectionStep, Option.ite_none_left_eq_some, Option.some.injEq, Prod.mk.injEq]
      at stepped
    obtain ⟨suspended, rfl, _⟩ := stepped
    exact serve_inv (resume_inv inv suspended)
  | signingFailed =>
    simp only [connectionStep, Option.ite_none_left_eq_some, Option.some.injEq, Prod.mk.injEq]
      at stepped
    obtain ⟨suspended, rfl, _⟩ := stepped
    exact giveUp_inv inv suspended
  | closed =>
    cases stepped
    exact inv.toSafe.destroy

end

theorem runs_inv {history : List Unit} (runs : Runs (connectionStep world) unrestricted initial
      history c) : Inv world c :=
  runs.invariant (fun _ c => Inv world c) inv_initial
    fun _ _ _ _ _ inv _ stepped => connectionStep_inv inv stepped

theorem Sound.split {later older : List ConnectionEvent} {event : ConnectionEvent}
    (sound : Sound world (later ++ event :: older)) :
    (∀ peerId ∈ event.caller, AuthenticatedAs world older peerId) ∧ event.Genuine := by
  induction later with
  | nil => exact ⟨sound.1, sound.2.1⟩
  | cons _ later ih => exact ih sound.2.2

/-- Whenever a handler is called or a peer is registered, the connection had
received an accepted hello first and then verified exactly one binding, that of
the peer in whose name it happens. -/
theorem handler_called_authenticated (world : Surroundings) {history : List Unit} {c : Connection}
    (runs : Runs (connectionStep world) unrestricted initial
      history c) {later older : List ConnectionEvent} {event : ConnectionEvent}
    (happened : c.log = later ++ event :: older) :
    (∀ peerId ∈ event.caller, AuthenticatedAs world older peerId) ∧ event.Genuine := by
  have sound := (runs_inv runs).sound
  rw [happened] at sound
  exact sound.split

/-- The frame of an envelope with a type and the text of a body. -/
def frameOf (type body : List Char) : List UInt8 :=
  lengthPrefixed (Utf8.encode
    ("\x7b\"protocol\":\"p2p-hub:network\",\"version\":1,\"type\":\"".toList ++ type ++
      "\",\"body\":\x7b".toList ++ body ++ "\x7d\x7d".toList))

def clientHello : List UInt8 :=
  frameOf "hello".toList "\"versions\":[1],\"capabilities\":[],\"nonce\":\"c1\"".toList

def clientPeerId : String :=
  String.ofList (List.replicate 64 'a')

def clientAuth : List UInt8 :=
  frameOf "auth".toList ("\"peerId\":\"".toList ++ List.replicate 64 'a' ++
      "\",\"certFingerprint\":\"".toList ++ List.replicate 64 'b' ++
      "\",\"signature\":\"".toList ++ List.replicate 128 'c' ++ ['"'])

def clientTask : List UInt8 :=
  frameOf "task".toList "\"id\":\"t1\",\"skill\":\"calc:recalc\",\"payload\":null".toList

/-- A client whose signatures verify, with every request allowed. -/
def trustingWorld : Surroundings where
  ip := "10.0.0.7"
  skills := ["calc:recalc"]
  maxPayloadBytes := .ofInt 1048576
  peerId := String.ofList (List.replicate 64 'e')
  certFingerprint := "EE:FF"
  peerFingerprint := some (String.ofList (List.replicate 64 'B'))
  verify := fun _ _ _ => true
  randomNonce := fun _ => "5e"
  allowRequest := fun _ => true
  tryAcquireTask := fun _ => true
  taskHandler := fun _ => true
  eventHandler := fun _ => .takes

def greetedConnection : Connection :=
  (initial.withBuffer ([] ++ clientHello)).serve trustingWorld

/-- The auth and the task arrive while the first handler is suspended. -/
def servedConnection : Connection :=
  (greetedConnection.withBuffer (greetedConnection.buffer ++ (clientAuth ++ clientTask))).serve
    trustingWorld

theorem handler_called_authenticated_client :
    ∃ later event older, servedConnection.log = later ++ event :: older ∧
      event.caller = some clientPeerId ∧ AuthenticatedAs trustingWorld older clientPeerId := by
  have called : servedConnection.log.any fun event => event.caller = some clientPeerId := by
    decide +kernel
  obtain ⟨event, member, caller⟩ := List.any_eq_true.mp called
  have callerEq : event.caller = some clientPeerId := of_decide_eq_true caller
  obtain ⟨later, older, logEq⟩ := List.append_of_mem member
  have greeted : connectionStep trustingWorld initial (.data clientHello) =
      some (greetedConnection, []) := rfl
  have served : connectionStep trustingWorld greetedConnection
      (.data (clientAuth ++ clientTask)) = some (servedConnection, []) := rfl
  have runs : Runs (connectionStep trustingWorld) unrestricted
      initial ([] ++ [] ++ []) servedConnection :=
    .tail (.tail .refl trivial greeted) trivial served
  exact ⟨later, event, older, logEq, callerEq,
    (handler_called_authenticated trustingWorld runs logEq).1 clientPeerId callerEq⟩

end P2PHub.NetworkLight
