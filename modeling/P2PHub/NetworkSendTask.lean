import P2PHub.ServerConnection
import P2PHub.TaskBroker
import P2PHub.WireContractRoundTrip

/-!
# A connection that sends a task

`sendTask` in `plugins/network-light/src/network-light-provider.ts`, from the
socket to the settled promise.  The server may send any bytes at any time; a
data handler is suspended while our identity is signed, and other data handlers
run meanwhile.
-/

namespace P2PHub.NetworkLight

/-- What the provider brings to an outgoing connection. -/
structure Caller where
  skills : List String
  /-- The mDNS instance id and the bound port, if there is one. -/
  helloHints : Option HelloHints
  peerId : String
  certFingerprint : String
  verify : String → String → String → Bool

/-- What a call of `sendTask` has fixed before its socket is there. -/
structure Errand where
  task : TaskBody
  expectedFingerprint : Option String
  clientNonce : String

/-- `PeerCapabilities`, without the time. -/
structure PeerCapabilities where
  skills : List String
  limits : Option Limits
  peerId : Option String
  deriving DecidableEq

inductive ExchangePhase
  | helloAck
  | result
  deriving DecidableEq, Repr

/-- What is observed of an outgoing connection. -/
inductive ExchangeEvent
  | verified (binding : IdentityBinding) (serverNonce : String)
  | learned (capabilities : PeerCapabilities)
  | wrote (message : WireEnvelope)

/-- The variables of a call with its socket.  `proving` is the nonce for which
a suspended handler has our identity signed, `outcome` the result the promise
is resolved with, and the log has the newest event first. -/
structure Exchange where
  secured : Bool
  presented : Option String
  buffer : List UInt8
  phase : ExchangePhase
  proving : Option String
  destroyed : Bool
  outcome : Option ResultBody
  log : List ExchangeEvent

def Exchange.initial : Exchange where
  secured := false
  presented := none
  buffer := []
  phase := .helloAck
  proving := none
  destroyed := false
  outcome := none
  log := []

section

def Exchange.destroy (x : Exchange) : Exchange :=
  { x with destroyed := true }

def Exchange.finish (x : Exchange) (result : ResultBody) : Exchange :=
  { x with outcome := some (x.outcome.getD result) }

def failedResult (task : TaskBody) (error : String) : ResultBody where
  taskId := task.id
  status := .error
  result := none
  error := some error

variable (caller : Caller) (errand : Errand)

def Exchange.refuse (x : Exchange) (error : String) : Exchange :=
  x.destroy.finish (failedResult errand.task error)

/-- The `catch` block of a data handler.  Where reporting what was thrown
throws, nothing is finished. -/
def Exchange.catchThrown (x : Exchange) (thrown : Thrown) : Exchange :=
  match thrown.report with
  | some (message, _) => x.refuse errand message
  | none => x.destroy

def Exchange.write (x : Exchange) (message : WireEnvelope) : Exchange :=
  if x.destroyed then x else { x with log := .wrote message :: x.log }

/-- `socket.write(encodeFrame(..))`: an encoder that throws and a text beyond
the range of `writeUInt32BE` put nothing on the wire. -/
def WireEnvelope.bytes (message : WireEnvelope) : List UInt8 :=
  match message.encode with
  | .ok (some text) =>
    if (Utf8.encode text.toList).length < 2 ^ 32 then encodeFrame text else []
  | _ => []

def ExchangeEvent.message : ExchangeEvent → Option WireEnvelope
  | wrote message => some message
  | _ => none

/-- The messages that a connection has written, the oldest first. -/
def Exchange.messages (x : Exchange) : List WireEnvelope :=
  x.log.reverse.filterMap ExchangeEvent.message

def Exchange.written (x : Exchange) : List UInt8 :=
  x.messages.flatMap WireEnvelope.bytes

/-- `fingerprintsMatch`. -/
def fingerprintsMatch (expected presented : String) : Bool :=
  !(normalizeFingerprint (some expected)).isEmpty &&
    normalizeFingerprint (some expected) = normalizeFingerprint (some presented)

def callerHello : WireEnvelope :=
  .hello {
    versions := [networkProtocolVersion]
    capabilities := caller.skills
    nonce := errand.clientNonce
    instanceId := caller.helloHints.map HelloHints.instanceId
    listenPort := caller.helloHints.map HelloHints.listenPort }

/-- The secure-connect callback.  The empty fingerprint counts as missing. -/
def Exchange.secure (x : Exchange) (presented : Option String) : Exchange :=
  let secured := { x with secured := true, presented }
  match errand.expectedFingerprint.filter nonEmpty with
  | none => secured.refuse errand "no certificate fingerprint on record for peer"
  | some expected =>
    if fingerprintsMatch expected (presented.getD "") then secured.write (callerHello caller errand)
    else secured.refuse errand "certificate fingerprint mismatch"

end

section

variable (caller : Caller) (errand : Errand)

/-- `peerCapabilities.set` after a verified binding. -/
def Exchange.learn (x : Exchange) (body : HelloAckBody) : Exchange :=
  { x with
    log :=
      .learned {
        skills := body.capabilities.take maxCapabilities
        limits := body.limits
        peerId := some body.identity.peerId } ::
      .verified body.identity body.nonce :: x.log }

/-- The limit that a text exceeds, if the peer set one. -/
def exceededLimit (body : HelloAckBody) (taskFrame : String) : Option Binary64 :=
  (body.limits.bind Limits.maxPayloadBytes).filter fun limit =>
    limit.lt (.ofInt (Utf16.length taskFrame.toList))

/-- From the verified binding to the await of our own signature. -/
def Exchange.prepare (x : Exchange) (body : HelloAckBody) : Exchange × Next :=
  match encodeTask errand.task with
  | .ok (some taskFrame) =>
    match exceededLimit body taskFrame with
    | some limit =>
      (x.refuse errand ("payload exceeds peer's limit (" ++ String.ofList limit.text ++
        " bytes)"), .ends)
    | none => ({ x with phase := .result, proving := some body.nonce }, .suspends)
  | _ => (x.refuse errand "task payload is not JSON-serializable", .ends)

/-- The binding of an acknowledgement holds for the nonces of the connection
and the certificate that the server presented. -/
def Exchange.proves (x : Exchange) (body : HelloAckBody) : Bool :=
  verifyIdentity caller.verify body.identity errand.clientNonce body.nonce
    (normalizeFingerprint x.presented)

def Exchange.acknowledge (x : Exchange) (body : HelloAckBody) : Exchange × Next :=
  if body.version ≠ networkProtocolVersion then
    (x.refuse errand ("peer negotiated unsupported protocol version " ++
      String.ofList body.version.text), .ends)
  else if x.proves caller errand body then (x.learn body).prepare errand body
  else (x.refuse errand "peer failed identity binding", .ends)

def Exchange.take (x : Exchange) (value : JsValue) : Exchange × Next :=
  match x.phase with
  | .helloAck =>
    match parseEnvelope value with
    | some (.helloAck body) => x.acknowledge caller errand body
    | _ => (x.refuse errand "peer rejected the protocol handshake", .ends)
  | .result =>
    match parseEnvelope value with
    | some (.result body) => (x.destroy.finish body, .ends)
    | _ => (x.refuse errand "unexpected message type from peer", .ends)

def Exchange.withBuffer (x : Exchange) (buffer : List UInt8) : Exchange :=
  { x with buffer }

/-- The loop of a data handler.  Each frame shortens the buffer, so its length
is fuel enough. -/
def Exchange.readFuel : Nat → Exchange → Exchange
  | 0, x => x
  | fuel + 1, x =>
    match tryDecodeFrame x.buffer with
    | .error thrown => x.catchThrown errand thrown
    | .ok none => x
    | .ok (some (value, rest)) =>
      match (x.withBuffer rest).take caller errand value with
      | (after, .continues) => readFuel fuel after
      | (after, _) => after

def Exchange.read (x : Exchange) : Exchange :=
  x.readFuel caller errand (x.buffer.length + 1)

/-- Our proof of identity, with the signature that was awaited. -/
def callerProof (signature : String) : WireEnvelope :=
  .auth {
    peerId := caller.peerId
    certFingerprint := normalizeFingerprint (some caller.certFingerprint)
    signature }

def Exchange.prove (x : Exchange) (signature : String) : Exchange :=
  ((({ x with proving := none }).write (callerProof caller signature)).write
    (.task errand.task)).read caller errand

end

section

/-- What happens to an outgoing connection: its handshake is done, a chunk
arrives, the signature that a handler awaits is there or fails, the socket
fails or is closed, or the response timer fires. -/
inductive ExchangeLabel
  | secured (presented : Option String)
  | data (chunk : List UInt8)
  | signed (signature : String)
  | signingFailed (thrown : Thrown)
  | failed (message : String)
  | closed
  | timedOut

variable (caller : Caller) (errand : Errand)

def Exchange.closedError (x : Exchange) : String :=
  match x.phase with
  | .helloAck => "peer closed the connection during the protocol handshake"
  | .result => "peer closed the connection before sending a response"

def Exchange.timeoutError (x : Exchange) : String :=
  match x.phase with
  | .helloAck => "timed out during protocol handshake"
  | .result => "timed out waiting for response"

/-- One turn of the event loop.  A socket has no data before its handshake and
after its destruction; the timer runs until the call is finished. -/
def exchangeStep (x : Exchange) : ExchangeLabel → Option Exchange
  | .secured presented =>
    if x.secured || x.destroyed then none else some (x.secure caller errand presented)
  | .data chunk =>
    if x.secured && !x.destroyed then
      some ((x.withBuffer (x.buffer ++ chunk)).read caller errand)
    else none
  | .signed signature =>
    if x.proving.isSome then some (x.prove caller errand signature) else none
  | .signingFailed thrown =>
    if x.proving.isSome then some (({ x with proving := none }).catchThrown errand thrown)
    else none
  | .failed message => some (x.refuse errand message)
  | .closed => some (x.refuse errand x.closedError)
  | .timedOut => if x.outcome.isSome then none else some (x.refuse errand x.timeoutError)

end

variable {caller : Caller} {errand : Errand} {x after : Exchange} {label : ExchangeLabel}

/-- A turn that puts nothing on the wire and verifies nothing. -/
structure Exchange.Quiet (x after : Exchange) : Prop where
  log : after.log = x.log
  phase : after.phase = x.phase
  secured : after.secured = x.secured
  presented : after.presented = x.presented
  proving : ∀ nonce ∈ after.proving, nonce ∈ x.proving

theorem Exchange.quiet_refuse (error : String) : x.Quiet (x.refuse errand error) where
  log := rfl
  phase := rfl
  secured := rfl
  presented := rfl
  proving := fun _ member => member

theorem Exchange.Quiet.refl (x : Exchange) : x.Quiet x where
  log := rfl
  phase := rfl
  secured := rfl
  presented := rfl
  proving := fun _ member => member

theorem Exchange.quiet_catchThrown (errand : Errand) (x : Exchange) (thrown : Thrown) :
    x.Quiet (x.catchThrown errand thrown) := by
  unfold catchThrown
  split
  · exact quiet_refuse _
  · exact ⟨rfl, rfl, rfl, rfl, fun _ member => member⟩

theorem Exchange.Quiet.proving_none {before : Exchange} (quiet : before.Quiet after)
    (idle : before.proving = none := by rfl) : after.proving = none := by
  apply Option.eq_none_iff_forall_not_mem.mpr
  intro nonce member
  have former := quiet.proving nonce member
  rw [idle] at former
  cases former

/-- No frame makes the loop go on: a handler is suspended after the
acknowledgement and ends after a result. -/
theorem Exchange.take_ends (caller : Caller) (errand : Errand) (x : Exchange) (value : JsValue) :
    (x.take caller errand value).2 ≠ .continues := by
  unfold take
  cases x.phase with
  | result =>
    dsimp only
    split <;> exact nofun
  | helloAck =>
    dsimp only
    split
    · next body _ =>
        unfold acknowledge
        split
        · exact nofun
        split
        · unfold prepare
          split
          · split <;> exact nofun
          · exact nofun
        · exact nofun
    · exact nofun

theorem Exchange.read_cases (caller : Caller) (errand : Errand) (x : Exchange) :
    (∃ thrown, tryDecodeFrame x.buffer = .error thrown ∧
      x.read caller errand = x.catchThrown errand thrown) ∨
    (tryDecodeFrame x.buffer = .ok none ∧ x.read caller errand = x) ∨
    ∃ value rest, tryDecodeFrame x.buffer = .ok (some (value, rest)) ∧
      x.read caller errand = ((x.withBuffer rest).take caller errand value).1 := by
  rw [read, readFuel]
  cases decoded : tryDecodeFrame x.buffer with
  | error thrown => exact .inl ⟨thrown, rfl, rfl⟩
  | ok frame =>
    cases frame with
    | none => exact .inr (.inl ⟨rfl, rfl⟩)
    | some frame =>
      obtain ⟨value, rest⟩ := frame
      refine .inr (.inr ⟨value, rest, rfl, ?_⟩)
      dsimp only
      have ends := take_ends caller errand (x.withBuffer rest) value
      cases taken : (x.withBuffer rest).take caller errand value with
      | mk later next =>
        rw [taken] at ends
        cases next with
        | continues => exact absurd rfl ends
        | suspends | ends => rfl

theorem Exchange.quiet_take_result (caller : Caller) (errand : Errand) (waiting : x.phase =
    .result) (value : JsValue) : x.Quiet (x.take caller errand value).1 := by
  unfold take
  rw [waiting]
  dsimp only
  split
  · exact ⟨rfl, rfl, rfl, rfl, fun _ member => member⟩
  · exact quiet_refuse _

theorem Exchange.quiet_read_result (caller : Caller) (errand : Errand) (waiting : x.phase =
    .result) : x.Quiet (x.read caller errand) := by
  rcases read_cases caller errand x with
    ⟨thrown, _, readEq⟩ | ⟨_, readEq⟩ | ⟨value, rest, _, readEq⟩
  · rw [readEq]
    exact quiet_catchThrown errand x thrown
  · rw [readEq]
    exact Quiet.refl x
  · rw [readEq]
    have quiet := @quiet_take_result (x.withBuffer rest) caller errand waiting value
    exact ⟨quiet.log, quiet.phase, quiet.secured, quiet.presented, quiet.proving⟩

/-- The chunk completes an acknowledgement that passes every check. -/
structure Exchange.Accepts (caller : Caller) (errand : Errand) (x : Exchange)
    (chunk : List UInt8) (body : HelloAckBody) : Prop where
  secured : x.secured
  alive : x.destroyed = false
  phase : x.phase = .helloAck
  framed : ∃ value rest, tryDecodeFrame (x.buffer ++ chunk) = .ok (some (value, rest)) ∧
    parseEnvelope value = some (.helloAck body)
  version : body.version = networkProtocolVersion
  proves : x.proves caller errand body

/-- Everything a turn can do to the log and the phase of a connection. -/
inductive Exchange.Turn (caller : Caller) (errand : Errand) (x : Exchange) :
    ExchangeLabel → Exchange → Prop
  | quiet {label : ExchangeLabel} {after : Exchange} (quiet : x.Quiet after) :
      Turn caller errand x label after
  | secured {presented : Option String} {after : Exchange} (fresh : x.secured = false)
      (log : after.log = x.log ∨ after.log = .wrote (callerHello caller errand) :: x.log)
      (phase : after.phase = x.phase) (secured : after.secured = true)
      (presentedEq : after.presented = presented) (proving : after.proving = x.proving) :
      Turn caller errand x (.secured presented) after
  | acknowledged {chunk : List UInt8} {body : HelloAckBody} {after : Exchange}
      (accepts : x.Accepts caller errand chunk body)
      (log : after.log = (x.learn body).log) (secured : after.secured = x.secured)
      (presented : after.presented = x.presented)
      (next : after.phase = x.phase ∧ after.proving = x.proving ∨
        after.phase = .result ∧ after.proving = some body.nonce) :
      Turn caller errand x (.data chunk) after
  | proved {signature : String} {after : Exchange} (waiting : x.proving.isSome)
      (log : after.log = x.log ∨
        after.log = .wrote (.task errand.task) :: .wrote (callerProof caller signature) :: x.log)
      (phase : after.phase = x.phase) (secured : after.secured = x.secured)
      (presented : after.presented = x.presented) (proving : after.proving = none) :
      Turn caller errand x (.signed signature) after

theorem Exchange.write_cases (x : Exchange) (message : WireEnvelope) :
    x.write message = x ∨ x.write message = { x with log := .wrote message :: x.log } := by
  unfold write
  split
  · exact .inl rfl
  · exact .inr rfl

theorem Exchange.write_write_cases (x : Exchange) (first second : WireEnvelope) :
    (x.write first).write second = x ∨ (x.write first).write second =
        { x with log := .wrote second :: .wrote first :: x.log } := by
  cases live : x.destroyed with
  | true =>
    have lost : ∀ message, x.write message = x := fun message => if_pos live
    rw [lost, lost]
    exact .inl rfl
  | false =>
    right
    simp [write, live]

theorem Exchange.turn_secure (fresh : x.secured = false) (presented : Option String) :
    x.Turn caller errand (.secured presented) (x.secure caller errand presented) := by
  unfold secure
  split
  · exact .secured fresh (.inl rfl) rfl rfl rfl rfl
  split
  · rcases write_cases { x with secured := true, presented } (callerHello caller errand) with
      wrote | wrote
    · rw [wrote]
      exact .secured fresh (.inl rfl) rfl rfl rfl rfl
    · rw [wrote]
      exact .secured fresh (.inr rfl) rfl rfl rfl rfl
  · exact .secured fresh (.inl rfl) rfl rfl rfl rfl

theorem Exchange.prepare_cases (errand : Errand) (x : Exchange) (body : HelloAckBody) :
    (∃ error, (x.prepare errand body).1 = x.refuse errand error) ∨
      (x.prepare errand body).1 = { x with phase := .result, proving := some body.nonce } := by
  unfold prepare
  split
  · split
    · exact .inl ⟨_, rfl⟩
    · exact .inr rfl
  · exact .inl ⟨_, rfl⟩

theorem Exchange.turn_data (secured : x.secured) (alive : x.destroyed = false)
    (chunk : List UInt8) : x.Turn caller errand (.data chunk)
      ((x.withBuffer (x.buffer ++ chunk)).read caller errand) := by
  cases phase : x.phase with
  | result =>
    have quiet := @quiet_read_result (x.withBuffer (x.buffer ++ chunk)) caller errand phase
    exact .quiet ⟨quiet.log, quiet.phase, quiet.secured, quiet.presented, quiet.proving⟩
  | helloAck =>
    rcases read_cases caller errand (x.withBuffer (x.buffer ++ chunk))
      with ⟨thrown, _, readEq⟩ | ⟨_, readEq⟩ | ⟨value, rest, decoded, readEq⟩ <;> rw [readEq]
    · have quiet := quiet_catchThrown errand (x.withBuffer (x.buffer ++ chunk)) thrown
      exact .quiet ⟨quiet.log, quiet.phase, quiet.secured, quiet.presented, quiet.proving⟩
    · exact .quiet ⟨rfl, rfl, rfl, rfl, fun _ member => member⟩
    · unfold take
      have phaseHere : ((x.withBuffer (x.buffer ++ chunk)).withBuffer rest).phase = .helloAck :=
        phase
      rw [phaseHere]
      dsimp only
      split
      · next body parsed =>
          unfold acknowledge
          split
          · exact .quiet ⟨rfl, rfl, rfl, rfl, fun _ member => member⟩
          · next version =>
              split
              · next proves =>
                  have accepts : x.Accepts caller errand chunk body := {
                    secured
                    alive
                    phase
                    framed := ⟨value, rest, decoded, parsed⟩
                    version := not_not.mp version
                    proves }
                  rcases prepare_cases errand
                    (((x.withBuffer (x.buffer ++ chunk)).withBuffer rest).learn body) body with
                    ⟨error, prepared⟩ | prepared <;> rw [prepared]
                  · exact .acknowledged accepts rfl rfl rfl (.inl ⟨rfl, rfl⟩)
                  · exact .acknowledged accepts rfl rfl rfl (.inr ⟨rfl, rfl⟩)
              · exact .quiet ⟨rfl, rfl, rfl, rfl, fun _ member => member⟩
      · exact .quiet ⟨rfl, rfl, rfl, rfl, fun _ member => member⟩

theorem Exchange.turn_prove (waiting : x.proving.isSome) (phase : x.phase = .result)
    (signature : String) :
    x.Turn caller errand (.signed signature) (x.prove caller errand signature) := by
  unfold prove
  rcases write_write_cases { x with proving := none } (callerProof caller signature)
    (.task errand.task) with wrote | wrote <;> rw [wrote]
  · have quiet := @quiet_read_result { x with proving := none } caller errand phase
    exact .proved waiting (.inl quiet.log) quiet.phase quiet.secured quiet.presented
      quiet.proving_none
  · have quiet := @quiet_read_result { x with
      proving := none
      log := .wrote (.task errand.task) :: .wrote (callerProof caller signature) :: x.log }
      caller errand phase
    exact .proved waiting (.inr quiet.log) quiet.phase quiet.secured quiet.presented
      quiet.proving_none

/-- Every turn of a connection whose proof is pending in the second phase only
is one of these. -/
theorem exchangeStep_turn (paced : x.proving.isSome → x.phase = .result)
    (stepped : exchangeStep caller errand x label = some after) :
    x.Turn caller errand label after := by
  cases label with
  | secured presented =>
    simp only [exchangeStep, Option.ite_none_left_eq_some, Option.some.injEq] at stepped
    obtain ⟨fresh, rfl⟩ := stepped
    have fresh : x.secured = false := by
      cases secured : x.secured with
      | false => rfl
      | true => simp [secured] at fresh
    exact Exchange.turn_secure fresh presented
  | data chunk =>
    simp only [exchangeStep, Option.ite_none_right_eq_some, Option.some.injEq, Bool.and_eq_true,
      Bool.not_eq_true'] at stepped
    obtain ⟨⟨secured, alive⟩, rfl⟩ := stepped
    exact Exchange.turn_data secured alive chunk
  | signed signature =>
    simp only [exchangeStep, Option.ite_none_right_eq_some, Option.some.injEq] at stepped
    obtain ⟨waiting, rfl⟩ := stepped
    exact Exchange.turn_prove waiting (paced waiting) signature
  | signingFailed thrown =>
    simp only [exchangeStep, Option.ite_none_right_eq_some, Option.some.injEq] at stepped
    obtain ⟨_, rfl⟩ := stepped
    have quiet := Exchange.quiet_catchThrown errand { x with proving := none } thrown
    exact .quiet ⟨quiet.log, quiet.phase, quiet.secured, quiet.presented,
      fun nonce member => nomatch quiet.proving nonce member⟩
  | failed | closed =>
    cases stepped
    exact .quiet (Exchange.quiet_refuse _)
  | timedOut =>
    simp only [exchangeStep, Option.ite_none_left_eq_some, Option.some.injEq] at stepped
    obtain ⟨_, rfl⟩ := stepped
    exact .quiet (Exchange.quiet_refuse _)

theorem Exchange.take_outcome (value : JsValue) (finished : x.outcome.isSome) :
    (x.take caller errand value).1.outcome.isSome := by
  unfold take
  split
  · split
    · unfold acknowledge
      split
      · rfl
      split
      · next body _ _ _ =>
          rcases prepare_cases errand (x.learn body) body with ⟨error, prepared⟩ | prepared <;>
            rw [prepared]
          · rfl
          · exact finished
      · rfl
    · rfl
  · split <;> rfl

theorem Exchange.catchThrown_outcome (thrown : Thrown) (finished : x.outcome.isSome) :
    (x.catchThrown errand thrown).outcome.isSome := by
  unfold catchThrown
  split
  · rfl
  · exact finished

theorem Exchange.read_outcome (finished : x.outcome.isSome) :
    (x.read caller errand).outcome.isSome := by
  rcases read_cases caller errand x with
    ⟨thrown, _, readEq⟩ | ⟨_, readEq⟩ | ⟨value, rest, _, readEq⟩
  · rw [readEq]
    exact catchThrown_outcome thrown finished
  · rw [readEq]
    exact finished
  · rw [readEq]
    exact take_outcome value finished

theorem exchangeStep_outcome (stepped : exchangeStep caller errand x label = some after)
    (finished : x.outcome.isSome) : after.outcome.isSome := by
  cases label with
  | secured presented =>
    simp only [exchangeStep, Option.ite_none_left_eq_some, Option.some.injEq] at stepped
    obtain ⟨_, rfl⟩ := stepped
    unfold Exchange.secure
    split
    · rfl
    split
    · rcases Exchange.write_cases { x with secured := true, presented }
        (callerHello caller errand) with wrote | wrote <;> rw [wrote] <;> exact finished
    · rfl
  | data =>
    simp only [exchangeStep, Option.ite_none_right_eq_some, Option.some.injEq] at stepped
    obtain ⟨_, rfl⟩ := stepped
    exact Exchange.read_outcome finished
  | signed signature =>
    simp only [exchangeStep, Option.ite_none_right_eq_some, Option.some.injEq] at stepped
    obtain ⟨_, rfl⟩ := stepped
    apply Exchange.read_outcome
    rcases Exchange.write_write_cases { x with proving := none } (callerProof caller signature)
      (.task errand.task) with wrote | wrote <;> rw [wrote] <;> exact finished
  | signingFailed thrown =>
    simp only [exchangeStep, Option.ite_none_right_eq_some, Option.some.injEq] at stepped
    obtain ⟨_, rfl⟩ := stepped
    exact Exchange.catchThrown_outcome thrown finished
  | failed | closed =>
    cases stepped
    rfl
  | timedOut =>
    simp only [exchangeStep, Option.ite_none_left_eq_some, Option.some.injEq] at stepped
    obtain ⟨_, rfl⟩ := stepped
    rfl

theorem exchangeStep_timedOut (stepped : exchangeStep caller errand x .timedOut = some after) :
    after.outcome.isSome := by
  simp only [exchangeStep, Option.ite_none_left_eq_some, Option.some.injEq] at stepped
  obtain ⟨_, rfl⟩ := stepped
  rfl

theorem Exchange.messages_same (log : after.log = x.log) : after.messages = x.messages := by
  rw [messages, log, messages]

theorem Exchange.messages_learn (x : Exchange) (body : HelloAckBody) :
    (x.learn body).messages = x.messages := by
  simp [messages, learn, ExchangeEvent.message]

theorem Exchange.Turn.messages
    (turn : x.Turn caller errand label after) : ∃ later, after.messages = x.messages ++ later := by
  cases turn with
  | quiet quiet => exact ⟨[], by rw [messages_same quiet.log, List.append_nil]⟩
  | secured _ log =>
    rcases log with log | log
    · exact ⟨[], by rw [messages_same log, List.append_nil]⟩
    · exact ⟨[callerHello caller errand], by
        simp [Exchange.messages, log, ExchangeEvent.message]⟩
  | acknowledged _ log =>
    next body _ _ _ _ =>
    refine ⟨[], ?_⟩
    rw [messages_same log, messages_learn, List.append_nil]
  | proved _ log =>
    rcases log with log | log
    · exact ⟨[], by rw [messages_same log, List.append_nil]⟩
    · next signature _ _ _ _ _ =>
        exact ⟨[callerProof caller signature, .task errand.task], by
          simp [Exchange.messages, log, ExchangeEvent.message]⟩

/-- How many messages a connection has written in each of its phases. -/
structure Exchange.Paced (x : Exchange) : Prop where
  unsecured : x.secured = false → x.phase = .helloAck ∧ x.messages = []
  waiting : x.phase = .helloAck → x.proving = none
  shaking : x.phase = .helloAck → x.messages.length ≤ 1
  proving : x.proving.isSome → x.messages.length ≤ 1
  few : x.messages.length ≤ 3

theorem Exchange.paced_initial : Exchange.initial.Paced where
  unsecured := fun _ => ⟨rfl, rfl⟩
  waiting := fun _ => rfl
  shaking := fun _ => Nat.zero_le _
  proving := nofun
  few := Nat.zero_le _

theorem Exchange.Paced.proving_phase (paced : x.Paced) (pending : x.proving.isSome) :
    x.phase = .result := by
  cases phase : x.phase with
  | helloAck =>
    rw [paced.waiting phase] at pending
    cases pending
  | result => rfl

theorem Exchange.Turn.paced (paced : x.Paced)
    (turn : x.Turn caller errand label after) : after.Paced := by
  cases turn with
  | quiet quiet =>
    have messages := messages_same quiet.log
    constructor
    · rw [quiet.secured, quiet.phase, messages]
      exact paced.unsecured
    · intro phase
      rw [quiet.phase] at phase
      exact quiet.proving_none (paced.waiting phase)
    · rw [quiet.phase, messages]
      exact paced.shaking
    · intro pending
      rw [messages]
      obtain ⟨nonce, member⟩ := Option.isSome_iff_exists.mp pending
      exact paced.proving (Option.isSome_iff_exists.mpr ⟨nonce, quiet.proving nonce member⟩)
    · rw [messages]
      exact paced.few
  | secured fresh log phase secured _ proving =>
    have one : after.messages.length ≤ 1 := by
      have none := (paced.unsecured fresh).2
      rcases log with log | log
      · rw [messages_same log, none]
        exact Nat.zero_le _
      · have wrote : after.messages = x.messages ++ [callerHello caller errand] := by
          simp [Exchange.messages, log, ExchangeEvent.message]
        rw [wrote, none]
        exact Nat.le_refl _
    constructor
    · intro unsecured
      rw [secured] at unsecured
      cases unsecured
    · rw [phase, proving]
      exact paced.waiting
    · exact fun _ => one
    · exact fun _ => one
    · omega
  | acknowledged accepts log secured _ next =>
    have same : after.messages = x.messages := by
      rw [messages_same log, messages_learn]
    have one := paced.shaking accepts.phase
    constructor
    · intro unsecured
      rw [secured, accepts.secured] at unsecured
      cases unsecured
    · intro phase
      rcases next with ⟨_, proving⟩ | ⟨later, _⟩
      · rw [proving]
        exact paced.waiting accepts.phase
      · rw [later] at phase
        cases phase
    · rw [same]
      exact fun _ => one
    · rw [same]
      exact fun _ => one
    · rw [same]
      exact paced.few
  | proved waiting log phase secured _ proving =>
    have one := paced.proving waiting
    have later := paced.proving_phase waiting
    constructor
    · intro unsecured
      rw [secured] at unsecured
      cases later.symm.trans (paced.unsecured unsecured).1
    · exact fun _ => proving
    · intro shaking
      rw [phase, later] at shaking
      cases shaking
    · intro pending
      rw [proving] at pending
      cases pending
    · rcases log with log | log
      · rw [messages_same log]
        exact paced.few
      · next signature _ =>
        have wrote : after.messages =
            x.messages ++ [callerProof caller signature, .task errand.task] := by
          simp [Exchange.messages, log, ExchangeEvent.message]
        rw [wrote, List.length_append, List.length_cons, List.length_singleton]
        omega

end P2PHub.NetworkLight
