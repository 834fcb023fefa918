import P2PHub.NetworkSendTask
import P2PHub.ServerConnectionAuth

/-!
# The frames that a server connection has taken

A connection takes the frames of its stream one after the other, each of them
once, and calls the task handler at most once for each task among them.
-/

namespace P2PHub.NetworkLight

open ConnectionEvent ConnectionLabel

/-- The values of the frames that the bytes of a stream hold. -/
def yields (bytes : List UInt8) : List JsValue :=
  (frameDecoder.drain collect [] bytes).state

theorem yields_frame {bytes rest : List UInt8} {value : JsValue}
    (decoded : tryDecodeFrame bytes = .ok (some (value, rest))) :
    yields bytes = value :: yields rest := by
  rw [yields, drain_frame decoded]
  rfl

theorem yields_error {bytes : List UInt8} {thrown : Thrown}
    (decoded : tryDecodeFrame bytes = .error thrown) : yields bytes = [] := by
  rw [yields, FrameDecoder.drain_fails decoded]

theorem tryDecodeFrame_lengthPrefixed {payload : List UInt8} (small : payload.length < 2 ^ 32)
    (rest : List UInt8) : tryDecodeFrame (lengthPrefixed payload ++ rest) =
      (decodeBody payload).map fun value => some (value, rest) := by
  have lengthEq := readUInt32BE_lengthPrefixed small rest
  have total : (lengthPrefixed payload ++ rest).length = 4 + payload.length + rest.length := by
    rw [List.length_append, lengthPrefixed_length]
  rw [tryDecodeFrame, if_neg (by omega), lengthEq, if_neg (by omega),
    framePayload_lengthPrefixed small, frameRest_lengthPrefixed small]

theorem yields_message_length (message : WireEnvelope) (rest : List UInt8) :
    (yields (message.bytes ++ rest)).length ≤ (yields rest).length + 1 := by
  unfold WireEnvelope.bytes
  split
  · next text _ =>
      split
      · next small =>
          have decoded := tryDecodeFrame_lengthPrefixed small rest
          cases body : decodeBody (Utf8.encode text.toList) with
          | error =>
            rw [body] at decoded
            rw [encodeFrame, yields_error decoded]
            exact Nat.zero_le _
          | ok =>
            rw [body] at decoded
            rw [encodeFrame, yields_frame decoded]
            exact Nat.le_refl _
      · exact Nat.le_succ _
  · exact Nat.le_succ _

theorem yields_length (messages : List WireEnvelope) :
    (yields (messages.flatMap WireEnvelope.bytes)).length ≤ messages.length := by
  induction messages with
  | nil => exact Nat.le_refl 0
  | cons message messages =>
    have first := yields_message_length message (messages.flatMap WireEnvelope.bytes)
    rw [List.flatMap_cons, List.length_cons]
    omega

variable {world : Surroundings} {c : Connection} {arrived : List UInt8} {message : WireEnvelope}
  {after : Connection} {value : JsValue} {rest : List UInt8}

def ConnectionEvent.isReceived : ConnectionEvent → Bool
  | received _ => true
  | _ => false

def ConnectionEvent.isTask : ConnectionEvent → Bool
  | received (.task _) => true
  | _ => false

def ConnectionEvent.called : ConnectionEvent → Option TaskBody
  | taskCalled _ task => some task
  | _ => none

def Connection.calls (c : Connection) : List TaskBody :=
  c.log.filterMap called

/-- The frames taken so far and those that the buffer still holds are those of
the bytes that have arrived, whatever comes next. -/
structure Accounts (arrived : List UInt8) (c : Connection) : Prop where
  frames : ∃ taken : List JsValue, c.log.countP isReceived ≤ taken.length ∧
    ∀ more, yields (arrived ++ more) = taken ++ yields (c.buffer ++ more)
  calls : c.calls.length ≤ c.log.countP isTask

/-- What the handling of a frame adds to the log: no other frame, and a call of
the task handler for a task only. -/
def Emits (message : WireEnvelope) (c after : Connection) : Prop :=
  ∃ emitted : List ConnectionEvent, after.log = emitted ++ c.log ∧
    (∀ event ∈ emitted, event.isReceived = false) ∧
    (emitted.filterMap called).length ≤ [received message].countP isTask

theorem emits_nothing (same : after.log = c.log) : Emits message c after := by
  refine ⟨[], same, ?_, Nat.zero_le _⟩
  intro event member
  cases member

theorem emits_one {event : ConnectionEvent}
    (logged : after.log = event :: c.log) (notReceived : event.isReceived = false)
    (notCalled : event.called = none) : Emits message c after := by
  refine ⟨[event], logged, ?_, ?_⟩
  · intro other member
    rw [List.mem_singleton.mp member]
    exact notReceived
  · rw [List.filterMap_cons, notCalled]
    exact Nat.zero_le _

theorem handleAuth_emits (binding : IdentityBinding) :
    Emits (.auth binding) c (handleAuth world binding c).1 := by
  unfold handleAuth
  split_ifs
  · exact emits_nothing rfl
  · exact emits_nothing rfl
  · refine ⟨[.registered _, .verified binding], rfl, ?_, Nat.zero_le _⟩
    intro event member
    rcases List.mem_pair.mp member with rfl | rfl <;> rfl
  · exact emits_nothing rfl

theorem handleTask_emits (task : TaskBody) : Emits (.task task) c (handleTask world task c).1 := by
  unfold handleTask
  split
  · exact emits_nothing rfl
  · next peerId _ =>
      split_ifs
      · exact emits_nothing rfl
      · exact emits_one rfl rfl rfl
      · unfold handleMessage
        split
        · refine ⟨[.taskCalled peerId task], rfl, ?_, Nat.le_refl _⟩
          intro event member
          rw [List.mem_singleton.mp member]
          rfl
        · exact emits_nothing rfl

theorem handleSubReq_emits (body : SubReqBody) :
    Emits (.subReq body) c (handleSubReq world body c).1 := by
  unfold handleSubReq handleSubReqMessage
  split
  · exact emits_nothing rfl
  · split_ifs
    · exact emits_nothing rfl
    · exact emits_one rfl rfl rfl
    · dsimp only
      split <;> exact emits_one rfl rfl rfl

theorem handleEventEmit_emits (body : EventEmitBody) :
    Emits (.eventEmit body) c (handleEventEmit world body c).1 := by
  unfold handleEventEmit handleEventEmitMessage
  split
  · exact emits_nothing rfl
  · split_ifs
    · exact emits_nothing rfl
    · split
      · exact emits_nothing rfl
      · exact emits_one rfl rfl rfl
      · exact emits_one rfl rfl rfl

theorem handleEnvelope_emits (message : WireEnvelope) :
    Emits message c (handleEnvelope world message c).1 := by
  unfold handleEnvelope
  split
  · split
    · unfold acceptHello
      split_ifs
      · exact emits_nothing rfl
      · exact emits_nothing rfl
      · exact emits_one rfl rfl rfl
    · exact emits_nothing rfl
  · split
    · exact handleAuth_emits _
    · exact handleSubReq_emits _
    · exact handleEventEmit_emits _
    · exact handleTask_emits _
    · exact emits_nothing rfl

theorem accounts_initial : Accounts [] Connection.initial where
  frames := ⟨[], Nat.le_refl 0, fun _ => rfl⟩
  calls := Nat.le_refl 0

section

variable (accounts : Accounts arrived c)
include accounts

theorem Accounts.destroy : Accounts arrived c.destroy :=
  ⟨accounts.frames, accounts.calls⟩

theorem Accounts.data (chunk : List UInt8) :
    Accounts (arrived ++ chunk) (c.withBuffer (c.buffer ++ chunk)) := by
  obtain ⟨taken, received, yielded⟩ := accounts.frames
  refine ⟨⟨taken, received, fun more => ?_⟩, accounts.calls⟩
  have later := yielded (chunk ++ more)
  rwa [← List.append_assoc, ← List.append_assoc] at later

theorem Accounts.take (decoded : tryDecodeFrame c.buffer = .ok (some (value, rest))) :
    ∃ taken : List JsValue, c.log.countP isReceived + 1 ≤ taken.length ∧
      ∀ more, yields (arrived ++ more) = taken ++ yields (rest ++ more) := by
  obtain ⟨taken, received, yielded⟩ := accounts.frames
  refine ⟨taken ++ [value], ?_, fun more => ?_⟩
  · rw [List.length_append, List.length_singleton]
    omega
  · rw [yielded, yields_frame (frameDecoder.decode_append more decoded), List.append_assoc]
    rfl

theorem Accounts.handle
    (decoded : tryDecodeFrame c.buffer = .ok (some (value, rest))) : Accounts arrived
      (handleEnvelope world message ((c.withBuffer rest).receive message)).1 := by
  obtain ⟨taken, received, yielded⟩ := accounts.take decoded
  have buffer : (handleEnvelope world message
      ((c.withBuffer rest).receive message)).1.buffer = rest := handleEnvelope_buffer message
  have emits : Emits message ((c.withBuffer rest).receive message)
      (handleEnvelope world message ((c.withBuffer rest).receive message)).1 :=
    handleEnvelope_emits message
  obtain ⟨emitted, logEq, unreceived, called⟩ := emits
  have log : (handleEnvelope world message ((c.withBuffer rest).receive message)).1.log =
      emitted ++ ([.received message] ++ c.log) := logEq
  constructor
  · refine ⟨taken, ?_, ?_⟩
    · have none : emitted.countP ConnectionEvent.isReceived = 0 :=
        List.countP_eq_zero.mpr fun event member => by simp [unreceived event member]
      have one : [ConnectionEvent.received message].countP ConnectionEvent.isReceived = 1 := rfl
      rw [log, List.countP_append, List.countP_append, none, one]
      omega
    · intro more
      rw [yielded, buffer]
  · have earlier : (c.log.filterMap ConnectionEvent.called).length ≤
        c.log.countP ConnectionEvent.isTask := accounts.calls
    have nothing : [ConnectionEvent.received message].filterMap ConnectionEvent.called = [] := rfl
    rw [Connection.calls, log, List.filterMap_append, List.filterMap_append, nothing,
      List.nil_append, List.length_append, List.countP_append, List.countP_append]
    omega

theorem Accounts.unreadable (decoded : tryDecodeFrame c.buffer = .ok (some (value, rest))) :
    Accounts arrived (c.withBuffer rest).destroy := by
  obtain ⟨taken, received, yielded⟩ := accounts.take decoded
  exact ⟨⟨taken, Nat.le_of_succ_le received, yielded⟩, accounts.calls⟩

theorem Accounts.serve {fuel : Nat} : Accounts arrived (serve world fuel c) := by
  induction fuel generalizing c with
  | zero => exact accounts
  | succ fuel ih =>
    unfold NetworkLight.serve
    split
    · exact accounts.destroy
    · exact accounts
    · next rest decoded =>
        split
        · exact accounts.unreadable decoded
        · next message _ =>
            have handled : Accounts arrived
                (handleEnvelope world message ((c.withBuffer rest).receive message)).1 :=
              accounts.handle decoded
            split
            · next after went =>
                rw [went] at handled
                exact ih handled
            · next after _ _ went =>
                rw [went] at handled
                exact handled

theorem Accounts.resume (signature : String) : Accounts arrived (c.resume world signature) :=
  ⟨accounts.frames, accounts.calls⟩

end

/-- The bytes that a turn adds to those that have arrived. -/
def ConnectionLabel.chunk : ConnectionLabel → List UInt8
  | data chunk => chunk
  | _ => []

theorem Accounts.step {label : ConnectionLabel} {outputs : List Unit}
    (accounts : Accounts arrived c)
    (stepped : connectionStep world c label = some (after, outputs)) :
    Accounts (arrived ++ label.chunk) after := by
  cases label with
  | data chunk =>
    obtain ⟨rfl, _⟩ : _ ∧ _ := by simpa [connectionStep] using stepped
    exact (accounts.data chunk).serve
  | signed signature =>
    simp only [connectionStep, Option.ite_none_left_eq_some, Option.some.injEq, Prod.mk.injEq]
      at stepped
    obtain ⟨_, rfl, _⟩ := stepped
    simp only [chunk, List.append_nil]
    exact (accounts.resume signature).serve
  | signingFailed =>
    simp only [connectionStep, Option.ite_none_left_eq_some, Option.some.injEq, Prod.mk.injEq]
      at stepped
    obtain ⟨_, rfl, _⟩ := stepped
    simp only [chunk, List.append_nil]
    exact ⟨accounts.frames, accounts.calls⟩
  | closed =>
    cases stepped
    simp only [chunk, List.append_nil]
    exact accounts.destroy

/-- A connection has not taken more frames than the bytes of its stream
hold. -/
theorem Accounts.received_le (accounts : Accounts arrived c) {stream : List UInt8}
    (arrivedFrom : arrived <+: stream) : c.log.countP isReceived ≤ (yields stream).length := by
  obtain ⟨taken, received, yielded⟩ := accounts.frames
  obtain ⟨more, rfl⟩ := arrivedFrom
  rw [yielded, List.length_append]
  omega

theorem countP_isTask_le (log : List ConnectionEvent) :
    log.countP isTask ≤ log.countP isReceived := by
  apply List.countP_mono_left
  intro event _ task
  cases event with
  | received => rfl
  | _ => cases task

/-- A connection that called its task handler has taken a hello and an auth, in
addition to the tasks. -/
theorem countP_handshake (sound : Sound world c.log) (called : c.calls ≠ []) :
    c.log.countP isTask + 2 ≤ c.log.countP isReceived := by
  obtain ⟨task, member⟩ := List.exists_mem_of_ne_nil _ called
  obtain ⟨event, logged, isCall⟩ := List.mem_filterMap.mp member
  obtain ⟨after, older, log⟩ := List.append_of_mem logged
  rw [log] at sound ⊢
  cases event with
  | taskCalled peerId =>
    obtain ⟨authentication, _⟩ := sound.split.1 peerId rfl
    have afterLe := countP_isTask_le after
    have laterLe := countP_isTask_le authentication.later
    have betweenLe := countP_isTask_le authentication.between
    rw [authentication.log_eq]
    simp only [List.countP_append, List.countP_cons, List.countP_nil, greeting,
      isTask, isReceived, Bool.false_eq_true, if_false, if_true]
    omega
  | _ => cases isCall

/-- A stream of at most three messages has the task handler called at most
once. -/
theorem calls_length_le_one (inv : Inv world c) (accounts : Accounts arrived c)
    {messages : List WireEnvelope} (few : messages.length ≤ 3)
    (arrivedFrom : arrived <+: messages.flatMap WireEnvelope.bytes) : c.calls.length ≤ 1 := by
  by_cases called : c.calls = []
  · rw [called]
    exact Nat.zero_le 1
  · have handshake := countP_handshake inv.sound called
    have received := accounts.received_le arrivedFrom
    have yielded := yields_length messages
    have calls := accounts.calls
    omega

end P2PHub.NetworkLight
