import P2PHub.IPCSocketTransport

/-!
# What the message handler sees

The messages of a byte stream up to the first one at which the handler closes
the channel or throws, and what the transport makes of the stream when it
arrives in pieces.  The decode loop does not look at the channel between two
frames, so it goes on after the handler has closed it.
-/

namespace P2PHub.IPCSocketTransport

open FrameDecoder

/-- Why no further message of a stream reaches the handler. -/
inductive Stop
  | failed (failure : IPCFailure)
  | closed
  | threw (closes : Bool) (thrown : Thrown)

section

def nextMessage (maxFrameBytes : Nat) (bytes : List UInt8) :
    Except Stop (Option (IPCMessageEnvelope × List UInt8)) :=
  match tryDecodeFrame maxFrameBytes bytes with
  | .error failure => .error (.failed failure)
  | .ok none => .ok none
  | .ok (some (payload, rest)) =>
    match parsePayload payload with
    | .error failure => .error (.failed failure)
    | .ok message => .ok (some (message, rest))

/-- Hand a message to the handler after those before it. -/
def takeMessage (handler : IPCMessageHandler) (messages : List IPCMessageEnvelope)
    (message : IPCMessageEnvelope) : List IPCMessageEnvelope × Option Stop :=
  let reaction := handler messages message
  (messages ++ [message], match reaction.throws with
    | some thrown => some (.threw reaction.closes thrown)
    | none => if reaction.closes then some .closed else none)

variable {maxFrameBytes : Nat} {buffer more rest : List UInt8}

theorem tryDecodeFrame_cases (maxFrameBytes : Nat) (buffer : List UInt8) :
    (tryDecodeFrame maxFrameBytes buffer = .ok none) ∨
    (∃ failure, ∀ more, tryDecodeFrame maxFrameBytes (buffer ++ more) = .error failure) ∨
    (4 + readUInt32BE buffer ≤ buffer.length ∧
      ∀ more, tryDecodeFrame maxFrameBytes (buffer ++ more) =
        .ok (some (framePayload buffer, frameRest buffer ++ more))) := by
  unfold tryDecodeFrame ipcFrameHeaderBytes
  by_cases header : buffer.length < 4
  · exact .inl (if_pos header)
  · have lengthEq := readUInt32BE_append (not_lt.mp header)
    have headerMore : ∀ more, ¬(buffer ++ more).length < 4 := by
      intro more
      rw [List.length_append]
      omega
    by_cases large : readUInt32BE buffer > maxFrameBytes
    · refine .inr (.inl ⟨frameTooLarge (readUInt32BE buffer) maxFrameBytes, fun more => ?_⟩)
      rw [if_neg (headerMore more), lengthEq more, if_pos large]
    · by_cases incomplete : buffer.length < 4 + readUInt32BE buffer
      · exact .inl (by rw [if_neg header, if_neg large, if_pos incomplete])
      · refine .inr (.inr ⟨not_lt.mp incomplete, fun more => ?_⟩)
        have completeMore : ¬(buffer ++ more).length < 4 + readUInt32BE buffer := by
          rw [List.length_append]
          omega
        rw [if_neg (headerMore more), lengthEq more, if_neg large, if_neg completeMore,
          framePayload_append (not_lt.mp incomplete), frameRest_append (not_lt.mp incomplete)]

theorem nextMessage_cases (maxFrameBytes : Nat) (bytes : List UInt8) :
    (tryDecodeFrame maxFrameBytes bytes = .ok none ∧ nextMessage maxFrameBytes bytes = .ok none) ∨
    (∃ failure, tryDecodeFrame maxFrameBytes bytes = .error failure ∧
      ∀ more, nextMessage maxFrameBytes (bytes ++ more) = .error (.failed failure)) ∨
    (∃ failure, tryDecodeFrame maxFrameBytes bytes =
        .ok (some (framePayload bytes, frameRest bytes)) ∧
      parsePayload (framePayload bytes) = .error failure ∧
      ∀ more, nextMessage maxFrameBytes (bytes ++ more) = .error (.failed failure)) ∨
    (∃ message, tryDecodeFrame maxFrameBytes bytes =
        .ok (some (framePayload bytes, frameRest bytes)) ∧
      parsePayload (framePayload bytes) = .ok message ∧ (frameRest bytes).length < bytes.length ∧
      ∀ more, nextMessage maxFrameBytes (bytes ++ more) =
        .ok (some (message, frameRest bytes ++ more))) := by
  rcases tryDecodeFrame_cases maxFrameBytes bytes with none | ⟨failure, fails⟩ | ⟨complete, decodes⟩
  · exact .inl ⟨none, by rw [nextMessage, none]⟩
  · refine .inr (.inl ⟨failure, ?_, fun more => by rw [nextMessage, fails more]⟩)
    simpa using fails []
  · have decodesHere : tryDecodeFrame maxFrameBytes bytes =
        .ok (some (framePayload bytes, frameRest bytes)) := by
      simpa using decodes []
    cases parsed : parsePayload (framePayload bytes) with
    | error failure =>
      refine .inr (.inr (.inl ⟨failure, decodesHere, rfl, fun more => ?_⟩))
      simp only [nextMessage, decodes more, parsed]
    | ok message =>
      refine .inr (.inr (.inr ⟨message, decodesHere, rfl, frameRest_length complete,
        fun more => ?_⟩))
      simp only [nextMessage, decodes more, parsed]

def messageDecoder (maxFrameBytes : Nat) : FrameDecoder UInt8 IPCMessageEnvelope Stop where
  decode := nextMessage maxFrameBytes
  consumes := by
    intro bytes message rest decoded
    rcases nextMessage_cases maxFrameBytes bytes with ⟨_, none⟩ | ⟨failure, _, fails⟩ |
      ⟨failure, _, _, fails⟩ | ⟨other, _, _, shorter, decodes⟩
    · cases none.symm.trans decoded
    · rw [← List.append_nil bytes, fails] at decoded
      cases decoded
    · rw [← List.append_nil bytes, fails] at decoded
      cases decoded
    · have decodesHere := decodes []
      rw [List.append_nil, List.append_nil, decoded] at decodesHere
      obtain ⟨rfl, rfl⟩ : message = other ∧ rest = frameRest bytes := by simpa using decodesHere
      exact shorter
  decode_append := by
    intro bytes message rest more decoded
    rcases nextMessage_cases maxFrameBytes bytes with ⟨_, none⟩ | ⟨failure, _, fails⟩ |
      ⟨failure, _, _, fails⟩ | ⟨other, _, _, _, decodes⟩
    · cases none.symm.trans decoded
    · rw [← List.append_nil bytes, fails] at decoded
      cases decoded
    · rw [← List.append_nil bytes, fails] at decoded
      cases decoded
    · have decodesHere := decodes []
      rw [List.append_nil, List.append_nil, decoded] at decodesHere
      obtain ⟨rfl, rfl⟩ : message = other ∧ rest = frameRest bytes := by simpa using decodesHere
      exact decodes more
  fails_append := by
    intro bytes stop more decoded
    rcases nextMessage_cases maxFrameBytes bytes with ⟨_, none⟩ | ⟨failure, _, fails⟩ |
      ⟨failure, _, _, fails⟩ | ⟨other, _, _, _, decodes⟩
    · cases none.symm.trans decoded
    · exact ⟨_, fails more⟩
    · exact ⟨_, fails more⟩
    · rw [← List.append_nil bytes, decodes] at decoded
      cases decoded

theorem nextMessage_stable (bytes more : List UInt8) (stop : Stop)
    (decoded : (messageDecoder maxFrameBytes).decode bytes = .error stop) :
    (messageDecoder maxFrameBytes).decode (bytes ++ more) = .error stop := by
  have answered : nextMessage maxFrameBytes bytes = .error stop := decoded
  rcases nextMessage_cases maxFrameBytes bytes with ⟨_, none⟩ | ⟨failure, _, fails⟩ |
    ⟨failure, _, _, fails⟩ | ⟨other, _, _, _, decodes⟩
  · cases none.symm.trans answered
  · rw [← answered, ← List.append_nil bytes, fails []]
    exact (List.append_nil bytes).symm ▸ fails more
  · rw [← answered, ← List.append_nil bytes, fails []]
    exact (List.append_nil bytes).symm ▸ fails more
  · rw [← List.append_nil bytes, decodes] at answered
    cases answered

/-- The messages of a stream for the handler, what is left of the stream, and
why it goes no further. -/
def delivery (maxFrameBytes : Nat) (handler : IPCMessageHandler) (bytes : List UInt8) :
    Drained UInt8 (List IPCMessageEnvelope) Stop :=
  (messageDecoder maxFrameBytes).drain (takeMessage handler) [] bytes

end

def reportedErrors : Option Stop → List IPCFailure
  | some (.failed failure) => [failure]
  | some (.threw false thrown) => (failureOf thrown).toList
  | _ => []

def closesChannel : Option Stop → Bool
  | none => false
  | some (.failed _) => true
  | some .closed => true
  | some (.threw closes thrown) => closes || (failureOf thrown).isSome

/-- The handlers have seen what the stream holds and no message after the
channel was closed. -/
structure DeliversStream (handler : IPCMessageHandler) (bytes : List UInt8)
    (transport : IPCSocketTransport) : Prop where
  messages : transport.messages = (delivery transport.maxFrameBytes handler bytes).state
  whileOpen : ∀ dispatch ∈ transport.dispatched, dispatch.closed = false
  errors : transport.errors =
    reportedErrors (delivery transport.maxFrameBytes handler bytes).stopped
  closed : transport.closed = closesChannel (delivery transport.maxFrameBytes handler bytes).stopped

def receive (maxFrameBytes : Nat) (handler : IPCMessageHandler) (chunks : List (List UInt8)) :
    IPCSocketTransport :=
  chunks.foldl (onData handler) { maxFrameBytes := maxFrameBytes }

/-- What has arrived behind the frame at which the handler closes the channel,
when that frame is complete. -/
def lateBytes (maxFrameBytes : Nat) (handler : IPCMessageHandler) (before : List UInt8) :
    List (List UInt8) → List UInt8
  | [] => []
  | chunk :: chunks =>
    let arrived := delivery maxFrameBytes handler (before ++ chunk)
    match arrived.stopped with
    | some .closed => arrived.rest
    | _ => lateBytes maxFrameBytes handler (before ++ chunk) chunks

def holdsMessage (maxFrameBytes : Nat) (bytes : List UInt8) : Bool :=
  match nextMessage maxFrameBytes bytes with
  | .ok (some _) => true
  | _ => false

section

variable {handler : IPCMessageHandler} {transport : IPCSocketTransport} {fuel : Nat}

/-- The transport after it has handed over messages and kept the rest. -/
def advanced (transport : IPCSocketTransport) (messages : List IPCMessageEnvelope)
    (rest : List UInt8) : IPCSocketTransport :=
  { transport with
    buffer := rest
    dispatched := transport.dispatched ++ messages.map (⟨·, false⟩) }

theorem advanced_messages (messages : List IPCMessageEnvelope) (rest : List UInt8) :
    (transport.advanced messages rest).messages = transport.messages ++ messages := by
  simp [advanced, IPCSocketTransport.messages, Function.comp_def]

theorem advanced_advanced (first second : List IPCMessageEnvelope) (rest last : List UInt8) :
    (transport.advanced first rest).advanced second last =
      transport.advanced (first ++ second) last := by
  simp [advanced]

/-- How the decode loop ends, for each way in which the stream ends. -/
def LoopEnds (handler : IPCMessageHandler) (transport : IPCSocketTransport)
    (messages : List IPCMessageEnvelope) (rest : List UInt8) :
    Option Stop → IPCSocketTransport → Prop
  | none, last => last = transport.advanced messages rest
  | some (.failed failure), last =>
    ∃ kept, last = fail failure (transport.advanced messages kept)
  | some .closed, last =>
    ∃ fuel, rest.length < fuel ∧
      last = decodeLoop handler fuel (transport.advanced messages rest).close
  | some (.threw false thrown), last => last = caught thrown (transport.advanced messages rest)
  | some (.threw true thrown), last =>
    last = caught thrown (transport.advanced messages rest).close

theorem LoopEnds.after {first later : List IPCMessageEnvelope} {middle rest : List UInt8}
    {stop : Option Stop} {last : IPCSocketTransport}
    (ends : LoopEnds handler (transport.advanced first middle) later rest stop last) :
    LoopEnds handler transport (first ++ later) rest stop last := by
  cases stop with
  | none => simpa only [LoopEnds, advanced_advanced] using ends
  | some stop =>
    cases stop with
    | failed | closed => simpa only [LoopEnds, advanced_advanced] using ends
    | threw closes =>
      cases closes <;> simpa only [LoopEnds, advanced_advanced] using ends

theorem LoopEnds.forget_buffer {messages : List IPCMessageEnvelope} {buffer rest : List UInt8}
    {stop : Option Stop} {last : IPCSocketTransport}
    (ends : LoopEnds handler { transport with buffer := buffer } messages rest stop last) :
    LoopEnds handler transport messages rest stop last := by
  cases stop with
  | none => exact ends
  | some stop =>
    cases stop with
    | failed | closed => exact ends
    | threw closes => cases closes <;> exact ends

theorem decodeLoop_ends (handler : IPCMessageHandler) (openChannel : transport.closed = false)
    (enough : transport.buffer.length < fuel) : ∃ messages,
      ((messageDecoder transport.maxFrameBytes).drain (takeMessage handler) transport.messages
        transport.buffer).state = transport.messages ++ messages ∧
      LoopEnds handler transport messages
        ((messageDecoder transport.maxFrameBytes).drain (takeMessage handler) transport.messages
          transport.buffer).rest
        ((messageDecoder transport.maxFrameBytes).drain (takeMessage handler) transport.messages
          transport.buffer).stopped (decodeLoop handler fuel transport) := by
  induction fuel generalizing transport with
  | zero => cases enough
  | succ fuel ih =>
    have selfEq (rest : List UInt8) :
        transport.advanced [] rest = { transport with buffer := rest } := by
      simp [advanced]
    rcases nextMessage_cases transport.maxFrameBytes transport.buffer with ⟨framed, none⟩ |
      ⟨failure, framed, fails⟩ | ⟨failure, framed, parsed, fails⟩ |
      ⟨message, framed, parsed, shorter, decodes⟩
    · rw [drain_more none, decodeLoop, framed]
      exact ⟨[], (List.append_nil _).symm, (selfEq _).symm⟩
    · have failed := fails []
      rw [List.append_nil] at failed
      rw [drain_fails failed, decodeLoop, framed]
      exact ⟨[], (List.append_nil _).symm, transport.buffer, by rw [selfEq]⟩
    · have failed := fails []
      rw [List.append_nil] at failed
      rw [drain_fails failed, decodeLoop, framed]
      simp only [parsed]
      exact ⟨[], (List.append_nil _).symm, frameRest transport.buffer, by rw [selfEq]⟩
    · have decoded := decodes []
      rw [List.append_nil, List.append_nil] at decoded
      have handed : handleMessage handler message
          { transport with buffer := frameRest transport.buffer } =
            (if (handler transport.messages message).closes then
              (transport.advanced [message] (frameRest transport.buffer)).close
            else transport.advanced [message] (frameRest transport.buffer),
            (handler transport.messages message).throws) := by
        simp [handleMessage, advanced, openChannel, IPCSocketTransport.messages]
      rw [decodeLoop, framed]
      simp only [parsed, handed]
      cases thrownEq : (handler transport.messages message).throws with
      | some thrown =>
        have taken : takeMessage handler transport.messages message =
            (transport.messages ++ [message],
              some (.threw (handler transport.messages message).closes thrown)) := by
          simp only [takeMessage, thrownEq]
        rw [drain_stops decoded taken]
        refine ⟨[message], rfl, ?_⟩
        cases (handler transport.messages message).closes <;> rfl
      | none =>
        cases closesEq : (handler transport.messages message).closes with
        | true =>
          have taken : takeMessage handler transport.messages message =
              (transport.messages ++ [message], some .closed) := by
            simp only [takeMessage, thrownEq, closesEq, if_true]
          rw [drain_stops decoded taken]
          exact ⟨[message], rfl, fuel, Nat.lt_of_lt_of_le shorter (Nat.lt_succ_iff.mp enough), rfl⟩
        | false =>
          have taken : takeMessage handler transport.messages message =
              (transport.messages ++ [message], none) := by
            simp only [takeMessage, thrownEq, closesEq, Bool.false_eq_true, if_false]
          rw [drain_continues decoded taken]
          have later : (transport.advanced [message] (frameRest transport.buffer)).buffer.length <
              fuel := by
            show (frameRest transport.buffer).length < fuel
            omega
          have stillOpen :
              (transport.advanced [message] (frameRest transport.buffer)).closed = false :=
            openChannel
          obtain ⟨messages, stateEq, ends⟩ := ih stillOpen later
          rw [advanced_messages] at stateEq ends
          refine ⟨message :: messages, ?_, ends.after⟩
          rw [show message :: messages = [message] ++ messages from rfl, ← List.append_assoc]
          exact stateEq

theorem close_dispatched : transport.close.dispatched = transport.dispatched := by
  unfold close
  split <;> rfl

theorem fail_dispatched (failure : IPCFailure) :
    (fail failure transport).dispatched = transport.dispatched := by
  unfold fail
  split <;> rfl

theorem caught_dispatched (thrown : Thrown) :
    (caught thrown transport).dispatched = transport.dispatched := by
  unfold caught
  split
  · exact fail_dispatched _
  · rfl

theorem handleMessage_dispatched (handler : IPCMessageHandler) (message : IPCMessageEnvelope)
    (transport : IPCSocketTransport) : (handleMessage handler message transport).1.dispatched =
      transport.dispatched ++ [⟨message, transport.closed⟩] := by
  unfold handleMessage
  dsimp only
  split
  · exact close_dispatched
  · rfl

theorem decodeLoop_dispatched (handler : IPCMessageHandler) (fuel : Nat)
    (transport : IPCSocketTransport) :
    transport.dispatched <+: (decodeLoop handler fuel transport).dispatched := by
  induction fuel generalizing transport with
  | zero => exact List.prefix_refl _
  | succ fuel ih =>
    rw [decodeLoop]
    split
    · simp only [fail_dispatched, List.prefix_refl]
    · exact List.prefix_refl _
    · next payload rest framed =>
        dsimp only
        split
        · simp only [fail_dispatched, List.prefix_refl]
        · next message parsed =>
            have handed := handleMessage_dispatched handler message
              { transport with buffer := rest }
            split
            · next after thrown handledEq =>
                rw [handledEq] at handed
                rw [caught_dispatched, handed]
                exact List.prefix_append _ _
            · next after handledEq =>
                rw [handledEq] at handed
                refine List.IsPrefix.trans ?_ (ih after)
                rw [handed]
                exact List.prefix_append _ _

/-- On a closed channel the loop does nothing to the handlers when the next
bytes are no message. -/
theorem decodeLoop_silent (handler : IPCMessageHandler) (fuel : Nat)
    (transport : IPCSocketTransport) (closed : transport.closed)
    (silent : holdsMessage transport.maxFrameBytes transport.buffer = false) :
    ∃ rest, decodeLoop handler fuel transport = { transport with buffer := rest } := by
  cases fuel with
  | zero => exact ⟨transport.buffer, rfl⟩
  | succ =>
    have failsSilently (failure : IPCFailure) (kept : List UInt8) :
        fail failure { transport with buffer := kept } = { transport with buffer := kept } := by
      rw [fail, if_pos closed]
    rcases nextMessage_cases transport.maxFrameBytes transport.buffer with ⟨framed, _⟩ |
      ⟨failure, framed, _⟩ | ⟨failure, framed, parsed, _⟩ | ⟨message, _, _, _, decodes⟩
    · exact ⟨transport.buffer, by rw [decodeLoop, framed]⟩
    · refine ⟨transport.buffer, ?_⟩
      rw [decodeLoop, framed]
      exact failsSilently failure transport.buffer
    · refine ⟨frameRest transport.buffer, ?_⟩
      rw [decodeLoop, framed]
      simp only [parsed]
      exact failsSilently failure (frameRest transport.buffer)
    · have decoded := decodes []
      rw [List.append_nil] at decoded
      simp [holdsMessage, decoded] at silent

theorem decodeLoop_late (handler : IPCMessageHandler) (closed : transport.closed)
    (enough : transport.buffer.length < fuel)
    (late : holdsMessage transport.maxFrameBytes transport.buffer) :
    ∃ dispatch ∈ (decodeLoop handler fuel transport).dispatched, dispatch.closed := by
  cases fuel with
  | zero => cases enough
  | succ fuel =>
    rcases nextMessage_cases transport.maxFrameBytes transport.buffer with ⟨_, none⟩ |
      ⟨failure, _, fails⟩ | ⟨failure, _, _, fails⟩ | ⟨message, framed, parsed, _, _⟩
    · simp [holdsMessage, none] at late
    · have failed := fails []
      rw [List.append_nil] at failed
      simp [holdsMessage, failed] at late
    · have failed := fails []
      rw [List.append_nil] at failed
      simp [holdsMessage, failed] at late
    · rw [decodeLoop, framed]
      simp only [parsed]
      have handed := handleMessage_dispatched handler message
        { transport with buffer := frameRest transport.buffer }
      refine ⟨⟨message, transport.closed⟩, ?_, closed⟩
      split
      · next after thrown handledEq =>
          rw [handledEq] at handed
          rw [caught_dispatched, handed]
          simp
      · next after handledEq =>
          rw [handledEq] at handed
          apply (decodeLoop_dispatched handler fuel after).subset
          rw [handed]
          simp

/-- A transport whose stream has stopped: the handlers have seen what they
should, and nothing more will come. -/
structure Settled (before : IPCSocketTransport) (messages : List IPCMessageEnvelope) (stop : Stop)
    (last : IPCSocketTransport) : Prop where
  limit : last.maxFrameBytes = before.maxFrameBytes
  dispatched : last.dispatched = before.dispatched ++ messages.map (⟨·, false⟩)
  errors : last.errors = before.errors ++ reportedErrors (some stop)
  closed : last.closed = closesChannel (some stop)
  silent : last.closed = true ∨ last.ended = true

variable {messages : List IPCMessageEnvelope} {rest : List UInt8} {last : IPCSocketTransport}

theorem settled_failed (openChannel : transport.closed = false) {failure : IPCFailure}
    (ends : LoopEnds handler transport messages rest (some (.failed failure)) last) :
    Settled transport messages (.failed failure) last := by
  obtain ⟨kept, rfl⟩ := ends
  have failed : fail failure (transport.advanced messages kept) =
      { transport.advanced messages kept with
        closed := true
        errors := transport.errors ++ [failure]
        closings := transport.closings + 1 } :=
    if_neg (by simp [advanced, openChannel])
  rw [failed]
  exact ⟨rfl, rfl, rfl, rfl, .inl rfl⟩

theorem settled_threw (openChannel : transport.closed = false) {closes : Bool} {thrown : Thrown}
    (ends : LoopEnds handler transport messages rest (some (.threw closes thrown)) last) :
    Settled transport messages (.threw closes thrown) last := by
  have notClosed : ¬(transport.advanced messages rest).closed := by
    simp [advanced, openChannel]
  cases closes with
  | false =>
    obtain rfl : last = caught thrown (transport.advanced messages rest) := ends
    unfold caught
    cases failureEq : failureOf thrown with
    | none =>
      refine ⟨rfl, rfl, ?_, ?_, .inr rfl⟩
      · simp [reportedErrors, failureEq, advanced]
      · simp [closesChannel, failureEq, advanced, openChannel]
    | some =>
      dsimp only
      rw [fail, if_neg notClosed]
      refine ⟨rfl, rfl, ?_, ?_, .inl rfl⟩
      · simp [reportedErrors, failureEq, advanced]
      · simp [closesChannel, failureEq]
  | true =>
    obtain rfl : last = caught thrown (transport.advanced messages rest).close := ends
    unfold caught close
    rw [if_neg notClosed]
    cases failureEq : failureOf thrown with
    | none | some => exact ⟨rfl, rfl, (List.append_nil _).symm, rfl, .inl rfl⟩

theorem settled_closed (openChannel : transport.closed = false)
    (ends : LoopEnds handler transport messages rest (some .closed) last)
    (silent : holdsMessage transport.maxFrameBytes rest = false) :
    Settled transport messages .closed last := by
  obtain ⟨fuel, _, rfl⟩ := ends
  have closeEq : (transport.advanced messages rest).close = { transport.advanced messages rest with
        closed := true
        closings := transport.closings + 1 } :=
    if_neg (by simp [advanced, openChannel])
  rw [closeEq]
  obtain ⟨kept, lastEq⟩ := decodeLoop_silent handler fuel { transport.advanced messages rest with
      closed := true
      closings := transport.closings + 1 } rfl silent
  rw [lastEq]
  exact ⟨rfl, rfl, (List.append_nil _).symm, rfl, .inl rfl⟩

theorem LoopEnds.late (ends : LoopEnds handler transport messages rest (some .closed) last)
    (late : holdsMessage transport.maxFrameBytes rest) :
    ∃ dispatch ∈ last.dispatched, dispatch.closed := by
  obtain ⟨fuel, enough, rfl⟩ := ends
  have bufferEq : (transport.advanced messages rest).close.buffer = rest := by
    unfold close
    split <;> rfl
  have limitEq : (transport.advanced messages rest).close.maxFrameBytes =
      transport.maxFrameBytes := by
    unfold close
    split <;> rfl
  exact decodeLoop_late handler close_closed (by rwa [bufferEq]) (by rwa [bufferEq, limitEq])

end

section

variable {maxFrameBytes : Nat} {handler : IPCMessageHandler} {before chunk : List UInt8}
variable {transport : IPCSocketTransport} {messages : List IPCMessageEnvelope}
  {last : IPCSocketTransport}

/-- An open channel that has handed over every message of what came before and
waits for the rest of a frame. -/
structure Waiting (maxFrameBytes : Nat) (handler : IPCMessageHandler) (before : List UInt8)
    (transport : IPCSocketTransport) : Prop where
  limit : transport.maxFrameBytes = maxFrameBytes
  openChannel : transport.closed = false
  running : transport.ended = false
  drained : delivery maxFrameBytes handler before = ⟨transport.messages, transport.buffer, none⟩
  whileOpen : ∀ dispatch ∈ transport.dispatched, dispatch.closed = false
  errors : transport.errors = []

theorem Waiting.start : Waiting maxFrameBytes handler [] { maxFrameBytes := maxFrameBytes } where
  limit := rfl
  openChannel := rfl
  running := rfl
  drained := drain_more rfl
  whileOpen := nofun
  errors := rfl

theorem foldl_onData_silent (silent : transport.closed ∨ transport.ended)
    (chunks : List (List UInt8)) : chunks.foldl (onData handler) transport = transport := by
  induction chunks with
  | nil => rfl
  | cons chunk chunks ih =>
    have same : onData handler transport chunk = transport := by
      rw [onData, if_pos (by simpa using silent)]
    rw [List.foldl_cons, same, ih]

theorem delivery_append (more : List UInt8)
    (waiting : Waiting maxFrameBytes handler before transport) :
    delivery maxFrameBytes handler (before ++ more) =
      (messageDecoder maxFrameBytes).drain (takeMessage handler) transport.messages
        (transport.buffer ++ more) := by
  have drained := waiting.drained
  have goesOn : (delivery maxFrameBytes handler before).stopped = none := by rw [drained]
  rw [delivery, drain_append more goesOn]
  rw [delivery] at drained
  rw [drained]

theorem delivery_stopped (more : List UInt8)
    (stopped : (delivery maxFrameBytes handler before).stopped ≠ none) :
    (delivery maxFrameBytes handler (before ++ more)).state =
        (delivery maxFrameBytes handler before).state ∧
      (delivery maxFrameBytes handler (before ++ more)).stopped =
        (delivery maxFrameBytes handler before).stopped :=
  ⟨(drain_append_stopped more stopped).1, drain_append_reason nextMessage_stable more stopped⟩

theorem lateBytes_of_stopped {stop : Stop}
    (stopped : (delivery maxFrameBytes handler before).stopped = some stop)
    (notClosed : stop ≠ .closed) (chunks : List (List UInt8)) :
    lateBytes maxFrameBytes handler before chunks = [] := by
  induction chunks generalizing before with
  | nil => rfl
  | cons chunk chunks ih =>
    have stays : (delivery maxFrameBytes handler (before ++ chunk)).stopped = some stop := by
      rw [(delivery_stopped chunk (by simp [stopped])).2, stopped]
    rw [lateBytes]
    split
    · next closed => exact absurd (Option.some.inj (stays.symm.trans closed)) notClosed
    · exact ih stays

/-- An open channel that stops with a chunk has delivered the stream, whatever
follows. -/
theorem Waiting.delivers_of_settled (waiting : Waiting maxFrameBytes handler before transport)
    {stop : Stop} (stopped : (delivery maxFrameBytes handler (before ++ chunk)).stopped = some stop)
    (stateEq : (delivery maxFrameBytes handler (before ++ chunk)).state =
      transport.messages ++ messages)
    (settled : Settled transport messages stop last) (more : List UInt8) :
    DeliversStream handler (before ++ chunk ++ more) last := by
  have notNone : (delivery maxFrameBytes handler (before ++ chunk)).stopped ≠ none := by
    simp [stopped]
  obtain ⟨stateMore, stoppedMore⟩ := delivery_stopped more notNone
  constructor
  · rw [settled.limit, waiting.limit, stateMore, stateEq, IPCSocketTransport.messages,
      settled.dispatched]
    simp [IPCSocketTransport.messages, Function.comp_def]
  · intro dispatch member
    rw [settled.dispatched, List.mem_append, List.mem_map] at member
    rcases member with earlier | ⟨message, _, rfl⟩
    · exact waiting.whileOpen dispatch earlier
    · rfl
  · rw [settled.limit, waiting.limit, stoppedMore, stopped, settled.errors, waiting.errors,
      List.nil_append]
  · rw [settled.limit, waiting.limit, stoppedMore, stopped, settled.closed]

theorem Waiting.goesOn (waiting : Waiting maxFrameBytes handler before transport)
    (stopped : (delivery maxFrameBytes handler (before ++ chunk)).stopped = none)
    (stateEq : (delivery maxFrameBytes handler (before ++ chunk)).state =
      transport.messages ++ messages) (ends : LoopEnds handler transport messages
      (delivery maxFrameBytes handler (before ++ chunk)).rest none last) :
    Waiting maxFrameBytes handler (before ++ chunk) last := by
  obtain rfl : last = transport.advanced messages
    (delivery maxFrameBytes handler (before ++ chunk)).rest := ends
  refine ⟨waiting.limit, waiting.openChannel, waiting.running, ?_, ?_, waiting.errors⟩
  · rw [advanced_messages, ← stateEq]
    cases arrived : delivery maxFrameBytes handler (before ++ chunk) with
    | mk state rest why =>
      rw [arrived] at stopped
      obtain rfl : why = none := stopped
      rfl
  · intro dispatch member
    rw [advanced, List.mem_append, List.mem_map] at member
    rcases member with earlier | ⟨message, _, rfl⟩
    · exact waiting.whileOpen dispatch earlier
    · rfl

theorem foldl_onData_dispatched (handler : IPCMessageHandler) (chunks : List (List UInt8)) :
    transport.dispatched <+: (chunks.foldl (onData handler) transport).dispatched := by
  induction chunks generalizing transport with
  | nil => exact List.prefix_refl _
  | cons chunk chunks ih =>
    refine List.IsPrefix.trans ?_ ih
    unfold onData
    split
    · exact List.prefix_refl _
    · exact decodeLoop_dispatched handler _ { transport with buffer := transport.buffer ++ chunk }

theorem Waiting.onData_ends (waiting : Waiting maxFrameBytes handler before transport)
    (chunk : List UInt8) : ∃ messages,
      (delivery maxFrameBytes handler (before ++ chunk)).state = transport.messages ++ messages ∧
      LoopEnds handler transport messages (delivery maxFrameBytes handler (before ++ chunk)).rest
        (delivery maxFrameBytes handler (before ++ chunk)).stopped
        (onData handler transport chunk) := by
  have entered : onData handler transport chunk =
      decodeLoop handler ((transport.buffer ++ chunk).length + 1)
        { transport with buffer := transport.buffer ++ chunk } := by
    rw [onData, if_neg (by simp [waiting.openChannel, waiting.running])]
  have openChannel : { transport with buffer := transport.buffer ++ chunk }.closed = false :=
    waiting.openChannel
  obtain ⟨messages, stateEq, ends⟩ :=
    decodeLoop_ends handler openChannel (Nat.lt_succ_self _)
  rw [entered, delivery_append chunk waiting, ← waiting.limit]
  exact ⟨messages, stateEq, ends.forget_buffer⟩

/-- An open channel delivers the stream exactly when no complete message has
arrived behind the frame at which the handler closes it. -/
theorem Waiting.delivers_iff (waiting : Waiting maxFrameBytes handler before transport)
    (chunks : List (List UInt8)) : DeliversStream handler (before ++ chunks.flatten)
        (chunks.foldl (onData handler) transport) ↔
      holdsMessage maxFrameBytes (lateBytes maxFrameBytes handler before chunks) = false := by
  induction chunks generalizing before transport with
  | nil =>
    rw [List.flatten_nil, List.append_nil, List.foldl_nil, lateBytes]
    refine ⟨fun _ => rfl, fun _ => ⟨?_, waiting.whileOpen, ?_, ?_⟩⟩
    · rw [waiting.limit, waiting.drained]
    · rw [waiting.limit, waiting.drained, waiting.errors]
      rfl
    · rw [waiting.limit, waiting.drained, waiting.openChannel]
      rfl
  | cons chunk chunks ih =>
    obtain ⟨messages, stateEq, ends⟩ := waiting.onData_ends chunk
    rw [List.foldl_cons, List.flatten_cons, ← List.append_assoc]
    cases stopped : (delivery maxFrameBytes handler (before ++ chunk)).stopped with
    | none =>
      rw [stopped] at ends
      have lateEq : lateBytes maxFrameBytes handler before (chunk :: chunks) =
          lateBytes maxFrameBytes handler (before ++ chunk) chunks := by
        rw [lateBytes]
        simp only [stopped]
      rw [lateEq]
      exact ih (waiting.goesOn stopped stateEq ends)
    | some stop =>
      rw [stopped] at ends
      have settles (settled : Settled transport messages stop (onData handler transport chunk)) :
          DeliversStream handler (before ++ chunk ++ chunks.flatten)
            (chunks.foldl (onData handler) (onData handler transport chunk)) := by
        rw [foldl_onData_silent settled.silent]
        exact waiting.delivers_of_settled stopped stateEq settled chunks.flatten
      cases stop with
      | failed =>
        have noLate : lateBytes maxFrameBytes handler before (chunk :: chunks) = [] := by
          rw [lateBytes]
          simp only [stopped]
          exact lateBytes_of_stopped stopped nofun chunks
        rw [noLate]
        exact ⟨fun _ => rfl, fun _ => settles (settled_failed waiting.openChannel ends)⟩
      | threw =>
        have noLate : lateBytes maxFrameBytes handler before (chunk :: chunks) = [] := by
          rw [lateBytes]
          simp only [stopped]
          exact lateBytes_of_stopped stopped nofun chunks
        rw [noLate]
        exact ⟨fun _ => rfl, fun _ => settles (settled_threw waiting.openChannel ends)⟩
      | closed =>
        have lateEq : lateBytes maxFrameBytes handler before (chunk :: chunks) =
            (delivery maxFrameBytes handler (before ++ chunk)).rest := by
          rw [lateBytes]
          simp only [stopped]
        rw [lateEq]
        constructor
        · intro delivered
          by_contra late
          rw [Bool.not_eq_false] at late
          have lateHere : holdsMessage transport.maxFrameBytes
              (delivery maxFrameBytes handler (before ++ chunk)).rest := by
            rwa [waiting.limit]
          obtain ⟨dispatch, member, closed⟩ := ends.late lateHere
          have stays := (foldl_onData_dispatched handler chunks).subset member
          rw [delivered.whileOpen dispatch stays] at closed
          cases closed
        · intro silent
          have silentHere : holdsMessage transport.maxFrameBytes
              (delivery maxFrameBytes handler (before ++ chunk)).rest = false := by
            rwa [waiting.limit]
          exact settles (settled_closed waiting.openChannel ends silentHere)

end

/-- Whatever the chunks, the handlers see what the stream holds, and no message
after the channel was closed, exactly when no complete message has arrived
behind the frame at which the handler closes the channel. -/
theorem receive_delivers_iff (maxFrameBytes : Nat) (handler : IPCMessageHandler)
    (chunks : List (List UInt8)) :
    DeliversStream handler chunks.flatten (receive maxFrameBytes handler chunks) ↔
      holdsMessage maxFrameBytes (lateBytes maxFrameBytes handler [] chunks) = false :=
  Waiting.start.delivers_iff chunks

def pingFrame : List UInt8 :=
  lengthPrefixed
    (Utf8.encode "\x7b\"type\":\"notification\",\"jsonrpc\":\"2.0\",\"method\":\"ping\"\x7d".toList)

def closingHandler : IPCMessageHandler :=
  fun _ _ => ⟨true, none⟩

/-- Two messages in one chunk both reach a handler that closes the channel at
the first. -/
theorem message_after_close :
    ¬∀ (maxFrameBytes : Nat) (handler : IPCMessageHandler) (chunks : List (List UInt8)),
      DeliversStream handler chunks.flatten (receive maxFrameBytes handler chunks) := by
  intro claimed
  have delivered :=
    claimed defaultMaxFrameBytes closingHandler [pingFrame ++ pingFrame]
  have dispatched : (receive defaultMaxFrameBytes closingHandler
      [pingFrame ++ pingFrame]).dispatched.map IPCDispatch.closed = [false, true] := by
    decide +kernel
  have late : true ∈ (receive defaultMaxFrameBytes closingHandler
      [pingFrame ++ pingFrame]).dispatched.map IPCDispatch.closed := by
    simp [dispatched]
  obtain ⟨dispatch, member, closed⟩ := List.mem_map.mp late
  rw [delivered.whileOpen dispatch member] at closed
  cases closed

end P2PHub.IPCSocketTransport
