import P2PHub.FrameStreams
import P2PHub.IPCProtocol
import P2PHub.Utf8Text

/-!
# The transport between the host and a sandbox

`core/src/sandbox/ipc-transport.ts`: frames of a four-byte length and a JSON
text over a pair of streams.  The streams and the handlers are given by what
they answer; what reaches them is recorded.
-/

namespace P2PHub

def ipcFrameHeaderBytes : Nat := 4

def defaultMaxFrameBytes : Nat := 1024 * 1024

/-- A message with which the message handler was called, and whether the channel
was closed then. -/
structure IPCDispatch where
  message : IPCMessageEnvelope
  closed : Bool

/-- The fields of the transport, and what the output stream accepted, what the
handlers were called with, and whether an exception that nothing caught has
ended the process.  `sent` holds the frames of the messages that were sent. -/
structure IPCSocketTransport where
  maxFrameBytes : Nat := defaultMaxFrameBytes
  buffer : List UInt8 := []
  writeQueue : List (List UInt8) := []
  flushing : Bool := false
  closed : Bool := false
  sent : List (List UInt8) := []
  writes : Nat := 0
  written : List (List UInt8) := []
  dispatched : List IPCDispatch := []
  errors : List IPCFailure := []
  closings : Nat := 0
  ended : Bool := false

/-- What the message handler does with a message: it may close the channel, and
it may throw. -/
structure IPCReaction where
  closes : Bool
  throws : Option Thrown
  deriving DecidableEq, Repr

/-- What a handler does may depend on the messages before. -/
abbrev IPCMessageHandler := List IPCMessageEnvelope → IPCMessageEnvelope → IPCReaction

/-- What `output.write` does: it accepts the chunk and may report that the
stream is full, or throws. -/
inductive WriteAnswer
  | ready
  | full
  | throws (failure : IPCFailure)
  deriving DecidableEq, Repr

namespace IPCSocketTransport

section

/-- `close`: stop reading and end the output. -/
def close (transport : IPCSocketTransport) : IPCSocketTransport :=
  if transport.closed then transport
  else { transport with closed := true, closings := transport.closings + 1 }

/-- `fail`: the error handler first, then as `close`. -/
def fail (failure : IPCFailure) (transport : IPCSocketTransport) : IPCSocketTransport :=
  if transport.closed then transport
  else
    { transport with
      closed := true
      errors := transport.errors ++ [failure]
      closings := transport.closings + 1 }

variable {transport : IPCSocketTransport}

theorem fail_closed (failure : IPCFailure) : (fail failure transport).closed := by
  unfold fail
  split
  · assumption
  · rfl

theorem fail_written (failure : IPCFailure) : (fail failure transport).written = transport.written ∧
      (fail failure transport).sent = transport.sent := by
  unfold fail
  split <;> exact ⟨rfl, rfl⟩

theorem close_closed : transport.close.closed := by
  unfold close
  split
  · assumption
  · rfl

theorem close_written :
    transport.close.written = transport.written ∧ transport.close.sent = transport.sent := by
  unfold close
  split <;> exact ⟨rfl, rfl⟩

end

def frameTooLarge (length maxFrameBytes : Nat) : IPCFailure :=
  .parse .frameTooLarge ("IPC frame header declares " ++ toString length ++
    " bytes, exceeding the " ++ toString maxFrameBytes ++ "-byte limit")

/-- Take one complete frame from the front of the buffer. -/
def tryDecodeFrame (maxFrameBytes : Nat) (buffer : List UInt8) :
    Except IPCFailure (Option (List UInt8 × List UInt8)) :=
  if buffer.length < ipcFrameHeaderBytes then .ok none
  else
    let length := readUInt32BE buffer
    if length > maxFrameBytes then
      .error (frameTooLarge length maxFrameBytes)
    else if buffer.length < ipcFrameHeaderBytes + length then .ok none
    else .ok (some (framePayload buffer, frameRest buffer))

def parsePayload (payload : List UInt8) : Except IPCFailure IPCMessageEnvelope :=
  parseIPCMessageText (Utf8.decode payload)

/-- The error that a `catch` block makes of a thrown value.  Asking a value for
its text may throw again. -/
def failureOf : Thrown → Option IPCFailure
  | .error message _ => some (.other message)
  | .other text => text.map .other

/-- What was thrown out of the loop fails the channel; an exception of the
`catch` block itself is caught by nothing. -/
def caught (thrown : Thrown) (transport : IPCSocketTransport) : IPCSocketTransport :=
  match failureOf thrown with
  | some failure => fail failure transport
  | none => { transport with ended := true }

def messages (transport : IPCSocketTransport) : List IPCMessageEnvelope :=
  transport.dispatched.map IPCDispatch.message

def handleMessage (handler : IPCMessageHandler) (message : IPCMessageEnvelope)
    (transport : IPCSocketTransport) : IPCSocketTransport × Option Thrown :=
  let reaction := handler transport.messages message
  let transport :=
    { transport with dispatched := transport.dispatched ++ [⟨message, transport.closed⟩] }
  (if reaction.closes then transport.close else transport, reaction.throws)

/-- The decode loop of `onData`.  Every frame takes bytes from the buffer, so
that the fuel never runs out. -/
def decodeLoop (handler : IPCMessageHandler) : Nat → IPCSocketTransport → IPCSocketTransport
  | 0, transport => transport
  | fuel + 1, transport =>
    match tryDecodeFrame transport.maxFrameBytes transport.buffer with
    | .error failure => fail failure transport
    | .ok none => transport
    | .ok (some (payload, rest)) =>
      let transport := { transport with buffer := rest }
      match parsePayload payload with
      | .error failure => fail failure transport
      | .ok message =>
        match handleMessage handler message transport with
        | (transport, some thrown) => caught thrown transport
        | (transport, none) => decodeLoop handler fuel transport

def onData (handler : IPCMessageHandler) (transport : IPCSocketTransport) (chunk : List UInt8) :
    IPCSocketTransport :=
  if transport.closed || transport.ended then transport
  else
    let buffer := transport.buffer ++ chunk
    decodeLoop handler (buffer.length + 1) { transport with buffer := buffer }

/-- The loop of `flushWrites`.  The head leaves the queue only when the stream is
ready for more. -/
def flushLoop (answers : Nat → WriteAnswer) :
    List (List UInt8) → IPCSocketTransport → IPCSocketTransport
  | [], transport => transport
  | frame :: queue, transport =>
    let answer := answers transport.writes
    let transport := { transport with writes := transport.writes + 1 }
    match answer with
    | .throws failure => fail failure transport
    | .full => { transport with written := transport.written ++ [frame], flushing := true }
    | .ready =>
      flushLoop answers queue
        { transport with written := transport.written ++ [frame], writeQueue := queue }

def flushWrites (answers : Nat → WriteAnswer) (transport : IPCSocketTransport) :
    IPCSocketTransport :=
  if transport.flushing || transport.closed then transport
  else flushLoop answers transport.writeQueue transport

def enqueue (transport : IPCSocketTransport) (frame : List UInt8) : IPCSocketTransport :=
  { transport with
    writeQueue := transport.writeQueue ++ [frame]
    sent := transport.sent ++ [frame] }

def stringifyIPCMessage (message : JsValue) : Option (List UInt8) :=
  match message.stringify with
  | .ok (some text) => some (Utf8.encode text.toList)
  | _ => none

/-- `send`, which throws when the channel is closed, when the message has no JSON
text or when its frame is too large for the channel or for its header. -/
def send (answers : Nat → WriteAnswer) (transport : IPCSocketTransport) (message : JsValue) :
    IPCSocketTransport :=
  if transport.closed then transport
  else
    match stringifyIPCMessage message with
    | none => transport
    | some payload =>
      if payload.length > transport.maxFrameBytes ∨ 2 ^ 32 ≤ payload.length then transport
      else
        flushWrites answers (transport.enqueue (lengthPrefixed payload))

/-- The stream has drained: the listener that a full write left behind runs. -/
def onDrain (answers : Nat → WriteAnswer) (transport : IPCSocketTransport) : IPCSocketTransport :=
  if transport.flushing then flushWrites answers { transport with flushing := false }
  else transport

end IPCSocketTransport

end P2PHub
