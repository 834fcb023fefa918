import P2PHub.IPCSocketTransport
import P2PHub.TransitionRuns

/-!
# What the transport writes

Every frame is written once and in order as long as no drained stream wakes the
transport: the frame that filled the stream stays at the head of the queue, and
the listener of `drain` writes it again.
-/

namespace P2PHub.IPCSocketTransport

open Transition

/-- What happens to the sending half: a call of `send`, the event of a drained
stream, and the end of the channel from elsewhere. -/
inductive SendEvent
  | send (message : JsValue)
  | drain
  | close
  | fail (failure : IPCFailure)

def sendStep (answers : Nat → WriteAnswer) (transport : IPCSocketTransport) :
    SendEvent → IPCSocketTransport
  | .send message => transport.send answers message
  | .drain => transport.onDrain answers
  | .close => transport.close
  | .fail failure => fail failure transport

/-- The step function as a transition system without outputs. -/
def sendSystem (answers : Nat → WriteAnswer) (transport : IPCSocketTransport)
    (event : SendEvent) : Option (IPCSocketTransport × List Unit) :=
  some (sendStep answers transport event, [])

/-- What the stream accepted is what was sent, in order and each frame once, up
to the frames that wait for a stream that is full or a channel that is closed. -/
def WritesEachOnce (transport : IPCSocketTransport) : Prop :=
  ∃ waiting, transport.written ++ waiting = transport.sent ∧
    (transport.flushing = false → transport.closed = false → waiting = [])

/-- No stream that is drained wakes an open channel to write, unless the write
throws. -/
def Undisturbed (answers : Nat → WriteAnswer) (transport : IPCSocketTransport)
    (event : SendEvent) : Prop :=
  event = .drain → transport.flushing = true →
    transport.closed = true ∨ ∃ failure, answers transport.writes = .throws failure

section

variable {answers : Nat → WriteAnswer} {transport : IPCSocketTransport}
  {waiting : List (List UInt8)}

/-- The frames that were sent and not yet accepted are those behind the head of
the queue while the stream is full, and none otherwise. -/
structure QueueInv (transport : IPCSocketTransport) (waiting : List (List UInt8)) : Prop where
  accounted : transport.written ++ waiting = transport.sent
  idle : transport.closed = false → transport.flushing = false →
    transport.writeQueue = [] ∧ waiting = []
  full : transport.closed = false → transport.flushing = true →
    ∃ head, transport.writeQueue = head :: waiting

theorem QueueInv.start (maxFrameBytes : Nat) : QueueInv { maxFrameBytes := maxFrameBytes } [] where
  accounted := rfl
  idle _ _ := ⟨rfl, rfl⟩
  full _ flushing := by cases flushing

theorem QueueInv.writesEachOnce (inv : QueueInv transport waiting) : WritesEachOnce transport :=
  ⟨waiting, inv.accounted, fun idle openChannel => (inv.idle openChannel idle).2⟩

theorem QueueInv.of_closed (accounted : transport.written ++ waiting = transport.sent)
    (closed : transport.closed) : QueueInv transport waiting where
  accounted := accounted
  idle openChannel := absurd closed (by simp [openChannel])
  full openChannel := absurd closed (by simp [openChannel])

theorem flushWrites_of_closed (closed : transport.closed) :
    flushWrites answers transport = transport := by
  rw [flushWrites, closed, Bool.or_true, if_pos rfl]

theorem flushWrites_of_flushing (flushing : transport.flushing) :
    flushWrites answers transport = transport := by
  rw [flushWrites, flushing, Bool.true_or, if_pos rfl]

section

variable (openChannel : transport.closed = false) (idle : transport.flushing = false)
include openChannel idle

theorem flushWrites_of_idle {queue : List (List UInt8)} (queueEq : transport.writeQueue = queue) :
    flushWrites answers transport = flushLoop answers queue transport := by
  rw [flushWrites, if_neg (by simp [openChannel, idle]), queueEq]

theorem QueueInv.flush_one {frame : List UInt8} (queue : transport.writeQueue = [frame])
    (accounted : transport.written ++ [frame] = transport.sent) :
    ∃ waiting, QueueInv (flushWrites answers transport) waiting := by
  rw [flushWrites_of_idle openChannel idle queue, flushLoop]
  cases answers transport.writes with
  | throws failure =>
    refine ⟨[frame], .of_closed ?_ (fail_closed failure)⟩
    rw [(fail_written failure).1, (fail_written failure).2]
    exact accounted
  | full =>
    refine ⟨[], ?_, ?_, ?_⟩
    · simpa using accounted
    · intro _ flushing
      cases flushing
    · exact fun _ _ => ⟨frame, queue⟩
  | ready =>
    refine ⟨[], ?_, ?_, ?_⟩
    · simpa [flushLoop] using accounted
    · exact fun _ _ => ⟨rfl, rfl⟩
    · intro _ flushing
      rw [flushLoop] at flushing
      exact absurd flushing (by simp [idle])

end

theorem QueueInv.enqueue (inv : QueueInv transport waiting)
    (openChannel : transport.closed = false) (frame : List UInt8) :
    ∃ later, QueueInv (flushWrites answers (transport.enqueue frame)) later := by
  rcases Bool.eq_false_or_eq_true transport.flushing with flushing | idle
  · obtain ⟨head, queueEq⟩ := inv.full openChannel flushing
    have stays : flushWrites answers (transport.enqueue frame) = transport.enqueue frame :=
      flushWrites_of_flushing flushing
    rw [stays]
    refine ⟨waiting ++ [frame], ?_, ?_, ?_⟩
    · simp [IPCSocketTransport.enqueue, ← inv.accounted]
    · exact fun _ idle => absurd flushing (by simp [show transport.flushing = false from idle])
    · exact fun _ _ => ⟨head, by simp [IPCSocketTransport.enqueue, queueEq]⟩
  · obtain ⟨queueEq, rfl⟩ := inv.idle openChannel idle
    have accounted := inv.accounted
    rw [List.append_nil] at accounted
    have queueOne : (transport.enqueue frame).writeQueue = [frame] := by
      simp [IPCSocketTransport.enqueue, queueEq]
    exact QueueInv.flush_one openChannel idle queueOne
      (by simp [IPCSocketTransport.enqueue, accounted])

theorem QueueInv.send (inv : QueueInv transport waiting)
    (message : JsValue) : ∃ later, QueueInv (transport.send answers message) later := by
  unfold IPCSocketTransport.send
  split
  · exact ⟨waiting, inv⟩
  · next openChannel =>
      split
      · exact ⟨waiting, inv⟩
      · split
        · exact ⟨waiting, inv⟩
        · exact inv.enqueue (by simpa using openChannel) _

theorem QueueInv.flush_throws {head : List UInt8}
    {failure : IPCFailure} (accounted : transport.written ++ waiting = transport.sent)
    (openChannel : transport.closed = false) (idle : transport.flushing = false)
    (queue : transport.writeQueue = head :: waiting)
    (thrown : answers transport.writes = .throws failure) :
    QueueInv (flushWrites answers transport) waiting := by
  rw [flushWrites_of_idle openChannel idle queue, flushLoop]
  simp only [thrown]
  refine .of_closed ?_ (fail_closed failure)
  rw [(fail_written failure).1, (fail_written failure).2]
  exact accounted

theorem QueueInv.drain (inv : QueueInv transport waiting)
    (undisturbed : Undisturbed answers transport .drain) :
    ∃ later, QueueInv (transport.onDrain answers) later := by
  unfold onDrain
  split
  · next flushing =>
      rcases Bool.eq_false_or_eq_true transport.closed with closed | openChannel
      · have stays : flushWrites answers { transport with flushing := false } =
            { transport with flushing := false } :=
          flushWrites_of_closed closed
        rw [stays]
        exact ⟨waiting, .of_closed inv.accounted closed⟩
      · obtain ⟨head, queueEq⟩ := inv.full openChannel flushing
        rcases undisturbed rfl flushing with closed | ⟨failure, thrown⟩
        · exact absurd closed (by simp [openChannel])
        · exact ⟨waiting, .flush_throws inv.accounted openChannel rfl queueEq thrown⟩
  · exact ⟨waiting, inv⟩

theorem QueueInv.step (inv : QueueInv transport waiting)
    {event : SendEvent} (undisturbed : Undisturbed answers transport event) :
    ∃ later, QueueInv (sendStep answers transport event) later := by
  cases event with
  | send message => exact inv.send message
  | drain => exact inv.drain undisturbed
  | close =>
    refine ⟨waiting, .of_closed ?_ close_closed⟩
    rw [sendStep, close_written.1, close_written.2]
    exact inv.accounted
  | fail failure =>
    refine ⟨waiting, .of_closed ?_ (fail_closed failure)⟩
    rw [sendStep, (fail_written failure).1, (fail_written failure).2]
    exact inv.accounted

end

/-- In every run in which no drained stream wakes the transport, each frame is
written once and in the order of the calls of `send`. -/
theorem undisturbed_sends_write_each_once (maxFrameBytes : Nat) (answers : Nat → WriteAnswer)
    {history : List Unit} {transport : IPCSocketTransport}
    (runs : Runs (sendSystem answers) (fun _ => Undisturbed answers)
      { maxFrameBytes := maxFrameBytes } history transport) : WritesEachOnce transport := by
  have inv : ∃ waiting, QueueInv transport waiting := by
    refine runs.invariant (fun _ transport => ∃ waiting, QueueInv transport waiting)
      ⟨[], .start maxFrameBytes⟩ ?_
    intro history before event after outputs earlier undisturbed stepped
    obtain ⟨waiting, inv⟩ := earlier
    have afterEq : sendStep answers before event = after :=
      congrArg Prod.fst (Option.some.inj stepped)
    rw [← afterEq]
    exact inv.step undisturbed
  obtain ⟨waiting, inv⟩ := inv
  exact inv.writesEachOnce

def ping : JsValue :=
  .object [("type", .string "notification"), ("jsonrpc", .string "2.0"), ("method", .string "ping")]

def alwaysFull : Nat → WriteAnswer :=
  fun _ => .full

def NotDrain : SendEvent → Prop
  | .drain => False
  | _ => True

/-- A second message waits for a stream that the first one has filled. -/
theorem undisturbed_sends_write_each_once_full : ∃ history transport, Runs (sendSystem alwaysFull)
      (fun _ => Undisturbed alwaysFull) {} history transport ∧
        (transport.sent.length = 2 ∧ transport.written.length = 1) ∧ WritesEachOnce transport := by
  obtain ⟨history, transport, runs, passed⟩ := exists_runs_of_any
    (sendSystem alwaysFull) NotDrain {} [.send ping, .send ping]
    (fun reached => reached.1.sent.length = 2 && reached.1.written.length = 1)
    (by simp [NotDrain]) (by decide +kernel)
  have undisturbed : Runs (sendSystem alwaysFull) (fun _ => Undisturbed alwaysFull)
      {} history transport := by
    refine runs.mono fun _ before event notDrain drained => ?_
    subst drained
    exact notDrain.elim
  exact ⟨history, transport, undisturbed, by simpa using passed,
    undisturbed_sends_write_each_once defaultMaxFrameBytes alwaysFull undisturbed⟩

/-- The frame that filled the stream is written again when the stream has
drained. -/
theorem drained_stream_gets_frame_again :
    ¬∀ (maxFrameBytes : Nat) (answers : Nat → WriteAnswer) (history : List Unit)
      (transport : IPCSocketTransport), Runs (sendSystem answers) unrestricted
        { maxFrameBytes := maxFrameBytes } history transport → WritesEachOnce transport := by
  intro claimed
  obtain ⟨history, transport, runs, passed⟩ := exists_runs_of_any
    (sendSystem alwaysFull) (fun _ => True) {} [.send ping, .drain]
    (fun reached => reached.1.sent.length = 1 && reached.1.written.length = 2)
    (fun _ _ => trivial) (by decide +kernel)
  obtain ⟨waiting, accounted, _⟩ :=
    claimed defaultMaxFrameBytes alwaysFull history transport runs
  have lengths := congrArg List.length accounted
  simp only [Bool.and_eq_true, decide_eq_true_eq] at passed
  rw [List.length_append, passed.1, passed.2] at lengths
  omega

end P2PHub.IPCSocketTransport
