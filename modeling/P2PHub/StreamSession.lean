import P2PHub.NetworkFrames
import P2PHub.TaskBroker

/-!
# The frame queue of a libp2p stream

`StreamSession` in `plugins/network-libp2p/src/network-libp2p-provider.ts`.  A
consumer takes the chunks of the stream and queues their frames; calls of
`next` take them in order or wait, each with a timer of its own.  Framing is
that of `network-light`.
-/

namespace P2PHub.NetworkLibp2p

open FrameDecoder

open NetworkLight (frameDecoder receiveFrames collect tryDecodeFrame drain_collect drain_frame)

inductive NextResult
  | value (frame : JsValue)
  | timeout
  | eof
  | error (message : String)

/-- The loop over the stream: it runs, it waits for the stream's iterator to be
closed after a throw, or it is over. -/
inductive Consumer
  | running
  | returning (thrown : Thrown)
  | ended

/-- The fields of a session.  A waiter is the number of its call of `next`, and
the chunks are those that the consumer was given. -/
structure StreamSession where
  buffer : List UInt8
  frames : List JsValue
  waiters : List Nat
  failed : Option String
  eof : Bool
  consumer : Consumer
  calls : Nat
  chunks : List (List UInt8)

def StreamSession.initial : StreamSession where
  buffer := []
  frames := []
  waiters := []
  failed := none
  eof := false
  consumer := .running
  calls := 0
  chunks := []

/-- The results of calls of `next`. -/
abbrev Answers := List (Nat × NextResult)

/-- What a call gets at once, with the frames that remain. -/
def StreamSession.output (s : StreamSession) : Option (NextResult × List JsValue) :=
  match s.frames with
  | frame :: frames => some (.value frame, frames)
  | [] =>
    match s.failed with
    | some message => some (.error message, [])
    | none => if s.eof then some (.eof, []) else none

def StreamSession.withFrames (s : StreamSession) (frames : List JsValue) : StreamSession :=
  { s with frames }

def StreamSession.drainWaiters : List Nat → StreamSession → StreamSession × Answers
  | [], s => ({ s with waiters := [] }, [])
  | waiter :: waiters, s =>
    match s.output with
    | none => ({ s with waiters := waiter :: waiters }, [])
    | some (result, frames) =>
      let later := drainWaiters waiters (s.withFrames frames)
      (later.1, (waiter, result) :: later.2)

def StreamSession.drain (s : StreamSession) : StreamSession × Answers :=
  drainWaiters s.waiters s

def StreamSession.next (s : StreamSession) : StreamSession × Answers :=
  match s.output with
  | some (result, frames) =>
    ({ s with frames, calls := s.calls + 1 }, [(s.calls, result)])
  | none => ({ s with waiters := s.waiters ++ [s.calls], calls := s.calls + 1 }, [])

def StreamSession.push (s : StreamSession) (value : JsValue) (rest : List UInt8) : StreamSession :=
  { s with buffer := rest, frames := s.frames ++ [value] }

/-- The inner loop of the consumer.  Each frame shortens the buffer, so its
length is fuel enough. -/
def StreamSession.readFuel : Nat → StreamSession → StreamSession × Answers
  | 0, s => (s, [])
  | fuel + 1, s =>
    match tryDecodeFrame s.buffer with
    | .error thrown => ({ s with consumer := .returning thrown }, [])
    | .ok none => (s, [])
    | .ok (some (value, rest)) =>
      let drained := (s.push value rest).drain
      let later := readFuel fuel drained.1
      (later.1, drained.2 ++ later.2)

def StreamSession.receive (s : StreamSession) (chunk : List UInt8) : StreamSession × Answers :=
  readFuel ((s.buffer ++ chunk).length + 1)
    { s with buffer := s.buffer ++ chunk, chunks := s.chunks ++ [chunk] }

/-- The end of `consume`. -/
def StreamSession.finish (s : StreamSession) (failed : Option String) : StreamSession × Answers :=
  { s with failed, eof := true, consumer := .ended }.drain

/-- The `catch` block of `consume`.  Where reporting what was thrown throws, no
call is answered. -/
def StreamSession.fail (s : StreamSession) (thrown : Thrown) : StreamSession × Answers :=
  match thrown.report with
  | some (message, _) => s.finish (some message)
  | none => ({ s with consumer := .ended }, [])

/-- What happens to a session: the stream gives a chunk, ends or throws, its
iterator has been closed, `next` is called, or the timer of a call fires. -/
inductive SessionLabel
  | chunk (bytes : List UInt8)
  | ends
  | breaks (thrown : Thrown)
  | returned
  | next
  | timeout (call : Nat)

/-- One turn of the event loop.  The timer of a call is cleared when the call
is answered. -/
def sessionStep (s : StreamSession) : SessionLabel → Option (StreamSession × Answers)
  | .chunk bytes =>
    match s.consumer with
    | .running => some (s.receive bytes)
    | _ => none
  | .ends =>
    match s.consumer with
    | .running => some (s.finish none)
    | _ => none
  | .breaks thrown =>
    match s.consumer with
    | .running => some (s.fail thrown)
    | _ => none
  | .returned =>
    match s.consumer with
    | .returning thrown => some (s.fail thrown)
    | _ => none
  | .next => some s.next
  | .timeout call =>
    if call ∈ s.waiters then
      some ({ s with waiters := s.waiters.erase call }, [(call, .timeout)])
    else none

section

def NextResult.value? : NextResult → Option JsValue
  | value frame => some frame
  | _ => none

def NextResult.isFinal : NextResult → Bool
  | eof => true
  | error _ => true
  | _ => false

/-- The frames that calls of `next` have returned, in order. -/
def delivered (answers : Answers) : List JsValue :=
  answers.filterMap fun answer => answer.2.value?

def servedCalls (answers : Answers) : List Nat :=
  (answers.filter fun answer => answer.2.value?.isSome).map Prod.fst

theorem delivered_append (first second : Answers) :
    delivered (first ++ second) = delivered first ++ delivered second :=
  List.filterMap_append

theorem servedCalls_append (first second : Answers) :
    servedCalls (first ++ second) = servedCalls first ++ servedCalls second := by
  simp [servedCalls]

theorem servedCalls_sublist (answers : Answers) :
    (servedCalls answers).Sublist (answers.map Prod.fst) :=
  List.filter_sublist.map _

variable {s after : StreamSession} {added : List JsValue} {answers : Answers}

/-- A turn in which the session gets frames and answers the calls that have
waited longest. -/
structure Delivers (s : StreamSession) (added : List JsValue) (after : StreamSession)
    (answers : Answers) : Prop where
  waiters : answers.map Prod.fst ++ after.waiters = s.waiters
  frames : delivered answers ++ after.frames = s.frames ++ added
  served : after.waiters ≠ [] → after.output = none
  final : ∀ answer ∈ answers, answer.2.isFinal → s.failed.isSome ∨ s.eof = true
  failed : after.failed = s.failed
  eof : after.eof = s.eof
  calls : after.calls = s.calls
  chunks : after.chunks = s.chunks

/-- What a call gets is taken from the front of the queue; only an empty queue
has it told that no frame will come. -/
theorem StreamSession.output_cases {result : NextResult} {frames : List JsValue}
    (output : s.output = some (result, frames)) :
    (∃ frame, result = .value frame ∧ s.frames = frame :: frames) ∨
      (result.isFinal ∧ result.value? = none ∧ s.frames = [] ∧ frames = [] ∧
        (s.failed.isSome ∨ s.eof)) := by
  unfold StreamSession.output at output
  split at output
  · next frame rest queue =>
      cases output
      exact .inl ⟨frame, rfl, queue⟩
  · next queue =>
      right
      split at output
      · next message failed =>
          cases output
          exact ⟨rfl, rfl, queue, rfl, .inl (by rw [failed]; rfl)⟩
      · split at output
        · next ended =>
            cases output
            exact ⟨rfl, rfl, queue, rfl, .inr ended⟩
        · cases output

theorem drainWaiters_delivers (waiters : List Nat) (s : StreamSession) :
    Delivers { s with waiters } [] (StreamSession.drainWaiters waiters s).1
      (StreamSession.drainWaiters waiters s).2 := by
  induction waiters generalizing s with
  | nil =>
    constructor
    · rfl
    · exact (List.append_nil s.frames).symm
    · exact fun waiting => absurd rfl waiting
    · exact fun _ member => nomatch member
    · rfl
    · rfl
    · rfl
    · rfl
  | cons waiter waiters ih =>
    unfold StreamSession.drainWaiters
    cases output : s.output with
    | none =>
      constructor
      · rfl
      · exact (List.append_nil s.frames).symm
      · exact fun _ => output
      · exact fun _ member => nomatch member
      · rfl
      · rfl
      · rfl
      · rfl
    | some taken =>
      obtain ⟨result, frames⟩ := taken
      have later := ih (s.withFrames frames)
      have rest : delivered (StreamSession.drainWaiters waiters (s.withFrames frames)).2 ++
          (StreamSession.drainWaiters waiters (s.withFrames frames)).1.frames = frames := by
        have laterFrames := later.frames
        rwa [List.append_nil] at laterFrames
      constructor
      · exact congrArg (waiter :: ·) later.waiters
      · rw [List.append_nil]
        rcases StreamSession.output_cases output with
          ⟨frame, rfl, queue⟩ | ⟨_, none, queue, rfl, _⟩
        · have first : delivered ((waiter, NextResult.value frame) ::
              (StreamSession.drainWaiters waiters (s.withFrames frames)).2) = frame :: delivered
                  (StreamSession.drainWaiters waiters (s.withFrames frames)).2 := rfl
          rw [first, List.cons_append, rest]
          exact queue.symm
        · have first : delivered ((waiter, result) ::
              (StreamSession.drainWaiters waiters (s.withFrames [])).2) =
                delivered (StreamSession.drainWaiters waiters (s.withFrames [])).2 := by
            simp [delivered, none]
          rw [first, rest]
          exact queue.symm
      · exact later.served
      · intro answer member final
        rcases List.mem_cons.mp member with rfl | member
        · rcases StreamSession.output_cases output with
            ⟨frame, rfl, _⟩ | ⟨_, _, _, _, ended⟩
          · cases final
          · exact ended
        · exact later.final answer member final
      · exact later.failed
      · exact later.eof
      · exact later.calls
      · exact later.chunks

theorem drain_delivers (s : StreamSession) : Delivers s [] s.drain.1 s.drain.2 :=
  drainWaiters_delivers s.waiters s

/-- A call is told that no frame will come only when every frame was
returned. -/
theorem drainWaiters_final (waiters : List Nat) (s : StreamSession) :
    ∀ answer ∈ (StreamSession.drainWaiters waiters s).2, answer.2.isFinal →
      (StreamSession.drainWaiters waiters s).1.frames = [] := by
  induction waiters generalizing s with
  | nil => exact fun _ member => nomatch member
  | cons waiter waiters ih =>
    unfold StreamSession.drainWaiters
    cases output : s.output with
    | none => exact fun _ member => nomatch member
    | some taken =>
      obtain ⟨result, frames⟩ := taken
      intro answer member final
      rcases List.mem_cons.mp member with rfl | member
      · rcases StreamSession.output_cases output with
          ⟨frame, rfl, _⟩ | ⟨_, _, _, rfl, _⟩
        · cases final
        · have rest := (drainWaiters_delivers waiters (s.withFrames [])).frames
          exact (List.append_eq_nil_iff.mp rest).2
      · exact ih _ answer member final

theorem drainWaiters_consumer (waiters : List Nat) (s : StreamSession) :
    (StreamSession.drainWaiters waiters s).1.consumer = s.consumer ∧
      (StreamSession.drainWaiters waiters s).1.buffer = s.buffer := by
  induction waiters generalizing s with
  | nil => exact ⟨rfl, rfl⟩
  | cons waiter waiters ih =>
    unfold StreamSession.drainWaiters
    split
    · exact ⟨rfl, rfl⟩
    · exact ih _

theorem Delivers.trans {middle : StreamSession} {more : List JsValue} {later : Answers}
    (first : Delivers s added middle answers) (second : Delivers middle more after later) :
    Delivers s (added ++ more) after (answers ++ later) where
  waiters := by
    rw [List.map_append, List.append_assoc, second.waiters, first.waiters]
  frames := by
    rw [delivered_append, List.append_assoc, second.frames, ← List.append_assoc, first.frames,
      List.append_assoc]
  served := second.served
  final := by
    intro answer member final
    rcases List.mem_append.mp member with member | member
    · exact first.final answer member final
    · have ended := second.final answer member final
      rwa [first.failed, first.eof] at ended
  failed := second.failed.trans first.failed
  eof := second.eof.trans first.eof
  calls := second.calls.trans first.calls
  chunks := second.chunks.trans first.chunks

end

section

variable {s : StreamSession}

/-- What the inner loop of the consumer does: it queues the frames that the
buffer holds and keeps the rest. -/
structure Reads (s after : StreamSession) (answers : Answers) : Prop where
  delivers : Delivers s (frameDecoder.drain collect [] s.buffer).state after answers
  buffer : after.buffer = (frameDecoder.drain collect [] s.buffer).rest
  running : (frameDecoder.drain collect [] s.buffer).stopped = none → after.consumer = s.consumer
  stopped : (frameDecoder.drain collect [] s.buffer).stopped ≠ none →
    ∃ thrown, after.consumer = .returning thrown

theorem delivers_self (idle : s.waiters ≠ [] → s.output = none) : Delivers s [] s [] where
  waiters := rfl
  frames := (List.append_nil s.frames).symm
  served := idle
  final := fun _ member => nomatch member
  failed := rfl
  eof := rfl
  calls := rfl
  chunks := rfl

theorem readFuel_reads {fuel : Nat} (enough : s.buffer.length < fuel)
    (idle : s.waiters ≠ [] → s.output = none) :
    Reads s (s.readFuel fuel).1 (s.readFuel fuel).2 := by
  induction fuel generalizing s with
  | zero => cases enough
  | succ fuel ih =>
    have stay := delivers_self idle
    unfold StreamSession.readFuel
    cases decoded : tryDecodeFrame s.buffer with
    | error thrown =>
      have drained : frameDecoder.drain collect [] s.buffer = ⟨[], s.buffer, some thrown⟩ :=
        drain_fails decoded
      constructor
      · rw [drained]
        exact ⟨rfl, stay.frames, idle, stay.final, rfl, rfl, rfl, rfl⟩
      · rw [drained]
      · rw [drained]
        exact nofun
      · exact fun _ => ⟨thrown, rfl⟩
    | ok frame =>
      cases frame with
      | none =>
        have drained : frameDecoder.drain collect [] s.buffer = ⟨[], s.buffer, none⟩ :=
          drain_more decoded
        constructor
        · rw [drained]
          exact stay
        · rw [drained]
        · exact fun _ => rfl
        · rw [drained]
          exact fun stopped => absurd rfl stopped
      | some frame =>
        obtain ⟨value, rest⟩ := frame
        have shorter : rest.length < s.buffer.length := frameDecoder.consumes decoded
        have delivered := drain_delivers (s.push value rest)
        obtain ⟨consumer, buffer⟩ := drainWaiters_consumer s.waiters (s.push value rest)
        have bufferEq : (s.push value rest).drain.1.buffer = rest := buffer
        have consumerEq : (s.push value rest).drain.1.consumer = s.consumer := consumer
        have later := ih (s := (s.push value rest).drain.1) (by rw [bufferEq]; omega)
          delivered.served
        have first : Delivers s [value] (s.push value rest).drain.1
            (s.push value rest).drain.2 := by
          have frames := delivered.frames
          rw [List.append_nil] at frames
          exact ⟨delivered.waiters, frames, delivered.served, delivered.final,
            delivered.failed, delivered.eof, delivered.calls, delivered.chunks⟩
        obtain ⟨delivers, laterBuffer, running, stopped⟩ := later
        rw [bufferEq] at delivers laterBuffer running stopped
        constructor <;> rw [drain_frame decoded]
        · exact first.trans delivers
        · exact laterBuffer
        · exact fun goesOn => (running goesOn).trans consumerEq
        · exact stopped

end

variable {history answers : Answers} {s after : StreamSession} {label : SessionLabel}

/-- The frames of the stream so far are those that were returned and those that
wait, and the calls are served in their order. -/
structure SessionInv (history : Answers) (s : StreamSession) : Prop where
  frames : delivered history ++ s.frames = (receiveFrames s.chunks).state
  idle : s.waiters ≠ [] → s.output = none
  running : s.consumer = .running → (receiveFrames s.chunks).rest = s.buffer ∧
    (receiveFrames s.chunks).stopped = none
  unfinished : s.consumer ≠ .ended → s.failed = none ∧ s.eof = false
  served : (servedCalls history ++ s.waiters).Pairwise (· < ·)
  answered : (history.map Prod.fst ++ s.waiters).Nodup
  calls : ∀ call ∈ history.map Prod.fst ++ s.waiters, call < s.calls
  final : ∀ answer ∈ history, answer.2.isFinal → s.frames = [] ∧ s.consumer = .ended

theorem sessionInv_initial : SessionInv [] StreamSession.initial where
  frames := rfl
  idle := fun waiting => absurd rfl waiting
  running := fun _ => ⟨rfl, rfl⟩
  unfinished := fun _ => ⟨rfl, rfl⟩
  served := .nil
  answered := .nil
  calls := fun _ member => nomatch member
  final := fun _ member => nomatch member

theorem SessionInv.delivers_calls (inv : SessionInv history s)
    (waiters : answers.map Prod.fst ++ after.waiters = s.waiters) (calls : after.calls = s.calls) :
    (servedCalls (history ++ answers) ++ after.waiters).Pairwise (· < ·) ∧
      ((history ++ answers).map Prod.fst ++ after.waiters).Nodup ∧
      ∀ call ∈ (history ++ answers).map Prod.fst ++ after.waiters, call < after.calls := by
  have same : (history ++ answers).map Prod.fst ++ after.waiters =
      history.map Prod.fst ++ s.waiters := by
    rw [List.map_append, List.append_assoc, waiters]
  refine ⟨?_, ?_, ?_⟩
  · have sublist : (servedCalls (history ++ answers) ++ after.waiters).Sublist
        (servedCalls history ++ s.waiters) := by
      rw [servedCalls_append, List.append_assoc, ← waiters]
      exact (List.Sublist.refl _).append ((servedCalls_sublist answers).append (List.Sublist.refl _))
    exact inv.served.sublist sublist
  · rw [same]
    exact inv.answered
  · rw [same, calls]
    exact inv.calls

theorem receiveFrames_snoc {chunks : List (List UInt8)}
    (goesOn : (receiveFrames chunks).stopped = none) (chunk : List UInt8) :
    receiveFrames (chunks ++ [chunk]) =
      { frameDecoder.drain collect [] ((receiveFrames chunks).rest ++ chunk) with
        state := (receiveFrames chunks).state ++
          (frameDecoder.drain collect [] ((receiveFrames chunks).rest ++ chunk)).state } := by
  have fed : receiveFrames (chunks ++ [chunk]) =
      frameDecoder.feed collect (receiveFrames chunks) chunk := by
    rw [receiveFrames, receiveFrames, feedAll, feedAll, List.foldl_append]
    rfl
  rw [fed, feed, goesOn]
  have collected := drain_collect (receiveFrames chunks).state []
    ((receiveFrames chunks).rest ++ chunk)
  rw [List.append_nil] at collected
  exact collected

section

variable (inv : SessionInv history s)
include inv

theorem SessionInv.chunk (running : s.consumer = .running)
    (chunk : List UInt8) : SessionInv (history ++ (s.receive chunk).2) (s.receive chunk).1 := by
  obtain ⟨rest, goesOn⟩ := inv.running running
  have alive : s.consumer ≠ .ended := by
    rw [running]
    exact nofun
  obtain ⟨failed, eof⟩ := inv.unfinished alive
  have reads : Reads { s with buffer := s.buffer ++ chunk, chunks := s.chunks ++ [chunk] }
      (s.receive chunk).1 (s.receive chunk).2 :=
    readFuel_reads (Nat.lt_succ_self _) inv.idle
  have received := receiveFrames_snoc goesOn chunk
  rw [rest] at received
  have chunks : (s.receive chunk).1.chunks = s.chunks ++ [chunk] := reads.delivers.chunks
  obtain ⟨served, answered, calls⟩ :=
    inv.delivers_calls reads.delivers.waiters reads.delivers.calls
  have unfailed : (s.receive chunk).1.failed = none := reads.delivers.failed.trans failed
  have unended : (s.receive chunk).1.eof = false := reads.delivers.eof.trans eof
  refine ⟨?_, reads.delivers.served, ?_, fun _ => ⟨unfailed, unended⟩, served, answered, calls, ?_⟩
  · have frames := reads.delivers.frames
    rw [delivered_append, List.append_assoc, frames, chunks, received, ← List.append_assoc]
    rw [inv.frames]
  · intro still
    rw [chunks, received]
    by_cases stopped : (frameDecoder.drain collect [] (s.buffer ++ chunk)).stopped = none
    · exact ⟨reads.buffer.symm, stopped⟩
    · obtain ⟨thrown, returning⟩ := reads.stopped stopped
      cases still.symm.trans returning
  · intro answer member final
    rcases List.mem_append.mp member with member | member
    · exact absurd (inv.final answer member final).2 alive
    · rcases reads.delivers.final answer member final with failedSome | ended
      · rw [failed] at failedSome
        cases failedSome
      · rw [eof] at ended
        cases ended

theorem SessionInv.finish (alive : s.consumer ≠ .ended)
    (failed : Option String) : SessionInv (history ++ (s.finish failed).2) (s.finish failed).1 := by
  have delivers : Delivers { s with failed, eof := true, consumer := .ended } []
      (s.finish failed).1 (s.finish failed).2 :=
    drain_delivers _
  have ended : (s.finish failed).1.consumer = .ended :=
    (drainWaiters_consumer s.waiters { s with failed, eof := true, consumer := .ended }).1
  obtain ⟨served, answered, calls⟩ := inv.delivers_calls delivers.waiters delivers.calls
  refine ⟨?_, delivers.served, ?_, ?_, served, answered, calls, ?_⟩
  · have frames := delivers.frames
    rw [List.append_nil] at frames
    rw [delivered_append, List.append_assoc, frames, delivers.chunks]
    exact inv.frames
  · intro still
    cases still.symm.trans ended
  · exact fun unfinished => absurd ended unfinished
  · intro answer member final
    rcases List.mem_append.mp member with member | member
    · exact absurd (inv.final answer member final).2 alive
    · exact ⟨drainWaiters_final _ _ answer member final, ended⟩

theorem SessionInv.fail (alive : s.consumer ≠ .ended)
    (thrown : Thrown) : SessionInv (history ++ (s.fail thrown).2) (s.fail thrown).1 := by
  unfold StreamSession.fail
  split
  · exact inv.finish alive _
  · rw [List.append_nil]
    obtain ⟨frames, idle, _, unfinished, served, answered, calls, final⟩ := inv
    exact ⟨frames, idle, nofun, fun still => absurd rfl still, served, answered, calls,
      fun answer member isFinal => ⟨(final answer member isFinal).1, rfl⟩⟩

theorem SessionInv.fresh_call : (servedCalls history ++ s.waiters ++ [s.calls]).Pairwise (· < ·) ∧
      (history.map Prod.fst ++ s.waiters ++ [s.calls]).Nodup ∧
      ∀ call ∈ history.map Prod.fst ++ s.waiters ++ [s.calls], call < s.calls + 1 := by
  refine ⟨?_, ?_, ?_⟩
  · rw [List.pairwise_append]
    refine ⟨inv.served, List.pairwise_singleton _ _, ?_⟩
    intro call member other fresh
    rw [List.mem_singleton.mp fresh]
    apply inv.calls
    rcases List.mem_append.mp member with member | member
    · exact List.mem_append_left _ ((servedCalls_sublist history).subset member)
    · exact List.mem_append_right _ member
  · rw [List.nodup_append]
    refine ⟨inv.answered, List.pairwise_singleton _ _, ?_⟩
    intro call member other fresh same
    rw [List.mem_singleton.mp fresh] at same
    have below := inv.calls call member
    omega
  · intro call member
    rcases List.mem_append.mp member with member | member
    · exact Nat.lt_succ_of_lt (inv.calls call member)
    · rw [List.mem_singleton.mp member]
      exact Nat.lt_succ_self _

theorem SessionInv.next : SessionInv (history ++ s.next.2) s.next.1 := by
  obtain ⟨served, answered, calls⟩ := inv.fresh_call
  unfold StreamSession.next
  cases output : s.output with
  | none =>
    rw [List.append_nil]
    rw [List.append_assoc] at served answered calls
    exact ⟨inv.frames, fun _ => output, inv.running, inv.unfinished, served, answered, calls,
      inv.final⟩
  | some taken =>
    obtain ⟨result, frames⟩ := taken
    have nobody : s.waiters = [] := by
      by_contra waiting
      cases output.symm.trans (inv.idle waiting)
    rw [nobody, List.append_nil] at served answered calls
    have idle : ({ s with frames, calls := s.calls + 1 } : StreamSession).waiters ≠ [] →
        ({ s with frames, calls := s.calls + 1 } : StreamSession).output = none :=
      fun waiting => absurd nobody waiting
    have answeredNow : ((history ++ [(s.calls, result)]).map Prod.fst ++ s.waiters).Nodup := by
      rw [nobody, List.append_nil, List.map_append]
      exact answered
    have callsNow : ∀ call ∈ (history ++ [(s.calls, result)]).map Prod.fst ++ s.waiters,
        call < s.calls + 1 := by
      rw [nobody, List.append_nil, List.map_append]
      exact calls
    rcases StreamSession.output_cases output with
      ⟨frame, rfl, queue⟩ | ⟨isFinal, none, queue, rfl, ended⟩
    · refine ⟨?_, idle, inv.running, inv.unfinished, ?_, answeredNow, callsNow, ?_⟩
      · have framesEq := inv.frames
        rw [queue] at framesEq
        rw [delivered_append, List.append_assoc]
        exact framesEq
      · rw [nobody, List.append_nil, servedCalls_append]
        exact served
      · intro answer member final
        rcases List.mem_append.mp member with member | member
        · rw [(inv.final answer member final).1] at queue
          cases queue
        · rw [List.mem_singleton.mp member] at final
          cases final
    · have consumer : s.consumer = .ended := by
        by_contra alive
        obtain ⟨failed, eof⟩ := inv.unfinished alive
        rw [failed, eof] at ended
        rcases ended with ended | ended
        · cases ended
        · cases ended
      refine ⟨?_, idle, inv.running, inv.unfinished, ?_, answeredNow, callsNow, ?_⟩
      · have framesEq := inv.frames
        have nothing : delivered [(s.calls, result)] = [] := by
          simp [delivered, none]
        rw [queue] at framesEq
        rw [delivered_append, nothing, List.append_nil]
        exact framesEq
      · have nothing : servedCalls [(s.calls, result)] = [] := by
          simp [servedCalls, none]
        rw [nobody, servedCalls_append, nothing, List.append_nil, List.append_nil]
        exact (List.pairwise_append.mp served).1
      · exact fun _ _ _ => ⟨rfl, consumer⟩

theorem SessionInv.timeout {call : Nat} (waiting : call ∈ s.waiters) :
    SessionInv (history ++ [(call, .timeout)]) { s with waiters := s.waiters.erase call } := by
  have nothing : delivered [(call, NextResult.timeout)] = [] := rfl
  have nobody : servedCalls [(call, NextResult.timeout)] = [] := rfl
  have permuted : List.Perm ((history ++ [(call, NextResult.timeout)]).map Prod.fst ++
      s.waiters.erase call) (history.map Prod.fst ++ s.waiters) := by
    rw [List.map_append, List.append_assoc]
    exact (List.perm_cons_erase waiting).symm.append_left _
  refine ⟨?_, ?_, inv.running, inv.unfinished, ?_, ?_, ?_, ?_⟩
  · rw [delivered_append, nothing, List.append_nil]
    exact inv.frames
  · exact fun _ => inv.idle (List.ne_nil_of_mem waiting)
  · rw [servedCalls_append, nobody, List.append_nil]
    exact inv.served.sublist ((List.Sublist.refl _).append List.erase_sublist)
  · exact permuted.nodup_iff.mpr inv.answered
  · exact fun other member => inv.calls other (permuted.mem_iff.mp member)
  · intro answer member final
    rcases List.mem_append.mp member with member | member
    · exact inv.final answer member final
    · rw [List.mem_singleton.mp member] at final
      cases final

theorem SessionInv.step (stepped : sessionStep s label = some (after, answers)) :
    SessionInv (history ++ answers) after := by
  cases label with
  | chunk bytes =>
    simp only [sessionStep] at stepped
    split at stepped
    · next running =>
        obtain ⟨rfl, rfl⟩ := Prod.mk.inj (Option.some.inj stepped)
        exact inv.chunk running bytes
    · cases stepped
  | ends =>
    simp only [sessionStep] at stepped
    split at stepped
    · next running =>
        obtain ⟨rfl, rfl⟩ := Prod.mk.inj (Option.some.inj stepped)
        exact inv.finish (by rw [running]; exact nofun) none
    · cases stepped
  | breaks thrown =>
    simp only [sessionStep] at stepped
    split at stepped
    · next running =>
        obtain ⟨rfl, rfl⟩ := Prod.mk.inj (Option.some.inj stepped)
        exact inv.fail (by rw [running]; exact nofun) thrown
    · cases stepped
  | returned =>
    simp only [sessionStep] at stepped
    split at stepped
    · next thrown returning =>
        obtain ⟨rfl, rfl⟩ := Prod.mk.inj (Option.some.inj stepped)
        exact inv.fail (by rw [returning]; exact nofun) thrown
    · cases stepped
  | next =>
    obtain ⟨rfl, rfl⟩ := Prod.mk.inj (Option.some.inj stepped)
    exact inv.next
  | timeout call =>
    simp only [sessionStep, Option.ite_none_right_eq_some, Option.some.injEq, Prod.mk.injEq]
      at stepped
    obtain ⟨waiting, rfl, rfl⟩ := stepped
    exact inv.timeout waiting

/-- What happens to a session answers calls that wait, and nothing but `next`
adds one. -/
theorem SessionInv.step_waiters
    (notNext : label ≠ .next) (stepped : sessionStep s label = some (after, answers)) :
    (answers.map Prod.fst ++ after.waiters).Perm s.waiters := by
  have finished : ∀ failed : Option String,
      (s.finish failed).2.map Prod.fst ++ (s.finish failed).1.waiters = s.waiters :=
    fun failed => (drain_delivers { s with failed, eof := true, consumer := .ended }).waiters
  have failing : ∀ thrown : Thrown,
      (s.fail thrown).2.map Prod.fst ++ (s.fail thrown).1.waiters = s.waiters := by
    intro thrown
    unfold StreamSession.fail
    split
    · exact finished _
    · rfl
  cases label with
  | chunk bytes =>
    simp only [sessionStep] at stepped
    split at stepped
    · obtain ⟨rfl, rfl⟩ := Prod.mk.inj (Option.some.inj stepped)
      have reads : Reads { s with buffer := s.buffer ++ bytes, chunks := s.chunks ++ [bytes] }
          (s.receive bytes).1 (s.receive bytes).2 :=
        readFuel_reads (Nat.lt_succ_self _) inv.idle
      exact .of_eq reads.delivers.waiters
    · cases stepped
  | ends =>
    simp only [sessionStep] at stepped
    split at stepped
    · obtain ⟨rfl, rfl⟩ := Prod.mk.inj (Option.some.inj stepped)
      exact .of_eq (finished none)
    · cases stepped
  | breaks thrown =>
    simp only [sessionStep] at stepped
    split at stepped
    · obtain ⟨rfl, rfl⟩ := Prod.mk.inj (Option.some.inj stepped)
      exact .of_eq (failing thrown)
    · cases stepped
  | returned =>
    simp only [sessionStep] at stepped
    split at stepped
    · next thrown _ =>
        obtain ⟨rfl, rfl⟩ := Prod.mk.inj (Option.some.inj stepped)
        exact .of_eq (failing thrown)
    · cases stepped
  | next => exact absurd rfl notNext
  | timeout call =>
    simp only [sessionStep, Option.ite_none_right_eq_some, Option.some.injEq, Prod.mk.injEq]
      at stepped
    obtain ⟨waiting, rfl, rfl⟩ := stepped
    exact (List.perm_cons_erase waiting).symm

end

theorem sessionInv_runs (runs : Transition.Runs sessionStep Transition.unrestricted
    StreamSession.initial history s) : SessionInv history s :=
  runs.invariant SessionInv sessionInv_initial fun _ _ _ _ _ inv _ stepped => inv.step stepped

end P2PHub.NetworkLibp2p
