import P2PHub.PeerDirectory

/-!
# Timeouts and retries of a network task

`withTimeout` and `withRetry` in `core/src/network/retry.ts` around the
provider's `sendTask`, as `ctx.network.sendTask` in
`core/src/plugin-loader/plugin-loader.ts` runs them.  The platform fires timers
of one duration in the order in which they were set, and the reactions of a
settled promise come before the next timer.
-/

namespace P2PHub.NetworkLight

def defaultRequestTimeoutMs : Nat := 10000

def responseTimeoutMs : Nat := 10000

/-- A `NetworkTimeoutError`, or anything else that was thrown. -/
inductive Failure
  | networkTimeout (timeoutMs : Nat)
  | thrown (reason : Thrown)

/-- What the caller of `ctx.network.sendTask` is told, unless reporting
throws. -/
def Failure.report : Failure → Option String
  | networkTimeout timeoutMs =>
    some ("network request timed out after " ++ toString timeoutMs ++ "ms")
  | thrown reason => reason.report.map Prod.fst

def isTransientError : Failure → Bool
  | .networkTimeout _ => true
  | .thrown (.error _ (some code)) =>
    code = "ECONNRESET" || code = "ETIMEDOUT" || code = "ECONNREFUSED"
  | .thrown _ => false

structure RetryOptions where
  maxRetries : Nat
  initialDelayMs : Nat
  factor : Nat

def retryOptions : RetryOptions where
  maxRetries := 3
  initialDelayMs := 200
  factor := 2

inductive TimerKind
  | response (connection : Nat)
  | request (attempt : Nat)
  | backoff (attempt : Nat)
  deriving DecidableEq, Repr

structure Timer where
  kind : TimerKind
  duration : Nat
  expiry : Nat
  deriving DecidableEq, Repr

structure Socket where
  caller : Caller
  errand : Errand
  exchange : Exchange

/-- Where `withRetry` stands.  A call without a result was rejected. -/
inductive Stage
  | starting (attempt : Nat)
  | awaiting (attempt connection : Nat)
  | sleeping (attempt : Nat)
  | settled (result : Option ResultBody)

/-- A call of `ctx.network.sendTask`: the timers in the order in which they were
set, and the connections opened so far. -/
structure SendCall where
  now : Nat
  timers : List Timer
  stage : Stage
  sockets : List Socket

inductive CallLabel
  | elapse (milliseconds : Nat)
  | opens (caller : Caller) (expectedFingerprint : Option String) (clientNonce : String)
  | throws (thrown : Thrown)
  | socket (connection : Nat) (label : ExchangeLabel)
  | fire (position : Nat)

section

variable (task : TaskBody)

def SendCall.setTimer (call : SendCall) (kind : TimerKind) (duration : Nat) : SendCall :=
  { call with timers := call.timers ++ [⟨kind, duration, call.now + duration⟩] }

def SendCall.clearTimer (call : SendCall) (kind : TimerKind) : SendCall :=
  { call with timers := call.timers.filter (·.kind ≠ kind) }

/-- The beginning of `ctx.network.sendTask`. -/
def sendTask (active : Option Provider) (peerId : String) (now : Nat) : SendCall where
  now := now
  timers := []
  stage :=
    match active with
    | none => .settled (some (failedResult task "no active network provider"))
    | some provider =>
      match provider.getPeer peerId with
      | none =>
        .settled (some (failedResult task ("peer \"" ++ peerId ++ "\" is not currently reachable")))
      | some _ => .starting 0
  sockets := []

/-- An attempt that reaches the connection: the provider sets its timer before
its promise is returned, and `withTimeout` sets the other one after. -/
def SendCall.connect (call : SendCall) (attempt : Nat) (caller : Caller) (errand : Errand) :
    SendCall :=
  let opened : SendCall :=
    { call with
      stage := .awaiting attempt call.sockets.length
      sockets := call.sockets ++ [⟨caller, errand, .initial⟩] }
  (opened.setTimer (.response call.sockets.length) responseTimeoutMs).setTimer
    (.request attempt) defaultRequestTimeoutMs

/-- The `catch` block of `withRetry`, and that of `ctx.network.sendTask` around
it. -/
def SendCall.catchFailure (call : SendCall) (attempt : Nat) (failure : Failure) : SendCall :=
  if isTransientError failure && attempt < retryOptions.maxRetries then
    { call with stage := .sleeping attempt }.setTimer (.backoff attempt)
      (retryOptions.initialDelayMs * retryOptions.factor ^ attempt)
  else { call with stage := .settled (failure.report.map (failedResult task)) }

/-- The reactions to the result of a connection: the provider clears its timer
and `withTimeout` its own, unless that attempt is over. -/
def SendCall.react (call : SendCall) (connection : Nat) (result : ResultBody) : SendCall :=
  let cleared := call.clearTimer (.response connection)
  match cleared.stage with
  | .awaiting attempt awaited =>
    if awaited = connection then
      { cleared.clearTimer (.request attempt) with stage := .settled (some result) }
    else cleared
  | _ => cleared

/-- A turn of a connection with the reactions that follow it. -/
def SendCall.turn (call : SendCall) (connection : Nat) (label : ExchangeLabel) : Option SendCall :=
  (call.sockets[connection]?).bind fun socket =>
    (exchangeStep socket.caller socket.errand socket.exchange label).map fun after =>
      let updated : SendCall :=
        { call with sockets := call.sockets.set connection { socket with exchange := after } }
      match socket.exchange.outcome, after.outcome with
      | none, some result => updated.react connection result
      | _, _ => updated

def SendCall.expire (call : SendCall) : TimerKind → Option SendCall
  | .response connection => call.turn connection .timedOut
  | .request attempt =>
    match call.stage with
    | .awaiting current _ =>
      if current = attempt then
        some (call.catchFailure task attempt (.networkTimeout defaultRequestTimeoutMs))
      else some call
    | _ => some call
  | .backoff attempt =>
    match call.stage with
    | .sleeping _ => some { call with stage := .starting (attempt + 1) }
    | _ => some call

/-- A timer fires when it is due, after the timers of its duration that were set
before it. -/
def SendCall.fires (call : SendCall) (position : Nat) (timer : Timer) : Bool :=
  timer.expiry ≤ call.now &&
    (call.timers.take position).all fun earlier => earlier.duration ≠ timer.duration

def SendCall.drop (call : SendCall) (position : Nat) : SendCall :=
  { call with timers := call.timers.eraseIdx position }

def callStep (call : SendCall) : CallLabel → Option SendCall
  | .elapse milliseconds => some { call with now := call.now + milliseconds }
  | .opens caller expectedFingerprint clientNonce =>
    match call.stage with
    | .starting attempt =>
      some (call.connect attempt caller { task, expectedFingerprint, clientNonce })
    | _ => none
  | .throws thrown =>
    match call.stage with
    | .starting attempt => some (call.catchFailure task attempt (.thrown thrown))
    | _ => none
  | .socket _ .timedOut => none
  | .socket connection label => call.turn connection label
  | .fire position =>
    (call.timers[position]?).bind fun timer =>
      if call.fires position timer then (call.drop position).expire task timer.kind else none

end

section

variable {task : TaskBody} {call after : SendCall} {label : ExchangeLabel}

def awaitingTimers (attempt connection started : Nat) : List Timer :=
  [⟨.response connection, responseTimeoutMs, started + responseTimeoutMs⟩,
    ⟨.request attempt, defaultRequestTimeoutMs, started + defaultRequestTimeoutMs⟩]

/-- The invariant: nothing is retried once a connection was opened. -/
inductive SendCall.Single : SendCall → Prop
  | starting {now attempt : Nat} : Single ⟨now, [], .starting attempt, []⟩
  | sleeping {now attempt : Nat} {timer : Timer} (backoff : timer.kind = .backoff attempt) :
      Single ⟨now, [timer], .sleeping attempt, []⟩
  | awaiting {now attempt started : Nat} {socket : Socket}
      (pending : socket.exchange.outcome = none) :
      Single ⟨now, awaitingTimers attempt 0 started, .awaiting attempt 0, [socket]⟩
  | unopened {now : Nat} {result : Option ResultBody} : Single ⟨now, [], .settled result, []⟩
  | finished {now : Nat} {result : Option ResultBody} {socket : Socket}
      (outcome : socket.exchange.outcome.isSome) :
      Single ⟨now, [], .settled result, [socket]⟩

theorem single_sendTask (task : TaskBody) (active : Option Provider) (peerId : String)
    (now : Nat) : (sendTask task active peerId now).Single := by
  unfold sendTask
  split
  · exact .unopened
  · split
    · exact .unopened
    · exact .starting

theorem single_catchFailure (attempt now : Nat) (failure : Failure) :
    (SendCall.catchFailure task ⟨now, [], .starting attempt, []⟩ attempt failure).Single := by
  unfold SendCall.catchFailure
  split
  · exact .sleeping rfl
  · exact .unopened

theorem SendCall.turn_eq_some {connection : Nat}
    (turned : call.turn connection label = some after) :
    ∃ socket next, call.sockets[connection]? = some socket ∧
      exchangeStep socket.caller socket.errand socket.exchange label = some next ∧
      ((socket.exchange.outcome = none ∧ ∃ result, next.outcome = some result ∧
          after = SendCall.react { call with
              sockets := call.sockets.set connection { socket with exchange := next } }
            connection result) ∨
        (socket.exchange.outcome = none → next.outcome = none) ∧ after = { call with
            sockets := call.sockets.set connection { socket with exchange := next } }) := by
  simp only [turn, Option.bind_eq_some_iff, Option.map_eq_some_iff] at turned
  obtain ⟨socket, found, next, stepped, rfl⟩ := turned
  refine ⟨socket, next, found, stepped, ?_⟩
  cases former : socket.exchange.outcome with
  | none =>
    cases latter : next.outcome with
    | none => exact .inr ⟨fun _ => rfl, rfl⟩
    | some result => exact .inl ⟨rfl, result, rfl, rfl⟩
  | some => exact .inr ⟨fun undecided => (by cases undecided), rfl⟩

theorem SendCall.react_awaiting (now attempt started : Nat) (sockets : List Socket)
    (result : ResultBody) :
    SendCall.react ⟨now, awaitingTimers attempt 0 started, .awaiting attempt 0, sockets⟩ 0 result =
      ⟨now, [], .settled (some result), sockets⟩ := by
  simp [react, clearTimer, awaitingTimers]

theorem SendCall.Single.turn (single : call.Single) {connection : Nat}
    (turned : call.turn connection label = some after) : after.Single := by
  obtain ⟨socket, next, found, stepped, outcome⟩ := turn_eq_some turned
  cases single with
  | starting | sleeping | unopened => cases found
  | awaiting pending =>
    next now attempt started awaited =>
    obtain ⟨rfl, rfl⟩ : connection = 0 ∧ awaited = socket := by
      cases connection with
      | zero => exact ⟨rfl, Option.some.inj found⟩
      | succ => cases found
    rcases outcome with ⟨_, result, given, rfl⟩ | ⟨quiet, rfl⟩
    · rw [react_awaiting]
      have finished : next.outcome.isSome := by rw [given]; rfl
      exact .finished finished
    · exact .awaiting (quiet pending)
  | finished given =>
    next now result other =>
    obtain ⟨rfl, rfl⟩ : connection = 0 ∧ other = socket := by
      cases connection with
      | zero => exact ⟨rfl, Option.some.inj found⟩
      | succ => cases found
    have kept : next.outcome.isSome := exchangeStep_outcome stepped given
    rcases outcome with ⟨pending, _⟩ | ⟨_, rfl⟩
    · rw [pending] at given
      cases given
    · exact .finished kept

theorem SendCall.single_respond {now attempt started : Nat} {socket : Socket}
    (pending : socket.exchange.outcome = none) (turned : SendCall.turn
      ⟨now, (awaitingTimers attempt 0 started).eraseIdx 0, .awaiting attempt 0, [socket]⟩ 0
      .timedOut = some after) : after.Single := by
  obtain ⟨other, next, found, stepped, outcome⟩ := turn_eq_some turned
  obtain rfl : socket = other := Option.some.inj found
  have given : next.outcome.isSome := exchangeStep_timedOut stepped
  rcases outcome with ⟨_, result, _, rfl⟩ | ⟨quiet, _⟩
  · have settled : SendCall.react
        ⟨now, (awaitingTimers attempt 0 started).eraseIdx 0, .awaiting attempt 0,
          [{ socket with exchange := next }]⟩ 0 result =
        ⟨now, [], .settled (some result), [{ socket with exchange := next }]⟩ := by
      simp [react, clearTimer, awaitingTimers]
    rw [show ([socket].set 0 { socket with exchange := next }) =
      [{ socket with exchange := next }] from rfl, settled]
    exact .finished given
  · rw [quiet pending] at given
    cases given

/-- The request timer cannot fire while the response timer that was set before
it is there. -/
theorem SendCall.request_waits (now attempt started : Nat) (sockets : List Socket) :
    SendCall.fires ⟨now, awaitingTimers attempt 0 started, .awaiting attempt 0, sockets⟩ 1
      ⟨.request attempt, defaultRequestTimeoutMs, started + defaultRequestTimeoutMs⟩ = false := by
  simp [fires, awaitingTimers, responseTimeoutMs, defaultRequestTimeoutMs]

theorem SendCall.Single.fire (single : call.Single) {position : Nat}
    (stepped : callStep task call (.fire position) = some after) : after.Single := by
  simp only [callStep, Option.bind_eq_some_iff, Option.ite_none_right_eq_some] at stepped
  obtain ⟨timer, found, fires, expired⟩ := stepped
  cases single with
  | starting | unopened | finished => cases found
  | sleeping backoff =>
    next now attempt only =>
    obtain ⟨rfl, rfl⟩ : position = 0 ∧ only = timer := by
      cases position with
      | zero => exact ⟨rfl, Option.some.inj found⟩
      | succ => cases found
    rw [backoff] at expired
    cases expired
    exact .starting
  | awaiting pending =>
    next now attempt started socket =>
    rcases position with _ | _ | position
    · cases found
      exact single_respond pending expired
    · cases found
      rw [request_waits] at fires
      cases fires
    · cases found

theorem SendCall.Single.step (single : call.Single) {label : CallLabel}
    (stepped : callStep task call label = some after) : after.Single := by
  cases label with
  | elapse =>
    cases stepped
    cases single with
    | starting => exact .starting
    | sleeping backoff => exact .sleeping backoff
    | awaiting pending => exact .awaiting pending
    | unopened => exact .unopened
    | finished given => exact .finished given
  | opens =>
    cases single with
    | starting =>
      cases stepped
      exact .awaiting rfl
    | sleeping | awaiting | unopened | finished => cases stepped
  | throws =>
    cases single with
    | starting =>
      cases stepped
      exact single_catchFailure _ _ _
    | sleeping | awaiting | unopened | finished => cases stepped
  | socket connection label =>
    cases label with
    | timedOut => cases stepped
    | _ => exact single.turn stepped
  | fire => exact single.fire stepped

end

variable {task : TaskBody} {call after : SendCall}

/-- What a step does to the connections: nothing, one is opened, or one takes a
turn. -/
inductive SocketStep (sockets : List Socket) : List Socket → Prop
  | same : SocketStep sockets sockets
  | opened (caller : Caller) (errand : Errand) :
      SocketStep sockets (sockets ++ [⟨caller, errand, .initial⟩])
  | turned {connection : Nat} {socket : Socket} {next : Exchange} {label : ExchangeLabel}
      (found : sockets[connection]? = some socket)
      (stepped : exchangeStep socket.caller socket.errand socket.exchange label = some next) :
      SocketStep sockets (sockets.set connection { socket with exchange := next })

theorem SendCall.catchFailure_sockets (attempt : Nat) (failure : Failure) :
    (call.catchFailure task attempt failure).sockets = call.sockets := by
  unfold catchFailure
  split <;> rfl

theorem SendCall.react_sockets (connection : Nat) (result : ResultBody) :
    (call.react connection result).sockets = call.sockets := by
  unfold react
  dsimp only
  split
  · split <;> rfl
  · rfl

theorem SendCall.turn_sockets {connection : Nat} {label : ExchangeLabel}
    (turned : call.turn connection label = some after) : SocketStep call.sockets after.sockets := by
  obtain ⟨socket, next, found, stepped, ⟨_, result, _, rfl⟩ | ⟨_, rfl⟩⟩ := turn_eq_some turned
  · rw [react_sockets]
    exact .turned found stepped
  · exact .turned found stepped

theorem SendCall.expire_sockets {kind : TimerKind} (expired : call.expire task kind = some after) :
    SocketStep call.sockets after.sockets := by
  unfold expire at expired
  split at expired
  · exact turn_sockets expired
  · split at expired
    · split at expired
      · cases expired
        rw [catchFailure_sockets]
        exact .same
      · cases expired
        exact .same
    · cases expired
      exact .same
  · split at expired
    · cases expired
      exact .same
    · cases expired
      exact .same

theorem callStep_sockets {label : CallLabel} (stepped : callStep task call label = some after) :
    SocketStep call.sockets after.sockets := by
  cases label with
  | elapse =>
    cases stepped
    exact .same
  | opens caller =>
    simp only [callStep] at stepped
    split at stepped
    · cases stepped
      exact .opened caller _
    · cases stepped
  | throws =>
    simp only [callStep] at stepped
    split at stepped
    · cases stepped
      rw [SendCall.catchFailure_sockets]
      exact .same
    · cases stepped
  | socket connection label =>
    cases label with
    | timedOut => cases stepped
    | _ => exact SendCall.turn_sockets stepped
  | fire position =>
    simp only [callStep, Option.bind_eq_some_iff, Option.ite_none_right_eq_some] at stepped
    obtain ⟨timer, _, _, expired⟩ := stepped
    have dropped : SocketStep (call.drop position).sockets after.sockets :=
      SendCall.expire_sockets expired
    exact dropped

end P2PHub.NetworkLight
