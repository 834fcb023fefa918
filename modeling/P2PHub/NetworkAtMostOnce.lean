import P2PHub.NetworkRetries
import P2PHub.ServerConnectionFrames
import P2PHub.TaskBrokerDispatch
import P2PHub.TaskBrokerStarts

/-!
# A network task is started at most once

A call of `ctx.network.sendTask` together with the servers at the other ends of
its connections.  The network may delay, cut and drop what the caller has
written, and what reaches the caller is arbitrary.
-/

namespace P2PHub.NetworkLight

open Transition

/-- The other end of a connection, with the bytes that have reached it. -/
structure Remote where
  arrived : List UInt8
  connection : Connection

structure Dispatch where
  call : SendCall
  remotes : List Remote

inductive DispatchLabel
  | call (label : CallLabel)
  | remote (connection : Nat) (label : ConnectionLabel)

def Dispatch.initial (task : TaskBody) (active : Option Provider) (peerId : String) (now : Nat) :
    Dispatch :=
  ⟨sendTask task active peerId now, []⟩

/-- The tasks that the handlers of the servers were called with. -/
def Dispatch.calls (dispatch : Dispatch) : List TaskBody :=
  dispatch.remotes.flatMap fun remote => remote.connection.calls

/-- A turn of the caller, whose new connection has a server at its end, or of a
server, which the network gives the next bytes of what the caller has
written. -/
def dispatchStep (task : TaskBody) (worlds : Nat → Surroundings) (dispatch : Dispatch) :
    DispatchLabel → Option (Dispatch × List Unit)
  | .call label =>
    (callStep task dispatch.call label).map fun after =>
      (⟨after, dispatch.remotes ++
        List.replicate (after.sockets.length - dispatch.call.sockets.length) ⟨[], .initial⟩⟩, [])
  | .remote connection label =>
    (dispatch.call.sockets[connection]?).bind fun socket =>
      (dispatch.remotes[connection]?).bind fun remote =>
        if (remote.arrived ++ label.chunk).isPrefixOf socket.exchange.written then
          (connectionStep (worlds connection) remote.connection label).map fun after =>
            ({ dispatch with
                remotes := dispatch.remotes.set connection
                  ⟨remote.arrived ++ label.chunk, after.1⟩ }, [])
        else none

section

variable {task : TaskBody} {worlds : Nat → Surroundings} {dispatch after : Dispatch}
  {sockets : List Socket} {remotes : List Remote} {outputs : List Unit}

/-- A server that has taken part of what its connection has written. -/
structure Remote.Fed (world : Surroundings) (remote : Remote) (socket : Socket) : Prop where
  inv : Inv world remote.connection
  accounts : Accounts remote.arrived remote.connection
  arrived : remote.arrived <+: socket.exchange.written

theorem Exchange.Turn.written {caller : Caller} {errand : Errand} {x next : Exchange}
    {label : ExchangeLabel} (turn : x.Turn caller errand label next) :
    x.written <+: next.written := by
  obtain ⟨later, messages⟩ := turn.messages
  rw [Exchange.written, Exchange.written, messages, List.flatMap_append]
  exact List.prefix_append _ _

structure Served (worlds : Nat → Surroundings) (sockets : List Socket) (remotes : List Remote) :
    Prop where
  paired : remotes.length = sockets.length
  paced : ∀ (index : Nat) (socket : Socket), sockets[index]? = some socket → socket.exchange.Paced
  fed : ∀ (index : Nat) (remote : Remote) (socket : Socket), remotes[index]? = some remote →
    sockets[index]? = some socket → remote.Fed (worlds index) socket

/-- The invariant: at most one connection, and every server fed by its own. -/
structure Dispatch.Inv (worlds : Nat → Surroundings) (dispatch : Dispatch) : Prop where
  single : dispatch.call.Single
  served : Served worlds dispatch.call.sockets dispatch.remotes

theorem served_nil : Served worlds [] [] where
  paired := rfl
  paced := by
    intro index socket found
    cases found
  fed := by
    intro index remote socket found
    cases found

theorem Dispatch.inv_initial (task : TaskBody) (active : Option Provider) (peerId : String)
    (now : Nat) : (Dispatch.initial task active peerId now).Inv worlds where
  single := single_sendTask task active peerId now
  served := served_nil

theorem SendCall.Single.sockets_le {call : SendCall} (single : call.Single) :
    call.sockets.length ≤ 1 := by
  cases single with
  | starting | sleeping | unopened => exact Nat.zero_le 1
  | awaiting | finished => exact Nat.le_refl 1

theorem Remote.fed_initial (world : Surroundings) (socket : Socket) :
    Remote.Fed world ⟨[], .initial⟩ socket where
  inv := inv_initial
  accounts := accounts_initial
  arrived := List.nil_prefix

theorem Served.step {next : List Socket}
    (served : Served worlds sockets remotes) (step : SocketStep sockets next) : Served worlds next
      (remotes ++ List.replicate (next.length - sockets.length) ⟨[], .initial⟩) := by
  cases step with
  | same =>
    rw [Nat.sub_self, List.replicate_zero, List.append_nil]
    exact served
  | opened caller errand =>
    have one : (sockets ++ [(⟨caller, errand, .initial⟩ : Socket)]).length - sockets.length = 1 :=
      by
      simp
    rw [one]
    constructor
    · simp [served.paired]
    · intro index socket found
      by_cases old : index < sockets.length
      · rw [List.getElem?_append_left old] at found
        exact served.paced index socket found
      · rw [List.getElem?_append_right (not_lt.mp old)] at found
        obtain rfl := List.mem_singleton.mp (List.mem_of_getElem? found)
        exact Exchange.paced_initial
    · intro index remote socket remoteFound found
      by_cases old : index < sockets.length
      · have oldRemote : index < remotes.length := served.paired ▸ old
        rw [List.getElem?_append_left old] at found
        rw [List.getElem?_append_left oldRemote] at remoteFound
        exact served.fed index remote socket remoteFound found
      · have newRemote : remotes.length ≤ index := served.paired ▸ not_lt.mp old
        rw [List.getElem?_append_right newRemote] at remoteFound
        obtain rfl := List.mem_singleton.mp (List.mem_of_getElem? remoteFound)
        exact Remote.fed_initial (worlds index) socket
  | turned found stepped =>
    next connection socket exchange label =>
    have paced := served.paced connection socket found
    have turn := exchangeStep_turn paced.proving_phase stepped
    have here := (List.getElem?_eq_some_iff.mp found).1
    rw [List.length_set, Nat.sub_self, List.replicate_zero, List.append_nil]
    constructor
    · rw [List.length_set]
      exact served.paired
    · intro index other located
      by_cases same : connection = index
      · subst connection
        rw [List.getElem?_set_self here] at located
        cases located
        exact turn.paced paced
      · rw [List.getElem?_set_ne same] at located
        exact served.paced index other located
    · intro index remote other remoteFound located
      by_cases same : connection = index
      · subst connection
        rw [List.getElem?_set_self here] at located
        cases located
        have fed := served.fed index remote socket remoteFound found
        exact ⟨fed.inv, fed.accounts, fed.arrived.trans turn.written⟩
      · rw [List.getElem?_set_ne same] at located
        exact served.fed index remote other remoteFound located

theorem Served.turn
    (served : Served worlds sockets remotes) {index : Nat} {socket : Socket} {remote : Remote}
    {label : ConnectionLabel} {server : Connection}
    (located : sockets[index]? = some socket) (found : remotes[index]? = some remote)
    (arrives : remote.arrived ++ label.chunk <+: socket.exchange.written)
    (turned : connectionStep (worlds index) remote.connection label = some (server, outputs)) :
    Served worlds sockets (remotes.set index ⟨remote.arrived ++ label.chunk, server⟩) := by
  refine ⟨?_, served.paced, ?_⟩
  · rw [List.length_set]
    exact served.paired
  · intro position other owner otherFound ownerFound
    by_cases same : index = position
    · subst position
      rw [List.getElem?_set_self (List.getElem?_eq_some_iff.mp found).1] at otherFound
      cases otherFound
      obtain rfl : socket = owner := Option.some.inj (located.symm.trans ownerFound)
      have fed := served.fed index remote socket found located
      exact ⟨connectionStep_inv fed.inv turned, fed.accounts.step turned, arrives⟩
    · rw [List.getElem?_set_ne same] at otherFound
      exact served.fed position other owner otherFound ownerFound

theorem Dispatch.Inv.step (inv : dispatch.Inv worlds) {label : DispatchLabel}
    (stepped : dispatchStep task worlds dispatch label = some (after, outputs)) :
    after.Inv worlds := by
  cases label with
  | call =>
    simp only [dispatchStep, Option.map_eq_some_iff, Prod.mk.injEq] at stepped
    obtain ⟨call, called, rfl, _⟩ := stepped
    exact ⟨inv.single.step called, inv.served.step (callStep_sockets called)⟩
  | remote =>
    simp only [dispatchStep, Option.bind_eq_some_iff, Option.ite_none_right_eq_some,
      Option.map_eq_some_iff, Prod.mk.injEq] at stepped
    obtain ⟨socket, located, remote, found, arrives, ⟨server, emitted⟩, turned, rfl, _⟩ := stepped
    have arrives := List.isPrefixOf_iff_prefix.mp arrives
    exact ⟨inv.single, inv.served.turn located found arrives turned⟩

theorem Dispatch.Inv.calls_le (inv : dispatch.Inv worlds) : dispatch.calls.length ≤ 1 := by
  have one := inv.single.sockets_le
  have paired := inv.served.paired
  unfold Dispatch.calls
  cases remotesEq : dispatch.remotes with
  | nil => exact Nat.zero_le 1
  | cons remote remotes =>
    cases socketsEq : dispatch.call.sockets with
    | nil =>
      rw [remotesEq, socketsEq] at paired
      cases paired
    | cons socket sockets =>
      rw [remotesEq, List.length_cons] at paired
      obtain rfl : remotes = [] := List.length_eq_zero_iff.mp (by omega)
      have located : dispatch.call.sockets[0]? = some socket := by rw [socketsEq]; rfl
      have found : dispatch.remotes[0]? = some remote := by rw [remotesEq]; rfl
      have fed := inv.served.fed 0 remote socket found located
      have few := (inv.served.paced 0 socket located).few
      rw [List.flatMap_singleton]
      exact calls_length_le_one fed.inv fed.accounts few fed.arrived

end

/-- Over any behaviour of the network, with any timing of the timers and of the
servers, one call of `ctx.network.sendTask` makes the servers call their task
handler at most once in all, and in every run of a broker a call, such as that
of `handleRemote` by a task handler, starts the skill's handler at most
once. -/
theorem sendTask_at_most_once :
    (∀ (task : TaskBody) (worlds : Nat → Surroundings) (active : Option Provider)
      (peerId : String) (now : Nat) (history : List Unit) (dispatch : Dispatch),
      Runs (dispatchStep task worlds) unrestricted
          (.initial task active peerId now) history dispatch → dispatch.calls.length ≤ 1) ∧
    ∀ (settings : BrokerSettings) (broker : TaskBroker) (history : List (Nat × BrokerEvent))
      (pool : AsyncCalls.Pool TaskBroker BrokerCall),
      Runs (brokerProgram settings).step (fun _ _ _ => True) (.initial broker) history pool →
        ∀ index, (AsyncCalls.ownOutputs history index).countP BrokerEvent.isStart ≤ 1 := by
  constructor
  · intro task worlds active peerId now history dispatch runs
    have inv := runs.invariant (fun _ dispatch => dispatch.Inv worlds)
      (Dispatch.inv_initial task active peerId now) fun _ _ _ _ _ inv _ stepped =>
        Dispatch.Inv.step inv stepped
    exact inv.calls_le
  · intro settings broker history pool runs index
    exact starts_at_most_once runs index

def serverFingerprint : String :=
  "DD"

def serverPeer : DiscoveredPeer where
  id := "instance"
  address := "10.0.0.8:4000"
  skills := []
  name := none
  certFingerprint := some serverFingerprint
  peerId := some trustingWorld.peerId
  peerIdVerified := false
  protocolVersion := none

def serverDirectory : Directory :=
  ⟨OrderedMap.empty.set serverPeer.id serverPeer, .empty⟩

def trustingCaller : Caller where
  skills := []
  helloHints := none
  peerId := clientPeerId
  certFingerprint := "BB"
  verify := fun _ _ _ => true

def sentTask : TaskBody where
  id := "t1"
  skill := "calc:recalc"
  payload := .null

def sentErrand : Errand where
  task := sentTask
  expectedFingerprint := some serverFingerprint
  clientNonce := "c1"

/-- The first attempt is refused, the second one reaches the server, and the
response timer ends it. -/
def refusedThenSilent : List DispatchLabel :=
  [.call (.throws (.error "connect ECONNREFUSED" (some "ECONNREFUSED"))), .call (.elapse 200),
    .call (.fire 0), .call (.opens trustingCaller (some serverFingerprint) "c1"),
    .call (.socket 0 (.secured (some serverFingerprint))),
    .remote 0 (.data (callerHello trustingCaller sentErrand).bytes),
    .call (.elapse 10000), .call (.fire 0)]

theorem sendTask_at_most_once_silent :
    (∃ dispatch : Dispatch, dispatch.remotes.any (·.connection.handshakeDone) ∧
      dispatch.calls.length ≤ 1) ∧ ∃ history : List (Nat × BrokerEvent),
      (history.any fun output => output.2.isStart) ∧
        (AsyncCalls.ownOutputs history 0).countP BrokerEvent.isStart ≤ 1 := by
  constructor
  · obtain ⟨history, dispatch, runs, shaken⟩ := exists_runs_of_any
      (dispatchStep sentTask fun _ => trustingWorld) (fun _ => True)
      (.initial sentTask (some (.networkLight serverDirectory)) trustingWorld.peerId 0)
      refusedThenSilent (fun result => result.1.remotes.any (·.connection.handshakeDone))
      (fun _ _ => trivial) (by decide +kernel)
    exact ⟨dispatch, shaken, sendTask_at_most_once.1 _ _ _ _ _ history dispatch runs.unrestrict⟩
  · obtain ⟨history, pool, runs, started⟩ := exists_runs_of_any
      (brokerProgram anonymousSettings).step (fun _ => True) (.initial publicBroker)
      [.launch (.registerSkill "echo" 7 publicSkill), .launch (.handleRemote remoteTask),
        .resume 0 (.agentLabel .failed), .resume 0 (.access 0 0), .resume 0 (.proceed 0 .pending)]
      (fun result => result.2.any fun output => output.2.isStart) (fun _ _ => trivial) rfl
    exact ⟨history, started, sendTask_at_most_once.2 _ _ history pool runs 0⟩

end P2PHub.NetworkLight
