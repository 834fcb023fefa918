import Mathlib.Data.List.Count
import Mathlib.Data.List.Perm.Basic
import P2PHub.InsertionOrderedMap
import P2PHub.TransitionRuns

/-!
# Connection and task slots of the transport

The counters of `plugins/network-light/src/peer-limiter.ts`, and where
`handleConnection`, `handleMessage`, `handleSubReqMessage` and `stop` of
`network-light-provider.ts` reserve, release and clear them.
-/

namespace P2PHub.NetworkLight

open OrderedMap Transition

inductive SlotKind
  | connection
  | task
  deriving DecidableEq

/-- The limits on what one IP may hold at a time. -/
structure PeerLimitConfig where
  maxConnectionsPerIp : Nat
  maxConcurrentTasksPerIp : Nat

def PeerLimitConfig.cap (config : PeerLimitConfig) : SlotKind → Nat
  | .connection => config.maxConnectionsPerIp
  | .task => config.maxConcurrentTasksPerIp

/-- The counters of a `PeerLimiter`. -/
structure PeerLimiter where
  connections : OrderedMap String Nat
  tasks : OrderedMap String Nat

def PeerLimiter.counts (limiter : PeerLimiter) : SlotKind → OrderedMap String Nat
  | .connection => limiter.connections
  | .task => limiter.tasks

def countOf (counts : OrderedMap String Nat) (ip : String) : Nat :=
  (counts.get ip).getD 0

def tryAcquire (cap : Nat) (counts : OrderedMap String Nat) (ip : String) :
    OrderedMap String Nat × Bool :=
  if countOf counts ip ≥ cap then (counts, false) else (counts.set ip (countOf counts ip + 1), true)

def release (counts : OrderedMap String Nat) (ip : String) : OrderedMap String Nat :=
  if countOf counts ip ≤ 1 then counts.delete ip else counts.set ip (countOf counts ip - 1)

def PeerLimiter.tryAcquireConnection (config : PeerLimitConfig) (limiter : PeerLimiter)
    (ip : String) : PeerLimiter × Bool :=
  let (connections, acquired) := tryAcquire config.maxConnectionsPerIp limiter.connections ip
  ({ limiter with connections }, acquired)

def PeerLimiter.tryAcquireTask (config : PeerLimitConfig) (limiter : PeerLimiter) (ip : String) :
    PeerLimiter × Bool :=
  let (tasks, acquired) := tryAcquire config.maxConcurrentTasksPerIp limiter.tasks ip
  ({ limiter with tasks }, acquired)

def PeerLimiter.releaseConnection (limiter : PeerLimiter) (ip : String) : PeerLimiter :=
  { limiter with connections := release limiter.connections ip }

def PeerLimiter.releaseTask (limiter : PeerLimiter) (ip : String) : PeerLimiter :=
  { limiter with tasks := release limiter.tasks ip }

def PeerLimiter.clear (limiter : PeerLimiter) : PeerLimiter :=
  { connections := limiter.connections.clear, tasks := limiter.tasks.clear }

/-- A close handler or a `finally` block that has still to run its release.
`current` says that the slot was acquired since the last `clear`. -/
structure Holder where
  id : Nat
  kind : SlotKind
  ip : String
  current : Bool

structure Slots where
  limiter : PeerLimiter
  holders : List Holder
  /-- The number of slots that were acquired. -/
  acquired : Nat

def Slots.initial : Slots :=
  ⟨⟨.empty, .empty⟩, [], 0⟩

inductive SlotEvent
  | acquired (id : Nat)
  | released (id : Nat)
  deriving DecidableEq

/-- What happens in the transport: a socket of an IP connects, a `task` or
`sub_req` of one comes through the checks before its slot, a holder ends, be it
the close handler of a socket that a protocol error destroyed, and `stop` clears
the limiter.  The holders end in any order. -/
inductive SlotLabel
  | connects (ip : String)
  | requests (ip : String)
  | ends (index : Nat)
  | clears

def Slots.taken (s : Slots) (kind : SlotKind) (ip : String) (answer : PeerLimiter × Bool) :
    Slots × List SlotEvent :=
  if answer.2 then
    ({ limiter := answer.1
       holders := ⟨s.acquired, kind, ip, true⟩ :: s.holders
       acquired := s.acquired + 1 }, [.acquired s.acquired])
  else ({ s with limiter := answer.1 }, [])

def PeerLimiter.released (limiter : PeerLimiter) (holder : Holder) : PeerLimiter :=
  match holder.kind with
  | .connection => limiter.releaseConnection holder.ip
  | .task => limiter.releaseTask holder.ip

def slotStep (config : PeerLimitConfig) (s : Slots) : SlotLabel → Option (Slots × List SlotEvent)
  | .connects ip => some (s.taken .connection ip (s.limiter.tryAcquireConnection config ip))
  | .requests ip => some (s.taken .task ip (s.limiter.tryAcquireTask config ip))
  | .ends index => s.holders[index]?.map fun holder =>
      ({ s with limiter := s.limiter.released holder, holders := s.holders.eraseIdx index },
        [.released holder.id])
  | .clears => some ({ s with
      limiter := s.limiter.clear
      holders := s.holders.map fun holder => { holder with current := false } }, [])

/-- The slots of a kind and an IP that were acquired since the last `clear` and
are held. -/
def Slots.current (s : Slots) (kind : SlotKind) (ip : String) : Nat :=
  s.holders.countP fun holder => holder.current && (holder.kind = kind && holder.ip = ip)

/-- The counters count the held slots and stay below their caps, and every slot
that was acquired is held or was released once. -/
structure SlotsAccounted (config : PeerLimitConfig) (history : List SlotEvent) (s : Slots) : Prop where
  counted : ∀ kind ip, countOf (s.limiter.counts kind) ip = s.current kind ip
  capped : ∀ kind ip, countOf (s.limiter.counts kind) ip ≤ config.cap kind
  once : ∀ id, history.count (.acquired id) =
    history.count (.released id) + (s.holders.map Holder.id).count id
  fresh : ∀ id, history.count (.acquired id) = if id < s.acquired then 1 else 0

/-- No slot from before the last `clear` is released while a newer one of its
kind and IP is held. -/
def Slots.EndsInTime (s : Slots) (label : SlotLabel) : Prop :=
  ∀ index holder, label = .ends index → s.holders[index]? = some holder →
    holder.current = false → s.current holder.kind holder.ip = 0

section

variable {counts : OrderedMap String Nat} {cap : Nat} {ip other : String}

theorem countOf_release : countOf (release counts ip) other =
    countOf counts other - if other = ip then 1 else 0 := by
  unfold release
  split
  · next few =>
    unfold countOf at few ⊢
    rw [get_delete]
    split
    · next same =>
      subst same
      simpa using (Nat.sub_eq_zero_of_le few).symm
    · rfl
  · unfold countOf
    rw [get_set]
    split
    · next same => rw [same, Option.getD_some]
    · rfl

theorem countOf_tryAcquire : countOf (tryAcquire cap counts ip).1 other =
    countOf counts other + if (tryAcquire cap counts ip).2 ∧ other = ip then 1 else 0 := by
  unfold tryAcquire
  split
  · simp
  · unfold countOf
    by_cases same : other = ip <;> simp [same]

theorem countOf_tryAcquire_le (below : countOf counts other ≤ cap) :
    countOf (tryAcquire cap counts ip).1 other ≤ cap := by
  rw [countOf_tryAcquire]
  unfold tryAcquire
  split
  · simpa using below
  · split
    · next room same =>
      rw [same.2]
      omega
    · exact below

end

variable {config : PeerLimitConfig} {history : List SlotEvent} {s after : Slots}
  {events : List SlotEvent}

theorem SlotsAccounted.taken (accounts : SlotsAccounted config history s) {kind : SlotKind} {ip : String}
    {answer : PeerLimiter × Bool} (counted : ∀ other address,
      countOf (answer.1.counts other) address = countOf (s.limiter.counts other) address +
        if answer.2 ∧ other = kind ∧ address = ip then 1 else 0)
    (capped : ∀ other address, countOf (answer.1.counts other) address ≤ config.cap other) :
    SlotsAccounted config (history ++ (s.taken kind ip answer).2) (s.taken kind ip answer).1 := by
  unfold Slots.taken
  split
  · next taken =>
    constructor
    · intro other address
      rw [counted, accounts.counted]
      simp [Slots.current, List.countP_cons, taken, @eq_comm _ kind, @eq_comm _ ip]
    · exact capped
    · intro id
      have once := accounts.once id
      rw [List.count_append, List.count_append, once, List.map_cons, List.count_cons]
      by_cases same : s.acquired = id <;> simp [same]
      · omega
    · intro id
      rw [List.count_append, accounts.fresh]
      by_cases same : s.acquired = id <;> simp [same]
      · split_ifs <;> omega
  · next refused =>
    rw [List.append_nil]
    have same : ∀ other address, countOf (answer.1.counts other) address = s.current other address := by
      intro other address
      rw [counted, accounts.counted]
      simp [refused]
    exact ⟨same, capped, accounts.once, accounts.fresh⟩

theorem SlotsAccounted.ended (accounts : SlotsAccounted config history s) {index : Nat}
    {holder : Holder} (found : s.holders[index]? = some holder)
    (inTime : holder.current = false → s.current holder.kind holder.ip = 0) :
    SlotsAccounted config (history ++ [.released holder.id])
      { s with limiter := s.limiter.released holder, holders := s.holders.eraseIdx index } := by
  obtain ⟨bound, isHolder⟩ := List.getElem?_eq_some_iff.mp found
  have reordered : (holder :: s.holders.eraseIdx index).Perm s.holders := by
    rw [← isHolder]
    exact List.getElem_cons_eraseIdx_perm bound
  have counts : ∀ kind ip, countOf ((s.limiter.released holder).counts kind) ip =
      s.current kind ip - if holder.kind = kind ∧ holder.ip = ip then 1 else 0 := by
    intro kind ip
    rw [← accounts.counted, PeerLimiter.released]
    cases holderKind : holder.kind <;> cases kind <;>
      simp [PeerLimiter.releaseConnection, PeerLimiter.releaseTask, PeerLimiter.counts,
        countOf_release, eq_comm]
  constructor
  · intro kind ip
    have split := reordered.countP_eq
      fun holder => holder.current && (holder.kind = kind && holder.ip = ip)
    rw [counts]
    unfold Slots.current at inTime ⊢
    by_cases own : holder.kind = kind ∧ holder.ip = ip
    · obtain ⟨rfl, rfl⟩ := own
      cases isCurrent : holder.current with
      | true =>
        simp [isCurrent] at split
        simp [← split]
      | false =>
        have none := inTime isCurrent
        simp [isCurrent] at split
        rw [split, none]
        exact Nat.zero_sub _
    · simp [own] at split
      simp [own, split]
  · intro kind ip
    rw [counts]
    exact Nat.le_trans (Nat.sub_le _ _) (accounts.counted kind ip ▸ accounts.capped kind ip)
  · intro id
    have split := (reordered.map Holder.id).count_eq id
    have once := accounts.once id
    rw [List.count_append, List.count_append, once, ← split]
    by_cases same : holder.id = id <;> simp [same]
    · omega
  · intro id
    rw [List.count_append, accounts.fresh]
    simp

theorem SlotsAccounted.cleared (accounts : SlotsAccounted config history s) :
    SlotsAccounted config history { s with
      limiter := s.limiter.clear
      holders := s.holders.map fun holder => { holder with current := false } } := by
  have empty : ∀ kind ip, countOf (s.limiter.clear.counts kind) ip = 0 := by
    intro kind ip
    cases kind <;> exact congrArg (Option.getD · 0) (get_clear _ ip)
  constructor
  · intro kind ip
    rw [empty, Slots.current, List.countP_map]
    exact (List.countP_eq_zero.mpr (by simp)).symm
  · intro kind ip
    rw [empty]
    exact Nat.zero_le _
  · intro id
    rw [List.map_map]
    exact accounts.once id
  · exact accounts.fresh

theorem SlotsAccounted.step {label : SlotLabel} (accounts : SlotsAccounted config history s)
    (inTime : s.EndsInTime label) (stepped : slotStep config s label = some (after, events)) :
    SlotsAccounted config (history ++ events) after := by
  cases label with
  | connects ip =>
    suffices accounted : SlotsAccounted config
        (history ++ (s.taken .connection ip (s.limiter.tryAcquireConnection config ip)).2)
        (s.taken .connection ip (s.limiter.tryAcquireConnection config ip)).1 by
      rw [Option.some.inj stepped] at accounted
      exact accounted
    apply accounts.taken
    · intro other address
      cases other <;> simp [PeerLimiter.tryAcquireConnection, PeerLimiter.counts,
        countOf_tryAcquire]
    · intro other address
      cases other with
      | connection => exact countOf_tryAcquire_le (accounts.capped .connection address)
      | task => exact accounts.capped .task address
  | requests ip =>
    suffices accounted : SlotsAccounted config
        (history ++ (s.taken .task ip (s.limiter.tryAcquireTask config ip)).2)
        (s.taken .task ip (s.limiter.tryAcquireTask config ip)).1 by
      rw [Option.some.inj stepped] at accounted
      exact accounted
    apply accounts.taken
    · intro other address
      cases other <;> simp [PeerLimiter.tryAcquireTask, PeerLimiter.counts, countOf_tryAcquire]
    · intro other address
      cases other with
      | connection => exact accounts.capped .connection address
      | task => exact countOf_tryAcquire_le (accounts.capped .task address)
  | ends index =>
    obtain ⟨holder, found, ended⟩ := Option.map_eq_some_iff.mp stepped
    cases ended
    exact accounts.ended found (inTime index holder rfl found)
  | clears =>
    cases stepped
    rw [List.append_nil]
    exact accounts.cleared

/-- In every run in which no slot from before a `clear` is released while a newer
one of its kind and IP is held, the counters are exact, below their caps, and
every slot that was acquired is held or was released once. -/
theorem slots_accounted (runs : Runs (slotStep config) (fun _ => Slots.EndsInTime) .initial history s) :
    SlotsAccounted config history s := by
  apply runs.invariant (SlotsAccounted config)
  · refine ⟨?_, ?_, ?_, ?_⟩
    · intro kind ip
      cases kind <;> rfl
    · intro kind ip
      cases kind <;> exact Nat.zero_le _
    · exact fun _ => rfl
    · exact fun _ => rfl
  · exact fun history before label after events accounts inTime stepped =>
      accounts.step inTime stepped

theorem slots_accounted_once : ∃ s, SlotsAccounted ⟨8, 4⟩ [.acquired 0, .released 0] s := by
  have opened : Runs (slotStep ⟨8, 4⟩) (fun _ => Slots.EndsInTime) .initial ([] ++ [.acquired 0]) _ :=
    @Runs.tail _ _ _ _ _ _ _ _ _ (.connects "a") _ .refl (fun _ _ isEnd => by cases isEnd) rfl
  exact ⟨_, slots_accounted (@Runs.tail _ _ _ _ _ _ _ _ _ (.ends 0) _ opened
    (fun _ _ isEnd found old => by cases isEnd; cases found; cases old) rfl)⟩

/-- The close handler of a socket from before a `clear` takes the slot of the
socket that is open now. -/
theorem newer_slot_lost : ∃ history s, Runs (slotStep ⟨8, 4⟩) (fun _ _ _ => True) .initial history s ∧
    ¬SlotsAccounted ⟨8, 4⟩ history s := by
  obtain ⟨history, s, runs, lost⟩ := exists_runs_of_any (slotStep ⟨8, 4⟩) (fun _ => True) .initial
    [.connects "a", .clears, .connects "a", .ends 1]
    (fun last => countOf last.1.limiter.connections "a" ≠ last.1.current .connection "a")
    (fun _ _ => trivial) (by decide)
  exact ⟨history, s, runs, fun accounts => of_decide_eq_true lost (accounts.counted .connection "a")⟩

end P2PHub.NetworkLight
