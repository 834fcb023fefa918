import P2PHub.AsyncCalls

/-!
# Stores that write snapshots of themselves

A store changes its memory at once and then replaces its file by a snapshot of
all of it, under a lock that is meant for other processes: a call that finds the
lock held by its own process goes on without waiting.  The calls of one process
are cut at their awaits and interleaved in any order.
-/

namespace P2PHub

open AsyncCalls Transition

/-- What an operation does to the memory before its first await. -/
inductive StoreVerdict (Memory : Type*)
  | refused
  | unchanged
  | changed (after : Memory)

/-- The code of a store.  Some stores make the directory of their file before
they take the snapshot. -/
structure StoreCode (Memory Request Content : Type*) where
  apply : Memory → Request → StoreVerdict Memory
  makesDirectory : Bool
  snapshot : Memory → Content

namespace SnapshotStore

/-- The content to be written, with the number of changes that it covers. -/
structure Snapshot (Content : Type*) where
  content : Content
  changes : Nat

/-- Where a call stands.  `owner` and the serial number tell the lock file that
a call has created. -/
inductive Phase (Content : Type*)
  | making
  | opening (snapshot : Snapshot Content)
  | judging (snapshot : Snapshot Content)
  | stealing (snapshot : Snapshot Content)
  | waiting (snapshot : Snapshot Content)
  | filling (snapshot : Snapshot Content) (serial : Nat)
  | undoing
  | writing (snapshot : Snapshot Content) (owner : Bool)
  | releasing (written : Bool)
  | settled (resolved : Bool)

/-- A call, with the memory that it found and the number of the change that it
made; a call without a change has number zero. -/
structure Call (Memory Content : Type*) where
  before : Memory
  change : Nat
  phase : Phase Content

/-- The store, its file and its lock file.  The number of changes made so far,
and the number of those that the file covers, are observed. -/
structure State (Memory Content : Type*) where
  memory : Memory
  file : Option Content
  held : Bool
  lockFile : Option (Nat × Bool)
  nextSerial : Nat
  changes : Nat
  fileChanges : Nat

/-- What an awaited operation gives; `aged` is `done` for a lock file that is
older than the age at which it counts as stale. -/
inductive Answer
  | done
  | aged
  | failed
  deriving DecidableEq, Repr

/-- A promise is resolved, or rejected with the memory that the call found and
that it leaves. -/
inductive Event (Memory : Type*)
  | resolved
  | rejected (before after : Memory)

variable {Memory Request Content : Type*}

def State.start (memory : Memory) (file : Option Content) : State Memory Content where
  memory := memory
  file := file
  held := false
  lockFile := none
  nextSerial := 0
  changes := 0
  fileChanges := 0

def Call.enter (call : Call Memory Content) (phase : Phase Content) : Call Memory Content :=
  { call with phase }

section

variable (code : StoreCode Memory Request Content)

/-- Take the snapshot and enter the lock.  A lock that the process holds is not
waited for. -/
def State.persist (s : State Memory Content) : Phase Content :=
  let snapshot : Snapshot Content := ⟨code.snapshot s.memory, s.changes⟩
  if s.held then .writing snapshot false else .opening snapshot

def launch (s : State Memory Content) (request : Request) :
    State Memory Content × Option (Call Memory Content × List (Event Memory)) :=
  match code.apply s.memory request with
  | .refused => (s, some (⟨s.memory, 0, .settled false⟩, [.rejected s.memory s.memory]))
  | .unchanged => (s, some (⟨s.memory, 0, .settled true⟩, [.resolved]))
  | .changed memory =>
    let after := { s with memory, changes := s.changes + 1 }
    (after, some (⟨s.memory, after.changes,
      if code.makesDirectory then .making else after.persist code⟩, []))

def settle (s : State Memory Content) (call : Call Memory Content) (resolved : Bool) :
    State Memory Content × Call Memory Content × List (Event Memory) :=
  (s, call.enter (.settled resolved),
    [if resolved then .resolved else .rejected call.before s.memory])

def openExclusive (s : State Memory Content) (call : Call Memory Content)
    (snapshot : Snapshot Content) :
    State Memory Content × Call Memory Content × List (Event Memory) :=
  match s.lockFile with
  | some _ => (s, call.enter (.judging snapshot), [])
  | none =>
    ({ s with lockFile := some (s.nextSerial, false), nextSerial := s.nextSerial + 1 },
      call.enter (.filling snapshot s.nextSerial), [])

/-- A lock file with an owner belongs to this process, which is alive; without
one its age decides. -/
def isStale (s : State Memory Content) (answer : Answer) : Bool :=
  match s.lockFile with
  | some (_, false) => answer == .aged
  | _ => false

/-- The temporary file is renamed over the file.  The call that holds the lock
gives it up. -/
def rename (s : State Memory Content) (call : Call Memory Content) (snapshot : Snapshot Content)
    (owner : Bool) : State Memory Content × Call Memory Content × List (Event Memory) :=
  let after := { s with file := some snapshot.content, fileChanges := snapshot.changes }
  if owner then ({ after with held := false }, call.enter (.releasing true), [])
  else settle after call true

def resume (s : State Memory Content) (call : Call Memory Content) (answer : Answer) :
    Option (State Memory Content × Call Memory Content × List (Event Memory)) :=
  match call.phase with
  | .making =>
    some (if answer = .failed then settle s call false
      else (s, call.enter (s.persist code), []))
  | .opening snapshot =>
    some (if answer = .failed then settle s call false else openExclusive s call snapshot)
  | .judging snapshot =>
    some (if answer = .failed then settle s call false
      else (s, call.enter (if isStale s answer then .stealing snapshot else .waiting snapshot), []))
  | .stealing snapshot =>
    some (if answer = .failed then settle s call false
      else ({ s with lockFile := none }, call.enter (.waiting snapshot), []))
  | .waiting snapshot =>
    some (if answer = .failed then settle s call false
      else (s, call.enter (.opening snapshot), []))
  | .filling snapshot serial =>
    some (if answer = .failed then (s, call.enter .undoing, [])
      else ({ s with
          held := true
          lockFile := s.lockFile.map fun file =>
            if file.1 = serial then (serial, true) else file },
        call.enter (.writing snapshot true), []))
  | .undoing =>
    some (settle (if answer = .failed then s else { s with lockFile := none }) call false)
  | .writing snapshot owner =>
    some (if answer = .failed then
        if owner then ({ s with held := false }, call.enter (.releasing false), [])
        else settle s call false
      else rename s call snapshot owner)
  | .releasing written =>
    some (if answer = .failed then settle s call false
      else settle { s with lockFile := none } call written)
  | .settled _ => none

def program : Program (State Memory Content) Request (Call Memory Content) Answer
    (Event Memory) where
  launch := launch code
  resume := resume code

end

section

variable {code : StoreCode Memory Request Content} {memory : Memory} {file : Option Content}
  {s after : State Memory Content} {call next : Call Memory Content} {snapshot : Snapshot Content}
  {before phase : Phase Content} {answer : Answer} {events : List (Event Memory)}

/-- A content written is never one that covers fewer changes than the file. -/
def WritesInOrder (_ : List (Nat × Event Memory))
    (pool : Pool (State Memory Content) (Call Memory Content)) :
    Label Request Answer → Prop
  | .resume index answer => ∀ call snapshot owner, pool.calls[index]? = some call →
      call.phase = .writing snapshot owner → answer ≠ .failed →
        pool.shared.fileChanges ≤ snapshot.changes
  | .launch _ => True

/-- The decision of `WritesInOrder`, blind to the answer. -/
def writesInOrder (pool : Pool (State Memory Content) (Call Memory Content)) :
    Label Request Answer → Bool
  | .resume index _ =>
    pool.calls[index]?.all fun call =>
      match call.phase with
      | .writing snapshot _ => pool.shared.fileChanges ≤ snapshot.changes
      | _ => true
  | .launch _ => true

theorem writesInOrder_sound (history : List (Nat × Event Memory))
    {pool : Pool (State Memory Content) (Call Memory Content)}
    {label : Label Request Answer} (ordered : writesInOrder pool label) :
    WritesInOrder history pool label := by
  cases label with
  | launch => exact True.intro
  | resume =>
    intro call snapshot owner found phase _
    simp only [writesInOrder, found, Option.all_some, phase, decide_eq_true_eq] at ordered
    exact ordered

/-- A snapshot of all changes is one of the memory. -/
structure Snapshot.Faithful (code : StoreCode Memory Request Content)
    (s : State Memory Content) (snapshot : Snapshot Content) : Prop where
  bounded : snapshot.changes ≤ s.changes
  latest : snapshot.changes = s.changes → snapshot.content = code.snapshot s.memory

def Phase.snapshot? : Phase Content → Option (Snapshot Content)
  | opening snapshot | judging snapshot | stealing snapshot | waiting snapshot
  | filling snapshot _ | writing snapshot _ => some snapshot
  | _ => none

def Phase.isWritten : Phase Content → Bool
  | releasing written => written
  | settled resolved => resolved
  | _ => false

structure CallHolds (code : StoreCode Memory Request Content) (s : State Memory Content)
    (call : Call Memory Content) : Prop where
  faithful : ∀ snapshot, call.phase.snapshot? = some snapshot → snapshot.Faithful code s ∧
    call.change ≤ snapshot.changes
  written : call.phase.isWritten = true → call.change ≤ s.fileChanges
  bounded : call.change ≤ s.changes
  unchanging : call.change = 0 → ∃ resolved, call.phase = .settled resolved

/-- A file that covers all changes is a snapshot of the memory. -/
structure FileHolds (code : StoreCode Memory Request Content) (memory : Memory)
    (file : Option Content) (s : State Memory Content) : Prop where
  bounded : s.fileChanges ≤ s.changes
  latest : s.fileChanges = s.changes → s.changes ≠ 0 → s.file = some (code.snapshot s.memory)
  untouched : s.changes = 0 → s.memory = memory ∧ s.file = file

/-- The store goes on: it is changed, or the file is replaced by a content that
covers no fewer changes. -/
structure Advances (s after : State Memory Content) : Prop where
  fileChanges : s.fileChanges ≤ after.fileChanges
  memory : after.changes = s.changes ∧ after.memory = s.memory ∨ after.changes = s.changes + 1

theorem Advances.refl (s : State Memory Content) : Advances s s :=
  ⟨Nat.le_refl _, .inl ⟨rfl, rfl⟩⟩

theorem Snapshot.Faithful.advance
    (faithful : snapshot.Faithful code s) (advances : Advances s after) :
    snapshot.Faithful code after := by
  have bounded := faithful.bounded
  rcases advances.memory with ⟨changes, memory⟩ | changes
  · constructor
    · rw [changes]
      exact bounded
    · rw [changes, memory]
      exact faithful.latest
  · constructor
    · omega
    · intro latest
      omega

theorem CallHolds.advance (holds : CallHolds code s call) (advances : Advances s after) :
    CallHolds code after call where
  faithful snapshot taken :=
    ⟨(holds.faithful snapshot taken).1.advance advances, (holds.faithful snapshot taken).2⟩
  written isWritten := Nat.le_trans (holds.written isWritten) advances.fileChanges
  bounded := by
    have bounded := holds.bounded
    rcases advances.memory with ⟨changes, _⟩ | changes <;> omega
  unchanging := holds.unchanging

theorem faithful_persist (code : StoreCode Memory Request Content) (s : State Memory Content)
    (taken : (s.persist code).snapshot? = some snapshot) :
    snapshot.Faithful code s ∧ snapshot.changes = s.changes := by
  have current : (⟨code.snapshot s.memory, s.changes⟩ : Snapshot Content).Faithful code s :=
    ⟨Nat.le_refl _, fun _ => rfl⟩
  unfold State.persist at taken
  split at taken
  · cases taken
    exact ⟨current, rfl⟩
  · cases taken
    exact ⟨current, rfl⟩

theorem isWritten_persist (code : StoreCode Memory Request Content) (s : State Memory Content) :
    (s.persist code).isWritten = false := by
  unfold State.persist
  split <;> rfl

/-- What a turn leaves of the store and the call: it goes on with the snapshot
that it has, takes one after its directory is made, or writes it. -/
structure Kept (s after : State Memory Content) : Prop where
  memory : after.memory = s.memory
  changes : after.changes = s.changes

inductive Turn (code : StoreCode Memory Request Content) (s : State Memory Content)
    (before : Phase Content) (answer : Answer) (after : State Memory Content) :
    Phase Content → Prop
  | goesOn {phase : Phase Content} (file : after.file = s.file)
      (fileChanges : after.fileChanges = s.fileChanges)
      (snapshot : ∀ snapshot, phase.snapshot? = some snapshot → before.snapshot? = some snapshot)
      (written : phase.isWritten = true → before.isWritten = true) :
      Turn code s before answer after phase
  | takes (making : before = .making) (file : after.file = s.file)
      (fileChanges : after.fileChanges = s.fileChanges) :
      Turn code s before answer after (s.persist code)
  | writes {phase : Phase Content} {snapshot : Snapshot Content} {owner : Bool}
      (writing : before = .writing snapshot owner) (done : answer ≠ .failed)
      (file : after.file = some snapshot.content)
      (fileChanges : after.fileChanges = snapshot.changes) (ended : phase.snapshot? = none) :
      Turn code s before answer after phase

theorem Turn.gaveUp (file : after.file = s.file) (fileChanges : after.fileChanges = s.fileChanges)
    (snapshot : phase.snapshot? = none) (written : phase.isWritten = false) :
    Turn code s before answer after phase := by
  apply Turn.goesOn file fileChanges
  · intro other taken
    cases snapshot.symm.trans taken
  · intro isWritten
    cases written.symm.trans isWritten

theorem Turn.carries (file : after.file = s.file) (fileChanges : after.fileChanges = s.fileChanges)
    (snapshot : phase.snapshot? = before.snapshot?) (written : phase.isWritten = false) :
    Turn code s before answer after phase := by
  apply Turn.goesOn file fileChanges
  · intro other taken
    rw [← snapshot]
    exact taken
  · intro isWritten
    cases written.symm.trans isWritten

theorem resume_turn (resumed : resume code s call answer = some (after, next, events)) :
    Kept s after ∧ ∃ phase, next = call.enter phase ∧ Turn code s call.phase answer after phase :=
      by
  cases phase : call.phase with
  | making =>
    simp only [resume, phase, Option.some.injEq] at resumed
    split at resumed <;> obtain ⟨rfl, rfl, rfl⟩ := resumed
    · exact ⟨⟨rfl, rfl⟩, _, rfl, .gaveUp rfl rfl rfl rfl⟩
    · exact ⟨⟨rfl, rfl⟩, _, rfl, .takes rfl rfl rfl⟩
  | opening =>
    simp only [resume, phase, openExclusive, Option.some.injEq] at resumed
    split at resumed
    · obtain ⟨rfl, rfl, rfl⟩ := resumed
      exact ⟨⟨rfl, rfl⟩, _, rfl, .gaveUp rfl rfl rfl rfl⟩
    · split at resumed <;> obtain ⟨rfl, rfl, rfl⟩ := resumed <;>
        exact ⟨⟨rfl, rfl⟩, _, rfl, .carries rfl rfl rfl rfl⟩
  | judging =>
    simp only [resume, phase, Option.some.injEq] at resumed
    split at resumed <;> obtain ⟨rfl, rfl, rfl⟩ := resumed
    · exact ⟨⟨rfl, rfl⟩, _, rfl, .gaveUp rfl rfl rfl rfl⟩
    · refine ⟨⟨rfl, rfl⟩, _, rfl, ?_⟩
      split <;> exact .carries rfl rfl rfl rfl
  | stealing snapshot | waiting snapshot | filling =>
    simp only [resume, phase, Option.some.injEq] at resumed
    split at resumed <;> obtain ⟨rfl, rfl, rfl⟩ := resumed
    · exact ⟨⟨rfl, rfl⟩, _, rfl, .gaveUp rfl rfl rfl rfl⟩
    · exact ⟨⟨rfl, rfl⟩, _, rfl, .carries rfl rfl rfl rfl⟩
  | undoing =>
    simp only [resume, phase, Option.some.injEq] at resumed
    split at resumed <;> obtain ⟨rfl, rfl, rfl⟩ := resumed <;>
      exact ⟨⟨rfl, rfl⟩, _, rfl, .gaveUp rfl rfl rfl rfl⟩
  | writing =>
    simp only [resume, phase, rename, Option.some.injEq] at resumed
    split at resumed
    · split at resumed <;> obtain ⟨rfl, rfl, rfl⟩ := resumed <;>
        exact ⟨⟨rfl, rfl⟩, _, rfl, .gaveUp rfl rfl rfl rfl⟩
    · next done =>
        split at resumed <;> obtain ⟨rfl, rfl, rfl⟩ := resumed <;>
          exact ⟨⟨rfl, rfl⟩, _, rfl, .writes rfl done rfl rfl rfl⟩
  | releasing =>
    simp only [resume, phase, Option.some.injEq] at resumed
    split at resumed <;> obtain ⟨rfl, rfl, rfl⟩ := resumed
    · exact ⟨⟨rfl, rfl⟩, _, rfl, .gaveUp rfl rfl rfl rfl⟩
    · exact ⟨⟨rfl, rfl⟩, _, rfl, .goesOn rfl rfl nofun fun isWritten => isWritten⟩
  | settled =>
    simp only [resume, phase] at resumed
    cases resumed

theorem CallHolds.resume (holds : CallHolds code s call)
    (changed : call.change ≠ 0) (kept : Kept s after)
    (turn : Turn code s call.phase answer after phase)
    (ordered : ∀ snapshot owner, call.phase = .writing snapshot owner → answer ≠ .failed →
      s.fileChanges ≤ snapshot.changes) :
    Advances s after ∧ CallHolds code after (call.enter phase) := by
  have bounded := holds.bounded
  cases turn with
  | goesOn fileEq fileChanges snapshot written =>
    have advances : Advances s after := ⟨Nat.le_of_eq fileChanges.symm, .inl ⟨kept.changes,
      kept.memory⟩⟩
    have still := holds.advance advances
    exact ⟨advances, fun other taken => still.faithful other (snapshot other taken),
      fun isWritten => still.written (written isWritten), still.bounded,
      fun unchanged => absurd unchanged changed⟩
  | takes making fileEq fileChanges =>
    have advances : Advances s after := ⟨Nat.le_of_eq fileChanges.symm, .inl ⟨kept.changes,
      kept.memory⟩⟩
    refine ⟨advances, ?_, ?_, (holds.advance advances).bounded,
      fun unchanged => absurd unchanged changed⟩
    · intro snapshot taken
      obtain ⟨faithful, changes⟩ := faithful_persist code s taken
      exact ⟨faithful.advance advances, by rw [changes]; exact bounded⟩
    · intro isWritten
      cases (isWritten_persist code s).symm.trans isWritten
  | @writes _ snapshot owner writing done fileEq fileChanges ended =>
    have order := ordered snapshot owner writing done
    have advances : Advances s after := by
      constructor
      · rw [fileChanges]
        exact order
      · exact .inl ⟨kept.changes, kept.memory⟩
    refine ⟨advances, ?_, ?_, (holds.advance advances).bounded,
      fun unchanged => absurd unchanged changed⟩
    · intro other taken
      cases ended.symm.trans taken
    · intro _
      rw [fileChanges]
      exact (holds.faithful snapshot (by rw [writing]; rfl)).2

theorem FileHolds.resume
    (holds : FileHolds code memory file s) (calls : CallHolds code s call) (kept : Kept s after)
    (turn : Turn code s call.phase answer after phase) (changed : call.change ≠ 0) :
    FileHolds code memory file after := by
  obtain ⟨bounded, latest, untouched⟩ := holds
  have unmoved (fileEq : after.file = s.file) (fileChanges : after.fileChanges = s.fileChanges) :
      FileHolds code memory file after := by
    constructor
    · rw [fileChanges, kept.changes]
      exact bounded
    · rw [fileChanges, kept.changes, fileEq, kept.memory]
      exact latest
    · rw [kept.changes, kept.memory, fileEq]
      exact untouched
  cases turn with
  | goesOn fileEq fileChanges | takes _ fileEq fileChanges => exact unmoved fileEq fileChanges
  | @writes _ snapshot owner writing done fileEq fileChanges ended =>
    obtain ⟨faithful, covered⟩ := calls.faithful snapshot (by rw [writing]; rfl)
    constructor
    · rw [fileChanges, kept.changes]
      exact faithful.bounded
    · rw [fileChanges, kept.changes, fileEq, kept.memory]
      intro current _
      rw [faithful.latest current]
    · intro none
      have bounded := calls.bounded
      rw [kept.changes] at none
      omega

theorem CallHolds.changed
    (holds : CallHolds code s call) (resumed : SnapshotStore.resume code s call answer =
      some (after, next, events)) : call.change ≠ 0 := by
  intro unchanged
  obtain ⟨resolved, phase⟩ := holds.unchanging unchanged
  simp only [SnapshotStore.resume, phase] at resumed
  cases resumed

theorem launch_holds {request : Request} (holds : FileHolds code memory file s)
    (launched : launch code s request = (after, some (call, events))) :
    Advances s after ∧ FileHolds code memory file after ∧ CallHolds code after call := by
  have settled (resolved : Bool) : CallHolds code s ⟨s.memory, 0, .settled resolved⟩ :=
    ⟨nofun, fun _ => Nat.zero_le _, Nat.zero_le _, fun _ => ⟨resolved, rfl⟩⟩
  unfold launch at launched
  split at launched
  · obtain ⟨rfl, rfl, _⟩ := launched
    exact ⟨.refl s, holds, settled false⟩
  · obtain ⟨rfl, rfl, _⟩ := launched
    exact ⟨.refl s, holds, settled true⟩
  · next changed _ =>
      obtain ⟨rfl, rfl, _⟩ := launched
      have bounded := holds.bounded
      refine ⟨⟨Nat.le_refl _, .inr rfl⟩, ⟨Nat.le_succ_of_le bounded, ?_, nofun⟩, ?_⟩
      · intro current
        have ahead : s.fileChanges = s.changes + 1 := current
        omega
      · constructor
        · intro snapshot taken
          split at taken
          · cases taken
          · obtain ⟨faithful, covered⟩ := faithful_persist code _ taken
            exact ⟨faithful, Nat.le_of_eq covered.symm⟩
        · intro isWritten
          split at isWritten
          · cases isWritten
          · cases (isWritten_persist code _).symm.trans isWritten
        · exact Nat.le_refl _
        · exact nofun

theorem launch_cases {request : Request} {left : Option (Call Memory Content × List (Event Memory))}
    (launched : launch code s request = (after, left)) : ∃ call events, left = some (call, events) ∧
      (after = s ∨ after.changes = s.changes + 1 ∧ call.change = after.changes) := by
  unfold launch at launched
  split at launched
  · cases launched
    exact ⟨_, _, rfl, .inl rfl⟩
  · cases launched
    exact ⟨_, _, rfl, .inl rfl⟩
  · cases launched
    exact ⟨_, _, rfl, .inr ⟨rfl, rfl⟩⟩

theorem agreement_preserved : Preserved (program code) WritesInOrder
      (.initial (State.start memory file)) (fun _ => FileHolds code memory file)
      (fun _ s _ call => CallHolds code s call) where
  acted _ _ _ _ _ _ _ launched := by
    obtain ⟨_, _, left, _⟩ := launch_cases launched
    cases left
  launched _ _ _ _ _ _ _ holds _ launched := by
    obtain ⟨advances, fileHolds, callHolds⟩ := launch_holds holds.1 launched
    exact ⟨fileHolds, callHolds, fun _ _ _ other => other.advance advances⟩
  resumed _ _ index answer call _ _ _ _ holds ordered found resumed := by
    have callHolds := holds.2 index call found
    have changed := callHolds.changed resumed
    obtain ⟨kept, phase, rfl, turn⟩ := resume_turn resumed
    obtain ⟨advances, nextHolds⟩ := callHolds.resume changed kept turn
      fun snapshot owner writing done => ordered call snapshot owner found writing done
    exact ⟨holds.1.resume callHolds kept turn changed, nextHolds,
      fun _ _ _ _ other => other.advance advances⟩

variable {history : List (Nat × Event Memory)}
  {pool : Pool (State Memory Content) (Call Memory Content)}
  {allowed : List (Nat × Event Memory) → Pool (State Memory Content) (Call Memory Content) →
    Label Request Answer → Prop}

theorem last_change (runs : Runs (program code).step allowed
    (.initial (State.start memory file)) history pool) :
    pool.shared.changes = 0 ∨ ∃ call ∈ pool.calls, call.change = pool.shared.changes := by
  refine runs.invariant (fun _ pool => pool.shared.changes = 0 ∨
    ∃ call ∈ pool.calls, call.change = pool.shared.changes) (.inl rfl) ?_
  intro _ before _ after _ last _ stepped
  rcases Program.step_cases stepped with
    ⟨action, rfl, launched, _, rfl⟩ | ⟨action, call, emitted, rfl, launched, callsEq, rfl⟩ |
    ⟨index, answer, call, next, emitted, rfl, found, resumed, callsEq, rfl⟩
  · obtain ⟨_, _, left, _⟩ := launch_cases launched
    cases left
  · obtain ⟨_, _, left, kept | ⟨_, changed⟩⟩ := launch_cases launched
    · rw [kept, callsEq]
      exact last.imp_right fun ⟨other, member, change⟩ =>
        ⟨other, List.mem_append_left _ member, change⟩
    · cases left
      rw [callsEq]
      exact .inr ⟨call, List.mem_append_right _ (List.mem_singleton_self _), changed⟩
  · obtain ⟨kept, phase, rfl, _⟩ := resume_turn resumed
    rw [kept.changes, callsEq]
    refine last.imp_right ?_
    rintro ⟨other, member, change⟩
    obtain ⟨position, located⟩ := List.mem_iff_getElem?.mp member
    by_cases same : position = index
    · subst same
      cases located.symm.trans found
      have bound := (List.getElem?_eq_some_iff.mp found).1
      exact ⟨_, List.mem_of_getElem? (List.getElem?_set_self bound), change⟩
    · refine ⟨other, List.mem_of_getElem? (i := position) ?_, change⟩
      rw [List.getElem?_set_ne (Ne.symm same)]
      exact located

theorem memory_invariant (holds : Memory → Prop) (initial : holds memory)
    (applied : ∀ history before request after, allowed history before (.launch request) →
      holds before.shared.memory → code.apply before.shared.memory request = .changed after →
        holds after) (runs : Runs (program code).step allowed (.initial (State.start memory file))
      history pool) : holds pool.shared.memory := by
  refine runs.invariant (fun _ pool => holds pool.shared.memory) initial ?_
  intro history before label after outputs held permitted stepped
  rcases Program.step_cases stepped with
    ⟨action, rfl, launched, _, rfl⟩ | ⟨action, call, emitted, rfl, launched, callsEq, rfl⟩ |
    ⟨index, answer, call, next, emitted, rfl, found, resumed, callsEq, rfl⟩
  · obtain ⟨_, _, left, _⟩ := launch_cases launched
    cases left
  · have launchEq : launch code before.shared action = (after.shared, some (call, emitted)) :=
      launched
    unfold launch at launchEq
    split at launchEq
    · obtain ⟨shared, _⟩ := Prod.mk.inj launchEq
      rw [← shared]
      exact held
    · obtain ⟨shared, _⟩ := Prod.mk.inj launchEq
      rw [← shared]
      exact held
    · next memory change =>
        obtain ⟨shared, _⟩ := Prod.mk.inj launchEq
        have changed := applied history before action memory permitted held change
        rw [← shared]
        exact changed
  · obtain ⟨kept, _⟩ := resume_turn resumed
    rw [kept.memory]
    exact held

/-- Every call has settled, and none that changed the memory was rejected. -/
def AllResolved (pool : Pool (State Memory Content) (Call Memory Content)) : Prop :=
  ∀ call ∈ pool.calls, ∃ resolved, call.phase = .settled resolved ∧
    (call.change ≠ 0 → resolved = true)

def allResolved (pool : Pool (State Memory Content) (Call Memory Content)) : Bool :=
  pool.calls.all fun call =>
    match call.phase with
    | .settled resolved => resolved
    | _ => false

theorem allResolved_sound {pool : Pool (State Memory Content) (Call Memory Content)}
    (resolved : allResolved pool) : AllResolved pool := by
  intro call member
  have settled := List.all_eq_true.mp resolved call member
  split at settled
  · next resolved phase => exact ⟨resolved, phase, fun _ => settled⟩
  · cases settled

/-- When all calls have resolved, and wrote in order, the file is a snapshot of
the memory, or neither was touched. -/
theorem file_agrees (runs : Runs (program code).step WritesInOrder
    (.initial (State.start memory file)) history pool) (all : AllResolved pool) :
    (pool.shared.memory = memory ∧ pool.shared.file = file) ∨
      pool.shared.file = some (code.snapshot pool.shared.memory) := by
  have initial : FileHolds code memory file (State.start memory file) :=
    ⟨Nat.le_refl _, fun _ changed => absurd rfl changed, fun _ => ⟨rfl, rfl⟩⟩
  obtain ⟨holds, calls⟩ :=
    agreement_preserved.run_holds ⟨initial, fun _ _ found => nomatch found⟩ runs
  rcases last_change runs with none | ⟨call, member, change⟩
  · exact .inl (holds.untouched none)
  · by_cases changed : pool.shared.changes = 0
    · exact .inl (holds.untouched changed)
    · right
      obtain ⟨index, found⟩ := List.mem_iff_getElem?.mp member
      obtain ⟨resolved, phase, isResolved⟩ := all call member
      have written : call.phase.isWritten := by
        rw [phase]
        exact isResolved (by omega)
      have covered := (calls index call found).written written
      have bounded := holds.bounded
      exact holds.latest (by omega) changed

end

variable {code : StoreCode Memory Request Content} {s after : State Memory Content}
  {call next : Call Memory Content} {events : List (Event Memory)}

def NeverFails (_ : List (Nat × Event Memory))
    (_ : Pool (State Memory Content) (Call Memory Content)) :
    Label Request Answer → Prop
  | .resume _ answer => answer ≠ .failed
  | .launch _ => True

def Phase.Sound : Phase Content → Prop
  | undoing => False
  | releasing written => written = true
  | _ => True

theorem sound_persist (code : StoreCode Memory Request Content) (s : State Memory Content) :
    (s.persist code).Sound := by
  unfold State.persist
  split <;> exact True.intro

theorem resume_succeeds {answer : Answer} (sound : call.phase.Sound) (done : answer ≠ .failed)
    (resumed : resume code s call answer = some (after, next, events)) :
    next.phase.Sound ∧ (events = [] ∨ events = [.resolved]) := by
  cases phase : call.phase with
  | making =>
    simp only [resume, phase, if_neg done] at resumed
    cases resumed
    exact ⟨sound_persist code _, .inl rfl⟩
  | opening =>
    simp only [resume, phase, if_neg done, Option.some.injEq] at resumed
    unfold openExclusive at resumed
    split at resumed <;> obtain ⟨rfl, rfl, rfl⟩ := resumed <;> exact ⟨True.intro, .inl rfl⟩
  | judging =>
    simp only [resume, phase, if_neg done] at resumed
    cases resumed
    refine ⟨?_, .inl rfl⟩
    split <;> exact True.intro
  | stealing | waiting | filling =>
    simp only [resume, phase, if_neg done] at resumed
    cases resumed
    exact ⟨True.intro, .inl rfl⟩
  | undoing =>
    rw [phase] at sound
    cases sound
  | writing =>
    simp only [resume, phase, if_neg done, Option.some.injEq] at resumed
    unfold rename at resumed
    split at resumed <;> obtain ⟨rfl, rfl, rfl⟩ := resumed
    · exact ⟨rfl, .inl rfl⟩
    · exact ⟨True.intro, .inr rfl⟩
  | releasing written =>
    rw [phase] at sound
    obtain rfl : written := sound
    simp only [resume, phase, if_neg done] at resumed
    cases resumed
    exact ⟨True.intro, .inr rfl⟩
  | settled =>
    simp only [resume, phase] at resumed
    cases resumed

/-- An operation is refused or has nothing to change, or it leaves a call that
nothing has happened to. -/
inductive Launched (code : StoreCode Memory Request Content) (s : State Memory Content)
    (request : Request) : State Memory Content → Call Memory Content → List (Event Memory) → Prop
  | refused (refuses : code.apply s.memory request = .refused) :
      Launched code s request s ⟨s.memory, 0, .settled false⟩ [.rejected s.memory s.memory]
  | unchanged : Launched code s request s ⟨s.memory, 0, .settled true⟩ [.resolved]
  | changed {memory : Memory} {call : Call Memory Content}
      (changes : code.apply s.memory request = .changed memory) (sound : call.phase.Sound) :
      Launched code s request { s with memory, changes := s.changes + 1 } call []

theorem launch_launched {request : Request}
    (launched : launch code s request = (after, some (call, events))) :
    Launched code s request after call events := by
  unfold launch at launched
  split at launched
  · next refuses =>
      obtain ⟨rfl, rfl, rfl⟩ := launched
      exact .refused refuses
  · obtain ⟨rfl, rfl, rfl⟩ := launched
    exact .unchanged
  · next memory changes =>
      obtain ⟨rfl, rfl, rfl⟩ := launched
      apply Launched.changed changes
      split
      · exact True.intro
      · exact sound_persist code _

def Event.Unchanging : Event Memory → Prop
  | resolved => True
  | rejected before after => after = before

theorem rejected_unchanged {memory : Memory} {file : Option Content}
    {history : List (Nat × Event Memory)} {pool : Pool (State Memory Content) (Call Memory Content)}
    (runs : Runs (program code).step NeverFails (.initial (State.start memory file))
      history pool) {index : Nat} {before after : Memory}
    (rejected : (index, Event.rejected before after) ∈ history) : after = before := by
  obtain ⟨absent, each⟩ := local_invariant (fun own (call : Call Memory Content) =>
      call.phase.Sound ∧ ∀ event ∈ own, event.Unchanging)
    (fun _ _ _ _ _ emitted _ launched => by
      cases launch_launched launched with
      | refused => exact ⟨True.intro, List.forall_mem_singleton.mpr rfl⟩
      | unchanged => exact ⟨True.intro, List.forall_mem_singleton.mpr True.intro⟩
      | changed _ sound => exact ⟨sound, List.forall_mem_nil _⟩)
    (fun _ _ _ _ own _ _ _ emitted done holds resumed => by
      obtain ⟨sound, events⟩ := resume_succeeds holds.1 done resumed
      refine ⟨sound, List.forall_mem_append.mpr ⟨holds.2, ?_⟩⟩
      rcases events with rfl | rfl
      · exact List.forall_mem_nil _
      · exact List.forall_mem_singleton.mpr True.intro) runs
  have own : Event.rejected before after ∈ ownOutputs history index :=
    mem_ownOutputs.mpr rejected
  by_cases bound : index < pool.calls.length
  · exact (each index _ (List.getElem?_eq_getElem bound)).2 _ own
  · rw [absent index (Nat.le_of_not_lt bound)] at own
    cases own

end SnapshotStore

end P2PHub
