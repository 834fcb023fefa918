import P2PHub.TransitionRuns

/-!
# The cross-process file lock

`withFileLock` of `core/src/storage/file-lock.ts` as run by any number of
processes on one path.  Every file-system operation is one step; the processes
take their steps in any order and may crash before each of them.
-/

namespace P2PHub

open Transition

def releaseMaxAttempts : Nat := 8

/-- The lock file: the process that created it, the number of the creation, the
process identifier in its payload once that is written, and when it was last
modified. -/
structure LockFile where
  creator : Nat
  serial : Nat
  payload : Option Nat
  modifiedAt : Nat
  deriving DecidableEq, Repr

/-- How far a process has come with `withFileLock`.  `serial` is the number of
the lock file that the process has created. -/
inductive LockPhase
  | idle
  | opening
  | reading
  | checking (owner : Nat)
  | dating
  | stealing
  | waiting
  | writing (serial openedAt : Nat)
  | closing (serial : Nat)
  | undoing (serial : Nat)
  | inside (serial : Nat)
  | releasing (serial attempts : Nat)
  | crashed
  deriving DecidableEq, Repr

/-- What a file-system operation answers: `transient` is one of the errors that
are worth retrying on Windows. -/
inductive FileAnswer
  | done
  | transient
  | failed
  deriving DecidableEq, Repr

inductive LockAction
  | enter
  | operate (answer : FileAnswer)
  | writePart
  | finish
  | retry
  | giveUp
  | crash
  deriving DecidableEq, Repr

inductive LockEvent
  | tick
  | act (pid : Nat) (action : LockAction)
  deriving DecidableEq, Repr

structure LockState where
  clock : Nat
  file : Option LockFile
  nextSerial : Nat
  phases : Nat → LockPhase

namespace LockState

def start : LockState :=
  ⟨0, none, 0, fun _ => .idle⟩

def move (state : LockState) (pid : Nat) (phase : LockPhase) : LockState :=
  { state with phases := Function.update state.phases pid phase }

theorem move_phases_self (state : LockState) (pid : Nat) (phase : LockPhase) :
    (state.move pid phase).phases pid = phase :=
  Function.update_self ..

theorem move_phases_of_ne (state : LockState) {pid other : Nat} (apart : other ≠ pid)
    (phase : LockPhase) : (state.move pid phase).phases other = state.phases other :=
  Function.update_of_ne apart ..

/-- `unlink(lockPath)` removes whatever file has this name. -/
def unlink (state : LockState) : LockState :=
  { state with file := none }

/-- Change the file that an open handle refers to, if it still has its name. -/
def modify (state : LockState) (serial : Nat) (change : LockFile → LockFile) : LockState :=
  { state with
    file := state.file.map fun file =>
      if file.serial = serial then { change file with modifiedAt := state.clock } else file }

section

variable (windows : Bool) (staleAfterMs : Nat)

/-- `open(lockPath, "wx")` and what `tryAcquire` makes of its answer. -/
def openExclusive (state : LockState) (pid : Nat) : FileAnswer → LockState
  | .done =>
    match state.file with
    | some _ => state.move pid .reading
    | none =>
      { state with
        file := some ⟨pid, state.nextSerial, none, state.clock⟩
        nextSerial := state.nextSerial + 1 }.move pid (.writing state.nextSerial state.clock)
  | .transient => state.move pid .waiting
  | .failed => state.move pid .idle

/-- The `readFile` of `isStale`: without a payload the age decides. -/
def readOwner (state : LockState) (pid : Nat) : FileAnswer → LockState
  | .done =>
    match state.file with
    | none => state.move pid .waiting
    | some file =>
      match file.payload with
      | some owner => state.move pid (.checking owner)
      | none => state.move pid .dating
  | .transient => state.move pid .dating
  | .failed => state.move pid .idle

/-- `isPidAlive`. -/
def checkOwner (state : LockState) (pid owner : Nat) : LockState :=
  state.move pid (if state.phases owner = .crashed then .stealing else .waiting)

def lockFileAgeExceeds (state : LockState) (pid : Nat) : FileAnswer → LockState
  | .done =>
    match state.file with
    | none => state.move pid .waiting
    | some file =>
      state.move pid (if state.clock - file.modifiedAt > staleAfterMs then .stealing else .waiting)
  | .transient => state.move pid .waiting
  | .failed => state.move pid .idle

/-- The `unlink` of a stale lock. -/
def steal (state : LockState) (pid : Nat) : FileAnswer → LockState
  | .done => state.unlink.move pid .waiting
  | _ => state.move pid .idle

def writeOwner (state : LockState) (pid serial : Nat) : FileAnswer → LockState
  | .done =>
    (state.modify serial fun file => { file with payload := some pid }).move pid (.closing serial)
  | _ => state.move pid (.undoing serial)

def closeHandle (state : LockState) (pid serial : Nat) : FileAnswer → LockState
  | .done => state.move pid (.inside serial)
  | _ => state.move pid (.undoing serial)

/-- The `unlink` after a payload that could not be written. -/
def undo (state : LockState) (pid : Nat) : FileAnswer → LockState
  | .done => state.unlink.move pid .idle
  | _ => state.move pid .idle

/-- One attempt of `releaseLock`. -/
def releaseLock (state : LockState) (pid serial attempts : Nat) : FileAnswer → LockState
  | .done => state.unlink.move pid .idle
  | .transient =>
    state.move pid
      (if attempts + 1 < releaseMaxAttempts then .releasing serial (attempts + 1) else .idle)
  | .failed => state.move pid .idle

def operate (state : LockState) (pid : Nat) (answer : FileAnswer) : Option LockState :=
  if answer = .transient ∧ windows = false then none
  else
    match state.phases pid with
    | .opening => some (state.openExclusive pid answer)
    | .reading => some (state.readOwner pid answer)
    | .checking owner => some (state.checkOwner pid owner)
    | .dating => some (state.lockFileAgeExceeds staleAfterMs pid answer)
    | .stealing => some (state.steal pid answer)
    | .writing serial _ => some (state.writeOwner pid serial answer)
    | .closing serial => some (state.closeHandle pid serial answer)
    | .undoing _ => some (state.undo pid answer)
    | .releasing serial attempts => some (state.releaseLock pid serial attempts answer)
    | _ => none

def act (state : LockState) (pid : Nat) (action : LockAction) : Option LockState :=
  if state.phases pid = .crashed then none
  else
    match action, state.phases pid with
    | .crash, _ => some (state.move pid .crashed)
    | .operate answer, _ => state.operate windows staleAfterMs pid answer
    | .enter, .idle => some (state.move pid .opening)
    | .writePart, .writing serial openedAt =>
      some ((state.modify serial id).move pid (.writing serial openedAt))
    | .finish, .inside serial => some (state.move pid (.releasing serial 0))
    | .retry, .waiting => some (state.move pid .opening)
    | .giveUp, .waiting => some (state.move pid .idle)
    | _, _ => none

def step (state : LockState) : LockEvent → Option (LockState × List Unit)
  | .tick => some ({ state with clock := state.clock + 1 }, [])
  | .act pid action => (state.act windows staleAfterMs pid action).map (·, [])

end

/-- At most one live process is inside its callback, and the lock file on disk is
the one that it has created. -/
structure Exclusive (state : LockState) : Prop where
  alone : ∀ pid other serial otherSerial, state.phases pid = .inside serial →
    state.phases other = .inside otherSerial → pid = other
  ownFile : ∀ pid serial, state.phases pid = .inside serial →
    ∃ file, state.file = some file ∧ file.creator = pid ∧ file.serial = serial

/-- No payload is still unwritten when its lock file is older than the age at
which a lock is stale. -/
def TimelyWrites (staleAfterMs : Nat) (state : LockState) (event : LockEvent) : Prop :=
  event = .tick → ∀ pid serial openedAt, state.phases pid = .writing serial openedAt →
    state.clock + 1 ≤ openedAt + staleAfterMs

/-- The lock file that a process has created and not yet given up. -/
def holding : LockPhase → Option Nat
  | .writing serial _ | .closing serial | .undoing serial | .inside serial
  | .releasing serial _ => some serial
  | _ => none

/-- What removes a stale lock finds no file, or a file that no live process is
acquiring, holds or is releasing. -/
def StealsAbandoned (state : LockState) (event : LockEvent) : Prop :=
  ∀ pid file, event = .act pid (.operate .done) → state.phases pid = .stealing →
    state.file = some file → holding (state.phases file.creator) ≠ some file.serial

section

/-- The file of every process that holds one is the file on disk. -/
def Owned (state : LockState) : Prop :=
  ∀ pid serial, holding (state.phases pid) = some serial →
    ∃ file, state.file = some file ∧ file.creator = pid ∧ file.serial = serial

theorem Owned.exclusive {state : LockState} (owned : Owned state) : Exclusive state where
  alone pid other serial otherSerial inside otherInside := by
    obtain ⟨file, fileEq, creatorEq, _⟩ := owned pid serial (by rw [inside]; rfl)
    obtain ⟨otherFile, otherFileEq, otherCreatorEq, _⟩ :=
      owned other otherSerial (by rw [otherInside]; rfl)
    obtain rfl : file = otherFile := Option.some.inj (fileEq.symm.trans otherFileEq)
    rw [← creatorEq, otherCreatorEq]
  ownFile pid serial inside := owned pid serial (by rw [inside]; rfl)

theorem owned_start : Owned start :=
  fun _ _ held => nomatch held

variable {windows : Bool} {staleAfterMs : Nat} {state after : LockState} {pid : Nat}

def SameFile (before after : Option LockFile) : Prop :=
  after.map (fun file => (file.creator, file.serial)) =
    before.map fun file => (file.creator, file.serial)

/-- Everything an action of a process can do to the lock file. -/
inductive Effect (state : LockState) (pid : Nat) (action : LockAction) : LockState → Prop
  | keeps (after : LockState) (phase : LockPhase) (same : SameFile state.file after.file)
      (phases : after.phases = Function.update state.phases pid phase)
      (held : holding phase = none ∨ holding phase = holding (state.phases pid)) :
      Effect state pid action after
  | creates (after : LockState) (serial openedAt : Nat) (file : LockFile)
      (free : state.file = none) (created : after.file = some file)
      (creator : file.creator = pid) (number : file.serial = serial)
      (phases : after.phases = Function.update state.phases pid (.writing serial openedAt)) :
      Effect state pid action after
  | releases (serial : Nat) (held : holding (state.phases pid) = some serial) :
      Effect state pid action (state.unlink.move pid .idle)
  | steals (stealing : state.phases pid = .stealing) (chosen : action = .operate .done) :
      Effect state pid action (state.unlink.move pid .waiting)

theorem effect_move {action : LockAction} (phase : LockPhase)
    (held : holding phase = none ∨ holding phase = holding (state.phases pid)) :
    Effect state pid action (state.move pid phase) :=
  .keeps _ phase rfl rfl held

theorem effect_modify {action : LockAction} (serial : Nat) (change : LockFile → LockFile)
    (phase : LockPhase) (sameCreator : ∀ file, (change file).creator = file.creator)
    (sameSerial : ∀ file, (change file).serial = file.serial)
    (held : holding phase = none ∨ holding phase = holding (state.phases pid)) :
    Effect state pid action ((state.modify serial change).move pid phase) := by
  refine .keeps _ phase ?_ rfl held
  show SameFile state.file (state.file.map _)
  cases state.file with
  | none => rfl
  | some file =>
    by_cases own : file.serial = serial
    · simp [SameFile, own, sameCreator, sameSerial]
    · simp [SameFile, own]

theorem effect_openExclusive {action : LockAction} (answer : FileAnswer) :
    Effect state pid action (state.openExclusive pid answer) := by
  cases answer with
  | done =>
    rw [openExclusive]
    split
    · exact effect_move .reading (.inl rfl)
    · next free => exact .creates _ _ _ _ free rfl rfl rfl rfl
  | transient => exact effect_move .waiting (.inl rfl)
  | failed => exact effect_move .idle (.inl rfl)

theorem effect_judge {action : LockAction} (answer : FileAnswer) :
    Effect state pid action (state.readOwner pid answer) ∧
      (∀ owner, Effect state pid action (state.checkOwner pid owner)) ∧
      Effect state pid action (state.lockFileAgeExceeds staleAfterMs pid answer) := by
  refine ⟨?_, fun owner => ?_, ?_⟩
  · cases answer with
    | done =>
      rw [readOwner]
      split
      · exact effect_move .waiting (.inl rfl)
      · split <;> exact effect_move _ (.inl rfl)
    | transient => exact effect_move .dating (.inl rfl)
    | failed => exact effect_move .idle (.inl rfl)
  · unfold checkOwner
    split <;> exact effect_move _ (.inl rfl)
  · cases answer with
    | done =>
      rw [lockFileAgeExceeds]
      split
      · exact effect_move .waiting (.inl rfl)
      · split <;> exact effect_move _ (.inl rfl)
    | transient => exact effect_move .waiting (.inl rfl)
    | failed => exact effect_move .idle (.inl rfl)

theorem effect_releaseLock {action : LockAction} {serial attempts : Nat} (answer : FileAnswer)
    (releasing : state.phases pid = .releasing serial attempts) :
    Effect state pid action (state.releaseLock pid serial attempts answer) := by
  have held : holding (state.phases pid) = some serial := by rw [releasing]; rfl
  cases answer with
  | done => exact .releases serial held
  | transient =>
    rw [releaseLock]
    split
    · exact effect_move (.releasing serial (attempts + 1)) (.inr held.symm)
    · exact effect_move .idle (.inl rfl)
  | failed => exact effect_move .idle (.inl rfl)

theorem effect_operate {answer : FileAnswer}
    (operated : state.operate windows staleAfterMs pid answer = some after) :
    Effect state pid (.operate answer) after := by
  unfold operate at operated
  split at operated
  · cases operated
  · split at operated
    · cases operated
      exact effect_openExclusive answer
    · cases operated
      have judged := @effect_judge staleAfterMs state pid (.operate answer) answer
      exact judged.1
    · cases operated
      have judged := @effect_judge staleAfterMs state pid (.operate answer) answer
      exact judged.2.1 _
    · cases operated
      exact (effect_judge answer).2.2
    · next stealing =>
        cases operated
        cases answer with
        | done => exact .steals stealing rfl
        | transient | failed => exact effect_move .idle (.inl rfl)
    · next serial openedAt writing =>
        cases operated
        have held : holding (state.phases pid) = some serial := by rw [writing]; rfl
        cases answer with
        | done =>
          exact effect_modify serial _ (.closing serial) (fun _ => rfl) (fun _ => rfl)
            (.inr held.symm)
        | transient | failed => exact effect_move (.undoing serial) (.inr held.symm)
    · next serial closing =>
        cases operated
        have held : holding (state.phases pid) = some serial := by rw [closing]; rfl
        cases answer with
        | done => exact effect_move (.inside serial) (.inr held.symm)
        | transient | failed => exact effect_move (.undoing serial) (.inr held.symm)
    · next serial undoing =>
        cases operated
        cases answer with
        | done => exact .releases serial (by rw [undoing]; rfl)
        | transient | failed => exact effect_move .idle (.inl rfl)
    · next serial attempts releasing =>
        cases operated
        exact effect_releaseLock answer releasing
    · cases operated

theorem effect_act {action : LockAction}
    (acted : state.act windows staleAfterMs pid action = some after) :
    Effect state pid action after := by
  unfold act at acted
  split at acted
  · cases acted
  · split at acted
    · cases acted
      exact effect_move .crashed (.inl rfl)
    · exact effect_operate acted
    · cases acted
      exact effect_move .opening (.inl rfl)
    · next serial openedAt writing =>
        cases acted
        exact effect_modify serial id (.writing serial openedAt) (fun _ => rfl) (fun _ => rfl)
          (.inr (by rw [writing]))
    · next serial inside =>
        cases acted
        exact effect_move (.releasing serial 0) (.inr (by rw [inside]; rfl))
    · cases acted
      exact effect_move .opening (.inl rfl)
    · cases acted
      exact effect_move .idle (.inl rfl)
    · cases acted

/-- No action takes the file of a live process from the disk, as long as only
abandoned locks are stolen. -/
theorem Owned.act {action : LockAction} (owned : Owned state)
    (effect : Effect state pid action after)
    (abandoned : StealsAbandoned state (.act pid action)) : Owned after := by
  cases effect with
  | keeps _ phase same phases held =>
    intro other serial holds
    have heldBefore : holding (state.phases other) = some serial := by
      rw [phases] at holds
      by_cases own : other = pid
      · subst own
        rw [Function.update_self] at holds
        rcases held with none | stays
        · rw [none] at holds
          cases holds
        · rwa [← stays]
      · rwa [Function.update_of_ne own] at holds
    obtain ⟨file, fileEq, creatorEq, serialEq⟩ := owned other serial heldBefore
    rw [SameFile, fileEq] at same
    cases afterEq : after.file with
    | none =>
      rw [afterEq] at same
      cases same
    | some later =>
      rw [afterEq] at same
      obtain ⟨laterCreator, laterSerial⟩ : later.creator = file.creator ∧
          later.serial = file.serial := by simpa using same
      exact ⟨later, rfl, laterCreator.trans creatorEq, laterSerial.trans serialEq⟩
  | creates _ serial openedAt file free created creator number phases =>
    intro other otherSerial holds
    rw [phases] at holds
    by_cases own : other = pid
    · subst own
      rw [Function.update_self] at holds
      obtain rfl : serial = otherSerial := Option.some.inj holds
      exact ⟨file, created, creator, number⟩
    · rw [Function.update_of_ne own] at holds
      obtain ⟨earlier, fileEq, _⟩ := owned other otherSerial holds
      rw [free] at fileEq
      cases fileEq
  | releases serial held =>
    obtain ⟨file, fileEq, creatorEq, _⟩ := owned pid serial held
    intro other otherSerial holds
    by_cases own : other = pid
    · subst own
      rw [move_phases_self] at holds
      cases holds
    · rw [move_phases_of_ne _ own] at holds
      obtain ⟨otherFile, otherEq, otherCreator, _⟩ := owned other otherSerial holds
      obtain rfl : file = otherFile := Option.some.inj (fileEq.symm.trans otherEq)
      exact absurd (otherCreator.symm.trans creatorEq) own
  | steals stealing chosen =>
    subst chosen
    intro other otherSerial holds
    by_cases own : other = pid
    · subst own
      rw [move_phases_self] at holds
      cases holds
    · rw [move_phases_of_ne _ own] at holds
      have heldBefore : holding (state.phases other) = some otherSerial := holds
      obtain ⟨file, fileEq, creatorEq, serialEq⟩ := owned other otherSerial heldBefore
      have notHeld := abandoned pid file rfl stealing fileEq
      rw [creatorEq, serialEq] at notHeld
      exact absurd heldBefore notHeld

theorem Owned.step {event : LockEvent} {outputs : List Unit} (owned : Owned state)
    (abandoned : StealsAbandoned state event)
    (stepped : state.step windows staleAfterMs event = some (after, outputs)) : Owned after := by
  cases event with
  | tick =>
    cases stepped
    exact owned
  | act =>
    obtain ⟨acted, actedEq, pairEq⟩ := Option.map_eq_some_iff.mp stepped
    cases pairEq
    exact owned.act (effect_act actedEq) abandoned

end

/-- In every run in which only abandoned locks are stolen, at most one live
process is inside its callback, and the lock file is its own. -/
theorem exclusive_of_steals_abandoned (windows : Bool) (staleAfterMs : Nat)
    {history : List Unit} {state : LockState}
    (runs : Runs (step windows staleAfterMs) (fun _ => StealsAbandoned) start
      history state) : Exclusive state := by
  have owned : Owned state := by
    refine runs.invariant (fun _ => Owned) owned_start ?_
    intro history before event after outputs held abandoned stepped
    exact held.step abandoned stepped
  exact owned.exclusive

def acquires (pid : Nat) : List LockEvent :=
  [.act pid .enter, .act pid (.operate .done), .act pid (.operate .done), .act pid (.operate .done)]

/-- A process finds the lock of a crashed one and judges it stale. -/
def judgesStale (pid : Nat) : List LockEvent :=
  [.act pid .enter, .act pid (.operate .done), .act pid (.operate .done), .act pid (.operate .done)]

/-- A process removes the lock that it has judged stale, and takes the lock. -/
def takesOver (pid : Nat) : List LockEvent :=
  [.act pid (.operate .done), .act pid .retry, .act pid (.operate .done),
    .act pid (.operate .done), .act pid (.operate .done)]

def abandons (state : LockState) : LockEvent → Bool
  | .act pid (.operate .done) =>
    state.phases pid ≠ .stealing ||
      state.file.all fun file => holding (state.phases file.creator) ≠ some file.serial
  | _ => true

theorem stealsAbandoned_of_abandons {state : LockState} {event : LockEvent}
    (passed : abandons state event) : StealsAbandoned state event := by
  rintro pid file rfl stealing fileEq
  simpa [abandons, stealing, fileEq] using passed

/-- One process takes over the lock of a crashed one. -/
theorem exclusive_of_steals_abandoned_takeover :
    ∃ history state, Runs (step false 30000) (fun _ => StealsAbandoned) start
      history state ∧ state.phases 1 = .inside 1 ∧ Exclusive state := by
  obtain ⟨history, state, runs, passed⟩ := exists_runs_of_runWhile (step false 30000)
    (fun _ => abandons) (fun _ => StealsAbandoned) start
    (acquires 0 ++ [.act 0 .crash] ++ judgesStale 1 ++ takesOver 1)
    (fun reached => reached.1.phases 1 = .inside 1)
    (fun _ _ _ passed => stealsAbandoned_of_abandons passed) (by decide +kernel)
  exact ⟨history, state, runs, by simpa using passed,
    exclusive_of_steals_abandoned false 30000 runs⟩

/-- Two processes that have both judged the lock of a crashed one stale: the
second removes the lock of the first. -/
theorem two_inside_after_steals :
    ¬∀ (windows : Bool) (staleAfterMs : Nat) (history : List Unit) (state : LockState),
      Runs (step windows staleAfterMs) (fun _ => TimelyWrites staleAfterMs) start
        history state → Exclusive state := by
  intro claimed
  obtain ⟨history, state, runs, passed⟩ := exists_runs_of_any (step false 30000)
    (fun event => event ≠ .tick) start
    (acquires 0 ++ [.act 0 .crash] ++ judgesStale 1 ++ judgesStale 2 ++ takesOver 1 ++ takesOver 2)
    (fun reached => reached.1.phases 1 = .inside 1 && reached.1.phases 2 = .inside 2)
    (by decide) (by decide +kernel)
  have timely : Runs (step false 30000) (fun _ => TimelyWrites 30000) start history state :=
    runs.mono fun _ _ _ noTick ticks => absurd ticks noTick
  simp only [Bool.and_eq_true, decide_eq_true_eq] at passed
  have together := (claimed false 30000 history state timely).alone 1 2 1 2 passed.1 passed.2
  cases together

end LockState

end P2PHub
