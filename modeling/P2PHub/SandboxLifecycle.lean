import P2PHub.SandboxAdapter

/-!
# Crashed and stopped sandboxes

What holds of an adapter in every state that it reaches: each request's promise
is settled once, a crash is reported once, and a crashed or stopped adapter has
no request pending and no skill in the broker, and stays as it is.  Two steps
break this: a start that goes on after its sandbox crashed or was stopped, and a
skill that a crashed child registers.
-/

namespace P2PHub.Sandbox

open JsValue Adapter OrderedMap Transition AdapterEvent

def AdapterEvent.settles (id : Nat) : AdapterEvent → Bool
  | .settled other _ => decide (other = id)
  | _ => false

def AdapterEvent.isCrash : AdapterEvent → Bool
  | .crashed _ => true
  | _ => false

/-- How often the promise of a request was resolved or rejected. -/
def settlements (history : List AdapterEvent) (id : Nat) : Nat :=
  history.countP (·.settles id)

theorem settlements_append (history later : List AdapterEvent) (id : Nat) :
    settlements (history ++ later) id = settlements history id + settlements later id :=
  List.countP_append

theorem settlements_settled (other : Nat) (outcome : RequestOutcome) (id : Nat) :
    settlements [.settled other outcome] id = if other = id then 1 else 0 := by
  by_cases same : other = id <;> simp [settlements, settles, same]

/-- A promise is settled once when its request is no longer pending, and not
before. -/
structure Accounted (history : List AdapterEvent) (adapter : Adapter) : Prop where
  created : ∀ id, adapter.pending.get id ≠ none → id < adapter.promises.length
  settled : ∀ id, settlements history id =
    if id < adapter.promises.length ∧ adapter.pending.get id = none then 1 else 0

def Owned (host : ChildHost) : Prop :=
  ∀ key record skill, host.skills.get key = some record → record.handler = .sandboxed skill →
    host.registered.get key ≠ none

def Unregistered (skills : Skills) : Prop :=
  ∀ key record skill, skills.get key = some record → record.handler ≠ .sandboxed skill

def AdapterState.Ended (state : AdapterState) : Prop :=
  state = .crashed ∨ state = .stopped

instance (state : AdapterState) : Decidable state.Ended :=
  inferInstanceAs (Decidable (_ ∨ _))

/-- A crashed adapter at most becomes a stopped one, which stays stopped. -/
structure AdapterState.Absorbs (before after : AdapterState) : Prop where
  stopped : before = .stopped → after = .stopped
  crashed : before = .crashed → after.Ended

structure Adapter.Clean (adapter : Adapter) : Prop where
  pending : ∀ id, adapter.pending.get id = none
  skills : Unregistered adapter.host.skills

/-- The invariant of the adapter since some state of its run. -/
structure Sound (origin : AdapterState) (history : List AdapterEvent) (adapter : Adapter) :
    Prop where
  accounted : Accounted history adapter
  owned : Owned adapter.host
  clean : adapter.state.Ended → adapter.Clean
  crashes : history.countP isCrash ≤ if adapter.state.Ended then 1 else 0
  absorbs : origin.Absorbs adapter.state

section

variable {history : List AdapterEvent} {adapter : Adapter}

theorem Accounted.settle (accounted : Accounted history adapter) {id : Nat}
    (waits : adapter.pending.get id ≠ none) (outcome : RequestOutcome) :
    Accounted (history ++ (adapter.settle id outcome).events)
      (adapter.settle id outcome).adapter := by
  have bound := accounted.created id waits
  constructor
  · intro other present
    simp only [Adapter.settle, get_delete, List.length_set] at present ⊢
    split at present
    · exact absurd rfl present
    · exact accounted.created other present
  · intro other
    simp only [Adapter.settle, settlements_append, accounted.settled, settlements_settled,
      get_delete, List.length_set]
    by_cases same : other = id
    · subst same
      rw [if_neg (fun both => waits both.2), if_pos rfl, if_pos rfl, if_pos ⟨bound, rfl⟩]
    · rw [if_neg (Ne.symm same), if_neg same]
      rfl

theorem Accounted.await (accounted : Accounted history adapter) (method : String)
    (timeoutMs : JsNumber) : Accounted history (adapter.await method timeoutMs) := by
  constructor
  · intro id present
    simp only [Adapter.await, get_set, List.length_append, List.length_singleton]
      at present ⊢
    split at present
    · omega
    · have bound := accounted.created id present
      omega
  · intro id
    simp only [Adapter.await, get_set, List.length_append, List.length_singleton, accounted.settled]
    by_cases new : id = adapter.promises.length
    · rw [if_neg (by omega), if_pos new, if_neg (fun both => by cases both.2)]
    · rw [if_neg new]
      have older : id < adapter.promises.length + 1 ↔ id < adapter.promises.length := by omega
      simp only [older]

theorem await_pending (method : String) (timeoutMs : JsNumber) :
    (adapter.await method timeoutMs).pending.get adapter.promises.length ≠ none := by
  simp [await]

theorem Accounted.refuse (accounted : Accounted history adapter) :
    Accounted (history ++ adapter.refuse.events) adapter.refuse.adapter := by
  constructor
  · intro id present
    simp only [Adapter.refuse, Adapter.settle, get_delete, List.length_set,
      List.length_append, List.length_singleton] at present ⊢
    split at present
    · exact absurd rfl present
    · have bound := accounted.created id present
      omega
  · intro id
    simp only [Adapter.refuse, Adapter.settle, settlements_append, accounted.settled,
      settlements_settled, get_delete, List.length_set, List.length_append,
      List.length_singleton]
    by_cases new : id = adapter.promises.length
    · subst new
      rw [if_neg (by omega), if_pos rfl, if_pos rfl, if_pos ⟨by omega, rfl⟩]
    · rw [if_neg (Ne.symm new), if_neg new]
      have older : id < adapter.promises.length + 1 ↔ id < adapter.promises.length := by omega
      simp only [older, Nat.add_zero]

theorem settlements_keys (keys : List Nat) (distinct : keys.Nodup) (outcome : RequestOutcome)
    (id : Nat) : settlements (keys.map (.settled · outcome)) id = if id ∈ keys then 1 else 0 := by
  have counted : settlements (keys.map (.settled · outcome)) id = keys.count id := by
    rw [settlements, List.countP_map, List.count]
    exact List.countP_congr fun other _ => by simp [settles]
  rw [counted]
  split
  · next present => exact List.count_eq_one_of_mem distinct present
  · next absent => exact List.count_eq_zero_of_not_mem absent

theorem length_rejectAll (keys : List Nat) (outcome : RequestOutcome)
    (promises : List (Option RequestOutcome)) :
    (keys.foldl (fun promises id => promises.set id (some outcome)) promises).length =
      promises.length := by
  induction keys generalizing promises with
  | nil => rfl
  | cons key keys ih => rw [List.foldl_cons, ih, List.length_set]

theorem Accounted.cleanup (accounted : Accounted history adapter) (reason : String) :
    Accounted (history ++ (adapter.cleanupRegisteredAndPending reason).events)
      (adapter.cleanupRegisteredAndPending reason).adapter := by
  constructor
  · intro id present
    exact absurd (get_clear _ id) present
  · intro id
    simp only [cleanupRegisteredAndPending, settlements_append, accounted.settled,
      settlements_keys _ (keys_nodup _), length_rejectAll, get_clear,
      and_true]
    cases found : adapter.pending.get id with
    | none =>
      have absent : id ∉ adapter.pending.keys := by
        rw [mem_keys, found]
        simp
      simp [absent]
    | some pending =>
      have present : id ∈ adapter.pending.keys := mem_keys.mpr ⟨pending, found⟩
      have bound := accounted.created id (by simp [found])
      simp [present, bound]

end

section

variable {host : ChildHost}

theorem get_foldl_delete {Value : Type*} (keys : List String) (map : OrderedMap String Value)
    (key : String) :
    (keys.foldl delete map).get key = if key ∈ keys then none else map.get key := by
  induction keys generalizing map with
  | nil => rfl
  | cons first keys ih =>
    rw [List.foldl_cons, ih, get_delete]
    by_cases same : key = first <;> simp [same]

variable {adapter : Adapter}

theorem clean_cleanup (owned : Owned adapter.host) (reason : String) :
    (adapter.cleanupRegisteredAndPending reason).adapter.Clean := by
  constructor
  · exact fun id => get_clear _ id
  · intro key record skill found sandboxed
    simp only [cleanupRegisteredAndPending, get_foldl_delete] at found
    split at found
    · cases found
    · next unknown =>
        have known := owned key record skill found sandboxed
        exact unknown (mem_keys.mpr (Option.ne_none_iff_exists'.mp known))

theorem owned_of_unregistered (none : Unregistered host.skills) : Owned host :=
  fun key record skill found sandboxed => absurd sandboxed (none key record skill found)

def RegistersSkill (options : AdapterOptions) (host : ChildHost) (method : String)
    (params : Option JsValue) : Prop :=
  method = "skill:register" ∧ ∃ skill raw skills,
    skillName? (coalesce (params.getD .undefined) (.object [])) = some skill ∧
      requestOptions? (coalesce (params.getD .undefined) (.object [])) = some raw ∧
      assertSandboxRegistrationAllowed options.manifest skill (readOptions raw) = .ok () ∧
      registerSkill host.skills (brokerKey options.pluginId skill) (.sandboxed skill)
        (readOptions raw) = .ok skills

theorem registerChildSkill_cases (manifest : PluginManifest) (pluginId : String)
    (host : ChildHost) (skill : String) (raw : RawOptions) :
    (registerChildSkill manifest pluginId host skill raw).1 = host ∨
    ∃ skills, assertSandboxRegistrationAllowed manifest skill raw = .ok () ∧
      registerSkill host.skills (brokerKey pluginId skill) (.sandboxed skill) raw = .ok skills ∧
      (registerChildSkill manifest pluginId host skill raw).1 =
        ⟨host.skills.set (brokerKey pluginId skill) (rawSkillRecord (.sandboxed skill) raw),
          host.registered.set (brokerKey pluginId skill) skill⟩ := by
  unfold registerChildSkill
  split
  · exact .inl rfl
  · next checked =>
      split
      · exact .inl rfl
      · next skills registered =>
          rw [registerSkill_stored registered]
          exact .inr ⟨skills, checked, registered, rfl⟩

theorem handleChildRequest_cases (options : AdapterOptions) (host : ChildHost) (method : String)
    (params : Option JsValue) :
    (handleChildRequest options.manifest options.pluginId host method params).1 = host ∨
    (RegistersSkill options host method params ∧ ∃ key skill raw,
      (handleChildRequest options.manifest options.pluginId host method params).1 =
        ⟨host.skills.set key (rawSkillRecord (.sandboxed skill) raw),
          host.registered.set key skill⟩) ∨
    ∃ key, (handleChildRequest options.manifest options.pluginId host method params).1 =
      ⟨host.skills.delete key, host.registered.delete key⟩ := by
  unfold handleChildRequest
  by_cases register : method = "skill:register"
  · simp only [register, if_true]
    split
    · exact .inl rfl
    · next skill named =>
        split
        · exact .inl rfl
        · next raw optioned =>
            rcases registerChildSkill_cases options.manifest options.pluginId host skill
                (readOptions raw) with same | ⟨skills, checked, registered, stored⟩
            · exact .inl same
            · exact .inr (.inl ⟨⟨rfl, skill, raw, skills, named, optioned, checked, registered⟩,
                _, skill, readOptions raw, stored⟩)
  · simp only [if_neg register]
    split
    · split
      · exact .inl rfl
      · exact .inr (.inr ⟨_, rfl⟩)
    · exact .inl rfl

theorem Owned.set (owned : Owned host) (key skill : String) (raw : RawOptions) :
    Owned ⟨host.skills.set key (rawSkillRecord (.sandboxed skill) raw),
      host.registered.set key skill⟩ := by
  intro other record name found sandboxed
  rw [get_set] at found ⊢
  split
  · intro missing
    cases missing
  · next apart =>
      rw [if_neg apart] at found
      exact owned other record name found sandboxed

theorem Owned.delete (owned : Owned host) (key : String) :
    Owned ⟨host.skills.delete key, host.registered.delete key⟩ := by
  intro other record name found sandboxed
  rw [get_delete] at found ⊢
  split at found
  · cases found
  · next apart =>
      rw [if_neg apart]
      exact owned other record name found sandboxed

theorem Unregistered.delete {skills : Skills} (none : Unregistered skills) (key : String) :
    Unregistered (skills.delete key) := by
  intro other record name found
  rw [get_delete] at found
  split at found
  · cases found
  · exact none other record name found

theorem Unregistered.setOther {skills : Skills} (none : Unregistered skills) (key : String)
    (handler : Nat) (raw : RawOptions) :
    Unregistered (skills.set key (rawSkillRecord (.other handler) raw)) := by
  intro other record name found
  rw [get_set] at found
  split at found
  · cases found
    intro same
    cases same
  · exact none other record name found

end

section

variable {origin : AdapterState} {history : List AdapterEvent} {adapter : Adapter}

def Keeps (origin : AdapterState) (next : Adapter → AdapterStep) : Prop :=
  ∀ history adapter, Sound origin history adapter →
    Sound origin (history ++ (next adapter).events) (next adapter).adapter

theorem Sound.andThen {first : AdapterStep} {next : Adapter → AdapterStep}
    (sound : Sound origin (history ++ first.events) first.adapter) (kept : Keeps origin next) :
    Sound origin (history ++ (first.andThen next).events) (first.andThen next).adapter := by
  have both := kept _ _ sound
  rw [List.append_assoc] at both
  exact both

section

variable (sound : Sound origin history adapter)
include sound

theorem Sound.idle : Sound origin (history ++ []) adapter := by
  rw [List.append_nil]
  exact sound

theorem Sound.relabel (reason : Option String)
    (channels : List Bool) (transport : Option Nat) (heartbeat : Bool) (calls : List AdapterCall) :
    Sound origin history { adapter with
        crashedReason := reason, channels := channels, transport := transport
        heartbeat := heartbeat, calls := calls } where
  accounted := ⟨sound.accounted.created, sound.accounted.settled⟩
  owned := sound.owned
  clean := fun ended => ⟨(sound.clean ended).pending, (sound.clean ended).skills⟩
  crashes := sound.crashes
  absorbs := sound.absorbs

theorem Sound.silent {later : List AdapterEvent}
    (settles : ∀ id, settlements later id = 0) (crashes : later.countP isCrash = 0) :
    Sound origin (history ++ later) adapter where
  accounted :=
    { created := sound.accounted.created
      settled := fun id => by
        rw [settlements_append, settles, Nat.add_zero]
        exact sound.accounted.settled id }
  owned := sound.owned
  clean := sound.clean
  crashes := by
    rw [List.countP_append, crashes]
    exact sound.crashes
  absorbs := sound.absorbs

theorem Sound.settle {id : Nat} (waits : adapter.pending.get id ≠ none) (outcome : RequestOutcome) :
    Sound origin (history ++ (adapter.settle id outcome).events)
      (adapter.settle id outcome).adapter where
  accounted := sound.accounted.settle waits outcome
  owned := sound.owned
  clean := fun ended => absurd ((sound.clean ended).pending id) waits
  crashes := by
    rw [List.countP_append]
    exact sound.crashes
  absorbs := sound.absorbs

theorem Sound.await (live : ¬adapter.state.Ended) (method : String) (timeoutMs : JsNumber) :
    Sound origin history (adapter.await method timeoutMs) where
  accounted := sound.accounted.await method timeoutMs
  owned := sound.owned
  clean := fun ended => absurd ended live
  crashes := sound.crashes
  absorbs := sound.absorbs

theorem Sound.refuse : Sound origin (history ++ adapter.refuse.events) adapter.refuse.adapter where
  accounted := sound.accounted.refuse
  owned := sound.owned
  clean := fun ended => by
    refine ⟨fun id => ?_, (sound.clean ended).skills⟩
    simp only [Adapter.refuse, Adapter.settle, get_delete]
    split
    · rfl
    · exact (sound.clean ended).pending id
  crashes := by
    rw [List.countP_append]
    exact sound.crashes
  absorbs := sound.absorbs

end

theorem crashes_cleanup (reason : String) :
    (adapter.cleanupRegisteredAndPending reason).events.countP isCrash = 0 := by
  rw [cleanupRegisteredAndPending, List.countP_eq_zero]
  intro event eventIn
  obtain ⟨id, -, rfl⟩ := List.mem_map.mp eventIn
  exact Bool.false_ne_true

theorem sound_cleanup (accounted : Accounted history adapter) (owned : Owned adapter.host)
    (ended : adapter.state.Ended) (crashes : history.countP isCrash ≤ 1)
    (absorbs : origin.Absorbs adapter.state) (reason : String) :
    Sound origin (history ++ (adapter.cleanupRegisteredAndPending reason).events)
      (adapter.cleanupRegisteredAndPending reason).adapter := by
  have cleaned := clean_cleanup owned reason
  constructor
  · exact accounted.cleanup reason
  · exact owned_of_unregistered cleaned.skills
  · exact fun _ => cleaned
  · rw [List.countP_append, crashes_cleanup, Nat.add_zero]
    have stays : (adapter.cleanupRegisteredAndPending reason).adapter.state.Ended := ended
    rw [if_pos stays]
    exact crashes
  · exact absorbs

theorem Sound.crashes_le (sound : Sound origin history adapter) : history.countP isCrash ≤ 1 := by
  have crashes := sound.crashes
  split at crashes <;> omega

theorem keeps_killAndCrash (reason : String) : Keeps origin (killAndCrash reason) := by
  intro history adapter sound
  unfold killAndCrash
  split
  · exact sound.idle
  · next live =>
      have none : history.countP isCrash = 0 := by
        have crashes := sound.crashes
        rw [if_neg (show ¬adapter.state.Ended from live)] at crashes
        omega
      have absorbs : origin.Absorbs .crashed := by
        constructor
        · intro stopped
          exact absurd (.inr (sound.absorbs.stopped stopped)) live
        · exact fun _ => .inl rfl
      let dead : Adapter :=
        { adapter with state := .crashed, crashedReason := some reason, heartbeat := false }
      have accounted : Accounted history dead :=
        ⟨sound.accounted.created, sound.accounted.settled⟩
      have cleaned : Sound origin (history ++ (dead.cleanupRegisteredAndPending reason).events)
          (dead.cleanupRegisteredAndPending reason).adapter :=
        sound_cleanup accounted sound.owned (.inl rfl) (by omega) absorbs reason
      have reported : (dead.cleanupRegisteredAndPending reason).events.countP isCrash = 0 :=
        crashes_cleanup reason
      constructor
      · constructor
        · exact cleaned.accounted.created
        · intro id
          rw [AdapterStep.andThen, ← List.append_assoc, settlements_append]
          exact cleaned.accounted.settled id
      · exact cleaned.owned
      · exact cleaned.clean
      · rw [AdapterStep.andThen, List.countP_append, List.countP_append, none, reported]
        exact Nat.le_refl 1
      · exact cleaned.absorbs

theorem keeps_onError (message : String) : Keeps origin (onError message) := by
  intro history adapter sound
  unfold onError
  split
  · exact keeps_killAndCrash _ _ _ sound
  · exact sound.idle

theorem keeps_onClose : Keeps origin onClose := by
  intro history adapter sound
  unfold onClose
  split
  · exact keeps_killAndCrash _ _ _ sound
  · exact sound.idle

theorem keeps_closeChannel (channel : Nat) : Keeps origin (closeChannel channel) := by
  intro history adapter sound
  unfold closeChannel
  split
  · exact keeps_onClose _ _ (sound.relabel _ _ _ _ _)
  · exact sound.idle

theorem keeps_failChannel (channel : Nat) (message : String) :
    Keeps origin (failChannel channel message) := by
  intro history adapter sound
  unfold failChannel
  split
  · have failed := keeps_onError message _ _ (sound.relabel adapter.crashedReason
      (adapter.channels.set channel false) adapter.transport adapter.heartbeat adapter.calls)
    exact failed.andThen keeps_onClose
  · exact sound.idle

theorem keeps_closeTransport : Keeps origin closeTransport := by
  intro history adapter sound
  unfold closeTransport
  split
  · exact sound.idle
  · next channel _ =>
      have closed := keeps_closeChannel channel _ _ sound
      apply closed.andThen
      intro history adapter sound
      exact (sound.relabel _ _ _ _ _).idle

theorem keeps_leave (call : AdapterCall) : Keeps origin (leave call) :=
  fun _ _ sound => (sound.relabel _ _ _ _ _).idle

theorem keeps_finish (index : Nat) (call : AdapterCall) : Keeps origin (finish index call) :=
  fun _ _ sound => (sound.relabel _ _ _ _ _).idle

variable (sound : Sound origin history adapter) (method : String) (params : JsValue)
    (timeoutMs : JsNumber)
include sound method params timeoutMs

theorem Sound.request (send : SendResult) (live : method = "initialize" → ¬adapter.state.Ended) :
    Sound origin (history ++ (adapter.request method params timeoutMs send).events)
      (adapter.request method params timeoutMs send).adapter := by
  unfold Adapter.request
  split
  · exact sound.refuse
  · next channel _ =>
      split
      · exact sound.refuse
      · next goes =>
          have notEnded : ¬adapter.state.Ended := by
            by_cases first : method = "initialize"
            · exact live first
            · have running : adapter.state = .running := by
                by_contra other
                exact goes ⟨other, first⟩
              rw [running]
              decide
          have waiting := sound.await notEnded method timeoutMs
          have pending : (adapter.await method timeoutMs).pending.get adapter.promises.length ≠
            none := await_pending method timeoutMs
          split
          · cases send with
            | sent => exact waiting.silent (fun _ => rfl) rfl
            | throws => exact waiting.settle pending _
            | fails message => exact keeps_failChannel channel message _ _ waiting
          · exact waiting.settle pending _

theorem Sound.awaitRequest (send : SendResult) (call : Nat → AdapterCall)
    (live : method = "initialize" → ¬adapter.state.Ended) :
    Sound origin (history ++ (adapter.awaitRequest method params timeoutMs send call).events)
      (adapter.awaitRequest method params timeoutMs send call).adapter :=
  (sound.request method params timeoutMs send live).andThen (keeps_leave _)

end

section

variable {origin : AdapterState} (options : AdapterOptions) {history : List AdapterEvent}
  {adapter : Adapter}

theorem keeps_start (spawned : Except String SendResult) :
    Keeps origin (start options spawned) := by
  intro history adapter sound
  unfold start
  split
  · exact keeps_leave _ _ _ sound
  · next spawning =>
      rw [not_not] at spawning
      cases spawned with
      | error => exact keeps_leave _ _ _ sound
      | ok =>
        apply (sound.relabel adapter.crashedReason (adapter.channels ++ [true])
          (some adapter.channels.length) adapter.heartbeat adapter.calls).awaitRequest
        intro _
        rw [spawning]
        decide

theorem keeps_failStart (index : Nat) (error : SandboxError) :
    Keeps origin (failStart index error) :=
  fun _ _ sound => (keeps_killAndCrash _ _ _ sound).andThen (keeps_finish _ _)

/-- The continuation of a start keeps the invariant where it does not revive an
adapter. -/
theorem Sound.resumeStart
    (sound : Sound origin history adapter) (index : Nat) (outcome : RequestOutcome)
    (live : ∀ result, outcome = .ok result → Adapter.isInitialized result →
      ¬adapter.state.Ended) : Sound origin (history ++ (adapter.resumeStart index outcome).events)
      (adapter.resumeStart index outcome).adapter := by
  unfold Adapter.resumeStart
  split
  · next result =>
      split
      · next initialized =>
          have notEnded := live result rfl initialized
          apply Sound.idle
          constructor
          · exact ⟨sound.accounted.created, sound.accounted.settled⟩
          · exact sound.owned
          · exact fun ended => absurd (show AdapterState.Ended .running from ended) (by decide)
          · have crashes := sound.crashes
            rw [if_neg notEnded] at crashes
            exact crashes
          · constructor
            · intro stopped
              exact absurd (.inr (sound.absorbs.stopped stopped)) notEnded
            · intro crashed
              exact absurd (sound.absorbs.crashed crashed) notEnded
      · exact keeps_failStart _ _ _ _ sound
  · exact keeps_failStart _ _ _ _ sound

theorem keeps_invoke (skill : String) (payload context : JsValue) (send : SendResult) :
    Keeps origin (invoke options skill payload context send) := by
  intro history adapter sound
  unfold invoke
  split
  · exact keeps_leave _ _ _ sound
  · exact sound.awaitRequest _ _ _ _ _ (fun same => absurd same (by decide))

theorem keeps_resumeInvoke (skill : String) (index : Nat) (outcome : RequestOutcome) :
    Keeps origin (resumeInvoke options skill index outcome) := by
  intro history adapter sound
  unfold resumeInvoke
  split
  · exact keeps_finish _ _ _ _ sound
  · exact (keeps_killAndCrash _ _ _ sound).andThen (keeps_finish _ _)
  · exact keeps_finish _ _ _ _ sound

theorem keeps_ping (send : SendResult) : Keeps origin (ping options send) := by
  intro history adapter sound
  unfold ping
  split
  · exact keeps_leave _ _ _ sound
  · exact sound.awaitRequest _ _ _ _ _ (fun same => absurd same (by decide))

theorem keeps_resumePing (index : Nat) (outcome : RequestOutcome) :
    Keeps origin (resumePing index outcome) := by
  intro history adapter sound
  unfold resumePing
  split
  · exact keeps_finish _ _ _ _ sound
  · exact (keeps_killAndCrash _ _ _ sound).andThen (keeps_finish _ _)

theorem Sound.stopped (sound : Sound origin history adapter) (heartbeat : Bool) (reason : String) :
    Sound origin (history ++ (cleanupRegisteredAndPending reason
        { adapter with heartbeat := heartbeat, state := .stopped }).events)
      (cleanupRegisteredAndPending reason
        { adapter with heartbeat := heartbeat, state := .stopped }).adapter := by
  have accounted : Accounted history { adapter with heartbeat := heartbeat, state := .stopped } :=
    ⟨sound.accounted.created, sound.accounted.settled⟩
  have absorbs : origin.Absorbs .stopped := ⟨fun _ => rfl, fun _ => .inr rfl⟩
  exact sound_cleanup accounted sound.owned (.inr rfl) sound.crashes_le absorbs reason

theorem keeps_stop (exited : Bool) : Keeps origin (stop exited) := by
  intro history adapter sound
  have stopped := sound.stopped adapter.heartbeat "sandbox shut down"
  apply stopped.andThen
  intro history adapter sound
  split
  · exact keeps_closeTransport _ _ sound
  · exact sound.idle

theorem keeps_shutdown (timeoutMs : JsNumber) (exited : Bool) (send : SendResult) :
    Keeps origin (shutdown timeoutMs exited send) := by
  intro history adapter sound
  unfold shutdown
  have quiet := sound.relabel adapter.crashedReason adapter.channels adapter.transport false
    adapter.calls
  split
  · exact keeps_leave _ _ _ sound
  · split
    · exact quiet.awaitRequest _ _ _ _ _ (fun same => absurd same (by decide))
    · exact (keeps_stop exited _ _ quiet).andThen (keeps_leave _)

theorem keeps_kill : Keeps origin kill := by
  intro history adapter sound
  unfold kill
  split
  · exact sound.idle
  · exact (sound.stopped false "sandbox killed").andThen keeps_closeTransport

theorem keeps_handleResponse (id : Nat) (outcome : Except String JsValue) :
    Keeps origin (handleResponse id outcome) := by
  intro history adapter sound
  unfold handleResponse
  split
  · exact sound.idle
  · cases found : adapter.pending.get id with
    | none => exact sound.idle
    | some pending =>
      have waits : adapter.pending.get id ≠ none := by simp [found]
      cases outcome with
      | ok | error => exact sound.settle waits _

theorem keeps_handleNotification (method : String) (params : Option JsValue) :
    Keeps origin (handleNotification method params) := by
  intro history adapter sound
  unfold handleNotification
  split
  · exact sound.idle
  · split
    · exact keeps_killAndCrash _ _ _ sound
    · exact sound.idle

theorem keeps_expire (id : Nat) : Keeps origin (expire id) := by
  intro history adapter sound
  unfold expire
  split
  · exact sound.idle
  · next pending found => exact sound.settle (by simp [found]) _

/-- The registrations may change as long as the adapter knows its own, and an
ended one has none. -/
theorem Sound.withHost
    (sound : Sound origin history adapter) {host : ChildHost} (owned : Owned host)
    (none : adapter.state.Ended → Unregistered host.skills) :
    Sound origin history { adapter with host := host } where
  accounted := ⟨sound.accounted.created, sound.accounted.settled⟩
  owned := owned
  clean := fun ended => ⟨(sound.clean ended).pending, none ended⟩
  crashes := sound.crashes
  absorbs := sound.absorbs

/-- A request of the child keeps the invariant unless it registers a skill after
the crash. -/
theorem Sound.handleRequest
    (sound : Sound origin history adapter) (method : String) (params : Option JsValue)
    (quiet : adapter.state = .crashed → ¬RegistersSkill options adapter.host method params) :
    Sound origin (history ++ (adapter.handleRequest options method params).events)
      (adapter.handleRequest options method params).adapter := by
  unfold Adapter.handleRequest
  split
  · exact sound.idle
  · next notStopped =>
      apply Sound.silent _ (fun _ => rfl) rfl
      dsimp only
      rcases handleChildRequest_cases options adapter.host method params with
        same | ⟨registers, key, skill, raw, stored⟩ | ⟨key, deleted⟩
      · rw [same]
        exact sound
      · rw [stored]
        apply sound.withHost (sound.owned.set key skill raw)
        rintro (crashed | stopped)
        · exact absurd registers (quiet crashed)
        · exact absurd stopped notStopped
      · rw [deleted]
        apply sound.withHost (sound.owned.delete key)
        exact fun ended => (sound.clean ended).skills.delete key

theorem keeps_registerOther (key : String) (handler : Nat) (raw : RawOptions) :
    Keeps origin (registerOther key handler raw) := by
  intro history adapter sound
  unfold registerOther
  split
  · next skills registered =>
      rw [registerSkill_stored registered]
      apply Sound.idle
      apply sound.withHost
      · intro other record skill found sandboxed
        rw [get_set] at found
        split at found
        · cases found
          cases sandboxed
        · exact sound.owned other record skill found sandboxed
      · exact fun ended => (sound.clean ended).skills.setOther key handler raw
  · exact sound.idle

theorem keeps_unregisterOther (key : String) : Keeps origin (unregisterOther key) := by
  intro history adapter sound
  apply Sound.idle
  apply sound.withHost
  · intro other record skill found sandboxed
    rw [get_delete] at found
    split at found
    · cases found
    · exact sound.owned other record skill found sandboxed
  · exact fun ended => (sound.clean ended).skills.delete key

/-- The condition on a step: no start goes on with a successful response after
its sandbox crashed or was stopped, and no request registers a skill after the
crash. -/
def Orderly (adapter : Adapter) : AdapterAction → Prop
  | .resume call _ => ∀ promise result, adapter.calls[call]? = some (.starting promise) →
      adapter.promises[promise]? = some (some (.ok result)) →
        isInitialized result = true → ¬adapter.state.Ended
  | .childRequest method params =>
    adapter.state = .crashed → ¬RegistersSkill options adapter.host method params
  | _ => True

theorem Sound.resume
    (sound : Sound origin history adapter) {call : Nat} {exited : Bool} {step : AdapterStep}
    (orderly : Orderly options adapter (.resume call exited))
    (resumed : adapter.resume options call exited = some step) :
    Sound origin (history ++ step.events) step.adapter := by
  unfold Adapter.resume at resumed
  split at resumed
  · next promise found =>
      obtain ⟨outcome, settled, rfl⟩ := Option.map_eq_some_iff.mp resumed
      apply sound.resumeStart
      rintro result rfl initialized
      exact orderly promise result found (Option.join_eq_some_iff.mp settled) initialized
  · obtain ⟨outcome, -, rfl⟩ := Option.map_eq_some_iff.mp resumed
    exact keeps_resumeInvoke options _ _ _ _ _ sound
  · obtain ⟨outcome, -, rfl⟩ := Option.map_eq_some_iff.mp resumed
    exact keeps_resumePing _ _ _ _ sound
  · obtain ⟨outcome, -, rfl⟩ := Option.map_eq_some_iff.mp resumed
    exact (keeps_stop _ _ _ sound).andThen (keeps_finish _ _)
  · cases resumed
    exact (keeps_closeTransport _ _ sound).andThen (keeps_finish _ _)
  · cases resumed

theorem Sound.act
    (sound : Sound origin history adapter) {action : AdapterAction} {step : AdapterStep}
    (orderly : Orderly options adapter action) (acted : adapter.act options action = some step) :
    Sound origin (history ++ step.events) step.adapter := by
  cases action with
  | heartbeat =>
    simp only [Adapter.act] at acted
    split at acted
    · cases acted
      exact keeps_ping options _ _ _ sound
    · cases acted
  | resume => exact sound.resume options orderly acted
  | start =>
    cases acted
    exact keeps_start options _ _ _ sound
  | invoke =>
    cases acted
    exact keeps_invoke options _ _ _ _ _ _ sound
  | shutdown =>
    cases acted
    exact keeps_shutdown _ _ _ _ _ sound
  | kill =>
    cases acted
    exact keeps_kill _ _ sound
  | response =>
    cases acted
    exact keeps_handleResponse _ _ _ _ sound
  | notification =>
    cases acted
    exact keeps_handleNotification _ _ _ _ sound
  | childRequest method params =>
    cases acted
    exact sound.handleRequest options method params orderly
  | timeout =>
    cases acted
    exact keeps_expire _ _ _ sound
  | channelError =>
    cases acted
    exact keeps_failChannel _ _ _ _ sound
  | channelClosed =>
    cases acted
    exact keeps_closeChannel _ _ _ sound
  | registered =>
    cases acted
    exact keeps_registerOther _ _ _ _ _ sound
  | unregistered =>
    cases acted
    exact keeps_unregisterOther _ _ _ sound

end

variable {options : AdapterOptions} {skills : Skills} {origin : AdapterState}
  {history : List AdapterEvent}

theorem sound_initial (fresh : Unregistered skills) : Sound .spawning [] (initial skills) where
  accounted := ⟨fun _ present => absurd rfl present, fun _ => rfl⟩
  owned := owned_of_unregistered fresh
  clean := fun ended => absurd (show AdapterState.Ended .spawning from ended) (by decide)
  crashes := Nat.zero_le _
  absorbs :=
    { stopped := fun same => nomatch same
      crashed := fun same => nomatch same }

theorem Sound.run {later : List AdapterEvent}
    {adapter last : Adapter} (sound : Sound origin history adapter)
    (runs : Runs (step options) (fun _ => Orderly options) adapter later last) :
    Sound origin (history ++ later) last := by
  refine runs.invariant (fun later last => Sound origin (history ++ later) last) sound.idle ?_
  intro later before action after events sound orderly stepped
  simp only [step, Option.map_eq_some_iff, Prod.mk.injEq] at stepped
  obtain ⟨step, acted, rfl, rfl⟩ := stepped
  rw [← List.append_assoc]
  exact sound.act options orderly acted

/-- What holds of an adapter and of everything that happened to it. -/
structure Settled (options : AdapterOptions) (history : List AdapterEvent) (adapter : Adapter) :
    Prop where
  clean : adapter.state.Ended → adapter.Clean
  crashes : history.countP isCrash ≤ 1
  once : ∀ id < adapter.promises.length, adapter.pending.get id = none → settlements history id = 1
  waiting : ∀ id, adapter.pending.get id ≠ none → settlements history id = 0 ∧
    ∃ after events, adapter.step options (.timeout id) = some (after, events) ∧
      settlements (history ++ events) id = 1

theorem Sound.result {adapter : Adapter}
    (sound : Sound origin history adapter) : Settled options history adapter := by
  constructor
  · exact sound.clean
  · exact sound.crashes_le
  · intro id bound done
    rw [sound.accounted.settled, if_pos ⟨bound, done⟩]
  · intro id waits
    have unsettled : settlements history id = 0 := by
      rw [sound.accounted.settled, if_neg fun both => waits both.2]
    obtain ⟨pending, found⟩ := Option.ne_none_iff_exists'.mp waits
    refine ⟨unsettled, _, _, rfl, ?_⟩
    simp only [Adapter.expire, found, Adapter.settle, settlements_append, unsettled,
      settlements_settled, if_true]

/-- Along every run of an adapter whose steps meet the condition, a crashed or
stopped adapter is clean and stays so, a crash is reported at most once, and
every promise settles once. -/
theorem adapter_ends {options : AdapterOptions} {skills : Skills} (fresh : Unregistered skills)
    {history later : List AdapterEvent} {adapter last : Adapter}
    (runs : Runs (step options) (fun _ => Orderly options) (initial skills) history adapter)
    (further : Runs (step options) (fun _ => Orderly options) adapter later last) :
    adapter.state.Absorbs last.state ∧ Settled options (history ++ later) last := by
  have reached : Sound .spawning history adapter := (sound_initial fresh).run runs
  have since : Sound adapter.state history adapter :=
    ⟨reached.accounted, reached.owned, reached.clean, reached.crashes, ⟨id, .inl⟩⟩
  have sound := since.run further
  exact ⟨sound.absorbs, sound.result⟩

def plainOptions : AdapterOptions where
  pluginId := "p"
  manifest := ⟨"p", []⟩

def freshAdapter : Adapter :=
  .initial .empty

def crashNotice : AdapterAction :=
  .notification "sandbox:crash" none

/-- A sandbox that crashes while it starts, and is then killed. -/
theorem adapter_ends_killed : ∃ history later adapter last,
      Runs (step plainOptions) (fun _ => Orderly plainOptions) freshAdapter
        history adapter ∧ adapter.state = .crashed ∧ adapter.state.Absorbs last.state ∧
        Settled plainOptions (history ++ later) last := by
  have fresh : Unregistered empty := fun _ _ _ found => nomatch found
  have starts : Orderly plainOptions freshAdapter (.start (.ok .sent)) := trivial
  have started : Runs (step plainOptions) (fun _ => Orderly plainOptions) freshAdapter _ _ :=
    .tail .refl starts rfl
  have notices (adapter : Adapter) : Orderly plainOptions adapter crashNotice := trivial
  have crashed : Runs (step plainOptions) (fun _ => Orderly plainOptions) freshAdapter _ _ :=
    .tail started (notices _) rfl
  have kills (adapter : Adapter) : Orderly plainOptions adapter .kill := trivial
  obtain ⟨absorbs, settled⟩ := adapter_ends fresh crashed (.tail .refl (kills _) rfl)
  exact ⟨_, _, _, _, crashed, rfl, absorbs, settled⟩

/-- The child's request to register a skill without options. -/
def registerPlain : AdapterAction :=
  .childRequest "skill:register" (some (.object [("skill", .string "s")]))

/-- The child's answer to `initialize`. -/
def initializedResponse : AdapterAction :=
  .response 0 (.ok (.object [("initialized", .boolean true)]))

def hasSandboxedSkill (adapter : Adapter) : Bool :=
  match adapter.host.skills.get "p.s" with
  | some record => decide (record.handler = .sandboxed "s")
  | none => false

/-- A crash notice in one chunk behind the response to `initialize`: the start
goes on and the crashed adapter is running; its second crash is reported again.
A registration behind the crash notice: the crashed adapter has a skill in the
broker. -/
theorem adapter_revives : (∃ history before after outputs,
      Runs (step plainOptions) unrestricted freshAdapter history before ∧
      step plainOptions before (.resume 0 false) = some (after, outputs) ∧
      before.state = .crashed ∧ after.state = .running) ∧ (∃ history adapter,
      Runs (step plainOptions) unrestricted freshAdapter
        history adapter ∧ history.countP isCrash = 2) ∧ ∃ history adapter,
      Runs (step plainOptions) unrestricted freshAdapter
        history adapter ∧ adapter.state = .crashed ∧ hasSandboxedSkill adapter := by
  refine ⟨?_, ?_, ?_⟩
  · have executed : run (step plainOptions) freshAdapter
        [.start (.ok .sent), initializedResponse, crashNotice] = some (_, _) := rfl
    have admitted (action : AdapterAction) (_ : action ∈ [.start (.ok .sent),
        initializedResponse, crashNotice]) : (fun _ => True) action := trivial
    have runs := runs_of_run admitted executed
    exact ⟨_, _, _, _, runs, rfl, rfl, rfl⟩
  · obtain ⟨history, adapter, runs, passed⟩ :=
      exists_runs_of_any (step plainOptions) (fun _ => True) freshAdapter
        [.start (.ok .sent), initializedResponse, crashNotice, .resume 0 false, crashNotice]
        (fun last => decide (last.2.countP isCrash = 2)) (fun _ _ => trivial)
        (by decide +kernel)
    exact ⟨history, adapter, runs, of_decide_eq_true passed⟩
  · obtain ⟨history, adapter, runs, passed⟩ :=
      exists_runs_of_any (step plainOptions) (fun _ => True) freshAdapter
        [.start (.ok .sent), crashNotice, registerPlain]
        (fun last => decide (last.1.state = .crashed) && hasSandboxedSkill last.1)
        (fun _ _ => trivial) (by decide +kernel)
    rw [Bool.and_eq_true, decide_eq_true_eq] at passed
    exact ⟨history, adapter, runs, passed⟩

end P2PHub.Sandbox
