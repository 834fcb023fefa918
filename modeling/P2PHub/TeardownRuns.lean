import P2PHub.TeardownContainment

/-!
# Plugins come and go

Along every run of a host, a disposed context has nothing registered.  A step
costs another context a skill exactly if it touches a name that this context has
registered: an activation can go on after its bag was disposed, and the plugin can
have been activated again by then.
-/

namespace P2PHub.Lifecycle

open PluginHost Transition AsyncCalls.Pool

open Plugins (LoadedManifest)

section

abbrev HostPool := AsyncCalls.Pool PluginHost BootPhase
abbrev HostLabel := AsyncCalls.Label Request BootAnswer

/-- What a step does to the registrations. -/
inductive Turn
  | idle
  | calls (context : Nat) (call : PluginCall)
  | disposes (context : Nat)
  | fires (serial : Nat)

/-- The context whose activation a label ends without success. -/
def failing : Option BootPhase → BootAnswer → Option Nat
  | some (.activating _ _ context _ _), .activation .failed => some context
  | some (.activating _ _ context _ _), .activation .timedOut => some context
  | _, _ => none

def turn (pool : HostPool) : HostLabel → Turn
  | .launch .boot => .idle
  | .launch (.deactivate pluginId) => (pool.shared.disposers.get pluginId).elim .idle .disposes
  | .launch (.call context call) => .calls context call
  | .launch (.fire serial) => .fires serial
  | .resume index answer => (failing pool.calls[index]? answer).elim .idle .disposes

def Turn.acting (host : PluginHost) : Turn → Option Nat
  | .idle => none
  | .calls context _ => some context
  | .disposes context => some context
  | .fires serial => host.added[serial]?

def Turn.touched (host : PluginHost) : Turn → List String
  | .idle => []
  | .calls context call =>
    match host.contexts[context]? with
    | none => []
    | some loaded => Lifecycle.touched loaded.manifest loaded.bag.disposed call
  | .disposes context => host.disposeTouches context
  | .fires _ => []

def Clear (pool : HostPool) (label : HostLabel) : Prop :=
  ∀ skill ∈ (turn pool label).touched pool.shared, ∀ owned,
    pool.shared.skills.get skill = some owned →
      (turn pool label).acting pool.shared = some owned.context

/-- The hosts that agree on everything but the registries. -/
structure Alike (first second : PluginHost) : Prop where
  contexts : first.contexts = second.contexts
  resources : first.resources = second.resources
  skills : first.skills = second.skills
  added : first.added = second.added
  ran : first.ran = second.ran

/-- What a step leaves, up to the registries. -/
inductive Turned (before : PluginHost) : Turn → PluginHost → Prop
  | idle : Turned before .idle before
  | load (manifest : LoadedManifest) : Turned before .idle (before.load manifest)
  | calls {context : Nat} {call : PluginCall} {loaded : PluginContext}
      (found : before.contexts[context]? = some loaded) :
      Turned before (.calls context call) (perform context loaded.manifest call before)
  | noContext {context : Nat} {call : PluginCall} (missing : before.contexts[context]? = none) :
      Turned before (.calls context call) before
  | disposes (context : Nat) : Turned before (.disposes context) (before.dispose context)
  | fires (serial : Nat) : Turned before (.fires serial) (before.fire serial)

variable {options : HostOptions} {pool after : HostPool} {label : HostLabel}
  {outputs : List (Nat × Empty)}

theorem deactivate_turned (host : PluginHost) (pluginId : String) :
    ∃ middle, Turned host ((host.disposers.get pluginId).elim .idle .disposes) middle ∧
      Alike (host.deactivate pluginId) middle := by
  unfold deactivate
  cases host.disposers.get pluginId with
  | none => exact ⟨host, .idle, rfl, rfl, rfl, rfl, rfl⟩
  | some context => exact ⟨host.dispose context, .disposes context, rfl, rfl, rfl, rfl, rfl⟩

theorem certify_turned (options : HostOptions) (host : PluginHost) (name : String)
    (manifest : LoadedManifest) (signed certified : Bool) (reread : LoadedManifest)
    (rest : List String) : ∃ middle, Turned host .idle middle ∧
      Alike (host.certify options name manifest signed certified reread rest).1 middle := by
  unfold certify
  split
  · exact ⟨host, .idle, rfl, rfl, rfl, rfl, rfl⟩
  · exact ⟨host.load reread, .load reread, rfl, rfl, rfl, rfl, rfl⟩

theorem settleActivation_turned (host : PluginHost) (name : String) (context : Nat)
    (manifest : LoadedManifest) (signed : Bool) (rest : List String) (outcome : Activation) :
    ∃ middle, Turned host ((failing (some (.activating name manifest context signed rest))
          (.activation outcome)).elim .idle .disposes) middle ∧
      Alike (host.settleActivation name context manifest signed outcome) middle := by
  cases outcome with
  | resolved => exact ⟨host, .idle, rfl, rfl, rfl, rfl, rfl⟩
  | failed | timedOut => exact ⟨host.dispose context, .disposes context, rfl, rfl, rfl, rfl, rfl⟩

theorem launch_turned (host : PluginHost) (request : Request) (calls : List BootPhase) :
    ∃ middle, Turned host (turn ⟨host, calls⟩ (.launch request)) middle ∧
      Alike (launch host request).1 middle := by
  cases request with
  | boot => exact ⟨host, .idle, rfl, rfl, rfl, rfl, rfl⟩
  | deactivate pluginId => exact deactivate_turned host pluginId
  | call context call =>
    simp only [launch]
    cases found : host.contexts[context]? with
    | none => exact ⟨host, .noContext found, rfl, rfl, rfl, rfl, rfl⟩
    | some loaded => exact ⟨_, .calls found, rfl, rfl, rfl, rfl, rfl⟩
  | fire serial => exact ⟨_, .fires serial, rfl, rfl, rfl, rfl, rfl⟩

theorem resume_turned {host : PluginHost} {phase : BootPhase} {answer : BootAnswer}
    {result : PluginHost × BootPhase × List Empty}
    (resumed : resume options host phase answer = some result) :
    ∃ middle, Turned host ((failing (some phase) answer).elim .idle .disposes) middle ∧
      Alike result.1 middle := by
  unfold resume at resumed
  split at resumed <;> cases resumed
  · exact ⟨host, .idle, rfl, rfl, rfl, rfl, rfl⟩
  · exact ⟨host, .idle, rfl, rfl, rfl, rfl, rfl⟩
  · exact ⟨host, .idle, rfl, rfl, rfl, rfl, rfl⟩
  · exact ⟨host, .idle, rfl, rfl, rfl, rfl, rfl⟩
  · exact ⟨host, .idle, rfl, rfl, rfl, rfl, rfl⟩
  · exact ⟨host, .idle, rfl, rfl, rfl, rfl, rfl⟩
  · exact ⟨host, .idle, rfl, rfl, rfl, rfl, rfl⟩
  · exact certify_turned _ _ _ _ _ _ _ _
  · exact settleActivation_turned _ _ _ _ _ _ _

theorem step_turned (stepped : (hostProgram options).step pool label = some (after, outputs)) :
    ∃ middle, Turned pool.shared (turn pool label) middle ∧ Alike after.shared middle := by
  rcases AsyncCalls.Program.step_cases stepped with
    ⟨request, rfl, launched, _, _⟩ | ⟨request, phase, emitted, rfl, launched, _, _⟩ |
    ⟨index, answer, phase, next, emitted, rfl, found, resumed, _, _⟩
  · have turned := launch_turned pool.shared request pool.calls
    have result : launch pool.shared request = (after.shared, none) := launched
    rwa [result] at turned
  · have turned := launch_turned pool.shared request pool.calls
    have result : launch pool.shared request = (after.shared, some (phase, emitted)) := launched
    rwa [result] at turned
  · have result : resume options pool.shared phase answer = some (after.shared, next, emitted) :=
      resumed
    simp only [turn, found]
    exact resume_turned result

end

section

variable {before after : PluginHost} {does : Turn}

theorem Alike.items (alike : Alike after before) : after.items = before.items := by
  funext context
  unfold PluginHost.items
  rw [alike.contexts]

theorem Alike.sound (alike : Alike after before) (sound : Sound before) : Sound after where
  accounted := by
    rw [alike.items]
    refine sound.accounted.shrink ?_ ?_ alike.added alike.ran
    · rw [alike.resources]
      exact fun _ member => member
    · intro skill owned found
      rwa [← alike.skills]
  emptied context loaded found disposed := by
    rw [alike.contexts] at found
    exact sound.emptied context loaded found disposed

theorem items_load (host : PluginHost) (manifest : LoadedManifest) :
    (host.load manifest).items = host.items := by
  funext context
  unfold load items
  rcases Nat.lt_trichotomy context host.contexts.length with old | rfl | beyond
  · rw [List.getElem?_append_left old]
  · rw [List.getElem?_concat_length, List.getElem?_eq_none (Nat.le_refl _)]
    rfl
  · rw [List.getElem?_eq_none (by rw [List.length_append, List.length_singleton]; omega),
      List.getElem?_eq_none (by omega)]

theorem Sound.load (sound : Sound before) (manifest : LoadedManifest) :
    Sound (before.load manifest) where
  accounted := by
    rw [items_load]
    exact sound.accounted.shrink (fun _ member => member) (fun _ _ found => found) rfl rfl
  emptied context loaded found disposed := by
    unfold PluginHost.load at found
    by_cases old : context < before.contexts.length
    · rw [List.getElem?_append_left old] at found
      exact sound.emptied context loaded found disposed
    · rw [List.getElem?_append_right (by omega)] at found
      have new := List.mem_singleton.mp (List.mem_of_getElem? found)
      rw [new]

theorem Sound.fire (sound : Sound before) (serial : Nat) : Sound (before.fire serial) where
  accounted := sound.accounted.shrink (fun _ member => (List.mem_filter.mp member).1)
    (fun _ _ found => found) rfl rfl
  emptied := sound.emptied

theorem Turned.sound (turned : Turned before does after) (sound : Sound before) : Sound after := by
  cases turned with
  | idle | noContext => exact sound
  | load manifest => exact sound.load manifest
  | calls found => exact (perform_effects _ _ _ _).sound sound
  | disposes context => exact sound.dispose context
  | fires serial => exact sound.fire serial

/-- What a turn leaves of the registrations of the contexts that do not act. -/
structure Spares (before : PluginHost) (does : Turn) (after : PluginHost) : Prop where
  resources : ∀ resource ∈ before.resources, does.acting before ≠ some resource.context →
    resource ∈ after.resources
  outside : ∀ skill, skill ∉ does.touched before → after.skills.get skill = before.skills.get skill
  inside : ∀ skill ∈ does.touched before, ∀ owned, after.skills.get skill = some owned →
    does.acting before = some owned.context

theorem Contained.spares {context : Nat} {manifest : LoadedManifest} {names : List String}
    (contained : Contained context manifest before names after)
    (acting : does.acting before = some context) (touched : does.touched before = names) :
    Spares before does after where
  resources resource member foreign := by
    apply contained.resources resource member
    intro own
    rw [acting, own] at foreign
    exact foreign rfl
  outside skill absent := by
    rw [touched] at absent
    exact contained.outside skill absent
  inside skill member owned found := by
    rw [touched] at member
    rw [acting, contained.inside skill member owned found]

theorem Spares.of_skills
    (resources : ∀ resource ∈ before.resources, does.acting before ≠ some resource.context →
      resource ∈ after.resources)
    (skills : after.skills = before.skills) (touched : does.touched before = []) :
    Spares before does after where
  resources := resources
  outside _ _ := by rw [skills]
  inside skill member := by
    rw [touched] at member
    exact (List.not_mem_nil member).elim

theorem fire_spares (sound : Sound before) (serial : Nat) :
    Spares before (.fires serial) (before.fire serial) := by
  refine .of_skills (fun resource member foreign => ?_) rfl rfl
  unfold fire
  rw [List.mem_filter]
  refine ⟨member, ?_⟩
  have apart : resource.serial ≠ serial := by
    rintro rfl
    have issued := sound.accounted.added _ _ (sound.accounted.resources resource member)
    exact foreign issued
  cases resource.kind with
  | timeout ms => simpa using apart
  | _ => rfl

theorem Turned.spares (turned : Turned before does after) (sound : Sound before) :
    Spares before does after := by
  cases turned with
  | idle | load => exact .of_skills (fun _ member _ => member) rfl rfl
  | @calls context call loaded found =>
    have effects := perform_effects context loaded.manifest call before
    refine effects.contained.spares rfl ?_
    rw [isDisposed_of_found found]
    simp only [Turn.touched, found]
  | noContext missing =>
    refine .of_skills (fun _ member _ => member) rfl ?_
    simp only [Turn.touched, missing]
  | disposes context =>
    cases found : before.contexts[context]? with
    | none =>
      have flag : before.isDisposed context := by
        unfold isDisposed
        rw [found]
        rfl
      rw [dispose_of_disposed flag]
      exact .of_skills (fun _ member _ => member) rfl (disposeTouches_of_disposed flag)
    | some loaded => exact (dispose_contained found).spares rfl rfl
  | fires serial => exact fire_spares sound serial

end

section

variable {options : HostOptions} {pool after : HostPool} {label : HostLabel}
  {history : List (Nat × Empty)} {outputs : List (Nat × Empty)}

/-- What a context has registered is still there. -/
structure Keeps (context : Nat) (before after : PluginHost) : Prop where
  resources : ∀ resource ∈ before.resources, resource.context = context → resource ∈ after.resources
  skills : ∀ skill owned, before.skills.get skill = some owned → owned.context = context →
    after.skills.get skill = some owned

/-- Nothing that was registered through a disposed context remains, and no disposer
runs twice. -/
structure TornDown (host : PluginHost) : Prop where
  resources : ∀ resource ∈ host.resources, host.isDisposed resource.context = false
  skills : ∀ skill owned, host.skills.get skill = some owned → host.isDisposed owned.context = false
  atMostOnce : ∀ serial, host.ran.count serial ≤ 1
  exactlyOnce : ∀ serial context, host.added[serial]? = some context →
    host.isDisposed context = true → host.ran.count serial = 1

theorem Emptied.items {host : PluginHost} (emptied : Emptied host) {context : Nat}
    (disposed : host.isDisposed context) : host.items context = [] := by
  unfold PluginHost.items
  cases found : host.contexts[context]? with
  | none => rfl
  | some loaded =>
    rw [isDisposed_of_found found] at disposed
    exact emptied context loaded found disposed

theorem Sound.tornDown {host : PluginHost} (sound : Sound host) : TornDown host where
  resources resource member := by
    by_contra disposed
    have released := sound.accounted.resources resource member
    rw [sound.emptied.items (by simpa using disposed)] at released
    cases released
  skills skill owned found := by
    by_contra disposed
    obtain ⟨serial, released⟩ := sound.accounted.skills skill owned found
    rw [sound.emptied.items (by simpa using disposed)] at released
    cases released
  atMostOnce serial := List.nodup_iff_count_le_one.mp sound.accounted.once serial
  exactlyOnce serial context issued disposed := by
    apply List.count_eq_one_of_mem sound.accounted.once
    rw [sound.accounted.settled serial context issued, sound.emptied.items disposed]
    exact List.not_mem_nil

theorem Sound.start : Sound PluginHost.start where
  accounted := by
    refine ⟨fun _ member => ?_, fun _ _ found => ?_, fun _ _ _ member => ?_,
      fun _ _ member => ?_, fun _ => List.nodup_nil, fun _ member => ?_, List.nodup_nil,
      fun _ _ found => ?_⟩
    · cases member
    · cases found
    · cases member
    · cases member
    · cases member
    · cases found
  emptied context loaded found := by cases found

theorem run_sound {allowed : List (Nat × Empty) → HostPool → HostLabel → Prop}
    (run : Runs (hostProgram options).step allowed
      (initial start) history pool) : Sound pool.shared := by
  refine run.invariant (fun _ pool => Sound pool.shared) Sound.start ?_
  intro history before label after outputs sound _ stepped
  obtain ⟨middle, turned, alike⟩ := step_turned stepped
  exact alike.sound (turned.sound sound)

theorem step_spares (sound : Sound pool.shared)
    (stepped : (hostProgram options).step pool label = some (after, outputs)) :
    Spares pool.shared (turn pool label) after.shared := by
  obtain ⟨middle, turned, alike⟩ := step_turned stepped
  have spares := turned.spares sound
  refine ⟨?_, ?_, ?_⟩
  · rw [alike.resources]
    exact spares.resources
  · rw [alike.skills]
    exact spares.outside
  · rw [alike.skills]
    exact spares.inside

theorem Spares.keeps {before later : PluginHost} {does : Turn} (spares : Spares before does later)
    (clear : ∀ skill ∈ does.touched before, ∀ owned, before.skills.get skill = some owned →
      does.acting before = some owned.context)
    {context : Nat} (foreign : does.acting before ≠ some context) : Keeps context before later where
  resources resource member own := by
    apply spares.resources resource member
    rwa [own]
  skills skill owned found own := by
    rw [spares.outside skill]
    · exact found
    · intro member
      have acting := clear skill member owned found
      rw [own] at acting
      exact foreign acting

theorem step_keeps_iff (sound : Sound pool.shared)
    (stepped : (hostProgram options).step pool label = some (after, outputs)) :
    (∀ context, (turn pool label).acting pool.shared ≠ some context →
      Keeps context pool.shared after.shared) ↔ Clear pool label := by
  have spares := step_spares sound stepped
  constructor
  · intro keeps skill member owned found
    by_contra foreign
    have kept := (keeps owned.context foreign).skills skill owned found rfl
    exact foreign (spares.inside skill member owned kept)
  · intro clear context foreign
    exact spares.keeps clear foreign

theorem run_keeps (sound : Sound pool.shared) (context : Nat)
    (run : Runs (hostProgram options).step (fun _ pool label =>
        (turn pool label).acting pool.shared ≠ some context ∧ Clear pool label)
      pool history after) : Keeps context pool.shared after.shared := by
  have both : Sound after.shared ∧ Keeps context pool.shared after.shared := by
    refine run.invariant
      (fun _ later => Sound later.shared ∧ Keeps context pool.shared later.shared)
      ⟨sound, fun _ member _ => member, fun _ _ found _ => found⟩ ?_
    rintro history before label later outputs ⟨held, keeps⟩ ⟨foreign, clear⟩ stepped
    obtain ⟨middle, turned, alike⟩ := step_turned stepped
    have stays := (step_spares held stepped).keeps clear foreign
    refine ⟨alike.sound (turned.sound held), ?_, ?_⟩
    · intro resource member own
      exact stays.resources resource (keeps.resources resource member own) own
    · intro skill owned found own
      exact stays.skills skill owned (keeps.skills skill owned found own) own
  exact both.2

/-- Once a bag is disposed, nothing that was registered through its context remains,
whatever the plugin still calls, and every disposer has run once.  What another
context has registered stays in every run of clear steps of others, and a step
takes something from another context exactly if it is not clear. -/
theorem no_leak_after_teardown (run : Runs (hostProgram options).step unrestricted
      (initial start) history pool) : TornDown pool.shared ∧
      (∀ context later last, Runs (hostProgram options).step (fun _ pool label =>
            (turn pool label).acting pool.shared ≠ some context ∧ Clear pool label)
          pool later last → Keeps context pool.shared last.shared) ∧ ∀ label after outputs,
        (hostProgram options).step pool label = some (after, outputs) →
          ((∀ context, (turn pool label).acting pool.shared ≠ some context →
            Keeps context pool.shared after.shared) ↔ Clear pool label) := by
  have sound := run_sound run
  refine ⟨sound.tornDown, ?_, ?_⟩
  · exact fun context later last rest => run_keeps sound context rest
  · exact fun label after outputs stepped => step_keeps_iff sound stepped

end

def openOptions : HostOptions :=
  ⟨false, false⟩

def localSkill : Sandbox.RawOptions :=
  ⟨.undefined, .undefined, .undefined, .undefined, .undefined⟩

def sharedManifest : LoadedManifest where
  id := "p"
  permissions := []
  valid := Plugins.isPluginId_letter

/-- The first of two directories with one id takes too long, and the second one is
active, with a skill and a timer. -/
def secondActive : List HostLabel :=
  [.launch .boot, .resume 0 (.listed ["a", "b"]), .resume 0 .done,
    .resume 0 (.manifest sharedManifest true),
    .resume 0 (.certification true sharedManifest),
    .launch (.call 0 (.setInterval 5)),
    .resume 0 (.activation .timedOut),
    .resume 0 (.manifest sharedManifest true),
    .resume 0 (.certification true sharedManifest),
    .launch (.call 1 (.register "s" 0 localSkill)),
    .launch (.call 1 (.setInterval 5)),
    .resume 0 (.activation .resolved)]

/-- The first plugin goes on, and registers the skill as well. -/
def lateRegistration : HostLabel :=
  .launch (.call 0 (.register "s" 0 localSkill))

/-- The late step takes the skill of the second plugin, which is active. -/
def losesSkill (before after : PluginHost) : Bool :=
  before.activated.get "p" = some 1 && before.isDisposed 0 && !after.isDisposed 1 &&
    ((before.skills.get "p.s").any fun owned => owned.context = 1) &&
    (after.skills.get "p.s").isNone

theorem not_keeps_of_losesSkill {before after : PluginHost}
    (loses : losesSkill before after) : ¬Keeps 1 before after := by
  intro keeps
  simp only [losesSkill, Bool.and_eq_true, Option.any_eq_true, Option.isNone_iff_eq_none]
    at loses
  obtain ⟨⟨_, owned, found, own⟩, gone⟩ := loses
  have kept := keeps.skills "p.s" owned found (of_decide_eq_true own)
  rw [gone] at kept
  cases kept

theorem no_leak_after_teardown_timed_out :
    ∃ history pool, Runs (hostProgram openOptions).step unrestricted (initial start) history pool ∧
      pool.shared.isDisposed 0 ∧ pool.shared.added[0]? = some 0 ∧ TornDown pool.shared := by
  obtain ⟨history, pool, run, passed⟩ := exists_runs_of_any
    (hostProgram openOptions).step (fun _ => True) (initial start)
    secondActive (fun state => state.1.shared.isDisposed 0 && state.1.shared.added[0]? == some 0)
    (fun _ _ => trivial) (by decide +kernel)
  rw [Bool.and_eq_true, beq_iff_eq] at passed
  exact ⟨history, pool, run, passed.1, passed.2, (no_leak_after_teardown run).1⟩

theorem late_registration_removes : ∃ history pool after outputs,
      Runs (hostProgram openOptions).step unrestricted (initial start) history pool ∧
      (hostProgram openOptions).step pool lateRegistration = some (after, outputs) ∧
      pool.shared.activated.get "p" = some 1 ∧ pool.shared.isDisposed 0 ∧
      after.shared.isDisposed 1 = false ∧ ¬Keeps 1 pool.shared after.shared := by
  obtain ⟨history, pool, run, passed⟩ := exists_runs_of_any
    (hostProgram openOptions).step (fun _ => True) (initial start)
    secondActive
    (fun state => ((hostProgram openOptions).step state.1 lateRegistration).any fun stepped =>
      losesSkill state.1.shared stepped.1.shared) (fun _ _ => trivial) (by decide +kernel)
  obtain ⟨⟨after, outputs⟩, stepped, loses⟩ := Option.any_eq_true _ _ |>.mp passed
  have lost := not_keeps_of_losesSkill loses
  simp only [losesSkill, Bool.and_eq_true, decide_eq_true_eq, Bool.not_eq_true'] at loses
  exact ⟨history, pool, after, outputs, run, stepped, loses.1.1.1.1, loses.1.1.1.2, loses.1.1.2,
    lost⟩

end P2PHub.Lifecycle
