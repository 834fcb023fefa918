import P2PHub.TeardownRuns

/-!
# The registries of a host

How far the maps of a host agree: `deactivate` leaves the events alone, and `boot`
does not look for an id among the active ones.
-/

namespace P2PHub.Lifecycle

open PluginHost AsyncCalls.Pool OrderedMap Transition Registries

open Plugins (LoadedManifest)
open Sandbox (brokerKey)

section

variable {Value : Type*} {map : OrderedMap String Value} {ids : List String}

def Tracks (map : OrderedMap String Value) (ids : List String) : Prop :=
  ∀ id, (map.get id).isSome ↔ id ∈ ids

theorem Tracks.set (tracks : Tracks map ids) (id : String) (value : Value) :
    Tracks (map.set id value) (ids ++ [id]) := by
  intro other
  rw [get_set, List.mem_append, List.mem_singleton]
  by_cases same : other = id
  · simp [same]
  · rw [if_neg same, tracks other]
    simp [same]

theorem Tracks.delete (tracks : Tracks map ids) (distinct : ids.Nodup) (id : String) :
    Tracks (map.delete id) (ids.erase id) := by
  intro other
  rw [get_delete, distinct.mem_erase_iff]
  by_cases same : other = id
  · simp [same]
  · rw [if_neg same, tracks other]
    simp [same]

/-- The ids of `listPlugins`. -/
def Registries.active (registries : Registries) : List String :=
  registries.plugins.map fun plugin => plugin.id

/-- The registries name the same plugins, and the events of exactly these. -/
structure Registries.Consistent (registries : Registries) : Prop where
  distinct : registries.active.Nodup
  activated : Tracks registries.activated registries.active
  disposers : Tracks registries.disposers registries.active
  pluginDirs : Tracks registries.pluginDirs registries.active
  signatures : Tracks registries.signatures registries.active
  states : ∀ id, registries.states.get id = some .active ↔ id ∈ registries.active
  exposed : ∀ event, event ∈ registries.exposedEvents ↔
    ∃ plugin ∈ registries.plugins, event ∈ plugin.exposedEvents

variable {host : PluginHost}

theorem mem_addEvents {events added : List String} {event : String} :
    event ∈ addEvents events added ↔ event ∈ events ∨ event ∈ added := by
  unfold addEvents
  induction added generalizing events with
  | nil => simp
  | cons first added ih =>
    rw [List.foldl_cons, ih, List.mem_cons]
    by_cases present : first ∈ events
    · rw [if_pos present]
      constructor
      · rintro (old | new)
        · exact Or.inl old
        · exact Or.inr (Or.inr new)
      · rintro (old | rfl | new)
        · exact Or.inl old
        · exact Or.inl present
        · exact Or.inr new
    · rw [if_neg present, List.mem_append, List.mem_singleton, or_assoc]

theorem consistent_start : start.toRegistries.Consistent := by
  refine ⟨List.nodup_nil, ?_, ?_, ?_, ?_, ?_, ?_⟩
  all_goals intro id
  all_goals simp [start, active]

theorem Registries.Consistent.activate (consistent : host.toRegistries.Consistent)
    (name : String) (context : Nat) (manifest : LoadedManifest) (signed : Bool)
    (absent : manifest.id ∉ host.active) :
    (host.activate name context manifest signed).toRegistries.Consistent := by
  have longer : (host.activate name context manifest signed).active =
      host.active ++ [manifest.id] := by
    simp [PluginHost.activate, active]
  refine ⟨?_, ?_, ?_, ?_, ?_, ?_, ?_⟩
  all_goals try rw [longer]
  · apply List.Nodup.append consistent.distinct (List.nodup_singleton _)
    exact List.disjoint_singleton.mpr absent
  · exact consistent.activated.set manifest.id context
  · exact consistent.disposers.set manifest.id context
  · exact consistent.pluginDirs.set manifest.id name
  · exact consistent.signatures.set manifest.id signed
  · intro id
    have state := get_set host.states manifest.id id PluginState.active
    rw [List.mem_append, List.mem_singleton, ← consistent.states id]
    refine (Eq.congr_left state).trans ?_
    by_cases same : id = manifest.id <;> simp [same]
  · intro event
    refine mem_addEvents.trans ?_
    rw [consistent.exposed event]
    constructor
    · rintro (⟨plugin, member, exposes⟩ | exposes)
      · exact ⟨plugin, List.mem_append_left _ member, exposes⟩
      · exact ⟨manifest, List.mem_append_right _ (List.mem_singleton_self _), exposes⟩
    · rintro ⟨plugin, member, exposes⟩
      rcases List.mem_append.mp member with old | new
      · exact Or.inl ⟨plugin, old, exposes⟩
      · rw [List.mem_singleton.mp new] at exposes
        exact Or.inr exposes

theorem Registries.Consistent.setState (consistent : host.toRegistries.Consistent)
    {id : String} {state : PluginState} (absent : id ∉ host.active) (failed : state ≠ .active) :
    (host.setState id state).toRegistries.Consistent where
  distinct := consistent.distinct
  activated := consistent.activated
  disposers := consistent.disposers
  pluginDirs := consistent.pluginDirs
  signatures := consistent.signatures
  states other := by
    have noted := get_set host.states id other state
    have same : (host.setState id state).active = host.active := rfl
    rw [same, ← consistent.states other]
    refine (Eq.congr_left noted).trans ?_
    by_cases own : other = id
    · rw [own, if_pos rfl, consistent.states id]
      simp [failed, absent]
    · rw [if_neg own]
  exposed := consistent.exposed

theorem active_eraseP (plugins : List LoadedManifest) (id : String) :
    (plugins.eraseP fun plugin => plugin.id = id).map (fun plugin => plugin.id) =
      (plugins.map fun plugin => plugin.id).erase id := by
  rw [List.erase_eq_eraseP', List.eraseP_map]
  congr

theorem mem_eraseP_iff {plugins : List LoadedManifest}
    (distinct : (plugins.map fun plugin => plugin.id).Nodup) {id : String}
    {plugin : LoadedManifest} : plugin ∈ (plugins.eraseP fun plugin => plugin.id = id) ↔
      plugin ∈ plugins ∧ plugin.id ≠ id := by
  constructor
  · intro member
    have remains : plugin.id ∈
        (plugins.eraseP fun plugin => plugin.id = id).map fun plugin => plugin.id :=
      List.mem_map_of_mem member
    rw [active_eraseP, distinct.mem_erase_iff] at remains
    exact ⟨List.mem_of_mem_eraseP member, remains.1⟩
  · rintro ⟨member, apart⟩
    exact (List.mem_eraseP_of_neg (by simpa using apart)).mpr member

/-- What `deactivate` does to the registries. -/
def Registries.forget (registries : Registries) (id : String) : Registries :=
  { registries with
    disposers := registries.disposers.delete id
    activated := registries.activated.delete id
    states := registries.states.delete id
    signatures := registries.signatures.delete id
    certificationStatus := registries.certificationStatus.delete id
    pluginDirs := registries.pluginDirs.delete id
    plugins := registries.plugins.eraseP fun plugin => plugin.id = id }

theorem deactivate_registries (host : PluginHost) (id : String) :
    (host.deactivate id).toRegistries = host.toRegistries.forget id := by
  unfold deactivate
  cases host.disposers.get id with
  | none => rfl
  | some context =>
    change forget (host.dispose context).toRegistries id = _
    rw [(dispose_disposal host context).registries]

theorem Registries.Consistent.forget {registries : Registries}
    (consistent : registries.Consistent) (id : String)
    (shared : ∀ plugin ∈ registries.plugins, plugin.id = id → ∀ event ∈ plugin.exposedEvents,
      ∃ other ∈ registries.plugins, other.id ≠ id ∧ event ∈ other.exposedEvents) :
    (registries.forget id).Consistent := by
  have shorter : (registries.forget id).active = registries.active.erase id :=
    active_eraseP registries.plugins id
  refine ⟨?_, ?_, ?_, ?_, ?_, ?_, ?_⟩
  all_goals try rw [shorter]
  · exact consistent.distinct.erase id
  · exact consistent.activated.delete consistent.distinct id
  · exact consistent.disposers.delete consistent.distinct id
  · exact consistent.pluginDirs.delete consistent.distinct id
  · exact consistent.signatures.delete consistent.distinct id
  · intro other
    have state := get_delete registries.states id other
    rw [consistent.distinct.mem_erase_iff, ← consistent.states other]
    refine (Eq.congr_left state).trans ?_
    by_cases same : other = id <;> simp [same]
  · intro event
    refine (consistent.exposed event).trans ?_
    constructor
    · rintro ⟨plugin, member, exposes⟩
      by_cases goes : plugin.id = id
      · obtain ⟨other, present, apart, shown⟩ := shared plugin member goes event exposes
        exact ⟨other, (mem_eraseP_iff consistent.distinct).mpr ⟨present, apart⟩, shown⟩
      · exact ⟨plugin, (mem_eraseP_iff consistent.distinct).mpr ⟨member, goes⟩, exposes⟩
    · rintro ⟨plugin, member, exposes⟩
      exact ⟨plugin, ((mem_eraseP_iff consistent.distinct).mp member).1, exposes⟩

end

section

variable {before after : PluginHost} {context : Nat} {manifest : LoadedManifest}

/-- The manifests of the contexts, and which bags are disposed. -/
def PluginHost.outline (host : PluginHost) : List (LoadedManifest × Bool) :=
  host.contexts.map fun loaded => (loaded.manifest, loaded.bag.disposed)

theorem getElem?_outline (host : PluginHost) (context : Nat) : host.outline[context]? =
      (host.contexts[context]?).map fun loaded => (loaded.manifest, loaded.bag.disposed) :=
  List.getElem?_map

theorem Framed.outline (framed : Framed context before after) : after.outline = before.outline := by
  apply List.ext_getElem?
  intro other
  rw [getElem?_outline, getElem?_outline]
  by_cases same : other = context
  · rw [same]
    exact framed.own
  · rw [framed.others other same]

theorem Disposal.outline_self (disposal : Disposal context before after) {disposed : Bool}
    (found : before.outline[context]? = some (manifest, disposed)) :
    after.outline[context]? = some (manifest, true) := by
  have own := disposal.own
  have flag := disposal.disposed
  rw [getElem?_outline, Option.map_eq_some_iff] at found
  obtain ⟨loaded, located, same⟩ := found
  obtain ⟨isManifest, _⟩ := Prod.mk.inj same
  rw [located, Option.map_some, Option.map_eq_some_iff] at own
  obtain ⟨later, laterFound, kept⟩ := own
  rw [isDisposed_of_found laterFound] at flag
  rw [getElem?_outline, laterFound, Option.map_some, kept, flag, isManifest]

theorem Disposal.outline_of_ne (disposal : Disposal context before after) {other : Nat}
    (apart : other ≠ context) : after.outline[other]? = before.outline[other]? := by
  rw [getElem?_outline, getElem?_outline, disposal.others other apart]

theorem outline_load (host : PluginHost) (manifest : LoadedManifest) :
    (host.load manifest).outline = host.outline ++ [(manifest, false)] := by
  simp [load, outline]

/-- Every skill has the name of the plugin of its context, every activation that is
under way has a context of its plugin, and a context that is not disposed can be
disposed of by the id of its plugin, or is being activated. -/
structure Attended (host : PluginHost) (calls : List BootPhase) : Prop where
  owned : ∀ skill owned, host.skills.get skill = some owned →
    ∃ (manifest : LoadedManifest) (disposed : Bool) (skillName : String),
      host.outline[owned.context]? = some (manifest, disposed) ∧
        skill = brokerKey manifest.id skillName
  phases : ∀ name (manifest : LoadedManifest) (context : Nat) signed rest,
    .activating name manifest context signed rest ∈ calls →
      ∃ (loaded : LoadedManifest) (disposed : Bool),
        host.outline[context]? = some (loaded, disposed) ∧ loaded.id = manifest.id
  attended : ∀ (context : Nat) (manifest : LoadedManifest),
    host.outline[context]? = some (manifest, false) →
      host.disposers.get manifest.id = some context ∨
        ∃ name booted signed rest, .activating name booted context signed rest ∈ calls

variable {host : PluginHost} {calls : List BootPhase} {index : Nat} {phase next : BootPhase}

theorem Attended.start : Attended start [] where
  owned _ _ found := by cases found
  phases _ _ _ _ _ member := by cases member
  attended _ _ found := by cases found

theorem Attended.of_outline (attended : Attended before calls)
    (outline : after.outline = before.outline) (disposers : after.disposers = before.disposers)
    (skills : ∀ skill owned, after.skills.get skill = some owned →
      before.skills.get skill = some owned ∨ ∃ (manifest : LoadedManifest) (disposed : Bool)
        (skillName : String), before.outline[owned.context]? = some (manifest, disposed) ∧
          skill = brokerKey manifest.id skillName) : Attended after calls where
  owned skill owned found := by
    rw [outline]
    rcases skills skill owned found with old | new
    · exact attended.owned skill owned old
    · exact new
  phases name manifest context signed rest member := by
    rw [outline]
    exact attended.phases name manifest context signed rest member
  attended context manifest found := by
    rw [outline] at found
    rw [disposers]
    exact attended.attended context manifest found

section

variable (attended : Attended host calls)
include attended

theorem Attended.perform {loaded : PluginContext}
    (found : host.contexts[context]? = some loaded) (call : PluginCall) :
    Attended (perform context loaded.manifest call host) calls := by
  have effects := perform_effects context loaded.manifest call host
  have registries := effects.framed.registries
  refine attended.of_outline effects.framed.outline (congrArg disposers registries) ?_
  intro skill owned located
  rcases effects.contained.origin skill owned located with old | ⟨own, skillName, named⟩
  · exact Or.inl old
  · refine Or.inr ⟨loaded.manifest, loaded.bag.disposed, skillName, ?_, named⟩
    rw [own, getElem?_outline, found]
    rfl

theorem Attended.dispose (context : Nat) : Attended (host.dispose context) calls := by
  cases found : host.contexts[context]? with
  | none =>
    have flag : host.isDisposed context := by
      unfold isDisposed
      rw [found]
      rfl
    rwa [dispose_of_disposed flag]
  | some loaded =>
    have disposal := dispose_disposal host context
    have located : host.outline[context]? = some (loaded.manifest, loaded.bag.disposed) := by
      rw [getElem?_outline, found]
      rfl
    have kept : ∀ (other : Nat) (manifest : LoadedManifest) (disposed : Bool),
        host.outline[other]? = some (manifest, disposed) →
          ∃ later, (host.dispose context).outline[other]? = some (manifest, later) := by
      intro other manifest disposed present
      by_cases same : other = context
      · subst other
        exact ⟨true, disposal.outline_self present⟩
      · exact ⟨disposed, by rwa [disposal.outline_of_ne same]⟩
    refine ⟨?_, ?_, ?_⟩
    · intro skill owned remains
      rcases (dispose_contained found).origin skill owned remains with
        old | ⟨own, skillName, named⟩
      · obtain ⟨manifest, disposed, skillName, present, named⟩ :=
          attended.owned skill owned old
        obtain ⟨later, stays⟩ := kept _ _ _ present
        exact ⟨manifest, later, skillName, stays, named⟩
      · rw [own]
        exact ⟨loaded.manifest, true, skillName, disposal.outline_self located, named⟩
    · intro name manifest other signed rest member
      obtain ⟨theirs, disposed, present, same⟩ :=
        attended.phases name manifest other signed rest member
      obtain ⟨later, stays⟩ := kept _ _ _ present
      exact ⟨theirs, later, stays, same⟩
    · intro other manifest present
      by_cases same : other = context
      · subst other
        rw [disposal.outline_self located] at present
        cases (Prod.mk.inj (Option.some.inj present)).2
      · rw [disposal.outline_of_ne same] at present
        rw [congrArg disposers disposal.registries]
        exact attended.attended other manifest present

theorem Attended.forget (id : String)
    (gone : ∀ (context : Nat) (manifest : LoadedManifest), host.disposers.get id = some context →
        host.outline[context]? ≠ some (manifest, false))
    (outline : after.outline = host.outline) (skills : after.skills = host.skills)
    (disposers : after.disposers = host.disposers.delete id) : Attended after calls where
  owned skill owned found := by
    rw [skills] at found
    rw [outline]
    exact attended.owned skill owned found
  phases name manifest context signed rest member := by
    rw [outline]
    exact attended.phases name manifest context signed rest member
  attended context manifest found := by
    rw [outline] at found
    rw [disposers]
    rcases attended.attended context manifest found with present | activating
    · left
      rw [get_delete_of_ne]
      · exact present
      · rintro rfl
        exact gone context manifest present found
    · exact Or.inr activating

end

theorem mem_set_of_ne (found : calls[index]? = some phase) {other : BootPhase}
    (member : other ∈ calls) (apart : other ≠ phase) : other ∈ calls.set index next := by
  obtain ⟨position, located⟩ := List.mem_iff_getElem?.mp member
  have elsewhere : index ≠ position := by
    rintro rfl
    rw [found] at located
    exact apart (Option.some.inj located).symm
  apply List.mem_of_getElem?
  rw [List.getElem?_set_ne elsewhere]
  exact located

variable (attended : Attended host calls)
include attended

/-- A boot goes on without a new activation, and the one that it was waiting for, if
any, has its disposers registered or is disposed. -/
theorem Attended.advance (found : calls[index]? = some phase)
    (plain : ∀ name manifest context signed rest,
      next ≠ .activating name manifest context signed rest)
    (settled : ∀ name booted (context : Nat) signed rest,
      phase = .activating name booted context signed rest → ∀ manifest : LoadedManifest,
        host.outline[context]? = some (manifest, false) →
          host.disposers.get manifest.id = some context) :
    Attended host (calls.set index next) where
  owned := attended.owned
  phases name manifest context signed rest member := by
    rcases List.mem_or_eq_of_mem_set member with old | new
    · exact attended.phases name manifest context signed rest old
    · exact (plain name manifest context signed rest new.symm).elim
  attended context manifest located := by
    rcases attended.attended context manifest located with present | activating
    · exact Or.inl present
    · obtain ⟨name, booted, signed, rest, member⟩ := activating
      by_cases same : BootPhase.activating name booted context signed rest = phase
      · exact Or.inl (settled name booted context signed rest same.symm manifest located)
      · exact Or.inr ⟨name, booted, signed, rest, mem_set_of_ne found member same⟩

theorem Attended.load (found : calls[index]? = some phase)
    (waiting : ∀ name manifest context signed rest,
      phase ≠ .activating name manifest context signed rest) (name : String)
    {reread : LoadedManifest} (sameId : reread.id = manifest.id) (signed : Bool)
    (rest : List String) : Attended (host.load reread)
      (calls.set index (.activating name manifest host.contexts.length signed rest)) := by
  have size : host.outline.length = host.contexts.length := List.length_map _
  have kept : ∀ (other : Nat) (entry : LoadedManifest × Bool),
      host.outline[other]? = some entry → (host.load reread).outline[other]? = some entry := by
    intro other entry present
    rw [outline_load, List.getElem?_append_left (List.getElem?_eq_some_iff.mp present).1]
    exact present
  refine ⟨?_, ?_, ?_⟩
  · intro skill owned located
    obtain ⟨theirs, disposed, skillName, present, named⟩ := attended.owned skill owned located
    exact ⟨theirs, disposed, skillName, kept _ _ present, named⟩
  · intro other booted context signed rest member
    rcases List.mem_or_eq_of_mem_set member with old | new
    · obtain ⟨theirs, disposed, present, same⟩ :=
        attended.phases other booted context signed rest old
      exact ⟨theirs, disposed, kept _ _ present, same⟩
    · injection new with _ isManifest isContext
      refine ⟨reread, false, ?_, ?_⟩
      · rw [isContext, outline_load, ← size, List.getElem?_concat_length]
      · rw [sameId, isManifest]
  · intro context theirs present
    rw [outline_load] at present
    by_cases old : context < host.outline.length
    · rw [List.getElem?_append_left old] at present
      rcases attended.attended context theirs present with registered | activating
      · exact Or.inl registered
      · obtain ⟨other, booted, signed, rest, member⟩ := activating
        exact Or.inr ⟨other, booted, signed, rest,
          mem_set_of_ne found member fun same => waiting _ _ _ _ _ same.symm⟩
    · have bound := (List.getElem?_eq_some_iff.mp present).1
      rw [List.length_append, List.length_singleton] at bound
      have last : context = host.contexts.length := by omega
      right
      rw [last]
      refine ⟨name, manifest, signed, rest, List.mem_set ?_ _⟩
      exact (List.getElem?_eq_some_iff.mp found).1

theorem Attended.register {id : String}
    (absent : host.disposers.get id = none) (outline : after.outline = host.outline)
    (skills : after.skills = host.skills)
    (disposers : after.disposers = host.disposers.set id context) : Attended after calls where
  owned skill owned found := by
    rw [skills] at found
    rw [outline]
    exact attended.owned skill owned found
  phases name manifest other signed rest member := by
    rw [outline]
    exact attended.phases name manifest other signed rest member
  attended other manifest found := by
    rw [outline] at found
    rw [disposers]
    rcases attended.attended other manifest found with present | activating
    · left
      rw [get_set_of_ne]
      · exact present
      · rintro rfl
        rw [absent] at present
        cases present
    · exact Or.inr activating

end

section

variable {options : HostOptions} {host : PluginHost} {calls : List BootPhase} {index : Nat}
  {phase : BootPhase} {answer : BootAnswer} {pool : HostPool} {history : List (Nat × Empty)}
  {state : PluginState} {name : String} {manifest : LoadedManifest} {signed : Bool}
  {rest : List String} {context : Nat}

/-- No plugin takes the id of an active one, and the manifest of a plugin keeps its id
from the one read to the other. -/
def answerPermitted (options : HostOptions) (host : PluginHost) :
    Option BootPhase → BootAnswer → Bool
  | some (.certifying _ manifest _ _), .certification certified reread =>
    if options.requireCertifiedPlugins && !certified then manifest.id ∉ host.active
    else reread.id = manifest.id
  | some (.activating _ manifest _ _ _), .activation _ => manifest.id ∉ host.active
  | _, _ => true

/-- The events of the plugin that is deactivated are exposed by others as well. -/
def Permitted (options : HostOptions) (pool : HostPool) : HostLabel → Prop
  | .launch (.deactivate pluginId) => ∀ plugin ∈ pool.shared.plugins, plugin.id = pluginId →
      ∀ event ∈ plugin.exposedEvents,
        ∃ other ∈ pool.shared.plugins, other.id ≠ pluginId ∧ event ∈ other.exposedEvents
  | .launch .boot | .launch (.call _ _) | .launch (.fire _) => True
  | .resume index answer => answerPermitted options pool.shared pool.calls[index]? answer = true

instance decidablePermitted (options : HostOptions) (pool : HostPool) :
    (label : HostLabel) → Decidable (Permitted options pool label)
  | .launch (.deactivate pluginId) =>
    inferInstanceAs (Decidable (∀ plugin ∈ pool.shared.plugins, plugin.id = pluginId →
      ∀ event ∈ plugin.exposedEvents,
        ∃ other ∈ pool.shared.plugins, other.id ≠ pluginId ∧ event ∈ other.exposedEvents))
  | .launch .boot | .launch (.call _ _) | .launch (.fire _) => .isTrue trivial
  | .resume index answer =>
    inferInstanceAs
      (Decidable (answerPermitted options pool.shared pool.calls[index]? answer = true))

/-- What holds between the steps of a host. -/
structure Registered (host : PluginHost) (calls : List BootPhase) : Prop where
  consistent : host.toRegistries.Consistent
  attended : Attended host calls

theorem nextDirectory_plain (names : List String) (name : String) (manifest : LoadedManifest)
    (context : Nat) (signed : Bool) (rest : List String) :
    nextDirectory names ≠ .activating name manifest context signed rest := by
  cases names with
  | nil | cons => exact nofun

section

variable (registered : Registered host calls)
include registered

theorem Registered.goOn {next : BootPhase}
    (found : calls[index]? = some phase) (plain : ∀ name manifest context signed rest,
      next ≠ .activating name manifest context signed rest)
    (waiting : ∀ name manifest context signed rest,
      phase ≠ .activating name manifest context signed rest) :
    Registered host (calls.set index next) where
  consistent := registered.consistent
  attended := registered.attended.advance found plain fun _ _ _ _ _ same =>
    (waiting _ _ _ _ _ same).elim

theorem Registered.setState {id : String} (absent : id ∉ host.active) (failed : state ≠ .active) :
    Registered (host.setState id state) calls where
  consistent := registered.consistent.setState absent failed
  attended := registered.attended.of_outline rfl rfl fun _ _ found => Or.inl found

theorem Registered.certify {reread : LoadedManifest} {certified : Bool}
    (found : calls[index]? = some (.certifying name manifest signed rest))
    (permitted : answerPermitted options host calls[index]?
      (.certification certified reread)) :
    Registered (host.certify options name manifest signed certified reread rest).1
      (calls.set index (host.certify options name manifest signed certified reread rest).2) := by
  rw [found] at permitted
  unfold answerPermitted at permitted
  unfold PluginHost.certify
  dsimp only at permitted ⊢
  have judged : Registered { host with
      certificationStatus := host.certificationStatus.set manifest.id certified } calls :=
    ⟨⟨registered.consistent.distinct, registered.consistent.activated,
      registered.consistent.disposers, registered.consistent.pluginDirs,
      registered.consistent.signatures, registered.consistent.states,
      registered.consistent.exposed⟩,
      registered.attended.of_outline rfl rfl fun _ _ found => Or.inl found⟩
  split
  · next refused =>
      rw [if_pos refused, decide_eq_true_eq] at permitted
      have apart : PluginState.failedActivation ≠ .active := nofun
      exact (judged.setState permitted apart).goOn found (nextDirectory_plain rest) nofun
  · next accepted =>
      rw [if_neg accepted, decide_eq_true_eq] at permitted
      exact ⟨judged.consistent, judged.attended.load found nofun name permitted signed rest⟩

end

theorem Disposal.not_live {before after : PluginHost}
    (disposal : Disposal context before after) (manifest : LoadedManifest) :
    after.outline[context]? ≠ some (manifest, false) := by
  intro present
  rw [getElem?_outline, Option.map_eq_some_iff] at present
  obtain ⟨loaded, located, same⟩ := present
  have flag := disposal.disposed
  rw [isDisposed_of_found located, (Prod.mk.inj same).2] at flag
  cases flag

section

variable (registered : Registered host calls)
include registered

theorem Registered.dispose (context : Nat) : Registered (host.dispose context) calls where
  consistent := by
    rw [(dispose_disposal host context).registries]
    exact registered.consistent
  attended := registered.attended.dispose context

theorem Registered.failActivation
    (found : calls[index]? = some (.activating name manifest context signed rest))
    (absent : manifest.id ∉ host.active) (failed : state ≠ .active) :
    Registered (host.failActivation context manifest state)
      (calls.set index (nextDirectory rest)) := by
  have disposal := dispose_disposal host context
  have stillAbsent : manifest.id ∉ (host.dispose context).active := by
    rwa [disposal.registries]
  have noted := (registered.dispose context).setState stillAbsent failed
  refine ⟨noted.consistent, noted.attended.advance found (nextDirectory_plain rest) ?_⟩
  intro _ _ other _ _ same theirs present
  injection same with _ _ isContext
  rw [← isContext] at present
  exact (disposal.not_live theirs present).elim

theorem Registered.activate
    (found : calls[index]? = some (.activating name manifest context signed rest))
    (absent : manifest.id ∉ host.active) : Registered (host.activate name context manifest signed)
      (calls.set index (nextDirectory rest)) := by
  have unregistered : host.disposers.get manifest.id = none := by
    rw [← Option.not_isSome_iff_eq_none, registered.consistent.disposers manifest.id]
    exact absent
  have entered : Attended (host.activate name context manifest signed) calls :=
    registered.attended.register unregistered rfl rfl rfl
  refine ⟨registered.consistent.activate name context manifest signed absent,
    entered.advance found (nextDirectory_plain rest) ?_⟩
  intro _ _ other _ _ same theirs present
  injection same with _ _ isContext
  obtain ⟨loaded, disposed, located, sameId⟩ :=
    registered.attended.phases name manifest context signed rest (List.mem_of_getElem? found)
  rw [← isContext] at present ⊢
  have isLoaded := (Option.some.inj (located.symm.trans present))
  rw [← (Prod.mk.inj isLoaded).1, sameId]
  exact get_set_self _ _ _

theorem Registered.deactivate (pluginId : String)
    (permitted : Permitted options ⟨host, calls⟩ (.launch (.deactivate pluginId))) :
    Registered (host.deactivate pluginId) calls := by
  refine ⟨?_, ?_⟩
  · rw [deactivate_registries]
    exact registered.consistent.forget pluginId permitted
  · unfold PluginHost.deactivate
    cases found : host.disposers.get pluginId with
    | none =>
      refine registered.attended.forget pluginId (fun context _ present => ?_) rfl rfl rfl
      rw [found] at present
      cases present
    | some context =>
      have disposal := dispose_disposal host context
      refine (registered.attended.dispose context).forget pluginId ?_ rfl rfl rfl
      intro other manifest present
      rw [congrArg disposers disposal.registries, found] at present
      rw [← Option.some.inj present]
      exact disposal.not_live manifest

theorem Registered.boot : Registered host (calls ++ [.listing]) where
  consistent := registered.consistent
  attended := by
    refine ⟨registered.attended.owned, ?_, ?_⟩
    · intro name manifest context signed rest member
      rcases List.mem_append.mp member with old | new
      · exact registered.attended.phases name manifest context signed rest old
      · cases List.mem_singleton.mp new
    · intro context manifest present
      rcases registered.attended.attended context manifest present with registered | activating
      · exact Or.inl registered
      · obtain ⟨name, booted, signed, rest, member⟩ := activating
        exact Or.inr ⟨name, booted, signed, rest, List.mem_append_left _ member⟩

theorem resume_registered (found : calls[index]? = some phase)
    (permitted : answerPermitted options host calls[index]? answer)
    {result : PluginHost × BootPhase × List Empty}
    (resumed : resume options host phase answer = some result) :
    Registered result.1 (calls.set index result.2.1) := by
  unfold resume at resumed
  split at resumed <;> cases resumed
  · exact registered.goOn found nofun nofun
  · exact registered.goOn found nofun nofun
  · exact registered.goOn found nofun nofun
  · exact registered.goOn found (nextDirectory_plain _) nofun
  · exact registered.goOn found (nextDirectory_plain _) nofun
  · refine registered.goOn found ?_ nofun
    intro name manifest context signed rest
    split
    · exact nextDirectory_plain _ _ _ _ _ _
    · exact nofun
  · exact registered.goOn found nofun nofun
  · exact registered.certify found permitted
  · next outcome =>
      rw [found] at permitted
      have absent := of_decide_eq_true permitted
      cases outcome with
      | resolved => exact registered.activate found absent
      | failed | timedOut => exact registered.failActivation found absent nofun

end

theorem step_registered {after : HostPool} {label : HostLabel} {outputs : List (Nat × Empty)}
    (registered : Registered pool.shared pool.calls) (permitted : Permitted options pool label)
    (stepped : (hostProgram options).step pool label = some (after, outputs)) :
    Registered after.shared after.calls := by
  rcases AsyncCalls.Program.step_cases stepped with
    ⟨request, rfl, launched, callsEq, _⟩ | ⟨request, phase, emitted, rfl, launched, callsEq, _⟩ |
    ⟨index, answer, phase, next, emitted, rfl, found, resumed, callsEq, _⟩
  · have result : launch pool.shared request = (after.shared, none) := launched
    rw [callsEq]
    cases request with
    | boot => cases (Prod.mk.inj result).2
    | deactivate pluginId =>
      rw [← (Prod.mk.inj result).1]
      exact registered.deactivate pluginId permitted
    | call context call =>
      unfold launch at result
      dsimp only at result
      split at result
      · next loaded located =>
          rw [← (Prod.mk.inj result).1]
          refine ⟨?_, registered.attended.perform located call⟩
          rw [(perform_effects context loaded.manifest call pool.shared).framed.registries]
          exact registered.consistent
      · rwa [← (Prod.mk.inj result).1]
    | fire =>
      rw [← (Prod.mk.inj result).1]
      exact ⟨registered.consistent,
        registered.attended.of_outline rfl rfl fun _ _ found => Or.inl found⟩
  · have result : launch pool.shared request = (after.shared, some (phase, emitted)) := launched
    rw [callsEq]
    cases request with
    | boot =>
      obtain ⟨shared, left⟩ := Prod.mk.inj result
      rw [← shared, ← (Prod.mk.inj (Option.some.inj left)).1]
      exact registered.boot
    | deactivate | fire => cases (Prod.mk.inj result).2
    | call =>
      unfold launch at result
      dsimp only at result
      split at result
      · cases (Prod.mk.inj result).2
      · cases (Prod.mk.inj result).2
  · have result : resume options pool.shared phase answer = some (after.shared, next, emitted) :=
      resumed
    rw [callsEq]
    exact resume_registered registered found permitted result

theorem run_registered (run : Runs (hostProgram options).step (fun _ => Permitted options)
      (initial start) history pool) : Registered pool.shared pool.calls := by
  refine run.invariant (fun _ pool => Registered pool.shared pool.calls)
    ⟨consistent_start, Attended.start⟩ ?_
  exact fun _ _ _ _ _ registered permitted stepped =>
    step_registered registered permitted stepped

/-- In every run in which no plugin takes an active id and none takes the last
exposure of an event along, the registries of the host agree after every step, and
every skill has the name of an active plugin, or of one that is being activated. -/
theorem registries_consistent (run : Runs (hostProgram options).step (fun _ => Permitted options)
      (initial start) history pool) :
    pool.shared.toRegistries.Consistent ∧ ∀ skill owned, pool.shared.skills.get skill = some owned →
        (∃ plugin ∈ pool.shared.plugins, ∃ skillName, skill = brokerKey plugin.id skillName) ∨
        ∃ name manifest signed rest skillName,
          .activating name manifest owned.context signed rest ∈ pool.calls ∧
            skill = brokerKey manifest.id skillName := by
  have registered := run_registered run
  have tornDown := (run_sound run).tornDown
  refine ⟨registered.consistent, fun skill owned found => ?_⟩
  obtain ⟨manifest, disposed, skillName, located, named⟩ :=
    registered.attended.owned skill owned found
  have live : disposed = false := by
    rw [getElem?_outline, Option.map_eq_some_iff] at located
    obtain ⟨loaded, present, same⟩ := located
    have held := tornDown.skills skill owned found
    rw [isDisposed_of_found present] at held
    rw [← (Prod.mk.inj same).2, held]
  rw [live] at located
  rcases registered.attended.attended owned.context manifest located with present | activating
  · left
    have isActive : manifest.id ∈ pool.shared.active := by
      rw [← registered.consistent.disposers manifest.id, present]
      rfl
    obtain ⟨plugin, member, sameId⟩ := List.mem_map.mp isActive
    refine ⟨plugin, member, skillName, ?_⟩
    rw [named, sameId]
  · right
    obtain ⟨name, booted, signed, rest, member⟩ := activating
    obtain ⟨theirs, _, present, sameId⟩ :=
      registered.attended.phases name booted owned.context signed rest member
    rw [located] at present
    refine ⟨name, booted, signed, rest, skillName, member, ?_⟩
    rw [named, (Prod.mk.inj (Option.some.inj present)).1, sameId]

end

def announcing : LoadedManifest where
  id := "p"
  permissions := []
  exposedEvents := ["p:e"]
  valid := Plugins.isPluginId_letter

/-- A plugin that exposes an event is active, with a skill. -/
def oneActive : List HostLabel :=
  [.launch .boot, .resume 0 (.listed ["a"]), .resume 0 .done,
    .resume 0 (.manifest announcing true), .resume 0 (.certification true announcing),
    .launch (.call 0 (.register "s" 0 localSkill)), .resume 0 (.activation .resolved)]

theorem registries_consistent_active :
    ∃ history pool, Runs (hostProgram openOptions).step (fun _ => Permitted openOptions)
        (initial start) history pool ∧
      pool.shared.active = ["p"] ∧ (pool.shared.skills.get "p.s").isSome ∧
      pool.shared.toRegistries.Consistent := by
  obtain ⟨history, pool, run, passed⟩ := exists_runs_of_runWhile
    (hostProgram openOptions).step (fun _ pool label => decide (Permitted openOptions pool label))
    (fun _ => Permitted openOptions) (initial start) oneActive
    (fun state => decide (state.1.shared.active = ["p"]) &&
      (state.1.shared.skills.get "p.s").isSome)
    (fun _ _ _ => of_decide_eq_true) (by decide +kernel)
  rw [Bool.and_eq_true, decide_eq_true_eq] at passed
  exact ⟨history, pool, run, passed.1, passed.2, (registries_consistent run).1⟩

/-- The plugin is deactivated, and its event stays. -/
theorem exposed_event_left : ∃ history pool, Runs (hostProgram openOptions).step unrestricted
        (initial start) history pool ∧
      pool.shared.plugins = [] ∧ "p:e" ∈ pool.shared.exposedEvents ∧
      ¬pool.shared.toRegistries.Consistent := by
  obtain ⟨history, pool, run, passed⟩ := exists_runs_of_any
    (hostProgram openOptions).step (fun _ => True) (initial start)
    (oneActive ++ [.launch (.deactivate "p")])
    (fun state => state.1.shared.plugins.isEmpty && decide ("p:e" ∈ state.1.shared.exposedEvents))
    (fun _ _ => trivial) (by decide +kernel)
  rw [Bool.and_eq_true, List.isEmpty_iff, decide_eq_true_eq] at passed
  refine ⟨history, pool, run, passed.1, passed.2, fun consistent => ?_⟩
  obtain ⟨plugin, member, _⟩ := (consistent.exposed "p:e").mp passed.2
  rw [passed.1] at member
  cases member

end P2PHub.Lifecycle
