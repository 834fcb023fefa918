import P2PHub.PluginLifecycle

/-!
# The teardown of plugins

Whatever a plugin registers through its context has its disposer in the bag of
the context until the bag is disposed, and every disposer runs once.  A skill is
disposed of by its name, which a later activation of the same plugin can have
registered again.
-/

namespace P2PHub.Lifecycle

open PluginHost OrderedMap

open Plugins (LoadedManifest)
open Sandbox (RawOptions RawSkillRecord brokerKey)

section

/-- The disposers that are still to run, by their contexts. -/
abbrev Pending := Nat → List (Nat × Disposer)

def PluginHost.items (host : PluginHost) (context : Nat) : List (Nat × Disposer) :=
  (host.contexts[context]?).elim [] fun loaded => loaded.bag.disposers

/-- Those of a context whose bag is being disposed, and those in the bags. -/
def PluginHost.pending (host : PluginHost) (context : Nat) (rest : List (Nat × Disposer)) :
    Pending :=
  fun other => (if other = context then rest else []) ++ host.items other

variable {serial : Nat} {disposer : Disposer}

theorem pending_nil (host : PluginHost) (context : Nat) : host.pending context [] = host.items := by
  funext other
  simp [pending]

/-- Everything that is registered has a disposer that is still to run, and every
disposer that was added is still to run or has run, once. -/
structure Accounted (pending : Pending) (host : PluginHost) : Prop where
  resources : ∀ resource ∈ host.resources,
    (resource.serial, .release resource.serial) ∈ pending resource.context
  skills : ∀ skill owned, host.skills.get skill = some owned →
    ∃ serial, (serial, .unregisterSkill skill) ∈ pending owned.context
  aligned : ∀ context serial resource, (serial, .release resource) ∈ pending context →
    resource = serial
  added : ∀ context item, item ∈ pending context → host.added[item.1]? = some context
  nodup : ∀ context, ((pending context).map Prod.fst).Nodup
  ran : ∀ serial ∈ host.ran, serial < host.added.length
  once : host.ran.Nodup
  settled : ∀ serial context, host.added[serial]? = some context →
    (serial ∈ host.ran ↔ serial ∉ (pending context).map Prod.fst)

variable {host after : PluginHost} {pending : Pending} {context : Nat}
  {rest : List (Nat × Disposer)}

theorem Accounted.shrink (accounted : Accounted pending host)
    (resources : after.resources ⊆ host.resources)
    (skills : ∀ skill owned, after.skills.get skill = some owned →
      host.skills.get skill = some owned)
    (added : after.added = host.added) (ran : after.ran = host.ran) : Accounted pending after where
  resources resource member := accounted.resources resource (resources member)
  skills skill owned found := accounted.skills skill owned (skills skill owned found)
  aligned := accounted.aligned
  added context item member := by
    rw [added]
    exact accounted.added context item member
  nodup := accounted.nodup
  ran serial member := by
    rw [ran] at member
    rw [added]
    exact accounted.ran serial member
  once := by
    rw [ran]
    exact accounted.once
  settled serial context found := by
    rw [added] at found
    rw [ran]
    exact accounted.settled serial context found

theorem Accounted.new (accounted : Accounted pending host) (context : Nat) :
    host.added.length ∉ (pending context).map Prod.fst := by
  intro member
  obtain ⟨item, isItem, serial⟩ := List.mem_map.mp member
  have issued := accounted.added context item isItem
  have bound := (List.getElem?_eq_some_iff.mp issued).1
  omega

theorem getElem?_issue {other : Nat} : (host.issue context).added[serial]? = some other ↔
      host.added[serial]? = some other ∨ serial = host.added.length ∧ other = context := by
  rw [issue]
  rcases Nat.lt_trichotomy serial host.added.length with old | rfl | beyond
  · rw [List.getElem?_append_left old]
    constructor
    · exact Or.inl
    · rintro (found | ⟨same, _⟩)
      · exact found
      · omega
  · rw [List.getElem?_concat_length, List.getElem?_eq_none (Nat.le_refl _)]
    simp [eq_comm]
  · rw [List.getElem?_eq_none (by rw [List.length_append, List.length_singleton]; omega),
      List.getElem?_eq_none (by omega)]
    constructor
    · exact nofun
    · rintro (found | ⟨same, _⟩)
      · cases found
      · omega

theorem Accounted.runAtOnce (accounted : Accounted pending host) (context : Nat) :
    Accounted pending ((host.issue context).note host.added.length) where
  resources := accounted.resources
  skills := accounted.skills
  aligned := accounted.aligned
  added other item member := getElem?_issue.mpr (Or.inl (accounted.added other item member))
  nodup := accounted.nodup
  ran serial member := by
    have longer : (host.issue context).added.length = host.added.length + 1 := by
      simp [issue]
    have noted : ((host.issue context).note host.added.length).added.length =
        host.added.length + 1 := longer
    rcases List.mem_append.mp member with old | new
    · have := accounted.ran serial old
      omega
    · have := List.mem_singleton.mp new
      omega
  once := by
    refine List.Nodup.append accounted.once (List.nodup_singleton _) ?_
    rw [List.disjoint_singleton]
    intro member
    have := accounted.ran _ member
    omega
  settled serial other found := by
    have isRan : serial ∈ ((host.issue context).note host.added.length).ran ↔
        serial ∈ host.ran ∨ serial = host.added.length := by
      simp [note, issue]
    rw [isRan]
    rcases getElem?_issue.mp found with old | ⟨rfl, rfl⟩
    · have bound := (List.getElem?_eq_some_iff.mp old).1
      rw [accounted.settled serial other old]
      constructor
      · rintro (done | same)
        · exact done
        · omega
      · exact Or.inl
    · constructor
      · intro _
        exact accounted.new other
      · intro _
        exact Or.inr rfl

theorem isDisposed_false (held : host.isDisposed context = false) :
    ∃ loaded, host.contexts[context]? = some loaded ∧ loaded.bag.disposed = false := by
  unfold isDisposed at held
  cases found : host.contexts[context]? with
  | none =>
    rw [found] at held
    cases held
  | some loaded =>
    rw [found] at held
    exact ⟨loaded, rfl, held⟩

theorem pending_push
    (held : host.isDisposed context = false) (rest : List (Nat × Disposer)) (other : Nat) :
    (host.push context serial disposer).pending context rest other =
      host.pending context rest other ++ if other = context then [(serial, disposer)] else [] := by
  obtain ⟨loaded, found, _⟩ := isDisposed_false held
  unfold pending items push
  by_cases same : other = context
  · subst other
    simp [found]
  · simp [same, Ne.symm same]

/-- A disposer is put into a bag that is not disposed, for something new or for
nothing. -/
theorem Accounted.add (accounted : Accounted (host.pending context rest) host)
    (held : host.isDisposed context = false)
    (aligned : ∀ resource, disposer = .release resource → resource = host.added.length)
    (resources : ∀ resource ∈ after.resources, resource ∈ host.resources ∨
      resource.serial = host.added.length ∧ resource.context = context ∧
        disposer = .release host.added.length)
    (skills : ∀ skill owned, after.skills.get skill = some owned →
      host.skills.get skill = some owned ∨
        owned.context = context ∧ disposer = .unregisterSkill skill)
    (contexts : after.contexts = (host.push context host.added.length disposer).contexts)
    (added : after.added = (host.issue context).added) (ran : after.ran = host.ran) :
    Accounted (after.pending context rest) after := by
  have pendingEq : ∀ other, after.pending context rest other = host.pending context rest other ++
        if other = context then [(host.added.length, disposer)] else [] := by
    intro other
    rw [← pending_push held]
    unfold pending items
    rw [contexts]
  have isPending : ∀ other item, item ∈ after.pending context rest other ↔
      item ∈ host.pending context rest other ∨
        other = context ∧ item = (host.added.length, disposer) := by
    intro other item
    rw [pendingEq other, List.mem_append]
    by_cases same : other = context <;> simp [same]
  have new := accounted.new context
  refine ⟨?_, ?_, ?_, ?_, ?_, ?_, ?_, ?_⟩
  · intro resource member
    rw [isPending]
    rcases resources resource member with old | ⟨serial, owner, isRelease⟩
    · exact Or.inl (accounted.resources resource old)
    · right
      rw [owner, serial, isRelease]
      exact ⟨rfl, rfl⟩
  · intro skill owned found
    rcases skills skill owned found with old | ⟨owner, isUnregister⟩
    · obtain ⟨serial, member⟩ := accounted.skills skill owned old
      exact ⟨serial, (isPending _ _).mpr (Or.inl member)⟩
    · refine ⟨host.added.length, (isPending _ _).mpr (Or.inr ⟨owner, ?_⟩)⟩
      rw [isUnregister]
  · intro other serial resource member
    rcases (isPending _ _).mp member with old | ⟨_, same⟩
    · exact accounted.aligned other serial resource old
    · obtain ⟨rfl, isRelease⟩ := Prod.mk.inj same
      exact aligned resource isRelease.symm
  · intro other item member
    rw [added, getElem?_issue]
    rcases (isPending _ _).mp member with old | ⟨same, rfl⟩
    · exact Or.inl (accounted.added other item old)
    · exact Or.inr ⟨rfl, same⟩
  · intro other
    rw [pendingEq other]
    by_cases same : other = context
    · subst other
      rw [if_pos rfl, List.map_append]
      apply List.Nodup.append (accounted.nodup context) (List.nodup_singleton _)
      exact List.disjoint_singleton.mpr new
    · rw [if_neg same, List.append_nil]
      exact accounted.nodup other
  · intro serial member
    rw [ran] at member
    have bound := accounted.ran serial member
    have longer : after.added.length = host.added.length + 1 := by
      rw [added]
      simp [issue]
    omega
  · rw [ran]
    exact accounted.once
  · intro serial other found
    rw [added] at found
    have isSerial : serial ∈ (after.pending context rest other).map Prod.fst ↔
        serial ∈ (host.pending context rest other).map Prod.fst ∨
          other = context ∧ serial = host.added.length := by
      rw [pendingEq other, List.map_append, List.mem_append]
      by_cases same : other = context <;> simp [same]
    rw [ran, isSerial]
    rcases getElem?_issue.mp found with old | ⟨rfl, rfl⟩
    · have bound := (List.getElem?_eq_some_iff.mp old).1
      rw [accounted.settled serial other old]
      constructor
      · rintro absent (member | ⟨_, same⟩)
        · exact absent member
        · omega
      · exact fun absent member => absent (Or.inl member)
    · constructor
      · intro member
        have bound := accounted.ran _ member
        omega
      · exact fun absent => (absent (Or.inr ⟨rfl, rfl⟩)).elim

theorem Accounted.drop
    (accounted : Accounted (host.pending context ((serial, disposer) :: rest)) host)
    (resources : ∀ resource ∈ after.resources, resource ∈ host.resources ∧
      ¬(disposer = .release serial ∧ resource.serial = serial ∧ resource.context = context))
    (skills : ∀ skill owned, after.skills.get skill = some owned →
      host.skills.get skill = some owned ∧ disposer ≠ .unregisterSkill skill)
    (contexts : after.contexts = host.contexts) (added : after.added = host.added)
    (ran : after.ran = host.ran ++ [serial]) : Accounted (after.pending context rest) after := by
  have pendingEq : ∀ other, host.pending context ((serial, disposer) :: rest) other =
      (if other = context then [(serial, disposer)] else []) ++
        after.pending context rest other := by
    intro other
    unfold pending items
    rw [contexts]
    by_cases same : other = context <;> simp [same]
  have isPending : ∀ other item, item ∈ host.pending context ((serial, disposer) :: rest) other ↔
        (other = context ∧ item = (serial, disposer)) ∨
          item ∈ after.pending context rest other := by
    intro other item
    rw [pendingEq other, List.mem_append]
    by_cases same : other = context <;> simp [same]
  have fromContext := accounted.added context (serial, disposer)
    ((isPending _ _).mpr (Or.inl ⟨rfl, rfl⟩))
  have notRan : serial ∉ host.ran := by
    rw [accounted.settled serial context fromContext, not_not]
    exact List.mem_map.mpr ⟨_, (isPending _ _).mpr (Or.inl ⟨rfl, rfl⟩), rfl⟩
  have absent : serial ∉ (after.pending context rest context).map Prod.fst := by
    have distinct := accounted.nodup context
    rw [pendingEq context, if_pos rfl] at distinct
    exact (List.nodup_cons.mp distinct).1
  refine ⟨?_, ?_, ?_, ?_, ?_, ?_, ?_, ?_⟩
  · intro resource member
    obtain ⟨old, stays⟩ := resources resource member
    rcases (isPending _ _).mp (accounted.resources resource old) with ⟨owner, same⟩ | later
    · obtain ⟨sameSerial, isRelease⟩ := Prod.mk.inj same
      rw [sameSerial] at isRelease
      exact (stays ⟨isRelease.symm, sameSerial, owner⟩).elim
    · exact later
  · intro skill owned found
    obtain ⟨old, stays⟩ := skills skill owned found
    obtain ⟨other, member⟩ := accounted.skills skill owned old
    rcases (isPending _ _).mp member with ⟨_, same⟩ | later
    · exact (stays (Prod.mk.inj same).2.symm).elim
    · exact ⟨other, later⟩
  · exact fun other first resource member =>
      accounted.aligned other first resource ((isPending _ _).mpr (Or.inr member))
  · intro other item member
    rw [added]
    exact accounted.added other item ((isPending _ _).mpr (Or.inr member))
  · intro other
    have distinct := accounted.nodup other
    rw [pendingEq other, List.map_append] at distinct
    exact distinct.of_append_right
  · intro done member
    rw [ran, List.mem_append, List.mem_singleton] at member
    rw [added]
    rcases member with old | rfl
    · exact accounted.ran done old
    · exact (List.getElem?_eq_some_iff.mp fromContext).1
  · rw [ran]
    apply List.Nodup.append accounted.once (List.nodup_singleton _)
    rw [List.disjoint_singleton]
    exact notRan
  · intro done other found
    rw [added] at found
    have earlier := accounted.settled done other found
    rw [pendingEq other, List.map_append, List.mem_append] at earlier
    rw [ran, List.mem_append, List.mem_singleton, earlier]
    by_cases same : done = serial
    · subst done
      rw [fromContext] at found
      cases found
      simp [absent]
    · by_cases owner : other = context <;> simp [owner, same]

end

variable {context : Nat} {manifest : LoadedManifest} {host before after : PluginHost}
  {names : List String} {middle : PluginHost} {rest : List (Nat × Disposer)}

/-- One change that a call of a plugin makes to its host, with the skills that it
registers or unregisters. -/
inductive Effect (context : Nat) (manifest : LoadedManifest) :
    PluginHost → List String → PluginHost → Prop
  | acquire (host : PluginHost) (kind : ResourceKind) :
      Effect context manifest host [] (host.acquire context kind)
  | release (host : PluginHost) (serial : Nat) :
      Effect context manifest host [] (host.releaseResource context serial)
  | register (host : PluginHost) (skillName : String) (record : RawSkillRecord) :
      Effect context manifest host [brokerKey manifest.id skillName]
        (host.registerSkill context (brokerKey manifest.id skillName) record)
  | unregister (host : PluginHost) (skillName : String) :
      Effect context manifest host [brokerKey manifest.id skillName]
        (host.unregisterSkill (brokerKey manifest.id skillName))
  | add (host : PluginHost) (body : List PluginCall) (throws : Bool)
      (held : host.isDisposed context = false) :
      Effect context manifest host []
        ((host.issue context).push context host.added.length (.custom body throws))
  | runAtOnce (host : PluginHost) :
      Effect context manifest host [] ((host.issue context).note host.added.length)

inductive Effects (context : Nat) (manifest : LoadedManifest) :
    PluginHost → List String → PluginHost → Prop
  | nil (host : PluginHost) : Effects context manifest host [] host
  | cons {first second third : PluginHost} {names more : List String}
      (effect : Effect context manifest first names second)
      (effects : Effects context manifest second more third) :
      Effects context manifest first (names ++ more) third

theorem Effects.append {first second third : PluginHost} {names more : List String}
    (effects : Effects context manifest first names second)
    (later : Effects context manifest second more third) :
    Effects context manifest first (names ++ more) third := by
  induction effects with
  | nil => exact later
  | cons effect _ ih =>
    rw [List.append_assoc]
    exact .cons effect (ih later)

theorem Effect.once (effect : Effect context manifest before names after) :
    Effects context manifest before names after := by
  have single := Effects.cons effect (.nil after)
  rwa [List.append_nil] at single

/-- What the calls of a context leave as it is. -/
structure Framed (context : Nat) (before after : PluginHost) : Prop where
  registries : after.toRegistries = before.toRegistries
  length : after.contexts.length = before.contexts.length
  others : ∀ other, other ≠ context → after.contexts[other]? = before.contexts[other]?
  own : (after.contexts[context]?).map (fun loaded => (loaded.manifest, loaded.bag.disposed)) =
    (before.contexts[context]?).map fun loaded => (loaded.manifest, loaded.bag.disposed)
  kept : before.isDisposed context = true → after.contexts = before.contexts

theorem Framed.of_contexts (registries : after.toRegistries = before.toRegistries)
    (contexts : after.contexts = before.contexts) : Framed context before after where
  registries := registries
  length := by rw [contexts]
  others other _ := by rw [contexts]
  own := by rw [contexts]
  kept _ := contexts

theorem Framed.of_push {serial : Nat} {disposer : Disposer}
    (held : before.isDisposed context = false)
    (registries : after.toRegistries = before.toRegistries)
    (contexts : after.contexts = (before.push context serial disposer).contexts) :
    Framed context before after where
  registries := registries
  length := by
    rw [contexts]
    exact List.length_modify _ _ _
  others other apart := by
    rw [contexts]
    exact List.getElem?_modify_ne _ _ (Ne.symm apart)
  own := by
    rw [contexts]
    unfold push
    rw [List.getElem?_modify_eq]
    cases before.contexts[context]? with
    | none | some => rfl
  kept disposed := by
    rw [held] at disposed
    cases disposed

theorem Framed.isDisposed (framed : Framed context before after) (other : Nat) :
    after.isDisposed other = before.isDisposed other := by
  by_cases same : other = context
  · subst other
    have flags := congrArg (Option.all Prod.snd) framed.own
    rwa [Option.all_map, Option.all_map] at flags
  · unfold PluginHost.isDisposed
    rw [framed.others other same]

theorem Framed.trans (first : Framed context before middle)
    (second : Framed context middle after) : Framed context before after where
  registries := second.registries.trans first.registries
  length := second.length.trans first.length
  others other apart := (second.others other apart).trans (first.others other apart)
  own := second.own.trans first.own
  kept disposed := by
    rw [second.kept (by rwa [first.isDisposed]), first.kept disposed]

theorem Effect.framed (effect : Effect context manifest before names after) :
    Framed context before after := by
  cases effect with
  | acquire =>
    unfold PluginHost.acquire
    split
    · exact .of_contexts rfl rfl
    · next held => exact .of_push (by simpa using held) rfl rfl
  | release | unregister | runAtOnce => exact .of_contexts rfl rfl
  | register =>
    unfold PluginHost.registerSkill
    split
    · exact .of_contexts rfl rfl
    · next held => exact .of_push (by simpa using held) rfl rfl
  | add body throws held => exact .of_push held rfl rfl

theorem Effects.framed (effects : Effects context manifest before names after) :
    Framed context before after := by
  induction effects with
  | nil => exact .of_contexts rfl rfl
  | cons effect _ ih => exact effect.framed.trans ih

/-- The calls of a context leave what other contexts have registered, apart from the
skills that they register or unregister by name. -/
structure Contained (context : Nat) (manifest : LoadedManifest) (before : PluginHost)
    (names : List String) (after : PluginHost) : Prop where
  resources : ∀ resource ∈ before.resources, resource.context ≠ context → resource ∈ after.resources
  outside : ∀ skill, skill ∉ names → after.skills.get skill = before.skills.get skill
  inside : ∀ skill ∈ names, ∀ owned, after.skills.get skill = some owned → owned.context = context
  origin : ∀ skill owned, after.skills.get skill = some owned →
    before.skills.get skill = some owned ∨
      owned.context = context ∧ ∃ skillName, skill = brokerKey manifest.id skillName

theorem Contained.of_skills (resources : ∀ resource ∈ before.resources, resource.context ≠ context →
      resource ∈ after.resources)
    (skills : after.skills = before.skills) : Contained context manifest before [] after where
  resources := resources
  outside _ _ := by rw [skills]
  inside _ member := (List.not_mem_nil member).elim
  origin _ _ found := by
    rw [skills] at found
    exact Or.inl found

theorem Contained.of_delete {skill : String} (resources : after.resources = before.resources)
    (skills : ∀ other, after.skills.get other = (before.skills.delete skill).get other) :
    Contained context manifest before [skill] after where
  resources resource member _ := by rwa [resources]
  outside other absent := by
    rw [skills, get_delete_of_ne _ (fun same => absent (List.mem_singleton.mpr same))]
  inside other member owned found := by
    rw [skills, List.mem_singleton.mp member, get_delete_self] at found
    cases found
  origin other owned found := by
    rw [skills, get_delete] at found
    split at found
    · cases found
    · exact Or.inl found

theorem Contained.of_set {skillName : String} {record : RawSkillRecord}
    (resources : after.resources = before.resources) (skills : after.skills =
      before.skills.set (brokerKey manifest.id skillName) ⟨context, record⟩) :
    Contained context manifest before [brokerKey manifest.id skillName] after where
  resources resource member _ := by rwa [resources]
  outside other absent := by
    rw [skills, get_set_of_ne _ _ (fun same => absent (List.mem_singleton.mpr same))]
  inside other member owned found := by
    rw [skills, List.mem_singleton.mp member, get_set_self] at found
    rw [← Option.some.inj found]
  origin other owned found := by
    rw [skills, get_set] at found
    split at found
    · next same =>
        right
        rw [← Option.some.inj found]
        exact ⟨rfl, skillName, same⟩
    · exact Or.inl found

theorem Contained.trans {more : List String}
    (first : Contained context manifest before names middle)
    (second : Contained context manifest middle more after) :
    Contained context manifest before (names ++ more) after where
  resources resource member foreign :=
    second.resources resource (first.resources resource member foreign) foreign
  outside skill absent := by
    rw [List.mem_append, not_or] at absent
    rw [second.outside skill absent.2, first.outside skill absent.1]
  inside skill member owned found := by
    by_cases later : skill ∈ more
    · exact second.inside skill later owned found
    · have earlier := (List.mem_append.mp member).resolve_right later
      rw [second.outside skill later] at found
      exact first.inside skill earlier owned found
  origin skill owned found := by
    rcases second.origin skill owned found with old | new
    · exact first.origin skill owned old
    · exact Or.inr new

theorem mem_releaseResource {serial : Nat} {resource : Resource} :
    resource ∈ (host.releaseResource context serial).resources ↔
      resource ∈ host.resources ∧ ¬(resource.serial = serial ∧ resource.context = context) := by
  simp [releaseResource, List.mem_filter, imp_iff_not_or]

theorem get_set_delete (skills : OrderedMap String OwnedSkill) (skill other : String)
    (owned : OwnedSkill) :
    ((skills.set skill owned).delete skill).get other = (skills.delete skill).get other := by
  rw [get_delete, get_delete]
  split
  · rfl
  · next apart => exact get_set_of_ne _ _ apart

theorem Effect.contained (effect : Effect context manifest before names after) :
    Contained context manifest before names after := by
  cases effect with
  | acquire =>
    apply Contained.of_skills
    · intro resource member foreign
      unfold PluginHost.acquire
      split
      · rw [mem_releaseResource]
        exact ⟨List.mem_append_left _ member, fun own => foreign own.2⟩
      · exact List.mem_append_left _ member
    · unfold PluginHost.acquire
      split <;> rfl
  | release =>
    apply Contained.of_skills
    · intro resource member foreign
      rw [mem_releaseResource]
      exact ⟨member, fun own => foreign own.2⟩
    · rfl
  | register =>
    unfold PluginHost.registerSkill
    split
    · exact .of_delete rfl fun other => get_set_delete _ _ other _
    · exact .of_set rfl rfl
  | unregister => exact .of_delete rfl fun _ => rfl
  | add | runAtOnce => exact .of_skills (fun _ member _ => member) rfl

theorem Effects.contained (effects : Effects context manifest before names after) :
    Contained context manifest before names after := by
  induction effects with
  | nil => exact .of_skills (fun _ member _ => member) rfl
  | cons effect _ ih => exact effect.contained.trans ih

theorem pending_of_contexts (contexts : after.contexts = before.contexts)
    (rest : List (Nat × Disposer)) : after.pending context rest = before.pending context rest := by
  unfold pending items
  rw [contexts]

theorem Effect.accounted (effect : Effect context manifest before names after)
    (accounted : Accounted (before.pending context rest) before) :
    Accounted (after.pending context rest) after := by
  cases effect with
  | acquire =>
    unfold PluginHost.acquire
    split
    · rw [pending_of_contexts rfl]
      refine (accounted.runAtOnce context).shrink ?_ (fun _ _ found => found) rfl rfl
      intro resource member
      obtain ⟨made, stays⟩ := mem_releaseResource.mp member
      rcases List.mem_append.mp made with old | new
      · exact old
      · rw [List.mem_singleton.mp new] at stays
        exact (stays ⟨rfl, rfl⟩).elim
    · next held =>
        refine accounted.add (by simpa using held) (fun _ same => ?_) ?_
          (fun _ _ found => Or.inl found) rfl rfl rfl
        · injection same with same
          exact same.symm
        · intro resource member
          rcases List.mem_append.mp member with old | new
          · exact Or.inl old
          · rw [List.mem_singleton.mp new]
            exact Or.inr ⟨rfl, rfl, rfl⟩
  | release =>
    refine accounted.shrink ?_ (fun _ _ found => found) rfl rfl
    exact fun resource member => (mem_releaseResource.mp member).1
  | register skillName record =>
    unfold PluginHost.registerSkill
    split
    · rw [pending_of_contexts rfl]
      refine (accounted.runAtOnce context).shrink (fun _ member => member) ?_ rfl rfl
      intro skill owned found
      have kept := get_set_delete before.skills (brokerKey manifest.id skillName) skill
        ⟨context, record⟩
      replace found := kept.symm.trans found
      rw [get_delete] at found
      split at found
      · cases found
      · exact found
    · next held =>
        refine accounted.add (by simpa using held) ?_ (fun _ member => Or.inl member) ?_
          rfl rfl rfl
        · intro _ same
          cases same
        · intro skill owned found
          have position := get_set before.skills (brokerKey manifest.id skillName)
            skill ⟨context, record⟩
          replace found := position.symm.trans found
          split at found
          · next same =>
              right
              rw [← Option.some.inj found, same]
              exact ⟨rfl, rfl⟩
          · exact Or.inl found
  | unregister skillName =>
    refine accounted.shrink (fun _ member => member) ?_ rfl rfl
    intro skill owned found
    have position := get_delete before.skills (brokerKey manifest.id skillName) skill
    replace found := position.symm.trans found
    split at found
    · cases found
    · exact found
  | add body throws held =>
    refine accounted.add held ?_ (fun _ member => Or.inl member)
      (fun _ _ found => Or.inl found) rfl rfl rfl
    intro _ same
    cases same
  | runAtOnce =>
    exact accounted.runAtOnce context

theorem Effects.accounted (effects : Effects context manifest before names after)
    (accounted : Accounted (before.pending context rest) before) :
    Accounted (after.pending context rest) after := by
  induction effects with
  | nil => exact accounted
  | cons effect _ ih => exact ih (effect.accounted accounted)

end P2PHub.Lifecycle
