import P2PHub.PluginTeardown

/-!
# What a teardown leaves

Once the bag of a context is disposed, nothing that was registered through the
context remains, whenever it was registered, and every disposer has run once.
Whether anything of another context is lost depends on the names of the skills
that the calls and the disposers register and unregister.
-/

namespace P2PHub.Lifecycle

open PluginHost

open Plugins (LoadedManifest)
open Sandbox (RawSkillRecord brokerKey)

section

mutual

def touched (manifest : LoadedManifest) (disposed : Bool) : PluginCall → List String
  | .register skillName handler options =>
    match checkRegistration manifest skillName handler options with
    | .ok _ => [brokerKey manifest.id skillName]
    | .error _ => []
  | .unregister skillName => [brokerKey manifest.id skillName]
  | .onDispose body _ => if disposed then touchedAll manifest disposed body else []
  | _ => []

def touchedAll (manifest : LoadedManifest) (disposed : Bool) : List PluginCall → List String
  | [] => []
  | call :: calls => touched manifest disposed call ++ touchedAll manifest disposed calls

end

variable (context : Nat) (manifest : LoadedManifest)

mutual

theorem perform_effects : ∀ (call : PluginCall) (host : PluginHost),
    Effects context manifest host (touched manifest (host.isDisposed context) call)
      (perform context manifest call host)
  | .on event priority, host => by
      unfold perform on
      dsimp only
      split
      · exact (Effect.acquire host _).once
      · exact .nil host
  | .registerFilter event priority, host => by
      unfold perform registerFilter
      dsimp only
      split
      · exact (Effect.acquire host _).once
      · exact .nil host
  | .setTimeout ms, host => (Effect.acquire host _).once
  | .setInterval ms, host => (Effect.acquire host _).once
  | .release serial, host => (Effect.release host serial).once
  | .register skillName handler options, host => by
      unfold perform register touched
      cases checked : checkRegistration manifest skillName handler options with
      | ok record => exact (Effect.register host skillName record).once
      | error message => exact .nil host
  | .unregister skillName, host => (Effect.unregister host skillName).once
  | .onDispose body throws, host => by
      unfold perform touched
      cases flag : host.isDisposed context with
      | true =>
        have late : Effect context manifest host []
            ((host.issue context).note host.added.length) := .runAtOnce host
        have bodyEffects := performAll_effects body ((host.issue context).note host.added.length)
        rw [late.framed.isDisposed, flag] at bodyEffects
        exact late.once.append bodyEffects
      | false => exact (Effect.add host body throws flag).once

theorem performAll_effects : ∀ (calls : List PluginCall) (host : PluginHost),
    Effects context manifest host (touchedAll manifest (host.isDisposed context) calls)
      (performAll context manifest calls host)
  | [], host => .nil host
  | call :: calls, host => by
      have first := perform_effects call host
      have later := performAll_effects calls (perform context manifest call host)
      rw [first.framed.isDisposed] at later
      exact first.append later

end

end

variable {context : Nat} {manifest : LoadedManifest} {host before after : PluginHost}
  {rest : List (Nat × Disposer)} {loaded : PluginContext}

/-- The skills that a disposer unregisters, or registers. -/
def Disposer.touched (manifest : LoadedManifest) : Disposer → List String
  | .release _ => []
  | .unregisterSkill skill => [skill]
  | .custom body _ => touchedAll manifest true body

/-- The skills that the disposal of the bag of a context touches. -/
def PluginHost.disposeTouches (host : PluginHost) (context : Nat) : List String :=
  match host.contexts[context]? with
  | none => []
  | some loaded =>
    if loaded.bag.disposed then []
    else loaded.bag.disposers.flatMap fun item => item.2.touched loaded.manifest

/-- What a disposer of a disposed bag does. -/
structure Disposes (context : Nat) (manifest : LoadedManifest)
    (pending : List (Nat × Disposer)) (before : PluginHost) (names : List String)
    (rest : List (Nat × Disposer)) (after : PluginHost) : Prop where
  framed : Framed context before after
  contained : Contained context manifest before names after
  accounted : Accounted (before.pending context pending) before →
    Accounted (after.pending context rest) after

theorem runDisposer_disposes (manifest : LoadedManifest) (serial : Nat) (disposer : Disposer)
    (rest : List (Nat × Disposer)) (disposed : host.isDisposed context) :
    Disposes context manifest ((serial, disposer) :: rest) host (disposer.touched manifest) rest
      (host.runDisposer context manifest serial disposer).1 := by
  have noted : Framed context host (host.note serial) := .of_contexts rfl rfl
  have unchanged : Contained context manifest host [] (host.note serial) :=
    .of_skills (fun _ member _ => member) rfl
  cases disposer with
  | release resource =>
    have effect : Effect context manifest (host.note serial) []
        ((host.note serial).releaseResource context resource) := .release _ resource
    refine ⟨noted.trans effect.framed, unchanged.trans effect.contained, fun accounted => ?_⟩
    have own := accounted.aligned context serial resource (by simp [pending])
    refine accounted.drop ?_ ?_ rfl rfl rfl
    · intro kept member
      obtain ⟨old, stays⟩ := mem_releaseResource.mp member
      rw [own] at stays
      exact ⟨old, fun same => stays same.2⟩
    · intro skill owned found
      refine ⟨found, ?_⟩
      intro same
      cases same
  | unregisterSkill skill =>
    have deleted : Contained context manifest host [skill]
        ((host.note serial).unregisterSkill skill) := .of_delete rfl fun _ => rfl
    refine ⟨.of_contexts rfl rfl, deleted, fun accounted => ?_⟩
    refine accounted.drop ?_ ?_ rfl rfl rfl
    · intro resource member
      refine ⟨member, fun same => ?_⟩
      cases same.1
    · intro other owned found
      have position := OrderedMap.get_delete host.skills skill other
      replace found := position.symm.trans found
      split at found
      · cases found
      · next apart =>
          refine ⟨found, fun same => apart ?_⟩
          injection same with same
          exact same.symm
  | custom body throws =>
    have effects := performAll_effects context manifest body (host.note serial)
    rw [noted.isDisposed, disposed] at effects
    refine ⟨noted.trans effects.framed, unchanged.trans effects.contained, fun accounted => ?_⟩
    refine effects.accounted (accounted.drop ?_ ?_ rfl rfl rfl)
    · intro resource member
      refine ⟨member, fun same => ?_⟩
      cases same.1
    · intro skill owned found
      refine ⟨found, ?_⟩
      intro same
      cases same

theorem runDisposers_disposes (manifest : LoadedManifest) (items : List (Nat × Disposer))
    (disposed : host.isDisposed context) : Disposes context manifest items host
      (items.flatMap fun item => item.2.touched manifest) []
      (runDisposers context manifest items host) := by
  induction items generalizing host with
  | nil => exact ⟨.of_contexts rfl rfl, .of_skills (fun _ member _ => member) rfl, id⟩
  | cons item items ih =>
    obtain ⟨serial, disposer⟩ := item
    have first := runDisposer_disposes manifest serial disposer items disposed
    have later := ih (by rwa [first.framed.isDisposed])
    exact ⟨first.framed.trans later.framed, first.contained.trans later.contained,
      fun accounted => later.accounted (first.accounted accounted)⟩

def Emptied (host : PluginHost) : Prop :=
  ∀ (context : Nat) (loaded : PluginContext), host.contexts[context]? = some loaded →
    loaded.bag.disposed = true → loaded.bag.disposers = []

/-- The accounts between the steps of a host. -/
structure Sound (host : PluginHost) : Prop where
  accounted : Accounted host.items host
  emptied : Emptied host

theorem isDisposed_of_found (found : host.contexts[context]? = some loaded) :
    host.isDisposed context = loaded.bag.disposed := by
  unfold isDisposed
  rw [found]
  rfl

theorem Framed.emptied (framed : Framed context before after) (emptied : Emptied before) :
    Emptied after := by
  intro other loaded found disposed
  by_cases same : other = context
  · subst other
    have flag := framed.isDisposed context
    rw [isDisposed_of_found found, disposed] at flag
    rw [framed.kept flag.symm] at found
    exact emptied context loaded found disposed
  · rw [framed.others other same] at found
    exact emptied other loaded found disposed

theorem Effects.sound {names : List String} (effects : Effects context manifest before names after)
    (sound : Sound before) : Sound after where
  accounted := by
    rw [← pending_nil _ context]
    apply effects.accounted
    rw [pending_nil]
    exact sound.accounted
  emptied := effects.framed.emptied sound.emptied

/-- What the disposal of a bag leaves as it is. -/
structure Disposal (context : Nat) (before after : PluginHost) : Prop where
  registries : after.toRegistries = before.toRegistries
  length : after.contexts.length = before.contexts.length
  others : ∀ other, other ≠ context → after.contexts[other]? = before.contexts[other]?
  own : (after.contexts[context]?).map (fun loaded => loaded.manifest) =
    (before.contexts[context]?).map fun loaded => loaded.manifest
  disposed : after.isDisposed context = true

theorem dispose_of_disposed (disposed : host.isDisposed context) :
    host.dispose context = host := by
  unfold dispose
  cases found : host.contexts[context]? with
  | none => rfl
  | some loaded =>
    rw [isDisposed_of_found found] at disposed
    dsimp only
    rw [if_pos disposed]

theorem disposeTouches_of_disposed (disposed : host.isDisposed context) :
    host.disposeTouches context = [] := by
  unfold disposeTouches
  cases found : host.contexts[context]? with
  | none => rfl
  | some loaded =>
    rw [isDisposed_of_found found] at disposed
    dsimp only
    rw [if_pos disposed]

def PluginHost.takeOut (host : PluginHost) (context : Nat) (manifest : LoadedManifest) :
    PluginHost :=
  { host with contexts := host.contexts.set context ⟨manifest, ⟨[], true⟩⟩ }

theorem takeOut_self (found : host.contexts[context]? = some loaded) :
    (host.takeOut context manifest).contexts[context]? = some ⟨manifest, ⟨[], true⟩⟩ :=
  List.getElem?_set_self (List.getElem?_eq_some_iff.mp found).1

theorem takeOut_of_ne {other : Nat} (apart : other ≠ context) :
    (host.takeOut context manifest).contexts[other]? = host.contexts[other]? :=
  List.getElem?_set_ne (Ne.symm apart)

section

variable (found : host.contexts[context]? = some loaded)
include found

theorem pending_takeOut :
    (host.takeOut context manifest).pending context loaded.bag.disposers = host.items := by
  funext other
  unfold pending items
  by_cases same : other = context
  · subst other
    rw [if_pos rfl, takeOut_self found, found]
    exact List.append_nil _
  · rw [if_neg same, takeOut_of_ne same, List.nil_append]

theorem dispose_eq (held : loaded.bag.disposed = false) :
    host.dispose context = runDisposers context loaded.manifest loaded.bag.disposers
      (host.takeOut context loaded.manifest) := by
  unfold dispose
  rw [found]
  dsimp only
  rw [held]
  rfl

theorem disposeTouches_eq (held : loaded.bag.disposed = false) : host.disposeTouches context =
      loaded.bag.disposers.flatMap fun item => item.2.touched loaded.manifest := by
  unfold disposeTouches
  rw [found]
  dsimp only
  rw [held]
  rfl

end

theorem dispose_disposal (host : PluginHost) (context : Nat) :
    Disposal context host (host.dispose context) := by
  cases flag : host.isDisposed context with
  | true =>
    rw [dispose_of_disposed flag]
    exact ⟨rfl, rfl, fun _ _ => rfl, rfl, flag⟩
  | false =>
    obtain ⟨loaded, found, held⟩ := isDisposed_false flag
    have taken := @takeOut_self context loaded.manifest host loaded found
    have marked : (host.takeOut context loaded.manifest).isDisposed context :=
      isDisposed_of_found taken
    have disposes := runDisposers_disposes loaded.manifest loaded.bag.disposers marked
    rw [dispose_eq found held]
    refine ⟨disposes.framed.registries, ?_, fun other apart => ?_, ?_, ?_⟩
    · rw [disposes.framed.length]
      exact List.length_set
    · rw [disposes.framed.others other apart, takeOut_of_ne apart]
    · rw [disposes.framed.kept marked, taken, found]
      rfl
    · rw [disposes.framed.isDisposed, marked]

theorem dispose_contained (found : host.contexts[context]? = some loaded) :
    Contained context loaded.manifest host (host.disposeTouches context)
      (host.dispose context) := by
  cases flag : host.isDisposed context with
  | true =>
    rw [dispose_of_disposed flag, disposeTouches_of_disposed flag]
    exact .of_skills (fun _ member _ => member) rfl
  | false =>
    have held : loaded.bag.disposed = false := by rwa [isDisposed_of_found found] at flag
    have marked : (host.takeOut context loaded.manifest).isDisposed context :=
      isDisposed_of_found (takeOut_self found)
    have taken : Contained context loaded.manifest host []
        (host.takeOut context loaded.manifest) := .of_skills (fun _ member _ => member) rfl
    rw [dispose_eq found held, disposeTouches_eq found held]
    exact taken.trans (runDisposers_disposes loaded.manifest loaded.bag.disposers marked).contained

theorem Sound.dispose (sound : Sound host) (context : Nat) : Sound (host.dispose context) := by
  cases flag : host.isDisposed context with
  | true => rwa [dispose_of_disposed flag]
  | false =>
    obtain ⟨loaded, found, held⟩ := isDisposed_false flag
    have marked : (host.takeOut context loaded.manifest).isDisposed context :=
      isDisposed_of_found (takeOut_self found)
    have disposes := runDisposers_disposes loaded.manifest loaded.bag.disposers marked
    have taken : Accounted ((host.takeOut context loaded.manifest).pending context
        loaded.bag.disposers) (host.takeOut context loaded.manifest) := by
      rw [pending_takeOut found]
      exact sound.accounted.shrink (fun _ member => member) (fun _ _ found => found) rfl rfl
    have emptied : Emptied (host.takeOut context loaded.manifest) := by
      intro other later located disposed
      by_cases same : other = context
      · subst other
        rw [takeOut_self found] at located
        rw [← Option.some.inj located]
      · rw [takeOut_of_ne same] at located
        exact sound.emptied other later located disposed
    rw [dispose_eq found held]
    refine ⟨?_, disposes.framed.emptied emptied⟩
    rw [← pending_nil _ context]
    exact disposes.accounted taken

end P2PHub.Lifecycle
