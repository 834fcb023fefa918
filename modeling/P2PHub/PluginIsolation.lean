import P2PHub.PluginCapabilities
import Mathlib.Data.List.Induction

/-!
# Isolation of plugins

What one plugin can change of another's skills, hooks, exposed topics and
guards.  Skills and hooks are apart by their keys; a topic is opened by any
manifest that lists it, and a guard is replaced by whoever registers its
namespace again.
-/

namespace P2PHub.Plugins

open Sandbox (brokerKey isAlphanumeric)

section

variable {mine theirs : LoadedManifest}

theorem not_mem_of_isPluginId {id : String} (valid : isPluginId id) {char : Char}
    (other : isAlphanumeric char = false) (notUnderscore : char ≠ '_') (notHyphen : char ≠ '-') :
    char ∉ id.toList := by
  intro member
  unfold isPluginId at valid
  split at valid
  · cases valid
  · next first rest same =>
      rw [same, List.mem_cons] at member
      rw [Bool.and_eq_true, List.all_eq_true] at valid
      rcases member with rfl | member
      · rw [other] at valid
        exact absurd valid.1 Bool.false_ne_true
      · have accepted := valid.2 char member
        simp [other, notUnderscore, notHyphen] at accepted

theorem dot_not_mem (manifest : LoadedManifest) : '.' ∉ manifest.id.toList :=
  not_mem_of_isPluginId manifest.valid (by decide) (by decide) (by decide)

theorem colon_not_mem (manifest : LoadedManifest) : ':' ∉ manifest.id.toList :=
  not_mem_of_isPluginId manifest.valid (by decide) (by decide) (by decide)

theorem cut_unique {α : Type*} {delimiter : α} {first second front back : List α}
    (outsideFirst : delimiter ∉ first) (outsideSecond : delimiter ∉ second)
    (same : first ++ delimiter :: front = second ++ delimiter :: back) : first = second := by
  induction first generalizing second with
  | nil =>
    cases second with
    | nil => rfl
    | cons =>
      have heads := (List.cons.inj same).1
      exact absurd (heads ▸ List.mem_cons_self) outsideSecond
  | cons head first ih =>
    rw [List.mem_cons, not_or] at outsideFirst
    cases second with
    | nil => exact absurd (List.cons.inj same).1.symm outsideFirst.1
    | cons =>
      rw [List.mem_cons, not_or] at outsideSecond
      obtain ⟨rfl, tails⟩ := List.cons.inj same
      rw [ih outsideFirst.2 outsideSecond.2 tails]

theorem brokerKey_ne (apart : mine.id ≠ theirs.id)
    (skill other : String) : brokerKey mine.id skill ≠ brokerKey theirs.id other := by
  intro same
  have texts := congrArg String.toList same
  simp only [brokerKey, String.toList_append] at texts
  have cut : mine.id.toList ++ '.' :: skill.toList = theirs.id.toList ++ '.' :: other.toList := by
    simpa using texts
  have ids := cut_unique (dot_not_mem mine) (dot_not_mem theirs) cut
  exact apart (String.toList_inj.mp ids)

theorem ownsEvent_iff {id event : String} :
    ownsEvent id event ↔ id.toList ++ [':'] <+: event.toList := by
  simp [ownsEvent, String.toList_append]

theorem ownsEvent_unique {event : String}
    (ours : ownsEvent mine.id event) (others : ownsEvent theirs.id event) :
    mine.id = theirs.id := by
  obtain ⟨rest, restEq⟩ := ownsEvent_iff.mp ours
  obtain ⟨other, otherEq⟩ := ownsEvent_iff.mp others
  have cut : mine.id.toList ++ ':' :: rest = theirs.id.toList ++ ':' :: other := by
    simpa using restEq.trans otherEq.symm
  have ids := cut_unique (colon_not_mem mine) (colon_not_mem theirs) cut
  exact String.toList_inj.mp ids

end

section

variable {topic : String} {manifest : LoadedManifest}

theorem isWildcardTopic_iff :
    isWildcardTopic topic ↔ ∃ front, topic.toList = front ++ [':', '*'] := by
  rw [isWildcardTopic, List.isSuffixOf_iff_suffix]
  constructor
  · rintro ⟨front, same⟩
    exact ⟨front, same.symm⟩
  · rintro ⟨front, same⟩
    exact ⟨front, same.symm⟩

theorem topicMatches_iff {subscribed actual : String} : topicMatches subscribed actual ↔
      subscribed = actual ∨ ∃ front, subscribed.toList = front ++ [':', '*'] ∧
        front ++ [':'] <+: actual.toList := by
  rw [topicMatches, Bool.or_eq_true, beq_iff_eq, Bool.and_eq_true, isWildcardTopic_iff,
    List.isPrefixOf_iff_prefix]
  constructor
  · rintro (same | ⟨⟨front, shape⟩, begins⟩)
    · exact .inl same
    · rw [shape] at begins
      refine .inr ⟨front, shape, ?_⟩
      simpa using begins
  · rintro (same | ⟨front, shape, begins⟩)
    · exact .inl same
    · refine .inr ⟨⟨front, shape⟩, ?_⟩
      rw [shape]
      simpa using begins

theorem topicMatches_refl (topic : String) : topicMatches topic topic :=
  topicMatches_iff.mpr (.inl rfl)

theorem topicMatches_trans {first second third : String}
    (outer : topicMatches first second) (inner : topicMatches second third) :
    topicMatches first third := by
  rcases topicMatches_iff.mp outer with rfl | ⟨front, frontEq, begins⟩
  · exact inner
  · rcases topicMatches_iff.mp inner with rfl | ⟨middle, middleEq, continues⟩
    · exact outer
    · apply topicMatches_iff.mpr
      right
      refine ⟨front, frontEq, ?_⟩
      rw [middleEq] at begins
      have within : front ++ [':'] <+: middle ++ [':'] := by
        have both : middle ++ [':'] <+: middle ++ [':', '*'] := ⟨['*'], by simp⟩
        rcases List.prefix_or_prefix_of_prefix begins both with shorter | longer
        · exact shorter
        · obtain ⟨last, lastEq⟩ := longer
          cases last with
          | nil => exact ⟨[], by simpa using lastEq.symm⟩
          | cons =>
            -- The longer text would end with the star.
            have lengths := begins.length_le
            have split := congrArg List.length lastEq
            simp only [List.length_append, List.length_cons, List.length_nil] at lengths split
            have full := begins.eq_of_length (by simp; omega)
            have ends := congrArg List.getLast? full
            simp at ends
      exact within.trans continues

theorem isExposed_iff {hub : SubscriptionHub} :
    hub.isExposed topic ↔ ∃ entry ∈ hub.exposed, topicMatches entry topic := by
  rw [SubscriptionHub.isExposed, Bool.or_eq_true, List.contains_iff_mem, List.any_eq_true]
  constructor
  · rintro (listed | ⟨entry, member, accepted⟩)
    · exact ⟨topic, listed, topicMatches_refl topic⟩
    · rw [Bool.and_eq_true] at accepted
      exact ⟨entry, member, accepted.2⟩
  · rintro ⟨entry, member, accepted⟩
    rcases topicMatches_iff.mp accepted with rfl | ⟨front, shape, _⟩
    · exact .inl member
    · refine .inr ⟨entry, member, ?_⟩
      rw [accepted, isWildcardTopic_iff.mpr ⟨front, shape⟩]
      rfl

/-- What a colon ends and begins a topic of a plugin has the plugin's namespace
at its front. -/
theorem namespace_of_anchor {front : List Char}
    (owned : ownsEvent manifest.id topic) (begins : front ++ [':'] <+: topic.toList) :
    manifest.id.toList ++ [':'] <+: front ++ [':'] := by
  rcases List.prefix_or_prefix_of_prefix (ownsEvent_iff.mp owned) begins with shorter | longer
  · exact shorter
  · obtain ⟨last, lastEq⟩ := longer
    have cut : manifest.id.toList ++ ':' :: [] = front ++ ':' :: last := by
      simpa using lastEq.symm
    have fronts := ((List.append_cons_inj_of_notMem (colon_not_mem manifest)
      List.not_mem_nil).mp cut).1
    exact fronts ▸ List.prefix_refl _

theorem ownsEvent_of_matches {entry : String}
    (accepted : topicMatches entry topic) (owned : ownsEvent manifest.id topic) :
    ownsEvent manifest.id entry := by
  rcases topicMatches_iff.mp accepted with rfl | ⟨front, shape, begins⟩
  · exact owned
  · have inEntry : front ++ [':'] <+: entry.toList := ⟨['*'], by simp [shape]⟩
    exact ownsEvent_iff.mpr ((namespace_of_anchor owned begins).trans inEntry)

end

section

/-- What the guards of one plugin answer for a topic, whatever its guards are. -/
def PluginHost.verdict (host : PluginHost) (id : String)
    (answers : PluginGuard → String → String → Bool) (peerId topic : String) : Bool :=
  host.guards.entries.all fun entry =>
    !(decide (entry.2.plugin = id) && entry.1.toList.isPrefixOf topic.toList) ||
      answers entry.2 peerId topic

/-- What a plugin has in the host is the same. -/
structure SameView (id : String) (before after : PluginHost) : Prop where
  skills : ∀ name, after.skills.get (brokerKey id name) = before.skills.get (brokerKey id name)
  hooks : after.hooks.filter (fun run => ownsEvent id run.event) =
    before.hooks.filter (fun run => ownsEvent id run.event)
  exposed : ∀ topic, ownsEvent id topic = true →
    after.hub.isExposed topic = before.hub.isExposed topic
  verdict : ∀ answers peerId topic, ownsEvent id topic = true →
    after.verdict id answers peerId topic = before.verdict id answers peerId topic

variable {id : String}

theorem SameView.refl (id : String) (host : PluginHost) : SameView id host host :=
  ⟨fun _ => rfl, rfl, fun _ _ => rfl, fun _ _ _ _ => rfl⟩

theorem SameView.symm {before after : PluginHost}
    (same : SameView id before after) : SameView id after before where
  skills := fun name => (same.skills name).symm
  hooks := same.hooks.symm
  exposed := fun topic owned => (same.exposed topic owned).symm
  verdict := fun answers peerId topic owned => (same.verdict answers peerId topic owned).symm

theorem SameView.trans {first second third : PluginHost}
    (earlier : SameView id first second) (later : SameView id second third) :
    SameView id first third where
  skills := fun name => (later.skills name).trans (earlier.skills name)
  hooks := later.hooks.trans earlier.hooks
  exposed := fun topic owned => (later.exposed topic owned).trans (earlier.exposed topic owned)
  verdict := fun answers peerId topic owned =>
    (later.verdict answers peerId topic owned).trans (earlier.verdict answers peerId topic owned)

theorem verdict_iff {host : PluginHost}
    {answers : PluginGuard → String → String → Bool} {peerId topic : String} :
    host.verdict id answers peerId topic ↔
      ∀ guarded guard, host.guards.get guarded = some guard → guard.plugin = id →
        guarded.toList <+: topic.toList → answers guard peerId topic := by
  rw [PluginHost.verdict, List.all_eq_true]
  constructor
  · intro all guarded guard found owner anchors
    have answered := all (guarded, guard) (OrderedMap.mem_entries.mpr found)
    rw [Bool.or_eq_true, Bool.not_eq_true', decide_eq_true owner,
      List.isPrefixOf_iff_prefix.mpr anchors] at answered
    exact answered.resolve_left (fun absurdity => nomatch absurdity)
  · rintro all ⟨guarded, guard⟩ member
    rw [Bool.or_eq_true, Bool.not_eq_true', Bool.and_eq_false_iff, decide_eq_false_iff_not]
    by_cases owner : guard.plugin = id
    · cases anchored : guarded.toList.isPrefixOf topic.toList with
      | false => exact .inl (.inr rfl)
      | true =>
        exact .inr (all guarded guard (OrderedMap.mem_entries.mp member) owner
          (List.isPrefixOf_iff_prefix.mp anchored))
    · exact .inl (.inl owner)

end

section

/-- The hub exposes the valid events of the union, and its guards are the
functions that were registered. -/
structure PluginHost.Synced (host : PluginHost) : Prop where
  exposed : host.eventLayer = true → host.hub.exposed = host.exposedEvents.filter isEventTopic
  guards : ∀ guarded, (host.hub.guards.get guarded).isSome = (host.guards.get guarded).isSome
  registered : ∀ guarded, host.guards.get guarded ≠ none →
    host.eventLayer = true ∧ [':'].isSuffixOf guarded.toList = true

variable {settings : HubSettings} {manifest : LoadedManifest} {host : PluginHost}

theorem PluginHost.Synced.sameExposure (synced : host.Synced) {pool : HubPool}
    (same : SameExposure host.hub pool.shared) : PluginHost.Synced { host with pool := pool } where
  exposed := fun layer => same.exposed.trans (synced.exposed layer)
  guards := fun guarded => by
    have guards : pool.shared.guards = host.hub.guards := same.guards
    rw [PluginHost.hub, guards]
    exact synced.guards guarded
  registered := synced.registered

theorem step_sameExposure {pool after : HubPool} {index : Nat} {answer : HubAnswer}
    {events : List (Nat × HubEvent)}
    (stepped : (hubProgram settings).step pool (.resume index answer) = some (after, events)) :
    SameExposure pool.shared after.shared := by
  rcases AsyncCalls.Program.step_cases stepped with
    ⟨_, different, _⟩ | ⟨_, _, _, different, _⟩ | ⟨_, _, _, _, _, _, _, resumed, _⟩
  · cases different
  · cases different
  · exact resumeHub_sameExposure resumed

theorem emitLocal_sameExposure (hub : SubscriptionHub) (topic : String) (payload : JsValue)
    (sweepNow now : Int) : SameExposure hub (emitLocal hub topic payload sweepNow now).hub := by
  rw [emitLocal_hub]
  split <;> exact ⟨rfl, rfl⟩

theorem mem_addAll {added events : List String} {event : String} : event ∈ added.foldl
        (fun events event => if event ∈ events then events else events ++ [event]) events ↔
      event ∈ events ∨ event ∈ added := by
  induction added generalizing events with
  | nil => simp
  | cons first added ih =>
    rw [List.foldl_cons, ih, List.mem_cons]
    split
    · next present =>
        constructor
        · rintro (old | new)
          · exact .inl old
          · exact .inr (.inr new)
        · rintro (old | rfl | new)
          · exact .inl old
          · exact .inl present
          · exact .inr new
    · rw [List.mem_append, List.mem_singleton, or_assoc]

theorem synced_registerSubscriptionGuard (synced : host.Synced) (guarded : String)
    (guard : Option Nat) : (host.registerSubscriptionGuard manifest guarded guard).Synced := by
  unfold PluginHost.registerSubscriptionGuard
  split
  · next layer =>
      split
      · next hub number registers =>
          unfold SubscriptionHub.registerSubscriptionGuard at registers
          split at registers
          · next ends =>
              cases registers
              constructor
              · exact synced.exposed
              · intro other
                simp only [PluginHost.hub, PluginHost.withHub, OrderedMap.get_set]
                split
                · rfl
                · exact synced.guards other
              · intro other present
                simp only [OrderedMap.get_set] at present
                split at present
                · next same =>
                    rw [same]
                    exact ⟨layer, ends⟩
                · exact synced.registered other present
          · cases registers
      · exact synced
  · exact synced

theorem synced_perform (synced : host.Synced) (call : PluginCall) :
    (host.perform settings manifest call).Synced := by
  unfold PluginHost.perform
  cases call with
  | activated =>
    simp only [PluginHost.call, PluginHost.activated, PluginHost.syncExposedEvents]
    split
    · exact ⟨fun _ => rfl, synced.guards, synced.registered⟩
    · next absent =>
        exact ⟨fun present => absurd present absent, synced.guards, synced.registered⟩
  | registerSkill =>
    simp only [PluginHost.call, PluginHost.registerSkill]
    split
    · next after performed =>
        split at performed
        · cases performed
        · split at performed
          · cases performed
          · cases performed
            exact ⟨synced.exposed, synced.guards, synced.registered⟩
    · exact synced
  | unregisterSkill => exact ⟨synced.exposed, synced.guards, synced.registered⟩
  | emit =>
    simp only [PluginHost.call, PluginHost.emit, PluginHost.runHook]
    split
    · next after performed =>
        split at performed
        · cases performed
        · cases performed
          exact ⟨synced.exposed, synced.guards, synced.registered⟩
    · exact synced
  | applyFilters =>
    simp only [PluginHost.call, PluginHost.applyFilters, PluginHost.runHook]
    split
    · next after performed =>
        split at performed
        · cases performed
        · cases performed
          exact ⟨synced.exposed, synced.guards, synced.registered⟩
    · exact synced
  | publishRemote topic payload sweepNow now =>
    simp only [PluginHost.call, PluginHost.publishRemote]
    split
    · next after performed =>
        split at performed
        · cases performed
        · split at performed
          · cases performed
            exact synced.sameExposure (emitLocal_sameExposure host.hub topic payload sweepNow now)
          · cases performed
    · exact synced
  | registerSubscriptionGuard guarded guard =>
    exact synced_registerSubscriptionGuard synced guarded guard
  | resumed =>
    simp only [PluginHost.call, PluginHost.resumeHub]
    split
    · exact synced
    · next pool events stepped => exact synced.sameExposure (step_sameExposure stepped)

end

variable {settings : HubSettings} {mine theirs : LoadedManifest} {host : PluginHost}

/-- The condition on a call, of one plugin for the sake of another: its manifest
lists no topic of the other's namespace that is not exposed already, and it
registers no guard where one of the other's stands for topics of its namespace,
unless the same guard stands for them under a shorter namespace as well. -/
def Respects (theirs mine : LoadedManifest) (host : PluginHost) : PluginCall → Prop
  | .activated => host.eventLayer = true → ∀ event ∈ mine.exposedEvents,
      isEventTopic event = true → ownsEvent theirs.id event = true → host.hub.isExposed event = true
  | .registerSubscriptionGuard guarded guard => guard.isSome = true →
      ∀ standing, host.guards.get guarded = some standing → standing.plugin = theirs.id →
        ownsEvent theirs.id guarded = true →
          ∃ shorter, shorter ≠ guarded ∧ shorter.toList <+: guarded.toList ∧
            host.guards.get shorter = some standing
  | _ => True

section

variable (apart : mine.id ≠ theirs.id)
include apart

theorem sameView_skills {skills : Sandbox.Skills}
    (kept : ∀ key, (∀ own, key ≠ brokerKey mine.id own) → skills.get key = host.skills.get key) :
    SameView theirs.id host { host with skills := skills } where
  skills := fun _ => kept _ fun _ same => brokerKey_ne apart _ _ same.symm
  hooks := rfl
  exposed := fun _ _ => rfl
  verdict := fun _ _ _ _ => rfl

theorem sameView_registerSkill {skillName : String}
    {handler : Nat} {options : Sandbox.RawOptions} {after : PluginHost}
    (registered : host.registerSkill mine skillName handler options = .ok after) :
    SameView theirs.id host after := by
  unfold PluginHost.registerSkill at registered
  split at registered
  · cases registered
  · split at registered
    · cases registered
    · next skills stored =>
        cases registered
        apply sameView_skills apart
        intro key foreign
        rw [Sandbox.registerSkill_stored stored, OrderedMap.get_set_of_ne _ _ (foreign skillName)]

theorem sameView_runHook {verb : String} {run : HookRun}
    {after : PluginHost} (ran : host.runHook mine verb run = .ok after) :
    SameView theirs.id host after := by
  unfold PluginHost.runHook at ran
  split at ran
  · cases ran
  · next owned =>
      cases ran
      have own : ownsEvent mine.id run.event := by
        unfold assertOwnNamespace at owned
        split at owned
        · assumption
        · cases owned
      have foreign : ownsEvent theirs.id run.event = false := by
        by_contra both
        exact apart (ownsEvent_unique own (by simpa using both))
      constructor
      · exact fun _ => rfl
      · simp [List.filter_append, foreign]
      · exact fun _ _ => rfl
      · exact fun _ _ _ _ => rfl

end

theorem sameView_pool {pool : HubPool} (same : SameExposure host.hub pool.shared) :
    SameView theirs.id host { host with pool := pool } where
  skills := fun _ => rfl
  hooks := rfl
  exposed := fun topic _ => same.isExposed topic
  verdict := fun _ _ _ _ => rfl

/-- An activation leaves another plugin's topics as they are exactly when those
that it lists are exposed already. -/
theorem activated_sameView_iff (synced : host.Synced) :
    SameView theirs.id host (host.activated mine) ↔ Respects theirs mine host .activated := by
  by_cases layer : host.eventLayer
  · have exposure : (host.activated mine).hub.exposed =
        (host.activated mine).exposedEvents.filter isEventTopic := by
      simp [PluginHost.activated, PluginHost.syncExposedEvents, layer, PluginHost.hub,
        PluginHost.withHub, SubscriptionHub.setExposedEvents]
    have union (event : String) : event ∈ (host.activated mine).exposedEvents ↔
        event ∈ host.exposedEvents ∨ event ∈ mine.exposedEvents := by
      simp only [PluginHost.activated, PluginHost.syncExposedEvents, layer, if_true,
        PluginHost.withHub]
      exact mem_addAll
    have entries (event : String) : event ∈ (host.activated mine).hub.exposed ↔
        event ∈ host.hub.exposed ∨ event ∈ mine.exposedEvents ∧ isEventTopic event := by
      rw [exposure, synced.exposed layer, List.mem_filter, List.mem_filter, union]
      tauto
    constructor
    · intro same _ event listed valid owned
      rw [← same.exposed event owned]
      exact isExposed_iff.mpr ⟨event, (entries event).mpr (.inr ⟨listed, valid⟩),
        topicMatches_refl event⟩
    · intro respects
      have rest : (host.activated mine).skills = host.skills ∧
          (host.activated mine).hooks = host.hooks ∧
            (host.activated mine).guards = host.guards := by
        simp [PluginHost.activated, PluginHost.syncExposedEvents, layer, PluginHost.withHub]
      constructor
      · exact fun _ => by rw [rest.1]
      · rw [rest.2.1]
      · intro topic owned
        rw [Bool.eq_iff_iff, isExposed_iff, isExposed_iff]
        constructor
        · rintro ⟨entry, member, accepted⟩
          rcases (entries entry).mp member with old | ⟨listed, valid⟩
          · exact ⟨entry, old, accepted⟩
          · have opened := respects layer entry listed valid (ownsEvent_of_matches accepted owned)
            obtain ⟨outer, outerMember, outerMatches⟩ := isExposed_iff.mp opened
            exact ⟨outer, outerMember, topicMatches_trans outerMatches accepted⟩
        · rintro ⟨entry, member, accepted⟩
          exact ⟨entry, (entries entry).mpr (.inl member), accepted⟩
      · intro answers peerId topic owned
        simp only [PluginHost.verdict, rest.2.2]
  · constructor
    · exact fun _ present => absurd present layer
    · intro _
      have unchanged : (host.activated mine).skills = host.skills ∧
          (host.activated mine).hooks = host.hooks ∧
            (host.activated mine).guards = host.guards ∧ (host.activated mine).hub = host.hub := by
        simp [PluginHost.activated, PluginHost.syncExposedEvents, layer, PluginHost.hub]
      constructor
      · exact fun _ => by rw [unchanged.1]
      · rw [unchanged.2.1]
      · intro topic _
        rw [unchanged.2.2.2]
      · intro answers peerId topic _
        simp only [PluginHost.verdict, unchanged.2.2.1]

/-- A registration of a guard keeps another plugin's verdicts exactly when it
replaces none of its guards, or one that stands elsewhere as well. -/
theorem guard_sameView_iff (synced : host.Synced) (apart : mine.id ≠ theirs.id)
    (guarded : String) (guard : Option Nat) :
    SameView theirs.id host (host.registerSubscriptionGuard mine guarded guard) ↔
      Respects theirs mine host (.registerSubscriptionGuard guarded guard) := by
  by_cases accepted : host.eventLayer ∧ [':'].isSuffixOf guarded.toList ∧
      guard.isSome
  · obtain ⟨layer, ends, isFunction⟩ := accepted
    obtain ⟨number, rfl⟩ := Option.isSome_iff_exists.mp isFunction
    have registered : host.registerSubscriptionGuard mine guarded (some number) =
        { host.withHub { host.hub with guards := host.hub.guards.set guarded () } with
          guards := host.guards.set guarded ⟨mine.id, number⟩ } := by
      simp only [PluginHost.registerSubscriptionGuard, layer, if_true,
        SubscriptionHub.registerSubscriptionGuard, ends]
    rw [registered]
    constructor
    · intro same _ standing found owner owned
      let answers : PluginGuard → String → String → Bool := fun guard _ _ =>
        decide (guard ≠ standing)
      have denied : host.verdict theirs.id answers "" guarded = false := by
        by_contra granted
        have answered := verdict_iff.mp (by simpa using granted) guarded standing found owner
          (List.prefix_refl _)
        exact (of_decide_eq_true answered) rfl
      rw [← same.verdict answers "" guarded owned, ← Bool.not_eq_true, verdict_iff] at denied
      push Not at denied
      obtain ⟨shorter, guard, stands, theirOwn, anchors, answered⟩ := denied
      have sameGuard : guard = standing := by simpa [answers] using answered
      rw [OrderedMap.get_set] at stands
      split at stands
      · cases stands
        exact absurd theirOwn apart
      · next other => exact ⟨shorter, other, anchors, sameGuard ▸ stands⟩
    · intro respects
      constructor
      · exact fun _ => rfl
      · rfl
      · exact fun _ _ => rfl
      · intro answers peerId topic owned
        rw [Bool.eq_iff_iff, verdict_iff, verdict_iff]
        constructor
        · intro granted name guard found owner anchors
          by_cases replaced : name = guarded
          · subst replaced
            obtain ⟨front, frontEq⟩ := List.isSuffixOf_iff_suffix.mp ends
            have ownName : ownsEvent theirs.id name := by
              rw [← frontEq] at anchors
              rw [ownsEvent_iff, ← frontEq]
              exact namespace_of_anchor owned anchors
            obtain ⟨shorter, other, begins, stands⟩ :=
              respects rfl guard found owner ownName
            exact granted shorter guard ((OrderedMap.get_set_of_ne _ _ other).trans stands) owner
              (begins.trans anchors)
          · exact granted name guard ((OrderedMap.get_set_of_ne _ _ replaced).trans found) owner
              anchors
        · intro granted name guard found owner anchors
          rw [OrderedMap.get_set] at found
          split at found
          · cases found
            exact absurd owner apart
          · exact granted name guard found owner anchors
  · have unchanged : host.registerSubscriptionGuard mine guarded guard = host := by
      unfold PluginHost.registerSubscriptionGuard
      split
      · next layer =>
          unfold SubscriptionHub.registerSubscriptionGuard
          split
          · next hub number registers =>
              split at registers
              · next ends => exact absurd ⟨layer, ends, rfl⟩ accepted
              · cases registers
          · rfl
      · rfl
    rw [unchanged]
    constructor
    · intro _ isFunction standing found
      obtain ⟨layer, ends⟩ := synced.registered guarded (by simp [found])
      exact absurd ⟨layer, ends, isFunction⟩ accepted
    · exact fun _ => .refl _ _

theorem perform_sameView_iff (synced : host.Synced) (apart : mine.id ≠ theirs.id)
    (call : PluginCall) :
    SameView theirs.id host (host.perform settings mine call) ↔ Respects theirs mine host call := by
  have harmless {after : PluginHost} (same : SameView theirs.id host after) :
      SameView theirs.id host after ↔ True := iff_true_intro same
  unfold PluginHost.perform
  cases call with
  | activated => exact activated_sameView_iff synced
  | registerSubscriptionGuard guarded guard => exact guard_sameView_iff synced apart guarded guard
  | registerSkill =>
    apply harmless
    split
    · next after registered => exact sameView_registerSkill apart registered
    · exact .refl _ _
  | unregisterSkill skillName =>
    apply harmless
    apply sameView_skills apart
    exact fun key foreign => OrderedMap.get_delete_of_ne _ (foreign skillName)
  | emit | applyFilters =>
    apply harmless
    split
    · next after ran => exact sameView_runHook apart ran
    · exact .refl _ _
  | publishRemote topic payload sweepNow now =>
    apply harmless
    simp only [PluginHost.call, PluginHost.publishRemote]
    split
    · next after performed =>
        split at performed
        · cases performed
        · split at performed
          · cases performed
            exact sameView_pool (emitLocal_sameExposure host.hub topic payload sweepNow now)
          · cases performed
    · exact .refl _ _
  | resumed =>
    apply harmless
    simp only [PluginHost.call, PluginHost.resumeHub]
    split
    · exact .refl _ _
    · next pool events stepped => exact sameView_pool (step_sameExposure stepped)

theorem performAll_append (host : PluginHost) (done : List PluginCall) (call : PluginCall) :
    host.performAll settings mine (done ++ [call]) =
      (host.performAll settings mine done).perform settings mine call := by
  simp only [PluginHost.performAll, List.foldl_append, List.foldl_cons, List.foldl_nil]

theorem synced_performAll (synced : host.Synced) (calls : List PluginCall) :
    (host.performAll settings mine calls).Synced := by
  induction calls using List.reverseRecOn with
  | nil => exact synced
  | append_singleton done call ih =>
    rw [performAll_append]
    exact synced_perform ih call

def plainManifest (id : String) (exposedEvents : List String) (valid : isPluginId id = true) :
    LoadedManifest where
  id := id
  permissions := []
  exposedEvents := exposedEvents
  valid := valid

def calendarManifest : LoadedManifest :=
  plainManifest "calendar" ["calendar:added"] (by decide)

def privateManifest : LoadedManifest :=
  plainManifest "private" [] (by decide)

def nosyManifest : LoadedManifest :=
  plainManifest "nosy" ["private:note"] (by decide)

def bootedHost : PluginHost where
  skills := .empty
  hooks := []
  exposedEvents := []
  pool := ⟨(SubscriptionHub.new [] {}).toOption.get (by decide), []⟩
  guards := .empty
  eventLayer := true

theorem bootedHost_synced : bootedHost.Synced where
  exposed := fun _ => rfl
  guards := fun _ => rfl
  registered := fun _ present => absurd rfl present

end P2PHub.Plugins
