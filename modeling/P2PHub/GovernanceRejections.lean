import P2PHub.GovernanceAgreement
import P2PHub.PALManager

/-!
# Rejected governance writes

The matrix, the rule store and the PAL manager change the memory before the
awaited write, and nothing takes the change back.
-/

namespace P2PHub.PAL

open SnapshotStore Manager AsyncCalls

variable {locale : JsonString → JsonString → Bool} {request : RuleRequest}

/-- No field of the filter of an added rule is named `__proto__`. -/
def AddsPlain : RuleRequest → Prop
  | .add raw => ∀ rule, validatePALRule raw.value = .ok rule → rule.Plain
  | .remove _ => True

/-- No awaited operation fails, the filters of added rules are plain, and a
request that is refused finds no other call under way. -/
def ManagerWrites (_ : List (Nat × ManagerEvent)) (pool : Pool Manager ManagerCall) :
    Label ManagerRequest Answer → Prop
  | .launch (.change request) => AddsPlain request ∧
      (applyRules pool.shared.store.memory request = .refused →
        ∀ call ∈ pool.calls, call = .settled)
  | .launch .stop => True
  | .resume _ answer => answer ≠ .failed

/-- The store is as it was, and the engine of a running manager has the stored
rules. -/
def ManagerEvent.Faithful (locale : JsonString → JsonString → Bool) : ManagerEvent → Prop
  | resolved => True
  | rejected before after running active =>
    after = before ∧ (running = true → active = listRules locale after)

def Manager.Live (locale : JsonString → JsonString → Bool) (manager : Manager) : Prop :=
  manager.running = true → manager.activeRules = listRules locale manager.store.memory

def ManagerCall.Sound : ManagerCall → Prop
  | storing call => call.phase.Sound
  | _ => True

structure ManagerHolds (locale : JsonString → JsonString → Bool)
    (history : List (Nat × ManagerEvent)) (pool : Pool Manager ManagerCall) : Prop where
  rules : RulesHold pool.shared.store.memory ∧ RulesPlain pool.shared.store.memory
  sound : ∀ call ∈ pool.calls, call.Sound
  live : (∀ call ∈ pool.calls, call = .settled) → pool.shared.Live locale
  faithful : ∀ event ∈ history, event.2.Faithful locale

theorem RulesPlain.apply {rules after : RuleSet} (plain : RulesPlain rules)
    (adds : AddsPlain request) (applied : applyRules rules request = .changed after) :
    RulesPlain after := by
  intro ruleId rule found
  cases request with
  | add =>
    simp only [applyRules] at applied
    split at applied
    · next added checked =>
        obtain rfl := StoreVerdict.changed.inj applied
        rw [OrderedMap.get_set] at found
        split at found
        · obtain rfl := Option.some.inj found
          exact adds added (checkRule_valid checked)
        · exact plain ruleId rule found
    · cases applied
  | remove =>
    simp only [applyRules] at applied
    split at applied
    · obtain rfl := StoreVerdict.changed.inj applied
      rw [OrderedMap.get_delete] at found
      split at found
      · cases found
      · exact plain ruleId rule found
    · cases applied

theorem plain_of_validatePALRules {list valid : List PALRule} {seen : List JsonString}
    (validated : validatePALRules seen list = some valid) : ∀ rule ∈ list, rule.Plain := by
  induction list generalizing seen valid with
  | nil => exact List.forall_mem_nil _
  | cons rule list ih =>
    rw [validatePALRules, Option.bind_eq_bind, Option.bind_eq_some_iff] at validated
    obtain ⟨first, revalidated, validated⟩ := validated
    split at validated
    · cases validated
    · rw [Option.bind_eq_bind, Option.bind_eq_some_iff] at validated
      obtain ⟨others, rest, _⟩ := validated
      refine List.forall_mem_cons.mpr ⟨?_, ih rest⟩
      by_contra rough
      rw [PALRule.revalidate, if_neg rough] at revalidated
      cases revalidated

theorem managerHolds_start {file : Option Json} {manager : Manager}
    (distinct : ∀ content ∈ file, Json.Distinct content)
    (started : start locale file = some manager) : ManagerHolds locale [] (.initial manager) := by
  unfold start at started
  split at started
  · next rules loaded =>
      split at started
      · next rebuilt =>
          cases started
          have holds := rulesHold_loadRules distinct loaded
          have plain : RulesPlain rules := by
            intro ruleId rule found
            unfold rebuildEngine at rebuilt
            split at rebuilt
            · next valid validated =>
                exact plain_of_validatePALRules validated rule (listRules_of_get found)
            · cases rebuilt
          have same := @rebuildEngine_eq locale ⟨.start rules file, none, true⟩ holds plain
          cases same.symm.trans rebuilt
          exact ⟨⟨holds, plain⟩, List.forall_mem_nil _, fun _ _ => rfl, List.forall_mem_nil _⟩
      · cases started
  · cases started

variable {history : List (Nat × ManagerEvent)} {pool : Pool Manager ManagerCall}
  {after : Manager} {call next : ManagerCall} {events : List ManagerEvent}

section

variable (holds : ManagerHolds locale history pool)
include holds

theorem ManagerHolds.launch (permitted : ManagerWrites history pool (.launch (.change request)))
    (launched : Manager.launch locale pool.shared (.change request) = (after, some (call, events)))
    : (RulesHold after.store.memory ∧ RulesPlain after.store.memory) ∧ call.Sound ∧
      ((∀ other ∈ pool.calls, other = .settled) → call = .settled → after.Live locale) ∧
      ∀ event ∈ events, event.Faithful locale := by
  cases stored : SnapshotStore.launch (ruleStore locale) pool.shared.store request with
  | mk =>
    obtain ⟨storeCall, emitted, rfl, _⟩ := launch_cases stored
    simp only [Manager.launch, stored] at launched
    cases launch_launched stored with
    | refused refuses =>
      obtain ⟨rfl, rfl, rfl⟩ := launched
      have live := holds.live (permitted.2 refuses)
      exact ⟨holds.rules, True.intro, fun _ _ => live, List.forall_mem_singleton.mpr ⟨rfl, live⟩⟩
    | unchanged =>
      obtain ⟨rfl, rfl, rfl⟩ := launched
      exact ⟨holds.rules, True.intro, fun all _ => holds.live all,
        List.forall_mem_singleton.mpr True.intro⟩
    | changed changes sound =>
      obtain ⟨rfl, rfl, rfl⟩ := launched
      exact ⟨⟨holds.rules.1.apply changes, holds.rules.2.apply permitted.1 changes⟩, sound,
        fun _ => nofun, List.forall_mem_nil _⟩

theorem ManagerHolds.resume {answer : Answer} (done : answer ≠ .failed) (sound : call.Sound)
    (resumed : Manager.resume locale pool.shared call answer = some (after, next, events)) :
    (RulesHold after.store.memory ∧ RulesPlain after.store.memory) ∧ next.Sound ∧
      (next = .settled → after.Live locale) ∧ ∀ event ∈ events, event.Faithful locale := by
  cases call with
  | storing =>
    obtain ⟨⟨store, storeNext, emitted⟩, turned, followed⟩ := Option.map_eq_some_iff.mp resumed
    obtain ⟨kept, _⟩ := resume_turn turned
    obtain ⟨nextSound, cases⟩ := resume_succeeds sound done turned
    have rules : RulesHold store.memory ∧ RulesPlain store.memory := by
      rw [kept.memory]
      exact holds.rules
    rcases cases with rfl | rfl <;> obtain ⟨rfl, rfl, rfl⟩ := followed
    · exact ⟨rules, nextSound, nofun, List.forall_mem_nil _⟩
    · exact ⟨rules, True.intro, nofun, List.forall_mem_nil _⟩
  | rebuilding =>
    simp only [Manager.resume, Manager.rebuildEngine_eq holds.rules.1 holds.rules.2] at resumed
    cases resumed
    refine ⟨holds.rules, True.intro, fun _ running => ?_, List.forall_mem_singleton.mpr True.intro⟩
    exact if_pos running
  | settled => cases resumed

theorem ManagerHolds.step {outputs : List (Nat × ManagerEvent)}
    {label : Label ManagerRequest Answer} {afterPool : Pool Manager ManagerCall}
    (permitted : ManagerWrites history pool label)
    (stepped : (managerProgram locale).step pool label = some (afterPool, outputs)) :
    ManagerHolds locale (history ++ outputs) afterPool := by
  rcases Program.step_cases stepped with
    ⟨action, rfl, launched, callsEq, rfl⟩ | ⟨action, call, emitted, rfl, launched, callsEq, rfl⟩ |
    ⟨index, answer, call, next, emitted, rfl, found, resumed, callsEq, rfl⟩
  · cases action with
    | change request =>
      cases stored : SnapshotStore.launch (ruleStore locale) pool.shared.store request with
      | mk =>
        obtain ⟨storeCall, emitted, rfl, _⟩ := launch_cases stored
        simp only [managerProgram, Manager.launch, stored] at launched
        split at launched
        · cases (Prod.mk.inj launched).2
        · cases (Prod.mk.inj launched).2
    | stop =>
      obtain ⟨same, _⟩ := Prod.mk.inj launched
      rw [List.append_nil]
      refine ⟨?_, ?_, fun _ running => ?_, holds.faithful⟩
      · rw [← same]
        exact holds.rules
      · rw [callsEq]
        exact holds.sound
      · rw [← same] at running
        cases running
  · cases action with
    | change =>
      obtain ⟨rules, sound, live, faithful⟩ := holds.launch permitted launched
      constructor
      · exact rules
      · rw [callsEq]
        exact List.forall_mem_append.mpr ⟨holds.sound, List.forall_mem_singleton.mpr sound⟩
      · intro all
        rw [callsEq] at all
        obtain ⟨earlier, last⟩ := List.forall_mem_append.mp all
        exact live earlier (last call (List.mem_singleton_self call))
      · exact List.forall_mem_append.mpr ⟨holds.faithful, List.forall_mem_map.mpr faithful⟩
    | stop => cases (Prod.mk.inj launched).2
  · have member := List.mem_of_getElem? found
    obtain ⟨rules, sound, live, faithful⟩ :=
      holds.resume permitted (holds.sound call member) resumed
    have bound := (List.getElem?_eq_some_iff.mp found).1
    constructor
    · exact rules
    · rw [callsEq]
      intro other inside
      rcases List.mem_or_eq_of_mem_set inside with old | rfl
      · exact holds.sound other old
      · exact sound
    · intro all
      rw [callsEq] at all
      exact live (all next (List.mem_set bound next))
    · exact List.forall_mem_append.mpr ⟨holds.faithful, List.forall_mem_map.mpr faithful⟩

end

theorem manager_rejections {file : Option Json} {manager : Manager}
    (distinct : ∀ content ∈ file, Json.Distinct content)
    (started : start locale file = some manager)
    (runs : Transition.Runs (managerProgram locale).step ManagerWrites (.initial manager)
      history pool) : ∀ event ∈ history, event.2.Faithful locale := by
  refine (runs.invariant (ManagerHolds locale) (managerHolds_start distinct started) ?_).faithful
  intro _ _ _ _ _ holds permitted stepped
  exact holds.step permitted stepped

end P2PHub.PAL

namespace P2PHub.Governance

open SnapshotStore PAL

/-- A rejected call leaves the matrix, the rules and the engine as they were, in
every run without a failure. -/
theorem governance_rejections (locale : JsonString → JsonString → Bool) :
    (∀ file matrix history pool index before after,
      Transition.Runs (program (matrixStore locale)).step NeverFails
        (.initial (.start matrix file)) history pool →
      (index, Event.rejected before after) ∈ history → after = before) ∧
    (∀ file rules history pool index before after,
      Transition.Runs (program (ruleStore locale)).step NeverFails
        (.initial (.start rules file)) history pool →
      (index, Event.rejected before after) ∈ history → after = before) ∧
    ∀ file manager history pool, (∀ content ∈ file, Json.Distinct content) →
      Manager.start locale file = some manager →
      Transition.Runs (managerProgram locale).step ManagerWrites (.initial manager) history pool →
      ∀ event ∈ history, event.2.Faithful locale :=
  ⟨fun _ _ _ _ _ _ _ runs rejected => rejected_unchanged runs rejected,
    fun _ _ _ _ _ _ _ runs rejected => rejected_unchanged runs rejected,
    fun _ _ _ _ distinct started runs => manager_rejections distinct started runs⟩

def emptyManager : Manager := ⟨.start .empty none, some ⟨[], true⟩, true⟩

/-- A manager without rules refuses what is no rule. -/
theorem governance_rejections_no_rule :
    (ManagerEvent.rejected .empty .empty true []).Faithful fun _ _ => true := by
  have listed : listRules (fun _ _ => true) .empty = [] := List.mergeSort_nil
  have started : Manager.start (fun _ _ => true) none = some emptyManager := by
    have rebuilt : Manager.rebuildEngine (fun _ _ => true) ⟨.start .empty none, none, true⟩ =
        (emptyManager, true) := by
      rw [Manager.rebuildEngine]
      simp only [State.start, listed]
      rfl
    simp only [Manager.start, loadRules, rebuilt]
  have stepped : (managerProgram fun _ _ => true).step (.initial emptyManager)
      (.launch (.change (.add ⟨.null, .null⟩))) =
        some (⟨emptyManager, [.settled]⟩, [(0, .rejected .empty .empty true [])]) := rfl
  have permitted : ManagerWrites [] (.initial emptyManager)
      (.launch (.change (.add ⟨.null, .null⟩))) :=
    ⟨fun _ validated => (by cases validated), fun _ => List.forall_mem_nil _⟩
  exact (governance_rejections fun _ _ => true).2.2 none emptyManager _ _
    (fun _ member => by cases member) started (.tail .refl permitted stepped) (0, _)
    (List.mem_singleton_self _)

/-- The lock file cannot be created: the call is rejected and the entry stays. -/
theorem rejected_entry_stays :
    ¬ ∀ (locale : JsonString → JsonString → Bool) file matrix history pool index before after,
      Transition.Runs (program (matrixStore locale)).step Transition.unrestricted
        (.initial (.start matrix file)) history pool →
      (index, Event.rejected before after) ∈ history → after = before := by
  intro unchanged
  obtain ⟨history, pool, runs, stays⟩ := Transition.exists_runs_of_any
    (program (matrixStore fun _ _ => true)).step (fun _ => True) (.initial (.start .empty none))
    [setQuiet firstPeer, .resume 0 .failed]
    (fun result => result.2.any fun event =>
      match event.2 with
      | .rejected before after => (before.get firstPeer).isNone && (after.get firstPeer).isSome
      | .resolved => false)
    (fun _ _ => True.intro) (by decide +kernel)
  obtain ⟨⟨index, event⟩, member, stays⟩ := List.any_eq_true.mp stays
  cases event with
  | resolved => cases stays
  | rejected before after =>
    obtain ⟨absent, present⟩ := Bool.and_eq_true_iff.mp stays
    rw [unchanged (fun _ _ => true) none .empty history pool index before after
      runs.unrestrict member] at present
    rw [Option.isNone_iff_eq_none] at absent
    rw [absent] at present
    cases present

end P2PHub.Governance
