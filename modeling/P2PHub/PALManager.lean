import P2PHub.PALRuleStore

/-!
# The PAL manager

`PALManager` of `apps/core-server/src/pal/manager.ts`: the rule store together
with the execution engine, which is built anew from the stored rules after every
change.  The engine validates its rules again; when it refuses one, the old
engine stays behind, without its subscriptions.
-/

namespace P2PHub.PAL

open Json SnapshotStore

/-- `PALExecutionEngine`: its rules and whether it has subscribed them. -/
structure Engine where
  rules : List PALRule
  started : Bool

def Engine.stop (engine : Engine) : Engine :=
  { engine with started := false }

def PALRule.Plain (rule : PALRule) : Prop :=
  ∀ filter ∈ rule.filter, filter.plain = true

instance (rule : PALRule) : Decidable rule.Plain :=
  inferInstanceAs (Decidable (∀ filter ∈ rule.filter, filter.plain = true))

/-- `validatePALRule` of a rule in memory, whose filter can have a prototype. -/
def PALRule.revalidate (rule : PALRule) : Option PALRule :=
  if rule.Plain then (validatePALRule rule.json).toOption else none

/-- The loop of `validatePALRules`, with the ids that it has seen. -/
def validatePALRules (seen : List JsonString) : List PALRule → Option (List PALRule)
  | [] => some []
  | rule :: rules => do
      let valid ← rule.revalidate
      if valid.id ∈ seen then none
      else
        let others ← validatePALRules (valid.id :: seen) rules
        return valid :: others

section

structure Manager where
  store : State RuleSet Json
  engine : Option Engine
  running : Bool

inductive ManagerRequest
  | change (request : RuleRequest)
  | stop

/-- A call of `add` or `remove`, at its awaits. -/
inductive ManagerCall
  | storing (call : Call RuleSet Json)
  | rebuilding (before : RuleSet)
  | settled

/-- A rejection is observed with the store before and after the call, whether
the manager runs, and the rules that are subscribed. -/
inductive ManagerEvent
  | resolved
  | rejected (before after : RuleSet) (running : Bool) (active : List PALRule)

def Manager.activeRules (manager : Manager) : List PALRule :=
  match manager.engine with
  | some engine => if engine.started then engine.rules else []
  | none => []

def Manager.stop (manager : Manager) : Manager :=
  { manager with running := false, engine := none }

def Manager.rejection (manager : Manager) (before : RuleSet) : ManagerEvent :=
  .rejected before manager.store.memory manager.running manager.activeRules

-- The order of `localeCompare`.
variable (locale : JsonString → JsonString → Bool)

def Manager.rebuildEngine (manager : Manager) : Manager × Bool :=
  match validatePALRules [] (listRules locale manager.store.memory) with
  | some rules => ({ manager with engine := some ⟨rules, manager.running⟩ }, true)
  | none => ({ manager with engine := manager.engine.map Engine.stop }, false)

/-- `start`, unless the file or the engine is refused. -/
def Manager.start (file : Option Json) : Option Manager :=
  match loadRules file with
  | some rules =>
    match Manager.rebuildEngine locale ⟨.start rules file, none, true⟩ with
    | (manager, true) => some manager
    | (_, false) => none
  | none => none

def Manager.follow (manager : Manager) (call : Call RuleSet Json) :
    List (Event RuleSet) → ManagerCall × List ManagerEvent
  | [] => (.storing call, [])
  | .resolved :: _ => (.rebuilding call.before, [])
  | .rejected before _ :: _ => (.settled, [manager.rejection before])

def Manager.launch (manager : Manager) :
    ManagerRequest → Manager × Option (ManagerCall × List ManagerEvent)
  | .stop => (manager.stop, none)
  | .change request =>
    match SnapshotStore.launch (ruleStore locale) manager.store request with
    | (store, some (call, events)) =>
      let after := { manager with store }
      -- A `remove` that finds no rule does not rebuild the engine.
      match events with
      | .resolved :: _ => (after, some (.settled, [.resolved]))
      | events => (after, some (after.follow call events))
    | (store, none) => ({ manager with store }, none)

def Manager.resume (manager : Manager) (call : ManagerCall) (answer : Answer) :
    Option (Manager × ManagerCall × List ManagerEvent) :=
  match call with
  | .storing call =>
    (SnapshotStore.resume (ruleStore locale) manager.store call answer).map
      fun (store, next, events) =>
        let after := { manager with store }
        (after, after.follow next events)
  | .rebuilding before =>
    let (after, built) := manager.rebuildEngine locale
    some (after, .settled, [if built then .resolved else after.rejection before])
  | .settled => none

def managerProgram : AsyncCalls.Program Manager ManagerRequest ManagerCall Answer ManagerEvent where
  launch := Manager.launch locale
  resume := Manager.resume locale

end

variable {locale : JsonString → JsonString → Bool} {rules : RuleSet}

def RulesPlain (rules : RuleSet) : Prop :=
  ∀ ruleId rule, rules.get ruleId = some rule → rule.Plain

theorem PALRule.Plain.own_eq {rule : PALRule} (plain : rule.Plain) : rule.own = rule := by
  obtain ⟨ruleId, name, trigger, filter, action⟩ := rule
  cases filter with
  | none => rfl
  | some filter =>
    obtain ⟨fields, isPlain⟩ := filter
    obtain rfl : isPlain := plain _ rfl
    rfl

theorem PALRule.Plain.revalidate {rule : PALRule} (plain : rule.Plain) (valid : rule.Valid) :
    rule.revalidate = some rule := by
  rw [PALRule.revalidate, if_pos plain, validatePALRule_json valid, plain.own_eq]
  rfl

theorem validatePALRules_eq (list : List PALRule) (seen : List JsonString)
    (valid : ∀ rule ∈ list, rule.Valid ∧ rule.Plain) (nodup : (list.map PALRule.id).Nodup)
    (fresh : ∀ rule ∈ list, rule.id ∉ seen) : validatePALRules seen list = some list := by
  induction list generalizing seen with
  | nil => rfl
  | cons rule list ih =>
    obtain ⟨first, others⟩ := List.forall_mem_cons.mp valid
    obtain ⟨firstFresh, fresh⟩ := List.forall_mem_cons.mp fresh
    obtain ⟨apart, nodup⟩ := List.nodup_cons.mp nodup
    have otherFresh : ∀ other ∈ list, other.id ∉ rule.id :: seen := by
      intro other member inside
      rcases List.mem_cons.mp inside with same | inside
      · exact apart (same ▸ List.mem_map_of_mem member)
      · exact fresh other member inside
    have rest := ih (rule.id :: seen) others nodup otherFresh
    rw [validatePALRules, first.2.revalidate first.1]
    simp only [Option.bind_eq_bind, Option.bind_some, if_neg firstFresh, rest]
    rfl

theorem validatePALRules_listRules (holds : RulesHold rules) (plain : RulesPlain rules) :
    validatePALRules [] (listRules locale rules) = some (listRules locale rules) := by
  apply validatePALRules_eq
  · intro rule member
    obtain ⟨ruleId, found⟩ := mem_listRules member
    exact ⟨(holds ruleId rule found).2, plain ruleId rule found⟩
  · exact (holds.ids_perm locale).nodup_iff.mpr rules.keys_nodup
  · exact fun _ _ => List.not_mem_nil

theorem Manager.rebuildEngine_eq {manager : Manager} (holds : RulesHold manager.store.memory)
    (plain : RulesPlain manager.store.memory) : manager.rebuildEngine locale =
      ({ manager with engine := some ⟨listRules locale manager.store.memory, manager.running⟩ },
        true) := by
  rw [rebuildEngine, validatePALRules_listRules holds plain]

end P2PHub.PAL
