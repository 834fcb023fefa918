import P2PHub.PALRules
import P2PHub.SnapshotStores

/-!
# The store of PAL rules

`PALRuleStore` of `apps/core-server/src/pal/store.ts`: the rules by their id,
the checks on a new one, and the file that the store persists and loads.  A
corrupt or a second rule of an id is skipped when the file is loaded.
-/

namespace P2PHub.PAL

open Json ManifestSigning OrderedMap

section

def rulesFileVersion : Binary64 :=
  .ofInt 1

def maxRuleCount : Nat := 500

abbrev RuleSet := OrderedMap JsonString PALRule

/-- A value that `JSON.parse` gives. -/
structure ParsedJson where
  value : Json
  distinct : Distinct value

inductive RuleRequest
  | add (raw : ParsedJson)
  | remove (ruleId : JsonString)

inductive AddError
  | invalid (fault : RuleFault)
  | duplicate (ruleId : JsonString)
  | full

/-- The checks of `add`. -/
def checkRule (rules : RuleSet) (raw : ParsedJson) : Except AddError PALRule :=
  match validatePALRule raw.value with
  | .error fault => .error (.invalid fault)
  | .ok rule =>
    if (rules.get rule.id).isSome then .error (.duplicate rule.id)
    else if rules.entries.length ≥ maxRuleCount then .error .full
    else .ok rule

def applyRules (rules : RuleSet) : RuleRequest → StoreVerdict RuleSet
  | .add raw =>
    match checkRule rules raw with
    | .ok rule => .changed (rules.set rule.id rule)
    | .error _ => .refused
  | .remove ruleId =>
    if (rules.get ruleId).isSome then .changed (rules.delete ruleId) else .unchanged

-- The order of `localeCompare`.
variable (locale : JsonString → JsonString → Bool)

def listRules (rules : RuleSet) : List PALRule :=
  rules.values.mergeSort fun rule other => locale rule.id other.id

/-- `JSON.stringify` of the persisted rules, as it is read back. -/
def rulesFile (rules : RuleSet) : Json :=
  fileForm (object [(jsonString "version", number rulesFileVersion),
    (jsonString "rules", array ((listRules locale rules).map PALRule.json))])

def ruleStore : StoreCode RuleSet RuleRequest Json where
  apply := applyRules
  makesDirectory := true
  snapshot := rulesFile locale

end

/-- The loop of `load`. -/
def readRules : RuleSet → List Json → RuleSet
  | rules, [] => rules
  | rules, raw :: raws =>
    match validatePALRule raw with
    | .error _ => readRules rules raws
    | .ok rule =>
      readRules (if (rules.get rule.id).isSome then rules else rules.set rule.id rule) raws

def number? : Json → Option Binary64
  | number value => some value
  | negativeZero => some (.ofInt 0)
  | _ => none

/-- `load` of a file into an empty store; nothing stands for the error about an
unsupported shape. -/
def loadRules : Option Json → Option RuleSet
  | none => some .empty
  | some file =>
    if file.isFalsy then some .empty
    else
      match file with
      | object fields =>
        match property fields "rules", (property fields "version").bind number? with
        | some (array rules), some version =>
          if version = rulesFileVersion then some (readRules .empty rules) else none
        | _, _ => none
      | _ => none

variable {rules : RuleSet} {rule : PALRule} {locale : JsonString → JsonString → Bool}

def RulesHold (rules : RuleSet) : Prop :=
  ∀ ruleId rule, rules.get ruleId = some rule → rule.id = ruleId ∧ rule.Valid

theorem rulesHold_empty : RulesHold .empty := by
  intro ruleId rule found
  cases found

theorem RulesHold.set (holds : RulesHold rules) (valid : rule.Valid) :
    RulesHold (rules.set rule.id rule) := by
  intro ruleId other found
  rw [get_set] at found
  split at found
  · next same =>
      cases found
      exact ⟨same.symm, valid⟩
  · exact holds ruleId other found

theorem RulesHold.delete (holds : RulesHold rules) (removed : JsonString) :
    RulesHold (rules.delete removed) := by
  intro ruleId rule found
  rw [get_delete] at found
  split at found
  · cases found
  · exact holds ruleId rule found

theorem checkRule_valid {raw : ParsedJson} (checked : checkRule rules raw = .ok rule) :
    validatePALRule raw.value = .ok rule := by
  unfold checkRule at checked
  split at checked
  · cases checked
  · next validated =>
      split at checked
      · cases checked
      · split at checked
        · cases checked
        · cases checked
          exact validated

theorem RulesHold.apply {request : RuleRequest} {after : RuleSet} (holds : RulesHold rules)
    (applied : applyRules rules request = .changed after) : RulesHold after := by
  cases request with
  | add raw =>
    simp only [applyRules] at applied
    split at applied
    · next rule checked =>
        cases applied
        exact holds.set (validatePALRule_valid raw.distinct (checkRule_valid checked))
    · cases applied
  | remove ruleId =>
    simp only [applyRules] at applied
    split at applied
    · cases applied
      exact holds.delete ruleId
    · cases applied

theorem RulesHold.readRules {raws : List Json} (holds : RulesHold rules)
    (distinct : ∀ raw ∈ raws, Distinct raw) : RulesHold (PAL.readRules rules raws) := by
  induction raws generalizing rules with
  | nil => exact holds
  | cons raw raws ih =>
    obtain ⟨first, others⟩ := List.forall_mem_cons.mp distinct
    unfold PAL.readRules
    split
    · exact ih holds others
    · next rule validated =>
        split
        · exact ih holds others
        · exact ih (holds.set (validatePALRule_valid first validated)) others

theorem rulesHold_loadRules {file : Option Json} (distinct : ∀ content ∈ file, Distinct content)
    (loaded : loadRules file = some rules) : RulesHold rules := by
  unfold loadRules at loaded
  split at loaded
  · cases loaded
    exact rulesHold_empty
  · next content =>
      split at loaded
      · cases loaded
        exact rulesHold_empty
      · split at loaded
        · next fields =>
            split at loaded
            · next raws version rulesEq _ =>
                split at loaded
                · cases loaded
                  have raws := distinct_property (distinct _ rfl) rulesEq
                  cases raws with
                  | array each => exact rulesHold_empty.readRules each
                · cases loaded
            · cases loaded
        · cases loaded

theorem readRules_json (list : List PALRule) (before : RuleSet)
    (valid : ∀ rule ∈ list, rule.Valid) (finite : ∀ rule ∈ list, rule.Finite)
    (nodup : (list.map PALRule.id).Nodup) (fresh : ∀ rule ∈ list, before.get rule.id = none) :
    (∀ ruleId, ruleId ∉ list.map PALRule.id →
      (readRules before ((list.map PALRule.json).map fileForm)).get ruleId = before.get ruleId) ∧
      ∀ rule ∈ list, (readRules before ((list.map PALRule.json).map fileForm)).get rule.id =
        some rule.read := by
  induction list generalizing before with
  | nil => exact ⟨fun _ _ => rfl, List.forall_mem_nil _⟩
  | cons rule list ih =>
    obtain ⟨ruleValid, valid⟩ := List.forall_mem_cons.mp valid
    obtain ⟨ruleFinite, finite⟩ := List.forall_mem_cons.mp finite
    obtain ⟨ruleFresh, fresh⟩ := List.forall_mem_cons.mp fresh
    obtain ⟨apart, nodup⟩ := List.nodup_cons.mp nodup
    have validated := validatePALRule_fileForm ruleValid ruleFinite
    have read : readRules before (((rule :: list).map PALRule.json).map fileForm) =
        readRules (before.set rule.id rule.read) ((list.map PALRule.json).map fileForm) := by
      rw [List.map_cons, List.map_cons, readRules, validated]
      have absent : before.get rule.read.id = none := ruleFresh
      simp only [absent, Option.isSome_none, Bool.false_eq_true, if_false]
      rfl
    have otherFresh : ∀ other ∈ list, (before.set rule.id rule.read).get other.id = none := by
      intro other member
      have different : other.id ≠ rule.id := by
        intro same
        exact apart (same ▸ List.mem_map_of_mem member)
      rw [get_set_of_ne _ _ different]
      exact fresh other member
    obtain ⟨absent, present⟩ := ih (before.set rule.id rule.read) valid finite nodup otherFresh
    rw [read]
    constructor
    · intro ruleId outside
      obtain ⟨different, outside⟩ := not_or.mp (mt List.mem_cons.mpr outside)
      rw [absent ruleId outside, get_set_of_ne _ _ different]
    · refine List.forall_mem_cons.mpr ⟨?_, present⟩
      rw [absent rule.id apart, get_set_self]

theorem RulesHold.ids (holds : RulesHold rules) : rules.values.map PALRule.id = rules.keys := by
  rw [values, keys, List.map_map]
  apply List.map_congr_left
  rintro ⟨ruleId, rule⟩ member
  exact (holds ruleId rule (mem_entries.mp member)).1

theorem mem_listRules
    (member : rule ∈ listRules locale rules) : ∃ ruleId, rules.get ruleId = some rule := by
  have perm : (listRules locale rules).Perm rules.values := List.mergeSort_perm _ _
  rw [perm.mem_iff, values] at member
  obtain ⟨⟨ruleId, same⟩, inside, rfl⟩ := List.mem_map.mp member
  exact ⟨ruleId, mem_entries.mp inside⟩

theorem listRules_of_get {ruleId : JsonString}
    (found : rules.get ruleId = some rule) : rule ∈ listRules locale rules := by
  have perm : (listRules locale rules).Perm rules.values := List.mergeSort_perm _ _
  rw [perm.mem_iff, values]
  exact List.mem_map_of_mem (mem_entries.mpr found)

theorem RulesHold.ids_perm (locale : JsonString → JsonString → Bool) (holds : RulesHold rules) :
    ((listRules locale rules).map PALRule.id).Perm rules.keys := by
  have perm : (listRules locale rules).Perm rules.values := List.mergeSort_perm _ _
  rw [← holds.ids]
  exact perm.map _

theorem loadRules_rulesFile (locale : JsonString → JsonString → Bool) (holds : RulesHold rules)
    (finite : ∀ ruleId rule, rules.get ruleId = some rule → rule.Finite) :
    ∃ loaded, loadRules (some (rulesFile locale rules)) = some loaded ∧
      ∀ ruleId, loaded.get ruleId = (rules.get ruleId).map PALRule.read := by
  have ids := holds.ids_perm locale
  obtain ⟨absent, present⟩ := readRules_json (listRules locale rules) .empty (fun rule member => by
      obtain ⟨ruleId, found⟩ := mem_listRules member
      exact (holds ruleId rule found).2)
    (fun rule member => by
      obtain ⟨ruleId, found⟩ := mem_listRules member
      exact finite ruleId rule found)
    (ids.nodup_iff.mpr rules.keys_nodup) (fun _ _ => get_empty _)
  have version : fileForm (number rulesFileVersion) = number rulesFileVersion :=
    fileForm_ofInt (by decide)
  have fileEq : rulesFile locale rules = object [(jsonString "version", number rulesFileVersion),
      (jsonString "rules", array (((listRules locale rules).map PALRule.json).map fileForm))] := by
    rw [rulesFile, fileForm_object, List.map_cons, List.map_singleton, fileFormField,
      fileFormField, fileForm_array, version]
  refine ⟨readRules .empty (((listRules locale rules).map PALRule.json).map fileForm), ?_,
    fun ruleId => ?_⟩
  · rw [fileEq]
    exact if_pos rfl
  · cases found : rules.get ruleId with
    | none =>
      have outside : ruleId ∉ (listRules locale rules).map PALRule.id := by
        rw [ids.mem_iff, mem_keys]
        rintro ⟨rule, present⟩
        cases found.symm.trans present
      rw [absent ruleId outside, get_empty, Option.map_none]
    | some rule =>
      have same := present rule (listRules_of_get found)
      rw [(holds ruleId rule found).1] at same
      rw [same, Option.map_some]

end P2PHub.PAL
