import P2PHub.PALRuleStore
import P2PHub.PeerMatrix

/-!
# Agreement of the governance stores with their files

Once the calls on a matrix or a rule store have resolved, its file is loaded as
what is in memory, if no snapshot is written over one that covers more changes.
The calls of one process do not wait for each other at the lock, so that an
older snapshot can be written last.
-/

namespace P2PHub.Governance

open SnapshotStore PAL Transition AsyncCalls

section

variable {locale : JsonString → JsonString → Bool} {rules : RuleSet} {file : Option Json}

def MatrixOnDisk (file : Option Json) (matrix : PeerMatrix) : Prop :=
  ∃ loaded, loadMatrix file = .ok loaded ∧ ∀ peerId, loaded.get peerId = matrix.get peerId

/-- A rule set is what its file is loaded as, up to the order of keys and the
sign of zero. -/
def RulesOnDisk (file : Option Json) (rules : RuleSet) : Prop :=
  ∃ loaded, loadRules file = some loaded ∧ ∀ ruleId,
    Option.Rel (fun read rule => Json.Same read.json rule.json)
      (loaded.get ruleId) (rules.get ruleId)

def RulesFinite (rules : RuleSet) : Prop :=
  ∀ ruleId rule, rules.get ruleId = some rule → rule.Finite

def AddsFinite : Label RuleRequest Answer → Prop
  | .launch (.add raw) => ∀ rule, validatePALRule raw.value = .ok rule → rule.Finite
  | _ => True

def RuleWrites (history : List (Nat × Event RuleSet))
    (pool : Pool (State RuleSet Json) (Call RuleSet Json))
    (label : Label RuleRequest Answer) : Prop :=
  WritesInOrder history pool label ∧ AddsFinite label

theorem RulesFinite.apply {after : RuleSet} {request : RuleRequest}
    (finite : RulesFinite rules) (adds : AddsFinite (.launch request))
    (applied : applyRules rules request = .changed after) : RulesFinite after := by
  intro ruleId rule found
  cases request with
  | add =>
    simp only [applyRules] at applied
    split at applied
    · next added checked =>
        obtain rfl := StoreVerdict.changed.inj applied
        rw [OrderedMap.get_set] at found
        split at found
        · obtain rfl := Option.some.inj found
          exact adds added (checkRule_valid checked)
        · exact finite ruleId rule found
    · cases applied
  | remove =>
    simp only [applyRules] at applied
    split at applied
    · obtain rfl := StoreVerdict.changed.inj applied
      rw [OrderedMap.get_delete] at found
      split at found
      · cases found
      · exact finite ruleId rule found
    · cases applied

theorem rulesOnDisk_rulesFile (holds : RulesHold rules)
    (finite : RulesFinite rules) : RulesOnDisk (some (rulesFile locale rules)) rules := by
  obtain ⟨loaded, read, same⟩ := loadRules_rulesFile locale holds finite
  refine ⟨loaded, read, fun ruleId => ?_⟩
  rw [same ruleId]
  cases found : rules.get ruleId with
  | none => exact .none
  | some rule => exact .some (same_read (holds ruleId rule found).2 (finite ruleId rule found))

theorem rulesOnDisk_loadRules (holds : RulesHold rules)
    (loaded : loadRules file = some rules) : RulesOnDisk file rules := by
  refine ⟨rules, loaded, fun ruleId => ?_⟩
  cases found : rules.get ruleId with
  | none => exact .none
  | some rule => exact .some (distinct_rule (holds ruleId rule found).2).same

/-- A matrix whose snapshots are written in the order of the changes is on disk
once its calls have resolved. -/
theorem matrix_agrees {matrix : PeerMatrix} {history : List (Nat × Event PeerMatrix)}
    {pool : Pool (State PeerMatrix Json) (Call PeerMatrix Json)}
    (loaded : loadMatrix file = .ok matrix)
    (runs : Runs (program (matrixStore locale)).step WritesInOrder
      (.initial (.start matrix file)) history pool) (all : AllResolved pool) :
    MatrixOnDisk pool.shared.file pool.shared.memory := by
  have keyed : Keyed pool.shared.memory :=
    memory_invariant Keyed (keyed_loadMatrix loaded)
      (fun _ _ _ _ _ before applied => before.apply applied) runs
  rcases file_agrees runs all with ⟨memory, file⟩ | file
  · rw [memory, file]
    exact ⟨matrix, loaded, fun _ => rfl⟩
  · rw [file]
    exact loadMatrix_matrixFile locale keyed

theorem rules_agree {history : List (Nat × Event RuleSet)}
    {pool : Pool (State RuleSet Json) (Call RuleSet Json)}
    (distinct : ∀ content ∈ file, Json.Distinct content)
    (loaded : loadRules file = some rules) (finite : RulesFinite rules)
    (runs : Runs (program (ruleStore locale)).step RuleWrites
      (.initial (.start rules file)) history pool) (all : AllResolved pool) :
    RulesOnDisk pool.shared.file pool.shared.memory := by
  have begins : RulesHold rules ∧ RulesFinite rules :=
    ⟨rulesHold_loadRules distinct loaded, finite⟩
  have holds : RulesHold pool.shared.memory ∧ RulesFinite pool.shared.memory :=
    memory_invariant (fun rules => RulesHold rules ∧ RulesFinite rules) begins
      (fun _ _ _ _ permitted before applied =>
        ⟨before.1.apply applied, before.2.apply permitted.2 applied⟩) runs
  have ordered := @Runs.mono _ _ _ _ _ WritesInOrder _ _ _ (fun _ _ _ permitted => permitted.1) runs
  rcases file_agrees ordered all with ⟨memory, file⟩ | file
  · rw [memory, file]
    exact rulesOnDisk_loadRules begins.1 loaded
  · rw [file]
    exact rulesOnDisk_rulesFile holds.1 holds.2

/-- Both governance stores agree with their files once their calls have
resolved, in every run that writes no snapshot over a later one. -/
theorem governance_stores_agree (locale : JsonString → JsonString → Bool) :
    (∀ file matrix history pool, loadMatrix file = .ok matrix →
      Runs (program (matrixStore locale)).step WritesInOrder
        (.initial (.start matrix file)) history pool →
      AllResolved pool → MatrixOnDisk pool.shared.file pool.shared.memory) ∧
    ∀ file rules history pool, (∀ content ∈ file, Json.Distinct content) →
      loadRules file = some rules → RulesFinite rules →
      Runs (program (ruleStore locale)).step RuleWrites
        (.initial (.start rules file)) history pool →
      AllResolved pool → RulesOnDisk pool.shared.file pool.shared.memory :=
  ⟨fun _ _ _ _ loaded runs all => matrix_agrees loaded runs all,
    fun _ _ _ _ distinct loaded finite runs all => rules_agree distinct loaded finite runs all⟩

end

def quietSpec : MatrixSpec := ⟨[], [], none⟩

def openCatalog : Catalog := ⟨fun _ => true, fun _ => true⟩

def earlyTime : Timestamp := ⟨1, by decide⟩

def firstPeer : JsonString := List.replicate 64 97

def secondPeer : JsonString := List.replicate 64 98

def setQuiet (peerId : JsonString) : Label MatrixRequest Answer :=
  .launch (.set openCatalog earlyTime peerId quietSpec)

/-- One call: it creates the lock file, fills it, writes and releases it. -/
theorem governance_stores_agree_one_call :
    ∃ pool : Pool (State PeerMatrix Json) (Call PeerMatrix Json),
      (pool.shared.memory.get firstPeer).isSome ∧
        MatrixOnDisk pool.shared.file pool.shared.memory := by
  obtain ⟨history, pool, runs, settled⟩ := exists_runs_of_runWhile
    (program (matrixStore fun _ _ => true)).step (fun _ => writesInOrder) WritesInOrder
    (.initial (.start .empty none))
    [setQuiet firstPeer, .resume 0 .done, .resume 0 .done, .resume 0 .done, .resume 0 .done]
    (fun result => allResolved result.1 && (result.1.shared.memory.get firstPeer).isSome)
    (fun history _ _ => writesInOrder_sound history) (by decide +kernel)
  obtain ⟨resolved, present⟩ := Bool.and_eq_true_iff.mp settled
  exact ⟨pool, present, (governance_stores_agree fun _ _ => true).1 none .empty history pool rfl
    runs (allResolved_sound resolved)⟩

/-- The second of two calls writes first; the first one waits for its lock file
and then writes the matrix without the second peer. -/
theorem matrix_not_on_disk : ¬ ∀ (locale : JsonString → JsonString → Bool) file matrix history pool,
      loadMatrix file = .ok matrix → Runs (program (matrixStore locale)).step unrestricted
        (.initial (.start matrix file)) history pool →
      AllResolved pool → MatrixOnDisk pool.shared.file pool.shared.memory := by
  intro agrees
  obtain ⟨history, pool, runs, lost⟩ := exists_runs_of_any
    (program (matrixStore fun _ _ => true)).step (fun _ => True) (.initial (.start .empty none))
    [setQuiet firstPeer, setQuiet secondPeer,
      .resume 1 .done, .resume 0 .done, .resume 0 .done, .resume 1 .done, .resume 1 .done,
      .resume 1 .done, .resume 0 .done, .resume 0 .done, .resume 0 .done, .resume 0 .done,
      .resume 0 .done]
    (fun result => allResolved result.1 && (result.1.shared.memory.get secondPeer).isSome &&
      match loadMatrix result.1.shared.file with
      | .ok loaded => (loaded.get secondPeer).isNone
      | .error _ => false)
    (fun _ _ => True.intro) (by decide +kernel)
  obtain ⟨kept, lost⟩ := Bool.and_eq_true_iff.mp lost
  obtain ⟨resolved, present⟩ := Bool.and_eq_true_iff.mp kept
  obtain ⟨loaded, read, same⟩ := agrees (fun _ _ => true) none .empty history pool rfl
    runs.unrestrict (allResolved_sound resolved)
  rw [read] at lost
  have absent : (loaded.get secondPeer).isNone := lost
  rw [same secondPeer, Option.isNone_iff_eq_none] at absent
  rw [absent] at present
  cases present

end P2PHub.Governance
