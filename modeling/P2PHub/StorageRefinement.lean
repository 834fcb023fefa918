import P2PHub.ScopedStorage

/-!
# The storages as plain maps

A storage of a plugin is a map from strings to JSON values, and the vault a set
of keys: the writes that replace the file are applied in the order in which they
were enqueued, whatever is interleaved.  The names that every object inherits
are no ordinary keys: `__proto__` cannot be set, and the others are found where
they were never set.
-/

namespace P2PHub.Storage

open Json ManifestSigning FileStore VaultWrite Transition StorageRead

section

variable {fields : List (JsonString × Json)} {key other : JsonString} {value : Json}

theorem mem_keys_replaceProperty : other ∈ (replaceProperty fields key value).map Prod.fst ↔
      other = key ∨ other ∈ fields.map Prod.fst := by
  rw [mem_keys_iff_lookup, lookup_replaceProperty, mem_keys_iff_lookup]
  by_cases same : other = key
  · rw [if_pos same]
    exact ⟨fun _ => .inl same, fun _ => rfl⟩
  · rw [if_neg same]
    exact ⟨.inr, fun either => either.resolve_left same⟩

section

variable (nodup : (fields.map Prod.fst).Nodup)
include nodup

theorem nodup_replaceProperty : ((replaceProperty fields key value).map Prod.fst).Nodup := by
  induction fields with
  | nil => exact List.nodup_singleton key
  | cons field fields ih =>
    obtain ⟨fresh, rest⟩ := List.nodup_cons.mp nodup
    rw [replaceProperty]
    split
    · next same =>
        rw [List.map_cons, ← same]
        exact nodup
    · next apart =>
        refine List.nodup_cons.mpr ⟨?_, ih rest⟩
        rw [mem_keys_replaceProperty]
        exact not_or.mpr ⟨apart, fresh⟩

theorem nodup_assignProperty : ((assignProperty fields key value).map Prod.fst).Nodup := by
  rw [assignProperty]
  split
  · exact nodup
  · exact nodup_replaceProperty nodup

theorem nodup_deleteProperty : ((deleteProperty fields key).map Prod.fst).Nodup :=
  nodup.sublist (List.filter_sublist.map Prod.fst)

end

theorem mem_keys_deleteProperty : other ∈ (deleteProperty fields key).map Prod.fst ↔
      other ∈ fields.map Prod.fst ∧ other ≠ key := by
  rw [mem_keys_iff_lookup, lookup_deleteProperty, mem_keys_iff_lookup]
  by_cases same : other = key
  · rw [if_pos same]
    exact ⟨fun absent => (nomatch absent), fun both => absurd same both.2⟩
  · rw [if_neg same]
    exact ⟨fun present => ⟨present, same⟩, And.left⟩

end

section

structure JsonValue where
  value : Json
  distinct : Distinct value
  finite : Finite value

abbrev PlainMap := JsonString → Option JsonValue

inductive MapWrite
  | set (key : JsonString) (value : JsonValue)
  | delete (key : JsonString)

def MapWrite.apply (map : PlainMap) : MapWrite → PlainMap
  | set key value => Function.update map key (some value)
  | delete key => Function.update map key none

def MapWrite.request : MapWrite → StorageWrite
  | set key value => .set key value.value
  | delete key => .delete key

def MapWrite.Ordinary : MapWrite → Prop
  | set key _ => key ≠ jsonString "__proto__"
  | delete _ => True

/-- The operations of one `ScopedStorage`. -/
def scopedCode : FileCode Unit MapWrite StorageRead Json StorageResult StorageAnswer where
  writePath _ := ()
  readPath _ := ()
  work write content := write.request.work content
  answer read content := read.answer content

def Represents (content : Option Json) (map : PlainMap) : Prop :=
  ∃ data, readAll content = some data ∧ (data.map Prod.fst).Nodup ∧
    ∀ key, data.lookup key = (map key).map fun stored => fileForm stored.value

/-- What `get` gives of a map. -/
inductive Returns : Property → Option JsonValue → Prop
  | value {read : Json} {stored : JsonValue} (same : Same read stored.value) :
      Returns (.own read) (some stored)
  | undefined : Returns .undefined none

variable {content : Option Json} {map : PlainMap}

theorem readAll_storedObject (fields : List (JsonString × Json)) :
    readAll (some (storedObject fields)) = some (fields.map fileFormField) := by
  rw [storedObject, fileForm_object]
  rfl

theorem represents_stored {data : List (JsonString × Json)} (nodup : (data.map Prod.fst).Nodup)
    (values : ∀ key, (data.lookup key).map fileForm =
      (map key).map fun stored => fileForm stored.value) :
    Represents (some (storedObject data)) map := by
  refine ⟨_, readAll_storedObject data, ?_, fun key => ?_⟩
  · rw [fileFormField_keys]
    exact nodup
  · rw [lookup_fileForm]
    exact values key

theorem represents_work {write : MapWrite} (ordinary : write.Ordinary)
    (represents : Represents content map) :
    ∃ written, write.request.work content = .writes written .done ∧
      Represents (some written) (write.apply map) := by
  obtain ⟨data, read, nodup, values⟩ := represents
  have again (key : JsonString) : (data.lookup key).map fileForm =
      (map key).map fun stored => fileForm stored.value := by
    rw [values key, Option.map_map]
    exact Option.map_congr fun stored _ => fileForm_fileForm stored.finite
  cases write with
  | set key value =>
    refine ⟨storedObject (assignProperty data key value.value), ?_, ?_⟩
    · simp only [MapWrite.request, StorageWrite.work, read]
    · apply represents_stored (nodup_assignProperty nodup)
      intro other
      rw [lookup_assignProperty ordinary]
      by_cases same : other = key
      · rw [if_pos same, same, MapWrite.apply, Function.update_self]
        rfl
      · rw [if_neg same, MapWrite.apply, Function.update_of_ne same]
        exact again other
  | delete key =>
    refine ⟨storedObject (deleteProperty data key), ?_, ?_⟩
    · simp only [MapWrite.request, StorageWrite.work, read]
    · apply represents_stored (nodup_deleteProperty nodup)
      intro other
      rw [lookup_deleteProperty]
      by_cases same : other = key
      · rw [if_pos same, same, MapWrite.apply, Function.update_self]
        rfl
      · rw [if_neg same, MapWrite.apply, Function.update_of_ne same]
        exact again other

theorem represents_get (represents : Represents content map) {key : JsonString}
    (ordinary : (map key).isSome ∨ key ∉ inheritedNames) :
    ∃ property, (get key).answer content = .value property ∧ Returns property (map key) := by
  obtain ⟨data, read, _, values⟩ := represents
  refine ⟨readProperty data key, by simp only [answer, read], ?_⟩
  have value := values key
  unfold readProperty
  cases found : map key with
  | some stored =>
    rw [value, found]
    exact .value (same_fileForm stored.finite stored.distinct)
  | none =>
    have absent : key ∉ inheritedNames := by
      rw [found] at ordinary
      exact ordinary.resolve_left (fun present => nomatch present)
    rw [value, found, Option.map_none]
    simp only [if_neg absent]
    exact .undefined

theorem represents_list (represents : Represents content map) (start : Option JsonString) :
    ∃ keys, (list start).answer content = .keys keys ∧ keys.Nodup ∧
      ∀ key, key ∈ keys ↔ (map key).isSome ∧ ∀ text ∈ start, text <+: key := by
  obtain ⟨data, read, nodup, values⟩ := represents
  have present (key : JsonString) : key ∈ data.map Prod.fst ↔ (map key).isSome := by
    rw [mem_keys_iff_lookup, values key, Option.isSome_map]
  cases start with
  | none =>
    refine ⟨data.map Prod.fst, by simp only [answer, read], nodup, fun key => ?_⟩
    rw [present key]
    exact ⟨fun isPresent => ⟨isPresent, fun _ member => nomatch member⟩, And.left⟩
  | some text =>
    refine ⟨(data.map Prod.fst).filter fun key => text.isPrefixOf key,
      by simp only [answer, read], nodup.filter _, fun key => ?_⟩
    rw [List.mem_filter, present key, List.isPrefixOf_iff_prefix]
    exact and_congr_right fun _ =>
      ⟨fun starts _ member => Option.some.inj member ▸ starts, fun starts => starts text rfl⟩

/-- What `scopedCode` has made of the map so far. -/
def currentMap (map : PlainMap) (s : State Unit Unit MapWrite Json StorageResult) : PlainMap :=
  (applied s.queue.runs ()).foldl MapWrite.apply map

/-- A storage is what its applied writes have made of the map, and a write that
has resolved is one of them. -/
structure RefinesMap (map : PlainMap) (s : State Unit Unit MapWrite Json StorageResult) : Prop where
  persisted : Represents (s.disk ()) (currentMap map s)
  get : ∀ key, (currentMap map s key).isSome = true ∨ key ∉ inheritedNames →
    ∃ property, scopedCode.answer (.get key) (s.disk ()) = .value property ∧
      Returns property (currentMap map s key)
  list : ∀ start, ∃ keys, scopedCode.answer (.list start) (s.disk ()) = .keys keys ∧ keys.Nodup ∧
    ∀ key, key ∈ keys ↔ (currentMap map s key).isSome = true ∧ ∀ text ∈ start, text <+: key
  resolved : ∀ (index : Nat) (run : QueuedRun Unit (Job MapWrite Json StorageResult)) applied
    result, s.queue.runs[index]? = some run → run.job.phase = .settled applied (some result) →
      applied = true ∧ result = .done

theorem refinesMap {file : Option Json} {s : State Unit Unit MapWrite Json StorageResult}
    {history : List (Event StorageRead StorageResult StorageAnswer)}
    (represents : Represents file map)
    (runs : Runs (step scopedCode id) (Enqueues MapWrite.Ordinary)
      (.start fun _ => file) history s) : RefinesMap map s := by
  have separate : Set.InjOn id ({()} : Set Unit) := Function.injective_id.injOn
  obtain ⟨persisted, before⟩ := run_simulates Represents MapWrite.apply separate
    (Set.mem_singleton ()) (fun _ _ => Set.mem_singleton ())
    (fun content map write ordinary held => by
      obtain ⟨written, worked, after⟩ := represents_work ordinary held
      have applies : scopedCode.apply content write = some written :=
        FileCode.apply_of_writes worked
      rw [applies]
      exact after) represents runs
  refine ⟨persisted, fun key ordinary => represents_get persisted ordinary,
    represents_list persisted, ?_⟩
  intro index run isApplied result found settled
  have answered := (run_holds separate (runs.mono fun _ _ label _ => by
    cases label with
    | enqueue => exact Set.mem_singleton ()
    | proceed => exact True.intro
    | read => exact True.intro)).2
  have ordinary := admitted runs run (List.mem_of_getElem? found)
  obtain ⟨written, worked, _⟩ := represents_work ordinary (before index)
  have outcome := answered index run (isApplied, result) found (by
    rw [Job.outcome?, settled]
    rfl)
  have decided : (scopedCode.work run.job.write ((applied (s.queue.runs.take index) ()).foldl
      scopedCode.apply file)).outcome = (true, .done) := congrArg FileWork.outcome worked
  cases decided.symm.trans outcome
  exact ⟨rfl, rfl⟩

end

section

variable {code : VaultCode}

def VaultWrite.Ordinary : VaultWrite → Prop
  | setSecret key _ _ _ => key ≠ jsonString "__proto__"
  | deleteSecret _ _ => True

def VaultWrite.apply (keys : Set JsonString) : VaultWrite → Set JsonString
  | setSecret key _ _ _ => insert key keys
  | deleteSecret key _ => keys \ {key}

def vaultOperations (code : VaultCode) :
    FileCode Unit VaultWrite VaultRead Json VaultResult VaultAnswer where
  writePath _ := ()
  readPath _ := ()
  work write content := write.work code content
  answer read content := read.answer code content

/-- The vault has just the secrets of the keys, whatever salt a new one gets. -/
def HasKeys (code : VaultCode) (content : Option Json) (keys : Set JsonString) : Prop :=
  ∀ salt, ∃ vault, loadVault code salt content = some vault ∧
    (vault.entries.map Prod.fst).Nodup ∧ ∀ key, key ∈ vault.entries.map Prod.fst ↔ key ∈ keys

variable {content : Option Json} {keys : Set JsonString}

theorem loadVault_json (salt : JsonString) (vault : VaultContent) :
    loadVault code salt (some vault.json) =
      some ⟨code.hex vault.salt, vault.entries.map fileFormField⟩ := by
  have file : vault.json = object [(jsonString "salt", string vault.salt),
      (jsonString "entries", object (vault.entries.map fileFormField))] := by
    rw [VaultContent.json, fileForm_object, List.map_cons, List.map_singleton, fileFormField,
      fileFormField, fileForm_object]
    rfl
  rw [file]
  rfl

theorem hasKeys_json {vault : VaultContent} (nodup : (vault.entries.map Prod.fst).Nodup)
    (members : ∀ key, key ∈ vault.entries.map Prod.fst ↔ key ∈ keys) :
    HasKeys code (some vault.json) keys := by
  intro salt
  refine ⟨_, loadVault_json salt vault, ?_, fun key => ?_⟩
  · rw [fileFormField_keys]
    exact nodup
  · rw [fileFormField_keys]
    exact members key

theorem setSecret_work {key : JsonString} (value salt : JsonString) (iv : Nat)
    (ordinary : key ≠ jsonString "__proto__") (held : HasKeys code content keys) :
    ∃ written, (setSecret key value iv salt).work code content =
      .writes written .stored ∧ HasKeys code (some written) (insert key keys) := by
  obtain ⟨vault, loaded, nodup, members⟩ := held salt
  refine ⟨_, by simp only [work, loaded]; rfl, ?_⟩
  apply hasKeys_json
  · exact nodup_assignProperty nodup
  · intro other
    rw [assignProperty, if_neg fun both => ordinary both.1, mem_keys_replaceProperty, members,
      Set.mem_insert_iff]

theorem deleteSecret_work (key salt : JsonString) (held : HasKeys code content keys) :
    HasKeys code ((vaultOperations code).apply content (.deleteSecret key salt)) (keys \ {key}) ∧
      ∃ existed, ((deleteSecret key salt).work code content).outcome =
        (existed, .deleted existed) ∧ (key ∈ keys ∨ key ∉ inheritedNames →
          (existed ↔ key ∈ keys)) := by
  obtain ⟨vault, loaded, nodup, members⟩ := held salt
  have found : isIn key vault.entries ↔ key ∈ keys ∨ key ∈ inheritedNames := by
    rw [isIn, Bool.or_eq_true, decide_eq_true_eq, decide_eq_true_eq, members]
  cases present : isIn key vault.entries with
  | true =>
    have worked : (deleteSecret key salt).work code content =
        .writes { vault with entries := deleteProperty vault.entries key }.json
          (.deleted true) := by
      simp only [work, loaded, present, if_true]
    constructor
    · have applies : (vaultOperations code).apply content (.deleteSecret key salt) =
          some { vault with entries := deleteProperty vault.entries key }.json :=
        FileCode.apply_of_writes worked
      rw [applies]
      apply hasKeys_json (nodup_deleteProperty nodup)
      intro other
      rw [mem_keys_deleteProperty, members]
      rfl
    · refine ⟨true, congrArg FileWork.outcome worked, fun ordinary => ⟨fun _ => ?_, fun _ => rfl⟩⟩
      rcases found.mp present with member | inherited
      · exact member
      · exact ordinary.resolve_right fun absent => absent inherited
  | false =>
    have absent : key ∉ keys := by
      intro member
      rw [found.mpr (.inl member)] at present
      cases present
    have worked : (deleteSecret key salt).work code content = .returns (.deleted false) := by
      simp only [work, loaded, present, Bool.false_eq_true, if_false]
    constructor
    · have applies : (vaultOperations code).apply content (.deleteSecret key salt) = content :=
        FileCode.apply_of_returns worked
      rw [applies, Set.sdiff_singleton_eq_self absent]
      exact held
    · refine ⟨false, congrArg FileWork.outcome worked, fun _ => ⟨fun never => ?_, fun member => ?_⟩⟩
      · cases never
      · exact absurd member absent

theorem hasKeys_apply {write : VaultWrite} (ordinary : write.Ordinary)
    (held : HasKeys code content keys) :
    HasKeys code ((vaultOperations code).apply content write) (write.apply keys) := by
  cases write with
  | setSecret key value iv salt =>
    obtain ⟨written, worked, after⟩ :=
      setSecret_work value salt iv ordinary held
    have applies : (vaultOperations code).apply content (.setSecret key value iv salt) =
        some written := FileCode.apply_of_writes worked
    rw [applies]
    exact after
  | deleteSecret key salt => exact (deleteSecret_work key salt held).1

/-- What the vault's writes have made of the keys so far. -/
def currentKeys (keys : Set JsonString)
    (runs : List (QueuedRun Unit (Job VaultWrite Json VaultResult))) : Set JsonString :=
  (applied runs ()).foldl apply keys

/-- The keys of the vault are what its applied writes have made of them; a
resolved `setSecret` is one of them, and a resolved `deleteSecret` has told
whether its key was there. -/
structure RefinesKeys (code : VaultCode) (keys : Set JsonString)
    (s : State Unit Unit VaultWrite Json VaultResult) : Prop where
  persisted : HasKeys code (s.disk ()) (currentKeys keys s.queue.runs)
  has : ∀ key, key ∈ currentKeys keys s.queue.runs ∨ key ∉ inheritedNames →
    ∃ found, (vaultOperations code).answer (.hasSecret key) (s.disk ()) = .truth found ∧
      (found = true ↔ key ∈ currentKeys keys s.queue.runs)
  list : ∃ names, (vaultOperations code).answer .listSecretKeys (s.disk ()) = .keys names ∧
    names.Nodup ∧ ∀ key, key ∈ names ↔ key ∈ currentKeys keys s.queue.runs
  stored : ∀ (index : Nat)
    (run : QueuedRun Unit (Job VaultWrite Json VaultResult)) key value iv salt
    applied result, s.queue.runs[index]? = some run → run.job.write = .setSecret key value iv salt →
      run.job.phase = .settled applied (some result) → applied = true ∧ result = .stored
  deleted : ∀ (index : Nat)
    (run : QueuedRun Unit (Job VaultWrite Json VaultResult)) key salt applied result,
    s.queue.runs[index]? = some run → run.job.write = .deleteSecret key salt →
      run.job.phase = .settled applied (some result) →
      key ∈ currentKeys keys (s.queue.runs.take index) ∨ key ∉ inheritedNames →
        result = .deleted applied ∧
          (applied = true ↔ key ∈ currentKeys keys (s.queue.runs.take index))

theorem refinesKeys {file : Option Json} {s : State Unit Unit VaultWrite Json VaultResult}
    {history : List (Event VaultRead VaultResult VaultAnswer)} (held : HasKeys code file keys)
    (runs : Runs (step (vaultOperations code) id) (Enqueues Ordinary)
      (.start fun _ => file) history s) : RefinesKeys code keys s := by
  have separate : Set.InjOn id ({()} : Set Unit) := Function.injective_id.injOn
  obtain ⟨persisted, before⟩ := run_simulates (HasKeys code) apply separate
    (Set.mem_singleton ()) (fun _ _ => Set.mem_singleton ())
    (fun _ _ _ ordinary held => hasKeys_apply ordinary held) held runs
  have answered := (run_holds separate (runs.mono fun _ _ label _ => by
    cases label with
    | enqueue => exact Set.mem_singleton ()
    | proceed => exact True.intro
    | read => exact True.intro)).2
  have outcome (index : Nat) (run : QueuedRun Unit (Job VaultWrite Json VaultResult))
      (isApplied : Bool) (result : VaultResult) (found : s.queue.runs[index]? = some run)
      (settled : run.job.phase = .settled isApplied (some result)) :
      (run.job.write.work code ((applied (s.queue.runs.take index) ()).foldl
        (vaultOperations code).apply file)).outcome = (isApplied, result) :=
    answered index run (isApplied, result) found (by rw [Job.outcome?, settled]; rfl)
  obtain ⟨vault, loaded, nodup, members⟩ := persisted []
  refine ⟨persisted, fun key ordinary => ?_, ?_, ?_, ?_⟩
  · refine ⟨isIn key vault.entries, ?_, ?_⟩
    · simp only [vaultOperations, VaultRead.answer, loaded]
    · have member := members key
      rw [isIn, Bool.or_eq_true, decide_eq_true_eq, decide_eq_true_eq, member]
      exact ⟨fun either => either.elim (fun isKey => isKey) fun inherited =>
        ordinary.resolve_right fun absent => absent inherited, .inl⟩
  · refine ⟨vault.entries.map Prod.fst, ?_, nodup, members⟩
    simp only [vaultOperations, VaultRead.answer, loaded]
  · intro index run key value iv salt isApplied result found isSet settled
    have ordinary := admitted runs run (List.mem_of_getElem? found)
    have decided := outcome index run isApplied result found settled
    rw [isSet] at ordinary decided
    obtain ⟨written, worked, _⟩ := setSecret_work value salt iv ordinary (before index)
    cases (congrArg FileWork.outcome worked).symm.trans decided
    exact ⟨rfl, rfl⟩
  · intro index run key salt isApplied result found isDelete settled ordinary
    have decided := outcome index run isApplied result found settled
    rw [isDelete] at decided
    obtain ⟨_, existed, worked, known⟩ := deleteSecret_work key salt (before index)
    cases worked.symm.trans decided
    exact ⟨rfl, known ordinary⟩

end

/-- A storage refines a plain map, and the vault a set of keys, in every run
without an assignment of `__proto__`. -/
theorem storages_refine (code : VaultCode) : (∀ file map history s, Represents file map →
      Runs (step scopedCode id) (Enqueues MapWrite.Ordinary) (.start fun _ => file)
        history s → RefinesMap map s) ∧ ∀ file keys history s, HasKeys code file keys →
      Runs (step (vaultOperations code) id) (Enqueues Ordinary)
        (.start fun _ => file) history s → RefinesKeys code keys s :=
  ⟨fun _ _ _ _ represents runs => refinesMap represents runs,
    fun _ _ _ _ held runs => refinesKeys held runs⟩

def someKey : JsonString := jsonString "k"

def setTrue : Label MapWrite StorageRead :=
  .enqueue (.set someKey ⟨boolean true, .boolean true, .boolean true⟩)

def readsTrue (content : Option Json) : Bool :=
  match scopedCode.answer (.get someKey) content with
  | .value (.own (boolean value)) => value
  | _ => false

def isRejection : Event StorageRead StorageResult StorageAnswer → Bool
  | .settled _ none => true
  | _ => false

theorem represents_none : Represents none fun _ => none :=
  ⟨[], rfl, List.nodup_nil, fun _ => rfl⟩

theorem hasKeys_none (code : VaultCode) : HasKeys code none ∅ :=
  fun salt => ⟨⟨salt, []⟩, rfl, List.nodup_nil, fun _ =>
    ⟨fun member => (nomatch member), False.elim⟩⟩

def plainVault : VaultCode :=
  ⟨id, fun _ _ value => ⟨[], [], value, []⟩, fun _ _ => none, fun _ _ _ => true⟩

/-- A value is set in a storage without a file, next to an empty vault. -/
theorem storages_refine_one_set : (∃ s : State Unit Unit MapWrite Json StorageResult,
      readsTrue (s.disk ()) ∧ RefinesMap (fun _ => none) s) ∧
    RefinesKeys plainVault ∅ (.start fun _ => none) := by
  constructor
  · obtain ⟨history, s, runs, passed⟩ := exists_runs_of_any (step scopedCode id)
      (fun label => ∀ write, label = .enqueue write → write.Ordinary) (.start fun _ => none)
      [setTrue, .proceed 0 true, .proceed 0 true, .proceed 0 true, .proceed 0 true]
      (fun result => readsTrue (result.1.disk ()))
      (by
        intro label member write same
        subst same
        rcases List.mem_cons.mp member with isSet | member
        · cases isSet
          exact (by decide : someKey ≠ jsonString "__proto__")
        · simp at member) (by decide +kernel)
    have ordinary := @Runs.mono _ _ _ _ _ (Enqueues MapWrite.Ordinary) _ _ _
      (fun _ _ label permitted => by
        cases label with
        | enqueue write => exact permitted write rfl
        | proceed => exact True.intro
        | read => exact True.intro) runs
    exact ⟨s, passed, (storages_refine plainVault).1 none _ history s represents_none ordinary⟩
  · exact (storages_refine plainVault).2 none ∅ [] _ (hasKeys_none plainVault) .refl

/-- An absent key gives no `null`, and a write is applied although its promise
is rejected, when its lock cannot be released. -/
theorem storage_absent_and_not_released : (¬ ∀ file map history s key, Represents file map →
      Runs (step scopedCode id) unrestricted (.start fun _ => file)
        history s → scopedCode.answer (.get key) (s.disk ()) =
        .value (.own ((currentMap map s key).elim null fun stored => fileForm stored.value))) ∧
    ∃ history s, Runs (step scopedCode id) (fun _ _ _ => True)
      (.start fun _ => none) history s ∧ history.any isRejection ∧
        readsTrue none = false ∧ readsTrue (s.disk ()) = true := by
  constructor
  · intro claimed
    have absent := claimed none (fun _ => none) [] _ someKey represents_none .refl
    cases absent
  · obtain ⟨history, s, runs, passed⟩ := exists_runs_of_any (step scopedCode id)
      (fun _ => True) (.start fun _ => none)
      [setTrue, .proceed 0 true, .proceed 0 true, .proceed 0 true, .proceed 0 true,
        .proceed 0 false]
      (fun result => result.2.any isRejection && readsTrue (result.1.disk ()))
      (fun _ _ => True.intro) (by decide +kernel)
    obtain ⟨rejected, reads⟩ := Bool.and_eq_true_iff.mp passed
    exact ⟨history, s, runs, rejected, by decide, reads⟩

end P2PHub.Storage
