import P2PHub.ScopedStorage

/-!
# Isolation of the storages

The storages of the plugins and the vault share one data directory.  They are
isolated from each other just when the names of their files denote different
files: the rule for the ids of plugins admits the name of the file of the vault.
-/

namespace P2PHub.Storage

open Json FileStore

section

/-- Who a file of the data directory belongs to. -/
inductive Owner
  | plugin (pluginId : JsonString)
  | vault
  deriving DecidableEq

def isPluginId : JsonString → Bool
  | [] => false
  | first :: rest =>
    isAlphanumeric first && rest.all fun unit => isAlphanumeric unit || unit = 95 || unit = 45

/-- `filePath`, by the name of the file in the data directory. -/
def Owner.fileName : Owner → JsonString
  | plugin pluginId => pluginId ++ jsonString ".json"
  | vault => jsonString "vault.json"

inductive HostWrite
  | plugin (pluginId : JsonString) (write : StorageWrite)
  | vault (write : VaultWrite)

inductive HostRead
  | plugin (pluginId : JsonString) (read : StorageRead)
  | vault (read : VaultRead)

inductive HostResult
  | plugin (result : StorageResult)
  | vault (result : VaultResult)

inductive HostAnswer
  | plugin (answer : StorageAnswer)
  | vault (answer : VaultAnswer)

def HostWrite.owner : HostWrite → Owner
  | plugin pluginId _ => .plugin pluginId
  | vault _ => .vault

def HostRead.owner : HostRead → Owner
  | plugin pluginId _ => .plugin pluginId
  | vault _ => .vault

variable (vaultCode : VaultCode)

/-- The operations of the storages and of the vault on one data directory. -/
def hostCode : FileCode JsonString HostWrite HostRead Json HostResult HostAnswer where
  writePath write := write.owner.fileName
  readPath read := read.owner.fileName
  work write content :=
    match write with
    | .plugin _ write => (write.work content).map .plugin
    | .vault write => (write.work vaultCode content).map .vault
  answer read content :=
    match read with
    | .plugin _ read => .plugin (read.answer content)
    | .vault read => .vault (read.answer vaultCode content)

end

section

variable {File : Type} [DecidableEq File] (vaultCode : VaultCode) (resolve : JsonString → File)
  (pluginIds : Set JsonString)

def owners : Set Owner :=
  {owner | ∀ pluginId, owner = .plugin pluginId → pluginId ∈ pluginIds}

abbrev HostState (File : Type) := State JsonString File HostWrite Json HostResult

abbrev OwnersWrite : List (Event HostRead HostResult HostAnswer) → HostState File →
    Label HostWrite HostRead → Prop :=
  Enqueues fun write => write.owner ∈ owners pluginIds

def actor (s : HostState File) : Label HostWrite HostRead → Option Owner
  | .enqueue write => some write.owner
  | .proceed index _ => (s.queue.runs[index]?).map fun run => run.job.write.owner
  | .read read _ => some read.owner

abbrev HostRuns (disk : File → Option Json) :=
  Transition.Runs (step (hostCode vaultCode) resolve) (OwnersWrite pluginIds) (.start disk)

/-- What an owner reads is what its own writes have made of the file that it
found, and it is not changed by a step of another one. -/
structure Isolated (disk : File → Option Json) (s : HostState File) : Prop where
  own : ∀ owner ∈ owners pluginIds,
    s.disk (resolve owner.fileName) = (applied s.queue.runs owner.fileName).foldl
      (hostCode vaultCode).apply (disk (resolve owner.fileName)) ∧
    ∀ write ∈ applied s.queue.runs owner.fileName, write.owner = owner
  frame : ∀ label after outputs, OwnersWrite pluginIds [] s label →
    step (hostCode vaultCode) resolve s label = some (after, outputs) →
    ∀ read : HostRead, read.owner ∈ owners pluginIds → actor s label ≠ some read.owner →
      (hostCode vaultCode).answer read (after.disk (resolve read.owner.fileName)) =
        (hostCode vaultCode).answer read (s.disk (resolve read.owner.fileName))

/-- The file names of the plugins and of the vault denote different files. -/
def Separate : Prop :=
  Set.InjOn (fun owner : Owner => resolve owner.fileName) (owners pluginIds)

end

section

variable {File : Type} [DecidableEq File] {vaultCode : VaultCode} {resolve : JsonString → File}
  {pluginIds : Set JsonString}

omit [DecidableEq File] in
theorem injOn_fileNames (separate : Separate resolve pluginIds) :
    Set.InjOn resolve (Owner.fileName '' owners pluginIds) := by
  rintro _ ⟨owner, member, rfl⟩ _ ⟨other, otherMember, rfl⟩ same
  rw [separate member otherMember same]

theorem isolated_of_separate (separate : Separate resolve pluginIds) {disk : File → Option Json}
    {history : List (Event HostRead HostResult HostAnswer)} {s : HostState File}
    (runs : HostRuns vaultCode resolve pluginIds disk history s) :
    Isolated vaultCode resolve pluginIds disk s := by
  have uses : Transition.Runs (step (hostCode vaultCode) resolve) (Enqueues fun write =>
      (hostCode vaultCode).writePath write ∈ Owner.fileName '' owners pluginIds)
      (.start disk) history s :=
    runs.mono fun _ _ label permitted => by
      cases label with
      | enqueue write => exact ⟨write.owner, permitted, rfl⟩
      | proceed | read => exact True.intro
  have written := admitted runs
  obtain ⟨holds, _⟩ := run_holds (injOn_fileNames separate) uses
  constructor
  · intro owner member
    refine ⟨holds.contents owner.fileName ⟨owner, member, rfl⟩, fun write applies => ?_⟩
    obtain ⟨run, inside, isPath, rfl⟩ := mem_applied applies
    obtain ⟨index, found⟩ := List.mem_iff_getElem?.mp inside
    have sameName : run.job.write.owner.fileName = owner.fileName :=
      (holds.keyed index run found).symm.trans isPath
    exact separate (written run inside) member (congrArg resolve sameName)
  · intro label after outputs permitted stepped read member apart
    cases label with
    | enqueue | read =>
      cases stepped
      rfl
    | proceed index =>
      cases found : s.queue.runs[index]? with
      | none =>
        simp only [step, found, Option.bind_none] at stepped
        cases stepped
      | some run =>
        have key : run.key = run.job.write.owner.fileName := holds.keyed index run found
        have elsewhere : resolve read.owner.fileName ≠ resolve run.key := by
          intro same
          rw [key] at same
          have sameOwner := separate member (written run (List.mem_of_getElem? found)) same
          apply apart
          simp only [actor, found, Option.map_some, sameOwner]
        rw [disk_elsewhere found elsewhere stepped]

end

section

variable {File : Type} [DecidableEq File] {vaultCode : VaultCode} {resolve : JsonString → File}
  {pluginIds : Set JsonString} {pluginId : JsonString} {other : Owner}

def sharedKey : JsonString := jsonString "k"

def setShared (pluginId : JsonString) : HostWrite :=
  .plugin pluginId (.set sharedKey (boolean true))

def sharedQueue (pluginId : JsonString) (phase : Phase Json HostResult) :
    PromiseQueue JsonString (Job HostWrite Json HostResult) :=
  ⟨OrderedMap.empty.set (Owner.plugin pluginId).fileName 0,
    [⟨(Owner.plugin pluginId).fileName, none, ⟨setShared pluginId, phase⟩⟩]⟩

def sharedRead : Owner → HostRead
  | .plugin pluginId => .plugin pluginId (.get sharedKey)
  | .vault => .vault .hasVaultFile

def sharedContent : Json :=
  storedObject (assignProperty [] sharedKey (boolean true))

theorem sharedRead_owner (owner : Owner) : (sharedRead owner).owner = owner := by
  cases owner <;> rfl

theorem sharedRead_changes (owner : Owner) :
    (hostCode vaultCode).answer (sharedRead owner) (some sharedContent) ≠
      (hostCode vaultCode).answer (sharedRead owner) none := by
  cases owner with
  | plugin =>
    intro same
    have answers : HostAnswer.plugin (.value (.own (boolean true))) =
        .plugin (.value .undefined) := same
    cases answers
  | vault =>
    intro same
    have answers : HostAnswer.vault (.truth true) = .vault (.truth false) := same
    cases answers

theorem not_isolated_of_shared (member : Owner.plugin pluginId ∈ owners pluginIds)
    (otherMember : other ∈ owners pluginIds) (apart : other ≠ .plugin pluginId)
    (shared : resolve other.fileName = resolve (Owner.plugin pluginId).fileName) :
    ¬ ∀ disk history s, HostRuns vaultCode resolve pluginIds disk history s →
      Isolated vaultCode resolve pluginIds disk s := by
  intro isolated
  have begins : OwnersWrite pluginIds [] (.start fun _ : File => none)
      (.enqueue (setShared pluginId)) := member
  have goesOn : ∀ history (s : HostState File), OwnersWrite pluginIds history s (.proceed 0 true) :=
    fun _ _ => True.intro
  have enqueued : HostRuns vaultCode resolve pluginIds (fun _ => none) ([] ++ [])
      ⟨fun _ => none, sharedQueue pluginId .enqueued⟩ :=
    .tail .refl begins rfl
  have locking : HostRuns vaultCode resolve pluginIds (fun _ => none) ([] ++ [] ++ [])
      ⟨fun _ => none, sharedQueue pluginId .locking⟩ :=
    .tail enqueued (goesOn _ _) rfl
  have reading : HostRuns vaultCode resolve pluginIds (fun _ => none) ([] ++ [] ++ [] ++ [])
      ⟨fun _ => none, sharedQueue pluginId .reading⟩ :=
    .tail locking (goesOn _ _) rfl
  have writing : HostRuns vaultCode resolve pluginIds (fun _ => none) ([] ++ [] ++ [] ++ [] ++ [])
      ⟨fun _ => none, sharedQueue pluginId (.writing sharedContent (.plugin .done))⟩ :=
    .tail reading (goesOn _ _) rfl
  have written : step (hostCode vaultCode) resolve
      ⟨fun _ => none, sharedQueue pluginId (.writing sharedContent (.plugin .done))⟩
      (.proceed 0 true) =
        some (⟨Function.update (fun _ => none) (resolve (Owner.plugin pluginId).fileName)
          (some sharedContent), sharedQueue pluginId (.releasing true (some (.plugin .done)))⟩, [])
            :=
    rfl
  have frame := (isolated _ _ _ writing).frame (.proceed 0 true) _ _ True.intro written
    (sharedRead other) (by rwa [sharedRead_owner]) (by
      rw [sharedRead_owner]
      intro same
      exact apart (Option.some.inj same).symm)
  dsimp only at frame
  rw [sharedRead_owner, shared, Function.update_self] at frame
  exact sharedRead_changes other frame

end

variable {File : Type} [DecidableEq File]

/-- The storages of the plugins and the vault are isolated in every run just
when the names of their files denote different files. -/
theorem storages_isolated_iff (vaultCode : VaultCode) (resolve : JsonString → File)
    (pluginIds : Set JsonString) :
    (∀ disk history s, HostRuns vaultCode resolve pluginIds disk history s →
      Isolated vaultCode resolve pluginIds disk s) ↔ Separate resolve pluginIds := by
  constructor
  · intro isolated owner member other otherMember same
    by_contra apart
    cases owner with
    | plugin =>
      exact not_isolated_of_shared member otherMember (Ne.symm apart) same.symm isolated
    | vault =>
      cases other with
      | plugin => exact not_isolated_of_shared otherMember member apart same isolated
      | vault => exact apart rfl
  · intro separate disk history s runs
    exact isolated_of_separate separate runs

/-- A plugin may have the id `vault`. -/
theorem vault_plugin_not_isolated : ¬ ∀ (vaultCode : VaultCode) (pluginIds : Set JsonString),
      (∀ pluginId ∈ pluginIds, isPluginId pluginId) →
      ∀ (disk : JsonString → Option Json) history s,
        HostRuns vaultCode id pluginIds disk history s → Isolated vaultCode id pluginIds disk s :=
          by
  intro isolated
  let vaultCode : VaultCode :=
    ⟨id, fun _ _ value => ⟨[], [], value, []⟩, fun _ _ => none, fun _ _ _ => true⟩
  have accepted : ∀ pluginId ∈ ({jsonString "vault"} : Set JsonString),
      isPluginId pluginId := by
    rintro _ rfl
    decide
  have member : Owner.plugin (jsonString "vault") ∈ owners {jsonString "vault"} := by
    intro pluginId same
    exact (Owner.plugin.inj same).symm
  have vaultMember : Owner.vault ∈ owners {jsonString "vault"} := fun _ same => nomatch same
  have apart : Owner.vault ≠ .plugin (jsonString "vault") := nofun
  have shared : id Owner.vault.fileName = id (Owner.plugin (jsonString "vault")).fileName := by
    decide
  exact not_isolated_of_shared member vaultMember apart shared
    (isolated vaultCode {jsonString "vault"} accepted)

end P2PHub.Storage
