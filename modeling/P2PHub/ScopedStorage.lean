import P2PHub.FileStores
import P2PHub.JsonFiles
import P2PHub.PluginFiles

/-!
# The storages of the plugins and the vault

`ScopedStorage` and `VaultManager` of `core/src/storage` on the files of one
data directory, as they are read back.  Keys become properties of a parsed
object, which inherits the properties of `Object.prototype`.
-/

namespace P2PHub.Json

open ManifestSigning

/-- `object[key]` of a parsed object. -/
inductive Property
  | own (value : Json)
  | inherited
  | undefined

def readProperty (fields : List (JsonString × Json)) (key : JsonString) : Property :=
  match fields.lookup key with
  | some value => .own value
  | none => if key ∈ inheritedNames then .inherited else .undefined

def replaceProperty : List (JsonString × Json) → JsonString → Json → List (JsonString × Json)
  | [], key, value => [(key, value)]
  | field :: fields, key, value =>
    if field.1 = key then (key, value) :: fields else field :: replaceProperty fields key value

/-- `object[key] = value`.  Unless the object has a property of that name,
`__proto__` is the setter of the prototype. -/
def assignProperty (fields : List (JsonString × Json)) (key : JsonString) (value : Json) :
    List (JsonString × Json) :=
  if key = jsonString "__proto__" ∧ key ∉ fields.map Prod.fst then fields
  else replaceProperty fields key value

/-- `delete object[key]`. -/
def deleteProperty (fields : List (JsonString × Json)) (key : JsonString) :
    List (JsonString × Json) :=
  fields.filter fun field => decide (field.1 ≠ key)

variable {fields : List (JsonString × Json)} {key other : JsonString} {value : Json}

theorem lookup_cons (field : JsonString × Json) :
    (field :: fields).lookup key = if key = field.1 then some field.2 else fields.lookup key := by
  obtain ⟨name, value⟩ := field
  by_cases same : key = name
  · subst same
    rw [List.lookup_cons_self, if_pos rfl]
  · rw [List.lookup_cons, beq_false_of_ne same, if_neg same]

theorem lookup_replaceProperty : (replaceProperty fields key value).lookup other =
      if other = key then some value else fields.lookup other := by
  induction fields with
  | nil => rw [replaceProperty, lookup_cons]
  | cons field fields ih =>
    rw [replaceProperty]
    by_cases same : field.1 = key
    · rw [if_pos same, lookup_cons, lookup_cons, same]
      split <;> rfl
    · rw [if_neg same, lookup_cons, ih, lookup_cons]
      by_cases isField : other = field.1
      · have apart : other ≠ key := fun isKey => same (isField.symm.trans isKey)
        rw [if_pos isField, if_neg apart, if_pos isField]
      · rw [if_neg isField, if_neg isField]

theorem lookup_assignProperty (ordinary : key ≠ jsonString "__proto__") :
    (assignProperty fields key value).lookup other =
      if other = key then some value else fields.lookup other := by
  rw [assignProperty, if_neg fun both => ordinary both.1, lookup_replaceProperty]

theorem lookup_deleteProperty : (deleteProperty fields key).lookup other =
      if other = key then none else fields.lookup other := by
  induction fields with
  | nil =>
    split <;> rfl
  | cons field fields ih =>
    rw [deleteProperty] at ih ⊢
    by_cases same : field.1 = key
    · rw [List.filter_cons_of_neg (by simpa using same), ih, lookup_cons]
      by_cases isKey : other = key
      · rw [if_pos isKey, if_pos isKey]
      · have apart : other ≠ field.1 := fun isField => isKey (isField.trans same)
        rw [if_neg isKey, if_neg isKey, if_neg apart]
    · rw [List.filter_cons_of_pos (by simpa using same), lookup_cons, ih, lookup_cons]
      by_cases isField : other = field.1
      · have apart : other ≠ key := fun isKey => same (isField.symm.trans isKey)
        rw [if_pos isField, if_neg apart, if_pos isField]
      · rw [if_neg isField, if_neg isField]

theorem mem_keys_iff_lookup : key ∈ fields.map Prod.fst ↔ (fields.lookup key).isSome := by
  induction fields with
  | nil => exact ⟨fun member => (nomatch member), fun present => (nomatch present)⟩
  | cons field fields ih =>
    rw [List.map_cons, List.mem_cons, ih, lookup_cons]
    by_cases same : key = field.1
    · rw [if_pos same]
      exact ⟨fun _ => rfl, fun _ => .inl same⟩
    · rw [if_neg same]
      exact ⟨fun either => either.resolve_left same, .inr⟩

theorem fileForm_fileForm {value : Json} (finite : Finite value) :
    fileForm (fileForm value) = fileForm value := by
  induction finite with
  | null | boolean | number | negativeZero | string => rfl
  | @array items _ ih =>
    rw [fileForm_array, fileForm_array, List.map_map]
    exact congrArg array (List.map_congr_left ih)
  | @object fields _ ih =>
    rw [fileForm_object, fileForm_object, List.map_map]
    refine congrArg object (List.map_congr_left fun field member => ?_)
    exact congrArg (Prod.mk field.1) (ih field member)

end P2PHub.Json

namespace P2PHub.Storage

open Json ManifestSigning

inductive StorageWrite
  | set (key : JsonString) (value : Json)
  | delete (key : JsonString)

inductive StorageRead
  | get (key : JsonString)
  | list (start : Option JsonString)

inductive StorageResult
  | done
  | corrupt

inductive StorageAnswer
  | value (value : Property)
  | keys (keys : List JsonString)
  | corrupt

/-- `readAll`; nothing stands for the error about a corrupt file. -/
def readAll : Option Json → Option (List (JsonString × Json))
  | none => some []
  | some null => some []
  | some (object fields) => some fields
  | some _ => none

/-- `JSON.stringify`, as it is read back. -/
def storedObject (fields : List (JsonString × Json)) : Json :=
  fileForm (object fields)

def StorageWrite.work (write : StorageWrite) (content : Option Json) :
    FileWork Json StorageResult :=
  match readAll content with
  | none => .returns .corrupt
  | some data =>
    match write with
    | set key value => .writes (storedObject (assignProperty data key value)) .done
    | delete key => .writes (storedObject (deleteProperty data key)) .done

def StorageRead.answer (read : StorageRead) (content : Option Json) : StorageAnswer :=
  match readAll content with
  | none => .corrupt
  | some data =>
    match read with
    | get key => .value (readProperty data key)
    | list none => .keys (data.map Prod.fst)
    | list (some start) =>
      .keys ((data.map Prod.fst).filter fun key => start.isPrefixOf key)

/-- An entry of the vault, as `setSecret` makes it. -/
structure EncryptedEntry where
  iv : JsonString
  tag : JsonString
  data : JsonString
  updatedAt : JsonString

def EncryptedEntry.json (entry : EncryptedEntry) : Json :=
  object [(jsonString "iv", string entry.iv), (jsonString "tag", string entry.tag),
    (jsonString "data", string entry.data), (jsonString "updatedAt", string entry.updatedAt)]

/-- scrypt and AES-256-GCM under a master key, and the hex digits that a buffer
made of a text gives back. -/
structure VaultCode where
  hex : JsonString → JsonString
  encrypt : JsonString → Nat → JsonString → EncryptedEntry
  decrypt : JsonString → Json → Option JsonString
  verifies : JsonString → JsonString → Json → Bool

/-- What the vault is asked to write, with the random numbers and the time that
it draws. -/
inductive VaultWrite
  | setSecret (key value : JsonString) (iv : Nat) (salt : JsonString)
  | deleteSecret (key : JsonString) (salt : JsonString)

inductive VaultRead
  | getSecret (key : JsonString)
  | hasSecret (key : JsonString)
  | listSecretKeys
  | getSecretMetadata (key : JsonString)
  | hasVaultFile
  | verifyKey (candidate : JsonString)

inductive VaultResult
  | stored
  | deleted (existed : Bool)
  | threw

inductive VaultAnswer
  | secret (value : Option JsonString)
  | truth (value : Bool)
  | keys (keys : List JsonString)
  | metadata (updatedAt : Option (Option Json))
  | threw

structure VaultContent where
  salt : JsonString
  entries : List (JsonString × Json)

/-- `load`.  The entries of a vault file are an object or absent. -/
def loadVault (code : VaultCode) (salt : JsonString) : Option Json → Option VaultContent
  | none => some ⟨salt, []⟩
  | some null => some ⟨salt, []⟩
  | some (object fields) =>
    match property fields "salt", property fields "entries" with
    | some (string text), none => some ⟨code.hex text, []⟩
    | some (string text), some null => some ⟨code.hex text, []⟩
    | some (string text), some (object entries) => some ⟨code.hex text, entries⟩
    | _, _ => none
  | some _ => none

def VaultContent.json (vault : VaultContent) : Json :=
  fileForm (object [(jsonString "salt", string vault.salt),
    (jsonString "entries", object vault.entries)])

def VaultWrite.work (code : VaultCode) (write : VaultWrite) (content : Option Json) :
    FileWork Json VaultResult :=
  match write with
  | setSecret key value iv salt =>
    match loadVault code salt content with
    | none => .returns .threw
    | some vault =>
      let entry := (code.encrypt vault.salt iv value).json
      .writes { vault with entries := assignProperty vault.entries key entry }.json .stored
  | deleteSecret key salt =>
    match loadVault code salt content with
    | none => .returns .threw
    | some vault =>
      if isIn key vault.entries then
        .writes { vault with entries := deleteProperty vault.entries key }.json (.deleted true)
      else .returns (.deleted false)

/-- `updatedAt` of an entry, which can be any value. -/
def updatedAt : Json → Option Json
  | object fields => property fields "updatedAt"
  | _ => none

/-- `getSecret` of an inherited property fails to decrypt it, and its metadata
have no time. -/
def VaultRead.answer (code : VaultCode) (read : VaultRead) (content : Option Json) : VaultAnswer :=
  match read with
  | hasVaultFile => .truth content.isSome
  | verifyKey candidate =>
    match content with
    | none | some null => .truth false
    | content =>
      match loadVault code [] content with
      | none => .threw
      | some vault =>
        .truth (vault.entries.all fun entry => code.verifies candidate vault.salt entry.2)
  | read =>
    match loadVault code [] content with
    | none => .threw
    | some vault =>
      match read with
      | getSecret key =>
        .secret ((vault.entries.lookup key).bind (code.decrypt vault.salt))
      | hasSecret key => .truth (isIn key vault.entries)
      | getSecretMetadata key =>
        .metadata (match readProperty vault.entries key with
          | .own entry => if entry.isFalsy then none else some (updatedAt entry)
          | .inherited => some none
          | .undefined => none)
      | _ => .keys (vault.entries.map Prod.fst)

end P2PHub.Storage
