import Mathlib.Data.List.Dedup
import P2PHub.InsertionOrderedMap
import P2PHub.JsonFiles
import P2PHub.SnapshotStores

/-!
# The permission matrix of peers

`PeerMatrixStore` of `apps/core-server/src/governance/matrix.ts`: the entries
by peer, the checks on a write, and the file that the store persists and loads.
-/

namespace P2PHub.Governance

open Json ManifestSigning OrderedMap

def absoluteMaxRateLimit : Binary64 :=
  .ofInt 500

def matrixFileVersion : Binary64 :=
  .ofInt 1

/-- `PEER_ID_RE`. -/
def isPeerId (peerId : JsonString) : Bool :=
  isHex 64 peerId

/-- `[...new Set(names)].sort()`. -/
def sortNames (names : List JsonString) : List JsonString :=
  names.dedup.insertionSort KeyOrder

def rateLimitValid (limit : Binary64) : Bool :=
  limit.isInteger && !limit.lt (.ofInt 1) && !absoluteMaxRateLimit.lt limit

def finite? : Binary64 → Option { value : ℚ // Binary64.Representable value }
  | .finite value representable => some ⟨value, representable⟩
  | _ => none

/-- An entry of the matrix, as every write and every load leaves it. -/
structure PeerMatrixEntry where
  peerId : JsonString
  skills : List JsonString
  topics : List JsonString
  customRateLimit : Option Binary64
  updatedAt : { value : ℚ // Binary64.Representable value }
  keyed : isPeerId peerId = true
  skillsSorted : sortNames skills = skills
  topicsSorted : sortNames topics = topics
  limited : ∀ limit ∈ customRateLimit, rateLimitValid limit = true

abbrev PeerMatrix := OrderedMap JsonString PeerMatrixEntry

theorem sortNames_idem (names : List JsonString) : sortNames (sortNames names) = sortNames names :=
    by
  have perm : (sortNames names).Perm names.dedup := List.perm_insertionSort _ _
  have nodup : (sortNames names).Nodup := perm.nodup_iff.mpr names.nodup_dedup
  have sorted : (sortNames names).Pairwise KeyOrder := List.pairwise_insertionSort _ _
  rw [sortNames, nodup.dedup]
  exact sorted.insertionSort_eq

/-- The content of a set of names, once it is a list that was sorted. -/
def names? : Option Json → Option (List JsonString)
  | some (array items) => items.mapM fun item =>
    match item with
    | string name => some name
    | _ => none
  | _ => none

structure Catalog where
  validateSkill : JsonString → Bool
  validateTopic : JsonString → Bool

structure MatrixSpec where
  skills : List JsonString
  topics : List JsonString
  customRateLimit : Option Binary64

inductive MatrixError
  | invalidPeerId (peerId : JsonString)
  | skillDenied (skill : JsonString)
  | topicDenied (topic : JsonString)
  | invalidRateLimit (limit : Binary64)

def MatrixError.message : MatrixError → JsonString
  | invalidPeerId peerId => jsonString "invalid peerId for permission matrix: " ++ peerId
  | skillDenied name | topicDenied name =>
    jsonString "\"" ++ name ++ jsonString ("\" is not exposed by any active manifest and " ++
      "cannot be granted via the permission matrix")
  | invalidRateLimit limit =>
    jsonString "customRateLimit must be 1..500 messages/second, got " ++
      jsonString (String.ofList limit.text)

/-- A time that `Date.now()` can give. -/
structure Timestamp where
  milliseconds : Nat
  bounded : milliseconds ≤ 8640000000000000

def Timestamp.number (time : Timestamp) : { value : ℚ // Binary64.Representable value } :=
  ⟨time.milliseconds, by
    have bounded := time.bounded
    have cast : ((time.milliseconds : ℤ) : ℚ) = (time.milliseconds : ℚ) := rfl
    rw [← cast]
    apply Binary64.representable_intCast
    rw [abs_of_nonneg (Int.natCast_nonneg _)]
    omega⟩

/-- The checks of `set`, and the entry that it makes. -/
def PeerMatrixEntry.checked (catalog : Catalog) (now : Timestamp) (peerId : JsonString)
    (spec : MatrixSpec) : Except MatrixError PeerMatrixEntry :=
  if keyed : isPeerId peerId = true then
    match spec.skills.find? fun skill => !catalog.validateSkill skill with
    | some skill => .error (.skillDenied skill)
    | none =>
      match spec.topics.find? fun topic => !catalog.validateTopic topic with
      | some topic => .error (.topicDenied topic)
      | none =>
        if limited : ∀ limit ∈ spec.customRateLimit, rateLimitValid limit = true then
          .ok {
            peerId
            skills := sortNames spec.skills
            topics := sortNames spec.topics
            customRateLimit := spec.customRateLimit
            updatedAt := now.number
            keyed
            skillsSorted := sortNames_idem _
            topicsSorted := sortNames_idem _
            limited }
        else .error (.invalidRateLimit (spec.customRateLimit.getD .nan))
  else .error (.invalidPeerId peerId)

inductive MatrixRequest
  | set (catalog : Catalog) (now : Timestamp) (peerId : JsonString) (spec : MatrixSpec)
  | remove (peerId : JsonString)

section

-- The order of `localeCompare`.
variable (locale : JsonString → JsonString → Bool)

def optionalField (name : String) (value : Option Json) : List (JsonString × Json) :=
  value.toList.map (jsonString name, ·)

def entryJson (entry : PeerMatrixEntry) : Json :=
  object ([(jsonString "peerId", string entry.peerId),
    (jsonString "skills", array (entry.skills.map string)),
    (jsonString "topics", array (entry.topics.map string))] ++
    optionalField "customRateLimit" (entry.customRateLimit.map number) ++
    [(jsonString "updatedAt", number (.finite entry.updatedAt.1 entry.updatedAt.2))])

def listEntries (matrix : PeerMatrix) : List PeerMatrixEntry :=
  matrix.values.mergeSort fun entry other => locale entry.peerId other.peerId

/-- `JSON.stringify` of the persisted matrix, as it is read back. -/
def matrixFile (matrix : PeerMatrix) : Json :=
  fileForm (object [(jsonString "version", number matrixFileVersion),
    (jsonString "entries", array ((listEntries locale matrix).map entryJson))])

def applyMatrix (matrix : PeerMatrix) : MatrixRequest → StoreVerdict PeerMatrix
  | .set catalog now peerId spec =>
    match PeerMatrixEntry.checked catalog now peerId spec with
    | .ok entry => .changed (matrix.set peerId entry)
    | .error _ => .refused
  | .remove peerId =>
    if (matrix.get peerId).isSome then .changed (matrix.delete peerId) else .unchanged

def matrixStore : StoreCode PeerMatrix MatrixRequest Json where
  apply := applyMatrix
  makesDirectory := false
  snapshot := matrixFile locale

end

inductive MatrixFault
  | depth
  | shape
  | invalidEntry
  | updatedAt (peerId : JsonString)
  | customRateLimit (peerId : JsonString)
  deriving DecidableEq

def number? : Json → Option Binary64
  | number value => some value
  | negativeZero => some (.ofInt 0)
  | _ => none

/-- The checks of `load` on an entry.  The lists of an entry hold strings. -/
def readEntry (entry : Json) : Except MatrixFault PeerMatrixEntry :=
  match entry with
  | object fields =>
    match property fields "peerId", names? (property fields "skills"),
      names? (property fields "topics") with
    | some (string peerId), some skills, some topics =>
      if keyed : isPeerId peerId = true then
        match ((property fields "updatedAt").bind number?).bind finite? with
        | none => .error (.updatedAt peerId)
        | some updatedAt =>
          let customRateLimit := (property fields "customRateLimit").map number?
          if limited : ∀ limit ∈ customRateLimit, (limit.any rateLimitValid) = true then
            .ok {
              peerId
              skills := sortNames skills
              topics := sortNames topics
              customRateLimit := customRateLimit.join
              updatedAt
              keyed
              skillsSorted := sortNames_idem _
              topicsSorted := sortNames_idem _
              limited := by
                intro limit member
                have present : some limit ∈ customRateLimit :=
                  Option.join_eq_some_iff.mp member
                have valid := limited _ present
                exact valid }
          else .error (.customRateLimit peerId)
      else .error .invalidEntry
    | _, _, _ => .error .invalidEntry
  | _ => .error .invalidEntry

def readEntries : PeerMatrix → List Json → Except MatrixFault PeerMatrix
  | matrix, [] => .ok matrix
  | matrix, entry :: entries => do
      let read ← readEntry entry
      readEntries (matrix.set read.peerId read) entries

/-- `load` of a file into an empty store. -/
def loadMatrix : Option Json → Except MatrixFault PeerMatrix
  | none => .ok .empty
  | some file =>
    if file.isFalsy then .ok .empty
    else if file.depthValid then
      match file with
      | object fields =>
        match property fields "entries", (property fields "version").bind number? with
        | some (array entries), some version =>
          if version = matrixFileVersion then readEntries .empty entries
          else .error .shape
        | _, _ => .error .shape
      | _ => .error .shape
    else .error .depth

variable {locale : JsonString → JsonString → Bool} {matrix : PeerMatrix}

theorem names?_strings (names : List JsonString) :
    names? (some (array (names.map string))) = some names := by
  unfold names?
  induction names with
  | nil => rfl
  | cons name names ih =>
    simp only [List.map_cons, List.mapM_cons, ih]
    rfl

theorem fileForm_strings (names : List JsonString) :
    fileForm (array (names.map string)) = array (names.map string) := by
  rw [fileForm_array, List.map_map]
  rfl

theorem readEntry_eq {fields : List (JsonString × Json)} {entry : PeerMatrixEntry}
    (peerId : property fields "peerId" = some (string entry.peerId))
    (skills : names? (property fields "skills") = some entry.skills)
    (topics : names? (property fields "topics") = some entry.topics)
    (limit : (property fields "customRateLimit").map number? = entry.customRateLimit.map some)
    (updatedAt : ((property fields "updatedAt").bind number?).bind finite? =
      some entry.updatedAt) : readEntry (object fields) = .ok entry := by
  have limited : ∀ limit ∈ (property fields "customRateLimit").map number?,
      (limit.any rateLimitValid) := by
    rw [limit]
    intro value member
    obtain ⟨value, present, rfl⟩ := Option.mem_map.mp member
    exact entry.limited value present
  obtain ⟨entryId, entrySkills, entryTopics, entryLimit, entryTime, keyed, skillsSorted,
    topicsSorted, entryLimited⟩ := entry
  unfold readEntry
  simp only [peerId, skills, topics, dif_pos keyed, updatedAt, dif_pos limited]
  congr
  rw [limit]
  cases entryLimit <;> rfl

theorem readEntry_entryJson (entry : PeerMatrixEntry) :
    readEntry (fileForm (entryJson entry)) = .ok entry := by
  rw [entryJson, fileForm_object]
  cases limitEq : entry.customRateLimit with
  | none =>
    apply readEntry_eq
    · rfl
    · exact (congrArg (names? ∘ some) (fileForm_strings entry.skills)).trans
        (names?_strings entry.skills)
    · exact (congrArg (names? ∘ some) (fileForm_strings entry.topics)).trans
        (names?_strings entry.topics)
    · rw [limitEq]
      rfl
    · rfl
  | some limit =>
    have valid := entry.limited limit limitEq
    cases limit with
    | infinite | nan => cases valid
    | finite =>
      apply readEntry_eq
      · rfl
      · exact (congrArg (names? ∘ some) (fileForm_strings entry.skills)).trans
          (names?_strings entry.skills)
      · exact (congrArg (names? ∘ some) (fileForm_strings entry.topics)).trans
          (names?_strings entry.topics)
      · rw [limitEq]
        rfl
      · rfl

theorem readEntries_entryJson (entries : List PeerMatrixEntry) (before : PeerMatrix) :
    ∃ matrix, readEntries before ((entries.map entryJson).map fileForm) = .ok matrix ∧
      (∀ peerId, peerId ∉ entries.map PeerMatrixEntry.peerId →
        matrix.get peerId = before.get peerId) ∧ ((entries.map PeerMatrixEntry.peerId).Nodup →
        ∀ entry ∈ entries, matrix.get entry.peerId = some entry) := by
  induction entries generalizing before with
  | nil => exact ⟨before, rfl, fun _ _ => rfl, fun _ => List.forall_mem_nil _⟩
  | cons entry entries ih =>
    obtain ⟨matrix, loaded, absent, present⟩ := ih (before.set entry.peerId entry)
    refine ⟨matrix, ?_, ?_, ?_⟩
    · rw [List.map_cons, List.map_cons, readEntries, readEntry_entryJson]
      exact loaded
    · intro peerId outside
      obtain ⟨apart, outside⟩ := not_or.mp (mt List.mem_cons.mpr outside)
      rw [absent peerId outside, get_set_of_ne _ _ apart]
    · intro nodup
      obtain ⟨fresh, nodup⟩ := List.nodup_cons.mp nodup
      refine List.forall_mem_cons.mpr ⟨?_, present nodup⟩
      rw [absent entry.peerId fresh, get_set_self]

def Keyed (matrix : PeerMatrix) : Prop :=
  ∀ peerId entry, matrix.get peerId = some entry → entry.peerId = peerId

theorem keyed_empty : Keyed .empty := by
  intro peerId entry found
  cases found

theorem Keyed.set (keyed : Keyed matrix) (entry : PeerMatrixEntry) :
    Keyed (matrix.set entry.peerId entry) := by
  intro peerId other found
  rw [get_set] at found
  split at found
  · next same =>
      cases found
      exact same.symm
  · exact keyed peerId other found

theorem Keyed.delete (keyed : Keyed matrix) (removed : JsonString) :
    Keyed (matrix.delete removed) := by
  intro peerId entry found
  rw [get_delete] at found
  split at found
  · cases found
  · exact keyed peerId entry found

theorem Keyed.peerIds (keyed : Keyed matrix) :
    matrix.values.map PeerMatrixEntry.peerId = matrix.keys := by
  rw [values, keys, List.map_map]
  apply List.map_congr_left
  rintro ⟨peerId, entry⟩ member
  exact keyed peerId entry (mem_entries.mp member)

theorem withinDepth_strings (names : List JsonString) :
    withinDepth 4 (array (names.map string)) := by
  refine withinDepth_array.mpr ⟨by decide, List.forall_mem_map.mpr fun _ _ => rfl⟩

theorem withinDepth_entryJson (entry : PeerMatrixEntry) :
    withinDepth 3 (fileForm (entryJson entry)) := by
  rw [entryJson, fileForm_object]
  refine withinDepth_object.mpr ⟨by decide, List.forall_mem_map.mpr ?_⟩
  intro field member
  simp only [optionalField, List.mem_append, List.mem_cons, List.not_mem_nil, or_false,
    List.mem_map, Option.mem_toList] at member
  rcases member with ((rfl | rfl | rfl) | ⟨limit, present, rfl⟩) | rfl
  · rfl
  · show withinDepth 4 (fileForm (array (entry.skills.map string)))
    rw [fileForm_strings]
    exact withinDepth_strings entry.skills
  · show withinDepth 4 (fileForm (array (entry.topics.map string)))
    rw [fileForm_strings]
    exact withinDepth_strings entry.topics
  · obtain ⟨value, _, rfl⟩ := Option.map_eq_some_iff.mp present
    cases value <;> rfl
  · rfl

theorem matrixFile_eq (locale : JsonString → JsonString → Bool) (matrix : PeerMatrix) :
    matrixFile locale matrix = object [(jsonString "version", number matrixFileVersion),
      (jsonString "entries", array (((listEntries locale matrix).map entryJson).map fileForm))] := by
  have version : fileForm (number matrixFileVersion) = number matrixFileVersion :=
    fileForm_ofInt (by decide)
  rw [matrixFile, fileForm_object, List.map_cons, List.map_singleton, fileFormField,
    fileFormField, fileForm_array, version]

theorem loadMatrix_matrixFile (locale : JsonString → JsonString → Bool) (keyed : Keyed matrix) :
    ∃ loaded, loadMatrix (some (matrixFile locale matrix)) = .ok loaded ∧
      ∀ peerId, loaded.get peerId = matrix.get peerId := by
  have perm : (listEntries locale matrix).Perm matrix.values := List.mergeSort_perm _ _
  obtain ⟨loaded, read, absent, present⟩ :=
    readEntries_entryJson (listEntries locale matrix) .empty
  have peerIds : ((listEntries locale matrix).map PeerMatrixEntry.peerId).Perm matrix.keys := by
    rw [← keyed.peerIds]
    exact perm.map _
  have shallow : (matrixFile locale matrix).depthValid := by
    rw [matrixFile_eq]
    refine withinDepth_object.mpr ⟨by decide, ?_⟩
    intro field member
    rcases List.mem_pair.mp member with rfl | rfl
    · rfl
    · refine withinDepth_array.mpr ⟨by decide, List.forall_mem_map.mpr ?_⟩
      exact List.forall_mem_map.mpr fun entry _ => withinDepth_entryJson entry
  have loadedEq : loadMatrix (some (matrixFile locale matrix)) = .ok loaded := by
    rw [matrixFile_eq] at shallow ⊢
    unfold loadMatrix
    simp only [isFalsy, Bool.false_eq_true, if_false, if_pos shallow]
    exact (if_pos rfl).trans read
  refine ⟨loaded, loadedEq, fun peerId => ?_⟩
  cases found : matrix.get peerId with
  | none =>
    have outside : peerId ∉ (listEntries locale matrix).map PeerMatrixEntry.peerId := by
      rw [peerIds.mem_iff, mem_keys]
      rintro ⟨entry, present⟩
      cases found.symm.trans present
    rw [absent peerId outside, get_empty]
  | some entry =>
    have member : entry ∈ listEntries locale matrix := by
      rw [perm.mem_iff, values]
      exact List.mem_map_of_mem (mem_entries.mpr found)
    have nodup : ((listEntries locale matrix).map PeerMatrixEntry.peerId).Nodup :=
      peerIds.nodup_iff.mpr matrix.keys_nodup
    have same := present nodup entry member
    rwa [keyed peerId entry found] at same

theorem Keyed.apply {request : MatrixRequest} {after : PeerMatrix} (keyed : Keyed matrix)
    (applied : applyMatrix matrix request = .changed after) : Keyed after := by
  cases request with
  | set catalog now peerId =>
    simp only [applyMatrix] at applied
    split at applied
    · next entry checked =>
        cases applied
        have sameId : entry.peerId = peerId := by
          unfold PeerMatrixEntry.checked at checked
          split at checked
          · split at checked
            · cases checked
            · split at checked
              · cases checked
              · split at checked
                · cases checked
                  rfl
                · cases checked
          · cases checked
        rw [← sameId]
        exact keyed.set entry
    · cases applied
  | remove peerId =>
    simp only [applyMatrix] at applied
    split at applied
    · cases applied
      exact keyed.delete peerId
    · cases applied

theorem keyed_readEntries {entries : List Json} {before after : PeerMatrix} (keyed : Keyed before)
    (read : readEntries before entries = .ok after) : Keyed after := by
  induction entries generalizing before with
  | nil =>
    cases read
    exact keyed
  | cons entry entries ih =>
    rw [readEntries] at read
    cases first : readEntry entry with
    | error =>
      rw [first] at read
      cases read
    | ok stored =>
      rw [first] at read
      exact ih (keyed.set stored) read

theorem keyed_loadMatrix {file : Option Json} (loaded : loadMatrix file = .ok matrix) :
    Keyed matrix := by
  unfold loadMatrix at loaded
  split at loaded
  · cases loaded
    exact keyed_empty
  · split at loaded
    · cases loaded
      exact keyed_empty
    · split at loaded
      · split at loaded
        · split at loaded
          · split at loaded
            · exact keyed_readEntries keyed_empty loaded
            · cases loaded
          · cases loaded
        · cases loaded
      · cases loaded

end P2PHub.Governance
