import P2PHub.PluginCertification

/-!
# What a certificate pins

Two directories with one content hash have the same files, as far as the walk
of `collectPluginFileHashes` takes them in.  The manifest is not among them.
-/

namespace P2PHub.Certification

open Json ManifestSigning

theorem FileName.eq_of_chars {name other : FileName} (same : name.chars = other.chars) :
    name = other := by
  cases name
  cases other
  cases same
  rfl

theorem relPath_injective {path other : List FileName} (nonempty : path ≠ [])
    (otherNonempty : other ≠ []) (same : relPath path = relPath other) : path = other := by
  obtain ⟨name, rest, rfl⟩ := List.exists_cons_of_ne_nil nonempty
  obtain ⟨otherName, otherRest, rfl⟩ := List.exists_cons_of_ne_nil otherNonempty
  have chars := parts_relPath name rest
  rw [same, parts_relPath] at chars
  exact (List.map_injective_iff.mpr (fun _ _ => FileName.eq_of_chars) chars).symm

/-- In no directory do two entries have one name. -/
inductive UniqueNames : List (FileName × Entry) → Prop
  | intro {entries : List (FileName × Entry)} (names : (entries.map Prod.fst).Nodup)
      (inner : ∀ name listed inner, (name, Entry.directory listed inner) ∈ entries →
        UniqueNames inner) : UniqueNames entries

structure PluginTree extends PluginDir where
  names : UniqueNames entries

theorem UniqueNames.tail {first : FileName × Entry} {entries : List (FileName × Entry)}
    (unique : UniqueNames (first :: entries)) : UniqueNames entries := by
  cases unique with
  | intro names inner =>
    exact .intro (List.nodup_cons.mp names).2 fun name listed within member =>
      inner name listed within (List.mem_cons_of_mem _ member)

section

variable {entries others : List (FileName × Entry)} {path : List FileName} {name : FileName}
  {content other : Content} {readable : Bool}

theorem ships_nonempty (ships : Ships entries path content readable) : path ≠ [] := by
  cases ships with
  | file | directory => exact List.cons_ne_nil _ _

theorem ships_of_lookup (ships : Ships entries (name :: path) content readable)
    (same : others.lookup name = entries.lookup name) :
    Ships others (name :: path) content readable := by
  cases ships with
  | file found included payload => exact .file (same.trans found) included payload
  | directory found included ships => exact .directory (same.trans found) included ships

theorem ships_cons {first : FileName × Entry} (unique : UniqueNames (first :: entries))
    (ships : Ships entries path content readable) :
    Ships (first :: entries) path content readable := by
  obtain ⟨name, rest, rfl⟩ := List.exists_cons_of_ne_nil (ships_nonempty ships)
  apply ships_of_lookup ships
  have located : ∃ entry, entries.lookup name = some entry := by
    cases ships with
    | file found _ _ | directory found => exact ⟨_, found⟩
  obtain ⟨entry, found⟩ := located
  have apart : name ≠ first.1 := by
    rintro rfl
    cases unique with
    | intro names =>
      have absent : entries.lookup first.1 = none := by
        rw [List.lookup_eq_none_iff]
        intro entry member
        rw [bne_iff_ne]
        intro same
        apply (List.nodup_cons.mp names).1
        rw [same]
        exact List.mem_map_of_mem member
      cases absent.symm.trans found
  rw [List.lookup_cons, beq_eq_false_iff_ne.mpr apart]

theorem ships_unique {otherReadable : Bool} (ships : Ships entries path content readable)
    (otherShips : Ships entries path other otherReadable) : content = other := by
  induction ships generalizing otherReadable with
  | file found =>
    cases otherShips with
    | file otherFound =>
      cases found.symm.trans otherFound
      rfl
    | directory otherFound _ otherShips => cases otherShips
  | @directory entries inner name path content listed readable found _ ships ih =>
    cases otherShips with
    | file => cases ships
    | directory otherFound _ otherShips =>
      cases found.symm.trans otherFound
      exact ih otherShips

theorem readEntries_of_ships (ships : Ships entries path content readable)
    (isReadable : readable) {rest : List FileName} (pathEq : path = name :: rest) :
    readEntries entries name.chars (rest.map FileName.chars) = some content := by
  induction ships generalizing name rest with
  | file found =>
    cases pathEq
    rw [readEntries_lookup, found]
    simp [readEntry, isReadable]
  | @directory entries inner name path content listed readable found _ ships ih =>
    cases pathEq
    obtain ⟨next, path, rfl⟩ := List.exists_cons_of_ne_nil (ships_nonempty ships)
    rw [readEntries_lookup, found]
    exact ih (Bool.and_eq_true_iff.mp isReadable).2 rfl

end

section

variable {sha256 : Content → JsonString}

theorem mem_assign {hashes : Hashes} {key hash : JsonString} {entry : JsonString × JsonString}
    (member : entry ∈ assign hashes key hash) : entry ∈ hashes ∨ entry = (key, hash) := by
  unfold assign at member
  split at member
  · exact Or.inl member
  · split at member
    · obtain ⟨before, isBefore, same⟩ := List.mem_map.mp member
      split at same
      · exact Or.inr same.symm
      · rw [same] at isBefore
        exact Or.inl isBefore
    · rcases List.mem_append.mp member with old | new
      · exact Or.inl old
      · exact Or.inr (List.mem_singleton.mp new)

theorem keys_assign_nodup {hashes : Hashes} {key hash : JsonString}
    (nodup : (hashes.map Prod.fst).Nodup) : ((assign hashes key hash).map Prod.fst).Nodup := by
  unfold assign
  split
  · exact nodup
  · split
    · have same : (hashes.map fun entry => if entry.1 = key then (key, hash) else entry).map
          Prod.fst = hashes.map Prod.fst := by
        rw [List.map_map]
        apply List.map_congr_left
        intro entry _
        by_cases isKey : entry.1 = key <;> simp [isKey]
      rw [same]
      exact nodup
    · next absent =>
        rw [List.map_append]
        exact List.Nodup.append nodup (List.nodup_singleton _) (List.disjoint_singleton.mpr absent)

mutual

theorem walkEntry_nodup (rel : JsonString) (name : FileName) (entry : Entry) {hashes : Hashes}
    (nodup : (hashes.map Prod.fst).Nodup) :
    ((walkEntry sha256 rel name entry hashes).map Prod.fst).Nodup := by
  match entry with
  | .file content readable =>
    rw [walkEntry]
    split
    · exact nodup
    · split
      · exact keys_assign_nodup nodup
      · exact nodup
  | .directory listed entries =>
    rw [walkEntry]
    split
    · exact nodup
    · split
      · exact walk_nodup _ entries nodup
      · exact nodup
  | .other _ =>
    exact nodup

theorem walk_nodup (rel : JsonString) (entries : List (FileName × Entry)) {hashes : Hashes}
    (nodup : (hashes.map Prod.fst).Nodup) :
    ((walk sha256 rel entries hashes).map Prod.fst).Nodup := by
  match entries with
  | [] =>
    exact nodup
  | (name, entry) :: entries =>
    exact walk_nodup rel entries (walkEntry_nodup rel name entry nodup)

end

def HashOf (sha256 : Content → JsonString) (rel : JsonString)
    (entries : List (FileName × Entry)) (entry : JsonString × JsonString) : Prop :=
  ∃ path content, Ships entries path content true ∧ entry = (relFrom rel path, sha256 content)

mutual

variable {hashed : JsonString × JsonString}

theorem walkEntry_sound (rel : JsonString) (name : FileName) (entry : Entry) {hashes : Hashes}
    {entries : List (FileName × Entry)} (found : entries.lookup name = some entry)
    (unique : ∀ listed inner, entry = .directory listed inner → UniqueNames inner)
    (member : hashed ∈ walkEntry sha256 rel name entry hashes) :
    hashed ∈ hashes ∨ HashOf sha256 rel entries hashed := by
  match entry with
  | .file content readable =>
    rw [walkEntry] at member
    split at member
    · exact Or.inl member
    · next included =>
        split at member
        · next isReadable =>
            obtain ⟨notExcluded, notBuildInfo⟩ :=
              Bool.or_eq_false_iff.mp (Bool.eq_false_iff.mpr included)
            subst isReadable
            refine (mem_assign member).imp id fun same => ⟨[name], content, ?_, same⟩
            exact .file found notExcluded notBuildInfo
        · exact Or.inl member
  | .directory listed inner =>
    rw [walkEntry] at member
    split at member
    · exact Or.inl member
    · next included =>
        split at member
        · next isListed =>
            subst isListed
            refine (walk_sound (relChild rel name) inner (unique _ _ rfl) member).imp id ?_
            rintro ⟨path, content, ships, same⟩
            exact ⟨name :: path, content,
              .directory found (Bool.eq_false_iff.mpr included) ships, same⟩
        · exact Or.inl member
  | .other _ =>
    exact Or.inl member

theorem walk_sound (rel : JsonString) (entries : List (FileName × Entry)) {hashes : Hashes}
    (unique : UniqueNames entries) (member : hashed ∈ walk sha256 rel entries hashes) :
    hashed ∈ hashes ∨ HashOf sha256 rel entries hashed := by
  match entries with
  | [] =>
    exact Or.inl member
  | (name, entry) :: rest =>
    rcases walk_sound rel rest unique.tail member with first | later
    · have here : ((name, entry) :: rest).lookup name = some entry := by
        rw [List.lookup_cons, beq_self_eq_true]
      refine walkEntry_sound rel name entry here ?_ first
      rintro listed inner rfl
      cases unique with
      | intro _ within => exact within name listed inner List.mem_cons_self
    · obtain ⟨path, content, ships, same⟩ := later
      exact Or.inr ⟨path, content, ships_cons unique ships, same⟩

end

end

section

variable {sha256 : Content → JsonString} {path : List FileName} {content : Content}
  {dir : PluginTree} {entry : JsonString × JsonString} {fields : List (JsonString × Json)}

/-- A regular file that the walk hashes: it can be read, lies in directories
that can be listed, and has none of the names left out. -/
def Pinned (dir : PluginDir) (path : List FileName) (content : Content) : Prop :=
  dir.listed = true ∧ Ships dir.entries path content true ∧ relPath path ≠ jsonString "__proto__"

theorem collected_nodup (dir : PluginDir) :
    ((collectPluginFileHashes sha256 dir).map Prod.fst).Nodup := by
  unfold collectPluginFileHashes
  split
  · exact walk_nodup _ _ List.nodup_nil
  · exact List.nodup_nil

theorem hashOf_collected (member : entry ∈ collectPluginFileHashes sha256 dir.toPluginDir) :
    dir.listed ∧ HashOf sha256 [] dir.entries entry := by
  unfold collectPluginFileHashes at member
  split at member
  · next listed =>
      rcases walk_sound [] dir.entries dir.names member with earlier | hashOf
      · cases earlier
      · exact ⟨listed, hashOf⟩
  · cases member

theorem content_of_collected {hash : JsonString} (nonempty : path ≠ [])
    (member : (relPath path, hash) ∈ collectPluginFileHashes sha256 dir.toPluginDir) :
    dir.listed ∧ ∃ content, Ships dir.entries path content true ∧ hash = sha256 content := by
  obtain ⟨listed, other, content, ships, same⟩ := hashOf_collected member
  obtain ⟨relEq, rfl⟩ := Prod.mk.inj same
  obtain rfl := relPath_injective nonempty (ships_nonempty ships) relEq
  exact ⟨listed, content, ships, rfl⟩

theorem collected_of_pinned (pinned : Pinned dir.toPluginDir path content) :
    (relPath path, sha256 content) ∈ collectPluginFileHashes sha256 dir.toPluginDir := by
  obtain ⟨listed, ships, plain⟩ := pinned
  have reported : relPath path ∈ (collectPluginFileHashes sha256 dir.toPluginDir).map Prod.fst := by
    rw [collectPluginFileHashes, if_pos listed]
    exact walk_reports sha256 ships rfl [] plain []
  obtain ⟨⟨key, hash⟩, member, rfl⟩ := List.mem_map.mp reported
  obtain ⟨_, other, otherShips, rfl⟩ := content_of_collected (ships_nonempty ships) member
  obtain rfl := ships_unique ships otherShips
  exact member

theorem hashFields_keys (files : Hashes) :
    (hashFields files).map Prod.fst = files.map Prod.fst := by
  rw [hashFields, List.map_map]
  rfl

def Texts (fields : List (JsonString × Json)) : Prop :=
  ∀ field ∈ fields, ∃ text, field.2 = string text

theorem Texts.distinct (texts : Texts fields)
    (keys : (fields.map Prod.fst).Nodup) : Distinct (object fields) := by
  refine .object keys fun field member => ?_
  obtain ⟨text, isText⟩ := texts field member
  rw [isText]
  exact .string text

theorem Texts.finite (texts : Texts fields) : Finite (object fields) := by
  refine .object fun field member => ?_
  obtain ⟨text, isText⟩ := texts field member
  rw [isText]
  exact .string text

theorem texts_hashFields (files : Hashes) : Texts (hashFields files) := by
  intro field member
  obtain ⟨entry, _, rfl⟩ := List.mem_map.mp member
  exact ⟨entry.2, rfl⟩

theorem mem_of_contentText {files others : Hashes} (nodup : (files.map Prod.fst).Nodup)
    (otherNodup : (others.map Prod.fst).Nodup) (texts : contentText files = contentText others)
    (member : entry ∈ others) : entry ∈ files := by
  have same := (canonicalizeJson_eq_iff
    ((texts_hashFields files).distinct (by rwa [hashFields_keys]))
    ((texts_hashFields others).distinct (by rwa [hashFields_keys]))
    (texts_hashFields files).finite (texts_hashFields others).finite).mp (encode_injective texts)
  cases same with
  | object keys each =>
    have isKey : entry.1 ∈ (hashFields others).map Prod.fst := by
      rw [hashFields_keys]
      exact List.mem_map_of_mem member
    have present := (keys entry.1).mpr isKey
    rw [hashFields_keys] at present
    obtain ⟨⟨key, hash⟩, found, keyEq⟩ := List.mem_map.mp present
    cases keyEq
    have hashes := each _ (string hash) (string entry.2) (List.mem_map_of_mem found)
      (List.mem_map_of_mem member)
    cases hashes with
    | string => exact found

def hashedContents (sha256 : Content → JsonString) (dir : PluginDir) : Set Content :=
  fun content => content = contentText (collectPluginFileHashes sha256 dir) ∨
    ∃ path, Ships dir.entries path content true

/-- No two of the contents that are hashed for two directories collide. -/
def CollisionFree (sha256 : Content → JsonString) (first second : PluginDir) : Prop :=
  Set.InjOn sha256 (hashedContents sha256 first ∪ hashedContents sha256 second)

theorem CollisionFree.symm {first second : PluginDir}
    (free : CollisionFree sha256 first second) : CollisionFree sha256 second first := by
  unfold CollisionFree
  rw [Set.union_comm]
  exact free

theorem pinned_of_contentHash {reviewed loaded : PluginTree}
    (free : CollisionFree sha256 reviewed.toPluginDir loaded.toPluginDir)
    (same : computePluginContentHash sha256 reviewed.toPluginDir =
      computePluginContentHash sha256 loaded.toPluginDir)
    (pinned : Pinned loaded.toPluginDir path content) :
    Pinned reviewed.toPluginDir path content := by
  have texts : contentText (collectPluginFileHashes sha256 reviewed.toPluginDir) =
      contentText (collectPluginFileHashes sha256 loaded.toPluginDir) :=
    free (Or.inl (Or.inl rfl)) (Or.inr (Or.inl rfl)) same
  have collected : (relPath path, sha256 content) ∈
      collectPluginFileHashes sha256 reviewed.toPluginDir :=
    mem_of_contentText (collected_nodup _) (collected_nodup _) texts (collected_of_pinned pinned)
  obtain ⟨_, ships, plain⟩ := pinned
  obtain ⟨listed, other, otherShips, hashes⟩ :=
    content_of_collected (ships_nonempty ships) collected
  have contents : content = other :=
    free (Or.inr (Or.inr ⟨path, ships⟩)) (Or.inl (Or.inr ⟨path, otherShips⟩)) hashes
  subst contents
  exact ⟨listed, otherShips, plain⟩

theorem readFile_of_pinned {dir : PluginDir} (pinned : Pinned dir path content) :
    readFile dir (relPath path) = some content := by
  obtain ⟨name, rest, rfl⟩ := List.exists_cons_of_ne_nil (ships_nonempty pinned.2.1)
  rw [readFile, parts_relPath]
  exact readEntries_of_ships pinned.2.1 rfl rfl

/-- Two directories have the same pinned files, which are read at the same
paths. -/
structure PinnedAlike (reviewed loaded : PluginDir) : Prop where
  files : ∀ path content, Pinned reviewed path content ↔ Pinned loaded path content
  reads : ∀ path content, Pinned loaded path content →
    readFile reviewed (relPath path) = some content ∧ readFile loaded (relPath path) = some content

variable {parseDate : JsonString → Option Int} {verify : Ed25519}

/-- What reviewers have signed for: a directory as it was, a plugin id and the
time of the review. -/
abbrev Reviews := PluginTree → JsonString → JsonString → Prop

/-- Only what a reviewer has signed is verified under a reviewer's key. -/
def Unforgeable (sha256 : Content → JsonString) (verify : Ed25519)
    (reviewerPublicKeys : List JsonString) (reviews : Reviews) : Prop :=
  ∀ payload signature, ∀ publicKey ∈ reviewerPublicKeys,
    verify payload publicKey signature = .ok true →
      ∃ reviewed pluginId certifiedAt, reviews reviewed pluginId certifiedAt ∧
        payload = Utf8.encode (certificationSignaturePayload pluginId
          (computePluginContentHash sha256 reviewed.toPluginDir) certifiedAt)

theorem payload_injective {pluginId contentHash certifiedAt otherId otherHash otherAt : JsonString}
    (same : certificationSignaturePayload pluginId contentHash certifiedAt =
      certificationSignaturePayload otherId otherHash otherAt) :
    pluginId = otherId ∧ contentHash = otherHash ∧ certifiedAt = otherAt := by
  have texts (first second third : JsonString) :
      Texts [(jsonString "pluginId", string first), (jsonString "contentHash", string second),
        (jsonString "certifiedAt", string third)] := by
    intro field member
    simp only [List.mem_cons, List.not_mem_nil, or_false] at member
    rcases member with rfl | rfl | rfl
    · exact ⟨first, rfl⟩
    · exact ⟨second, rfl⟩
    · exact ⟨third, rfl⟩
  have keys : [jsonString "pluginId", jsonString "contentHash",
      jsonString "certifiedAt"].Nodup := by
    decide +kernel
  have values := (canonicalizeJson_eq_iff ((texts pluginId contentHash certifiedAt).distinct keys)
    ((texts otherId otherHash otherAt).distinct keys) (texts _ _ _).finite
    (texts _ _ _).finite).mp same
  cases values with
  | object _ each =>
    have first := each _ _ _ List.mem_cons_self List.mem_cons_self
    have second := each _ _ _ (List.mem_cons_of_mem _ List.mem_cons_self)
      (List.mem_cons_of_mem _ List.mem_cons_self)
    have third := each _ _ _ (List.mem_cons_of_mem _ (List.mem_cons_of_mem _ List.mem_cons_self))
      (List.mem_cons_of_mem _ (List.mem_cons_of_mem _ List.mem_cons_self))
    cases first
    cases second
    cases third
    exact ⟨rfl, rfl, rfl⟩

/-- A directory that is certified for a plugin id has the pinned files of a
directory that a reviewer has signed for under that id, byte for byte. -/
theorem certificate_pins {reviews : Reviews} {loaded : PluginTree} {manifestId : JsonString}
    {reviewerPublicKeys : List JsonString} {revocation : RevocationList} {now later : Int}
    {record : CertificationRecord}
    (unforgeable : Unforgeable sha256 verify reviewerPublicKeys reviews)
    (free : ∀ reviewed pluginId certifiedAt, reviews reviewed pluginId certifiedAt →
      CollisionFree sha256 reviewed.toPluginDir loaded.toPluginDir)
    (certified : verifyPluginCertification parseDate verify sha256 loaded.toPluginDir manifestId
      reviewerPublicKeys revocation now later = .ok record) :
    ∃ reviewed, reviews reviewed manifestId record.certifiedAt ∧
      PinnedAlike reviewed.toPluginDir loaded.toPluginDir := by
  have holds := certified_of_verified certified
  obtain ⟨publicKey, member, verified⟩ := holds.signed
  obtain ⟨reviewed, pluginId, certifiedAt, review, payload⟩ :=
    unforgeable _ _ publicKey member verified
  obtain ⟨idEq, hashEq, timeEq⟩ := payload_injective (encode_injective payload)
  have same : computePluginContentHash sha256 reviewed.toPluginDir =
      computePluginContentHash sha256 loaded.toPluginDir :=
    hashEq.symm.trans holds.contentHash
  rw [← idEq, ← timeEq, holds.pluginId] at review
  have collisionFree := free _ _ _ review
  have onlyIf (path : List FileName) (content : Content)
      (pinned : Pinned loaded.toPluginDir path content) :
      Pinned reviewed.toPluginDir path content :=
    pinned_of_contentHash collisionFree same pinned
  refine ⟨reviewed, review, fun path content => ⟨fun pinned => ?_, onlyIf path content⟩,
    fun path content pinned => ?_⟩
  · exact pinned_of_contentHash collisionFree.symm same.symm pinned
  · exact ⟨readFile_of_pinned (onlyIf path content pinned), readFile_of_pinned pinned⟩

end

def manifestFields (dir : PluginDir) : Option (List (JsonString × Json)) :=
  match (readFile dir (jsonString "manifest.json")).map fun content =>
      parse (Utf8.decode content) with
  | some (some (object fields)) => some fields
  | _ => none

def manifestEntry (dir : PluginDir) : Option JsonString :=
  match (manifestFields dir).bind fun fields => property fields "entry" with
  | some (string entry) => some entry
  | _ => none

def permissionText : Json → Option JsonString
  | string permission => some permission
  | _ => none

def manifestPermissions (dir : PluginDir) : Option (List JsonString) :=
  match (manifestFields dir).bind fun fields => property fields "permissions" with
  | some (array permissions) => permissions.mapM permissionText
  | _ => none

def manifestFileName : FileName :=
  ⟨"manifest.json".toList, by decide, by decide, by decide, by decide, by decide⟩

def hexDigits : Nat → Nat → JsonString
  | 0, _ => []
  | count + 1, value =>
    let digit := value % 16
    hexDigits count (value / 16) ++ [UInt16.ofNat (if digit < 10 then 48 + digit else 87 + digit)]

/-- The record of a review of a plugin with the one file `abc`. -/
def demoRecord : CertificationRecord where
  pluginId := jsonString "demo"
  contentHash := hexDigits 64 0xe4228937d910df521bdadece9d1c0075d94dcf2933224fe0fc0193011f82cd3e
  certifiedAt := jsonString "2026-01-01T00:00:00.000Z"
  expiresAt := none
  reviewerId := jsonString "reviewer"
  signature :=
    hexDigits 64 0xfd8149293eef222b458caff2c99d77c63f040c59d9a3fbbd8672e2de2ca74c8c ++
      hexDigits 64 0x0d814ab411be82e606bddf80716bd329640753585f6d7a26befe626890102b00

def demoKey : JsonString :=
  hexDigits 64 0xd75a980182b10ab7d54bfed3c964073a0ee172f3daa62325af021a68f707511a

def demoFileHash : JsonString :=
  hexDigits 64 0xba7816bf8f01cfea414140de5dae2223b00361a396177a9cb410ff61f20015ad

def demoText : Content :=
  contentText [(jsonString "index.js", demoFileHash)]

/-- The hashes of the content `abc` and of the text of the map of its hash. -/
def demoHash (content : Content) : JsonString :=
  if content = [97, 98, 99] then demoFileHash else demoRecord.contentHash

def demoVerify : Ed25519 := fun payload publicKey signature =>
  .ok (decide (payload = demoRecord.payload ∧ publicKey = demoKey ∧
    signature = demoRecord.signature))

def demoDate (text : JsonString) : Option Int :=
  if text = demoRecord.certifiedAt then some 1767225600000 else none

def jsonFile (fields : List (JsonString × Json)) : Entry :=
  .file (Utf8.encode (canonicalizeJson (object fields))) true

/-- The plugin with a manifest of an entry and of permissions. -/
def demoTree (entry : String) (permissions : List String) : PluginTree where
  path := jsonString "/plugins/demo"
  listed := true
  entries := [ (manifestFileName, jsonFile [(jsonString "id", string (jsonString "demo")),
      (jsonString "entry", string (jsonString entry)),
      (jsonString "permissions", array (permissions.map fun name => string (jsonString name)))]),
    (certificationFileName, jsonFile [(jsonString "pluginId", string demoRecord.pluginId),
      (jsonString "contentHash", string demoRecord.contentHash),
      (jsonString "certifiedAt", string demoRecord.certifiedAt),
      (jsonString "certificateVersion", string (jsonString "1.0")),
      (jsonString "reviewerId", string demoRecord.reviewerId),
      (jsonString "signature", string demoRecord.signature)]),
    (indexName, .file [97, 98, 99] true)]
  names := .intro (by simp only [List.map_cons, List.map_nil]; decide +kernel) fun
    name listed inner member => by
      simp only [jsonFile, List.mem_cons, Prod.mk.injEq, reduceCtorEq, and_false,
        List.not_mem_nil, or_false] at member

def reviewedTree : PluginTree :=
  demoTree "./index.js" []

def loadedTree : PluginTree :=
  demoTree "./node_modules/other.js" ["identity:sign"]

def demoVerdict (tree : PluginTree) : Except Refusal CertificationRecord :=
  verifyPluginCertification demoDate demoVerify demoHash tree.toPluginDir (jsonString "demo")
    [demoKey] ⟨[]⟩ 1767225600000 1767225600000

theorem demo_certified :
    (demoVerdict reviewedTree).isOk ∧ (demoVerdict loadedTree).isOk := by
  constructor <;> decide +kernel

/-- A certificate holds for a manifest of another entry and other permissions. -/
theorem manifest_not_pinned :
    (demoVerdict reviewedTree).isOk ∧ (demoVerdict loadedTree).isOk ∧
    computePluginContentHash demoHash reviewedTree.toPluginDir =
      computePluginContentHash demoHash loadedTree.toPluginDir ∧
    manifestEntry reviewedTree.toPluginDir = some (jsonString "./index.js") ∧
    manifestEntry loadedTree.toPluginDir = some (jsonString "./node_modules/other.js") ∧
    manifestPermissions reviewedTree.toPluginDir = some [] ∧
    manifestPermissions loadedTree.toPluginDir = some [jsonString "identity:sign"] := by
  refine ⟨demo_certified.1, demo_certified.2, ?_⟩
  decide +kernel

theorem ships_demoTree {entry : String} {permissions : List String} {path : List FileName}
    {content : Content} {readable : Bool}
    (ships : Ships (demoTree entry permissions).entries path content readable) :
    content = [97, 98, 99] := by
  have only {name : FileName} {found : Entry} (included : isExcluded name = false)
      (located : (demoTree entry permissions).entries.lookup name = some found) :
      found = .file [97, 98, 99] true := by
    simp only [demoTree, List.lookup_cons] at located
    split at located
    · next same =>
        rw [beq_iff_eq.mp same] at included
        cases included
    · split at located
      · next same =>
          rw [beq_iff_eq.mp same] at included
          cases included
      · split at located
        · exact (Option.some.inj located).symm
        · cases located
  cases ships with
  | file located included =>
    cases only included located
    rfl
  | directory located included => cases only included located

theorem collisionFree_demo :
    CollisionFree demoHash reviewedTree.toPluginDir loadedTree.toPluginDir := by
  have contents {content : Content}
      (hashed : content ∈ hashedContents demoHash reviewedTree.toPluginDir ∪
        hashedContents demoHash loadedTree.toPluginDir) :
      content = [97, 98, 99] ∨ content = demoText := by
    rcases hashed with (text | ⟨path, ships⟩) | (text | ⟨path, ships⟩)
    · right
      rw [text]
      decide +kernel
    · exact Or.inl (ships_demoTree ships)
    · right
      rw [text]
      decide +kernel
    · exact Or.inl (ships_demoTree ships)
  have apart : demoHash [97, 98, 99] ≠ demoHash demoText := by decide +kernel
  intro first isFirst second isSecond same
  rcases contents isFirst with rfl | rfl <;> rcases contents isSecond with rfl | rfl
  · rfl
  · exact absurd same apart
  · exact absurd same.symm apart
  · rfl

/-- The one review is that of the plugin with its first manifest. -/
theorem certificate_pins_demo : PinnedAlike reviewedTree.toPluginDir loadedTree.toPluginDir := by
  have signed : demoRecord.payload = Utf8.encode (certificationSignaturePayload
      (jsonString "demo") (computePluginContentHash demoHash reviewedTree.toPluginDir)
      demoRecord.certifiedAt) := by
    decide +kernel
  have unforgeable : Unforgeable demoHash demoVerify [demoKey] fun reviewed pluginId certifiedAt =>
      reviewed = reviewedTree ∧ pluginId = jsonString "demo" ∧
        certifiedAt = demoRecord.certifiedAt := by
    intro payload signature publicKey _ verified
    have isSigned := of_decide_eq_true (Except.ok.inj verified)
    exact ⟨reviewedTree, _, _, ⟨rfl, rfl, rfl⟩, isSigned.1.trans signed⟩
  have certified := demo_certified.2
  cases result : demoVerdict loadedTree with
  | error =>
    rw [result] at certified
    cases certified
  | ok =>
    obtain ⟨reviewed, ⟨rfl, _, _⟩, alike⟩ := certificate_pins unforgeable
      (by rintro reviewed _ _ ⟨rfl, _, _⟩; exact collisionFree_demo) result
    exact alike

end P2PHub.Certification
