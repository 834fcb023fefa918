import P2PHub.PluginFileCoverage
import P2PHub.RevocationRegister

/-!
# Plugin certificates

A certificate names a plugin and the hash of its content, and is signed by a
reviewer.  A directory is certified when its own certificate is for its plugin
id, for the hash of its content as it is now, and not revoked.  SHA-256,
Ed25519 and `Date.parse` are parameters.
-/

namespace P2PHub.Certification

open Json ManifestSigning

section

variable (hashFileContent : Content → JsonString)

def hashFields (files : Hashes) : List (JsonString × Json) :=
  files.map fun entry => (entry.1, string entry.2)

/-- The bytes that the hash of the content is taken of. -/
def contentText (files : Hashes) : Content :=
  Utf8.encode (canonicalizeJson (object (hashFields files)))

def contentHashFromFileHashes (files : Hashes) : JsonString :=
  hashFileContent (contentText files)

def computePluginContentHash (dir : PluginDir) : JsonString :=
  contentHashFromFileHashes hashFileContent (collectPluginFileHashes hashFileContent dir)

end

section

structure CertificationRecord where
  pluginId : JsonString
  contentHash : JsonString
  certifiedAt : JsonString
  expiresAt : Option JsonString
  reviewerId : JsonString
  signature : JsonString
  deriving DecidableEq

/-- A check fails with a reason, or throws. -/
inductive Refusal
  | failed (reason : JsonString)
  | thrown

def refuse {α : Type} (reason : String) : Except Refusal α :=
  .error (.failed (jsonString reason))

def certificationSignaturePayload (pluginId contentHash certifiedAt : JsonString) : List Char :=
  canonicalizeJson (object [(jsonString "pluginId", string pluginId),
    (jsonString "contentHash", string contentHash),
    (jsonString "certifiedAt", string certifiedAt)])

def CertificationRecord.payload (record : CertificationRecord) : List UInt8 :=
  Utf8.encode (certificationSignaturePayload record.pluginId record.contentHash record.certifiedAt)

def unsupportedVersion {α : Type} (version : JsonString) : Except Refusal α :=
  .error (.failed (quoted "unsupported certificate version \"" version "\""))

def checkVersion (fields : List (JsonString × Json)) : Except Refusal Unit :=
  match property fields "certificateVersion" with
  | some (string version) =>
    if version = jsonString "1.0" then .ok () else unsupportedVersion version
  | some version =>
    match toText version with
    | some text => unsupportedVersion text
    | none => .error .thrown
  | none => unsupportedVersion (jsonString "undefined")

/-- A property that must be a string with a further property. -/
def textField (fields : List (JsonString × Json)) (key : String) (valid : JsonString → Bool)
    (reason : String) : Except Refusal JsonString :=
  match property fields key with
  | some (string text) => if valid text then .ok text else refuse reason
  | _ => refuse reason

variable (parseDate : JsonString → Option Int)

def checkExpiry (now : Int) (fields : List (JsonString × Json)) :
    Except Refusal (Option JsonString) :=
  match property fields "expiresAt" with
  | none => .ok none
  | some (string text) =>
    match parseDate text with
    | some expiry =>
      if expiry ≤ now then .error (.failed (jsonString "certificate expired at " ++ text))
      else .ok (some text)
    | none => refuse "\"expiresAt\" must be a valid ISO date"
  | some _ => refuse "\"expiresAt\" must be a valid ISO date"

/-- The fields of a record, as they are checked before its signature. -/
def checkRecord (now : Int) (record : Json) : Except Refusal CertificationRecord :=
  match record with
  | object fields => do
      checkVersion fields
      let pluginId ← textField fields "pluginId" (fun text => !text.isEmpty)
        "\"pluginId\" must be a non-empty string"
      let contentHash ← textField fields "contentHash" (isHex 64)
        "\"contentHash\" must be 64 hex chars"
      let certifiedAt ← textField fields "certifiedAt" (fun text => (parseDate text).isSome)
        "\"certifiedAt\" must be a valid ISO date"
      let expiresAt ← checkExpiry parseDate now fields
      let reviewerId ← textField fields "reviewerId" (fun text => !text.isEmpty)
        "\"reviewerId\" must be a non-empty string"
      let signature ← textField fields "signature" isSignature "\"signature\" must be 128 hex chars"
      return { pluginId, contentHash, certifiedAt, expiresAt, reviewerId, signature }
  | _ => refuse "certification record must be an object"

variable (verify : Ed25519)

/-- A key that verifies a signature.  A bad key is passed over. -/
def verifies (payload : List UInt8) (publicKey signature : JsonString) : Bool :=
  match verify payload publicKey signature with
  | .ok valid => valid
  | .error _ => false

/-- The checked record, with the key that its signature verifies under. -/
def verifyCertificationSignature (now : Int) (record : Json) (publicKeys : List JsonString) :
    Except Refusal (CertificationRecord × JsonString) := do
  let checked ← checkRecord parseDate now record
  let validKeys := publicKeys.filter isPublicKey
  if validKeys = [] then refuse "no valid reviewer public key configured"
  else
    match validKeys.find? fun key => verifies verify checked.payload key checked.signature with
    | some publicKey => .ok (checked, publicKey)
    | none => refuse "signature does not verify against any reviewer key"

/-- What the verification of a certificate needs besides the record. -/
structure CertificationVerificationDeps where
  actualContentHash : Option JsonString
  expectedPluginId : Option JsonString
  revocationList : RevocationList

def verifyCertification (now : Int) (record : Json) (publicKeys : List JsonString)
    (deps : CertificationVerificationDeps) : Except Refusal (CertificationRecord × JsonString) := do
  let checked ← verifyCertificationSignature parseDate verify now record publicKeys
  match deps.expectedPluginId.filter fun expected => checked.1.pluginId ≠ expected with
  | some expected =>
    .error (.failed (quoted "certificate is for plugin \"" checked.1.pluginId "\", not \"" ++
      expected ++ jsonString "\""))
  | none =>
    if deps.actualContentHash.any fun actual => checked.1.contentHash ≠ actual then
      refuse "certificate content hash does not match the loaded plugin content"
    else if deps.revocationList.isRevoked checked.1.contentHash then
      refuse "certificate is revoked"
    else .ok checked

/-- What `readJsonFile` yields at the path of the certificate. -/
inductive RecordFile
  | missing
  | unparsable
  | parsed (record : Json)

def parseRecord (content : Content) : RecordFile :=
  match parse (Utf8.decode content) with
  | some record => .parsed record
  | none => .unparsable

def certificationFileName : FileName :=
  ⟨"certification.json".toList, by decide, by decide, by decide, by decide, by decide⟩

/-- A file that cannot be read is an error, and a link to nothing is no file. -/
def readCertificationRecord (dir : PluginDir) : RecordFile :=
  match dir.entries.lookup certificationFileName with
  | some (.file content true) => parseRecord content
  | some (.file _ false) => .unparsable
  | some (.directory _ _) => .unparsable
  | some (.other behind) =>
    match behind [] with
    | some content => parseRecord content
    | none => .missing
  | none => .missing

variable (hashFileContent : Content → JsonString)

/-- Whether a directory is certified for a plugin id, with the time before and
after its content is hashed. -/
def verifyPluginCertification (dir : PluginDir) (manifestId : JsonString)
    (reviewerPublicKeys : List JsonString) (revocation : RevocationList) (now later : Int) :
    Except Refusal CertificationRecord :=
  match readCertificationRecord dir with
  | .missing => refuse "no certification record"
  | .unparsable => .error .thrown
  | .parsed null => refuse "no certification record"
  | .parsed record => do
      let _ ← verifyCertificationSignature parseDate verify now record reviewerPublicKeys
      let full ← verifyCertification parseDate verify later record reviewerPublicKeys
        ⟨some (computePluginContentHash hashFileContent dir), some manifestId, revocation⟩
      return full.1

end

variable {parseDate : JsonString → Option Int} {verify : Ed25519}
  {hashFileContent : Content → JsonString} {now later : Int} {publicKeys : List JsonString}

theorem ok_bind {α β : Type} {first : Except Refusal α} {next : α → Except Refusal β} {result : β}
    (ok : (first >>= next) = .ok result) : ∃ value, first = .ok value ∧ next value = .ok result :=
    by
  cases first with
  | error => cases ok
  | ok value => exact ⟨value, rfl, ok⟩

theorem signature_verified {record : Json} {checked : CertificationRecord × JsonString}
    (accepted : verifyCertificationSignature parseDate verify now record publicKeys = .ok checked) :
    checked.2 ∈ publicKeys ∧ verify checked.1.payload checked.2 checked.1.signature = .ok true := by
  obtain ⟨fields, _, accepted⟩ := ok_bind accepted
  dsimp only at accepted
  split at accepted
  · cases accepted
  · split at accepted
    · next publicKey found =>
        cases accepted
        have member := (List.mem_filter.mp (List.mem_of_find?_eq_some found)).1
        have verified := List.find?_some found
        unfold verifies at verified
        split at verified
        · next valid isOk =>
            rw [verified] at isOk
            exact ⟨member, isOk⟩
        · cases verified
    · cases accepted

/-- What a certified directory has: a certificate that a reviewer's key verifies,
for its plugin id and for its content, which is not revoked. -/
structure Certified (verify : Ed25519) (hashFileContent : Content → JsonString) (dir : PluginDir)
    (manifestId : JsonString) (reviewerPublicKeys : List JsonString) (revocation : RevocationList)
    (record : CertificationRecord) : Prop where
  signed : ∃ publicKey ∈ reviewerPublicKeys,
    verify record.payload publicKey record.signature = .ok true
  pluginId : record.pluginId = manifestId
  contentHash : record.contentHash = computePluginContentHash hashFileContent dir
  unrevoked : revocation.isRevoked record.contentHash = false

theorem certified_of_verified {dir : PluginDir} {manifestId : JsonString}
    {revocation : RevocationList} {record : CertificationRecord}
    (accepted : verifyPluginCertification parseDate verify hashFileContent dir manifestId
      publicKeys revocation now later = .ok record) :
    Certified verify hashFileContent dir manifestId publicKeys revocation record := by
  unfold verifyPluginCertification at accepted
  split at accepted
  · cases accepted
  · cases accepted
  · cases accepted
  · obtain ⟨_, _, accepted⟩ := ok_bind accepted
    obtain ⟨full, verified, same⟩ := ok_bind accepted
    cases same
    obtain ⟨checked, signature, decided⟩ := ok_bind verified
    split at decided
    · cases decided
    · next expected =>
        split at decided
        · cases decided
        · next actual =>
            split at decided
            · cases decided
            · next listed =>
                cases decided
                obtain ⟨member, isValid⟩ := signature_verified signature
                refine ⟨⟨_, member, isValid⟩, ?_, ?_, Bool.eq_false_iff.mpr listed⟩
                · simpa using expected
                · simpa using actual

end P2PHub.Certification
