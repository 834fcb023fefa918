import P2PHub.AsyncCalls
import P2PHub.SignatureDomains
import P2PHub.VaultManager

/-!
# The identity manager

The keypair of the operator and those of its agents, after
`core/src/identity/identity-manager.ts` and `core/src/identity/child-identity.ts`.
A call is cut at its awaits: a secret is read, or the file replaced, in one turn,
and the call goes on with the answer in a later one.
-/

namespace P2PHub.Identity

open VaultManager Json

/-- Ed25519 keys with their PKCS8 text and the derivation of children.
`createPrivateKey` gives nothing where the platform throws. -/
structure KeyMaterial (PrivateKey : Type) extends Ed25519Scheme PrivateKey where
  exportPem : PrivateKey → String
  createPrivateKey : String → Option PrivateKey
  deriveChildKey : PrivateKey → String → PrivateKey

/-- An exported key is imported as itself, and a signature verifies under its
key. -/
structure KeyMaterial.Lawful {PrivateKey : Type} (keys : KeyMaterial PrivateKey) : Prop where
  imports (key : PrivateKey) : keys.createPrivateKey (keys.exportPem key) = some key
  verifies (key : PrivateKey) (message : List UInt8) :
    keys.verify (keys.publicKeyHex key) message (keys.sign key message) = true

def privateKeyKey : String :=
  "identity.privateKey"

def publicKeyKey : String :=
  "identity.publicKey"

def childKeyPrefix : String :=
  "identity.agent."

def childPrivateKeyKey (label : String) : String :=
  childKeyPrefix ++ label ++ ".privateKey"

def childPublicKeyKey (label : String) : String :=
  childKeyPrefix ++ label ++ ".publicKey"

def childCertificateKey (label : String) : String :=
  childKeyPrefix ++ label ++ ".certificate"

/-- Whether a label matches `^[a-zA-Z0-9][a-zA-Z0-9._-]{0,63}$`. -/
def isValidChildLabel (label : String) : Bool :=
  match label.toList with
  | [] => false
  | first :: rest =>
    first.isAlphanum && decide (rest.length ≤ 63) &&
      rest.all fun char => char.isAlphanum || char = '.' || char = '_' || char = '-'

theorem privateKeyKey_ne_publicKeyKey : privateKeyKey ≠ publicKeyKey := by
  decide

/-- No name of a child's secret is one of the operator's: they differ after
`identity.`. -/
theorem ninth_of_child (label suffix : String) :
    (childKeyPrefix ++ label ++ suffix).toList[9]? = some 'a' := by
  have front : childKeyPrefix.toList = "identity.".toList ++ 'a' :: "gent.".toList := by decide
  rw [String.toList_append, String.toList_append, front]
  rfl

theorem childKey_ne_privateKeyKey (label suffix : String) :
    childKeyPrefix ++ label ++ suffix ≠ privateKeyKey := by
  intro same
  have ninth := ninth_of_child label suffix
  rw [same] at ninth
  revert ninth
  decide

theorem childKey_ne_publicKeyKey (label suffix : String) :
    childKeyPrefix ++ label ++ suffix ≠ publicKeyKey := by
  intro same
  have ninth := ninth_of_child label suffix
  rw [same] at ninth
  revert ninth
  decide

/-- Names of children's secrets whose endings differ at a place are apart, for
any two labels. -/
theorem childKey_ne_of_ending {label other suffix otherSuffix : String} (place : Nat)
    (inside : place < suffix.toList.length) (otherInside : place < otherSuffix.toList.length)
    (apart : suffix.toList.reverse[place]? ≠ otherSuffix.toList.reverse[place]?) :
    childKeyPrefix ++ label ++ suffix ≠ childKeyPrefix ++ other ++ otherSuffix := by
  intro same
  have reversed := congrArg (fun text : String => text.toList.reverse[place]?) same
  simp only [String.toList_append, List.reverse_append] at reversed
  rw [List.getElem?_append_left (by simpa using inside),
    List.getElem?_append_left (by simpa using otherInside)] at reversed
  exact apart reversed

theorem childPublicKeyKey_ne_private (label other : String) :
    childPublicKeyKey label ≠ childPrivateKeyKey other := by
  apply childKey_ne_of_ending 3 <;> decide

theorem childPublicKeyKey_ne_certificate (label other : String) :
    childPublicKeyKey label ≠ childCertificateKey other := by
  apply childKey_ne_of_ending 0 <;> decide

theorem childPrivateKeyKey_ne_certificate (label other : String) :
    childPrivateKeyKey label ≠ childCertificateKey other := by
  apply childKey_ne_of_ending 0 <;> decide

theorem childPublicKeyKey_injective {label other : String}
    (same : childPublicKeyKey label = childPublicKeyKey other) : label = other := by
  have texts := congrArg String.toList same
  simp only [childPublicKeyKey, String.toList_append, List.append_assoc] at texts
  have rest := List.append_cancel_left texts
  exact String.toList_injective (List.append_cancel_right rest)

structure ChildCertificate where
  parent : String
  child : String
  label : String
  issuedAt : Binary64
  signature : List UInt8

def certificatePayload (parent child label : String) (issuedAt : Binary64) : List UInt8 :=
  canonicalizeCertificate (jsonString childCertContext) (jsonString parent)
    (jsonString child) (jsonString label) (.number issuedAt)

/-- `signature.toString("hex")`. -/
def hexText (bytes : List UInt8) : String :=
  String.ofList (bytes.flatMap fun byte =>
    [Nat.digitChar (byte.toNat / 16), Nat.digitChar (byte.toNat % 16)])

def ChildCertificate.json (certificate : ChildCertificate) : Json :=
  .object [ (jsonString "context", .string (jsonString childCertContext)),
      (jsonString "parent", .string (jsonString certificate.parent)),
      (jsonString "child", .string (jsonString certificate.child)),
      (jsonString "label", .string (jsonString certificate.label)),
      (jsonString "issuedAt", .number certificate.issuedAt),
      (jsonString "signature", .string (jsonString (hexText certificate.signature))) ]

/-- `JSON.stringify` of the certificate, which keeps the order of its fields. -/
def ChildCertificate.text (certificate : ChildCertificate) : String :=
  let text (value : String) : List Char := quote (jsonString value)
  let fields : List (String × List Char) :=
    [ ("context", text childCertContext), ("parent", text certificate.parent),
      ("child", text certificate.child),
      ("label", text certificate.label),
      ("issuedAt", numberText certificate.issuedAt),
      ("signature", text (hexText certificate.signature)) ]
  String.ofList ('\x7b' :: join (fields.map fun field => fieldText (jsonString field.1, field.2)) ++
      ['\x7d'])

inductive IdentityError
  | storage
  | unusableKey
  | invalidLabel (message : String)
  | corruptRecord (message : String)
  deriving DecidableEq, Repr

def invalidLabel (label : String) : IdentityError :=
  .invalidLabel ("invalid agent label \"" ++ label ++
    "\" (expected /^[a-zA-Z0-9][a-zA-Z0-9._-]\x7b0,63\x7d$/)")

def corruptRecord (label : String) : IdentityError :=
  .corruptRecord ("corrupt child identity record for label \"" ++ label ++ "\"")

/-- The vault and the fields of the manager.  An identity is known by its
`peerId`, which is its public key. -/
structure IdentityState (PrivateKey Entry : Type) where
  disk : VaultDisk Entry
  masterKey : String
  identity : Option String
  privateKey : Option PrivateKey

/-- `getOrCreateIdentity`, `sign`, `exportLibp2pKeySeed` and
`deriveChildIdentity`. -/
inductive IdentityUse
  | identity
  | sign (data : List UInt8)
  | exportSeed
  | child (label : String)
  deriving DecidableEq, Repr

/-- What the three reads of a child's record have given so far. -/
structure ChildReads where
  publicKeyHex : Option (Option String)
  privateKeyPem : Option (Option String)
  certificateJson : Option (Option String)

inductive IdentityPhase (PrivateKey : Type)
  | readingChild (label : String) (reads : ChildReads)
  | childAbsent
  | readingPublic
  | readingPrivate (publicKeyHex : Option String)
  | readPrivate (publicKeyHex privateKeyPem : Option String)
  | storingPrivate (key : PrivateKey)
  | storingPublic (key : PrivateKey)
  | stored (key : PrivateKey)
  | returning (peerId : String)
  | certifying (parent label : String) (child : PrivateKey) (issuedAt : Binary64)
  | storingChildPrivate (child : PrivateKey) (certificate : ChildCertificate)
  | storingChildPublic (child : PrivateKey) (certificate : ChildCertificate)
  | storingChildCertificate (certificate : ChildCertificate)
  | settled

structure IdentityCall (PrivateKey : Type) where
  use : IdentityUse
  phase : IdentityPhase PrivateKey

inductive IdentityAction (Entry : Type)
  | call (use : IdentityUse)
  | setKey (key : String)
  | tamper (disk : VaultDisk Entry)
  | restart

inductive ChildSecret
  | publicKey
  | privateKey
  | certificate
  deriving DecidableEq, Repr

/-- A turn of a call: a read takes place or throws, a write ends, or the call
goes on.  A turn that goes on has the key that the platform would generate and
the time. -/
inductive IdentityAnswer (PrivateKey : Type)
  | readChild (which : ChildSecret) (failed : Bool)
  | read (failed : Bool)
  | wrote (outcome : VaultWrite) (salt : String) (iv : Nat)
  | proceed (generated : PrivateKey) (now : Binary64)

/-- What callers and others get to see. -/
inductive IdentityEvent (PrivateKey : Type)
  | returned (peerId : String)
  | signed (data signature : List UInt8)
  | exported (key : PrivateKey)
  | certified (certificate : ChildCertificate)
  | child (peerId label : String) (certificate : Json)
  | rejected (error : IdentityError)

structure IdentityStep (PrivateKey Entry : Type) where
  state : IdentityState PrivateKey Entry
  phase : IdentityPhase PrivateKey
  events : List (IdentityEvent PrivateKey)

def truthy (text : Option String) : Option String :=
  text.filter (· ≠ "")

section

variable {PrivateKey Key Entry : Type} (keys : KeyMaterial PrivateKey)
  (cipher : VaultCipher Key Entry) (state : IdentityState PrivateKey Entry)

def IdentityState.secret (name : String) : Option String :=
  getSecret cipher state.masterKey state.disk name

def reject (error : IdentityError) : IdentityStep PrivateKey Entry :=
  ⟨state, .settled, [.rejected error]⟩

/-- `getOrCreateIdentity` up to its first await. -/
def beginIdentity : IdentityPhase PrivateKey :=
  match state.identity with
  | some peerId => .returning peerId
  | none => .readingPublic

/-- `setSecret`, and where the call goes on once it has returned. -/
def store (outcome : VaultWrite) (salt : String) (iv : Nat) (name value : String)
    (next : IdentityPhase PrivateKey) (events : List (IdentityEvent PrivateKey)) :
    IdentityStep PrivateKey Entry :=
  let replaced : IdentityState PrivateKey Entry :=
    { state with disk := some (setSecret cipher state.masterKey state.disk salt iv name value) }
  match outcome with
  | .stored => ⟨replaced, next, events⟩
  | .failed => reject state .storage
  | .notReleased => reject replaced .storage

def ChildReads.read (reads : ChildReads) : ChildSecret → Option (Option String)
  | .publicKey => reads.publicKeyHex
  | .privateKey => reads.privateKeyPem
  | .certificate => reads.certificateJson

def ChildReads.with (reads : ChildReads) (which : ChildSecret) (value : Option String) :
    ChildReads :=
  match which with
  | .publicKey => { reads with publicKeyHex := some value }
  | .privateKey => { reads with privateKeyPem := some value }
  | .certificate => { reads with certificateJson := some value }

def ChildSecret.name (label : String) : ChildSecret → String
  | publicKey => childPublicKeyKey label
  | privateKey => childPrivateKeyKey label
  | certificate => childCertificateKey label

/-- `getChildIdentity` once its three reads are there, and `deriveChildIdentity`
up to its next await. -/
def finishChildReads (label : String) (publicKeyHex privateKeyPem certificateJson : Option String) :
    IdentityStep PrivateKey Entry :=
  match truthy publicKeyHex, truthy privateKeyPem, truthy certificateJson with
  | some peerId, some _, some text =>
    match parse text.toList with
    | some certificate => ⟨state, .settled, [.child peerId label certificate]⟩
    | none => reject state (corruptRecord label)
  | _, _, _ => ⟨state, .childAbsent, []⟩

/-- The rest of `getOrCreateIdentity` once both secrets were read: the keypair is
loaded, or another is generated. -/
def finishReads (publicKeyHex privateKeyPem : Option String) (generated : PrivateKey) :
    IdentityStep PrivateKey Entry :=
  match truthy publicKeyHex, truthy privateKeyPem with
  | some hex, some pem =>
    match keys.createPrivateKey pem with
    | some key =>
      ⟨{ state with privateKey := some key, identity := some hex }, .returning hex, []⟩
    | none => reject state .unusableKey
  | _, _ => ⟨state, .storingPrivate generated, []⟩

/-- What a caller does once `getOrCreateIdentity` has returned to it. -/
def finishIdentity (use : IdentityUse) (peerId : String) (now : Binary64) :
    IdentityStep PrivateKey Entry :=
  match use, state.privateKey with
  | .identity, _ => ⟨state, .settled, [.returned peerId]⟩
  | _, none => reject state .unusableKey
  | .sign data, some key => ⟨state, .settled, [.signed data (keys.sign key data)]⟩
  | .exportSeed, some key => ⟨state, .settled, [.exported key]⟩
  | .child label, some key =>
    if isValidChildLabel label then
      ⟨state, .certifying peerId label (keys.deriveChildKey key label) now, []⟩
    else reject state (invalidLabel label)

/-- The signature of a certificate.  The inner `sign` finds the identity that
`getOrCreateIdentity` has returned before. -/
def certify (parent label : String) (child : PrivateKey) (issuedAt : Binary64) :
    IdentityStep PrivateKey Entry :=
  match state.privateKey with
  | none => reject state .unusableKey
  | some key =>
    let certificate : ChildCertificate :=
      { parent := parent
        child := keys.publicKeyHex child
        label := label
        issuedAt := issuedAt
        signature := keys.sign key
          (certificatePayload parent (keys.publicKeyHex child) label issuedAt) }
    ⟨state, .storingChildPrivate child certificate, [.certified certificate]⟩

def advanceIdentity (use : IdentityUse) : IdentityPhase PrivateKey → IdentityAnswer PrivateKey →
    Option (IdentityStep PrivateKey Entry)
  | .readingChild label reads, .readChild which failed =>
    if (reads.read which).isSome then none
    else some (if failed then reject state .storage
      else ⟨state, .readingChild label
        (reads.with which (state.secret cipher (which.name label))), []⟩)
  | .readingChild label ⟨some publicKeyHex, some privateKeyPem, some certificateJson⟩,
      .proceed _ _ =>
      some (finishChildReads state label publicKeyHex privateKeyPem certificateJson)
  | .childAbsent, .proceed _ _ => some ⟨state, beginIdentity state, []⟩
  | .readingPublic, .read failed =>
    some (if failed then reject state .storage
      else ⟨state, .readingPrivate (state.secret cipher publicKeyKey), []⟩)
  | .readingPrivate publicKeyHex, .read failed =>
    some (if failed then reject state .storage
      else ⟨state, .readPrivate publicKeyHex (state.secret cipher privateKeyKey), []⟩)
  | .readPrivate publicKeyHex privateKeyPem, .proceed generated _ =>
    some (finishReads keys state publicKeyHex privateKeyPem generated)
  | .storingPrivate key, .wrote outcome salt iv =>
    some (store cipher state outcome salt iv privateKeyKey (keys.exportPem key)
      (.storingPublic key) [])
  | .storingPublic key, .wrote outcome salt iv =>
    some (store cipher state outcome salt iv publicKeyKey (keys.publicKeyHex key) (.stored key) [])
  | .stored key, .proceed _ _ =>
    some ⟨{ state with privateKey := some key, identity := some (keys.publicKeyHex key) },
      .returning (keys.publicKeyHex key), []⟩
  | .returning peerId, .proceed _ now => some (finishIdentity keys state use peerId now)
  | .certifying parent label child issuedAt, .proceed _ _ =>
    some (certify keys state parent label child issuedAt)
  | .storingChildPrivate child certificate, .wrote outcome salt iv =>
    some (store cipher state outcome salt iv (childPrivateKeyKey certificate.label)
      (keys.exportPem child) (.storingChildPublic child certificate) [])
  | .storingChildPublic child certificate, .wrote outcome salt iv =>
    some (store cipher state outcome salt iv (childPublicKeyKey certificate.label)
      (keys.publicKeyHex child) (.storingChildCertificate certificate) [])
  | .storingChildCertificate certificate, .wrote outcome salt iv =>
    some (store cipher state outcome salt iv (childCertificateKey certificate.label)
      certificate.text .settled
      [.child certificate.child certificate.label certificate.json])
  | _, _ => none

def launchIdentity (use : IdentityUse) : IdentityPhase PrivateKey :=
  match use with
  | .child label =>
    if isValidChildLabel label then .readingChild label ⟨none, none, none⟩ else .childAbsent
  | _ => beginIdentity state

def identityProgram : AsyncCalls.Program (IdentityState PrivateKey Entry) (IdentityAction Entry)
    (IdentityCall PrivateKey) (IdentityAnswer PrivateKey) (IdentityEvent PrivateKey) where
  launch state
    | .call use => (state, some (⟨use, launchIdentity state use⟩, []))
    | .setKey key => ({ state with masterKey := key }, none)
    | .tamper disk => ({ state with disk := disk }, none)
    | .restart => ({ state with identity := none, privateKey := none }, none)
  resume state call answer :=
    (advanceIdentity keys cipher state call.use call.phase answer).map fun step =>
      (step.state, { call with phase := step.phase }, step.events)

end

variable {PrivateKey Key Entry : Type} {keys : KeyMaterial PrivateKey}
  {cipher : VaultCipher Key Entry} {state : IdentityState PrivateKey Entry}
  {salt : String} {iv : Nat} {name value place : String}

def IdentityState.replaced (cipher : VaultCipher Key Entry) (state : IdentityState PrivateKey Entry)
    (salt : String) (iv : Nat) (name value : String) : IdentityState PrivateKey Entry :=
  { state with disk := some (setSecret cipher state.masterKey state.disk salt iv name value) }

theorem secret_replaced_of_ne (apart : place ≠ name) :
    (state.replaced cipher salt iv name value).secret cipher place = state.secret cipher place :=
  getSecret_setSecret_of_ne apart

theorem secret_replaced_self (sound : cipher.Lawful) :
    (state.replaced cipher salt iv name value).secret cipher name = some value :=
  getSecret_setSecret_self sound

theorem truthy_eq_some {text : Option String} {value : String}
    (given : truthy text = some value) : text = some value :=
  (Option.filter_eq_some_iff.mp given).1

theorem identityProgram_resume {state next : IdentityState PrivateKey Entry}
    {call resumed : IdentityCall PrivateKey} {answer : IdentityAnswer PrivateKey}
    {emitted : List (IdentityEvent PrivateKey)}
    (stepped : (identityProgram keys cipher).resume state call answer =
      some (next, resumed, emitted)) :
    ∃ step, advanceIdentity keys cipher state call.use call.phase answer = some step ∧
      next = step.state ∧ resumed = { call with phase := step.phase } ∧
      emitted = step.events := by
  simp only [identityProgram, Option.map_eq_some_iff, Prod.mk.injEq] at stepped
  obtain ⟨step, advanced, rfl, rfl, rfl⟩ := stepped
  exact ⟨step, advanced, rfl, rfl, rfl⟩

end P2PHub.Identity
