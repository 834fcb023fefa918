import P2PHub.DocumentWork
import P2PHub.PBXDocuments
import P2PHub.WireContract

/-!
# The contacts plugin

The contact book and its operations, after `plugins/contacts/src/index.ts`.
Every operation loads the whole book and saves the whole book; `verifyPeer`
awaits the answer of the peer in between.
-/

namespace P2PHub.Contacts

open JsValue NetworkLight Documents

inductive TrustState
  | pending
  | verified
  | blocked
  deriving DecidableEq, Repr

/-- An object of the book with the properties that the plugin uses.  The root
has `contacts`, a contact has the others. -/
structure BookObject where
  contacts : Option (List String) := none
  peerId : Option String := none
  publicKeyHex : Option String := none
  displayName : Option String := none
  addedAt : Option String := none
  trustState : Option TrustState := none
  lastVerifiedAt : Option String := none
  deriving DecidableEq

abbrev ContactBook :=
  PBXDocument BookObject

/-- A contact as the plugin shows it.  `String(undefined)` is a text. -/
structure ContactRecord where
  peerId : String
  publicKeyHex : String
  displayName : String
  addedAt : String
  trustState : Option TrustState
  lastVerifiedAt : Option String
  deriving DecidableEq

def toRecord (object : BookObject) : ContactRecord where
  peerId := object.peerId.getD "undefined"
  publicKeyHex := object.publicKeyHex.getD "undefined"
  displayName := object.displayName.getD "undefined"
  addedAt := object.addedAt.getD "undefined"
  trustState := object.trustState
  lastVerifiedAt := object.lastVerifiedAt

def newBook (rootId : String) : ContactBook :=
  .createDocument rootId { contacts := some [] }

def contactRefs (book : ContactBook) : List String :=
  (book.rootObject.bind BookObject.contacts).getD []

/-- The object behind a reference, when it is the contact of a peer. -/
def contactAt (book : ContactBook) (peerId ref : String) : Option (String × BookObject) :=
  ((book.resolveRef ref).filter fun object => decide (object.peerId = some peerId)).map (ref, ·)

def findContact (book : ContactBook) (peerId : String) : Option (String × BookObject) :=
  (contactRefs book).findSome? (contactAt book peerId)

def listContactObjects (book : ContactBook) : List BookObject :=
  (contactRefs book).filterMap book.resolveRef

/-- `getContact` on a book. -/
def trustOf (book : ContactBook) (peerId : String) : Option TrustState :=
  (findContact book peerId).bind fun found => found.2.trustState

def linkContact (book : ContactBook) (contactId : String) : ContactBook :=
  book.modifyRoot fun root => { root with contacts := some (contactRefs book ++ [contactId]) }

def dropContact (book : ContactBook) (position : Nat) (ref : String) : ContactBook :=
  (book.deleteObject ref).modifyRoot fun root =>
    { root with contacts := some ((contactRefs book).eraseIdx position) }

/-- `verify` checks the signature of a challenge by its public key, context and
nonce. -/
structure ContactsSettings where
  hasNetwork : Bool
  verify : String → String → String → String → Bool

inductive ContactsRequest
  | addContact (peerId publicKeyHex displayName : JsValue)
  | listContacts
  | removeContact (peerId : JsValue)
  | verifyPeer (peerId : JsValue)
  | blockContact (peerId : JsValue)
  | unblockContact (peerId : JsValue)
  | getContact (peerId : JsValue)

structure TaskResult where
  ok : Bool
  result : JsValue
  error : Option String

inductive ContactsResult
  | contact (record : ContactRecord)
  | contacts (records : List ContactRecord)
  | removed (found : Bool)
  | verified
  | unverified (error : String)
  | trust (state : Option TrustState)
  | threw (error : String)
  deriving DecidableEq

abbrev ContactsWork :=
  Work (Option ContactBook) (Outcome TaskResult)

def challengeContext : String := "p2p-hub:contacts:challenge:v1:"

def loadBook : ContactsWork ContactBook :=
  .load fun
    | some book => .done book
    | none => .draw fun rootId => .done (newBook rootId)

def saveBook (book : ContactBook) (result : ContactsResult) : ContactsWork ContactsResult :=
  .save (some book) (.done result)

def threw (error : String) : ContactsWork ContactsResult :=
  .done (.threw error)

def addContact (peerId publicKeyHex displayName : JsValue) : ContactsWork ContactsResult :=
  match string? peerId, string? publicKeyHex, string? displayName with
  | some peerId, some publicKeyHex, some displayName =>
    if ¬isPeerId peerId then
      threw "addContact: peerId must be a 64-char hex Ed25519 public key"
    else if publicKeyHex ≠ peerId then threw "addContact: publicKeyHex does not match peerId"
    else do
      let book ← loadBook
      match findContact book peerId with
      | some (contactId, existing) =>
        let relabelled := { existing with displayName := some displayName }
        saveBook (book.put contactId relabelled) (.contact (toRecord relabelled))
      | none =>
        .clock fun addedAt => .draw fun contactId =>
          let contact : BookObject :=
            { peerId := some peerId, publicKeyHex := some publicKeyHex,
              displayName := some displayName, addedAt := some addedAt,
              trustState := some .pending }
          saveBook (linkContact (book.addObject contactId contact) contactId)
            (.contact (toRecord contact))
  | _, _, _ =>
    threw "addContact expects { peerId: string, publicKeyHex: string, displayName: string }"

def listContacts : ContactsWork ContactsResult := do
  let book ← loadBook
  return .contacts ((listContactObjects book).map toRecord)

def removeContact (peerId : JsValue) : ContactsWork ContactsResult :=
  match string? peerId with
  | none => threw "removeContact expects { peerId: string }"
  | some peerId => do
      let book ← loadBook
      let refs := contactRefs book
      let position := refs.findIdx fun ref => (contactAt book peerId ref).isSome
      match refs[position]? with
      | none => return .removed false
      | some ref => saveBook (dropContact book position ref) (.removed true)

def setTrustState (peerId : String) (state : TrustState) : ContactsWork ContactsResult := do
  let book ← loadBook
  match findContact book peerId with
  | none => threw ("contact \"" ++ peerId ++ "\" not found")
  | some (contactId, contact) =>
    let changed := { contact with trustState := some state }
    saveBook (book.put contactId changed) (.contact (toRecord changed))

def blockContact (peerId : JsValue) : ContactsWork ContactsResult :=
  match string? peerId with
  | none => threw "blockContact expects { peerId: string }"
  | some peerId => setTrustState peerId .blocked

def unblockContact (peerId : JsValue) : ContactsWork ContactsResult :=
  match string? peerId with
  | none => threw "unblockContact expects { peerId: string }"
  | some peerId => setTrustState peerId .pending

/-- The signature in what a peer answers to a challenge. -/
def signatureOf : JsValue → Option String
  | .object fields => string? (property fields "signature")
  | _ => none

/-- `verifyPeer` from the answer of the peer on. -/
def verifyAnswer (settings : ContactsSettings) (book : ContactBook) (contactId : String)
    (contact : BookObject) (nonce : String) : Outcome TaskResult → ContactsWork ContactsResult
  | .failed => threw "sendTask"
  | .resolved answer =>
    if ¬answer.ok then .done (.unverified (answer.error.getD "peer did not respond"))
    else
      match signatureOf answer.result with
      | none => .done (.unverified "peer returned no signature")
      | some signature =>
        if ¬settings.verify (contact.publicKeyHex.getD "undefined") challengeContext nonce
            signature then
          .done (.unverified "signature verification failed")
        else
          .clock fun now =>
            saveBook (book.put contactId
                { contact with trustState := some .verified, lastVerifiedAt := some now })
              .verified

def verifyPeer (settings : ContactsSettings) (peerId : JsValue) : ContactsWork ContactsResult :=
  match string? peerId with
  | none => .done (.unverified "verifyPeer expects { peerId: string }")
  | some peerId =>
    if ¬settings.hasNetwork then .done (.unverified "no network provider available")
    else do
      let book ← loadBook
      match findContact book peerId with
      | none => return .unverified ("contact \"" ++ peerId ++ "\" not found")
      | some (contactId, contact) =>
        .draw fun nonce => .await (verifyAnswer settings book contactId contact nonce)

def getContact (peerId : JsValue) : ContactsWork ContactsResult :=
  match string? peerId with
  | none => .done (.trust none)
  | some peerId => do
      let book ← loadBook
      return .trust (trustOf book peerId)

def contactsCode (settings : ContactsSettings) : ContactsRequest → ContactsWork ContactsResult
  | .addContact peerId publicKeyHex displayName => addContact peerId publicKeyHex displayName
  | .listContacts => listContacts
  | .removeContact peerId => removeContact peerId
  | .verifyPeer peerId => verifyPeer settings peerId
  | .blockContact peerId => blockContact peerId
  | .unblockContact peerId => unblockContact peerId
  | .getContact peerId => getContact peerId

end P2PHub.Contacts
