import P2PHub.InsertionOrderedMap
import P2PHub.Sanitizer
import P2PHub.SignatureDomains

/-!
# Access passes of the peer site

Knocks and their approval, after `plugins/peersite/src/index.ts`, and the passes
of `core/src/task-broker/access-pass-manager.ts`.  A call is one step: what
`requestAccess` awaits at its end are the handlers of a hook, whose failures the
hook registry swallows, and nothing is done after it.
-/

namespace P2PHub.PeerSite

open Json

def siteReadScope : JsonString :=
  jsonString "site-read-only"

def peerSiteKnockContext : JsonString :=
  jsonString "p2p-hub:peersite:knock:v1:"

/-- `KNOCK_REPLAY_WINDOW_MS`. -/
def knockReplayWindow : Int :=
  5 * 60 * 1000

/-- `KNOCK_RATE_LIMIT_MS`. -/
def knockRateLimit : Int :=
  60 * 60 * 1000

/-- `ACCESS_PASS_TTL_MS`. -/
def accessPassTtl : Int :=
  60 * 60 * 1000

/-- `ACCESS_REQUEST_TTL_MS`. -/
def accessRequestTtl : Int :=
  5 * 60 * 1000

def maxClaimLength : Nat :=
  200

/-- A payload by its properties, each a value or missing. -/
structure RequestAccessInput where
  peerId : Option Json
  claim : Option Json
  timestamp : Option Json
  signature : Option Json

structure Knock where
  peerId : JsonString
  claim : JsonString
  timestamp : ℚ
  representable : Binary64.Representable timestamp
  signature : JsonString

def isHexUnit (unit : UInt16) : Bool :=
  (48 ≤ unit && unit ≤ 57) || (97 ≤ unit && unit ≤ 102)

/-- `PEER_ID_RE`. -/
def isPeerId (text : JsonString) : Bool :=
  decide (text.length = 64) && text.all isHexUnit

def isSignatureText (text : JsonString) : Bool :=
  !text.isEmpty && text.all isHexUnit

/-- The type checks of `requestAccess`.  All of them fail alike. -/
def RequestAccessInput.knock? (input : RequestAccessInput) : Option Knock :=
  match input.peerId, input.claim, input.timestamp, input.signature with
  | some (.string peerId), some (.string claim), some timestamp, some (.string signature) =>
    if isPeerId peerId ∧ claim.length ≤ maxClaimLength ∧ isSignatureText signature then
      match timestamp with
      | .number (.finite value representable) =>
        some ⟨peerId, claim, value, representable, signature⟩
      | .negativeZero => some ⟨peerId, claim, 0, Binary64.representable_zero, signature⟩
      | _ => none
    else none
  | _, _, _, _ => none

/-- `buildKnockData`. -/
def buildKnockData (peerId claim : JsonString) (timestamp : Binary64) : List UInt8 :=
  Identity.utf8Bytes
    (peerId ++ jsonString ":" ++ claim ++ jsonString ":" ++ jsonString (String.ofList timestamp.text))

def Knock.message (knock : Knock) : List UInt8 :=
  Identity.domainMessage peerSiteKnockContext
    (buildKnockData knock.peerId knock.claim (.finite knock.timestamp knock.representable))

/-- The signature is valid under the peer over the peer, the claim and the
timestamp.  `verify` takes a key, a message and a signature. -/
def Knock.Signed (verify : JsonString → List UInt8 → List UInt8 → Bool) (knock : Knock) : Prop :=
  verify knock.peerId knock.message (Identity.hexBytes knock.signature) = true

instance (verify : JsonString → List UInt8 → List UInt8 → Bool) (knock : Knock) :
    Decidable (knock.Signed verify) :=
  inferInstanceAs (Decidable (_ = _))

/-- The difference of two numbers is rounded to a number. -/
def WithinReplayWindow (now : Int) (timestamp : ℚ) : Prop :=
  |Binary64.nearest (now - timestamp)| ≤ knockReplayWindow

instance (now : Int) (timestamp : ℚ) : Decidable (WithinReplayWindow now timestamp) :=
  inferInstanceAs (Decidable (_ ≤ _))

/-- `sanitizeClaim`. -/
def sanitizeClaim (claim : JsonString) : JsonString :=
  Sanitizer.trim (claim.filter fun unit => decide (0x1F < unit ∧ unit ≠ 0x7F))

structure AccessPass where
  peerId : JsonString
  scope : JsonString
  issuedAt : Int
  expiresAt : Int
  deriving DecidableEq

/-- Passes under the peer and the scope with a NUL between them. -/
abbrev AccessPassManager :=
  OrderedMap JsonString AccessPass

def passKey (peerId scope : JsonString) : JsonString :=
  peerId ++ [0] ++ scope

def AccessPassManager.issue (passes : AccessPassManager) (now : Int) (peerId scope : JsonString)
    (ttl : Int) : Except String (AccessPassManager × AccessPass) :=
  if peerId = [] then .error "access pass requires a non-empty peerId"
  else if scope = [] then .error "access pass requires a non-empty scope"
  else if ttl ≤ 0 then .error "access pass ttl must be a positive integer"
  else
    let pass : AccessPass := ⟨peerId, scope, now, now + ttl⟩
    .ok (passes.set (passKey peerId scope) pass, pass)

structure PendingAccessRequest where
  requestId : String
  peerId : JsonString
  claim : JsonString
  expiresInMs : Int
  createdAt : Int
  deriving DecidableEq

/-- `drawn` counts the identifiers that were drawn. -/
structure SiteAccess where
  acceptIncoming : Bool
  pendingRequests : OrderedMap String PendingAccessRequest
  knockTimestamps : OrderedMap JsonString Int
  passes : AccessPassManager
  drawn : Nat

def SiteAccess.new : SiteAccess where
  acceptIncoming := false
  pendingRequests := .empty
  knockTimestamps := .empty
  passes := .empty
  drawn := 0

inductive AccessCall
  | setAcceptIncomingRequests (enabled : Bool)
  | requestAccess (input : RequestAccessInput)
  | resolveAccessRequest (requestId : String) (approved : Bool)

inductive AccessAnswer
  | done
  | refused (error : String)
  | pending (requestId : String)
  | resolved (known : Bool)
  deriving DecidableEq

/-- A call with what the clock shows at each place that reads it, in order. -/
structure AccessTurn where
  call : AccessCall
  now : Int
  decidedAt : Int
  issuedAt : Int
  inOrder : now ≤ decidedAt ∧ decidedAt ≤ issuedAt

/-- What a call answered and the pass that it issued. -/
structure AccessEvent where
  turn : AccessTurn
  answer : AccessAnswer
  issued : Option AccessPass

variable (verify : JsonString → List UInt8 → List UInt8 → Bool) (randomUUID : Nat → String)

/-- Less than the rate limit has passed since the last knock of the peer. -/
def SiteAccess.knockedRecently (site : SiteAccess) (peerId : JsonString) (now : Int) : Bool :=
  (site.knockTimestamps.get peerId).any fun lastKnock => decide (now - lastKnock < knockRateLimit)

def SiteAccess.recordKnock (site : SiteAccess) (peerId : JsonString) (now : Int) : SiteAccess :=
  { site with
    knockTimestamps := (site.knockTimestamps.set peerId now).deleteWhere fun _ timestamp =>
      decide (knockRateLimit ≤ now - timestamp) }

def SiteAccess.enterRequest (site : SiteAccess) (knock : Knock) (now : Int) : SiteAccess :=
  let requestId := randomUUID site.drawn
  { site with
    drawn := site.drawn + 1
    pendingRequests := site.pendingRequests.set requestId
      ⟨requestId, knock.peerId, sanitizeClaim knock.claim, accessPassTtl, now⟩ }

def SiteAccess.requestAccess (site : SiteAccess) (now : Int) (input : RequestAccessInput) :
    SiteAccess × AccessAnswer :=
  match input.knock? with
  | none => (site, .refused "unauthorized")
  | some knock =>
    if ¬WithinReplayWindow now knock.timestamp then (site, .refused "unauthorized")
    else if site.knockedRecently knock.peerId now then (site, .refused "rate limited")
    else if ¬knock.Signed verify then (site, .refused "unauthorized")
    else
      let recorded := site.recordKnock knock.peerId now
      if recorded.acceptIncoming then
        (recorded.enterRequest randomUUID knock now, .pending (randomUUID recorded.drawn))
      else (recorded, .refused "not accepting")

/-- `ctx.access.issue` keeps an error to itself. -/
def SiteAccess.issuePass (site : SiteAccess) (now : Int) (pending : PendingAccessRequest) :
    SiteAccess × Option AccessPass :=
  match site.passes.issue now pending.peerId siteReadScope pending.expiresInMs with
  | .ok (passes, pass) => ({ site with passes := passes }, some pass)
  | .error _ => (site, none)

def SiteAccess.resolveAccessRequest (site : SiteAccess) (turn : AccessTurn) (requestId : String)
    (approved : Bool) : SiteAccess × AccessAnswer × Option AccessPass :=
  match site.pendingRequests.get requestId with
  | none => (site, .resolved false, none)
  | some pending =>
    let taken := { site with pendingRequests := site.pendingRequests.delete requestId }
    if ¬approved then (taken, .resolved true, none)
    else if accessRequestTtl < turn.now - pending.createdAt then (taken, .resolved false, none)
    else if accessRequestTtl < turn.decidedAt - pending.createdAt then
      (taken, .resolved false, none)
    else
      let result := taken.issuePass turn.issuedAt pending
      (result.1, .resolved true, result.2)

def SiteAccess.perform (site : SiteAccess) (turn : AccessTurn) : SiteAccess × AccessEvent :=
  match turn.call with
  | .setAcceptIncomingRequests enabled =>
    ({ site with acceptIncoming := enabled }, ⟨turn, .done, none⟩)
  | .requestAccess input =>
    let result := site.requestAccess verify randomUUID turn.now input
    (result.1, ⟨turn, result.2, none⟩)
  | .resolveAccessRequest requestId approved =>
    let result := site.resolveAccessRequest turn requestId approved
    (result.1, ⟨turn, result.2.1, result.2.2⟩)

def SiteAccess.step (site : SiteAccess) (turn : AccessTurn) :
    Option (SiteAccess × List AccessEvent) :=
  let result := site.perform verify randomUUID turn
  some (result.1, [result.2])

/-- The clock does not go back from one call to the next. -/
def ClockAdvances (history : List AccessEvent) (_ : SiteAccess) (turn : AccessTurn) : Prop :=
  ∀ event ∈ history, event.turn.issuedAt ≤ turn.now

end P2PHub.PeerSite
