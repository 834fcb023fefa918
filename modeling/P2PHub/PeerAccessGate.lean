import P2PHub.AsyncCalls

/-!
# The peer access gate

The decision whether an incoming peer may call a capability, after
`core/src/security/peer-access-gate.ts`, and what becomes of it when lookups
fail.  A lookup gets the moment at which it is consulted, so that it need not
answer the same twice; the `index`-th mode of a list is looked up at the
`index`-th moment after the start.
-/

namespace P2PHub

inductive PeerAccessMode
  | verifiedContact
  | accessPass
  | openLan
  | publicMode
  deriving DecidableEq, Repr

/-- `modes` is `none` when it is not an array, and an entry is `none` when it
is not a valid mode. -/
structure PeerAccessOptions where
  modes : Option (List (Option PeerAccessMode))
  accessPassScope : Option String := none
  allowSelf : Bool := false

inductive PeerGrantReason
  | verifiedContact
  | validAccessPass
  | publicPolicy
  | self
  deriving DecidableEq, Repr

inductive PeerDenialReason
  | notAContact
  | invalidAccessPass
  | expiredAccessPass
  | deniedByPolicy
  deriving DecidableEq, Repr

inductive PeerAccessDecision
  | granted (reason : PeerGrantReason)
  | denied (reason : PeerDenialReason)
  deriving DecidableEq, Repr

def PeerAccessDecision.isGranted : PeerAccessDecision → Bool
  | granted _ => true
  | denied _ => false

@[simp] theorem PeerAccessDecision.isGranted_granted (reason : PeerGrantReason) :
    (granted reason).isGranted :=
  rfl

@[simp] theorem PeerAccessDecision.isGranted_denied (reason : PeerDenialReason) :
    (denied reason).isGranted = false :=
  rfl

structure PeerAccessContacts where
  isVerifiedContact : Nat → String → Outcome Bool
  isBlockedContact : Option (Nat → String → Outcome Bool)

inductive PassState
  | none
  | valid
  | expired
  deriving DecidableEq, Repr

structure PeerAccessPasses where
  hasValidPass : Nat → String → String → Outcome Bool
  inspectPass : Option (Nat → String → String → Outcome PassState)

structure PeerAccessContext where
  contacts : Option PeerAccessContacts := none
  accessPasses : Option PeerAccessPasses := none
  selfPeerId : Option String := none

/-- A failing lookup reads as `false`. -/
def evaluateBool : Outcome Bool → Bool
  | .resolved answer => answer
  | .failed => false

def evaluatePass (passes : PeerAccessPasses) (moment : Nat) (peerId scope : String) :
    PeerAccessDecision :=
  match passes.inspectPass with
  | some inspectPass =>
    match inspectPass moment peerId scope with
    | .resolved .valid => .granted .validAccessPass
    | .resolved .expired => .denied .expiredAccessPass
    | _ => .denied .invalidAccessPass
  | none =>
    if evaluateBool (passes.hasValidPass moment peerId scope) then
      .granted .validAccessPass
    else .denied .invalidAccessPass

/-- The modes in order.  `denial` is the first denial of a mode that could be
evaluated. -/
def evaluateModes (context : PeerAccessContext) (accessPassScope : Option String)
    (peerId : String) (moment : Nat) (denial : Option PeerDenialReason) :
    List PeerAccessMode → PeerAccessDecision
  | [] => .denied (denial.getD .deniedByPolicy)
  | .verifiedContact :: modes =>
    match context.contacts with
    | none => evaluateModes context accessPassScope peerId (moment + 1) denial modes
    | some contacts =>
      if evaluateBool (contacts.isVerifiedContact moment peerId) then
        .granted .verifiedContact
      else
        evaluateModes context accessPassScope peerId (moment + 1)
          (denial.or (some .notAContact)) modes
  | .accessPass :: modes =>
    match context.accessPasses, accessPassScope.filter (· ≠ "") with
    | some passes, some scope =>
      match evaluatePass passes moment peerId scope with
      | .granted reason => .granted reason
      | .denied reason =>
        evaluateModes context accessPassScope peerId (moment + 1) (denial.or (some reason)) modes
    | _, _ => evaluateModes context accessPassScope peerId (moment + 1) denial modes
  | .openLan :: _ | .publicMode :: _ =>
    match context.contacts.bind PeerAccessContacts.isBlockedContact with
    | none => .granted .publicPolicy
    | some isBlockedContact =>
      if evaluateBool (isBlockedContact moment peerId) then .denied .deniedByPolicy
      else .granted .publicPolicy

def PeerAccessOptions.validModes (options : PeerAccessOptions) : Option (List PeerAccessMode) :=
  (options.modes.filter (· ≠ [])).bind fun modes => modes.mapM id

/-- The host's own identity passes when the options say so. -/
def passesAsSelf (options : PeerAccessOptions) (context : Option PeerAccessContext)
    (peerId : String) : Bool :=
  options.allowSelf && ((context.bind PeerAccessContext.selfPeerId).filter (· ≠ "")) == some peerId

/-- The decision on a peer.  `peerId` is `none` when it is not a string. -/
def checkPeerAccess (moment : Nat) (peerId : Option String)
    (options : Option PeerAccessOptions) (context : Option PeerAccessContext) :
    PeerAccessDecision :=
  match peerId.filter (· ≠ ""), options with
  | some peerId, some options =>
    match options.validModes with
    | none => .denied .deniedByPolicy
    | some modes =>
      if passesAsSelf options context peerId then .granted .self
      else evaluateModes (context.getD {}) options.accessPassScope peerId moment none modes
  | _, _ => .denied .deniedByPolicy

theorem checkPeerAccess_empty (moment : Nat) (options : Option PeerAccessOptions)
    (context : Option PeerAccessContext) :
    checkPeerAccess moment (some "") options context = .denied .deniedByPolicy := by
  simp [checkPeerAccess, Option.filter]

def PeerAccessContext.Blocked (context : PeerAccessContext) (moment : Nat) (peerId : String) :
    Prop :=
  ∃ isBlockedContact,
    context.contacts.bind PeerAccessContacts.isBlockedContact = some isBlockedContact ∧
      isBlockedContact moment peerId = .resolved true

def PeerAccessPasses.HoldsPass (passes : PeerAccessPasses) (moment : Nat)
    (peerId scope : String) : Prop :=
  match passes.inspectPass with
  | some inspectPass => inspectPass moment peerId scope = .resolved .valid
  | none => passes.hasValidPass moment peerId scope = .resolved true

namespace PeerAccessMode

def permissive : PeerAccessMode → Bool
  | verifiedContact | accessPass => false
  | openLan | publicMode => true

def LetsIn (context : PeerAccessContext) (accessPassScope : Option String) (peerId : String)
    (moment : Nat) : PeerAccessMode → Prop
  | verifiedContact => ∃ contacts, context.contacts = some contacts ∧
      contacts.isVerifiedContact moment peerId = .resolved true
  | accessPass => ∃ passes scope, context.accessPasses = some passes ∧
      accessPassScope = some scope ∧ scope ≠ "" ∧ passes.HoldsPass moment peerId scope
  | openLan | publicMode => ¬ context.Blocked moment peerId

end PeerAccessMode

section

variable {context : PeerAccessContext} {accessPassScope : Option String} {peerId scope : String}
  {moment : Nat} {mode : PeerAccessMode} {modes : List PeerAccessMode}
  {passes : PeerAccessPasses} {denial : Option PeerDenialReason}

theorem evaluateBool_eq_true {answer : Outcome Bool} :
    evaluateBool answer ↔ answer = .resolved true := by
  cases answer with
  | resolved | failed => simp [evaluateBool]

theorem evaluatePass_isGranted : (evaluatePass passes moment peerId scope).isGranted ↔
      passes.HoldsPass moment peerId scope := by
  unfold evaluatePass PeerAccessPasses.HoldsPass
  cases passes.inspectPass with
  | none =>
    dsimp only
    rw [← evaluateBool_eq_true]
    split
    · next held => simp [held]
    · next missing => simp [missing]
  | some inspectPass =>
    dsimp only
    cases inspectPass moment peerId scope with
    | failed => simp
    | resolved state => cases state <;> simp

theorem evaluateModes_isGranted_denial (other : Option PeerDenialReason) :
    (evaluateModes context accessPassScope peerId moment denial modes).isGranted =
      (evaluateModes context accessPassScope peerId moment other modes).isGranted := by
  induction modes generalizing moment denial other with
  | nil => rfl
  | cons mode modes ih =>
    cases mode with
    | verifiedContact =>
      unfold evaluateModes
      cases context.contacts with
      | none => exact ih other
      | some =>
        dsimp only
        split
        · rfl
        · exact ih _
    | accessPass =>
      unfold evaluateModes
      split
      · split
        · rfl
        · exact ih _
      · exact ih other
    | openLan | publicMode => rfl

theorem evaluateModes_permissive (permissive : mode.permissive) :
    (evaluateModes context accessPassScope peerId moment denial (mode :: modes)).isGranted =
      true ↔ mode.LetsIn context accessPassScope peerId moment := by
  have unblocked : (match context.contacts.bind PeerAccessContacts.isBlockedContact with
      | none => PeerAccessDecision.granted .publicPolicy
      | some isBlockedContact =>
        if evaluateBool (isBlockedContact moment peerId) then .denied .deniedByPolicy
        else .granted .publicPolicy).isGranted ↔
      ¬ context.Blocked moment peerId := by
    unfold PeerAccessContext.Blocked
    cases context.contacts.bind PeerAccessContacts.isBlockedContact with
    | none => simp
    | some isBlockedContact =>
      have answered : evaluateBool (isBlockedContact moment peerId) ↔
          isBlockedContact moment peerId = .resolved true := evaluateBool_eq_true
      cases read : evaluateBool (isBlockedContact moment peerId) with
      | false | true => simp [← answered, read]
  cases mode with
  | verifiedContact | accessPass => cases permissive
  | openLan | publicMode => exact unblocked

theorem evaluateModes_proving (proving : mode.permissive = false) :
    (evaluateModes context accessPassScope peerId moment denial (mode :: modes)).isGranted ↔
    mode.LetsIn context accessPassScope peerId moment ∨
      (evaluateModes context accessPassScope peerId (moment + 1) denial modes).isGranted =
        true := by
  cases mode with
  | openLan | publicMode => cases proving
  | verifiedContact =>
    rw [evaluateModes]
    cases contactsEq : context.contacts with
    | none => simp [PeerAccessMode.LetsIn, contactsEq]
    | some =>
      simp only [PeerAccessMode.LetsIn, contactsEq, Option.some.injEq, exists_eq_left',
        evaluateBool_eq_true]
      split
      · next verified => simp [verified]
      · next unproven =>
          rw [evaluateModes_isGranted_denial denial]
          simp [unproven]
  | accessPass =>
    rw [evaluateModes]
    have letsIn : PeerAccessMode.accessPass.LetsIn context accessPassScope peerId moment ↔
        ∃ passes scope, context.accessPasses = some passes ∧
          accessPassScope.filter (· ≠ "") = some scope ∧
            (evaluatePass passes moment peerId scope).isGranted := by
      simp only [PeerAccessMode.LetsIn, Option.filter_eq_some_iff, decide_eq_true_eq,
        evaluatePass_isGranted, and_assoc]
    rw [letsIn]
    split
    · next passes scope passesEq scopeEq =>
        simp only [passesEq, scopeEq, Option.some.injEq]
        cases decided : evaluatePass passes moment peerId scope with
        | granted => simp [decided]
        | denied =>
          rw [evaluateModes_isGranted_denial denial]
          simp [decided]
    · next unproven =>
        constructor
        · exact Or.inr
        · rintro (⟨passes, scope, passesEq, scopeEq, _⟩ | later)
          · exact (unproven passes scope passesEq scopeEq).elim
          · exact later

end

/-- Only the block list keeps the peer out: no mode before the first permissive
one lets it in, and there the contact list answers that it is blocked. -/
def KeptOutByBlockList (context : PeerAccessContext) (accessPassScope : Option String)
    (peerId : String) (moment : Nat) (modes : List PeerAccessMode) : Prop :=
  ∃ earlier mode later, modes = earlier ++ mode :: later ∧ mode.permissive = true ∧
    context.Blocked (moment + earlier.length) peerId ∧
    ∀ index (other : PeerAccessMode), earlier[index]? = some other → other.permissive = false ∧
        ¬ other.LetsIn context accessPassScope peerId (moment + index)

structure LookupFailures where
  isVerifiedContact : Bool := false
  isBlockedContact : Bool := false
  hasValidPass : Bool := false
  inspectPass : Bool := false

def Outcome.failingIf {Answer : Type*} (fails : Bool) (outcome : Outcome Answer) : Outcome Answer :=
  if fails then .failed else outcome

/-- The context in which some lookups always fail and the others answer as
before. -/
def PeerAccessContext.failing (failures : LookupFailures) (context : PeerAccessContext) :
    PeerAccessContext where
  contacts := context.contacts.map fun contacts =>
    { isVerifiedContact := fun moment peerId =>
        (contacts.isVerifiedContact moment peerId).failingIf failures.isVerifiedContact
      isBlockedContact := contacts.isBlockedContact.map fun isBlockedContact moment peerId =>
        (isBlockedContact moment peerId).failingIf failures.isBlockedContact }
  accessPasses := context.accessPasses.map fun passes =>
    { hasValidPass := fun moment peerId scope =>
        (passes.hasValidPass moment peerId scope).failingIf failures.hasValidPass
      inspectPass := passes.inspectPass.map fun inspectPass moment peerId scope =>
        (inspectPass moment peerId scope).failingIf failures.inspectPass }
  selfPeerId := context.selfPeerId

section

variable {context : PeerAccessContext} {failures : LookupFailures}
  {accessPassScope : Option String} {peerId : String} {moment : Nat} {mode : PeerAccessMode}
  {modes : List PeerAccessMode} {denial : Option PeerDenialReason}

theorem keptOutByBlockList_nil : ¬ KeptOutByBlockList context accessPassScope peerId moment [] := by
  rintro ⟨earlier, mode, later, split, _⟩
  simp at split

theorem keptOutByBlockList_cons :
    KeptOutByBlockList context accessPassScope peerId moment (mode :: modes) ↔
      (mode.permissive ∧ context.Blocked moment peerId) ∨
      (mode.permissive = false ∧ ¬ mode.LetsIn context accessPassScope peerId moment ∧
        KeptOutByBlockList context accessPassScope peerId (moment + 1) modes) := by
  constructor
  · rintro ⟨earlier, reached, later, split, permissive, blocked, unproven⟩
    cases earlier with
    | nil =>
      cases split
      exact Or.inl ⟨permissive, blocked⟩
    | cons first earlier =>
      cases split
      have firstUnproven := unproven 0 mode rfl
      refine Or.inr ⟨firstUnproven.1, firstUnproven.2, earlier, reached, later, rfl,
        permissive, ?_, fun index other found => ?_⟩
      · rwa [List.length_cons, show moment + (earlier.length + 1) =
          moment + 1 + earlier.length by omega] at blocked
      · have otherUnproven := unproven (index + 1) other found
        rwa [show moment + 1 + index = moment + (index + 1) by omega]
  · rintro (⟨permissive, blocked⟩ |
      ⟨proving, unproven, earlier, reached, later, rfl, permissive, blocked, others⟩)
    · exact ⟨[], mode, modes, rfl, permissive, blocked, by simp⟩
    · refine ⟨mode :: earlier, reached, later, rfl, permissive, ?_, fun index other found => ?_⟩
      · rwa [List.length_cons, show moment + (earlier.length + 1) =
          moment + 1 + earlier.length by omega]
      · cases index with
        | zero =>
          cases found
          exact ⟨proving, unproven⟩
        | succ index =>
          have otherUnproven := others index other found
          rwa [show moment + 1 + index = moment + (index + 1) by omega] at otherUnproven

theorem Outcome.failingIf_eq_resolved {Answer : Type*} {fails : Bool}
    {outcome : Outcome Answer} {answer : Answer} : outcome.failingIf fails = .resolved answer ↔
      fails = false ∧ outcome = .resolved answer := by
  cases fails <;> simp [failingIf]

theorem blocked_failing : (context.failing failures).Blocked moment peerId ↔
      failures.isBlockedContact = false ∧ context.Blocked moment peerId := by
  unfold PeerAccessContext.Blocked PeerAccessContext.failing
  cases context.contacts with
  | none => simp
  | some contacts =>
    cases blockedEq : contacts.isBlockedContact with
    | none => simp [blockedEq]
    | some => simp [blockedEq, Outcome.failingIf_eq_resolved]

theorem letsIn_of_failing (proving : mode.permissive = false)
    (letsIn : mode.LetsIn (context.failing failures) accessPassScope peerId moment) :
    mode.LetsIn context accessPassScope peerId moment := by
  cases mode with
  | openLan | publicMode => cases proving
  | verifiedContact =>
    obtain ⟨_, contactsEq, verified⟩ := letsIn
    obtain ⟨contacts, found, rfl⟩ := Option.map_eq_some_iff.mp contactsEq
    exact ⟨contacts, found, (Outcome.failingIf_eq_resolved.mp verified).2⟩
  | accessPass =>
    obtain ⟨_, scope, passesEq, scopeEq, named, held⟩ := letsIn
    obtain ⟨passes, found, rfl⟩ := Option.map_eq_some_iff.mp passesEq
    refine ⟨passes, scope, found, scopeEq, named, ?_⟩
    unfold PeerAccessPasses.HoldsPass at held ⊢
    cases inspectEq : passes.inspectPass with
    | none =>
      simp only [inspectEq, Option.map_none] at held
      exact (Outcome.failingIf_eq_resolved.mp held).2
    | some =>
      simp only [inspectEq, Option.map_some] at held
      exact (Outcome.failingIf_eq_resolved.mp held).2

/-- The modes of a list are let down by failing lookups exactly where only the
block list keeps the peer out. -/
theorem evaluateModes_failing :
    ((evaluateModes (context.failing failures) accessPassScope peerId moment denial
        modes).isGranted →
      (evaluateModes context accessPassScope peerId moment denial modes).isGranted) ↔
    ¬ (failures.isBlockedContact ∧
      KeptOutByBlockList context accessPassScope peerId moment modes) := by
  induction modes generalizing moment with
  | nil => simp [evaluateModes, keptOutByBlockList_nil]
  | cons mode modes ih =>
    rw [keptOutByBlockList_cons]
    cases permissive : mode.permissive with
    | true =>
      rw [evaluateModes_permissive permissive, evaluateModes_permissive permissive]
      have letsIn (context : PeerAccessContext) :
          mode.LetsIn context accessPassScope peerId moment ↔ ¬ context.Blocked moment peerId := by
        cases mode with
        | verifiedContact | accessPass => cases permissive
        | openLan | publicMode => exact Iff.rfl
      rw [letsIn, letsIn, blocked_failing]
      cases failures.isBlockedContact <;> simp
    | false =>
      rw [evaluateModes_proving permissive, evaluateModes_proving permissive]
      by_cases letsIn : mode.LetsIn context accessPassScope peerId moment
      · simp [letsIn]
      · have unproven : ¬ mode.LetsIn (context.failing failures) accessPassScope peerId
            moment := fun failing => letsIn (letsIn_of_failing permissive failing)
        simpa [letsIn, unproven] using ih

end

/-- A peer that well-formed options deny although nothing but the block list
speaks against it. -/
def DeniedByBlockList (moment : Nat) (peerId : Option String)
    (options : Option PeerAccessOptions) (context : Option PeerAccessContext) : Prop :=
  ∃ peer wellFormed modes, peerId = some peer ∧ peer ≠ "" ∧ options = some wellFormed ∧
    wellFormed.validModes = some modes ∧ passesAsSelf wellFormed context peer = false ∧
    KeptOutByBlockList (context.getD {}) wellFormed.accessPassScope peer moment modes

/-- Making lookups fail turns a denial into a grant exactly when the block list
is among them and alone keeps the peer out. -/
theorem grant_survives_lookups_iff (moment : Nat) (peerId : Option String)
    (options : Option PeerAccessOptions) (context : Option PeerAccessContext)
    (failures : LookupFailures) : ((checkPeerAccess moment peerId options
        (context.map (PeerAccessContext.failing failures))).isGranted →
      (checkPeerAccess moment peerId options context).isGranted) ↔
    ¬ (failures.isBlockedContact ∧ DeniedByBlockList moment peerId options context) := by
  have sameSelf (wellFormed : PeerAccessOptions) (peer : String) :
      passesAsSelf wellFormed (context.map (PeerAccessContext.failing failures)) peer =
        passesAsSelf wellFormed context peer := by
    cases context <;> rfl
  have sameContext : (context.map (PeerAccessContext.failing failures)).getD {} =
      (context.getD {}).failing failures := by
    cases context <;> rfl
  unfold checkPeerAccess
  split
  · next peer wellFormed peerEq =>
      obtain ⟨rfl, named⟩ := Option.filter_eq_some_iff.mp peerEq
      cases modesEq : wellFormed.validModes with
      | none => simp [DeniedByBlockList, modesEq]
      | some modes =>
        rw [sameSelf, sameContext]
        cases self : passesAsSelf wellFormed context peer with
        | true => simp [DeniedByBlockList, modesEq, self]
        | false =>
          have denied : DeniedByBlockList moment (some peer) (some wellFormed) context ↔
              KeptOutByBlockList (context.getD {}) wellFormed.accessPassScope peer moment
                modes := by
            simp only [decide_eq_true_eq] at named
            simp [DeniedByBlockList, modesEq, self, named]
          rw [denied]
          simpa using evaluateModes_failing
  · next malformed =>
      simp only [PeerAccessDecision.isGranted_denied, Bool.false_eq_true, imp_self, true_iff]
      rintro ⟨_, peer, wellFormed, modes, rfl, named, rfl, _⟩
      exact malformed peer wellFormed (by simp [Option.filter, named]) rfl

/-- A blocked contact enters a public capability as soon as the block list
cannot be read. -/
theorem blocked_contact_granted :
    ∃ (moment : Nat) (peerId : Option String) (options : Option PeerAccessOptions)
      (context : Option PeerAccessContext) (failures : LookupFailures),
      (checkPeerAccess moment peerId options
        (context.map (PeerAccessContext.failing failures))).isGranted ∧
      (checkPeerAccess moment peerId options context).isGranted = false := by
  refine ⟨0, some "peer", some { modes := some [some .openLan] },
    some
      { contacts := some
          { isVerifiedContact := fun _ _ => .resolved false
            isBlockedContact := some fun _ _ => .resolved true } },
    { isBlockedContact := true }, ?_, ?_⟩
  · decide
  · decide

end P2PHub
