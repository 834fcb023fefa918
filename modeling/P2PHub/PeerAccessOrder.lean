import P2PHub.PeerAccessGate

/-!
# The order of access modes

The modes of a list are alternatives, evaluated one after the other until one
lets the peer in or the block list turns it away.  Their order matters exactly
for a blocked peer that another mode of the list would let in.
-/

namespace P2PHub

/-- The lookups answer the same at every moment. -/
structure PeerAccessContext.Fixed (context : PeerAccessContext) : Prop where
  verified : ∀ contacts, context.contacts = some contacts → ∀ moment other peerId,
    contacts.isVerifiedContact moment peerId = contacts.isVerifiedContact other peerId
  blocked : ∀ contacts isBlockedContact, context.contacts = some contacts →
    contacts.isBlockedContact = some isBlockedContact → ∀ moment other peerId,
      isBlockedContact moment peerId = isBlockedContact other peerId
  passes : ∀ passes, context.accessPasses = some passes → ∀ moment other peerId scope,
    passes.hasValidPass moment peerId scope = passes.hasValidPass other peerId scope
  inspected : ∀ passes inspectPass, context.accessPasses = some passes →
    passes.inspectPass = some inspectPass → ∀ moment other peerId scope,
      inspectPass moment peerId scope = inspectPass other peerId scope

/-- The same modes, in another order or another number of times. -/
def SameModes (modes other : List (Option PeerAccessMode)) : Prop :=
  ∀ mode, mode ∈ other ↔ mode ∈ modes

def PeerAccessOptions.withModes (options : PeerAccessOptions)
    (modes : List (Option PeerAccessMode)) : PeerAccessOptions :=
  { options with modes := some modes }

def Permits (modes : List (Option PeerAccessMode)) : Prop :=
  ∃ mode, some mode ∈ modes ∧ mode.permissive = true

/-- A well-formed list has a permissive mode for a blocked peer which is the host
itself, or which another mode of the list lets in. -/
def WelcomesBlocked (options : PeerAccessOptions) (context : Option PeerAccessContext)
    (moment : Nat) (peerId : Option String) (modes : List (Option PeerAccessMode)) : Prop :=
  ∃ peer, peerId = some peer ∧ peer ≠ "" ∧ none ∉ modes ∧ Permits modes ∧
    (context.getD {}).Blocked moment peer ∧
    (passesAsSelf options context peer = true ∨
      ∃ mode, some mode ∈ modes ∧ mode.permissive = false ∧
        mode.LetsIn (context.getD {}) options.accessPassScope peer moment)

section

variable {context : PeerAccessContext} {accessPassScope : Option String} {peerId : String}
  {moment : Nat} {mode : PeerAccessMode} {modes : List PeerAccessMode}
  {denial : Option PeerDenialReason}

theorem PeerAccessContext.Fixed.blocked_iff (fixed : context.Fixed) (other : Nat) :
    context.Blocked moment peerId ↔ context.Blocked other peerId := by
  have answers (isBlockedContact : Nat → String → Outcome Bool)
      (found : context.contacts.bind PeerAccessContacts.isBlockedContact = some isBlockedContact) :
      isBlockedContact moment peerId = isBlockedContact other peerId := by
    obtain ⟨contacts, contactsEq, blockedEq⟩ := Option.bind_eq_some_iff.mp found
    exact fixed.blocked contacts isBlockedContact contactsEq blockedEq moment other peerId
  constructor
  · rintro ⟨isBlockedContact, found, blocked⟩
    exact ⟨isBlockedContact, found, (answers isBlockedContact found).symm.trans blocked⟩
  · rintro ⟨isBlockedContact, found, blocked⟩
    exact ⟨isBlockedContact, found, (answers isBlockedContact found).trans blocked⟩

theorem PeerAccessContext.Fixed.letsIn (fixed : context.Fixed) (other : Nat)
    (letsIn : mode.LetsIn context accessPassScope peerId moment) :
    mode.LetsIn context accessPassScope peerId other := by
  cases mode with
  | verifiedContact =>
    obtain ⟨contacts, contactsEq, verified⟩ := letsIn
    refine ⟨contacts, contactsEq, ?_⟩
    rw [← verified]
    exact fixed.verified contacts contactsEq other moment peerId
  | accessPass =>
    obtain ⟨passes, scope, passesEq, scopeEq, named, held⟩ := letsIn
    refine ⟨passes, scope, passesEq, scopeEq, named, ?_⟩
    unfold PeerAccessPasses.HoldsPass at held ⊢
    cases inspectEq : passes.inspectPass with
    | none =>
      rw [inspectEq] at held
      exact (fixed.passes passes passesEq other moment peerId scope).trans held
    | some inspectPass =>
      rw [inspectEq] at held
      exact (fixed.inspected passes inspectPass passesEq inspectEq other moment peerId
        scope).trans held
  | openLan | publicMode => exact fun blocked => letsIn ((fixed.blocked_iff moment).mp blocked)

theorem letsIn_permissive (permissive : mode.permissive) :
    mode.LetsIn context accessPassScope peerId moment ↔ ¬context.Blocked moment peerId := by
  cases mode with
  | verifiedContact | accessPass => cases permissive
  | openLan | publicMode => exact Iff.rfl

theorem letsIn_of_granted (fixed : context.Fixed) (start : Nat)
    (granted : (evaluateModes context accessPassScope peerId moment denial modes).isGranted)
    : ∃ mode ∈ modes, mode.LetsIn context accessPassScope peerId start := by
  induction modes generalizing moment with
  | nil => cases granted
  | cons mode modes ih =>
    cases permissive : mode.permissive with
    | true =>
      have letsIn := (evaluateModes_permissive permissive).mp granted
      exact ⟨mode, List.mem_cons_self, fixed.letsIn start letsIn⟩
    | false =>
      rcases (evaluateModes_proving permissive).mp granted with letsIn | later
      · exact ⟨mode, List.mem_cons_self, fixed.letsIn start letsIn⟩
      · obtain ⟨other, member, letsIn⟩ := ih later
        exact ⟨other, List.mem_cons_of_mem mode member, letsIn⟩

/-- A mode lets the peer in wherever it stands, unless the block list turns the
peer away before. -/
theorem granted_of_letsIn (fixed : context.Fixed) {start : Nat} (member : mode ∈ modes)
    (letsIn : mode.LetsIn context accessPassScope peerId start)
    (clear : context.Blocked start peerId → ∀ other ∈ modes, other.permissive = false) :
    (evaluateModes context accessPassScope peerId moment denial modes).isGranted := by
  induction modes generalizing moment with
  | nil => cases member
  | cons first modes ih =>
    cases permissive : first.permissive with
    | true =>
      rw [evaluateModes_permissive permissive, letsIn_permissive permissive]
      intro blocked
      have proving := clear ((fixed.blocked_iff start).mp blocked) first List.mem_cons_self
      rw [permissive] at proving
      cases proving
    | false =>
      rw [evaluateModes_proving permissive]
      rcases List.mem_cons.mp member with rfl | later
      · exact Or.inl (fixed.letsIn moment letsIn)
      · refine Or.inr (ih later fun blocked other isOther => ?_)
        exact clear blocked other (List.mem_cons_of_mem first isOther)

theorem granted_of_first (fixed : context.Fixed) {start : Nat}
    (letsIn : mode.LetsIn context accessPassScope peerId start) :
    (evaluateModes context accessPassScope peerId moment denial (mode :: modes)).isGranted =
      true := by
  have here := fixed.letsIn moment letsIn
  cases permissive : mode.permissive with
  | true => exact (evaluateModes_permissive permissive).mpr here
  | false => exact (evaluateModes_proving permissive).mpr (Or.inl here)

end

section

variable {options : PeerAccessOptions} {modes other : List (Option PeerAccessMode)}
  {proper : List PeerAccessMode}

theorem mapM_id_eq_some : modes.mapM id = some proper ↔ modes = proper.map some := by
  induction modes generalizing proper with
  | nil => cases proper <;> simp
  | cons mode modes ih =>
    have unfolded : (mode :: modes).mapM id = some proper ↔
        ∃ first rest, mode = some first ∧ modes.mapM id = some rest ∧ first :: rest = proper := by
      simp [List.mapM_cons, Option.bind_eq_some_iff]
    rw [unfolded]
    constructor
    · rintro ⟨first, rest, rfl, mapped, rfl⟩
      rw [ih.mp mapped, List.map_cons]
    · intro mapped
      obtain ⟨first, rest, rfl, rfl, restEq⟩ := List.map_eq_cons_iff.mp mapped.symm
      exact ⟨first, rest, rfl, ih.mpr restEq.symm, rfl⟩

theorem validModes_withModes :
    (options.withModes modes).validModes = some proper ↔ proper ≠ [] ∧ modes = proper.map some := by
  rw [PeerAccessOptions.validModes, PeerAccessOptions.withModes, Option.bind_eq_some_iff]
  simp only [Option.filter_eq_some_iff, decide_eq_true_eq, Option.some.injEq]
  constructor
  · rintro ⟨_, ⟨rfl, some⟩, mapped⟩
    obtain rfl := mapM_id_eq_some.mp mapped
    exact ⟨fun empty => some (by rw [empty, List.map_nil]), rfl⟩
  · rintro ⟨some, rfl⟩
    refine ⟨_, ⟨rfl, fun empty => some (List.map_eq_nil_iff.mp empty)⟩, mapM_id_eq_some.mpr rfl⟩

theorem exists_map_some (wellFormed : none ∉ modes) :
    ∃ proper : List PeerAccessMode, modes = proper.map some := by
  induction modes with
  | nil => exact ⟨[], rfl⟩
  | cons mode modes ih =>
    rw [List.mem_cons, not_or] at wellFormed
    obtain ⟨proper, rfl⟩ := ih wellFormed.2
    cases mode with
    | none => exact absurd rfl wellFormed.1
    | some mode => exact ⟨mode :: proper, rfl⟩

variable (same : SameModes modes other)
include same

theorem SameModes.valid (validated : (options.withModes modes).validModes = some proper) :
    ∃ others, (options.withModes other).validModes = some others ∧
      ∀ mode, mode ∈ others ↔ mode ∈ proper := by
  obtain ⟨nonempty, rfl⟩ := validModes_withModes.mp validated
  obtain ⟨others, rfl⟩ := exists_map_some fun invalid => by simpa using (same none).mp invalid
  have members : ∀ mode, mode ∈ others ↔ mode ∈ proper := by
    intro mode
    have member := same (some mode)
    simpa using member
  refine ⟨others, validModes_withModes.mpr ⟨?_, rfl⟩, members⟩
  obtain ⟨mode, member⟩ := List.exists_mem_of_ne_nil proper nonempty
  exact List.ne_nil_of_mem ((members mode).mpr member)

theorem SameModes.symm : SameModes other modes :=
  fun mode => (same mode).symm

theorem SameModes.invalid (invalid : (options.withModes modes).validModes = none) :
    (options.withModes other).validModes = none := by
  cases validated : (options.withModes other).validModes with
  | none => rfl
  | some =>
    obtain ⟨others, validatedBefore, _⟩ := same.symm.valid validated
    rw [invalid] at validatedBefore
    cases validatedBefore

end

variable {options : PeerAccessOptions} {modes other : List (Option PeerAccessMode)}
  {context : Option PeerAccessContext} {moment : Nat} {peerId : Option String}
  {proper : List PeerAccessMode}

theorem checkPeerAccess_withModes {peer : String}
    (named : peer ≠ "") (validated : (options.withModes modes).validModes = some proper) :
    checkPeerAccess moment (some peer) (some (options.withModes modes)) context =
      if passesAsSelf options context peer then .granted .self
      else evaluateModes (context.getD {}) options.accessPassScope peer moment none proper := by
  have filtered : (some peer).filter (· ≠ "") = some peer := by simp [Option.filter, named]
  unfold checkPeerAccess
  rw [filtered]
  dsimp only
  rw [validated]
  rfl

theorem checkPeerAccess_malformed (malformed : ∀ peer, peerId = some peer → peer ≠ "" →
      (options.withModes modes).validModes = none) :
    (checkPeerAccess moment peerId (some (options.withModes modes)) context).isGranted = false := by
  unfold checkPeerAccess
  split
  · next peer wellFormed peerEq same =>
      obtain ⟨rfl, named⟩ := Option.filter_eq_some_iff.mp peerEq
      cases same
      rw [malformed peer rfl (by simpa using named)]
      rfl
  · rfl

/-- Where no blocked peer is welcome, each mode of the list counts wherever it
stands. -/
theorem isGranted_iff (fixed : ∀ found, context = some found → found.Fixed) {peer : String}
    (named : peer ≠ "") (validated : (options.withModes modes).validModes = some proper)
    (unwelcome : ¬WelcomesBlocked options context moment (some peer) modes) :
    (checkPeerAccess moment (some peer) (some (options.withModes modes)) context).isGranted ↔
      passesAsSelf options context peer ∨ ∃ mode ∈ proper,
        mode.LetsIn (context.getD {}) options.accessPassScope peer moment := by
  have fixedAll : (context.getD {}).Fixed := by
    cases contextEq : context with
    | none => exact ⟨nofun, nofun, nofun, nofun⟩
    | some found => exact fixed found contextEq
  obtain ⟨_, rfl⟩ := validModes_withModes.mp validated
  rw [checkPeerAccess_withModes named validated]
  cases self : passesAsSelf options context peer with
  | true => simp
  | false =>
    simp only [Bool.false_eq_true, if_false, false_or]
    constructor
    · exact letsIn_of_granted fixedAll moment
    · rintro ⟨mode, member, letsIn⟩
      refine granted_of_letsIn fixedAll member letsIn fun blocked other isOther => ?_
      cases permissive : other.permissive with
      | false => rfl
      | true =>
        refine absurd ⟨peer, rfl, named, by simp, ⟨other, by simpa using isOther, permissive⟩,
          blocked, Or.inr ⟨mode, by simpa using member, ?_, letsIn⟩⟩ unwelcome
        by_contra standing
        rw [Bool.not_eq_false] at standing
        exact (letsIn_permissive standing).mp letsIn blocked

/-- The verdict does not depend on the order of the modes, and a blocked peer is
not granted where a mode is permissive, unless a blocked peer is welcome. -/
theorem access_modes_commute_iff (options : PeerAccessOptions)
    (context : Option PeerAccessContext) (moment : Nat) (peerId : Option String)
    (modes : List (Option PeerAccessMode)) (fixed : ∀ found, context = some found → found.Fixed) :
    ((∀ other, SameModes modes other →
        (checkPeerAccess moment peerId (some (options.withModes other)) context).isGranted =
          (checkPeerAccess moment peerId (some (options.withModes modes)) context).isGranted) ∧
      (∀ peer, peerId = some peer → (context.getD {}).Blocked moment peer → Permits modes →
        (checkPeerAccess moment peerId (some (options.withModes modes)) context).isGranted =
          false)) ↔ ¬WelcomesBlocked options context moment peerId modes := by
  have fixedAll : (context.getD {}).Fixed := by
    cases contextEq : context with
    | none => exact ⟨nofun, nofun, nofun, nofun⟩
    | some found => exact fixed found contextEq
  constructor
  · rintro ⟨commute, keptOut⟩ ⟨peer, rfl, named, wellFormed, permits, blocked, welcome⟩
    have denied := keptOut peer rfl blocked permits
    obtain ⟨proper, rfl⟩ := exists_map_some wellFormed
    obtain ⟨mode, member, _⟩ := permits
    have nonempty : proper ≠ [] := by
      rintro rfl
      cases member
    have validated : (options.withModes (proper.map some)).validModes = some proper :=
      validModes_withModes.mpr ⟨nonempty, rfl⟩
    rcases welcome with self | ⟨mode, member, _, letsIn⟩
    · rw [checkPeerAccess_withModes named validated, if_pos self] at denied
      cases denied
    · -- The mode that lets the peer in goes first.
      have same : SameModes (proper.map some) ((mode :: proper).map some) := by
        intro other
        rw [List.map_cons, List.mem_cons]
        exact or_iff_right_of_imp fun first => first ▸ member
      have verdict := commute _ same
      have validatedFirst : (options.withModes ((mode :: proper).map some)).validModes =
          some (mode :: proper) := validModes_withModes.mpr ⟨List.cons_ne_nil mode proper, rfl⟩
      rw [denied, checkPeerAccess_withModes named validatedFirst] at verdict
      split at verdict
      · cases verdict
      · rw [granted_of_first fixedAll letsIn] at verdict
        cases verdict
  · intro unwelcome
    constructor
    · intro other same
      have unwelcomeOther : ¬WelcomesBlocked options context moment peerId other := by
        rintro ⟨peer, peerEq, named, wellFormed, ⟨mode, member, permissive⟩, blocked, welcome⟩
        refine unwelcome ⟨peer, peerEq, named, fun invalid => wellFormed ((same none).mpr invalid),
          ⟨mode, (same _).mp member, permissive⟩, blocked, welcome.imp_right ?_⟩
        rintro ⟨mode, member, proving, letsIn⟩
        exact ⟨mode, (same _).mp member, proving, letsIn⟩
      by_cases wellFormed : ∃ peer proper, peerId = some peer ∧ peer ≠ "" ∧
          (options.withModes modes).validModes = some proper
      · obtain ⟨peer, proper, rfl, named, validated⟩ := wellFormed
        obtain ⟨others, validatedOther, members⟩ := same.valid validated
        rw [Bool.eq_iff_iff, isGranted_iff fixed named validatedOther unwelcomeOther,
          isGranted_iff fixed named validated unwelcome]
        simp only [members]
      · have malformed (peer : String) (peerEq : peerId = some peer) (named : peer ≠ "") :
            (options.withModes modes).validModes = none := by
          by_contra validated
          obtain ⟨proper, validated⟩ := Option.ne_none_iff_exists'.mp validated
          exact wellFormed ⟨peer, proper, peerEq, named, validated⟩
        rw [checkPeerAccess_malformed malformed, checkPeerAccess_malformed fun peer peerEq named =>
          same.invalid (malformed peer peerEq named)]
    · rintro peer rfl blocked permits
      by_contra granted
      rw [Bool.not_eq_false] at granted
      by_cases wellFormed : peer ≠ "" ∧ ∃ proper, (options.withModes modes).validModes = some proper
      · obtain ⟨named, proper, validated⟩ := wellFormed
        have letsIn := (isGranted_iff fixed named validated unwelcome).mp granted
        obtain ⟨_, rfl⟩ := validModes_withModes.mp validated
        refine unwelcome ⟨peer, rfl, named, by simp, permits, blocked, letsIn.imp_right ?_⟩
        rintro ⟨mode, member, letsIn⟩
        refine ⟨mode, List.mem_map_of_mem member, ?_, letsIn⟩
        by_contra permissive
        rw [Bool.not_eq_false] at permissive
        exact (letsIn_permissive permissive).mp letsIn blocked
      · rw [checkPeerAccess_malformed] at granted
        · cases granted
        · intro other same named
          cases same
          by_contra validated
          exact wellFormed ⟨named, Option.ne_none_iff_exists'.mp validated⟩

def passOptions : PeerAccessOptions where
  modes := none
  accessPassScope := some "site-read-only"

def blockedWithPass : PeerAccessContext where
  contacts := some
    { isVerifiedContact := fun _ _ => .resolved false
      isBlockedContact := some fun _ _ => .resolved true }
  accessPasses := some
    { hasValidPass := fun _ _ _ => .resolved true
      inspectPass := none }

theorem blockedWithPass_fixed (found : PeerAccessContext)
    (same : some blockedWithPass = some found) : found.Fixed := by
  cases same
  refine ⟨?_, ?_, ?_, ?_⟩
  · rintro contacts contactsEq moment other peerId
    cases contactsEq
    rfl
  · rintro contacts isBlockedContact contactsEq blockedEq moment other peerId
    cases contactsEq
    cases blockedEq
    rfl
  · rintro passes passesEq moment other peerId scope
    cases passesEq
    rfl
  · rintro passes inspectPass passesEq inspectEq
    cases passesEq
    cases inspectEq

/-- A list without a permissive mode. -/
theorem access_modes_commute_pass : (checkPeerAccess 0 (some "peer")
      (some (passOptions.withModes [some .accessPass, some .verifiedContact]))
      (some blockedWithPass)).isGranted := by
  have unwelcome : ¬WelcomesBlocked passOptions (some blockedWithPass) 0 (some "peer")
      [some .verifiedContact, some .accessPass] := by
    rintro ⟨peer, _, _, _, ⟨mode, member, permissive⟩, _⟩
    simp only [List.mem_cons, Option.some.injEq, List.not_mem_nil, or_false] at member
    rcases member with rfl | rfl <;> cases permissive
  have same : SameModes [some .verifiedContact, some .accessPass]
      [some .accessPass, some .verifiedContact] := by
    simp [SameModes, or_comm]
  have commutes := (access_modes_commute_iff passOptions (some blockedWithPass) 0 (some "peer")
    [some .verifiedContact, some .accessPass] blockedWithPass_fixed).mpr unwelcome
  rw [commutes.1 _ same]
  decide

/-- A blocked contact with a pass enters where its pass is asked for first. -/
theorem access_modes_order :
    ¬∀ (options : PeerAccessOptions) (context : Option PeerAccessContext) (moment : Nat)
      (peerId : Option String) (modes other : List (Option PeerAccessMode)),
      (∀ found, context = some found → found.Fixed) → modes.Perm other →
        (checkPeerAccess moment peerId (some (options.withModes other)) context).isGranted =
          (checkPeerAccess moment peerId (some (options.withModes modes)) context).isGranted := by
  intro commute
  have verdict := commute passOptions (some blockedWithPass) 0 (some "peer")
    [some .accessPass, some .publicMode] [some .publicMode, some .accessPass]
    blockedWithPass_fixed (List.Perm.swap _ _ _)
  revert verdict
  decide

end P2PHub
