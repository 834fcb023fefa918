import P2PHub.IdentityUniqueness

/-!
# What becomes of the keypairs in a vault

A secret that cannot be opened is taken for one that is not there.  Where calls
follow each other and each finds the secrets that it looks for either missing
or legible, no stored keypair is replaced.
-/

namespace P2PHub.Identity

open VaultManager AsyncCalls Transition

def KeypairName (name : String) : Prop :=
  name = privateKeyKey ∨ name = publicKeyKey ∨
    ∃ label, name = childPrivateKeyKey label ∨ name = childPublicKeyKey label

section

variable {PrivateKey Key Entry : Type} (keys : KeyMaterial PrivateKey)
  (cipher : VaultCipher Key Entry)

/-- Every secret of a keypair that is stored stays as it is, or is stored again
with the text that it opens to. -/
def KeepsKeypairs (before after : IdentityState PrivateKey Entry) : Prop :=
  ∀ name, KeypairName name → ∀ stored, entry before.disk name = some stored →
    ∃ now, entry after.disk name = some now ∧
      (now = stored ∨ ∃ text, before.secret cipher name = some text ∧
        after.secret cipher name = some text)

/-- Whatever the turn does, short of tampering, it replaces no keypair. -/
def ReplacesNone (pool : Pool (IdentityState PrivateKey Entry) (IdentityCall PrivateKey))
    (label : Label (IdentityAction Entry) (IdentityAnswer PrivateKey)) : Prop :=
  ∀ after outputs, (identityProgram keys cipher).step pool label = some (after, outputs) →
    (∀ disk, label ≠ .launch (.tamper disk)) → KeepsKeypairs cipher pool.shared after.shared

/-- Calls follow each other, and the key, the vault and the process change only
between them. -/
def Sequential (pool : Pool (IdentityState PrivateKey Entry) (IdentityCall PrivateKey))
    (label : Label (IdentityAction Entry) (IdentityAnswer PrivateKey)) : Prop :=
  ∀ action, label = .launch action →
    ∀ (index : Nat) (call : IdentityCall PrivateKey), pool.calls[index]? = some call →
      call.phase = .settled

/-- The two secrets of the operator are both missing, or the installed key opens
them both. -/
def PairLegible (state : IdentityState PrivateKey Entry) : Prop :=
  (entry state.disk privateKeyKey = none ∧ entry state.disk publicKeyKey = none) ∨
    ((truthy (state.secret cipher privateKeyKey)).isSome ∧
      (truthy (state.secret cipher publicKeyKey)).isSome)

/-- The manager has its identity, or will find the secrets legible. -/
def OperatorLegible (state : IdentityState PrivateKey Entry) : Prop :=
  state.identity ≠ none ∨ PairLegible cipher state

/-- The installed key opens all three secrets of the child. -/
def ChildLegible (state : IdentityState PrivateKey Entry) (label : String) : Prop :=
  ∀ which : ChildSecret, (truthy (state.secret cipher (which.name label))).isSome

/-- The two secrets are each missing, or open to those of the keypair. -/
structure HoldsChild (state : IdentityState PrivateKey Entry) (label : String)
    (child : PrivateKey) : Prop where
  privateKey : entry state.disk (childPrivateKeyKey label) = none ∨
    state.secret cipher (childPrivateKeyKey label) = some (keys.exportPem child)
  publicKey : entry state.disk (childPublicKeyKey label) = none ∨
    state.secret cipher (childPublicKeyKey label) = some (keys.publicKeyHex child)

def MayUse (state : IdentityState PrivateKey Entry) (key : PrivateKey) : Prop :=
  match state.identity, truthy (state.secret cipher publicKeyKey),
    truthy (state.secret cipher privateKeyKey) with
  | some _, _, _ => state.privateKey = some key
  | none, some _, some pem => keys.createPrivateKey pem = some key
  | none, _, _ => True

/-- What the call looks for in the vault is missing or legible, and what there is
of a child that would be derived anew belongs to the keypair that would be
derived. -/
def Legible (state : IdentityState PrivateKey Entry) : IdentityUse → Prop
  | .child label => (isValidChildLabel label = true ∧ ChildLegible cipher state label) ∨
      (OperatorLegible cipher state ∧ (isValidChildLabel label = true →
        ∀ key, MayUse keys cipher state key →
          HoldsChild keys cipher state label (keys.deriveChildKey key label)))
  | _ => OperatorLegible cipher state

/-- A call starts where what it looks for is missing or legible. -/
def LegibleTurn (pool : Pool (IdentityState PrivateKey Entry) (IdentityCall PrivateKey))
    (label : Label (IdentityAction Entry) (IdentityAnswer PrivateKey)) : Prop :=
  ∀ use, label = .launch (.call use) → Legible keys cipher pool.shared use

end

section

variable {PrivateKey Key Entry : Type} (keys : KeyMaterial PrivateKey)
  (cipher : VaultCipher Key Entry)

/-- What is there of the child that the call would derive from the key. -/
def Derivable (state : IdentityState PrivateKey Entry) (use : IdentityUse) (key : PrivateKey) :
    Prop :=
  ∀ label, use = .child label → isValidChildLabel label = true →
    HoldsChild keys cipher state label (keys.deriveChildKey key label)

def PhaseSafe (state : IdentityState PrivateKey Entry) (use : IdentityUse) :
    IdentityPhase PrivateKey → Prop
  | .readingChild label reads => use = .child label ∧ isValidChildLabel label = true ∧
      Legible keys cipher state use ∧ ∀ which value, reads.read which = some value →
        value = state.secret cipher (which.name label)
  | .childAbsent => OperatorLegible cipher state ∧
      ∀ key, MayUse keys cipher state key → Derivable keys cipher state use key
  | .readingPublic => state.identity = none ∧ PairLegible cipher state ∧
      ∀ key, MayUse keys cipher state key → Derivable keys cipher state use key
  | .readingPrivate publicKeyHex => state.identity = none ∧ PairLegible cipher state ∧
      (∀ key, MayUse keys cipher state key → Derivable keys cipher state use key) ∧
        publicKeyHex = state.secret cipher publicKeyKey
  | .readPrivate publicKeyHex privateKeyPem => state.identity = none ∧
      PairLegible cipher state ∧
        (∀ key, MayUse keys cipher state key → Derivable keys cipher state use key) ∧
          publicKeyHex = state.secret cipher publicKeyKey ∧
            privateKeyPem = state.secret cipher privateKeyKey
  | .storingPrivate key => entry state.disk privateKeyKey = none ∧
      entry state.disk publicKeyKey = none ∧ Derivable keys cipher state use key
  | .storingPublic key => entry state.disk publicKeyKey = none ∧
      Derivable keys cipher state use key
  | .stored key => Derivable keys cipher state use key
  | .returning _ => ∀ key, state.privateKey = some key → Derivable keys cipher state use key
  | .certifying _ label child _ => HoldsChild keys cipher state label child
  | .storingChildPrivate child certificate | .storingChildPublic child certificate =>
    HoldsChild keys cipher state certificate.label child
  | .storingChildCertificate _ | .settled => True

structure TurnSafe (state : IdentityState PrivateKey Entry) (use : IdentityUse)
    (step : IdentityStep PrivateKey Entry) : Prop where
  phase : PhaseSafe keys cipher step.state use step.phase
  keeps : KeepsKeypairs cipher state step.state

end

section

variable {PrivateKey Key Entry : Type} {keys : KeyMaterial PrivateKey}
  {cipher : VaultCipher Key Entry} {state : IdentityState PrivateKey Entry}
  {use : IdentityUse} {next : IdentityPhase PrivateKey} {key child : PrivateKey}
  {events : List (IdentityEvent PrivateKey)} {salt : String} {iv : Nat} {outcome : VaultWrite}
  {name value label : String} {after : IdentityState PrivateKey Entry}
  {phase : IdentityPhase PrivateKey}

theorem keepsKeypairs_of_disk
    (same : after.disk = state.disk) : KeepsKeypairs cipher state after := by
  intro name _ stored held
  exact ⟨stored, by rw [same]; exact held, Or.inl rfl⟩

section

variable (sound : cipher.Lawful)
    (written : KeypairName name → entry state.disk name = none ∨ state.secret cipher name =
    some value)
include sound written

/-- A store keeps the keypairs when it writes what is there, or where nothing
is. -/
theorem keepsKeypairs_replaced :
    KeepsKeypairs cipher state (state.replaced cipher salt iv name value) := by
  intro other isName stored held
  by_cases same : other = name
  · subst other
    rcases written isName with absent | opened
    · rw [absent] at held
      cases held
    · obtain ⟨now, present⟩ : ∃ now, entry (state.replaced cipher salt iv name value).disk name =
          some now := entry_setSecret_self
      exact ⟨now, present, Or.inr ⟨value, opened, secret_replaced_self sound⟩⟩
  · exact ⟨stored, (entry_setSecret_of_ne same).trans held, Or.inl rfl⟩

theorem turnSafe_of_store
    (safe : PhaseSafe keys cipher (state.replaced cipher salt iv name value) use next) :
    TurnSafe keys cipher state use (store cipher state outcome salt iv name value next events) := by
  have keeps : KeepsKeypairs cipher state (state.replaced cipher salt iv name value) :=
    keepsKeypairs_replaced sound written
  cases outcome with
  | stored => exact ⟨safe, keeps⟩
  | failed => exact ⟨trivial, keepsKeypairs_of_disk rfl⟩
  | notReleased => exact ⟨trivial, keeps⟩

end

theorem turnSafe_of_phase (safe : PhaseSafe keys cipher state use phase) :
    TurnSafe keys cipher state use ⟨state, phase, events⟩ :=
  ⟨safe, keepsKeypairs_of_disk rfl⟩

theorem turnSafe_of_reject (error : IdentityError) :
    TurnSafe keys cipher state use (reject state error) :=
  ⟨trivial, keepsKeypairs_of_disk rfl⟩

theorem HoldsChild.replaced (holds : HoldsChild keys cipher state label child)
    (notPrivate : childPrivateKeyKey label ≠ name) (notPublic : childPublicKeyKey label ≠ name) :
    HoldsChild keys cipher (state.replaced cipher salt iv name value) label child := by
  constructor
  · rcases holds.privateKey with absent | opened
    · exact Or.inl ((entry_setSecret_of_ne notPrivate).trans absent)
    · exact Or.inr ((secret_replaced_of_ne notPrivate).trans opened)
  · rcases holds.publicKey with absent | opened
    · exact Or.inl ((entry_setSecret_of_ne notPublic).trans absent)
    · exact Or.inr ((secret_replaced_of_ne notPublic).trans opened)

theorem Derivable.replaced (derivable : Derivable keys cipher state use key)
    (operator : name = privateKeyKey ∨ name = publicKeyKey) :
    Derivable keys cipher (state.replaced cipher salt iv name value) use key := by
  intro label isUse valid
  refine (derivable label isUse valid).replaced ?_ ?_
  · rcases operator with rfl | rfl
    · exact childKey_ne_privateKeyKey label ".privateKey"
    · exact childKey_ne_publicKeyKey label ".privateKey"
  · rcases operator with rfl | rfl
    · exact childKey_ne_privateKeyKey label ".publicKey"
    · exact childKey_ne_publicKeyKey label ".publicKey"

theorem Derivable.of_disk
    (derivable : Derivable keys cipher state use key) (disk : after.disk = state.disk)
    (masterKey : after.masterKey = state.masterKey) : Derivable keys cipher after use key := by
  intro label isUse valid
  have holds := derivable label isUse valid
  have secrets (name : String) : after.secret cipher name = state.secret cipher name := by
    rw [IdentityState.secret, IdentityState.secret, disk, masterKey]
  refine ⟨?_, ?_⟩
  · rw [disk, secrets]
    exact holds.privateKey
  · rw [disk, secrets]
    exact holds.publicKey

theorem childCertificate_not_keypair (label : String) :
    ¬ KeypairName (childCertificateKey label) := by
  rintro (same | same | ⟨other, same | same⟩)
  · exact childKey_ne_privateKeyKey label ".certificate" same
  · exact childKey_ne_publicKeyKey label ".certificate" same
  · exact childPrivateKeyKey_ne_certificate other label same.symm
  · exact childPublicKeyKey_ne_certificate other label same.symm

theorem ChildReads.read_with (reads : ChildReads) (which other : ChildSecret)
    (value : Option String) : (reads.with which value).read other =
      if other = which then some value else reads.read other := by
  cases which <;> cases other <;> rfl

theorem truthy_secret_of_absent (absent : entry state.disk name = none) :
    truthy (state.secret cipher name) = none := by
  have missing : state.secret cipher name = none := getSecret_eq_none_of_absent absent
  rw [missing]
  rfl

theorem mayUse_known {peerId : String} (known : state.identity = some peerId) :
    MayUse keys cipher state key ↔ state.privateKey = some key := by
  rw [MayUse, known]

theorem mayUse_loaded {hex pem : String} (unknown : state.identity = none)
    (publicKeyHex : truthy (state.secret cipher publicKeyKey) = some hex)
    (privateKeyPem : truthy (state.secret cipher privateKeyKey) = some pem) :
    MayUse keys cipher state key ↔ keys.createPrivateKey pem = some key := by
  rw [MayUse, unknown, publicKeyHex, privateKeyPem]

theorem mayUse_generated (unknown : state.identity = none)
    (absent : entry state.disk publicKeyKey = none) : MayUse keys cipher state key := by
  have missing : truthy (state.secret cipher publicKeyKey) = none :=
    truthy_secret_of_absent absent
  rw [MayUse, unknown, missing]
  trivial

theorem turnSafe_of_finishChildReads
    (legible : Legible keys cipher state (.child label)) (publicKeyHex privateKeyPem
      certificateJson : Option String)
    (publicEq : publicKeyHex = state.secret cipher (childPublicKeyKey label))
    (privateEq : privateKeyPem = state.secret cipher (childPrivateKeyKey label))
    (certificateEq : certificateJson = state.secret cipher (childCertificateKey label)) :
    TurnSafe keys cipher state (.child label)
      (finishChildReads state label publicKeyHex privateKeyPem certificateJson) := by
  unfold finishChildReads
  split
  · next peerId _ text _ _ _ =>
      cases Json.parse text.toList with
      | none => exact turnSafe_of_reject _
      | some => exact turnSafe_of_phase trivial
  · next incomplete =>
      apply turnSafe_of_phase
      rcases legible with ⟨_, complete⟩ | ⟨operator, derived⟩
      · obtain ⟨hex, isHex⟩ := Option.isSome_iff_exists.mp (complete .publicKey)
        obtain ⟨pem, isPem⟩ := Option.isSome_iff_exists.mp (complete .privateKey)
        obtain ⟨text, isText⟩ := Option.isSome_iff_exists.mp (complete .certificate)
        subst publicEq privateEq certificateEq
        exact absurd isText (incomplete hex pem text isHex isPem)
      · refine ⟨operator, fun key used other isUse valid => ?_⟩
        cases isUse
        exact derived valid key used

theorem phaseSafe_of_begin (operator : OperatorLegible cipher state)
    (derivable : ∀ key, MayUse keys cipher state key → Derivable keys cipher state use key) :
    PhaseSafe keys cipher state use (beginIdentity state) := by
  unfold beginIdentity
  cases known : state.identity with
  | some => exact fun key held => derivable key ((mayUse_known known).mpr held)
  | none =>
    rcases operator with someIdentity | pair
    · exact absurd known someIdentity
    · exact ⟨known, pair, derivable⟩

theorem turnSafe_of_finishReads (unknown : state.identity = none) (pair : PairLegible cipher state)
    (derivable : ∀ key, MayUse keys cipher state key → Derivable keys cipher state use key)
    (generated : PrivateKey) :
    TurnSafe keys cipher state use (finishReads keys state (state.secret cipher publicKeyKey)
      (state.secret cipher privateKeyKey) generated) := by
  unfold finishReads
  split
  · next hex pem isHex isPem =>
      cases imported : keys.createPrivateKey pem with
      | none => exact turnSafe_of_reject _
      | some key =>
        have used : MayUse keys cipher state key :=
          (mayUse_loaded unknown isHex isPem).mpr imported
        refine ⟨fun other held => ?_, keepsKeypairs_of_disk rfl⟩
        cases held
        exact (derivable key used).of_disk rfl rfl
  · next incomplete =>
      apply turnSafe_of_phase
      rcases pair with ⟨privateAbsent, publicAbsent⟩ | ⟨isPem, isHex⟩
      · exact ⟨privateAbsent, publicAbsent,
          derivable generated (mayUse_generated unknown publicAbsent)⟩
      · obtain ⟨hex, isHex⟩ := Option.isSome_iff_exists.mp isHex
        obtain ⟨pem, isPem⟩ := Option.isSome_iff_exists.mp isPem
        exact absurd isPem (incomplete hex pem isHex)

theorem turnSafe_of_finishIdentity
    (derivable : ∀ key, state.privateKey = some key → Derivable keys cipher state use key)
    (peerId : String) (now : Binary64) :
    TurnSafe keys cipher state use (finishIdentity keys state use peerId now) := by
  cases held : state.privateKey with
  | none =>
    cases use <;> simp only [finishIdentity, held]
    · exact turnSafe_of_phase trivial
    · exact turnSafe_of_reject _
    · exact turnSafe_of_reject _
    · exact turnSafe_of_reject _
  | some key =>
    cases use with
    | identity => exact turnSafe_of_phase trivial
    | sign | exportSeed =>
      simp only [finishIdentity, held]
      exact turnSafe_of_phase trivial
    | child label =>
      simp only [finishIdentity, held]
      split
      · next valid => exact turnSafe_of_phase (derivable key held label rfl valid)
      · exact turnSafe_of_reject _

theorem turnSafe_of_certify {parent : String} {issuedAt : Binary64}
    (holds : HoldsChild keys cipher state label child) :
    TurnSafe keys cipher state use (certify keys state parent label child issuedAt) := by
  unfold certify
  cases state.privateKey with
  | none => exact turnSafe_of_reject _
  | some => exact turnSafe_of_phase holds

theorem advanceIdentity_safe (sound : cipher.Lawful)
    {answer : IdentityAnswer PrivateKey} {step : IdentityStep PrivateKey Entry}
    (safe : PhaseSafe keys cipher state use phase)
    (advanced : advanceIdentity keys cipher state use phase answer = some step) :
    TurnSafe keys cipher state use step := by
  unfold advanceIdentity at advanced
  split at advanced
  · next label reads which failed =>
      split at advanced
      · cases advanced
      · cases advanced
        obtain ⟨isUse, valid, legible, read⟩ := safe
        split
        · exact turnSafe_of_reject _
        · refine turnSafe_of_phase ⟨isUse, valid, legible, fun other value given => ?_⟩
          rw [ChildReads.read_with] at given
          split at given
          · next same =>
              rw [same]
              exact (Option.some.inj given).symm
          · exact read other value given
  · next label publicKeyHex privateKeyPem certificateJson generated now =>
      cases advanced
      obtain ⟨rfl, valid, legible, read⟩ := safe
      exact turnSafe_of_finishChildReads legible _ _ _ (read .publicKey _ rfl)
        (read .privateKey _ rfl) (read .certificate _ rfl)
  · cases advanced
    exact turnSafe_of_phase (phaseSafe_of_begin safe.1 safe.2)
  · cases advanced
    obtain ⟨unknown, pair, derivable⟩ := safe
    split
    · exact turnSafe_of_reject _
    · exact turnSafe_of_phase ⟨unknown, pair, derivable, rfl⟩
  · cases advanced
    obtain ⟨unknown, pair, derivable, publicEq⟩ := safe
    split
    · exact turnSafe_of_reject _
    · exact turnSafe_of_phase ⟨unknown, pair, derivable, publicEq, rfl⟩
  · cases advanced
    obtain ⟨unknown, pair, derivable, rfl, rfl⟩ := safe
    exact turnSafe_of_finishReads unknown pair derivable _
  · cases advanced
    obtain ⟨privateAbsent, publicAbsent, derivable⟩ := safe
    refine turnSafe_of_store sound (fun _ => Or.inl privateAbsent) ⟨?_, ?_⟩
    · exact (entry_setSecret_of_ne privateKeyKey_ne_publicKeyKey.symm).trans publicAbsent
    · exact derivable.replaced (Or.inl rfl)
  · cases advanced
    obtain ⟨publicAbsent, derivable⟩ := safe
    exact turnSafe_of_store sound (fun _ => Or.inl publicAbsent) (derivable.replaced (Or.inr rfl))
  · next key generated now =>
      cases advanced
      refine ⟨fun other held => ?_, keepsKeypairs_of_disk rfl⟩
      cases held
      exact Derivable.of_disk safe rfl rfl
  · cases advanced
    exact turnSafe_of_finishIdentity safe _ _
  · cases advanced
    exact turnSafe_of_certify safe
  · next child certificate outcome salt iv =>
      cases advanced
      refine turnSafe_of_store sound (fun _ => safe.privateKey)
        ⟨Or.inr (secret_replaced_self sound), ?_⟩
      have apart := childPublicKeyKey_ne_private certificate.label certificate.label
      rcases safe.publicKey with absent | opened
      · exact Or.inl ((entry_setSecret_of_ne apart).trans absent)
      · exact Or.inr ((secret_replaced_of_ne apart).trans opened)
  · cases advanced
    exact turnSafe_of_store sound (fun _ => safe.publicKey) trivial
  · next certificate outcome salt iv =>
      cases advanced
      exact turnSafe_of_store sound
        (fun isName => absurd isName (childCertificate_not_keypair certificate.label)) trivial
  · cases advanced

end

section

variable {PrivateKey Key Entry : Type} {keys : KeyMaterial PrivateKey}
  {cipher : VaultCipher Key Entry} {start : IdentityState PrivateKey Entry}
  {history : List (Nat × IdentityEvent PrivateKey)}
  {pool after : Pool (IdentityState PrivateKey Entry) (IdentityCall PrivateKey)}
  {label : Label (IdentityAction Entry) (IdentityAnswer PrivateKey)}
  {outputs : List (Nat × IdentityEvent PrivateKey)}

/-- The one call that has not settled, if any, will replace no keypair. -/
def PoolSafe (keys : KeyMaterial PrivateKey) (cipher : VaultCipher Key Entry)
    (pool : Pool (IdentityState PrivateKey Entry) (IdentityCall PrivateKey)) : Prop :=
  ∀ (index : Nat) (call : IdentityCall PrivateKey), pool.calls[index]? = some call →
    call.phase ≠ .settled → PhaseSafe keys cipher pool.shared call.use call.phase ∧
      ∀ (other : Nat) (busy : IdentityCall PrivateKey), pool.calls[other]? = some busy →
        busy.phase ≠ .settled → other = index

theorem launchIdentity_safe {state : IdentityState PrivateKey Entry} {use : IdentityUse}
    (legible : Legible keys cipher state use) :
    PhaseSafe keys cipher state use (launchIdentity state use) := by
  have operator (legible : OperatorLegible cipher state) (plain : ∀ label, use ≠ .child label) :
      PhaseSafe keys cipher state use (beginIdentity state) :=
    phaseSafe_of_begin legible fun _ _ label isUse => absurd isUse (plain label)
  cases use with
  | identity | sign | exportSeed => exact operator legible (fun _ => nofun)
  | child =>
    unfold launchIdentity
    dsimp only
    split
    · next valid =>
        refine ⟨rfl, valid, legible, fun which value given => ?_⟩
        cases which <;> cases given
    · next invalid =>
        rcases legible with ⟨valid, _⟩ | ⟨operator, _⟩
        · exact absurd valid invalid
        · refine ⟨operator, fun key _ other isUse valid => ?_⟩
          cases isUse
          exact absurd valid invalid

theorem PoolSafe.step (sound : cipher.Lawful) (safe : PoolSafe keys cipher pool)
    (sequential : Sequential pool label) (legible : LegibleTurn keys cipher pool label)
    (stepped : (identityProgram keys cipher).step pool label = some (after, outputs)) :
    PoolSafe keys cipher after := by
  rcases Program.step_cases stepped with
    ⟨action, rfl, _, callsEq, _⟩ | ⟨action, call, emitted, rfl, launched, callsEq, _⟩ |
    ⟨index, answer, call, next, emitted, rfl, found, resumed, callsEq, _⟩
  · intro index call found busy
    rw [callsEq] at found
    exact absurd (sequential action rfl index call found) busy
  · cases action with
    | setKey | tamper | restart => simp [identityProgram] at launched
    | call use =>
      simp only [identityProgram, Prod.mk.injEq, Option.some.injEq] at launched
      obtain ⟨sharedEq, rfl, rfl⟩ := launched
      have newest (index : Nat) (other : IdentityCall PrivateKey)
          (found : after.calls[index]? = some other) (busy : other.phase ≠ .settled) :
          index = pool.calls.length ∧ other = ⟨use, launchIdentity pool.shared use⟩ := by
        rw [callsEq] at found
        by_cases old : index < pool.calls.length
        · rw [List.getElem?_append_left old] at found
          exact absurd (sequential _ rfl index other found) busy
        · have bound := (List.getElem?_eq_some_iff.mp found).1
          rw [List.length_append, List.length_singleton] at bound
          obtain rfl : index = pool.calls.length := by omega
          exact ⟨rfl, by simpa using found.symm⟩
      intro index other found busy
      obtain ⟨rfl, rfl⟩ := newest index other found busy
      refine ⟨?_, fun another further present unsettled =>
        (newest another further present unsettled).1⟩
      rw [← sharedEq]
      exact launchIdentity_safe (legible use rfl)
  · obtain ⟨step, advanced, sharedEq, rfl, _⟩ := identityProgram_resume resumed
    have unsettled : call.phase ≠ .settled := by
      intro settled
      rw [settled] at advanced
      cases advanced
    obtain ⟨callSafe, alone⟩ := safe index call found unsettled
    have turn : TurnSafe keys cipher pool.shared call.use step :=
      advanceIdentity_safe sound callSafe advanced
    have bound := (List.getElem?_eq_some_iff.mp found).1
    have only (position : Nat) (other : IdentityCall PrivateKey)
        (present : after.calls[position]? = some other) (busy : other.phase ≠ .settled) :
        position = index ∧ other = { call with phase := step.phase } := by
      rw [callsEq] at present
      by_cases same : position = index
      · subst position
        rw [List.getElem?_set_self bound] at present
        exact ⟨rfl, (Option.some.inj present).symm⟩
      · rw [List.getElem?_set_ne (Ne.symm same)] at present
        exact absurd (alone position other present busy) same
    intro position other present busy
    obtain ⟨rfl, rfl⟩ := only position other present busy
    refine ⟨?_, fun another further located unsettled =>
      (only another further located unsettled).1⟩
    rw [sharedEq]
    exact turn.phase

theorem poolSafe_of_runs (sound : cipher.Lawful) (runs : Runs (identityProgram keys cipher).step
      (fun _ before label => Sequential before label ∧ LegibleTurn keys cipher before label)
      (.initial start) history pool) : PoolSafe keys cipher pool := by
  refine runs.invariant (fun _ pool => PoolSafe keys cipher pool) ?_ ?_
  · intro index call found
    simp [Pool.initial] at found
  · rintro history before label after outputs safe ⟨sequential, legible⟩ stepped
    exact safe.step sound sequential legible stepped

end

/-- In every run of calls that follow each other and find what they look for
missing or legible, no turn replaces a keypair. -/
theorem keypairs_preserved {PrivateKey Key Entry : Type} {keys : KeyMaterial PrivateKey}
    {cipher : VaultCipher Key Entry} (sound : cipher.Lawful)
    {start : IdentityState PrivateKey Entry} {history : List (Nat × IdentityEvent PrivateKey)}
    {pool : Pool (IdentityState PrivateKey Entry) (IdentityCall PrivateKey)}
    (runs : Runs (identityProgram keys cipher).step
      (fun _ before label => Sequential before label ∧ LegibleTurn keys cipher before label)
      (.initial start) history pool)
    (label : Label (IdentityAction Entry) (IdentityAnswer PrivateKey)) :
    ReplacesNone keys cipher pool label := by
  intro after outputs stepped untampered
  have safe : PoolSafe keys cipher pool := poolSafe_of_runs sound runs
  rcases Program.step_cases stepped with
    ⟨action, rfl, launched, _, _⟩ | ⟨action, call, emitted, rfl, launched, _, _⟩ |
    ⟨index, answer, call, next, emitted, rfl, found, resumed, _, _⟩
  · apply keepsKeypairs_of_disk
    cases action with
    | call => simp [identityProgram] at launched
    | setKey | restart =>
      simp only [identityProgram, Prod.mk.injEq] at launched
      rw [← launched.1]
    | tamper disk => exact absurd rfl (untampered disk)
  · apply keepsKeypairs_of_disk
    cases action with
    | call =>
      simp only [identityProgram, Prod.mk.injEq] at launched
      rw [← launched.1]
    | setKey | tamper | restart => simp [identityProgram] at launched
  · obtain ⟨step, advanced, sharedEq, rfl, _⟩ := identityProgram_resume resumed
    have unsettled : call.phase ≠ .settled := by
      intro settled
      rw [settled] at advanced
      cases advanced
    rw [sharedEq]
    exact (advanceIdentity_safe sound (safe index call found unsettled).1 advanced).keeps

/-- A vault with the keypair `a`, sealed under the key `right`. -/
def ownedState (masterKey : String) : IdentityState String ((String × String) × String) where
  disk := some
    { salt := "salt"
      entries := (OrderedMap.empty.set privateKeyKey (("right", "salt"), "sa")).set publicKeyKey
        (("right", "salt"), "pa") }
  masterKey := masterKey
  identity := none
  privateKey := none

def opensAlone (pool : Pool (IdentityState String ((String × String) × String))
    (IdentityCall String)) : PlainLabel → Bool
  | .launch _ => pool.calls.isEmpty
  | .resume _ _ => true

/-- A turn that starts no call but one of `getOrCreateIdentity`, as the first and
with both secrets legible. -/
def legibleTurn (pool : Pool (IdentityState String ((String × String) × String))
    (IdentityCall String)) : PlainLabel → Bool
  | .launch (.call .identity) => pool.calls.isEmpty &&
      ((truthy (pool.shared.secret plainCipher privateKeyKey)).isSome &&
        (truthy (pool.shared.secret plainCipher publicKeyKey)).isSome)
  | .launch _ => false
  | .resume _ _ => true

theorem legible_of_turn {pool : Pool (IdentityState String ((String × String) × String))
      (IdentityCall String)} {label : PlainLabel} (turn : legibleTurn pool label) :
    Sequential pool label ∧ LegibleTurn plainKeys plainCipher pool label := by
  constructor
  · rintro action rfl index call found
    have empty : pool.calls = [] := by
      cases action with
      | call use =>
        cases use with
        | identity =>
          simp only [legibleTurn, Bool.and_eq_true, List.isEmpty_iff] at turn
          exact turn.1
        | sign | exportSeed | child => cases turn
      | setKey | tamper | restart => cases turn
    rw [empty] at found
    cases found
  · rintro use rfl
    cases use with
    | identity =>
      simp only [legibleTurn, Bool.and_eq_true] at turn
      exact Or.inr (Or.inr turn.2)
    | sign | exportSeed | child => cases turn

/-- The right key, after which nothing is written. -/
theorem keypairs_preserved_plain : ∃ pool : Pool (IdentityState String ((String × String) × String))
        (IdentityCall String), pool.shared.identity = some "pa" ∧
      ∀ label, ReplacesNone plainKeys plainCipher pool label := by
  obtain ⟨history, pool, runs, loaded⟩ := exists_runs_of_runWhile
    (identityProgram plainKeys plainCipher).step (fun _ pool label => legibleTurn pool label)
    (fun _ pool label => Sequential pool label ∧ LegibleTurn plainKeys plainCipher pool label)
    (.initial (ownedState "right"))
    ([.launch (.call .identity)] ++ (firstUse 0 "b").take 3)
    (fun result => result.1.shared.identity == some "pa")
    (fun _ _ _ turn => legible_of_turn turn) (by decide +kernel)
  exact ⟨pool, by simpa using loaded, keypairs_preserved plainCipher_lawful runs⟩

/-- After a wrong key was installed the keypair is replaced. -/
theorem wrong_key_replaces : ¬ ∀ (PrivateKey Key Entry : Type) (keys : KeyMaterial PrivateKey)
      (cipher : VaultCipher Key Entry) (start : IdentityState PrivateKey Entry)
      (history : List (Nat × IdentityEvent PrivateKey))
      (pool : Pool (IdentityState PrivateKey Entry) (IdentityCall PrivateKey)),
      keys.Lawful → cipher.Lawful →
        Runs (identityProgram keys cipher).step (fun _ before => Sequential before)
          (.initial start) history pool → ∀ label, ReplacesNone keys cipher pool label := by
  intro preserved
  let program := identityProgram plainKeys plainCipher
  have sequential (pool : Pool (IdentityState String ((String × String) × String))
      (IdentityCall String)) (label : PlainLabel) (turn : opensAlone pool label) :
      Sequential pool label := by
    rintro action rfl index call found
    have empty : pool.calls = [] := List.isEmpty_iff.mp turn
    rw [empty] at found
    cases found
  have passed : ((runWhile program.step (fun _ => opensAlone) []
      (.initial (ownedState "right"))
      ([.launch (.setKey "wrong"), .launch (.call .identity)] ++ (firstUse 0 "b").take 3)).bind
        fun front => (program.step front.1 (.resume 0 (.wrote .stored "salt" 0))).map
          fun stepped => decide (
            (entry front.1.shared.disk privateKeyKey).isSome ∧
            front.1.shared.secret plainCipher privateKeyKey = none ∧
            entry stepped.1.shared.disk privateKeyKey ≠
              entry front.1.shared.disk privateKeyKey)) = some true := by
    decide +kernel
  simp only [Option.bind_eq_some_iff, Option.map_eq_some_iff, decide_eq_true_eq] at passed
  obtain ⟨⟨before, history⟩, first, ⟨after, outputs⟩, stepped, present, sealed, changed⟩ := passed
  have runs : Runs program.step (fun _ before => Sequential before)
      (.initial (ownedState "right")) history before :=
    runs_of_runWhile (fun _ => sequential) .refl first
  have keeps : KeepsKeypairs plainCipher before.shared after.shared :=
    preserved _ _ _ _ _ _ _ _ plainKeys_lawful plainCipher_lawful runs _ _ _ stepped
      (fun _ clash => by cases clash)
  obtain ⟨stored, held⟩ := Option.isSome_iff_exists.mp present
  obtain ⟨now, located, same | ⟨text, opened, _⟩⟩ :=
    keeps privateKeyKey (Or.inl rfl) stored held
  · rw [same] at located
    exact changed (located.trans held.symm)
  · rw [sealed] at opened
    cases opened

end P2PHub.Identity
