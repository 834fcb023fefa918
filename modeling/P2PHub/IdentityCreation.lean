import P2PHub.IdentityManager

/-!
# First uses of an identity

A keypair is generated when one of its two secrets was missing, by the time
these were read.  Where no call generates one while another call stores its own,
or over a stored one, all calls work with one keypair, which the vault holds.
-/

namespace P2PHub.Identity

open VaultManager

def IdentityPhase.creating {PrivateKey : Type} : IdentityPhase PrivateKey → Prop
  | storingPrivate _ | storingPublic _ | stored _ => True
  | _ => False

instance {PrivateKey : Type} : DecidablePred (@IdentityPhase.creating PrivateKey)
  | .storingPrivate _ | .storingPublic _ | .stored _ => .isTrue trivial
  | .readingChild _ _ | .childAbsent | .readingPublic | .readingPrivate _ | .readPrivate _ _
  | .returning _ | .certifying _ _ _ _ | .storingChildPrivate _ _ | .storingChildPublic _ _
  | .storingChildCertificate _ | .settled => .isFalse id

section

variable {PrivateKey Key Entry : Type} (keys : KeyMaterial PrivateKey)
  (cipher : VaultCipher Key Entry)

/-- The vault holds no secret of an identity. -/
structure Fresh (state : IdentityState PrivateKey Entry) : Prop where
  publicKey : entry state.disk publicKeyKey = none
  children : ∀ label, entry state.disk (childPublicKeyKey label) = none
  identity : state.identity = none

/-- The vault holds the two halves of the keypair. -/
structure Paired (state : IdentityState PrivateKey Entry) (key : PrivateKey) : Prop where
  privateKey : state.secret cipher privateKeyKey = some (keys.exportPem key)
  publicKey : state.secret cipher publicKeyKey = some (keys.publicKeyHex key)

/-- What is seen of a call is the work of the keypair.  A call is not rejected
for a key. -/
def WorkOf (key : PrivateKey) : IdentityEvent PrivateKey → Prop
  | .returned peerId => peerId = keys.publicKeyHex key
  | .signed data signature => keys.verify (keys.publicKeyHex key) data signature = true
  | .exported exported => exported = key
  | .certified certificate =>
    certificate.parent = keys.publicKeyHex key ∧ keys.verify (keys.publicKeyHex key)
        (certificatePayload certificate.parent certificate.child certificate.label
          certificate.issuedAt) certificate.signature = true
  | .child peerId label _ => peerId = keys.publicKeyHex (keys.deriveChildKey key label)
  | .rejected error => error ≠ .unusableKey

/-- All calls have worked with one keypair, and the vault holds it; or all of
them were rejected. -/
def OneIdentity (history : List (Nat × IdentityEvent PrivateKey))
    (state : IdentityState PrivateKey Entry) : Prop :=
  (∀ index event, (index, event) ∈ history →
    ∃ error, event = .rejected error ∧ error ≠ .unusableKey) ∨
  ∃ key, Paired keys cipher state key ∧
    ∀ index event, (index, event) ∈ history → WorkOf keys key event

/-- The turn generates a keypair only where the vault holds no public key and no
other call is storing a keypair. -/
def Unraced (pool : AsyncCalls.Pool (IdentityState PrivateKey Entry) (IdentityCall PrivateKey))
    (label : AsyncCalls.Label (IdentityAction Entry) (IdentityAnswer PrivateKey)) : Prop :=
  ∀ index generated now call publicKeyHex privateKeyPem,
    label = .resume index (.proceed generated now) → pool.calls[index]? = some call →
      call.phase = .readPrivate publicKeyHex privateKeyPem →
        (truthy publicKeyHex = none ∨ truthy privateKeyPem = none) →
          entry pool.shared.disk publicKeyKey = none ∧
            ∀ (other : Nat) (busy : IdentityCall PrivateKey), pool.calls[other]? = some busy →
              ¬ busy.phase.creating

def OnlyCalls (label : AsyncCalls.Label (IdentityAction Entry) (IdentityAnswer PrivateKey)) :
    Prop :=
  ∀ action, label = .launch action → ∃ use, action = .call use

end

section

variable {PrivateKey Key Entry : Type} (keys : KeyMaterial PrivateKey)
  (cipher : VaultCipher Key Entry)

/-- The manager works with the keypair of the vault. -/
structure Loaded (state : IdentityState PrivateKey Entry) (key : PrivateKey) (peerId : String) :
    Prop where
  paired : Paired keys cipher state key
  named : peerId = keys.publicKeyHex key
  identity : state.identity = some peerId
  privateKey : state.privateKey = some key

structure StateCoherent (state : IdentityState PrivateKey Entry) : Prop where
  publicKey : entry state.disk publicKeyKey ≠ none → ∃ key, Paired keys cipher state key
  identity : ∀ peerId, state.identity = some peerId → ∃ key, Loaded keys cipher state key peerId
  children : ∀ label value, state.secret cipher (childPublicKeyKey label) = some value →
    ∃ key, Paired keys cipher state key ∧ value = keys.publicKeyHex (keys.deriveChildKey key label)

/-- What a suspended call has gathered of the keypair of the vault. -/
def PhaseCoherent (state : IdentityState PrivateKey Entry) : IdentityPhase PrivateKey → Prop
  | .readingChild label reads => ∀ value, reads.publicKeyHex = some (some value) →
      ∃ key, Paired keys cipher state key ∧
        value = keys.publicKeyHex (keys.deriveChildKey key label)
  | .readingPrivate publicKeyHex => ∀ hex, publicKeyHex = some hex →
      ∃ key, Paired keys cipher state key ∧ hex = keys.publicKeyHex key
  | .readPrivate publicKeyHex privateKeyPem => ∀ hex, publicKeyHex = some hex →
      ∃ key, Paired keys cipher state key ∧ hex = keys.publicKeyHex key ∧
        privateKeyPem = some (keys.exportPem key)
  | .storingPrivate _ => entry state.disk publicKeyKey = none
  | .storingPublic key => entry state.disk publicKeyKey = none ∧
      state.secret cipher privateKeyKey = some (keys.exportPem key)
  | .stored key => Paired keys cipher state key
  | .returning peerId => ∃ key, Loaded keys cipher state key peerId
  | .certifying parent label child _ => ∃ key, Loaded keys cipher state key parent ∧
      child = keys.deriveChildKey key label
  | .storingChildPrivate child certificate | .storingChildPublic child certificate =>
    ∃ key, Paired keys cipher state key ∧ child = keys.deriveChildKey key certificate.label ∧
      certificate.child = keys.publicKeyHex child
  | .storingChildCertificate certificate => ∃ key, Paired keys cipher state key ∧
      certificate.child = keys.publicKeyHex (keys.deriveChildKey key certificate.label)
  | .childAbsent | .readingPublic | .settled => True

/-- What was seen is a rejection, or the work of the keypair of the vault. -/
def EventCoherent (state : IdentityState PrivateKey Entry) (event : IdentityEvent PrivateKey) :
    Prop :=
  (∃ error, event = .rejected error ∧ error ≠ .unusableKey) ∨
    ∃ key, Paired keys cipher state key ∧ WorkOf keys key event

/-- What a turn leaves as it was for the other calls.  Only a call that is
storing a keypair changes the two secrets. -/
structure Kept (state after : IdentityState PrivateKey Entry) : Prop where
  paired : ∀ key, Paired keys cipher state key → Paired keys cipher after key
  loaded : ∀ key peerId, Loaded keys cipher state key peerId → Loaded keys cipher after key peerId

structure Framed (state after : IdentityState PrivateKey Entry) : Prop where
  publicKey : entry after.disk publicKeyKey = entry state.disk publicKeyKey
  privateSecret : after.secret cipher privateKeyKey = state.secret cipher privateKeyKey
  publicSecret : after.secret cipher publicKeyKey = state.secret cipher publicKeyKey

/-- What a turn of a coherent call does. -/
structure TurnCoherent (state : IdentityState PrivateKey Entry) (phase : IdentityPhase PrivateKey)
    (step : IdentityStep PrivateKey Entry) : Prop where
  stateCoherent : StateCoherent keys cipher step.state
  phaseCoherent : PhaseCoherent keys cipher step.state step.phase
  kept : Kept keys cipher state step.state
  framed : ¬ phase.creating → Framed cipher state step.state
  events : ∀ event ∈ step.events, EventCoherent keys cipher step.state event

end

variable {PrivateKey Key Entry : Type} {keys : KeyMaterial PrivateKey}
  {cipher : VaultCipher Key Entry} {state after : IdentityState PrivateKey Entry}
  {key other : PrivateKey} {phase next : IdentityPhase PrivateKey} {use : IdentityUse}
  {events : List (IdentityEvent PrivateKey)} {salt : String} {iv : Nat} {outcome : VaultWrite}
  {step : IdentityStep PrivateKey Entry} {publicKeyHex : Option String}
  {answer : IdentityAnswer PrivateKey}

theorem Paired.unique (lawful : keys.Lawful) (paired : Paired keys cipher state key)
    (again : Paired keys cipher state other) : key = other := by
  have same := paired.privateKey.symm.trans again.privateKey
  have imported := congrArg (Option.bind · keys.createPrivateKey) same
  simpa [lawful.imports] using imported

theorem Framed.paired (framed : Framed cipher state after)
    (paired : Paired keys cipher state key) : Paired keys cipher after key :=
  ⟨framed.privateSecret.trans paired.privateKey, framed.publicSecret.trans paired.publicKey⟩

theorem Framed.refl (state : IdentityState PrivateKey Entry) : Framed cipher state state :=
  ⟨rfl, rfl, rfl⟩

theorem Kept.refl (state : IdentityState PrivateKey Entry) : Kept keys cipher state state :=
  ⟨fun _ paired => paired, fun _ _ loaded => loaded⟩

theorem PhaseCoherent.mono (kept : Kept keys cipher state after)
    (framed : phase.creating → Framed cipher state after)
    (coherent : PhaseCoherent keys cipher state phase) : PhaseCoherent keys cipher after phase := by
  cases phase with
  | readingChild =>
    intro value read
    obtain ⟨key, paired, same⟩ := coherent value read
    exact ⟨key, kept.paired key paired, same⟩
  | readingPrivate | readPrivate =>
    intro hex read
    obtain ⟨key, paired, same⟩ := coherent hex read
    exact ⟨key, kept.paired key paired, same⟩
  | storingPrivate => exact (framed trivial).publicKey.trans coherent
  | storingPublic =>
    exact ⟨(framed trivial).publicKey.trans coherent.1,
      (framed trivial).privateSecret.trans coherent.2⟩
  | stored key => exact kept.paired key coherent
  | returning peerId =>
    obtain ⟨key, loaded⟩ := coherent
    exact ⟨key, kept.loaded key peerId loaded⟩
  | certifying parent =>
    obtain ⟨key, loaded, same⟩ := coherent
    exact ⟨key, kept.loaded key parent loaded, same⟩
  | storingChildPrivate | storingChildPublic | storingChildCertificate =>
    obtain ⟨key, paired, same⟩ := coherent
    exact ⟨key, kept.paired key paired, same⟩
  | childAbsent | readingPublic | settled => trivial

theorem EventCoherent.mono {event : IdentityEvent PrivateKey}
    (kept : Kept keys cipher state after) (coherent : EventCoherent keys cipher state event) :
    EventCoherent keys cipher after event := by
  rcases coherent with rejected | ⟨key, paired, work⟩
  · exact Or.inl rejected
  · exact Or.inr ⟨key, kept.paired key paired, work⟩

theorem not_paired (absent : entry state.disk publicKeyKey = none) :
    ¬ Paired keys cipher state key := by
  intro paired
  have missing : state.secret cipher publicKeyKey = none := getSecret_eq_none_of_absent absent
  rw [paired.publicKey] at missing
  cases missing

theorem kept_of_absent (absent : entry state.disk publicKeyKey = none) :
    Kept keys cipher state after :=
  ⟨fun _ paired => absurd paired (not_paired absent),
    fun _ _ loaded => absurd loaded.paired (not_paired absent)⟩

theorem Framed.kept (framed : Framed cipher state after) (identity : after.identity =
    state.identity)
    (privateKey : after.privateKey = state.privateKey) : Kept keys cipher state after where
  paired _ paired := framed.paired paired
  loaded _ _ loaded :=
    ⟨framed.paired loaded.paired, loaded.named, identity.trans loaded.identity,
      privateKey.trans loaded.privateKey⟩

theorem turn_of_unchanged
    (coherent : StateCoherent keys cipher state) (unchanged : step.state = state)
    (phaseCoherent : PhaseCoherent keys cipher state step.phase)
    (events : ∀ event ∈ step.events, EventCoherent keys cipher state event) :
    TurnCoherent keys cipher state phase step where
  stateCoherent := by rwa [unchanged]
  phaseCoherent := by rwa [unchanged]
  kept := by
    rw [unchanged]
    exact .refl state
  framed _ := by
    rw [unchanged]
    exact .refl state
  events := by rwa [unchanged]

theorem turn_of_reject {error : IdentityError} (coherent : StateCoherent keys cipher state)
    (blameless : error ≠ .unusableKey) :
    TurnCoherent keys cipher state phase (reject state error) := by
  refine turn_of_unchanged coherent rfl trivial ?_
  intro event member
  obtain rfl := List.mem_singleton.mp member
  exact Or.inl ⟨error, rfl, blameless⟩

section

variable {name value : String}

theorem framed_replaced (notPrivate : name ≠ privateKeyKey) (notPublic : name ≠ publicKeyKey) :
    Framed cipher state (state.replaced cipher salt iv name value) where
  publicKey := entry_setSecret_of_ne notPublic.symm
  privateSecret := secret_replaced_of_ne notPrivate.symm
  publicSecret := secret_replaced_of_ne notPublic.symm

variable (coherent : StateCoherent keys cipher state)
include coherent

theorem turn_of_store
    (replaced : StateCoherent keys cipher (state.replaced cipher salt iv name value))
    (kept : Kept keys cipher state (state.replaced cipher salt iv name value))
    (framed : ¬ phase.creating → Framed cipher state (state.replaced cipher salt iv name value))
    (phaseCoherent : PhaseCoherent keys cipher (state.replaced cipher salt iv name value) next)
    (eventsCoherent : ∀ event ∈ events,
      EventCoherent keys cipher (state.replaced cipher salt iv name value) event) :
    TurnCoherent keys cipher state phase
      (store cipher state outcome salt iv name value next events) := by
  have storage : IdentityError.storage ≠ .unusableKey := by decide
  cases outcome with
  | stored => exact ⟨replaced, phaseCoherent, kept, framed, eventsCoherent⟩
  | failed => exact turn_of_reject coherent storage
  | notReleased =>
    refine ⟨replaced, trivial, kept, framed, ?_⟩
    intro event member
    obtain rfl := List.mem_singleton.mp member
    exact Or.inl ⟨_, rfl, storage⟩

theorem stateCoherent_replaced
    (framed : Framed cipher state (state.replaced cipher salt iv name value))
    (children : ∀ label, childPublicKeyKey label = name → ∃ key, Paired keys cipher state key ∧
      value = keys.publicKeyHex (keys.deriveChildKey key label)) (sound : cipher.Lawful) :
    StateCoherent keys cipher (state.replaced cipher salt iv name value) where
  publicKey present := by
    rw [framed.publicKey] at present
    obtain ⟨key, paired⟩ := coherent.publicKey present
    exact ⟨key, framed.paired paired⟩
  identity peerId known := by
    obtain ⟨key, loaded⟩ := coherent.identity peerId known
    exact ⟨key, (framed.kept rfl rfl).loaded key peerId loaded⟩
  children label held found := by
    by_cases same : childPublicKeyKey label = name
    · obtain ⟨key, paired, valueEq⟩ := children label same
      rw [same, secret_replaced_self sound] at found
      cases found
      exact ⟨key, framed.paired paired, valueEq⟩
    · rw [secret_replaced_of_ne same] at found
      obtain ⟨key, paired, valueEq⟩ := coherent.children label held found
      exact ⟨key, framed.paired paired, valueEq⟩

theorem turn_of_childStore {label suffix : String} (sound : cipher.Lawful)
    (children : ∀ other, childPublicKeyKey other = childKeyPrefix ++ label ++ suffix →
      ∃ key, Paired keys cipher state key ∧
        value = keys.publicKeyHex (keys.deriveChildKey key other))
    (phaseCoherent : PhaseCoherent keys cipher state next) (idle : ¬ next.creating)
    (eventsCoherent : ∀ event ∈ events, EventCoherent keys cipher state event) :
    TurnCoherent keys cipher state phase
      (store cipher state outcome salt iv (childKeyPrefix ++ label ++ suffix) value next
        events) := by
  have framed : Framed cipher state (state.replaced cipher salt iv
      (childKeyPrefix ++ label ++ suffix) value) :=
    framed_replaced (childKey_ne_privateKeyKey label suffix) (childKey_ne_publicKeyKey label suffix)
  have kept : Kept keys cipher state (state.replaced cipher salt iv
      (childKeyPrefix ++ label ++ suffix) value) := framed.kept rfl rfl
  refine turn_of_store coherent (stateCoherent_replaced coherent framed children sound) kept
    (fun _ => framed) (phaseCoherent.mono kept fun creating => absurd creating idle) ?_
  intro event member
  exact (eventsCoherent event member).mono kept

theorem turn_of_storingPrivate
    (sound : cipher.Lawful) (absent : entry state.disk publicKeyKey = none) :
    TurnCoherent keys cipher state (.storingPrivate key)
      (store cipher state outcome salt iv privateKeyKey (keys.exportPem key)
        (.storingPublic key) []) := by
  have publicAbsent : entry (state.replaced cipher salt iv privateKeyKey
      (keys.exportPem key)).disk publicKeyKey = none :=
    (entry_setSecret_of_ne privateKeyKey_ne_publicKeyKey.symm).trans absent
  refine turn_of_store coherent ⟨?_, ?_, ?_⟩ (kept_of_absent absent)
    (fun idle => absurd trivial idle) ⟨publicAbsent, secret_replaced_self sound⟩ (by simp)
  · exact fun present => absurd publicAbsent present
  · intro peerId known
    obtain ⟨other, loaded⟩ := coherent.identity peerId known
    exact absurd loaded.paired (not_paired absent)
  · intro label value found
    have apart : childPublicKeyKey label ≠ privateKeyKey :=
      childKey_ne_privateKeyKey label ".publicKey"
    rw [secret_replaced_of_ne apart] at found
    obtain ⟨other, paired, _⟩ := coherent.children label value found
    exact absurd paired (not_paired absent)

theorem turn_of_storingPublic
    (sound : cipher.Lawful) (absent : entry state.disk publicKeyKey = none)
    (privateSecret : state.secret cipher privateKeyKey = some (keys.exportPem key)) :
    TurnCoherent keys cipher state (.storingPublic key)
      (store cipher state outcome salt iv publicKeyKey (keys.publicKeyHex key)
        (.stored key) []) := by
  have paired : Paired keys cipher (state.replaced cipher salt iv publicKeyKey
      (keys.publicKeyHex key)) key := by
    refine ⟨?_, secret_replaced_self sound⟩
    rw [secret_replaced_of_ne privateKeyKey_ne_publicKeyKey]
    exact privateSecret
  refine turn_of_store coherent ⟨?_, ?_, ?_⟩ (kept_of_absent absent)
    (fun idle => absurd trivial idle) paired (by simp)
  · exact fun _ => ⟨key, paired⟩
  · intro peerId known
    obtain ⟨other, loaded⟩ := coherent.identity peerId known
    exact absurd loaded.paired (not_paired absent)
  · intro label value found
    have apart : childPublicKeyKey label ≠ publicKeyKey :=
      childKey_ne_publicKeyKey label ".publicKey"
    rw [secret_replaced_of_ne apart] at found
    obtain ⟨other, paired, _⟩ := coherent.children label value found
    exact absurd paired (not_paired absent)

end

theorem turn_of_load (lawful : keys.Lawful) (coherent : StateCoherent keys cipher state)
    (paired : Paired keys cipher state key) : TurnCoherent keys cipher state phase
      ⟨{ state with privateKey := some key, identity := some (keys.publicKeyHex key) },
        .returning (keys.publicKeyHex key), []⟩ := by
  have framed : Framed cipher state
      { state with privateKey := some key, identity := some (keys.publicKeyHex key) } :=
    ⟨rfl, rfl, rfl⟩
  have loaded : Loaded keys cipher
      { state with privateKey := some key, identity := some (keys.publicKeyHex key) } key
        (keys.publicKeyHex key) :=
    ⟨framed.paired paired, rfl, rfl, rfl⟩
  refine ⟨⟨?_, ?_, ?_⟩, ⟨key, loaded⟩, ⟨?_, ?_⟩, fun _ => framed, by simp⟩
  · exact fun _ => ⟨key, framed.paired paired⟩
  · intro peerId known
    cases known
    exact ⟨key, loaded⟩
  · intro label value found
    obtain ⟨other, again, same⟩ := coherent.children label value found
    exact ⟨other, framed.paired again, same⟩
  · exact fun other again => framed.paired again
  · intro other peerId again
    obtain rfl := again.paired.unique lawful paired
    rw [again.named]
    exact loaded

theorem turn_of_finishChildReads {label : String} (coherent : StateCoherent keys cipher state)
    (read : ∀ value, publicKeyHex = some value → ∃ key, Paired keys cipher state key ∧
      value = keys.publicKeyHex (keys.deriveChildKey key label))
    (privateKeyPem certificateJson : Option String) : TurnCoherent keys cipher state phase
      (finishChildReads state label publicKeyHex privateKeyPem certificateJson) := by
  unfold finishChildReads
  split
  · next peerId _ text found _ _ =>
      cases Json.parse text.toList with
      | none => exact turn_of_reject coherent (by simp [corruptRecord])
      | some =>
        refine turn_of_unchanged coherent rfl trivial ?_
        intro event member
        obtain rfl := List.mem_singleton.mp member
        exact Or.inr (read peerId (truthy_eq_some found))
  · exact turn_of_unchanged coherent rfl trivial (by simp)

section

variable (lawful : keys.Lawful) (coherent : StateCoherent keys cipher state)
include lawful coherent

theorem turn_of_finishReads {privateKeyPem : Option String} {generated : PrivateKey}
    (read : ∀ hex, publicKeyHex = some hex → ∃ key, Paired keys cipher state key ∧
      hex = keys.publicKeyHex key ∧ privateKeyPem = some (keys.exportPem key))
    (unraced : truthy publicKeyHex = none ∨ truthy privateKeyPem = none →
      entry state.disk publicKeyKey = none) : TurnCoherent keys cipher state phase
      (finishReads keys state publicKeyHex privateKeyPem generated) := by
  unfold finishReads
  split
  · next hex pem foundHex foundPem =>
      obtain ⟨key, paired, rfl, sameKey⟩ := read hex (truthy_eq_some foundHex)
      have given := truthy_eq_some foundPem
      rw [sameKey] at given
      cases given
      rw [lawful.imports key]
      exact turn_of_load lawful coherent paired
  · next incomplete =>
      refine turn_of_unchanged coherent rfl ?_ (by simp)
      apply unraced
      cases hex : truthy publicKeyHex with
      | none => exact Or.inl rfl
      | some found =>
        cases pem : truthy privateKeyPem with
        | none => exact Or.inr rfl
        | some text => exact absurd pem (incomplete found text hex)

theorem turn_of_finishIdentity
    {peerId : String} (loaded : Loaded keys cipher state key peerId) (now : Binary64) :
    TurnCoherent keys cipher state phase (finishIdentity keys state use peerId now) := by
  have settles {event : IdentityEvent PrivateKey} (work : WorkOf keys key event) :
      TurnCoherent keys cipher state phase ⟨state, .settled, [event]⟩ := by
    refine turn_of_unchanged coherent rfl trivial ?_
    intro other member
    obtain rfl := List.mem_singleton.mp member
    exact Or.inr ⟨key, loaded.paired, work⟩
  cases use with
  | identity => exact settles loaded.named
  | sign data =>
    simp only [finishIdentity, loaded.privateKey]
    exact settles (lawful.verifies key data)
  | exportSeed =>
    simp only [finishIdentity, loaded.privateKey]
    exact settles rfl
  | child =>
    simp only [finishIdentity, loaded.privateKey]
    split
    · exact turn_of_unchanged coherent rfl ⟨key, loaded, rfl⟩ (by simp)
    · exact turn_of_reject coherent (by simp [invalidLabel])

theorem turn_of_certify
    {parent label : String} {issuedAt : Binary64} (loaded : Loaded keys cipher state key parent) :
    TurnCoherent keys cipher state phase
      (certify keys state parent label (keys.deriveChildKey key label) issuedAt) := by
  simp only [certify, loaded.privateKey]
  refine turn_of_unchanged coherent rfl ⟨key, loaded.paired, rfl, rfl⟩ ?_
  intro event member
  obtain rfl := List.mem_singleton.mp member
  exact Or.inr ⟨key, loaded.paired, loaded.named, lawful.verifies key _⟩

end

theorem advanceIdentity_coherent (lawful : keys.Lawful) (sound : cipher.Lawful)
    (coherent : StateCoherent keys cipher state) (gathered : PhaseCoherent keys cipher state phase)
    (unraced : ∀ publicKeyHex privateKeyPem, phase = .readPrivate publicKeyHex privateKeyPem →
      (truthy publicKeyHex = none ∨ truthy privateKeyPem = none) →
        entry state.disk publicKeyKey = none)
    (advanced : advanceIdentity keys cipher state use phase answer = some step) :
    TurnCoherent keys cipher state phase step := by
  have storage : IdentityError.storage ≠ .unusableKey := by decide
  unfold advanceIdentity at advanced
  split at advanced
  · next label reads which failed =>
      split at advanced
      · cases advanced
      · cases advanced
        split
        · exact turn_of_reject coherent storage
        · refine turn_of_unchanged coherent rfl ?_ (by simp)
          intro value read
          cases which with
          | publicKey => exact coherent.children label value (Option.some.inj read)
          | privateKey | certificate => exact gathered value read
  · next label publicKeyHex privateKeyPem certificateJson generated now =>
      cases advanced
      refine turn_of_finishChildReads coherent ?_ privateKeyPem certificateJson
      intro value given
      exact gathered value (by rw [given])
  · cases advanced
    refine turn_of_unchanged coherent rfl ?_ (by simp)
    dsimp only [beginIdentity]
    cases known : state.identity with
    | none => trivial
    | some peerId => exact coherent.identity peerId known
  · next failed =>
      cases advanced
      split
      · exact turn_of_reject coherent storage
      · refine turn_of_unchanged coherent rfl ?_ (by simp)
        intro hex read
        obtain ⟨stored, present⟩ := entry_isSome_of_getSecret read
        obtain ⟨key, paired⟩ := coherent.publicKey (by rw [present]; exact nofun)
        have same := read.symm.trans paired.publicKey
        exact ⟨key, paired, Option.some.inj same⟩
  · next publicKeyHex failed =>
      cases advanced
      split
      · exact turn_of_reject coherent storage
      · refine turn_of_unchanged coherent rfl ?_ (by simp)
        intro hex read
        obtain ⟨key, paired, same⟩ := gathered hex read
        exact ⟨key, paired, same, paired.privateKey⟩
  · next publicKeyHex privateKeyPem generated now =>
      cases advanced
      exact turn_of_finishReads lawful coherent gathered (unraced _ _ rfl)
  · cases advanced
    exact turn_of_storingPrivate coherent sound gathered
  · cases advanced
    exact turn_of_storingPublic coherent sound gathered.1 gathered.2
  · cases advanced
    exact turn_of_load lawful coherent gathered
  · cases advanced
    obtain ⟨key, loaded⟩ := gathered
    exact turn_of_finishIdentity lawful coherent loaded _
  · cases advanced
    obtain ⟨key, loaded, rfl⟩ := gathered
    exact turn_of_certify lawful coherent loaded
  · next child certificate outcome salt iv =>
      cases advanced
      refine turn_of_childStore coherent sound ?_ gathered (fun creating => creating) (by simp)
      intro other same
      exact absurd same (childPublicKeyKey_ne_private other certificate.label)
  · next child certificate outcome salt iv =>
      cases advanced
      obtain ⟨key, paired, derived, named⟩ := gathered
      refine turn_of_childStore coherent sound ?_ ⟨key, paired, by rw [named, derived]⟩
        (fun creating => creating) (by simp)
      intro other same
      rw [childPublicKeyKey_injective same]
      exact ⟨key, paired, by rw [derived]⟩
  · next certificate outcome salt iv =>
      cases advanced
      obtain ⟨key, paired, named⟩ := gathered
      refine turn_of_childStore coherent sound ?_ trivial (fun creating => creating) ?_
      · intro other same
        exact absurd same (childPublicKeyKey_ne_certificate other certificate.label)
      · intro event member
        obtain rfl := List.mem_singleton.mp member
        exact Or.inr ⟨key, paired, named⟩
  · cases advanced

theorem store_creating {name value : String}
    (creating : (store cipher state outcome salt iv name value next events).phase.creating) :
    next.creating := by
  cases outcome with
  | stored => exact creating
  | failed | notReleased => exact creating.elim

theorem advanceIdentity_creating
    (advanced : advanceIdentity keys cipher state use phase answer = some step)
    (creating : step.phase.creating) : phase.creating ∨ ∃ publicKeyHex privateKeyPem generated now,
      phase = .readPrivate publicKeyHex privateKeyPem ∧ answer = .proceed generated now ∧
        (truthy publicKeyHex = none ∨ truthy privateKeyPem = none) := by
  unfold advanceIdentity at advanced
  split at advanced
  · split at advanced
    · cases advanced
    · cases advanced
      split at creating <;> exact creating.elim
  · cases advanced
    unfold finishChildReads at creating
    split at creating
    · split at creating <;> exact creating.elim
    · exact creating.elim
  · cases advanced
    dsimp only [beginIdentity] at creating
    split at creating <;> exact creating.elim
  · cases advanced
    split at creating <;> exact creating.elim
  · cases advanced
    split at creating <;> exact creating.elim
  · next publicKeyHex privateKeyPem generated now =>
      cases advanced
      refine Or.inr ⟨publicKeyHex, privateKeyPem, generated, now, rfl, rfl, ?_⟩
      unfold finishReads at creating
      split at creating
      · split at creating <;> exact creating.elim
      · next incomplete =>
          cases hex : truthy publicKeyHex with
          | none => exact Or.inl rfl
          | some found =>
            cases pem : truthy privateKeyPem with
            | none => exact Or.inr rfl
            | some text => exact absurd pem (incomplete found text hex)
  · exact Or.inl trivial
  · exact Or.inl trivial
  · exact Or.inl trivial
  · cases advanced
    unfold finishIdentity at creating
    split at creating
    · exact creating.elim
    · exact creating.elim
    · exact creating.elim
    · exact creating.elim
    · split at creating <;> exact creating.elim
  · cases advanced
    unfold certify at creating
    split at creating <;> exact creating.elim
  · cases advanced
    exact (store_creating creating).elim
  · cases advanced
    exact (store_creating creating).elim
  · cases advanced
    exact (store_creating creating).elim
  · cases advanced

end P2PHub.Identity
