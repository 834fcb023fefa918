import P2PHub.IdentityCreation

/-!
# One identity for a vault

The keypair of a fresh vault over whole runs of its calls.
-/

namespace P2PHub.Identity

open VaultManager AsyncCalls Transition

section

variable {PrivateKey Key Entry : Type} {keys : KeyMaterial PrivateKey}
  {cipher : VaultCipher Key Entry} {start : IdentityState PrivateKey Entry}
  {history : List (Nat × IdentityEvent PrivateKey)}
  {pool after : Pool (IdentityState PrivateKey Entry) (IdentityCall PrivateKey)}
  {label : Label (IdentityAction Entry) (IdentityAnswer PrivateKey)}
  {outputs : List (Nat × IdentityEvent PrivateKey)} {state : IdentityState PrivateKey Entry}

/-- At any time at most one call is storing a keypair, and everything else
agrees with the keypair of the vault. -/
structure PoolCoherent (keys : KeyMaterial PrivateKey) (cipher : VaultCipher Key Entry)
    (history : List (Nat × IdentityEvent PrivateKey))
    (pool : Pool (IdentityState PrivateKey Entry) (IdentityCall PrivateKey)) :
    Prop where
  state : StateCoherent keys cipher pool.shared
  calls : ∀ (index : Nat) (call : IdentityCall PrivateKey), pool.calls[index]? = some call →
    PhaseCoherent keys cipher pool.shared call.phase
  alone : ∀ (index other : Nat) (call busy : IdentityCall PrivateKey),
    pool.calls[index]? = some call → pool.calls[other]? = some busy →
      call.phase.creating → busy.phase.creating → index = other
  events : ∀ index event, (index, event) ∈ history → EventCoherent keys cipher pool.shared event

theorem beginIdentity_coherent (coherent : StateCoherent keys cipher state) :
    PhaseCoherent keys cipher state (beginIdentity state) ∧ ¬ (beginIdentity state).creating := by
  unfold beginIdentity
  cases known : state.identity with
  | none => exact ⟨trivial, id⟩
  | some peerId => exact ⟨coherent.identity peerId known, id⟩

theorem launchIdentity_coherent (coherent : StateCoherent keys cipher state) (use : IdentityUse) :
    PhaseCoherent keys cipher state (launchIdentity state use) ∧
      ¬ (launchIdentity state use).creating := by
  cases use with
  | child =>
    unfold launchIdentity
    dsimp only
    split
    · exact ⟨nofun, id⟩
    · exact ⟨trivial, id⟩
  | identity | sign | exportSeed => exact beginIdentity_coherent coherent

theorem PoolCoherent.launch (coherent : PoolCoherent keys cipher history pool) (use : IdentityUse) :
    PoolCoherent keys cipher history
      ⟨pool.shared, pool.calls ++ [⟨use, launchIdentity pool.shared use⟩]⟩ := by
  obtain ⟨gathered, idle⟩ := launchIdentity_coherent coherent.state use
  have located (index : Nat) (call : IdentityCall PrivateKey)
      (found : (pool.calls ++ [⟨use, launchIdentity pool.shared use⟩])[index]? = some call) :
      pool.calls[index]? = some call ∨ call.phase = launchIdentity pool.shared use := by
    by_cases old : index < pool.calls.length
    · rw [List.getElem?_append_left old] at found
      exact Or.inl found
    · have bound := (List.getElem?_eq_some_iff.mp found).1
      rw [List.length_append, List.length_singleton] at bound
      obtain rfl : index = pool.calls.length := by omega
      obtain rfl : _ = call := by simpa using found
      exact Or.inr rfl
  refine ⟨coherent.state, ?_, ?_, coherent.events⟩
  · intro index call found
    rcases located index call found with old | same
    · exact coherent.calls index call old
    · rw [same]
      exact gathered
  · intro index other call busy found otherFound creating otherCreating
    rcases located index call found with old | same
    · rcases located other busy otherFound with otherOld | otherSame
      · exact coherent.alone index other call busy old otherOld creating otherCreating
      · exact absurd (otherSame ▸ otherCreating) idle
    · exact absurd (same ▸ creating) idle

theorem PoolCoherent.resume (lawful : keys.Lawful) (sound : cipher.Lawful)
    (coherent : PoolCoherent keys cipher history pool) {index : Nat}
    {call : IdentityCall PrivateKey} {answer : IdentityAnswer PrivateKey}
    {step : IdentityStep PrivateKey Entry} (unraced : Unraced pool (.resume index answer))
    (found : pool.calls[index]? = some call)
    (advanced : advanceIdentity keys cipher pool.shared call.use call.phase answer = some step) :
    PoolCoherent keys cipher (history ++ step.events.map (index, ·))
      ⟨step.state, pool.calls.set index { call with phase := step.phase }⟩ := by
  have bound := (List.getElem?_eq_some_iff.mp found).1
  have guarded : ∀ publicKeyHex privateKeyPem generated now,
      call.phase = .readPrivate publicKeyHex privateKeyPem → answer = .proceed generated now →
        (truthy publicKeyHex = none ∨ truthy privateKeyPem = none) →
          entry pool.shared.disk publicKeyKey = none ∧
            ∀ (other : Nat) (busy : IdentityCall PrivateKey),
              pool.calls[other]? = some busy → ¬ busy.phase.creating := by
    rintro publicKeyHex privateKeyPem generated now phase rfl missing
    exact unraced index generated now call publicKeyHex privateKeyPem rfl found phase missing
  have turn : TurnCoherent keys cipher pool.shared call.phase step := by
    refine advanceIdentity_coherent lawful sound coherent.state (coherent.calls index call found)
      ?_ advanced
    intro publicKeyHex privateKeyPem phase missing
    rw [phase] at advanced
    cases answer with
    | proceed generated now =>
      exact (guarded publicKeyHex privateKeyPem generated now phase rfl missing).1
    | readChild | read | wrote => cases advanced
  have located (position : Nat) (other : IdentityCall PrivateKey)
      (present : (pool.calls.set index { call with phase := step.phase })[position]? = some other) :
      (position = index ∧ other.phase = step.phase) ∨
        (position ≠ index ∧ pool.calls[position]? = some other) := by
    by_cases same : position = index
    · subst position
      rw [List.getElem?_set_self bound] at present
      cases present
      exact Or.inl ⟨rfl, rfl⟩
    · rw [List.getElem?_set_ne (Ne.symm same)] at present
      exact Or.inr ⟨same, present⟩
  -- A call that stores a keypair beside this one keeps this one from storing.
  have apart (position : Nat) (other : IdentityCall PrivateKey) (elsewhere : position ≠ index)
      (present : pool.calls[position]? = some other) (creating : other.phase.creating) :
      ¬ call.phase.creating ∧ ¬ step.phase.creating := by
    have idle : ¬ call.phase.creating := fun busy =>
      elsewhere (coherent.alone position index other call present found creating busy)
    refine ⟨idle, fun begins => ?_⟩
    rcases advanceIdentity_creating advanced begins with
      busy | ⟨publicKeyHex, privateKeyPem, generated, now, phase, answered, missing⟩
    · exact idle busy
    · exact (guarded _ _ generated now phase answered missing).2 position other present creating
  refine ⟨turn.stateCoherent, ?_, ?_, ?_⟩
  · intro position other present
    rcases located position other present with ⟨_, same⟩ | ⟨elsewhere, old⟩
    · rw [same]
      exact turn.phaseCoherent
    · refine (coherent.calls position other old).mono turn.kept fun creating => ?_
      exact turn.framed (apart position other elsewhere old creating).1
  · intro position another other busy present anotherPresent creating busyCreating
    rcases located position other present with ⟨rfl, same⟩ | ⟨elsewhere, old⟩
    · rcases located another busy anotherPresent with ⟨rfl, _⟩ | ⟨otherElsewhere, otherOld⟩
      · rfl
      · rw [same] at creating
        exact absurd creating (apart another busy otherElsewhere otherOld busyCreating).2
    · rcases located another busy anotherPresent with ⟨rfl, otherSame⟩ | ⟨_, otherOld⟩
      · rw [otherSame] at busyCreating
        exact absurd busyCreating (apart position other elsewhere old creating).2
      · exact coherent.alone position another other busy old otherOld creating busyCreating
  · intro position event member
    rcases List.mem_append.mp member with old | new
    · exact (coherent.events position event old).mono turn.kept
    · simp only [List.mem_map, Prod.mk.injEq] at new
      obtain ⟨emitted, listed, _, rfl⟩ := new
      exact turn.events emitted listed

theorem PoolCoherent.initial (fresh : Fresh state) :
    PoolCoherent keys cipher [] (.initial state) where
  state :=
    { publicKey := fun present => absurd fresh.publicKey present
      identity := fun peerId known => by
        have unknown := fresh.identity.symm.trans known
        cases unknown
      children := fun label value found => by
        have missing : state.secret cipher (childPublicKeyKey label) = none :=
          getSecret_eq_none_of_absent (fresh.children label)
        have clash := missing.symm.trans found
        cases clash }
  calls index call found := by
    simp [Pool.initial] at found
  alone index other call busy found := by
    simp [Pool.initial] at found
  events index event member := by
    cases member

theorem PoolCoherent.run (lawful : keys.Lawful) (sound : cipher.Lawful) (fresh : Fresh start)
    (runs : Runs (identityProgram keys cipher).step
      (fun _ before label => OnlyCalls label ∧ Unraced before label) (.initial start)
      history pool) : PoolCoherent keys cipher history pool := by
  refine runs.invariant (PoolCoherent keys cipher) (.initial fresh) ?_
  rintro history before label after outputs coherent ⟨only, unraced⟩ stepped
  rcases Program.step_cases stepped with
    ⟨action, rfl, launched, callsEq, rfl⟩ |
    ⟨action, call, emitted, rfl, launched, callsEq, rfl⟩ |
    ⟨index, answer, call, next, emitted, rfl, found, resumed, callsEq, rfl⟩
  · obtain ⟨use, rfl⟩ := only action rfl
    simp [identityProgram] at launched
  · obtain ⟨use, rfl⟩ := only action rfl
    simp only [identityProgram, Prod.mk.injEq, Option.some.injEq] at launched
    obtain ⟨sharedEq, rfl, rfl⟩ := launched
    have sameAfter : after =
        ⟨before.shared, before.calls ++ [⟨use, launchIdentity before.shared use⟩]⟩ := by
      rw [← callsEq, sharedEq]
    rw [sameAfter, List.map_nil, List.append_nil]
    exact coherent.launch use
  · obtain ⟨step, advanced, sharedEq, rfl, rfl⟩ := identityProgram_resume resumed
    have sameAfter : after =
        ⟨step.state, before.calls.set index { call with phase := step.phase }⟩ := by
      rw [← sharedEq, ← callsEq]
    rw [sameAfter]
    exact coherent.resume lawful sound unraced found advanced

end

/-- From a fresh vault, in every run in which no keypair is generated beside or
over another one, all calls work with one keypair, and the vault holds it. -/
theorem one_identity {PrivateKey Key Entry : Type} {keys : KeyMaterial PrivateKey}
    {cipher : VaultCipher Key Entry} (lawful : keys.Lawful) (sound : cipher.Lawful)
    {start : IdentityState PrivateKey Entry} (fresh : Fresh start)
    {history : List (Nat × IdentityEvent PrivateKey)}
    {pool : Pool (IdentityState PrivateKey Entry) (IdentityCall PrivateKey)}
    (runs : Runs (identityProgram keys cipher).step
      (fun _ before label => OnlyCalls label ∧ Unraced before label) (.initial start)
      history pool) : OneIdentity keys cipher history pool.shared := by
  have coherent := PoolCoherent.run lawful sound fresh runs
  by_cases known : ∃ key, Paired keys cipher pool.shared key
  · obtain ⟨key, paired⟩ := known
    refine Or.inr ⟨key, paired, fun index event member => ?_⟩
    rcases coherent.events index event member with ⟨error, rfl, blameless⟩ | ⟨other, again, work⟩
    · exact blameless
    · rw [paired.unique lawful again]
      exact work
  · refine Or.inl fun index event member => ?_
    rcases coherent.events index event member with rejected | ⟨key, paired, _⟩
    · exact rejected
    · exact absurd ⟨key, paired⟩ known

/-- Keys that are texts, and signatures that name their key. -/
def plainKeys : KeyMaterial String where
  publicKeyHex key := "p" ++ key
  sign key message := Utf8.encode key.toList ++ message
  verify publicKeyHex message signature :=
    decide (signature = Utf8.encode (publicKeyHex.toList.drop 1) ++ message)
  exportPem key := "s" ++ key
  createPrivateKey text :=
    match text.toList with
    | 's' :: rest => some (String.ofList rest)
    | _ => none
  deriveChildKey key label := key ++ "/" ++ label

theorem plainKeys_lawful : plainKeys.Lawful where
  imports key := by
    have text : ("s" ++ key).toList = 's' :: key.toList := by
      rw [String.toList_append]
      rfl
    simp only [plainKeys, text, String.ofList_toList]
  verifies key message := by
    have text : ("p" ++ key).toList = 'p' :: key.toList := by
      rw [String.toList_append]
      rfl
    simp only [plainKeys, text, List.drop_succ_cons, List.drop_zero, decide_true]

def plainCipher : VaultCipher (String × String) ((String × String) × String) where
  scrypt masterKey salt := (masterKey, salt)
  encrypt key _ value := (key, value)
  decrypt key stored := if stored.1 = key then some stored.2 else none

theorem plainCipher_lawful : plainCipher.Lawful where
  decrypts _ _ _ := if_pos rfl

def freshState : IdentityState String ((String × String) × String) where
  disk := none
  masterKey := "master"
  identity := none
  privateKey := none

theorem freshState_fresh : Fresh freshState :=
  ⟨rfl, fun _ => rfl, rfl⟩

abbrev PlainLabel :=
  Label (IdentityAction ((String × String) × String)) (IdentityAnswer String)

/-- The turns of a first use that runs from its first read to the assignment of
its keypair. -/
def firstUse (index : Nat) (generated : String) : List PlainLabel :=
  [ .resume index (.read false), .resume index (.read false),
    .resume index (.proceed generated .nan), .resume index (.wrote .stored "salt" 0),
    .resume index (.wrote .stored "salt" 1), .resume index (.proceed generated .nan) ]

def callsOnly : PlainLabel → Bool
  | .launch (.call _) => true
  | .launch _ => false
  | .resume _ _ => true

def returnedHere (index : Nat) (peerId : String) : Nat × IdentityEvent String → Bool
  | (caller, .returned text) => caller == index && text == peerId
  | _ => false

theorem eq_of_returnedHere {index caller : Nat} {peerId : String} {event : IdentityEvent String}
    (returned : returnedHere index peerId (caller, event)) :
    (caller, event) = (index, .returned peerId) := by
  cases event with
  | returned =>
    simp only [returnedHere, Bool.and_eq_true, beq_iff_eq] at returned
    rw [returned.1, returned.2]
  | _ => cases returned

/-- A turn of `firstUse`, in a state in which it races with no other. -/
def unracedTurn (pool : Pool (IdentityState String ((String × String) × String))
    (IdentityCall String)) : PlainLabel → Bool
  | .launch (.call _) => true
  | .launch _ => false
  | .resume index (.proceed _ _) =>
    match pool.calls[index]? with
    | some ⟨_, .readPrivate _ _⟩ =>
      (entry pool.shared.disk publicKeyKey).isNone &&
        pool.calls.all fun call => decide (¬ call.phase.creating)
    | _ => true
  | .resume _ _ => true

theorem unraced_of_turn {pool : Pool (IdentityState String ((String × String) × String))
    (IdentityCall String)} {label : PlainLabel} (turn : unracedTurn pool label) :
    OnlyCalls label ∧ Unraced pool label := by
  constructor
  · rintro action rfl
    cases action with
    | call use => exact ⟨use, rfl⟩
    | setKey | tamper | restart => cases turn
  · rintro index generated now ⟨use, phase⟩ publicKeyHex privateKeyPem rfl found rfl _
    simp only [unracedTurn, found, Bool.and_eq_true, Option.isNone_iff_eq_none,
      List.all_eq_true, decide_eq_true_eq] at turn
    exact ⟨turn.1, fun other busy present =>
      turn.2 busy (List.mem_of_getElem? present)⟩

/-- Two callers one after the other. -/
theorem one_identity_plain : ∃ (history : List (Nat × IdentityEvent String))
      (pool : Pool (IdentityState String ((String × String) × String))
        (IdentityCall String)), pool.shared.identity = some "pa" ∧
        OneIdentity plainKeys plainCipher history pool.shared := by
  obtain ⟨history, pool, runs, returned⟩ := exists_runs_of_runWhile
    (identityProgram plainKeys plainCipher).step (fun _ pool label => unracedTurn pool label)
    (fun _ pool label => OnlyCalls label ∧ Unraced pool label) (.initial freshState)
    ([.launch (.call .identity)] ++ firstUse 0 "a" ++ [.resume 0 (.proceed "b" .nan),
      .launch (.call (.sign [])), .resume 1 (.proceed "b" .nan)])
    (fun result => result.1.shared.identity == some "pa")
    (fun _ _ _ turn => unraced_of_turn turn) (by decide +kernel)
  exact ⟨history, pool, by simpa using returned,
    one_identity plainKeys_lawful plainCipher_lawful freshState_fresh runs⟩

/-- Two callers that have both found the vault empty get two identities. -/
theorem concurrent_first_uses : ¬ ∀ (PrivateKey Key Entry : Type) (keys : KeyMaterial PrivateKey)
      (cipher : VaultCipher Key Entry) (start : IdentityState PrivateKey Entry)
      (history : List (Nat × IdentityEvent PrivateKey))
      (pool : Pool (IdentityState PrivateKey Entry) (IdentityCall PrivateKey)),
      keys.Lawful → cipher.Lawful → Fresh start →
        Runs (identityProgram keys cipher).step (fun _ _ label => OnlyCalls label)
          (.initial start) history pool → OneIdentity keys cipher history pool.shared := by
  intro unique
  let reads : List PlainLabel :=
    [ .resume 0 (.read false), .resume 0 (.read false), .resume 1 (.read false),
      .resume 1 (.read false) ]
  let rest (index : Nat) (generated : String) : List PlainLabel :=
    (firstUse index generated).drop 2 ++ [.resume index (.proceed generated .nan)]
  obtain ⟨history, pool, runs, returned⟩ := exists_runs_of_runWhile
    (identityProgram plainKeys plainCipher).step
    (fun _ _ => callsOnly)
    (fun _ _ label => OnlyCalls label) (.initial freshState)
    ([.launch (.call .identity), .launch (.call .identity)] ++ reads ++ rest 0 "a" ++ rest 1 "b")
    (fun result =>
      result.2.any (returnedHere 0 "pa") && result.2.any (returnedHere 1 "pb"))
    (by
      rintro _ _ label admitted action rfl
      cases action with
      | call use => exact ⟨use, rfl⟩
      | setKey | tamper => cases admitted
      | restart => cases admitted)
    (by decide +kernel)
  simp only [Bool.and_eq_true, List.any_eq_true] at returned
  obtain ⟨⟨⟨first, firstEvent⟩, firstMember, firstHex⟩,
    ⟨⟨second, secondEvent⟩, secondMember, secondHex⟩⟩ := returned
  cases eq_of_returnedHere firstHex
  cases eq_of_returnedHere secondHex
  rcases unique _ _ _ _ _ _ _ _ plainKeys_lawful plainCipher_lawful freshState_fresh
    runs with rejected | ⟨key, _, work⟩
  · obtain ⟨error, clash, _⟩ := rejected _ _ firstMember
    cases clash
  · have named : ("pa" : String) = plainKeys.publicKeyHex key := work _ _ firstMember
    have again : ("pb" : String) = plainKeys.publicKeyHex key := work _ _ secondMember
    have clash := named.trans again.symm
    revert clash
    decide

end P2PHub.Identity
