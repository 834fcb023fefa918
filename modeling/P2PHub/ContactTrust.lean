import P2PHub.ContactBooks
import P2PHub.DocumentContracts

/-!
# A block sticks

What the operations on contacts do to the trust states of the stored book, when
they run at the same time.  A save that does not fit the stored book, and a
verification of a peer that is blocked meanwhile, undo a block.
-/

namespace P2PHub.Contacts

open Transition

open AsyncCalls (Pool Label Turn)
open JsValue Documents

abbrev ContactsCall :=
  DocumentCall ContactsRequest (Option ContactBook) (Outcome TaskResult) ContactsResult

abbrev ContactsPool :=
  Pool (DocumentStore (Option ContactBook)) ContactsCall

abbrev ContactsEvent :=
  DocumentEvent ContactsRequest (Option ContactBook) ContactsResult

abbrev ContactsLabel :=
  Label (ContactsRequest × String) (DocumentReply (Outcome TaskResult))

/-- `getContact` on what is stored. -/
def trustStored : Option ContactBook → String → Option TrustState
  | none, _ => none
  | some book, peerId => trustOf book peerId

/-- The peer of a `blockContact`. -/
def ContactsRequest.blocks? : ContactsRequest → Option String
  | blockContact peerId => string? peerId
  | _ => none

/-- The peer of an `unblockContact` or a `removeContact`. -/
def ContactsRequest.lifts? : ContactsRequest → Option String
  | unblockContact peerId => string? peerId
  | removeContact peerId => string? peerId
  | _ => none

/-- The peer of a `verifyPeer`. -/
def ContactsRequest.verifies? : ContactsRequest → Option String
  | verifyPeer peerId => string? peerId
  | _ => none

def returnedBy (index : Nat) (event : Nat × ContactsEvent) : Bool :=
  match event with
  | (caller, .returned _) => decide (caller = index)
  | _ => false

def sinceReturn (index : Nat) (history : List (Nat × ContactsEvent)) : List (Nat × ContactsEvent) :=
  history.dropWhile fun event => !returnedBy index event

/-- The event starts a call that lifts a block of the peer. -/
def startsLift (peerId : String) (event : Nat × ContactsEvent) : Bool :=
  match event.2 with
  | .started request => decide (request.lifts? = some peerId)
  | _ => false

def storedPeers : Option ContactBook → List String
  | none => []
  | some book => (listContactObjects book).filterMap BookObject.peerId

def sameTrust (first second : Option ContactBook) : Bool :=
  (storedPeers first ++ storedPeers second).all fun peerId =>
    decide (trustStored first peerId = trustStored second peerId)

/-- Every block of a peer that has saved returned before a call was started. -/
def blocksReturned (history : List (Nat × ContactsEvent)) (pool : ContactsPool)
    (peerId : String) (index : Nat) : Bool :=
  (List.range pool.calls.length).all fun position => (pool.calls[position]?).all fun other =>
    !(decide (other.request.blocks? = some peerId) && other.saved.isSome) ||
      (sinceReturn position history).any fun event =>
        decide (event.1 = index) && startsLift peerId event

/-- A call saves on trust states that are the ones it loaded, it does not verify
a blocked peer, and it does not lift a block that it was called before. -/
def Timely (history : List (Nat × ContactsEvent)) (pool : ContactsPool) : ContactsLabel → Bool
  | .resume index .performed => (pool.calls[index]?).all fun call =>
    !call.isSaving || (call.loaded.any fun loaded => sameTrust loaded pool.shared.stored) &&
        (call.request.verifies?).all (fun peerId =>
          decide (trustStored pool.shared.stored peerId ≠ some .blocked)) &&
        (call.request.lifts?).all fun peerId => blocksReturned history pool peerId index
  | _ => true

/-- The peer answered the nonce of a challenge with a signature by the key of
the contact. -/
def Challenged (settings : ContactsSettings)
    (taken : List (Work.Input (Outcome TaskResult))) (loaded : Option ContactBook)
    (peerId : String) : Prop :=
  ∃ book contactId contact front nonce answer signature now, loaded = some book ∧
    findContact book peerId = some (contactId, contact) ∧
    taken = front ++ [.text nonce, .answer (.resolved answer), .text now] ∧
    answer.ok = true ∧ signatureOf answer.result = some signature ∧
    settings.verify (contact.publicKeyHex.getD "undefined") challengeContext nonce signature = true

/-- After a `blockContact` has returned its contact, and until the block is
lifted, the contact is blocked. -/
def BlocksStick (history : List (Nat × ContactsEvent)) (pool : ContactsPool) : Prop :=
  ∀ (index : Nat) call peerId record, pool.calls[index]? = some call →
    call.request.blocks? = some peerId → call.result? = some (.contact record) →
    (∀ event ∈ sinceReturn index history, startsLift peerId event = false) →
      trustStored pool.shared.stored peerId = some .blocked

/-- A contact becomes verified by a save of a `verifyPeer` of it that had its
challenge answered, and not while it is blocked. -/
def VerifiedByChallenge (settings : ContactsSettings) (pool : ContactsPool)
    (label : ContactsLabel) (next : ContactsPool) : Prop :=
  ∀ peerId, trustStored next.shared.stored peerId = some .verified →
    trustStored pool.shared.stored peerId ≠ some .verified →
      trustStored pool.shared.stored peerId ≠ some .blocked ∧
        ∃ index call loaded, label = .resume index .performed ∧ pool.calls[index]? = some call ∧
          call.isSaving = true ∧ call.request.verifies? = some peerId ∧
          call.loaded = some loaded ∧ Challenged settings call.inputs loaded peerId

section

variable {settings : ContactsSettings} {source : Nat → String} {book : ContactBook}
  {peerId : String} {contact : BookObject} {request : ContactsRequest}

def MayTrust (settings : ContactsSettings) (taken : List (Work.Input (Outcome TaskResult)))
    (loaded : Option ContactBook) (peerId : String) (state : Option TrustState) :
    ContactsRequest → Prop
  | .addContact _ _ _ => state = trustStored loaded peerId ∨
      trustStored loaded peerId = none ∧ state = some .pending
  | .removeContact value => string? value = some peerId ∧ state = none
  | .verifyPeer value => string? value = some peerId ∧ state = some .verified ∧
      Challenged settings taken loaded peerId
  | .blockContact value => string? value = some peerId ∧ state = some .blocked
  | .unblockContact value => string? value = some peerId ∧ state = some .pending
  | _ => False

/-- A request sets the trust state of one contact, and a block that returns its
contact has saved. -/
def contactsContract (settings : ContactsSettings) (request : ContactsRequest) :
    WorkContract (Option ContactBook) (Outcome TaskResult) ContactsResult where
  change taken loaded saved := ∃ peerId state,
    Retrusted (trustStored loaded) (trustStored saved) peerId state ∧
      MayTrust settings taken loaded peerId state request
  refuse result := (request.blocks?).isSome → ∀ record, result ≠ .contact record

def SoundStored (source : Nat → String) (drawn : Nat) : Option ContactBook → Prop
  | none => True
  | some book => SoundBook source drawn book

theorem SoundStored.mono (least drawn : Nat) (stored : Option ContactBook) (le : least ≤ drawn)
    (sound : SoundStored source least stored) : SoundStored source drawn stored := by
  cases stored with
  | none => exact trivial
  | some => exact SoundBook.mono sound le

variable {contract : WorkContract (Option ContactBook) (Outcome TaskResult) ContactsResult}

/-- Code that loads the book meets a contract if what it does with the book
does. -/
theorem meets_loadBook (injective : Function.Injective source)
    {next : ContactBook → ContactsWork ContactsResult} {drawn : Nat}
    (meets : ∀ least taken loaded book, SoundBook source least book →
      (∀ peerId, trustOf book peerId = trustStored loaded peerId) →
      (loaded = some book ∨ contactRefs book = []) →
      (next book).Meets source (SoundStored source) contract least taken (some loaded)) :
    (loadBook.andThen next).Meets source (SoundStored source) contract drawn [] none := by
  intro least stored _ sound
  cases stored with
  | some book => exact meets least [] (some book) book sound (fun _ => rfl) (Or.inl rfl)
  | none =>
    intro number bound
    refine meets (number + 1) _ none _ (soundBook_newBook injective number) (fun peerId => ?_)
      (Or.inr ?_)
    · exact trustOf_newBook (source number) peerId
    · exact (represents_newBook (source number)).refs

theorem trust_of_found {contactId : String}
    (found : findContact book peerId = some (contactId, contact)) :
    trustOf book peerId = contact.trustState := by
  rw [trustOf, found, Option.bind_some]

theorem trust_of_missing
    (missing : findContact book peerId = none) : trustOf book peerId = none := by
  rw [trustOf, missing, Option.bind_none]

theorem meets_replace {least : Nat} {taken : List (Work.Input (Outcome TaskResult))}
    {loaded : Option ContactBook} {contactId : String}
    {changed : BookObject} {result : ContactsResult} (sound : SoundBook source least book)
    (same : ∀ peerId, trustOf book peerId = trustStored loaded peerId)
    (found : findContact book peerId = some (contactId, contact))
    (keeps : changed.peerId = contact.peerId)
    (may : MayTrust settings taken loaded peerId changed.trustState request) :
    (saveBook (book.put contactId changed) result).Meets source (SoundStored source)
      (contactsContract settings request) least taken (some loaded) := by
  obtain ⟨soundAfter, retrusted⟩ := sound.replace found keeps
  refine ⟨⟨peerId, changed.trustState, fun other => ?_, may⟩, soundAfter, trivial⟩
  rw [← same other]
  exact retrusted other

variable (injective : Function.Injective source)
include injective

theorem meets_addContact (peerId publicKeyHex displayName : JsValue) (drawn : Nat) :
    (addContact peerId publicKeyHex displayName).Meets source (SoundStored source)
      (contactsContract settings (.addContact peerId publicKeyHex displayName)) drawn [] none := by
  unfold addContact
  split
  · next peerText keyText name _ _ _ =>
      split
      · exact nofun
      · split
        · exact nofun
        · refine meets_loadBook injective fun least taken loaded book sound same _ => ?_
          split
          · next contactId existing found =>
              refine meets_replace sound same found rfl (Or.inl ?_)
              rw [← same, trust_of_found found]
          · next missing =>
              intro now number bound
              let contact : BookObject :=
                { peerId := some peerText, publicKeyHex := some keyText,
                  displayName := some name, addedAt := some now, trustState := some .pending }
              have named : contact.peerId = some peerText := rfl
              obtain ⟨soundAfter, retrusted⟩ := sound.add injective missing named bound
              refine ⟨⟨peerText, some .pending, fun other => ?_, Or.inr ⟨?_, rfl⟩⟩, soundAfter,
                trivial⟩
              · rw [← same other]
                exact retrusted other
              · rw [← same, trust_of_missing missing]
  · exact nofun

theorem meets_removeContact (peerId : JsValue)
    (drawn : Nat) : (removeContact peerId).Meets source (SoundStored source)
      (contactsContract settings (.removeContact peerId)) drawn [] none := by
  unfold removeContact
  split
  · exact nofun
  · next peerText text =>
      refine meets_loadBook injective fun least taken loaded book sound same _ => ?_
      dsimp only
      split
      · exact nofun
      · next ref listed =>
          have found : (contactAt book peerText ref).isSome := by
            obtain ⟨bound, atPosition⟩ := List.getElem?_eq_some_iff.mp listed
            have holds := List.findIdx_getElem (w := bound)
            rwa [atPosition] at holds
          obtain ⟨soundAfter, retrusted⟩ := sound.remove listed found
          refine ⟨⟨peerText, none, fun other => ?_, text, rfl⟩, soundAfter, trivial⟩
          rw [← same other]
          exact retrusted other

theorem meets_setTrustState {state : TrustState} (drawn : Nat)
    (may : ∀ taken loaded, MayTrust settings taken loaded peerId (some state) request) :
    (setTrustState peerId state).Meets source (SoundStored source)
      (contactsContract settings request) drawn [] none := by
  refine meets_loadBook injective fun least taken loaded book sound same _ => ?_
  split
  · exact nofun
  · next found => exact meets_replace sound same found rfl (may taken loaded)

theorem meets_verifyPeer (peerId : JsValue)
    (drawn : Nat) : (verifyPeer settings peerId).Meets source (SoundStored source)
      (contactsContract settings (.verifyPeer peerId)) drawn [] none := by
  unfold verifyPeer
  split
  · exact nofun
  · next peerText text =>
      split
      · exact nofun
      · refine meets_loadBook injective fun least taken loaded book sound same origin => ?_
        split
        · exact nofun
        · next contactId contact found =>
            intro number bound answer
            unfold verifyAnswer
            split
            · exact nofun
            · next reply =>
                split
                · exact nofun
                · next accepted =>
                    split
                    · exact nofun
                    · next signature signed =>
                        split
                        · exact nofun
                        · next checked =>
                            intro now
                            refine meets_replace (sound.mono (by omega)) same found rfl
                              ⟨text, rfl, ?_⟩
                            rcases origin with rfl | empty
                            · refine ⟨book, contactId, contact, taken, source number, reply,
                                signature, now, rfl, found, ?_, by simpa using accepted, signed,
                                by simpa using checked⟩
                              simp
                            · rw [findContact, empty] at found
                              cases found

theorem meets_contactsCode (request : ContactsRequest)
    (drawn : Nat) : (contactsCode settings request).Meets source (SoundStored source)
      (contactsContract settings request) drawn [] none := by
  cases request with
  | addContact peerId publicKeyHex displayName =>
    exact meets_addContact injective peerId publicKeyHex displayName drawn
  | listContacts => exact meets_loadBook injective fun _ _ _ _ _ _ _ _ _ same => by cases same
  | removeContact peerId => exact meets_removeContact injective peerId drawn
  | verifyPeer peerId => exact meets_verifyPeer injective peerId drawn
  | blockContact =>
    simp only [contactsCode, blockContact]
    split
    · exact fun _ _ same => by cases same
    · next text => exact meets_setTrustState injective drawn fun _ _ => ⟨text, rfl⟩
  | unblockContact =>
    simp only [contactsCode, unblockContact]
    split
    · exact fun _ _ same => by cases same
    · next text => exact meets_setTrustState injective drawn fun _ _ => ⟨text, rfl⟩
  | getContact =>
    simp only [contactsCode, getContact]
    split
    · exact fun _ _ same => by cases same
    · exact meets_loadBook injective fun _ _ _ _ _ _ _ blocks => by cases blocks

end

section

variable {settings : ContactsSettings} {source : Nat → String} {pool next : ContactsPool}
  {label : ContactsLabel} {history : List (Nat × ContactsEvent)} {index : Nat}
  {call : ContactsCall} {emitted : List ContactsEvent} {peerId : String}
  {taken : List (Work.Input (Outcome TaskResult))} {loaded : Option ContactBook}
  {request : ContactsRequest}

/-- A block of the peer has saved, and no call that lifts it was started since
it returned. -/
def Standing (history : List (Nat × ContactsEvent)) (pool : ContactsPool) (peerId : String) :
    Prop :=
  ∃ (index : Nat) (call : ContactsCall), pool.calls[index]? = some call ∧
    call.request.blocks? = some peerId ∧ call.saved.isSome ∧
    ∀ event ∈ sinceReturn index history, startsLift peerId event = false

theorem sinceReturn_append {event : Nat × ContactsEvent} {later : List (Nat × ContactsEvent)}
    (member : event ∈ sinceReturn index history) :
    event ∈ sinceReturn index (history ++ later) := by
  rw [sinceReturn] at member ⊢
  rw [List.dropWhile_append]
  split
  · next empty =>
      rw [List.isEmpty_iff] at empty
      rw [empty] at member
      cases member
  · exact List.mem_append_left _ member

theorem trust_of_storedPeers {stored : Option ContactBook}
    (unlisted : peerId ∉ storedPeers stored) : trustStored stored peerId = none := by
  cases stored with
  | none => rfl
  | some book =>
    cases found : findContact book peerId with
    | none => exact trust_of_missing found
    | some =>
      obtain ⟨ref, listed, located⟩ := List.exists_of_findSome?_eq_some found
      rw [contactAt, Option.map_eq_some_iff] at located
      obtain ⟨object, kept, _⟩ := located
      obtain ⟨resolved, named⟩ := Option.filter_eq_some_iff.mp kept
      refine absurd (List.mem_filterMap.mpr ⟨object, ?_, of_decide_eq_true named⟩) unlisted
      exact List.mem_filterMap.mpr ⟨ref, listed, resolved⟩

theorem trust_of_sameTrust {first second : Option ContactBook}
    (same : sameTrust first second) (peerId : String) :
    trustStored first peerId = trustStored second peerId := by
  by_cases listed : peerId ∈ storedPeers first ++ storedPeers second
  · exact of_decide_eq_true (List.all_eq_true.mp same peerId listed)
  · rw [List.mem_append, not_or] at listed
    rw [trust_of_storedPeers listed.1, trust_of_storedPeers listed.2]

structure TimelySave (settings : ContactsSettings) (history : List (Nat × ContactsEvent))
    (pool : ContactsPool) (index : Nat) (call : ContactsCall) (saved : Option ContactBook)
    (peerId : String) (state : Option TrustState) : Prop where
  retrusted : Retrusted (trustStored pool.shared.stored) (trustStored saved) peerId state
  loads : ∃ loaded, call.loaded = some loaded ∧
    (∀ peerId, trustStored loaded peerId = trustStored pool.shared.stored peerId) ∧
    MayTrust settings call.inputs loaded peerId state call.request
  unblocked : ∀ verified, call.request.verifies? = some verified →
    trustStored pool.shared.stored verified ≠ some .blocked
  unlifted : ∀ lifted, call.request.lifts? = some lifted →
    blocksReturned history pool lifted index = true

theorem timelySave {saved : Option ContactBook} {rest : ContactsWork ContactsResult}
    (meets : MeetsContracts source (SoundStored source) (contactsContract settings) pool)
    (timely : Timely history pool (.resume index .performed))
    (found : pool.calls[index]? = some call) (stage : call.stage = .suspended (.save saved rest)) :
    ∃ peerId state, TimelySave settings history pool index call saved peerId state := by
  have saving : call.isSaving := by rw [DocumentCall.isSaving, stage]
  simp only [Timely, found, Option.all_some, saving, Bool.not_true, Bool.false_or,
    Bool.and_eq_true] at timely
  obtain ⟨⟨current, unblocked⟩, unlifted⟩ := timely
  have left : call.work? = some (.save saved rest) := by rw [DocumentCall.work?, stage]
  cases meets.calls index call found with
  | working known unsaved sounds contracted =>
    cases left.symm.trans known
    cases loadedEq : call.loaded with
    | none =>
      rw [loadedEq] at contracted
      exact contracted.elim
    | some loaded =>
      rw [loadedEq] at contracted current
      have agrees := trust_of_sameTrust current
      obtain ⟨⟨peerId, state, retrusted, may⟩, _⟩ := contracted
      refine ⟨peerId, state, fun other => ?_, ⟨loaded, loadedEq, agrees, may⟩,
        fun verified is => ?_,
        fun lifted is => ?_⟩
      · rw [← agrees other]
        exact retrusted other
      · rw [is] at unblocked
        exact of_decide_eq_true unblocked
      · rw [is] at unlifted
        exact unlifted
  | written known saved idle =>
    cases left.symm.trans known
    exact idle.elim
  | failed failed => cases stage.symm.trans failed

theorem mayTrust_verified (may : MayTrust settings taken loaded peerId (some .verified) request)
    (unverified : trustStored loaded peerId ≠ some .verified) :
    request.verifies? = some peerId ∧ Challenged settings taken loaded peerId := by
  cases request with
  | addContact =>
    rcases may with kept | ⟨_, impossible⟩
    · exact absurd kept.symm unverified
    · cases impossible
  | verifyPeer => exact ⟨may.1, may.2.2⟩
  | removeContact | blockContact | unblockContact => cases may.2
  | listContacts | getContact => exact may.elim

/-- A save that may take a block away is one of a verification or of a call that
lifts it. -/
theorem mayTrust_blocked {state : Option TrustState}
    (may : MayTrust settings taken loaded peerId state request)
    (blocked : trustStored loaded peerId = some .blocked) :
    state = some .blocked ∨ request.verifies? = some peerId ∨ request.lifts? = some peerId := by
  cases request with
  | addContact =>
    rcases may with kept | ⟨missing, _⟩
    · exact Or.inl (kept.trans blocked)
    · cases missing.symm.trans blocked
  | verifyPeer => exact Or.inr (Or.inl may.1)
  | removeContact | unblockContact => exact Or.inr (Or.inr may.1)
  | blockContact => exact Or.inl may.2
  | listContacts | getContact => exact may.elim

theorem Standing.before (standing : Standing (history ++ emitted.map (index, ·)) next peerId)
    (turn : Turn (documentProgram (contactsCode settings) source) pool next label index call
      emitted) (kept : call.saved.isSome → ∃ earlier, pool.calls[index]? = some earlier ∧
      earlier.request = call.request ∧ earlier.saved.isSome) : Standing history pool peerId := by
  obtain ⟨position, other, found, blocks, saved, quiet⟩ := standing
  have still : ∀ event ∈ sinceReturn position history, startsLift peerId event = false :=
    fun event member => quiet event (sinceReturn_append member)
  by_cases same : position = index
  · subst same
    cases turn.located.symm.trans found
    obtain ⟨earlier, old, sameRequest, oldSaved⟩ := kept saved
    exact ⟨position, earlier, old, sameRequest ▸ blocks, oldSaved, still⟩
  · rw [turn.others position same] at found
    exact ⟨position, other, found, blocks, saved, still⟩

theorem standing_step
    (meets : MeetsContracts source (SoundStored source) (contactsContract settings) pool)
    (blocked : ∀ peerId, Standing history pool peerId →
      trustStored pool.shared.stored peerId = some .blocked)
    (timely : Timely history pool label)
    (turn : Turn (documentProgram (contactsCode settings) source) pool next label index call
      emitted) (standing : Standing (history ++ emitted.map (index, ·)) next peerId) :
    trustStored next.shared.stored peerId = some .blocked := by
  have served := served_turn turn
  have before := standing.before turn
  generalize beforeEq : pool.calls[index]? = prior at served before
  generalize sharedEq : next.shared = shared at served
  cases served with
  | began => exact blocked peerId (before nofun)
  | loaded | failed | answered | settled =>
    exact blocked peerId (before fun saved => ⟨_, rfl, rfl, saved⟩)
  | @saved earlier document rest position stage =>
    have isPosition : position = index := by
      rcases turn.taken with ⟨_, launched, _⟩ | ⟨_, _, resumed, _⟩
      · cases launched
      · cases resumed
        rfl
    subst isPosition
    obtain ⟨retrustedPeer, state, save⟩ := timelySave meets timely beforeEq stage
    obtain ⟨loaded, loadedEq, agrees, may⟩ := save.loads
    rw [save.retrusted peerId]
    obtain ⟨blocker, other, found, blocks, saved, quiet⟩ := standing
    have still : ∀ event ∈ sinceReturn blocker history, startsLift peerId event = false :=
      fun event member => quiet event (sinceReturn_append member)
    by_cases own : blocker = position
    · subst own
      cases turn.located.symm.trans found
      cases request : earlier.request with
      | blockContact =>
        rw [request] at may
        rw [request] at blocks
        cases blocks.symm.trans may.1
        rw [if_pos rfl, may.2]
      | _ =>
        rw [request] at blocks
        cases blocks
    · rw [turn.others blocker own] at found
      have stands : trustStored pool.shared.stored peerId = some .blocked :=
        blocked peerId ⟨blocker, other, found, blocks, saved, still⟩
      split
      · next here =>
          subst here
          rw [← agrees peerId] at stands
          rcases mayTrust_blocked may stands with kept | verifies | lifts
          · exact kept
          · exact absurd ((agrees peerId).symm.trans stands) (save.unblocked peerId verifies)
          · have returned := save.unlifted peerId lifts
            have within : blocker < pool.calls.length :=
              (List.getElem?_eq_some_iff.mp found).1
            have all := List.all_eq_true.mp returned blocker (List.mem_range.mpr within)
            rw [found, Option.all_some, blocks, saved, decide_eq_true rfl, Bool.and_true,
              Bool.not_true, Bool.false_or, List.any_eq_true] at all
            obtain ⟨event, member, started⟩ := all
            rw [Bool.and_eq_true, still event member] at started
            cases started.2
      · exact stands

end

variable {settings : ContactsSettings} {source : Nat → String}

/-- In a run of timely turns a block sticks, and a contact becomes verified by
its challenge only. -/
theorem contact_trust (injective : Function.Injective source) {stored : Option ContactBook}
    {drawn : Nat} (sound : SoundStored source drawn stored)
    {history : List (Nat × ContactsEvent)} {pool : ContactsPool}
    (runs : Runs (documentProgram (contactsCode settings) source).step
      (fun history pool label => Timely history pool label) (.initial ⟨stored, drawn⟩)
      history pool) : BlocksStick history pool ∧
      ∀ label next outputs, Timely history pool label →
        (documentProgram (contactsCode settings) source).step pool label = some (next, outputs) →
          VerifiedByChallenge settings pool label next := by
  have meets {history : List (Nat × ContactsEvent)} {pool : ContactsPool}
      (runs : Runs (documentProgram (contactsCode settings) source).step
        (fun history pool label => Timely history pool label) (.initial ⟨stored, drawn⟩)
        history pool) :
      MeetsContracts source (SoundStored source) (contactsContract settings) pool :=
    meetsContracts_of_runs SoundStored.mono (meets_contactsCode injective) sound runs
  have blocked : ∀ peerId, Standing history pool peerId →
      trustStored pool.shared.stored peerId = some .blocked := by
    induction runs with
    | refl =>
      rintro peerId ⟨index, call, found, _⟩
      cases found
    | tail earlier timely stepped ih =>
      obtain ⟨index, call, emitted, rfl, turn⟩ :=
        AsyncCalls.Program.exists_turn (documentProgram_leaves _ source) stepped
      exact fun peerId => standing_step (meets earlier) ih timely turn
  refine ⟨fun index call peerId record found blocks returned quiet => ?_,
    fun label next outputs timely stepped peerId verified unverified => ?_⟩
  · refine blocked peerId ⟨index, call, found, blocks, ?_, quiet⟩
    have finished := work_of_result returned
    cases (meets runs).calls index call found with
    | working left _ _ contracted =>
      cases left.symm.trans finished
      have isSome : (call.request.blocks?).isSome := by rw [blocks, Option.isSome_some]
      exact absurd rfl (contracted isSome record)
    | written _ saved => exact saved
    | failed stage =>
      rw [DocumentCall.work?, stage] at finished
      cases finished
  · obtain ⟨index, call, emitted, _, turn⟩ :=
      AsyncCalls.Program.exists_turn (documentProgram_leaves _ source) stepped
    have served := served_turn turn
    generalize beforeEq : pool.calls[index]? = prior at served
    generalize sharedEq : next.shared = shared at served verified
    cases served with
    | @saved earlier document rest position stage =>
      have isPosition : position = index := by
        rcases turn.taken with ⟨_, launched, _⟩ | ⟨_, _, resumed, _⟩
        · cases launched
        · cases resumed
          rfl
      subst isPosition
      obtain ⟨retrustedPeer, state, save⟩ := timelySave (meets runs) timely beforeEq stage
      obtain ⟨loaded, loadedEq, agrees, may⟩ := save.loads
      rw [save.retrusted peerId] at verified
      split at verified
      · next here =>
          subst here verified
          rw [← agrees peerId] at unverified
          obtain ⟨verifies, challenged⟩ := mayTrust_verified may unverified
          exact ⟨save.unblocked peerId verifies, position, earlier, loaded, rfl, beforeEq,
            by rw [DocumentCall.isSaving, stage], verifies, loadedEq, challenged⟩
      · exact absurd verified unverified
    | _ => exact absurd verified unverified

def plainSource (number : Nat) : String :=
  String.ofList (List.replicate (number + 1) 'x')

theorem plainSource_injective : Function.Injective plainSource := by
  intro first second same
  have texts := String.ofList_injective same
  simpa using congrArg List.length texts

/-- Every signature of the form `signed` is valid. -/
def plainContactsSettings : ContactsSettings where
  hasNetwork := true
  verify := fun _ _ _ signature => decide (signature = "signed")

def plainPeer : String :=
  String.ofList (List.replicate 64 'a')

/-- A call by its number that loads, goes on and saves. -/
def loadAndSave (index : Nat) : List ContactsLabel :=
  [.resume index .performed, .resume index (.settled "now"), .resume index .performed,
    .resume index (.settled "now")]

def addPlainPeer : List ContactsLabel :=
  .launch (.addContact (.string plainPeer) (.string plainPeer) (.string "Peer"), "now") ::
    loadAndSave 0

def blockPlainPeer (index : Nat) : List ContactsLabel :=
  .launch (.blockContact (.string plainPeer), "now") :: loadAndSave index

def returnsContact (pool : ContactsPool) (index : Nat) : Bool :=
  match (pool.calls[index]?).bind DocumentCall.result? with
  | some (.contact _) => true
  | _ => false

theorem exists_contact {pool : ContactsPool} {index : Nat}
    (returned : returnsContact pool index) :
    ∃ call record, pool.calls[index]? = some call ∧ call.result? = some (.contact record) := by
  unfold returnsContact at returned
  split at returned
  · next record found =>
      obtain ⟨call, located, result⟩ := Option.bind_eq_some_iff.mp found
      exact ⟨call, record, located, result⟩
  · cases returned

/-- A block in a run of timely turns. -/
theorem contact_trust_block : ∃ history pool, Runs
        (documentProgram (contactsCode plainContactsSettings) plainSource).step
        (fun history pool label => Timely history pool label) (.initial ⟨none, 0⟩)
        history pool ∧
      trustStored pool.shared.stored plainPeer = some .blocked ∧ BlocksStick history pool := by
  obtain ⟨history, pool, runs, blocked⟩ := exists_runs_of_runWhile
    (documentProgram (contactsCode plainContactsSettings) plainSource).step Timely
    (fun history pool label => Timely history pool label) (.initial ⟨none, 0⟩)
    (addPlainPeer ++ blockPlainPeer 1)
    (fun result => decide (trustStored result.1.shared.stored plainPeer = some .blocked))
    (fun _ _ _ timely => timely) (by decide +kernel)
  have empty : SoundStored plainSource 0 none := trivial
  exact ⟨history, pool, runs, of_decide_eq_true blocked,
    (contact_trust plainSource_injective empty runs).1⟩

/-- A verification that awaits its answer while the peer is blocked. -/
def verifyAcrossBlock : List ContactsLabel :=
  addPlainPeer ++ [.launch (.verifyPeer (.string plainPeer), "now"), .resume 1 .performed,
      .resume 1 (.settled "now")] ++
    blockPlainPeer 2 ++
    [.resume 1 (.answered "now"
      (.resolved ⟨true, .object [("signature", .string "signed")], none⟩))]

/-- The verification writes its old copy of the book over the block. -/
theorem contact_trust_overwritten : ∃ history pool next outputs, Runs
        (documentProgram (contactsCode plainContactsSettings) plainSource).step
        unrestricted (.initial ⟨none, 0⟩) history pool ∧
      (documentProgram (contactsCode plainContactsSettings) plainSource).step pool
        (.resume 1 .performed) = some (next, outputs) ∧ ¬BlocksStick (history ++ outputs) next ∧
      ¬VerifiedByChallenge plainContactsSettings pool (.resume 1 .performed) next := by
  obtain ⟨history, pool, runs, tested⟩ := exists_runs_of_any
    (documentProgram (contactsCode plainContactsSettings) plainSource).step (fun _ => True)
    (.initial ⟨none, 0⟩) verifyAcrossBlock
    (fun result => decide (trustStored result.1.shared.stored plainPeer = some .blocked) &&
      ((documentProgram (contactsCode plainContactsSettings) plainSource).step result.1
        (.resume 1 .performed)).any fun (next : ContactsPool × List (Nat × ContactsEvent)) =>
          decide (trustStored next.1.shared.stored plainPeer = some .verified) &&
            returnsContact next.1 2 &&
            decide ((next.1.calls[2]?).bind (fun call => call.request.blocks?) = some plainPeer) &&
            (sinceReturn 2 (result.2 ++ next.2)).all fun event => !startsLift plainPeer event)
    (fun _ _ => trivial) (by decide +kernel)
  rw [Bool.and_eq_true, decide_eq_true_eq, Option.any_eq_true] at tested
  obtain ⟨blocked, ⟨next, outputs⟩, stepped, tested⟩ := tested
  simp only [Bool.and_eq_true, decide_eq_true_eq] at tested
  obtain ⟨⟨⟨verified, returned⟩, blocks⟩, quiet⟩ := tested
  obtain ⟨call, record, found, result⟩ := exists_contact returned
  rw [found, Option.bind_some] at blocks
  refine ⟨history, pool, next, outputs, runs, stepped, fun sticks => ?_, fun challenged => ?_⟩
  · have standing := sticks 2 call plainPeer record found blocks result fun event member => by
      simpa using List.all_eq_true.mp quiet event member
    cases standing.symm.trans verified
  · have unverified : trustStored pool.shared.stored plainPeer ≠ some .verified := by
      rw [blocked]
      decide
    exact (challenged plainPeer verified unverified).1 blocked

end P2PHub.Contacts
