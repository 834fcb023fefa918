import P2PHub.ContactsPlugin

/-!
# Contact books as lists of contacts

A book that the plugin wrote lists its contacts behind the references of the
root, each peer once.  The operations change the trust state of one peer and
leave the others.
-/

namespace P2PHub.Contacts

open PBXDocument

section

/-- The contacts of a book in the order of its references. -/
structure Represents (book : ContactBook) (contacts : List (String × BookObject)) : Prop where
  root : ∃ object, book.rootObject = some object ∧ object.contacts = some (contacts.map Prod.fst)
  located : ∀ entry ∈ contacts, book.resolveRef entry.1 = some entry.2
  ids : (contacts.map Prod.fst).Nodup
  rootless : ∀ entry ∈ contacts, entry.1 ≠ book.root
  peers : (contacts.map fun entry => entry.2.peerId).Nodup

/-- A book with its contacts and with room for the identifiers that are drawn
next. -/
structure SoundBook (source : Nat → String) (drawn : Nat) (book : ContactBook) : Prop where
  represents : ∃ contacts, Represents book contacts
  unused : ∀ number, drawn ≤ number → book.resolveRef (source number) = none

variable {book : ContactBook}
  {contacts : List (String × BookObject)} {peerId contactId : String}
  {contact changed : BookObject}

variable {front back : List (String × BookObject)}

section

variable (represents : Represents book contacts)
include represents

theorem Represents.refs : contactRefs book = contacts.map Prod.fst := by
  obtain ⟨object, found, listed⟩ := represents.root
  rw [contactRefs, found, Option.bind_some, listed, Option.getD_some]

theorem Represents.find (peerId : String) : findContact book peerId =
      contacts.find? fun entry => decide (entry.2.peerId = some peerId) := by
  have listed (part : List (String × BookObject)) (within : ∀ entry ∈ part, entry ∈ contacts) :
      (part.map Prod.fst).findSome? (contactAt book peerId) =
        part.find? fun entry => decide (entry.2.peerId = some peerId) := by
    induction part with
    | nil => rfl
    | cons entry part ih =>
      have here := represents.located entry (within entry List.mem_cons_self)
      have rest := ih fun other member => within other (List.mem_cons_of_mem _ member)
      rw [List.map_cons, List.findSome?_cons, contactAt, here, List.find?_cons]
      by_cases named : entry.2.peerId = some peerId
      · simp [Option.filter, named]
      · simp [Option.filter, named, rest]
  rw [findContact, represents.refs]
  exact listed contacts fun _ member => member

theorem Represents.found (found : findContact book peerId = some (contactId, contact)) :
    (contactId, contact) ∈ contacts ∧ contact.peerId = some peerId := by
  rw [represents.find] at found
  exact ⟨List.mem_of_find?_eq_some found, by simpa using List.find?_some found⟩

end

def trustIn (contacts : List (String × BookObject)) (peerId : String) : Option TrustState :=
  (contacts.find? fun entry => decide (entry.2.peerId = some peerId)).bind
    fun entry => entry.2.trustState

theorem Represents.trust (represents : Represents book contacts) (peerId : String) :
    trustOf book peerId = trustIn contacts peerId := by
  rw [trustOf, represents.find, trustIn]

theorem trustIn_of_mem (peers : (contacts.map fun entry => entry.2.peerId).Nodup)
    (member : (contactId, contact) ∈ contacts) (named : contact.peerId = some peerId) :
    trustIn contacts peerId = contact.trustState := by
  induction contacts with
  | nil => cases member
  | cons entry contacts ih =>
    rw [List.map_cons, List.nodup_cons] at peers
    rw [trustIn, List.find?_cons]
    rcases List.mem_cons.mp member with rfl | later
    · simp [named]
    · have apart : entry.2.peerId ≠ some peerId := by
        intro same
        exact peers.1 (List.mem_map.mpr ⟨_, later, named.trans same.symm⟩)
      have rest := ih peers.2 later
      rw [trustIn] at rest
      simpa [apart] using rest

theorem trustIn_of_absent (absent : ∀ entry ∈ contacts, entry.2.peerId ≠ some peerId) :
    trustIn contacts peerId = none := by
  have missing : (contacts.find? fun entry => decide (entry.2.peerId = some peerId)) = none := by
    rw [List.find?_eq_none]
    intro entry member
    simpa using absent entry member
  rw [trustIn, missing, Option.bind_none]

theorem trustIn_skip (front back : List (String × BookObject)) {entry : String × BookObject}
    (apart : entry.2.peerId ≠ some peerId) :
    trustIn (front ++ entry :: back) peerId = trustIn (front ++ back) peerId := by
  simp only [trustIn, List.find?_append, List.find?_cons]
  simp [apart]

/-- The trust states of a book after another one: one peer's is set. -/
def Retrusted (before after : String → Option TrustState) (peerId : String)
    (state : Option TrustState) : Prop :=
  ∀ other, after other = if other = peerId then state else before other

theorem retrusted_replace
    (peers : ((front ++ (contactId, contact) :: back).map fun entry => entry.2.peerId).Nodup)
    (named : contact.peerId = some peerId) (same : changed.peerId = contact.peerId) :
    Retrusted (trustIn (front ++ (contactId, contact) :: back))
      (trustIn (front ++ (contactId, changed) :: back)) peerId changed.trustState := by
  intro other
  split
  · next here =>
      subst here
      have present : (contactId, changed) ∈ front ++ (contactId, changed) :: back := by simp
      refine trustIn_of_mem ?_ present (same.trans named)
      simpa [same] using peers
  · next apart =>
      have unnamed : contact.peerId ≠ some other := by
        rw [named]
        exact fun equal => apart (Option.some.inj equal).symm
      have changedUnnamed : changed.peerId ≠ some other := by rwa [same]
      have skipChanged : trustIn (front ++ (contactId, changed) :: back) other =
          trustIn (front ++ back) other := trustIn_skip front back changedUnnamed
      have skip : trustIn (front ++ (contactId, contact) :: back) other =
          trustIn (front ++ back) other := trustIn_skip front back unnamed
      rw [skipChanged, skip]

theorem retrusted_append (absent : ∀ entry ∈ contacts, entry.2.peerId ≠ some peerId)
    (named : contact.peerId = some peerId) :
    Retrusted (trustIn contacts) (trustIn (contacts ++ [(contactId, contact)])) peerId
      contact.trustState := by
  have missing : (contacts.find? fun entry => decide (entry.2.peerId = some peerId)) = none := by
    rw [List.find?_eq_none]
    intro entry member
    simpa using absent entry member
  intro other
  split
  · next here =>
      subst here
      simp [trustIn, List.find?_append, missing, named]
  · next apart =>
      have unnamed : contact.peerId ≠ some other := by
        rw [named]
        exact fun equal => apart (Option.some.inj equal).symm
      have skip : trustIn (contacts ++ [(contactId, contact)]) other =
        trustIn (contacts ++ []) other :=
        trustIn_skip contacts [] unnamed
      simpa using skip

theorem retrusted_remove
    (peers : ((front ++ (contactId, contact) :: back).map fun entry => entry.2.peerId).Nodup)
    (named : contact.peerId = some peerId) :
    Retrusted (trustIn (front ++ (contactId, contact) :: back)) (trustIn (front ++ back)) peerId
      none := by
  intro other
  split
  · next here =>
      subst here
      refine trustIn_of_absent fun entry member same => ?_
      rw [List.map_append, List.map_cons, List.nodup_middle, List.nodup_cons,
        ← List.map_append] at peers
      exact peers.1 (List.mem_map.mpr ⟨entry, member, same.trans named.symm⟩)
  · next apart =>
      have unnamed : contact.peerId ≠ some other := by
        rw [named]
        exact fun equal => apart (Option.some.inj equal).symm
      have skip : trustIn (front ++ (contactId, contact) :: back) other =
          trustIn (front ++ back) other := trustIn_skip front back unnamed
      exact skip.symm

end

variable {source : Nat → String} {drawn : Nat} {book : ContactBook}
  {contacts front back : List (String × BookObject)} {peerId contactId : String}
  {contact changed : BookObject}

theorem represents_newBook (rootId : String) : Represents (newBook rootId) [] where
  root := by
    refine ⟨{ contacts := some [] }, ?_, rfl⟩
    rw [rootObject, newBook, resolveRef_createDocument]
    exact if_pos rfl
  located := List.forall_mem_nil _
  ids := .nil
  rootless := List.forall_mem_nil _
  peers := .nil

theorem Represents.put (represents : Represents book (front ++ (contactId, contact) :: back))
    (same : changed.peerId = contact.peerId) :
    Represents (book.put contactId changed) (front ++ (contactId, changed) :: back) where
  root := by
    obtain ⟨object, found, listed⟩ := represents.root
    refine ⟨object, ?_, by simpa using listed⟩
    have elsewhere : book.root ≠ contactId :=
      (represents.rootless (contactId, contact) (by simp)).symm
    rw [rootObject, root_put, resolveRef_put, if_neg elsewhere]
    exact found
  located := by
    intro entry member
    have ids := represents.ids
    rw [List.map_append, List.map_cons, List.nodup_middle, List.nodup_cons,
      ← List.map_append] at ids
    rw [resolveRef_put]
    rw [List.mem_append, List.mem_cons, or_left_comm, ← List.mem_append] at member
    rcases member with rfl | member
    · rw [if_pos rfl]
    · have apart : entry.1 ≠ contactId := fun same =>
        ids.1 (List.mem_map.mpr ⟨entry, member, same⟩)
      rw [if_neg apart]
      refine represents.located entry ?_
      rw [List.mem_append, List.mem_cons, or_left_comm, ← List.mem_append]
      exact Or.inr member
  ids := by simpa using represents.ids
  rootless := by
    intro entry member
    rw [List.mem_append, List.mem_cons, or_left_comm, ← List.mem_append] at member
    rcases member with rfl | member
    · exact represents.rootless (contactId, contact) (by simp)
    · refine represents.rootless entry ?_
      rw [List.mem_append, List.mem_cons, or_left_comm, ← List.mem_append]
      exact Or.inr member
  peers := by simpa [same] using represents.peers

theorem Represents.link (represents : Represents book contacts)
    (fresh : book.resolveRef contactId = none) (absent : ∀ entry ∈ contacts,
      entry.2.peerId ≠ contact.peerId) :
    Represents (linkContact (book.addObject contactId contact) contactId)
      (contacts ++ [(contactId, contact)]) := by
  obtain ⟨object, found, listed⟩ := represents.root
  have unlisted : ∀ entry ∈ contacts, entry.1 ≠ contactId := by
    intro entry member same
    have located := represents.located entry member
    rw [same, fresh] at located
    cases located
  have elsewhere : book.root ≠ contactId := by
    intro same
    rw [rootObject, same, fresh] at found
    cases found
  have rootFound : (book.addObject contactId contact).rootObject = some object := by
    rw [rootObject, addObject, root_put,
      resolveRef_put, if_neg elsewhere]
    exact found
  have refs : contactRefs (book.addObject contactId contact) = contacts.map Prod.fst := by
    rw [contactRefs, rootFound, Option.bind_some, listed, Option.getD_some]
  have resolve (ref : String) (other : ref ≠ book.root) :
      (linkContact (book.addObject contactId contact) contactId).resolveRef ref =
        if ref = contactId then some contact else book.resolveRef ref := by
    rw [linkContact, resolveRef_modifyRoot, addObject,
      root_put, if_neg other, resolveRef_put]
  exact
    { root := by
        refine ⟨{ object with contacts := some (contacts.map Prod.fst ++ [contactId]) }, ?_, ?_⟩
        · rw [rootObject, linkContact, root_modifyRoot,
            resolveRef_modifyRoot, if_pos rfl, rootFound, Option.map_some, refs]
        · simp
      located := by
        intro entry member
        rcases List.mem_append.mp member with old | new
        · rw [resolve _ (represents.rootless entry old), if_neg (unlisted entry old)]
          exact represents.located entry old
        · cases List.mem_singleton.mp new
          rw [resolve _ elsewhere.symm, if_pos rfl]
      ids := by
        rw [List.map_append, List.map_cons, List.map_nil, List.nodup_append]
        refine ⟨represents.ids, List.nodup_singleton _, ?_⟩
        intro id member other otherMember same
        obtain ⟨entry, entryMember, rfl⟩ := List.mem_map.mp member
        exact unlisted entry entryMember (same.trans (List.mem_singleton.mp otherMember))
      rootless := by
        intro entry member
        rw [linkContact, root_modifyRoot, addObject,
          root_put]
        rcases List.mem_append.mp member with old | new
        · exact represents.rootless entry old
        · cases List.mem_singleton.mp new
          exact elsewhere.symm
      peers := by
        rw [List.map_append, List.map_cons, List.map_nil, List.nodup_append]
        refine ⟨represents.peers, List.nodup_singleton _, ?_⟩
        intro named member other otherMember same
        obtain ⟨entry, entryMember, rfl⟩ := List.mem_map.mp member
        exact absent entry entryMember (same.trans (List.mem_singleton.mp otherMember)) }

theorem Represents.drop (represents : Represents book (front ++ (contactId, contact) :: back)) :
    Represents (dropContact book front.length contactId) (front ++ back) := by
  obtain ⟨object, found, listed⟩ := represents.root
  have elsewhere : book.root ≠ contactId :=
    (represents.rootless (contactId, contact) (by simp)).symm
  have within : ∀ entry ∈ front ++ back, entry ∈ front ++ (contactId, contact) :: back := by
    intro entry member
    rw [List.mem_append, List.mem_cons, or_left_comm, ← List.mem_append]
    exact Or.inr member
  have ids := represents.ids
  have peers := represents.peers
  rw [List.map_append, List.map_cons, List.nodup_middle, List.nodup_cons,
    ← List.map_append] at ids peers
  have rootFound : (book.deleteObject contactId).rootObject = some object := by
    rw [rootObject, root_deleteObject,
      resolveRef_deleteObject, if_neg elsewhere]
    exact found
  have erased : (contactRefs book).eraseIdx front.length = (front ++ back).map Prod.fst := by
    rw [represents.refs, List.map_append, List.map_cons,
      List.eraseIdx_append_of_length_le (by simp)]
    simp
  exact
    { root := by
        refine ⟨{ object with contacts := some ((front ++ back).map Prod.fst) }, ?_, rfl⟩
        rw [rootObject, dropContact, root_modifyRoot,
          resolveRef_modifyRoot, if_pos rfl, rootFound, Option.map_some, erased]
      located := by
        intro entry member
        have apart : entry.1 ≠ contactId := fun same =>
          ids.1 (List.mem_map.mpr ⟨entry, member, same⟩)
        rw [dropContact, resolveRef_modifyRoot, root_deleteObject,
          if_neg (represents.rootless entry (within entry member)),
          resolveRef_deleteObject, if_neg apart]
        exact represents.located entry (within entry member)
      ids := ids.2
      rootless := by
        intro entry member
        rw [dropContact, root_modifyRoot, root_deleteObject]
        exact represents.rootless entry (within entry member)
      peers := peers.2 }

theorem SoundBook.mono {later : Nat} (sound : SoundBook source drawn book) (le : drawn ≤ later) :
    SoundBook source later book where
  represents := sound.represents
  unused := fun number bound => sound.unused number (Nat.le_trans le bound)

theorem soundBook_newBook (injective : Function.Injective source) (number : Nat) :
    SoundBook source (number + 1) (newBook (source number)) where
  represents := ⟨[], represents_newBook _⟩
  unused := by
    intro later bound
    rw [newBook, resolveRef_createDocument, if_neg]
    intro same
    have equal : later = number := injective same
    omega

theorem trustOf_newBook (rootId peerId : String) : trustOf (newBook rootId) peerId = none := by
  rw [(represents_newBook rootId).trust]
  rfl

section

variable (sound : SoundBook source drawn book)
    (found : findContact book peerId = some (contactId, contact))
include sound found

theorem SoundBook.split : contact.peerId = some peerId ∧
      ∃ front back, Represents book (front ++ (contactId, contact) :: back) := by
  obtain ⟨contacts, represents⟩ := sound.represents
  obtain ⟨member, named⟩ := represents.found found
  obtain ⟨front, back, rfl⟩ := List.append_of_mem member
  exact ⟨named, front, back, represents⟩

theorem SoundBook.replace
    (same : changed.peerId = contact.peerId) : SoundBook source drawn (book.put contactId changed) ∧
      Retrusted (trustOf book) (trustOf (book.put contactId changed)) peerId
        changed.trustState := by
  obtain ⟨named, front, back, represents⟩ := sound.split found
  have after := represents.put same
  refine ⟨⟨⟨_, after⟩, fun number bound => ?_⟩, fun other => ?_⟩
  · have located := represents.located (contactId, contact) (by simp)
    have apart : source number ≠ contactId := by
      intro equal
      have unused := sound.unused number bound
      rw [equal, located] at unused
      cases unused
    rw [resolveRef_put, if_neg apart]
    exact sound.unused number bound
  · rw [after.trust, represents.trust]
    exact retrusted_replace represents.peers named same other

end

theorem SoundBook.add (injective : Function.Injective source)
    (sound : SoundBook source drawn book) (missing : findContact book peerId = none)
    (named : contact.peerId = some peerId) {number : Nat} (bound : drawn ≤ number) :
    SoundBook source (number + 1)
        (linkContact (book.addObject (source number) contact) (source number)) ∧
      Retrusted (trustOf book)
        (trustOf (linkContact (book.addObject (source number) contact) (source number))) peerId
        contact.trustState := by
  obtain ⟨contacts, represents⟩ := sound.represents
  have absent : ∀ entry ∈ contacts, entry.2.peerId ≠ some peerId := by
    rw [represents.find, List.find?_eq_none] at missing
    intro entry member
    simpa using missing entry member
  have unlisted : ∀ entry ∈ contacts, entry.2.peerId ≠ contact.peerId := by rwa [named]
  have after := represents.link (sound.unused number bound) unlisted
  refine ⟨⟨⟨_, after⟩, fun later above => ?_⟩, fun other => ?_⟩
  · obtain ⟨object, rootFound, _⟩ := represents.root
    have old := sound.unused later (by omega)
    have apart : source later ≠ source number := by
      intro equal
      have same : later = number := injective equal
      omega
    have rootless : source later ≠ book.root := by
      intro equal
      rw [equal] at old
      rw [rootObject, old] at rootFound
      cases rootFound
    rw [linkContact, resolveRef_modifyRoot, addObject,
      root_put, if_neg rootless, resolveRef_put, if_neg apart]
    exact old
  · rw [after.trust, represents.trust]
    exact retrusted_append absent named other

theorem SoundBook.remove (sound : SoundBook source drawn book) {position : Nat} {ref : String}
    (listed : (contactRefs book)[position]? = some ref)
    (found : (contactAt book peerId ref).isSome) :
    SoundBook source drawn (dropContact book position ref) ∧
      Retrusted (trustOf book) (trustOf (dropContact book position ref)) peerId none := by
  obtain ⟨contacts, represents⟩ := sound.represents
  rw [represents.refs, List.getElem?_map, Option.map_eq_some_iff] at listed
  obtain ⟨⟨contactId, contact⟩, located, rfl⟩ := listed
  obtain ⟨bound, atPosition⟩ := List.getElem?_eq_some_iff.mp located
  have member : (contactId, contact) ∈ contacts := List.mem_of_getElem? located
  have resolved : book.resolveRef contactId = some contact := represents.located _ member
  have named : contact.peerId = some peerId := by
    rw [contactAt, resolved] at found
    by_contra unnamed
    simp [Option.filter, unnamed] at found
  have parts : contacts = contacts.take position ++ (contactId, contact) ::
      contacts.drop (position + 1) := by
    rw [← atPosition, List.cons_getElem_drop_succ, List.take_append_drop]
  have taken : (contacts.take position).length = position := by
    rw [List.length_take]
    omega
  rw [parts] at represents
  have after := represents.drop
  rw [taken] at after
  refine ⟨⟨⟨_, after⟩, fun number above => ?_⟩, fun other => ?_⟩
  · have unused := sound.unused number above
    obtain ⟨object, rootFound, _⟩ := represents.root
    have rootless : source number ≠ book.root := by
      intro equal
      rw [rootObject, ← equal, unused] at rootFound
      cases rootFound
    rw [dropContact, resolveRef_modifyRoot, root_deleteObject,
      if_neg rootless, resolveRef_deleteObject, unused]
    split <;> rfl
  · rw [after.trust, represents.trust]
    exact retrusted_remove represents.peers named other

end P2PHub.Contacts
