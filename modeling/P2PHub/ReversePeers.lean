import P2PHub.PeerDirectory

/-!
# Reverse registration

`registerReversePeer` in `plugins/network-light/src/network-light-provider.ts`
puts the peer of an inbound connection into `discovered`, under the instance id
that the peer chose.
-/

namespace P2PHub.NetworkLight

open Directory DiscoveredPeer OrderedMap

/-- A dotted IPv4 address, also as the tail of a mapped IPv6 address. -/
def normalizeIPv4 (remote : String) : Option String :=
  let chars := remote.toList
  let ip := if "::ffff:".toList.isPrefixOf chars then chars.drop "::ffff:".length else chars
  let parts := ip.splitOn '.'
  if parts.length = 4 ∧ ∀ part ∈ parts, part ≠ [] ∧ part.length ≤ 3 ∧ part.all Char.isDigit then
    some (String.ofList ip)
  else none

/-- What a registration puts into `discovered`, if anything.  `own` is the
instance id of this provider. -/
def Directory.reverseEntry (own : String) (directory : Directory) (info : ReversePeer) :
    Option DiscoveredPeer := do
  let instanceId ← info.instanceId.filter nonEmpty
  let listenPort ← info.listenPort.filter fun port => !(port.isZero || decide (port = .nan))
  if instanceId = own then none
  let ip ← normalizeIPv4 info.sourceIp
  let existing := directory.discovered.get instanceId
  return {
    id := instanceId
    address := ip ++ ":" ++ String.ofList listenPort.text
    skills := existing.elim [] skills
    name := existing.bind name
    certFingerprint := some info.certFingerprint
    peerId := some info.peerId
    peerIdVerified := false
    protocolVersion := some (String.ofList networkProtocolVersion.text) }

def Directory.registerReversePeer (own : String) (directory : Directory) (info : ReversePeer) :
    Directory :=
  match directory.reverseEntry own info with
  | none => directory
  | some entry => { directory with discovered := directory.discovered.set entry.id entry }

/-- A peer as `discover` answers it. -/
def DiscoveredPeer.answered (peer : DiscoveredPeer) (caps : PeerCapabilities) : DiscoveredPeer :=
  { peer with
    skills := caps.skills
    peerId := caps.peerId
    peerIdVerified := caps.peerId.isSome
    certFingerprint := none
    protocolVersion := none }

/-- The answers of `discover`.  A peer whose capabilities are not cached is
probed over a new connection. -/
def Directory.discover (directory : Directory) (probe : DiscoveredPeer → Option PeerCapabilities)
    (skill : String) : List DiscoveredPeer :=
  directory.discovered.values.filterMap fun peer =>
    let caps := (directory.peerCapabilities.get peer.id).or (probe peer)
    (caps.filter fun caps => caps.skills.contains skill).map peer.answered

/-- The identity that a handshake has proven for an instance id. -/
def Directory.verifiedPeerId (directory : Directory) (id : String) : Option String :=
  (directory.peerCapabilities.get id).bind PeerCapabilities.peerId

/-- Every peer is stored under its own id. -/
def Directory.Keyed (directory : Directory) : Prop :=
  ∀ id peer, directory.discovered.get id = some peer → peer.id = id

/-- The ids, addresses and fingerprints under which `listPeers` has a verified
peer. -/
def Directory.Routes (directory : Directory) (peerId id address : String)
    (certFingerprint : Option String) : Prop :=
  ∃ peer ∈ directory.listPeers, peer.peerIdVerified = true ∧ peer.peerId = some peerId ∧
    peer.id = id ∧ peer.address = address ∧ peer.certFingerprint = certFingerprint

/-- What `listPeers`, `discover` and the fingerprint pin of `sendTask` say about
the peers that are verified as somebody else stays as it was. -/
structure Directory.KeepsOthers (before after : Directory) (peerId : String) : Prop where
  listed : ∀ other ≠ peerId, after.Routes other = before.Routes other
  discovered : ∀ other ≠ peerId, ∀ probe skill answer,
    before.verifiedPeerId answer.id = some other →
      (answer ∈ after.discover probe skill ↔ answer ∈ before.discover probe skill)
  pinned : ∀ other ≠ peerId, ∀ id, before.verifiedPeerId id = some other →
    after.expectedFingerprint id = before.expectedFingerprint id

/-- The chosen instance id is not the one of a peer that was verified as somebody
else, unless that peer has this very route. -/
def Directory.OwnEntry (own : String) (directory : Directory) (info : ReversePeer) : Prop :=
  ∀ entry, directory.reverseEntry own info = some entry →
    (∀ other, directory.verifiedPeerId entry.id = some other → other = info.peerId) ∨
      ∃ known, directory.discovered.get entry.id = some known ∧
        known.address = entry.address ∧ known.certFingerprint = entry.certFingerprint

variable {own : String} {directory : Directory} {info : ReversePeer}

theorem Directory.routes_iff (keyed : directory.Keyed) {peerId id address : String}
    {certFingerprint : Option String} : directory.Routes peerId id address certFingerprint ↔
      directory.verifiedPeerId id = some peerId ∧ ∃ peer, directory.discovered.get id = some peer ∧
        peer.address = address ∧ peer.certFingerprint = certFingerprint := by
  constructor
  · rintro ⟨listed, member, verified, named, rfl, rfl, rfl⟩
    obtain ⟨peer, stored, rfl⟩ := List.mem_map.mp member
    obtain ⟨key, found⟩ := mem_values.mp stored
    obtain rfl : peer.id = key := keyed key peer found
    obtain ⟨proven, isProven⟩ := Option.isSome_iff_exists.mp verified
    have isPeer : directory.verifiedPeerId peer.id = some proven := isProven
    have named : (directory.verifiedPeerId peer.id).or peer.peerId = some peerId := named
    rw [isPeer] at named
    exact ⟨isPeer.trans named, peer, found, rfl, rfl⟩
  · rintro ⟨verified, peer, found, rfl, rfl⟩
    have idEq := keyed id peer found
    have isPeer : directory.verifiedPeerId peer.id = some peerId := idEq ▸ verified
    refine ⟨directory.list peer, List.mem_map_of_mem (mem_values.mpr ⟨id, found⟩), ?_⟩
    have verifiedEq : (directory.list peer).peerIdVerified =
      (directory.verifiedPeerId peer.id).isSome := rfl
    have peerIdEq : (directory.list peer).peerId =
      (directory.verifiedPeerId peer.id).or peer.peerId := rfl
    rw [verifiedEq, peerIdEq, isPeer]
    exact ⟨rfl, rfl, idEq, rfl, rfl⟩

theorem Directory.mem_discover (keyed : directory.Keyed)
    {probe : DiscoveredPeer → Option PeerCapabilities} {skill : String} {answer : DiscoveredPeer} :
    answer ∈ directory.discover probe skill ↔
      ∃ peer, directory.discovered.get answer.id = some peer ∧
        ∃ caps, (directory.peerCapabilities.get answer.id).or (probe peer) = some caps ∧
          caps.skills.contains skill ∧ answer = peer.answered caps := by
  unfold discover
  rw [List.mem_filterMap]
  constructor
  · rintro ⟨peer, stored, answered⟩
    obtain ⟨key, found⟩ := mem_values.mp stored
    obtain rfl : peer.id = key := keyed key peer found
    obtain ⟨caps, offered, rfl⟩ := Option.map_eq_some_iff.mp answered
    obtain ⟨isCaps, skilled⟩ := Option.filter_eq_some_iff.mp offered
    exact ⟨peer, found, caps, isCaps, skilled, rfl⟩
  · rintro ⟨peer, found, caps, isCaps, skilled, answerEq⟩
    have idEq := keyed _ peer found
    refine ⟨peer, mem_values.mpr ⟨_, found⟩, Option.map_eq_some_iff.mpr ⟨caps, ?_⟩⟩
    rw [idEq, isCaps, Option.filter_eq_some_iff]
    exact ⟨⟨rfl, skilled⟩, answerEq.symm⟩

/-- What of a stored peer the answers about it show. -/
def DiscoveredPeer.route (peer : DiscoveredPeer) : String × Option String × Option String :=
  (peer.address, peer.certFingerprint, peer.name)

section

variable {before after : Directory} (keyed : before.Keyed) (keyedAfter : after.Keyed)
    (caps : after.peerCapabilities = before.peerCapabilities) {id : String}
    (alike : (after.discovered.get id).map route = (before.discovered.get id).map route)
include keyed keyedAfter caps alike

theorem Directory.routes_of_alike {peerId address : String} {certFingerprint : Option String}
    (listed : before.Routes peerId id address certFingerprint) :
    after.Routes peerId id address certFingerprint := by
  obtain ⟨verified, peer, found, rfl, rfl⟩ := (routes_iff keyed).mp listed
  rw [found] at alike
  obtain ⟨other, isOther, same⟩ := Option.map_eq_some_iff.mp alike
  rw [routes_iff keyedAfter, verifiedPeerId, caps]
  exact ⟨verified, other, isOther, congrArg Prod.fst same, congrArg (·.2.1) same⟩

theorem Directory.discover_of_alike (cached : before.verifiedPeerId id ≠ none)
    {probe : DiscoveredPeer → Option PeerCapabilities} {skill : String} {answer : DiscoveredPeer}
    (named : answer.id = id) (found : answer ∈ before.discover probe skill) :
    answer ∈ after.discover probe skill := by
  obtain ⟨peer, isPeer, learned, isLearned, skilled, answerEq⟩ := (mem_discover keyed).mp found
  rw [named] at isPeer isLearned
  rw [isPeer] at alike
  obtain ⟨other, isOther, same⟩ := Option.map_eq_some_iff.mp alike
  have idEq : other.id = peer.id := (keyedAfter id other isOther).trans (keyed id peer isPeer).symm
  have addressEq : other.address = peer.address := congrArg Prod.fst same
  have nameEq : other.name = peer.name := congrArg (·.2.2) same
  have answered : other.answered learned = peer.answered learned := by
    rw [answered, answered, idEq, addressEq, nameEq]
  rw [mem_discover keyedAfter, named, caps]
  refine ⟨other, isOther, learned, ?_, skilled, answerEq.trans answered.symm⟩
  cases isCached : before.peerCapabilities.get id with
  | none => exact absurd (by rw [verifiedPeerId, isCached]; rfl) cached
  | some =>
    rw [isCached] at isLearned
    exact isLearned

end

theorem Directory.keyed_registerReversePeer (keyed : directory.Keyed) :
    (directory.registerReversePeer own info).Keyed := by
  unfold registerReversePeer
  split
  · exact keyed
  · next entry _ =>
    intro id peer found
    rw [get_set] at found
    split at found
    · next same =>
      cases found
      exact same.symm
    · exact keyed id peer found

theorem Directory.reverseEntry_name {entry : DiscoveredPeer}
    (isEntry : directory.reverseEntry own info = some entry) :
    entry.name = (directory.discovered.get entry.id).bind name := by
  obtain ⟨instanceId, -, isEntry⟩ := Option.bind_eq_some_iff.mp isEntry
  obtain ⟨listenPort, -, isEntry⟩ := Option.bind_eq_some_iff.mp isEntry
  split at isEntry
  · cases isEntry
  · obtain ⟨ip, -, isEntry⟩ := Option.bind_eq_some_iff.mp isEntry
    cases isEntry
    rfl

/-- The registration takes nothing from the peers verified as somebody else
exactly when the entry that it replaces is not one of theirs. -/
theorem registerReversePeer_keepsOthers_iff (keyed : directory.Keyed) :
    directory.KeepsOthers (directory.registerReversePeer own info) info.peerId ↔
      directory.OwnEntry own info := by
  have keyedAfter : (directory.registerReversePeer own info).Keyed :=
    keyed_registerReversePeer keyed
  constructor
  · intro keeps entry isEntry
    by_contra! taken
    obtain ⟨⟨other, verified, apart⟩, fresh⟩ := taken
    have registered : directory.registerReversePeer own info =
        { directory with discovered := directory.discovered.set entry.id entry } := by
      rw [registerReversePeer, isEntry]
    have listed : (directory.registerReversePeer own info).Routes other entry.id entry.address
        entry.certFingerprint := by
      rw [routes_iff keyedAfter, registered]
      exact ⟨verified, entry, get_set_self _ _ _, rfl, rfl⟩
    rw [keeps.listed other apart] at listed
    obtain ⟨-, known, found, sameAddress, sameFingerprint⟩ :=
      (routes_iff keyed).mp listed
    exact fresh known found sameAddress sameFingerprint
  · intro ownEntry
    have caps : (directory.registerReversePeer own info).peerCapabilities =
        directory.peerCapabilities := by
      unfold registerReversePeer
      split <;> rfl
    have alike : ∀ other ≠ info.peerId, ∀ id, directory.verifiedPeerId id = some other →
        ((directory.registerReversePeer own info).discovered.get id).map route =
          (directory.discovered.get id).map route := by
      intro other apart id verified
      unfold registerReversePeer
      split
      · rfl
      · next entry isEntry =>
        rw [get_set]
        split
        · next same =>
          subst same
          rcases ownEntry entry isEntry with own | ⟨known, found, sameAddress, sameFingerprint⟩
          · exact absurd (own other verified) apart
          · rw [found, Option.map_some, Option.map_some, route, route,
              sameAddress, sameFingerprint, reverseEntry_name isEntry, found]
            rfl
        · rfl
    constructor
    · intro other apart
      funext id address certFingerprint
      refine propext ⟨fun listed => ?_, fun listed => ?_⟩
      · have verified := ((routes_iff keyedAfter).mp listed).1
        rw [verifiedPeerId, caps] at verified
        exact routes_of_alike keyedAfter keyed caps.symm (alike other apart id verified).symm listed
      · have verified := ((routes_iff keyed).mp listed).1
        exact routes_of_alike keyed keyedAfter caps (alike other apart id verified) listed
    · intro other apart probe skill answer verified
      have cached : directory.verifiedPeerId answer.id ≠ none := by simp [verified]
      have same := alike other apart _ verified
      constructor
      · apply discover_of_alike keyedAfter keyed caps.symm same.symm _ rfl
        rwa [verifiedPeerId, caps]
      · exact discover_of_alike keyed keyedAfter caps same cached rfl
    · intro other apart id verified
      have bound := congrArg (·.bind fun route => route.2.1) (alike other apart id verified)
      simp only [Option.bind_map] at bound
      exact bound

/-- What the connection of a peer with the identity `p` announces. -/
def announcedAs (instanceId : String) : ReversePeer :=
  ⟨some instanceId, some (.ofInt 4000), "p", "pp", "::ffff:10.0.0.9"⟩

theorem registerReversePeer_keepsOthers_first :
    (empty.registerReversePeer "own" (announcedAs "new")).listPeers.length = 1 ∧ empty.KeepsOthers
        (empty.registerReversePeer "own" (announcedAs "new")) "p" := by
  constructor
  · decide +kernel
  · apply (registerReversePeer_keepsOthers_iff (fun id peer found => by cases found)).mpr
    exact fun entry _ => .inl fun other proven => by cases proven

/-- A peer that announces the instance id of another one is listed under the
verified identity of that peer. -/
theorem announced_id_taken : let before : Directory := {
      discovered := empty.set "q-id"
        ⟨"q-id", "10.0.0.7:4000", [], none, some "qq", none, false, none⟩
      peerCapabilities := empty.set "q-id" ⟨["echo"], none, some "q"⟩ }
    (before.registerReversePeer "own" (announcedAs "q-id")).listPeers.map (fun peer =>
      (peer.peerId, peer.peerIdVerified, peer.address, peer.certFingerprint)) =
        [(some "q", true, "10.0.0.9:4000", some "pp")] := by
  decide +kernel

end P2PHub.NetworkLight
