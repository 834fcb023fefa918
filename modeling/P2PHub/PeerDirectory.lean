import P2PHub.NetworkSendTask

/-!
# Peers as the network providers list them

The maps `discovered` and `peerCapabilities` of
`plugins/network-light/src/network-light-provider.ts`, its `listPeers`, and how
the callers pick the peer that they address.
-/

namespace P2PHub.NetworkLight

structure DiscoveredPeer where
  id : String
  address : String
  skills : List String
  name : Option String
  certFingerprint : Option String
  peerId : Option String
  peerIdVerified : Bool
  protocolVersion : Option String
  deriving DecidableEq

/-- The maps are keyed by the instance id that a peer announces. -/
structure Directory where
  discovered : OrderedMap String DiscoveredPeer
  peerCapabilities : OrderedMap String PeerCapabilities

def Directory.empty : Directory :=
  ⟨.empty, .empty⟩

/-- A verified identity overrides the claim of an announcement. -/
def Directory.list (directory : Directory) (peer : DiscoveredPeer) : DiscoveredPeer :=
  let caps := directory.peerCapabilities.get peer.id
  let verifiedPeerId := caps.bind PeerCapabilities.peerId
  { peer with
    skills := caps.elim [] PeerCapabilities.skills
    peerId := verifiedPeerId.or peer.peerId
    peerIdVerified := verifiedPeerId.isSome }

def Directory.listPeers (directory : Directory) : List DiscoveredPeer :=
  directory.discovered.values.map directory.list

def Directory.expectedFingerprint (directory : Directory) (id : String) : Option String :=
  (directory.discovered.get id).bind DiscoveredPeer.certFingerprint

/-- The providers of the repository.  `network-libp2p` lists no peers. -/
inductive Provider
  | networkLight (directory : Directory)
  | networkLibp2p

def Provider.listPeers : Provider → List DiscoveredPeer
  | networkLight directory => directory.listPeers
  | networkLibp2p => []

/-- The target of `ctx.network.sendTask` and of `getPeer` in
`events/event-network.ts`. -/
def Provider.getPeer (provider : Provider) (peerId : String) : Option DiscoveredPeer :=
  provider.listPeers.find? fun peer => peer.peerId = some peerId

/-- The target of the operator's `executeRemote`: a peer with that identity,
else one with that instance id. -/
def Provider.operatorPeer (provider : Provider) (peerId : String) : Option DiscoveredPeer :=
  (provider.getPeer peerId).or (provider.listPeers.find? fun peer => peer.id = peerId)

end P2PHub.NetworkLight
