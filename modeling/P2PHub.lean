import P2PHub.AccessPasses
import P2PHub.CertifiedContent
import P2PHub.ComputationOrder
import P2PHub.ContactTrust
import P2PHub.CoordinateKeys
import P2PHub.CriticalPathWalks
import P2PHub.DiagnosticsBundle
import P2PHub.EnsResolver
import P2PHub.EventLinkNumbers
import P2PHub.FileLock
import P2PHub.FormulaInsertionMeaning
import P2PHub.FormulaTotality
import P2PHub.FrameLimits
import P2PHub.GovernanceRejections
import P2PHub.HostRegistries
import P2PHub.IPCSocketDelivery
import P2PHub.IPCSocketSends
import P2PHub.IdentityPreservation
import P2PHub.MediaBookkeeping
import P2PHub.NetworkAtMostOnce
import P2PHub.PALEngine
import P2PHub.PBXWalks
import P2PHub.PeerAccessOrder
import P2PHub.PeerSitePasses
import P2PHub.PeerSiteRoot
import P2PHub.PeerSlots
import P2PHub.PluginIsolation
import P2PHub.ProjectCycles
import P2PHub.ProjectDelegations
import P2PHub.ProjectSerialization
import P2PHub.RecalcTermination
import P2PHub.ReversePeers
import P2PHub.RevocationsKept
import P2PHub.SandboxExposure
import P2PHub.SandboxLifecycle
import P2PHub.SanitizerControls
import P2PHub.ScannerCoverage
import P2PHub.SheetRecalcMeaning
import P2PHub.StorageIsolation
import P2PHub.StorageRefinement
import P2PHub.StreamProtocol
import P2PHub.StructuralEditCells
import P2PHub.SubscriptionHubCaps
import P2PHub.SubscriptionHubEmissions
import P2PHub.SubscriptionHubFanOut
import P2PHub.SubscriptionHubRates
import P2PHub.SubscriptionHubRefresh
import P2PHub.TaskBrokerAccounting
import P2PHub.TaskBrokerRegistry
import P2PHub.TelemetryGateBudget
import P2PHub.TelemetryGateCooldown
import P2PHub.TelemetryGateEscalation
import P2PHub.WireDelivery
