import LmResiliency.Lib.Text
import LmResiliency.Lib.JsonRoundTrip
import LmResiliency.Lib.JsonText
import LmResiliency.Lib.Prog
import LmResiliency.Lib.Interleave
import LmResiliency.Lib.Lockstep
import LmResiliency.Lib.LowBits
import LmResiliency.Lib.Outcome
import LmResiliency.Lib.Dict
import LmResiliency.Lib.Base64
import LmResiliency.Torchrun.Plan
import LmResiliency.Torchrun.PlanStore
import LmResiliency.Torchrun.WireFormat
import LmResiliency.Torchrun.WorkerContext
import LmResiliency.Torchrun.Liveness
import LmResiliency.Torchrun.LeaseOrder
import LmResiliency.Torchrun.Placement
import LmResiliency.Torchrun.Undisturbed
import LmResiliency.Torchrun.Registration
import LmResiliency.Torchrun.Coordinator
import LmResiliency.Torchrun.Quarantine
import LmResiliency.Torchrun.Successor
import LmResiliency.Torchrun.Rendezvous
import LmResiliency.Torchrun.RendezvousInv
import LmResiliency.Torchrun.RendezvousAlone
import LmResiliency.Torchrun.RendezvousAgreement
import LmResiliency.Checkpointing.Collective
import LmResiliency.Checkpointing.CodecRoundTrip
import LmResiliency.Checkpointing.Disk
import LmResiliency.Checkpointing.Search
import LmResiliency.Detection.Replay
import LmResiliency.Detection.ShapeCycle
import LmResiliency.Detection.CrossPG
import LmResiliency.Detection.Signature
import LmResiliency.Detection.Sensitivity
import LmResiliency.Checkpointing.Status
import LmResiliency.Checkpointing.Buffer
import LmResiliency.Checkpointing.Manager
import LmResiliency.Checkpointing.ManagerInv
import LmResiliency.Checkpointing.Provenance
import LmResiliency.Checkpointing.RecoveryPair
import LmResiliency.Checkpointing.PairedRanks
import LmResiliency.Checkpointing.Recovery
import LmResiliency.Checkpointing.RecoveryGroup
import LmResiliency.Checkpointing.RecoveryAgreement
import LmResiliency.Checkpointing.Manifest
import LmResiliency.Checkpointing.Durable
import LmResiliency.Checkpointing.DurableGroup
import LmResiliency.Checkpointing.DurableJob
import LmResiliency.Checkpointing.DurableInv
import LmResiliency.Checkpointing.DurableSafety
import LmResiliency.Checkpointing.CrashConsistency
import LmResiliency.Checkpointing.DurableRotation
import LmResiliency.Integrations.Certification
import LmResiliency.Integrations.CertificationGroup
import LmResiliency.Integrations.CertificationAgreement
import LmResiliency.Checkpointing.Pairing
import LmResiliency.Detection.AllToAllTraffic
import LmResiliency.Detection.AllToAllRouting
import LmResiliency.Detection.SwitchSuspects
import LmResiliency.Detection.FailedLatency
import LmResiliency.Checkpointing.ReplicationExchange
import LmResiliency.Detection.RegimeCoverage
import LmResiliency.Detection.CatalogRoundTrip
import LmResiliency.Detection.RegimeSchedule
import LmResiliency.Detection.OptimizerCoverage
import LmResiliency.Detection.PeerGroup
import LmResiliency.Detection.HangDetector
import LmResiliency.Integrations.ShardCertification
import LmResiliency.Integrations.NativeAttach
import LmResiliency.Integrations.FastPathSaves
import LmResiliency.Detection.ReplayMaterialize
import LmResiliency.Checkpointing.TransferAgreement
import LmResiliency.Integrations.FrameworkInference
import LmResiliency.Detection.FabricOrder
import LmResiliency.Detection.NvlinkErrors
import LmResiliency.Detection.HangRun
import LmResiliency.Detection.Temporal
import LmResiliency.FaultInjection.Windows
import LmResiliency.FaultInjection.Scoring
import LmResiliency.FaultInjection.AttemptRollback
import LmResiliency.Checkpointing.ExactRecovery
import LmResiliency.FaultInjection.ManifestRoundTrip
import LmResiliency.FaultInjection.StateRetirement
import LmResiliency.FaultInjection.SharedStore
import LmResiliency.FaultInjection.EffectRelease
