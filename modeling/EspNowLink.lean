import EspNowLink.Codec.CompactPages
import EspNowLink.Codec.DefaultQuery
import EspNowLink.Codec.OwnFormats
import EspNowLink.Codec.PackedPaging
import EspNowLink.Codec.PagedFetch
import EspNowLink.Codec.PullDispatch
import EspNowLink.Codec.QueryFidelity
import EspNowLink.Codec.VarintPrimitives
import EspNowLink.Codec.Wrapped
import EspNowLink.Core.ErrorBursts
import EspNowLink.Core.PairRestore
import EspNowLink.Core.PairRestoreRuns
import EspNowLink.Core.PullTraffic
import EspNowLink.Core.ReceiveRuns
import EspNowLink.Core.UnpairManager
import EspNowLink.Descriptor.Decode
import EspNowLink.Descriptor.Encode
import EspNowLink.Descriptor.Layout
import EspNowLink.Descriptor.Pager
import EspNowLink.Descriptor.Pages
import EspNowLink.Descriptor.Query
import EspNowLink.Descriptor.ReadFields
import EspNowLink.Descriptor.RoundTrip
import EspNowLink.Framework.BoundedFifo
import EspNowLink.Framework.ContiguousPrefix
import EspNowLink.Framework.DedupWindow
import EspNowLink.Framework.Fitting
import EspNowLink.Framework.Format
import EspNowLink.Framework.LastWrites
import EspNowLink.Framework.PagedReading
import EspNowLink.Framework.Programs
import EspNowLink.Framework.Runs
import EspNowLink.Management.AggregateRuns
import EspNowLink.Management.CommTestVerdict
import EspNowLink.Management.CoverageRanges
import EspNowLink.Management.LiveRuns
import EspNowLink.Management.RequestDeadlines
import EspNowLink.Management.StageExchange
import EspNowLink.Management.StagePacing
import EspNowLink.Management.StageSoundness
import EspNowLink.Ota.AckInvariant
import EspNowLink.Ota.AckPacing
import EspNowLink.Ota.ArchiveRuns
import EspNowLink.Ota.BeginFrame
import EspNowLink.Ota.ChunkCount
import EspNowLink.Ota.FinalizeTruth
import EspNowLink.Ota.Push
import EspNowLink.Ota.PushEvents
import EspNowLink.Ota.PushProgress
import EspNowLink.Ota.PushRetries
import EspNowLink.Ota.PushRun
import EspNowLink.Ota.PushSafety
import EspNowLink.Ota.PushSilence
import EspNowLink.Ota.StatusRoundTrip
import EspNowLink.Ota.StatusTruth
import EspNowLink.Ota.Versions
import EspNowLink.Pairing.AbortedRuns
import EspNowLink.Pairing.ControlFrames
import EspNowLink.Pairing.EngineSteps
import EspNowLink.Pairing.FailedAttempts
import EspNowLink.Pairing.HandshakeCases
import EspNowLink.Pairing.KeyAgreement
import EspNowLink.Pairing.LinkInvariant
import EspNowLink.Pairing.PeerAuthenticity
import EspNowLink.Pairing.SwitchRuns
import EspNowLink.Platform.CacheRefinement
import EspNowLink.Platform.IndexUpdates
import EspNowLink.Platform.KeyCollisions
import EspNowLink.Platform.LogSoundness
import EspNowLink.Platform.PairDirectory
import EspNowLink.Platform.WorkingStore
import EspNowLink.Platform.WriteOutcomes
import EspNowLink.Runtime.PullAnswers
import EspNowLink.Runtime.SlaveControlPlane
import EspNowLink.Telemetry.Crossings
import EspNowLink.Telemetry.EventRuns
import EspNowLink.Telemetry.PushAtomicity
import EspNowLink.Telemetry.PushBlob
import EspNowLink.Telemetry.PushCommand
import EspNowLink.Telemetry.PushRestore
import EspNowLink.Topology.Blobs
import EspNowLink.Topology.KeyConsistency
import EspNowLink.Topology.SnapshotRuns
import EspNowLink.Topology.StageFailure
import EspNowLink.Topology.StageOrigins
import EspNowLink.Topology.StagePayload
import EspNowLink.Topology.StageRuns
import EspNowLink.Topology.TargetIndex
import EspNowLink.Topology.TriggerPayloads
import EspNowLink.Topology.TriggerRuns
import EspNowLink.Transport.PeerTable
