import MediaExchange.Library.LabelledRun
import MediaExchange.Library.RingWindow
import MediaExchange.Status
import MediaExchange.DiscreteFlow
import MediaExchange.DiscreteWriterRuns
import MediaExchange.DiscreteReaderWindow
import MediaExchange.ContinuousFlow
import MediaExchange.ContinuousSync
import MediaExchange.ContinuousRoundTrip
import MediaExchange.CommitRequiresOpen
import MediaExchange.ContinuousWindows
import MediaExchange.DiscreteInterleaving
import MediaExchange.NoLostWakeup
import MediaExchange.FlowSynchronizationGroup
import MediaExchange.PublishedBeforeObserved
import MediaExchange.SyncGroupMembership
import MediaExchange.SyncGroupReady
import MediaExchange.Library.Tiling
import MediaExchange.ProgressiveWriting
import MediaExchange.FlowParser
import MediaExchange.FabricRegions
import MediaExchange.GrainEgress
import MediaExchange.RCInitiator
import MediaExchange.GrainTransfer
import MediaExchange.Library.ByteMemory
import MediaExchange.AudioBounceBuffer
import MediaExchange.SampleEgress
import MediaExchange.SampleRoundTrip
import MediaExchange.SampleTransfer
import MediaExchange.Library.FileLocks
import MediaExchange.FlowDomain
import MediaExchange.OpenFlowData
import MediaExchange.LiveWriters
import MediaExchange.GarbageCollection
import MediaExchange.LastRelease
import MediaExchange.ActivityProbes
import MediaExchange.Library.StraightLine
import MediaExchange.FlowCreation
import MediaExchange.CompleteFlow
import MediaExchange.FlowAgreement
import MediaExchange.LayoutMismatch
import MediaExchange.Library.OrderedMap
import MediaExchange.RDMInitiator
import MediaExchange.PendingCounter
import MediaExchange.InitiatorProgress
import MediaExchange.FinishedProgress
import MediaExchange.RemovedTargets
import MediaExchange.RCTarget
import MediaExchange.ShutdownCompletions
import MediaExchange.Library.MovedState
import MediaExchange.FailingSteps
import MediaExchange.CompletionDispatch
import MediaExchange.Library.BitStream
import MediaExchange.AncillaryData
import MediaExchange.AncillaryRoundTrip
import MediaExchange.AudioSink
import MediaExchange.GapFreeStream
import MediaExchange.CachedHandles
import MediaExchange.Library.NearestQuotient
import MediaExchange.IndexTimestamps
import MediaExchange.ReaderReferences
import MediaExchange.DomainWatcher
import MediaExchange.BlockingTimeout
import MediaExchange.GroupWrites
import MediaExchange.BounceBufferSafety
import MediaExchange.Library.MachineArithmetic
import MediaExchange.FlowSizing
import MediaExchange.UsableRing
import MediaExchange.ChannelMapping
import MediaExchange.BatchSizeHints
import MediaExchange.Library.FailingPrograms
import MediaExchange.AtomicCreation
import MediaExchange.PartialTransfers
import MediaExchange.ImmediateData
import MediaExchange.HeaderRegistrations
import MediaExchange.TargetInfoJson
import MediaExchange.Library.Words
import MediaExchange.InterleavedAudio
import MediaExchange.AudioSource
import MediaExchange.AudioTimestamps
import MediaExchange.CompleteGrain
import MediaExchange.LateBuffers
import MediaExchange.GrainSource
import MediaExchange.ClosingGrains
import MediaExchange.SampleWindowBounds
import MediaExchange.SlotGeometry
import MediaExchange.AncillaryProbe
import MediaExchange.Base64
import MediaExchange.TargetInfoExchange
import MediaExchange.DemoReplication
import MediaExchange.WatchEvents
import MediaExchange.Library.SeparatedRanges
import MediaExchange.LoopingSource
import MediaExchange.OwnedHandles
import MediaExchange.DefinitionText
import MediaExchange.SinkDefinitions
import MediaExchange.SinkDefinitions
import MediaExchange.DemoSamples
