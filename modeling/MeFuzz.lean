import MeFuzz.AdviceOrder
import MeFuzz.AliasSampling
import MeFuzz.AsanSessions
import MeFuzz.CachedOnDiskTransparency
import MeFuzz.CalibrationRuns
import MeFuzz.Colorization
import MeFuzz.ComparisonLog
import MeFuzz.ComposedNovelties
import MeFuzz.ConcolicMutations
import MeFuzz.ConcolicSurvival
import MeFuzz.CorpusIdIterator
import MeFuzz.CurrentEntryLaws
import MeFuzz.CustomEvents
import MeFuzz.DictionaryFiles
import MeFuzz.DirectorySync
import MeFuzz.EncodedSafety
import MeFuzz.EvaluatorReply
import MeFuzz.FileNames
import MeFuzz.ForkserverLockstep
import MeFuzz.HavocSafety
import MeFuzz.Hitcounts
import MeFuzz.InfoDbConsistency
import MeFuzz.InfoDbFailedWrites
import MeFuzz.InfoDbHistory
import MeFuzz.InfoDbSeedPool
import MeFuzz.LlmpBroadcast
import MeFuzz.LlmpBrokerStops
import MeFuzz.LlmpClientChannel
import MeFuzz.LlmpForwarding
import MeFuzz.LlmpMasterProxy
import MeFuzz.LlmpResume
import MeFuzz.MOptDistribution
import MeFuzz.MOptFloats
import MeFuzz.MapHashing
import MeFuzz.MasterRouting
import MeFuzz.MinimizedCoverage
import MeFuzz.MinimizerBest
import MeFuzz.MinimizerTables
import MeFuzz.MultiMaps
import MeFuzz.PowerScore
import MeFuzz.PowersOfTwo
import MeFuzz.ProbabilitySampling
import MeFuzz.PushStageProtocol
import MeFuzz.RandStates
import MeFuzz.SchedulerStatistics
import MeFuzz.SeedOrder
import MeFuzz.ShMemServerRuns
import MeFuzz.ShmemTestcases
import MeFuzz.SkippedMutations
import MeFuzz.SnapshotMaps
import MeFuzz.StateRestorerPairs
import MeFuzz.StringReplacement
import MeFuzz.SyncExactlyOnce
import MeFuzz.TMinLimit
import MeFuzz.TcpClient
import MeFuzz.TcpSetup
import MeFuzz.TestcaseLength
import MeFuzz.TestcaseWire
import MeFuzz.TokenEncoding
import MeFuzz.TuneableScheduling
import MeFuzz.TuneableTuning
import MeFuzz.UnbiasedDraws
import MeFuzz.WeightedCycles
