import OtaPlatform.Engine.ReplayCounters
import OtaPlatform.Engine.StepProgress
import OtaPlatform.Executor.StatusCache
import OtaPlatform.Engine.Isolation
import OtaPlatform.Pgstore.MSISDNResolver
import OtaPlatform.Pgstore.MessageWriterPool
import OtaPlatform.Transport.Responses
import OtaPlatform.Engine.Numbering
import OtaPlatform.Engine.Finality
import OtaPlatform.Engine.Resumption
import OtaPlatform.Gsm0348.ResponseFraming
import OtaPlatform.Gsm0348.ChecksumInput
import OtaPlatform.Smsframe.Completion
import OtaPlatform.Smsframe.Splitting
import OtaPlatform.Pgstore.LastTransition
import OtaPlatform.Pgstore.Reservation
import OtaPlatform.Pgstore.BatchFailure
import OtaPlatform.Engine.Overlap
import OtaPlatform.Globalplatform.Install
import OtaPlatform.Planner.Publishing
import OtaPlatform.Controlplane.FirstStart
import OtaPlatform.Controlplane.ResetFailed
import OtaPlatform.Transport.TrackingMemory
import OtaPlatform.Pgstore.Shutdown
import OtaPlatform.Engine.Retries
import OtaPlatform.Engine.CacheLifetime
import OtaPlatform.Controlplane.Pagination
import OtaPlatform.Controlplane.Search
import OtaPlatform.Globalplatform.LoadFile
import OtaPlatform.Controlplane.TopicRaces
import OtaPlatform.Engine.OversizedPackets
import OtaPlatform.Gsm0348.RedundancyCheck
import OtaPlatform.Pgstore.CounterIndex
import OtaPlatform.Pgstore.ExecutionStore
import OtaPlatform.Transport.MultipartTrackers
import OtaPlatform.Executor.ShardedCache
import OtaPlatform.Pgstore.FallbackStatements
import OtaPlatform.Engine.Attribution
import OtaPlatform.Engine.Conservation
