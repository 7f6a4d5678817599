import Redisson.AddressedMachines
import Redisson.AtMostOnce
import Redisson.BatchBuffering
import Redisson.BroadcastLoops
import Redisson.CacheEviction
import Redisson.CachedBatch
import Redisson.CachedEval
import Redisson.CachingRegistry
import Redisson.CompleteResponses
import Redisson.Configuration
import Redisson.DeliveryCounts
import Redisson.DialogueLogic
import Redisson.DialogueTasks
import Redisson.DispatchLoops
import Redisson.Durability
import Redisson.EvalCalls
import Redisson.EvalDialogue
import Redisson.EvalTasks
import Redisson.GlobIndices
import Redisson.InfoFields
import Redisson.IsolatedBatch
import Redisson.IsolatedQueue
import Redisson.KeyspaceFidelity
import Redisson.ListenerIdentity
import Redisson.ListenerRemoval
import Redisson.LoadedScripts
import Redisson.LockEntry
import Redisson.MessageDelivery
import Redisson.NodeIsolation
import Redisson.NoscriptRecovery
import Redisson.OpenTransactions
import Redisson.OrderIndependence
import Redisson.PipelinedBatch
import Redisson.PubSubDelivery
import Redisson.RecentlyUsed
import Redisson.ReconnectLoop
import Redisson.RegistryAgreement
import Redisson.RenewalOrder
import Redisson.RepeatedEval
import Redisson.ReplicaReads
import Redisson.ReplyMatching
import Redisson.ResponseOrder
import Redisson.RoutingAgreement
import Redisson.RoutingFailure
import Redisson.ScriptCacheSoundness
import Redisson.ScriptCacheSystem
import Redisson.ServerTransactions
import Redisson.ShaRecency
import Redisson.SingleFlight
import Redisson.SingleSlotTransactions
import Redisson.SlaveInfoCache
import Redisson.StrandedCommands
import Redisson.SyncedAcknowledgement
import Redisson.SyncedEvalRace
import Redisson.SyncedPlan
import Redisson.TransactionIntegrity
import Redisson.UninterruptedPsubscribe
import Redisson.WaitSupportProbe
