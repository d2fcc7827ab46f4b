import ResourceTuner.Core.Arbitration
import ResourceTuner.Core.ResourceHooks
import ResourceTuner.Common.ListOperations
import ResourceTuner.Core.PolicyOrder
import ResourceTuner.Core.HandleCache
import ResourceTuner.Common.SafeOps
import ResourceTuner.Common.ResourceInfo
import ResourceTuner.Wire.FlatBuffEncoder
import ResourceTuner.Core.DefaultAppliers
import ResourceTuner.Core.RequestHandler
import ResourceTuner.Core.Restoration
import ResourceTuner.Core.RequestTimers
import ResourceTuner.Core.CGroupPlacement
import ResourceTuner.Core.SlotIndices
import ResourceTuner.Core.CoreTargeting
import ResourceTuner.Signals.SignalHandler
import ResourceTuner.Signals.SignalBuilder
import ResourceTuner.Signals.RestuneParser
import ResourceTuner.Signals.SignalEntries
import ResourceTuner.Signals.EntryContents
import ResourceTuner.Signals.SignalGating
import ResourceTuner.Signals.SafeTuning
import ResourceTuner.Signals.Placeholders
import ResourceTuner.Core.RequestManager
import ResourceTuner.Core.HandleAgreement
import ResourceTuner.Server.Overtaking
import ResourceTuner.Server.Ownership
import ResourceTuner.Server.DeadClients
import ResourceTuner.Server.Orphans
import ResourceTuner.Server.BlockLedger
import ResourceTuner.Server.Suspend
import ResourceTuner.Server.ContextualClassifier
import ResourceTuner.Server.RateLimited
import ResourceTuner.Server.Retuning
import ResourceTuner.Core.Isolation
import ResourceTuner.Core.ClientTables
import ResourceTuner.Core.RateLimiter
import ResourceTuner.Core.GarbageCollector
import ResourceTuner.Common.PoolUsage
import ResourceTuner.Wire.SignalClient
import ResourceTuner.Signals.ExtFeatures
import ResourceTuner.Common.MessageProperties
import ResourceTuner.Wire.SignalSerialize
import ResourceTuner.Core.OnlineCpus
import ResourceTuner.Core.ClusterDiscovery
import ResourceTuner.Client.ClientCLI
import ResourceTuner.Common.ThreadPool
import ResourceTuner.Init.TargetLists
import ResourceTuner.Init.ResourceEntries
import ResourceTuner.Init.InitEntries
import ResourceTuner.Init.ParserSafety
import ResourceTuner.Lib.LastWrite
import ResourceTuner.Init.PropertiesParser
import ResourceTuner.Init.RestuneInit
import ResourceTuner.Lib.Simulation
import ResourceTuner.Server.Receiver
import ResourceTuner.Common.OrderedQueue
import ResourceTuner.Core.Extensions
import ResourceTuner.Core.Shutdown
import ResourceTuner.Client.Handles
import ResourceTuner.Core.TableLedger
import ResourceTuner.Server.TableCalls
import ResourceTuner.Server.Screening
import ResourceTuner.Server.TearDown
import ResourceTuner.Server.DeviceFiles
import ResourceTuner.Init.TargetParser
import ResourceTuner.Init.ConfigFiles
import ResourceTuner.Init.Registries
import ResourceTuner.Lib.DropOldest
import ResourceTuner.Server.ProcessFilter
import ResourceTuner.Server.PendingEvents
