import Protocore.Run
import Protocore.Bytes
import Protocore.Heap
import Protocore.StableQueue
import Protocore.MemoryPool
import Protocore.PoolLimits
import Protocore.Msg
import Protocore.MessageQueue
import Protocore.QueueRuns
import Protocore.QueueOrder
import Protocore.QueueWrap
import Protocore.TryDequeue
import Protocore.Stopping
import Protocore.Lifecycle
import Protocore.Broker
import Protocore.Subscribers
import Protocore.Broadcast
import Protocore.OrdMap
import Protocore.HeartBeat
import Protocore.FalsePositive
import Protocore.StateManager
import Protocore.Reported
import Protocore.UnresponsiveAction
import Protocore.Monitoring
import Protocore.Locks
import Protocore.LiveRegistration
import Protocore.RefGraph
import Protocore.Ownership
import Protocore.Locking
import Protocore.StateProtocol
import Protocore.Convergence
import Protocore.Wakeup
import Protocore.Unresponsive
import Protocore.Owed
import Protocore.Storm
import Protocore.Demand
import Protocore.DemandExact
import Protocore.Shutdown
import Protocore.Loop
import Protocore.MonitorLoops
import Protocore.TaskThreads
import Protocore.DemandCalls
import Protocore.Payloads
import Protocore.Logger
import Protocore.CondVar
import Protocore.Waiters
import Protocore.LogWakeup
import Protocore.Latency
import Protocore.StopReturns
import Protocore.HeartbeatFlow
import Protocore.PoolStack
import Protocore.Simulation
import Protocore.Network
import Protocore.LogFile
import Protocore.Settling
import Protocore.ShutdownReturns
import Protocore.Backlog
import Protocore.Pacing
import Protocore.Mailbox
import Protocore.Traffic
