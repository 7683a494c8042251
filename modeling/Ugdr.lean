import Ugdr.Foundation.Execution
import Ugdr.Foundation.Machine
import Ugdr.Errno
import Ugdr.Control.ObjectIdentity
import Ugdr.Control.ObjectRegistry
import Ugdr.Control.RegistryEntries
import Ugdr.Control.RegistryHistory
import Ugdr.Queue.SharedRing
import Ugdr.Queue.RingInterleaving
import Ugdr.Queue.RingEndpoint
import Ugdr.Queue.RingInvariant
import Ugdr.Queue.RingCalls
import Ugdr.Foundation.Memory
import Ugdr.Foundation.Bytes
import Ugdr.Queue.Descriptors
import Ugdr.Control.Messages
import Ugdr.Control.Service
import Ugdr.Control.QpHandlers
import Ugdr.Foundation.References
import Ugdr.Control.ObjectGraph
import Ugdr.Control.ServiceInvariant
import Ugdr.Control.ServiceRuns
import Ugdr.Control.RequestEffects
import Ugdr.Control.QpTransitions
import Ugdr.Control.RecordOrigin
import Ugdr.Control.KeyResolution
import Ugdr.Control.QpStates
import Ugdr.Control.Numbering
import Ugdr.Control.KeyAuthority
import Ugdr.Foundation.Ownership
import Ugdr.Control.MappingOwnership
import Ugdr.Foundation.Checked
import Ugdr.Ipc.Client
import Ugdr.Ipc.Protocol
import Ugdr.Ipc.Server
import Ugdr.Ipc.Sessions
import Ugdr.Control.ControlIpc
import Ugdr.Control.ControlClient
import Ugdr.Control.ClientRequests
import Ugdr.Api.ClientRuntime
import Ugdr.Api.Epochs
import Ugdr.Api.CachedState
import Ugdr.Control.IpcAdapter
import Ugdr.Control.WireFormat
import Ugdr.Control.Understanding
import Ugdr.Control.Isolation
import Ugdr.Control.SessionContract
import Ugdr.Control.SharedDaemon
import Ugdr.Control.ClientEffects
import Ugdr.Queue.Fifo
import Ugdr.Queue.HostilePeer
import Ugdr.Worker.Datagram
import Ugdr.Worker.LoopWorker
import Ugdr.Foundation.Trace
import Ugdr.Worker.Splitting
import Ugdr.Worker.Transitions
import Ugdr.Worker.Refinement
import Ugdr.Worker.History
import Ugdr.Worker.SendAccounting
import Ugdr.Worker.Conservation
import Ugdr.Worker.Position
import Ugdr.Worker.Agreement
import Ugdr.Worker.Wraparound
import Ugdr.Worker.ReceiveLedger
import Ugdr.Worker.ReceiveSteps
import Ugdr.Worker.ReceiveMatching
import Ugdr.Worker.ReceiveConservation
import Ugdr.Worker.HostileSlot
import Ugdr.Api.WrPosting
import Ugdr.Api.PostChain
import Ugdr.Api.SlotContents
import Ugdr.Api.PostedPrefix
import Ugdr.Worker.SlotContainment
import Ugdr.Worker.SendCompletion
import Ugdr.Worker.CopyProgress
import Ugdr.Worker.CopyInvariant
import Ugdr.Worker.CopyBeforeSuccess
import Ugdr.Foundation.Answers
import Ugdr.Worker.CompletionOrder
import Ugdr.Worker.ProgressOnce
import Ugdr.Worker.Daemon
import Ugdr.Worker.Authority
import Ugdr.Worker.Deregistration
import Ugdr.Foundation.SlotTable
import Ugdr.Gpu.CopyHost
import Ugdr.Gpu.ContextTable
import Ugdr.Gpu.ContextMoves
import Ugdr.Gpu.HostOperations
import Ugdr.Gpu.CopyBackend
import Ugdr.Gpu.CopyLedger
import Ugdr.Gpu.Publication
import Ugdr.Gpu.BackendSteps
import Ugdr.Gpu.BackendRefinement
import Ugdr.Gpu.BackendCalls
import Ugdr.Gpu.BackendRuns
import Ugdr.Gpu.CallReports
import Ugdr.Gpu.Lifecycle
import Ugdr.Gpu.StopDiscipline
import Ugdr.Gpu.Backpressure
import Ugdr.Gpu.DirectAtomic
import Ugdr.Gpu.DirectAtomicInvariant
import Ugdr.Gpu.DirectAtomicRuns
import Ugdr.Foundation.Codec
import Ugdr.Control.PayloadCodecs
import Ugdr.Foundation.Fields
import Ugdr.Control.PayloadFormat
import Ugdr.Control.PayloadAgreement
import Ugdr.Control.DeviceList
import Ugdr.Worker.ZeroLength
import Ugdr.Worker.Delivery
import Ugdr.Worker.ParentResult
import Ugdr.Worker.ResponderCalls
import Ugdr.Worker.ResponderInvariant
import Ugdr.Worker.ResponderSound
import Ugdr.Worker.ResponderHead
import Ugdr.Worker.ResponderLiveness
import Ugdr.Worker.NoWedge
import Ugdr.Queue.SlotIndex
import Ugdr.Foundation.Halting
import Ugdr.Foundation.Lanes
import Ugdr.Gpu.WarpCopy
import Ugdr.Gpu.WarpCopyExact
import Ugdr.Worker.Termination
import Ugdr.Foundation.RingLog
import Ugdr.Gpu.DeviceQueues
import Ugdr.Gpu.StaticPartition
import Ugdr.Gpu.StaticPartitionInvariant
import Ugdr.Gpu.StaticPartitionRuns
import Ugdr.Foundation.Handshake
import Ugdr.Gpu.WarpSpecializedQueue
import Ugdr.Gpu.Pipeline
import Ugdr.Gpu.PipelineInvariant
import Ugdr.Gpu.PipelineSteps
import Ugdr.Gpu.PipelineWarps
import Ugdr.Gpu.PipelineEgress
import Ugdr.Gpu.PipelineRuns
import Ugdr.Foundation.LaneLogs
import Ugdr.Gpu.DynamicSharded
import Ugdr.Gpu.ShardedLane
import Ugdr.Gpu.DynamicShardedInvariant
import Ugdr.Gpu.DynamicShardedRuns
import Ugdr.Foundation.Workload
import Ugdr.Gpu.StaticPartitionProgress
import Ugdr.Gpu.DynamicShardedProgress
import Ugdr.Gpu.PipelineWork
import Ugdr.Gpu.PipelineProgress
import Ugdr.Foundation.SequencedSlots
import Ugdr.Gpu.WarpSpecializedKernel
import Ugdr.Gpu.WarpSpecializedKernelInvariant
import Ugdr.Gpu.WarpSpecializedKernelSteps
import Ugdr.Gpu.WarpSpecializedKernelWarps
import Ugdr.Gpu.WarpSpecializedKernelEgress
import Ugdr.Gpu.WarpSpecializedKernelRuns
import Ugdr.Gpu.WarpSpecializedKernelExits
import Ugdr.Gpu.WarpSpecializedKernelWork
import Ugdr.Gpu.WarpSpecializedKernelProgress
