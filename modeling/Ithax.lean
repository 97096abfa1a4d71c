import Ithax.Lib.LittleEndian
import Ithax.Lib.Reader
import Ithax.Lib.ReaderRules
import Ithax.Lib.Compositional
import Ithax.Marshal.Value
import Ithax.Marshal.StringTable
import Ithax.Lib.Ieee
import Ithax.Marshal.Encode
import Ithax.Marshal.Decode
import Ithax.Marshal.DecoderWalk
import Ithax.Marshal.SelfDelimiting
import Ithax.Marshal.ValueArea
import Ithax.Marshal.RowLayout
import Ithax.Marshal.RowSafety
import Ithax.Marshal.Safety
import Ithax.Marshal.RowRoundTrip
import Ithax.Marshal.RoundTrip
import Ithax.Lib.Utf16
import Ithax.Marshal.WideString
import Ithax.Marshal.Encodable
import Ithax.Marshal.RowKinds
import Ithax.Marshal.RowRange
import Ithax.Marshal.RowSchema
import Ithax.Marshal.NormalForm
import Ithax.Lib.ReaderFilter
import Ithax.Marshal.Depth
import Ithax.Network.FrameStream
import Ithax.Network.FrameBuffer
import Ithax.Network.Duplex
import Ithax.Network.Injection
import Ithax.Lib.Exceptional
import Ithax.Network.HandshakeOrder
import Ithax.Network.PacketCodec
import Ithax.Network.PacketGrammar
import Ithax.Network.Connection
import Ithax.Network.Client
import Ithax.Network.Dispatcher
import Ithax.Network.Calls
import Ithax.Network.Sealed
import Ithax.Lib.Kahn
import Ithax.RenderGraph.Compile
import Ithax.RenderGraph.Hazard
import Ithax.RenderGraph.Culling
import Ithax.Lib.KeyedRun
import Ithax.RenderGraph.Layout
import Ithax.RenderGraph.PassOrder
import Ithax.RenderGraph.TopologicalOrder
import Ithax.RenderGraph.SelfHazard
import Ithax.RenderGraph.Lifetimes
import Ithax.Lib.KeyedLists
import Ithax.RenderGraph.Attachments
import Ithax.Ecs.World
import Ithax.Ecs.Tick
import Ithax.Ecs.Merge
import Ithax.Lib.Interleaving
import Ithax.Runtime.Supervisor
import Ithax.Runtime.Lifecycle
import Ithax.Runtime.Failures
import Ithax.Runtime.Tasks
import Ithax.Threading.FrameSlot
import Ithax.Threading.SlotRules
import Ithax.Threading.Lease
import Ithax.Threading.SlotLife
import Ithax.Threading.Token
import Ithax.Threading.Cancellation
import Ithax.Lib.RingBuffer
import Ithax.Lib.BoundedFifo
import Ithax.Threading.PacketChannel
import Ithax.Threading.ChannelFifo
import Ithax.Threading.FrameExchange
import Ithax.Threading.HandOff
import Ithax.Threading.Delivery
import Ithax.Threading.FrameOrder
import Ithax.Vulkan.Device
import Ithax.Vulkan.Frame
import Ithax.Vulkan.Spared
import Ithax.Vulkan.Swapchain
import Ithax.Vulkan.BeginFrame
import Ithax.Vulkan.FrameRecording
import Ithax.Lib.RunHistory
import Ithax.Vulkan.FrameSync
import Ithax.Vulkan.FenceWaits
import Ithax.Vulkan.Timeline
import Ithax.Vulkan.Deferred
import Ithax.Lib.OneEntryCache
import Ithax.Vulkan.RenderContext
import Ithax.Vulkan.RecordingUse
import Ithax.Vulkan.PipelineCache
import Ithax.Vulkan.PipelineLifetime
import Ithax.Network.Loopback
import Ithax.Network.LinkCalls
import Ithax.Network.Generations
import Ithax.Network.StalePackets
import Ithax.Network.MalformedInput
import Ithax.Network.AtomicSends
import Ithax.RenderGraph.Recorder
import Ithax.Vulkan.AcquireSemaphores
import Ithax.Lib.ResourceLedger
import Ithax.Vulkan.SwapchainHandles
import Ithax.Lib.Arena
import Ithax.Lib.Watched
import Ithax.Threading.ScratchAllocator
import Ithax.Lib.Headroom
import Ithax.Runtime.ThreadBudget
import Ithax.Lib.Retry
import Ithax.Network.SessionSteps
import Ithax.Network.Reconnect
import Ithax.Lib.Truncated
import Ithax.Lib.PitchedRows
import Ithax.Vulkan.PixelFormat
import Ithax.Vulkan.TextureUpload
import Ithax.Vulkan.Buffer
import Ithax.Lib.ScopedCell
import Ithax.Vulkan.RenderTargets
import Ithax.Lib.FairTurns
import Ithax.Threading.ExchangeTurns
import Ithax.Threading.ExchangeProgress
import Ithax.Threading.Coordination
import Ithax.Threading.CoordinationBoard
import Ithax.Threading.CoordinationFlags
import Ithax.Threading.CoordinationOrder
import Ithax.Threading.CoordinationTicks
import Ithax.Threading.CoordinationRuns
import Ithax.Threading.CoordinationProgress
import Ithax.Threading.CoordinationHealth
import Ithax.Threading.CoordinationSession
import Ithax.Ecs.Integration
import Ithax.Runtime.Returns
import Ithax.Network.Conversation
