import Oflops.ActionDelay.AppendAction
import Oflops.ActionDelay.Init
import Oflops.AddFlow.Completion
import Oflops.AddFlow.Init
import Oflops.Cbench.Dialogue
import Oflops.Cbench.GetCount
import Oflops.Cbench.HandleRead
import Oflops.Cbench.Hearing
import Oflops.Cbench.MacRotation
import Oflops.Cbench.Probes
import Oflops.Cbench.Protocol
import Oflops.Cbench.Results
import Oflops.Cbench.RunTest
import Oflops.Cbench.Session
import Oflops.Cbench.Stall
import Oflops.Cbench.StartDelay
import Oflops.Cbench.Switch
import Oflops.EchoDelay.Module
import Oflops.EchoDelay.Summary
import Oflops.FlowStats.Conversation
import Oflops.FlowStats.Replies
import Oflops.FlowStats.Summary
import Oflops.FlowStats.Sweep
import Oflops.FlowTimer.Rules
import Oflops.Harness.CModuleParams
import Oflops.Harness.CallOrder
import Oflops.Harness.Callbacks
import Oflops.Harness.ConfigFile
import Oflops.Harness.EchoReply
import Oflops.Harness.Lifecycle
import Oflops.Harness.ModuleArgs
import Oflops.Harness.ObjectId
import Oflops.Harness.ParamLoop
import Oflops.Harness.ParamTokens
import Oflops.Harness.Polling
import Oflops.Insertion.Arrivals
import Oflops.Insertion.TrafficRanges
import Oflops.Lib.ArrayFill
import Oflops.Lib.BinaryHeap
import Oflops.Lib.Blocks
import Oflops.Lib.Bytes
import Oflops.Lib.CString
import Oflops.Lib.Coverage
import Oflops.Lib.Fifo
import Oflops.Lib.Float32
import Oflops.Lib.FloatRounding
import Oflops.Lib.Framing
import Oflops.Lib.Loop
import Oflops.Lib.Machine
import Oflops.Lib.MachineInt
import Oflops.Lib.Memory
import Oflops.Lib.OnesComplement
import Oflops.Lib.Pairing
import Oflops.Lib.Record
import Oflops.Lib.ReflectedWalk
import Oflops.Lib.RingBuffer
import Oflops.Lib.RunningBounds
import Oflops.Lib.Schedule
import Oflops.Lib.Segments
import Oflops.Lib.Slots
import Oflops.Lib.Threads
import Oflops.ModFlow.Completion
import Oflops.NetFpga.Accounting
import Oflops.NetFpga.Loading
import Oflops.NetFpga.Partition
import Oflops.NetFpga.PktGen
import Oflops.NetFpga.RateLimiter
import Oflops.Openflow.FlowMod
import Oflops.Openflow.Matching
import Oflops.Openflow.Rules
import Oflops.Openflow.StatsRequest
import Oflops.PacketIn.Loss
import Oflops.PacketIn.Module
import Oflops.PacketInOut.Module
import Oflops.PacketInOut.Relay
import Oflops.PacketOut.Module
import Oflops.PacketOut.Pacing
import Oflops.PacketOut.SendChain
import Oflops.QueueDelay.Module
import Oflops.Reactive.Answer
import Oflops.Reactive.ControlLoop
import Oflops.Reactive.Module
import Oflops.Stream.Buffer
import Oflops.Stream.Fifo
import Oflops.Stream.Growth
import Oflops.Stream.WriteAll
import Oflops.Time
import Oflops.Timer.Checked
import Oflops.Timer.Deadline
import Oflops.Timer.Dispatch
import Oflops.Timer.EventLoop
import Oflops.Timer.Queue
import Oflops.Timer.Refinement
import Oflops.Timer.TimerMap
import Oflops.Track.Lookup
import Oflops.Track.Splitting
import Oflops.Track.Tracker
import Oflops.Traffic.Capture
import Oflops.Traffic.CardGenerator
import Oflops.Traffic.CardSchedule
import Oflops.Traffic.Checksum
import Oflops.Traffic.Construction
import Oflops.Traffic.Decode
import Oflops.Traffic.Due
import Oflops.Traffic.Flows
import Oflops.Traffic.Packet
import Oflops.Traffic.PktgenReport
import Oflops.Traffic.RoundTrip
import Oflops.Traffic.Schedule
import Oflops.Traffic.Timestamps
import Oflops.Traffic.UserLoop
import Oflops.Traffic.Wire
