import LiberaLink.Lib.Buckets
import LiberaLink.Lib.Lines
import LiberaLink.Lib.Numeric
import LiberaLink.Lib.Prog
import LiberaLink.Lib.Reach
import LiberaLink.Lib.Rely
import LiberaLink.Lib.Parallel
import LiberaLink.Lib.Scan
import LiberaLink.Lib.Shell
import LiberaLink.Lib.Typestate
import LiberaLink.Lib.Weave
import LiberaLink.Runtime.Types
import LiberaLink.Runtime.Hosts
import LiberaLink.Runtime.Tracks
import LiberaLink.Runtime.Groups
import LiberaLink.Runtime.Update
import LiberaLink.Runtime.UpdateInv
import LiberaLink.Runtime.Impl
import LiberaLink.Runtime.Start
import LiberaLink.Runtime.Quiet
import LiberaLink.Runtime.Rules
import LiberaLink.Runtime.Outcome
import LiberaLink.Runtime.Runs
import LiberaLink.Runtime.Lifecycle
import LiberaLink.Runtime.UpdateFrame
import LiberaLink.Runtime.Exclusive
import LiberaLink.Runtime.Overlaps
import LiberaLink.Runtime.Restart
import LiberaLink.Runtime.StartAll
import LiberaLink.Runtime.Request
import LiberaLink.Sink.Types
import LiberaLink.Sink.Options
import LiberaLink.Runtime.CommandLine
import LiberaLink.Protocol.Records
import LiberaLink.Protocol.Server
import LiberaLink.Protocol.Ownership
import LiberaLink.Protocol.Options
import LiberaLink.Protocol.Session
import LiberaLink.Protocol.Frames
import LiberaLink.Protocol.BeginTimes
import LiberaLink.Protocol.Host
import LiberaLink.Target.State
import LiberaLink.Target.Operations
import LiberaLink.Target.Calls
import LiberaLink.Target.Accounts
import LiberaLink.Target.Limits
import LiberaLink.Target.Dark
import LiberaLink.Target.Fill
import LiberaLink.Target.Replace
import LiberaLink.Target.Trim
import LiberaLink.Target.Latency
import LiberaLink.Target.Rates
import LiberaLink.Target.Refusals
import LiberaLink.Idn.Driver
import LiberaLink.Idn.Decoder
import LiberaLink.Idn.TaxiBuffer
import LiberaLink.Idn.Chunks
import LiberaLink.Idn.AdapterQueue
import LiberaLink.Idn.QueueServer
import LiberaLink.Idn.QueueAdapter
import LiberaLink.Idn.Inlets
import LiberaLink.Idn.Service
import LiberaLink.Idn.Custody
import LiberaLink.Idn.Reassembly
import LiberaLink.Idn.Chronology
import LiberaLink.Idn.Session
import LiberaLink.Idn.Server
import LiberaLink.Idn.Leases
import LiberaLink.Idn.Floor
import LiberaLink.Idn.ServerRuns
import LiberaLink.Idn.Faults
import LiberaLink.Idn.Slices
import LiberaLink.Idn.Waves
import LiberaLink.Idn.Dropping
import LiberaLink.Idn.Host
import LiberaLink.Avb.Settings
import LiberaLink.Avb.RoundTrip
import LiberaLink.EtherDream.Options
import LiberaLink.EtherDream.Device
import LiberaLink.EtherDream.Playback
import LiberaLink.EtherDream.Invariants
import LiberaLink.EtherDream.Stream
import LiberaLink.EtherDream.Timing
import LiberaLink.EtherDream.Pacing
import LiberaLink.EtherDream.Wire
import LiberaLink.EtherDream.Threads
import LiberaLink.EtherDream.Shutdown
import LiberaLink.EtherDream.Aliases
import LiberaLink.EtherDream.Subnet
import LiberaLink.EtherDream.Host
import LiberaLink.Sink.HostOptions
import LiberaLink.Sink.Numerals
import LiberaLink.Gui.SettingsFiles
import LiberaLink.Gui.FrameLoop
import LiberaLink.Gui.OneTask
import LiberaLink.Gui.Tasks
import LiberaLink.Gui.Rescan
import LiberaLink.EtherDream.Commands
