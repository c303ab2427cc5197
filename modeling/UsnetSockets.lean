import UsnetSockets.Program.Outcome
import UsnetSockets.Transition.Run
import UsnetSockets.Resolve.Idna
import UsnetSockets.Resolve.Reader
import UsnetSockets.Resolve.Record
import UsnetSockets.Resolve.Message
import UsnetSockets.Resolve.NameWalk
import UsnetSockets.Resolve.ReaderLogic
import UsnetSockets.Resolve.DecodeOutcome
import UsnetSockets.Resolve.RdataOutcome
import UsnetSockets.Net.Addr
import UsnetSockets.Net.Smoltcp
import UsnetSockets.Net.StcpNet
import UsnetSockets.Net.System
import UsnetSockets.Net.Changes
import UsnetSockets.Net.Wakeup
import UsnetSockets.Net.Registry
import UsnetSockets.Net.Sleep
import UsnetSockets.Net.Notify
import UsnetSockets.Net.Device
import UsnetSockets.Net.UdpMode
import UsnetSockets.Net.Ledger
import UsnetSockets.Net.Ownership
import UsnetSockets.Net.Accept
import UsnetSockets.Locks.Threads
import UsnetSockets.Locks.Calls
import UsnetSockets.Locks.Deadlock
import UsnetSockets.Net.UdpReceive
import UsnetSockets.Resolve.NameFormat
import UsnetSockets.Resolve.RoundTrip
import UsnetSockets.Resolve.Resolver
import UsnetSockets.Net.Objects
import UsnetSockets.Net.Backlog
import UsnetSockets.Net.Ports
import UsnetSockets.Net.Handshake
import UsnetSockets.Net.Bind
import UsnetSockets.Net.UdpState
import UsnetSockets.Net.Timeouts
import UsnetSockets.Net.HopLimits
import UsnetSockets.Net.Ttl
import UsnetSockets.Resolve.Budget
import UsnetSockets.Resolve.ResolvConf
import UsnetSockets.Resolve.Search
import UsnetSockets.Resolve.Decompress
import UsnetSockets.Resolve.NameFraming
import UsnetSockets.Resolve.NameAccept
import UsnetSockets.Resolve.Rdata
import UsnetSockets.Net.StreamIo
import UsnetSockets.Net.Ring
import UsnetSockets.Net.StreamOrder
import UsnetSockets.Net.Evolution
import UsnetSockets.Net.StreamRuns
import UsnetSockets.Resolve.AddressName
import UsnetSockets.Resolve.Lookup
import UsnetSockets.Resolve.LookupRuns
import UsnetSockets.Resolve.Answers
import UsnetSockets.Resolve.Replies
import UsnetSockets.Resolve.Hosts
import UsnetSockets.Resolve.ToSocketAddrs
import UsnetSockets.Net.SingleRuns
