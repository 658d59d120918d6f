import MagxNet.Lib.Bytes
import MagxNet.Buf.Heap
import MagxNet.Ip.Dgram
import MagxNet.Ip.Frag
import MagxNet.Ip.Options
import MagxNet.Ip.FragRun
import MagxNet.Ip.Fragmentation
import MagxNet.Ip.DefragSpec
import MagxNet.Ip.Isolation
import MagxNet.Ip.Reassembly
import MagxNet.Ip.ReassemblyRun
import MagxNet.Ip.Arrivals
import MagxNet.Lib.Links
import MagxNet.Buf.Inv
import MagxNet.Buf.Pieces
import MagxNet.Buf.Free
import MagxNet.Buf.Take
import MagxNet.Buf.Alloc
import MagxNet.Buf.Reach
import MagxNet.Lib.Delta
import MagxNet.Timer.Timers
import MagxNet.Timer.Chain
import MagxNet.Timer.Run
import MagxNet.Lib.Callout
import MagxNet.Timer.Events
import MagxNet.Timer.Order
import MagxNet.Timer.Timeouts
import MagxNet.Timer.Expiry
import MagxNet.Lib.Serial
import MagxNet.Tcp.Queue
import MagxNet.Tcp.Accounting
import MagxNet.Tcp.State
import MagxNet.Tcp.Util
import MagxNet.Tcp.Out
import MagxNet.Tcp.Output
import MagxNet.Tcp.Sock
import MagxNet.Tcp.In
import MagxNet.Tcp.Input
import MagxNet.Tcp.Frame
import MagxNet.Tcp.Gate
import MagxNet.Tcp.Run
import MagxNet.Tcp.Ledger
import MagxNet.Tcp.LedgerOut
import MagxNet.Tcp.LedgerEvents
import MagxNet.Tcp.LedgerWrite
import MagxNet.Tcp.WindowUpdate
import MagxNet.Tcp.Handshake
import MagxNet.Tcp.Side
import MagxNet.Tcp.LedgerOutput
import MagxNet.Tcp.Moves
import MagxNet.Tcp.Opening
import MagxNet.Tcp.Books
import MagxNet.Tcp.Heard
import MagxNet.Tcp.OwnFin
import MagxNet.Tcp.Armed
import MagxNet.Tcp.Liveness
import MagxNet.Bpf.Filter
import MagxNet.Bpf.Safety
import MagxNet.Tcp.Demux
import MagxNet.Route.Table
import MagxNet.Route.Linked
import MagxNet.Route.Lookup
import MagxNet.Route.Ip
import MagxNet.Route.Input
import MagxNet.Route.Forward
import MagxNet.Route.Refs
import MagxNet.Route.Balance
import MagxNet.Masquerade.Table
import MagxNet.Masquerade.Input
import MagxNet.Masquerade.Records
import MagxNet.Masquerade.Isolation
import MagxNet.Masquerade.Sequence
import MagxNet.Masquerade.Acknowledged
import MagxNet.Buf.Contents
import MagxNet.Bpf.Capture
import MagxNet.Bpf.Records
import MagxNet.Bpf.Stream
import MagxNet.Bpf.Reading
import MagxNet.Lib.Circular
import MagxNet.Lib.Delimited
import MagxNet.Sld.Line
import MagxNet.Sld.Slip
import MagxNet.Sld.Ppp
import MagxNet.Sld.Reception
import MagxNet.Sld.Sending
import MagxNet.Sld.Drivers
import MagxNet.Sld.Transport
import MagxNet.Sld.Frames
import MagxNet.Sld.RoundTrip
import MagxNet.Sld.PppTrip
import MagxNet.Sld.Robust
import MagxNet.Icmp.Input
import MagxNet.Icmp.Isolation
import MagxNet.Lib.Buckets
import MagxNet.Arp.Cache
import MagxNet.Arp.Input
import MagxNet.Arp.Books
import MagxNet.Arp.Refs
import MagxNet.Arp.Packets
import MagxNet.Arp.Removal
import MagxNet.Arp.Timeout
import MagxNet.Arp.Lookup
import MagxNet.Arp.Update
import MagxNet.Arp.Calls
import MagxNet.Arp.Send
import MagxNet.Arp.Run
import MagxNet.Tcp.Standing
import MagxNet.Tcp.Stays
import MagxNet.Tcp.Callers
import MagxNet.Inet.Sockets
import MagxNet.Inet.Step
import MagxNet.Inet.Unique
import MagxNet.Inet.Associations
import MagxNet.Inet.Conflict
import MagxNet.Masquerade.Retry
import MagxNet.Masquerade.Expiry
import MagxNet.Lib.Singly
import MagxNet.Bpf.Release
import MagxNet.Tcp.Polling
import MagxNet.Ip.Strip
import MagxNet.Tcp.Options
import MagxNet.Tcp.Beyond
import MagxNet.Route.Redirect
import MagxNet.Gluestik.Arena
import MagxNet.Tcp.SendOrderRun
import MagxNet.Tcp.AimSteps
import MagxNet.Buf.Capacity
import MagxNet.Timer.Handles
import MagxNet.Iface.Serving
import MagxNet.Tcp.Backoff
import MagxNet.Chksum.Recheck
import MagxNet.Arp.Bounds
import MagxNet.Buf.Copies
import MagxNet.Icmp.Errors
import MagxNet.Tcp.SendCount
import MagxNet.Ip.GiveUp
import MagxNet.Tcp.Scatter
import MagxNet.Tcp.Coverage
import MagxNet.Gluestik.Contents
import MagxNet.Masquerade.Cursors
import MagxNet.Slip.Channels
import MagxNet.Gluestik.Handles
import MagxNet.Gluestik.ConfFile
import MagxNet.Sld.Vanjac
import MagxNet.Tcp.Received
import MagxNet.Resolv.Messages
import MagxNet.Udp.Order
