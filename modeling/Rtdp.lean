import Rtdp.Core.Serialization.RoundTrip
import Rtdp.Core.Recovery.Failure
import Rtdp.Core.Recovery.Payloads
import Rtdp.Core.Delivery.Isolation
import Rtdp.Core.Delivery.Stall
import Rtdp.Core.Delivery.AtLeastOnce
import Rtdp.Core.Delivery.Selective
import Rtdp.Core.Delivery.Retirement
import Rtdp.Core.Delivery.Arithmetic
import Rtdp.Transport.StrictOrder
import Rtdp.Transport.GapFree
import Rtdp.Transport.Resync
import Rtdp.Transport.Flood
import Rtdp.Transport.Handover
import Rtdp.Core.Buffers.Pushes
import Rtdp.Transport.Packets
import Rtdp.Transport.Publisher
import Rtdp.Transport.Numbering
import Rtdp.Transport.Replay
import Rtdp.Transport.Datagrams
import Rtdp.Transport.Exchange
import Rtdp.Transport.Restart
import Rtdp.Transport.Paths
import Rtdp.Transport.Overflow
import Rtdp.Core.Serialization.Agreement
import Rtdp.Core.Serialization.Corruption
import Rtdp.Core.Serialization.MessageRules
import Rtdp.Core.Buffers.Replies
import Rtdp.Core.Buffers.Retention
import Rtdp.Core.Buffers.PushOrder
import Rtdp.Core.Buffers.Unavailable
import Rtdp.Core.Sequence.Window
import Rtdp.Core.Sequence.Gaps
import Rtdp.Core.Protocol.Reencoding
import Rtdp.Core.Delivery.Duplicates
import Rtdp.Core.Delivery.Latest
import Rtdp.Core.Recovery.Lifecycle
import Rtdp.Core.Recovery.Timeouts
import Rtdp.Core.Recovery.Responses
import Rtdp.Lib.Network
import Rtdp.Transport.Provenance
import Rtdp.Transport.Issued
import Rtdp.Transport.Readings
import Rtdp.Transport.System
import Rtdp.Transport.Completeness
import Rtdp.Transport.Convergence
import Rtdp.Transport.Recoverable
import Rtdp.CAbi.Calls
import Rtdp.Conformance.Runner
import Rtdp.Core.Delivery.InTurn
import Rtdp.Transport.Direct
import Rtdp.Transport.Unrecovered
import Rtdp.Transport.Delivered
import Rtdp.Transport.Repair
import Rtdp.Transport.Aftermath
import Rtdp.Core.Serialization.Listing
