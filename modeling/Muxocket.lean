import Muxocket.Datagram
import Muxocket.Coalesce
import Muxocket.Station
import Muxocket.Moves
import Muxocket.Operations
import Muxocket.Net
import Muxocket.Accounts
import Muxocket.Goods
import Muxocket.Balance
import Muxocket.Ledger
import Muxocket.Order
import Muxocket.Lib.Chunks
import Muxocket.Sending
import Muxocket.Acks
import Muxocket.Credit
import Muxocket.Readers
import Muxocket.RingBuffer
import Muxocket.Ownership
import Muxocket.Pushing
import Muxocket.Popping
import Muxocket.Rings
import Muxocket.Farewell
import Muxocket.Conveyance
import Muxocket.Calls
import Muxocket.Reading
import Muxocket.Integrity
import Muxocket.Handshake
import Muxocket.Resumption
import Muxocket.Ending
import Muxocket.Parting
import Muxocket.Completeness
import Muxocket.Table
import Muxocket.Filing
import Muxocket.Switching
import Muxocket.Shutdown
import Muxocket.Newest
import Muxocket.PacketListener
import Muxocket.Lib.RefCount
import Muxocket.References
import Muxocket.DelayedAck
import Muxocket.Finishing
import Muxocket.Lib.Ownership
import Muxocket.Buffers
import Muxocket.Custody
import Muxocket.Agreement
import Muxocket.Goroutines
import Muxocket.Waiting
import Muxocket.CreditWakeup
import Muxocket.PacketWakeup
import Muxocket.CreditSleep
import Muxocket.Lib.Intervals
import Muxocket.Reordering
import Muxocket.Negotiation
import Muxocket.Cutting
import Muxocket.Partition
import Muxocket.Packing
import Muxocket.Compaction
import Muxocket.ByteQueue
import Muxocket.RingQueue
import Muxocket.EarlyFrames
import Muxocket.Publishing
import Muxocket.EarlyOrder
import Muxocket.Labels
import Muxocket.Codecs
import Muxocket.Resets
import Muxocket.ResetReports
import Muxocket.Outstanding
