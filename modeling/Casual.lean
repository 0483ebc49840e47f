import Casual.Lib.Run
import Casual.Common.Algorithm
import Casual.Communication.Message
import Casual.Communication.Reassembly
import Casual.Communication.OutOfOrder
import Casual.Communication.Device
import Casual.Communication.Course
import Casual.Communication.Delivery
import Casual.Lib.Table
import Casual.Lib.Multimap
import Casual.Archive.Ini
import Casual.Common.Transaction
import Casual.Queue.Message
import Casual.Queue.Database
import Casual.Queue.Triggers
import Casual.Queue.Statements
import Casual.Lib.Triple
import Casual.Queue.Operations
import Casual.Queue.Statistics
import Casual.Queue.Transactions
import Casual.Queue.Pending
import Casual.Queue.Handle
import Casual.Queue.Waiting
import Casual.Queue.WakeUp
import Casual.Queue.HandOut
import Casual.Queue.Failing
import Casual.Queue.Available
import Casual.Queue.Caller
import Casual.Queue.Interrupted
import Casual.Queue.Broker
import Casual.Queue.Forwarder
import Casual.Queue.Settled
import Casual.Queue.Forwarding
import Casual.Queue.Reopen
import Casual.Queue.Rounds
import Casual.Queue.Answering
import Casual.Manager.State
import Casual.Manager.Handle
import Casual.Manager.Life
import Casual.Manager.View
import Casual.Manager.Sending
import Casual.Manager.ReplyOrder
import Casual.Manager.Pending
import Casual.Manager.Rejected
import Casual.Manager.Lives
import Casual.Manager.Outcome
import Casual.Manager.Tellings
import Casual.Manager.Proxies
import Casual.Lib.Bytes
import Casual.Lib.Decimal
import Casual.Common.Marshal
import Casual.Common.Xid
import Casual.Common.Transcode
import Casual.Common.Environment
import Casual.Common.Arguments
import Casual.Manager.Spawned
import Casual.Manager.Merged
import Casual.Manager.Scaling
import Casual.Manager.Scaled
import Casual.Archive.Lines
import Casual.Field.Buffer
import Casual.Field.Index
import Casual.Field.Fields
import Casual.Field.Iterate
import Casual.Field.Failing
import Casual.Lib.StableSort
import Casual.Broker.State
import Casual.Broker.BootOrder
import Casual.Broker.Batches
import Casual.Broker.Handle
import Casual.Broker.Links
import Casual.Broker.References
import Casual.Broker.Deaths
import Casual.Broker.Sought
import Casual.Broker.Singletons
import Casual.Broker.Attended
import Casual.Broker.Routing
import Casual.Broker.Booked
import Casual.Broker.Conservation
import Casual.Communication.Alone
import Casual.Communication.Retry
import Casual.Communication.Sharing
import Casual.Communication.Pending
import Casual.Lib.Guard
import Casual.Lib.Loop
import Casual.Call.Transaction
import Casual.Call.State
import Casual.Call.Context
import Casual.Call.Effects
import Casual.Call.Descriptors
import Casual.Call.Traces
import Casual.Call.Deadline
import Casual.Call.Handles
import Casual.Server.State
import Casual.Server.Transaction
import Casual.Server.Handle
import Casual.Server.Ends
import Casual.Server.Answers
import Casual.Order.Buffer
import Casual.Order.Inside
import Casual.Pool.Holder
import Casual.Pool.Handles
import Casual.Process.Lifetime
import Casual.Process.Reaped
import Casual.Server.Dispatch
import Casual.Broker.Forward
import Casual.Tx.Stack
import Casual.Archive.Archive
import Casual.Archive.Json
import Casual.Archive.RoundTrip
import Casual.Archive.Streamed
import Casual.Archive.Binary
import Casual.Archive.Xml
import Casual.Archive.Blank
import Casual.Tx.Depth
import Casual.Tx.Resumed
import Casual.Queue.Returned
import Casual.Queue.Lookup
