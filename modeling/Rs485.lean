import Rs485.Countdown
import Rs485.Mdev
import Rs485.Platform
import Rs485.Runs
import Rs485.Walk
import Rs485.Exchange
import Rs485.General
import Rs485.Modbus
import Rs485.Retries
import Rs485.Registry
import Rs485.Operations
import Rs485.Consistency
import Rs485.Binding
import Rs485.Queue
import Rs485.Delivery
import Rs485.Identity
import Rs485.Traffic
import Rs485.Blocks
import Rs485.Crc
import Rs485.Encoders
import Rs485.Frames
import Rs485.Handover
import Rs485.IdTable
import Rs485.Replies
import Rs485.Retransmission
import Rs485.Schedule
import Rs485.Naming
import Rs485.Shutdown
import Rs485.Ticking
import Rs485.Words
import Rs485.Daikin
import Rs485.Recall
import Rs485.Handshake
import Rs485.Gateways
import Rs485.Rebuilding
import Rs485.York
import Rs485.Requests
import Rs485.Temperatures
import Rs485.Admission
import Rs485.Rejection
import Rs485.Destruction
import Rs485.UnusedIds
import Rs485.IdRange
import Rs485.CurtainReplies
import Rs485.Measurements
import Rs485.Setters
import Rs485.Connections
import Rs485.Selection
import Rs485.Gathering
import Rs485.SetValues
import Rs485.ReadAccess
import Rs485.WriteOutcome
import Rs485.CurtainCommands
import Rs485.Profiles
import Rs485.BaudRate
import Rs485.Wlists
import Rs485.Iteration
import Rs485.Balance
import Rs485.Circular
import Rs485.Ringbuf
import Rs485.Atomic
import Rs485.RingbufSides
import Rs485.Tickets
import Rs485.MessageQueue
import Rs485.MessagePassing
import Rs485.MessageWaiting
import Rs485.ByteOrder
import Rs485.LinuxAtomic
import Rs485.ObjectList
import Rs485.WorkQueue
import Rs485.Workers
