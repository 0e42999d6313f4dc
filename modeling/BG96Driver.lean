import BG96Driver.Basic
import BG96Driver.Lib.History
import BG96Driver.Lib.Monitor
import BG96Driver.Lib.Linked
import BG96Driver.Lib.Program
import BG96Driver.Socket.Records
import BG96Driver.Socket.Slot
import BG96Driver.Socket.Interface
import BG96Driver.Socket.Replay
import BG96Driver.Socket.Schedule
import BG96Driver.Socket.Transmit
import BG96Driver.Socket.Receive
import BG96Driver.Socket.Reentry
import BG96Driver.Socket.Timeout
import BG96Driver.Socket.Reuse
import BG96Driver.Mqtt.Topic
import BG96Driver.Mqtt.Sublist
import BG96Driver.Mqtt.Client
import BG96Driver.Modem.Parser
import BG96Driver.Modem.Network
import BG96Driver.Modem.Files
import BG96Driver.Modem.Broker
import BG96Driver.Modem.Operation
import BG96Driver.Modem.Lock
import BG96Driver.Modem.Channel
import BG96Driver.Modem.Verdict
import BG96Driver.Modem.SendFile
import BG96Driver.Modem.Sequence
import BG96Driver.File.Implementation
import BG96Driver.Lib.Walk
import BG96Driver.Socket.Link
import BG96Driver.Socket.Pool
import BG96Driver.Network.Interface
import BG96Driver.Network.Power
import BG96Driver.Network.Status
import BG96Driver.Tls.Credentials
import BG96Driver.File.Error
import BG96Driver.Lib.Scanf
import BG96Driver.Modem.Serial
import BG96Driver.Modem.Transfer
import BG96Driver.File.RoundTrip
import BG96Driver.File.Access
import BG96Driver.Mqtt.Inbox
import BG96Driver.Socket.Carried
import BG96Driver.Socket.Datagram
import BG96Driver.Lib.Trace
import BG96Driver.Modem.Exchange
import BG96Driver.Tls.RootCa
import BG96Driver.Tls.Session
import BG96Driver.Modem.Sending
import BG96Driver.Socket.Deadline
import BG96Driver.Modem.Receiving
import BG96Driver.Modem.Draining
import BG96Driver.Network.Resolve
import BG96Driver.Modem.Uploading
import BG96Driver.Modem.Sizes
import BG96Driver.Network.Attach
import BG96Driver.Lib.Calendar
import BG96Driver.Lib.Sscanf
import BG96Driver.Network.Time
import BG96Driver.Network.Context
import BG96Driver.Modem.Publishing
import BG96Driver.Mqtt.Session
import BG96Driver.Mqtt.Configuration
import BG96Driver.Lib.CString
import BG96Driver.Mqtt.Delivery
import BG96Driver.Mqtt.MessageIds
import BG96Driver.Mqtt.Shape
import BG96Driver.Tls.Sending
import BG96Driver.Tls.Receiving
import BG96Driver.Modem.Unframing
import BG96Driver.Lib.Threads
import BG96Driver.Tls.Timeout
import BG96Driver.File.Truncate
import BG96Driver.Network.Location
import BG96Driver.Network.Fix
import BG96Driver.Mqtt.Worker
import BG96Driver.Mqtt.Rewriting
import BG96Driver.Mqtt.Removal
import BG96Driver.Socket.PollTimer
import BG96Driver.Lib.Printf
import BG96Driver.Modem.Printing
import BG96Driver.Modem.Quoting
import BG96Driver.Modem.Commands
import BG96Driver.Lib.Mutex
import BG96Driver.Modem.Exclusion
import BG96Driver.Lib.FileStore
import BG96Driver.File.Serving
import BG96Driver.File.Client
import BG96Driver.File.Refinement
import BG96Driver.Lib.Linear
import BG96Driver.Lib.Streams
import BG96Driver.Modem.Sockets
import BG96Driver.Modem.Connections
import BG96Driver.Modem.Streaming
