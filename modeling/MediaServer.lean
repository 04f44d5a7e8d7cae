import MediaServer.Lib.Table
import MediaServer.Lib.Loop
import MediaServer.Lib.Trace
import MediaServer.Lib.Broker
import MediaServer.Lib.TxRing
import MediaServer.Lib.RxRing
import MediaServer.Lib.Commute
import MediaServer.Proofs.Teardown
import MediaServer.Proofs.Kinds
import MediaServer.Proofs.Noise
import MediaServer.Proofs.Requests
import MediaServer.Proofs.Inputs
import MediaServer.Proofs.Deadlock
import MediaServer.Proofs.Orphans
import MediaServer.Proofs.Routing
import MediaServer.Proofs.Media
import MediaServer.Proofs.Sending
import MediaServer.Proofs.Datagrams
import MediaServer.Proofs.Responses
import MediaServer.Proofs.Draining
import MediaServer.Proofs.Ending
import MediaServer.Proofs.MediaKinds
import MediaServer.Proofs.Translation
import MediaServer.Proofs.Deadlines
import MediaServer.Proofs.Lookup
import MediaServer.Proofs.Cycles
import MediaServer.Proofs.Queuing
import MediaServer.Proofs.Backends
import MediaServer.Proofs.Static
import MediaServer.Proofs.Channels
import MediaServer.Proofs.Orders
import MediaServer.Net.Socket2
import MediaServer.Proofs.Node
import MediaServer.Proofs.Packets
import MediaServer.Proofs.Intake
import MediaServer.Proofs.Discipline
import MediaServer.Front
import MediaServer.Proofs.Answers
import MediaServer.Proofs.Front
import MediaServer.Proofs.Clients
import MediaServer.Proofs.Fifo
import MediaServer.Proofs.Losses
import MediaServer.Proofs.Relay
import MediaServer.Proofs.Keyframes
import MediaServer.Proofs.Credentials
import MediaServer.Proofs.Lives
import MediaServer.Proofs.Alone
import MediaServer.Proofs.Fanout
import MediaServer.Proofs.Threads
import MediaServer.Lib.Laps
import MediaServer.Proofs.Prompt
import MediaServer.Proofs.Deaths
import MediaServer.Proofs.Delivery
import MediaServer.Lib.Footprint
import MediaServer.Proofs.Rearrange
