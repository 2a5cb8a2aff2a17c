import Aether.Framing.UnknownExtension
import Aether.Stream.Interleaving
import Aether.Handshake.Honest
import Aether.Handshake.Network
import Aether.Handshake.Confirmation
import Aether.Handshake.Authentication
import Aether.Connection.Connection
import Aether.Connection.Endpoint
import Aether.Connection.Establishment
import Aether.Connection.Delivery
import Aether.Connection.Nonces
import Aether.Connection.Offsets
import Aether.Framing.Builders
import Aether.Handshake.Truncation
import Aether.Connection.Accept
import Aether.Handshake.Calls
import Aether.Handshake.Order
import Aether.Connection.Replay
import Aether.Stream.Windows
import Aether.Connection.FlowControl
import Aether.Handshake.ClientAuthentication
import Aether.Connection.Limits
import Aether.Stream.Accounting
import Aether.Stream.Table
import Aether.Stream.Allocation
import Aether.Stream.Fin
import Aether.Path.Validation
import Aether.Path.Activation
import Aether.Framing.Canonical
import Aether.Path.Count
import Aether.Handshake.Transcript
import Aether.Identity.Vault
import Aether.Identity.Manager
import Aether.Connection.Provenance
import Aether.Discovery.Message
import Aether.Discovery.Service
import Aether.Discovery.Cache
import Aether.Discovery.History
import Aether.Connection.Chunks
import Aether.Framing.Layout
import Aether.Framing.Checked
import Aether.Connection.Sizes
import Aether.Connection.Closing
import Aether.Stream.ReadLimit
import Aether.Stream.Writes
import Aether.Stream.Readable
import Aether.Connection.Readiness
import Aether.Congestion.Controller
import Aether.Congestion.Overflow
import Aether.Congestion.Estimators
import Aether.Congestion.Floor
import Aether.Discovery.Dht
import Aether.Identity.Preservation
import Aether.Path.Response
import Aether.Congestion.Phases
import Aether.Connection.Listener
import Aether.Discovery.Lan
import Aether.Path.Selection
import Aether.Demo.Completion
import Aether.Identity.Rotation
import Aether.Demo.Sharing
