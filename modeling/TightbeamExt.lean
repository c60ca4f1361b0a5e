import TightbeamExt.Base.Transition
import TightbeamExt.Base.Registers
import TightbeamExt.Base.Notify
import TightbeamExt.Base.Log
import TightbeamExt.Base.Table
import TightbeamExt.Base.Promise
import TightbeamExt.Base.Text
import TightbeamExt.Base.Tlv
import TightbeamExt.Base.Rounding
import TightbeamExt.Base.Lease
import TightbeamExt.Base.Simulation
import TightbeamExt.Base.Broadcast
import TightbeamExt.Base.Generator
import TightbeamExt.Base.TypeScript
import TightbeamExt.Base.Der
import TightbeamExt.Pubsub.Topic
import TightbeamExt.Pubsub.Lane
import TightbeamExt.Pubsub.Drain
import TightbeamExt.Pubsub.Balance
import TightbeamExt.Pubsub.Registry
import TightbeamExt.Pubsub.Dispatch
import TightbeamExt.Pubsub.Node
import TightbeamExt.Pubsub.Bound
import TightbeamExt.Pubsub.Quiesce
import TightbeamExt.Pubsub.Backplane
import TightbeamExt.Pubsub.FanOut
import TightbeamExt.Pubsub.Cluster
import TightbeamExt.Pubsub.Completion
import TightbeamExt.Pubsub.Density
import TightbeamExt.Pubsub.Flush
import TightbeamExt.Pubsub.Flushed
import TightbeamExt.Pubsub.Serving
import TightbeamExt.Pubsub.Authorize
import TightbeamExt.Pubsub.Standing
import TightbeamExt.Pubsub.Local
import TightbeamExt.Pubsub.Outcome
import TightbeamExt.Pubsub.Publish
import TightbeamExt.Pubsub.Agreement
import TightbeamExt.Pubsub.Taken
import TightbeamExt.Pubsub.Session
import TightbeamExt.Pubsub.Hub
import TightbeamExt.Client.Name
import TightbeamExt.Client.Gate
import TightbeamExt.Client.Revealed
import TightbeamExt.Client.Feed
import TightbeamExt.Client.Manager
import TightbeamExt.Client.Removal
import TightbeamExt.Client.Live
import TightbeamExt.Client.Membership
import TightbeamExt.Client.Settlement
import TightbeamExt.Client.Reattach
import TightbeamExt.Client.Channel
import TightbeamExt.Client.Fifo
import TightbeamExt.Client.Fence
import TightbeamExt.Client.Routing
import TightbeamExt.Asn.Js
import TightbeamExt.Asn.Codec
import TightbeamExt.Asn.RoundTrip
import TightbeamExt.Asn.Levels
import TightbeamExt.Asn.Declared
import TightbeamExt.Ws.Frame
import TightbeamExt.Ws.Splice
import TightbeamExt.Ws.Received
import TightbeamExt.Ws.Small
import TightbeamExt.Ws.Locality
import TightbeamExt.Ws.Algebra
import TightbeamExt.Ws.Preimage
import TightbeamExt.Ws.Builder
import TightbeamExt.Ws.Compose
import TightbeamExt.Ws.Envelope
import TightbeamExt.Ws.Commitment
import TightbeamExt.Ws.Zstd
import TightbeamExt.Ws.Streaming
import TightbeamExt.Ws.Duplex
import TightbeamExt.Ws.Chunks
import TightbeamExt.Ws.Serve
import TightbeamExt.Ws.Router
import TightbeamExt.Ws.Dial
import TightbeamExt.Ws.Wire
import TightbeamExt.Ws.Work
