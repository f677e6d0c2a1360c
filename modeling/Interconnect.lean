import Interconnect.Network.Walk
import Interconnect.Number.ByteSize
import Interconnect.Proofs.Port.Operations
import Interconnect.Proofs.Routing.Alignment
import Interconnect.Router.Cycle
import Interconnect.Proofs.Port.Ledger
import Interconnect.Proofs.Geometry.Arc
import Interconnect.Proofs.Geometry.Grid
import Interconnect.Proofs.Network.Transit
import Interconnect.Proofs.Network.Guidance
import Interconnect.Proofs.Network.Deadlock
import Interconnect.Proofs.Network.Course
import Interconnect.Proofs.Network.Delivery
import Interconnect.Proofs.Router.Operations
import Interconnect.Proofs.Network.ShortestWays
import Interconnect.Proofs.Port.Ownership
import Interconnect.Proofs.Router.Ownership
import Interconnect.Proofs.Calendar
import Interconnect.Proofs.Port.Punctuality
import Interconnect.Proofs.Router.Punctuality
import Interconnect.Proofs.Agenda
import Interconnect.Proofs.Config.RoundTrip
import Interconnect.Proofs.Network.Escape
import Interconnect.Proofs.Network.SinglePath
import Interconnect.Proofs.Config.Grammar
import Interconnect.Proofs.Config.Spacing
import Interconnect.Proofs.Router.Safety
import Interconnect.Proofs.Port.Separation
import Interconnect.Proofs.Router.Separation
import Interconnect.Proofs.Network.RingWay
import Interconnect.Proofs.Network.MeshWay
import Interconnect.Proofs.Router.Acceptance
import Interconnect.Proofs.Port.Backlog
import Interconnect.Proofs.Port.Selection
import Interconnect.Proofs.Network.LeastLoaded
import Interconnect.Proofs.Config.Literal
import Interconnect.Proofs.Port.Pool
import Interconnect.Proofs.Routing.Fairness
import Interconnect.Proofs.Port.Credits
import Interconnect.Proofs.Port.Draining
import Interconnect.Proofs.Direction
import Interconnect.Proofs.Port.Functional
import Interconnect.Proofs.Router.Statistics
import Interconnect.Proofs.Routing.Counts
import Interconnect.Proofs.Network.Facing
import Interconnect.Proofs.Geometry.Numbering
