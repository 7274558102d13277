import Ebml.Cluster.Buffered
import Ebml.Cluster.Iteration
import Ebml.Cluster.Streaming
import Ebml.Element.Void
import Ebml.ElementId.Assigned
import Ebml.Error.Inspect
import Ebml.Options
import Ebml.Proofs.Cluster.Agreement
import Ebml.Proofs.Cluster.Confinement
import Ebml.Proofs.Cluster.Modes
import Ebml.Proofs.Cluster.Openness
import Ebml.Proofs.Cluster.Order
import Ebml.Proofs.Cluster.Protocol
import Ebml.Proofs.Cluster.RoundTrip
import Ebml.Proofs.Consumption
import Ebml.Proofs.Element.RoundTrip
import Ebml.Proofs.Sizes
import Ebml.Proofs.Element.Validity
import Ebml.Proofs.Element.NormalForm
import Ebml.Proofs.Cluster.NormalForm
import Ebml.Proofs.Stream.Assignment
import Ebml.Proofs.Element.Atomicity
import Ebml.Proofs.Cluster.Extent
import Ebml.Proofs.Cluster.Failure
import Ebml.Proofs.Replacement
import Ebml.Proofs.Cluster.Editing
import Ebml.Proofs.Capacity
import Ebml.Proofs.Allocation
import Ebml.Proofs.Cluster.Numbering
import Ebml.Proofs.Cluster.Placeholder
import Ebml.Proofs.Cluster.Iteration
import Ebml.Proofs.Cluster.Refusal
import Ebml.Proofs.Cluster.Contents
import Ebml.Proofs.Words.Lacing
import Ebml.Proofs.Element.Tiling
import Ebml.Proofs.Void.RoundTrip
import Ebml.Proofs.Cluster.Offsets
import Ebml.Proofs.Void.Blanking
import Ebml.Proofs.ElementId.Coding
import Ebml.Proofs.Integer.Coding
import Ebml.Proofs.Codecs
import Ebml.Proofs.Lacing.RoundTrip
import Ebml.Proofs.Primitive.RoundTrip
