import Ebml.Proofs.Element.Closure
import Ebml.Proofs.Element.Writing

/-!
# How elements are read and written

Elements are read and written plainly, whatever comes of it (`Writer.Plain`, `Reader.Plain`).  So
are the parts of a cluster.  Only the cluster itself warns, notes that its blocks were located, or
fails because it is open or is not.

This is one of the properties that composition keeps (`Reader.closed_plain`, `Writer.closed_plain`).
-/

namespace Ebml

section Reading

open Reader (Plain closed_plain)

/-! ## Reading -/

theorem VarInt.plain_read : Plain read := closed_read closed_plain

theorem ElementId.plain_read : Plain read := closed_read closed_plain

theorem Element.plain_skipRest : Plain skipRest := closed_skipRest closed_plain

theorem ClusterBlock.plain_read (b : ClusterBlock) : Plain (Element.read b) :=
  Element.closed_read closed_plain fun _ size =>
    closed_readBody closed_plain Reader.Plain.body _ size

theorem ClusterMetadata.plain_readChild? (m : ClusterMetadata) (id : ElementId) :
    Plain (m.readChild? id) := m.closed_readChild? closed_plain id

theorem StreamingCluster.plain_locate (id : ElementId) : Plain (locate id) := by
  refine Reader.Plain.position.bind fun _ => VarInt.plain_read.bind fun ⟨size, _⟩ =>
    Reader.Plain.streamLength.bind fun _ => ?_
  dsimp only
  split
  next => exact (Reader.Plain.note rfl).bind fun _ => .throw_bind rfl
  next =>
    exact (ClusterBlock.closed_peekTimecode closed_plain id size).bind fun _ =>
      (Reader.Plain.seek _).bind fun _ => .pure _

end Reading

/-! ## Writing -/

open Writer (Plain closed_plain)

theorem BufferedCluster.plain_writeAt (c : BufferedCluster) (start : Nat) :
    Plain (c.writeAt start) := c.closed_writeAt closed_plain start

namespace StreamingCluster

theorem plain_writeHead (c : StreamingCluster) : Plain c.writeHead :=
  c.closed_writeHead closed_plain

theorem plain_pushAt (expected : Nat) (block : ClusterBlock) : Plain (pushAt expected block) :=
  closed_pushAt closed_plain expected block

theorem plain_fillSize (state : OpenState) (sizeLength : Nat) :
    Plain (fillSize state sizeLength) := closed_fillSize closed_plain state sizeLength

end StreamingCluster

end Ebml
