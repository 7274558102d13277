import Ebml.Proofs.Element.Closure
import Ebml.Proofs.Stream.Persistence

/-!
# A cluster in a stream that goes on

Whatever comes of reading a cluster into an index, it comes of it in every stream that goes on
after the end of the one, unless that one ran out, and then there are bytes with which it would not
have run out (`StreamingCluster.continues_read`).  The index is made without a body being read into
memory, so the length of the stream matters only to a block that lies past its end, and then the
reader has run out.

The children of a cluster may lead past the end of the cluster before that is noticed, and a block
is looked at without regard for its size.  This says that they may not lead past the end of the
stream.
-/

namespace Ebml

open Reader (Continues closed_continues)

namespace StreamingCluster

theorem continues_locate (id : ElementId) : Continues (locate id) := by
  refine Continues.position.bind fun bodyStart => ?_
  refine (VarInt.closed_read closed_continues).bind fun ⟨size, length⟩ => ?_
  have hrest := (ClusterBlock.closed_peekTimecode closed_continues id size).bind fun timecode =>
    (Continues.seek (bodyStart + length + size)).bind fun _ => Continues.pure
      (({ offset := bodyStart - id.size, id, timecode }, length + size) : IndexEntry × Nat)
  refine hrest.streamLength_bind (bodyStart + length + size) (fun hlt source cursor => ?_)
    fun hle => ?_
  · rw [if_pos hlt]
    rfl
  · rw [if_neg (Nat.not_lt.mpr hle)]

theorem continues_readChild (mode : ParsingMode) (index : List IndexEntry) (id : ElementId) :
    Continues (readChild mode index id) := by
  rw [readChild]
  split
  next => exact (continues_locate id).bind fun _ => .pure _
  next =>
    have hskip : Continues (Cluster.skipNonBlock mode id) :=
      Cluster.closed_skipNonBlock closed_continues (fun _ => .note _) id
    exact hskip.bind fun _ => .pure _

theorem continues_readBlocks (mode : ParsingMode) (size : Nat) :
    Continues (readBlocks mode size) := by
  have hchildren : Continues (Element.readChildren .cluster size [] (readChild mode)) :=
    Element.closed_readChildren closed_continues (continues_readChild mode) []
  refine (Filling.continues_lift hchildren).bind fun index => ?_
  refine (Filling.continues_lift (.note _)).bind fun _ => ?_
  exact (Filling.continues_change _).bind fun _ => .pure _

theorem continues_read (mode : ParsingMode) :
    Continues (Cluster.read mode : Filling StreamingCluster Nat) :=
  Cluster.closed_read closed_continues (fun _ => .note _) Filling.closed_continues
    (fun _ => Filling.continues_change _) (continues_readBlocks mode)

end StreamingCluster

end Ebml
