import Ebml.Proofs.Cluster.Interchange
import Ebml.Proofs.Cluster.Protocol

/-!
# How large a streaming cluster may become

The octets that are left for a size have seven bits each after the marker.  A size of all ones says
that the size is not known, so it is not to be written, and the largest body is one byte smaller
(`PlaceholderLength.bodyLimit`).

The writer looks at this for eight octets only, since `VarInt.max` leaves out no other payload.  In
fewer octets there is one body more that can be written, and its size is then taken for an unknown
one (`StreamingCluster.write_iff_of_pushAll`).
-/

namespace Ebml

/-! ## The limit -/

namespace PlaceholderLength

/-- The largest body whose size there is to be room for. -/
def bodyLimit (placeholder : PlaceholderLength) : Nat := 2 ^ (7 * placeholder.octets) - 2

variable {placeholder : PlaceholderLength} {size : Nat}

theorem bodyLimit_eq (placeholder : PlaceholderLength) :
    placeholder.bodyLimit + 2 = 128 ^ placeholder.octets := by
  have hpow : 128 ^ 1 ≤ 128 ^ placeholder.octets :=
    Nat.pow_le_pow_right (by decide) placeholder.inRange.1
  rw [bodyLimit, ← VarInt.pow_128]
  omega

/-- The limit is kept to in eight octets, and exceeded by one in fewer of them. -/
theorem fits_iff : VarInt.Fits size placeholder.octets ↔
    size ≤ placeholder.bodyLimit ∨
      placeholder.octets < 8 ∧ size = placeholder.bodyLimit + 1 := by
  have hlimit := placeholder.bodyLimit_eq
  obtain ⟨hpos, hle⟩ := placeholder.inRange
  have hmax : VarInt.max + 2 = 128 ^ 8 := rfl
  rw [VarInt.Fits, VarInt.octetLength_le_iff hpos, ← hlimit]
  by_cases hwide : placeholder.octets = 8
  · rw [hwide] at hlimit
    refine ⟨fun ⟨_, _, _, h⟩ => Or.inl (by omega), fun h => ?_⟩
    exact ⟨hpos, hle, by omega, by omega⟩
  · have hnarrow : 128 ^ placeholder.octets ≤ 128 ^ 7 :=
      Nat.pow_le_pow_right (by decide) (by omega)
    refine ⟨fun ⟨_, _, h, _⟩ => by omega, fun h => ⟨hpos, hle, by omega, by omega⟩⟩

end PlaceholderLength

namespace StreamingCluster

variable {start width : Nat} {m : ClusterMetadata} {pushed : List ClusterBlock}
  {c : StreamingCluster} {sink : Sink} {s s' : Held StreamingCluster Sink}

/-! ## Clusters that nobody interfered with -/

/-- The output of an open cluster is where it is expected, and it can grow. -/
structure Ready (start width : Nat) (m : ClusterMetadata) (pushed : List ClusterBlock)
    (s : Held StreamingCluster Sink) : Prop where
  guards : Guards start width m pushed s
  pos_eq : s.medium.stream.pos = start + (Cluster.layout 0 width m pushed).length
  growing : s.medium.stream.fixed = false

theorem ready_of_prepare (hgrow : sink.stream.fixed = false) {head : Nat}
    (h : prepare ⟨c, sink⟩ = .ok head s) :
    Ready sink.stream.pos c.placeholder.octets c.metadata [] s := by
  have hguards := guards_of_prepare h
  cases hstate : c.state? with
  | some state =>
      rw [prepare_of_open hstate] at h
      cases h
  | none =>
      rw [prepare_eq hstate] at h
      split at h
      next hhead =>
        cases h
        obtain ⟨_, hstream⟩ := (fillsGap_writeHead c).of_ok_of_growing
          (emits_writeHead c fun h : False => h.elim) hgrow hhead
        exact ⟨hguards, congrArg Stream.pos hstream, (congrArg Stream.fixed hstream).trans hgrow⟩
      next => cases h

theorem Ready.push (h : Ready start width m pushed s) {block : ClusterBlock} {written : Nat}
    (hpush : push block s = .ok written s') : Ready start width m (pushed ++ [block]) s' := by
  have hguards := h.guards.push hpush
  obtain ⟨c, sink⟩ := s
  have hsettled := h.guards.settled h.pos_eq
  rw [push_eq h.guards.state_eq] at hpush
  split at hpush
  next hok =>
    cases hpush
    rw [pushAt_of_pos block h.pos_eq] at hok
    obtain ⟨_, hstream⟩ := (emits_validated fun h : False => h.elim).of_ok hsettled hok
    refine ⟨hguards, ?_, (congrArg Stream.fixed hstream).trans h.growing⟩
    have hpos := congrArg Stream.pos hstream
    rw [Stream.pos_overlay, h.pos_eq, Nat.add_assoc, ← List.length_append] at hpos
    rw [Cluster.layout_append, List.flatMap_singleton]
    exact hpos
  next => cases hpush

/-- However many blocks are handed over without one being refused, the output is where the next one
is expected. -/
theorem Ready.pushAll : ∀ {blocks pushed : List ClusterBlock} {s : Held StreamingCluster Sink}
    {u : Unit}, Ready start width m pushed s → pushAll blocks s = .ok u s' →
      Ready start width m (pushed ++ blocks) s'
  | [], pushed, s, _, h, hok => by
      cases hok
      rw [List.append_nil]
      exact h
  | block :: blocks, pushed, s, _, h, hok => by
      rw [StreamingCluster.pushAll] at hok
      cases hpush : StreamingCluster.push block s with
      | error e after =>
          rw [Writer.bind_error hpush] at hok
          cases hok
      | ok written after =>
          rw [Writer.bind_ok hpush] at hok
          rw [List.append_cons]
          exact (h.push hpush).pushAll hok

/-! ## Ending -/

/-- What an open cluster knows of itself at the end. -/
theorem Ready.expects (h : Ready start width m pushed s) :
    ∃ state, s.object.state? = some state ∧ s.medium.stream.pos = state.expected ∧
      state.start = start ∧ state.expected - state.bodyStart = Cluster.contentSize m pushed :=
  ⟨_, h.guards.state_eq, h.pos_eq, rfl, Cluster.length_layout_sub ..⟩

/-- A size that fits its room is filled in. -/
theorem Ready.write_ok (h : Ready start width m pushed s)
    (hfits : VarInt.Fits (Cluster.contentSize m pushed) width) :
    ∃ count s', write s = .ok count s' := by
  obtain ⟨state, hstate, hpos, rfl, hvalue⟩ := h.expects
  have hsettled := h.guards.settled h.pos_eq
  have hlayout := h.pos_eq
  have hgrow := h.growing
  have hwidth := h.guards.sizeLength_eq
  obtain ⟨c, sink⟩ := s
  subst hwidth
  dsimp only at hpos hsettled hlayout
  have hinside : ({ sink.stream with pos := state.start + ElementId.cluster.size } :
      Stream).Settled := by
    rw [Stream.Settled, hlayout, Cluster.length_layout] at hsettled
    show state.start + ElementId.cluster.size ≤ sink.stream.data.length
    omega
  obtain ⟨_, hsize⟩ := (VarInt.emits_writeSized fun _ : True => hfits).ok_of_growing trivial
    hinside hgrow sink.log
  have hfill := fillSize_eq c.sizeLength hpos
  rw [hvalue, hsize] at hfill
  exact ⟨_, _, write_filled hstate hfill⟩

/-- One that does not is reported. -/
theorem Ready.write_error (h : Ready start width m pushed s)
    (hfits : ¬ VarInt.Fits (Cluster.contentSize m pushed) width) :
    ∃ s', write s = .error (.varIntTooBig (Cluster.contentSize m pushed)) s' := by
  obtain ⟨state, hstate, hpos, _, hvalue⟩ := h.expects
  have hwidth := h.guards.sizeLength_eq
  obtain ⟨c, sink⟩ := s
  subst hwidth
  have hfill := fillSize_eq c.sizeLength hpos
  rw [hvalue, VarInt.writeSized_of_not_fits hfits] at hfill
  exact ⟨_, StreamingCluster.write_error hstate hfill⟩

/-- The size that is found where room was left for it. -/
theorem Guards.size_of_write (h : Guards start width m pushed s) {count : Nat}
    (hwrite : StreamingCluster.write s = .ok count s') :
    (s'.medium.stream.data.drop (start + ElementId.cluster.size)).take width =
      VarInt.sized (Cluster.contentSize m pushed) width := by
  obtain ⟨_, _, _, before, rfl, rest, hrest⟩ := h.write hwrite
  have hcluster := ElementId.length_encode .cluster
  rw [← hrest, Cluster.layout, ← hcluster, List.append_assoc, ← List.drop_drop, List.drop_left,
    List.append_assoc, List.drop_left, List.append_assoc]
  exact List.take_left' (VarInt.length_sized _ _)

/-! ## Every run -/

/-- After a cluster was prepared and handed blocks without anything else happening to an output that
grows, it can be written exactly if its body keeps to the limit, but for a single size.  This is the
next one, of which the octets are all ones, and in fewer than eight octets it is written. -/
theorem write_iff_of_pushAll {stream : Stream} {log : Log} {head : Nat} {u : Unit}
    {opened : Held StreamingCluster Sink} (hgrow : stream.fixed = false)
    (hprepare : prepare ⟨c, ⟨stream, log⟩⟩ = .ok head opened)
    (hpush : pushAll pushed opened = .ok u s) :
    ((∃ count s', write s = .ok count s') ↔
      Cluster.contentSize c.metadata pushed ≤ c.placeholder.bodyLimit ∨
        c.placeholder.octets < 8 ∧
          Cluster.contentSize c.metadata pushed = c.placeholder.bodyLimit + 1) ∧
    ((¬ ∃ count s', write s = .ok count s') →
      ∃ s', write s = .error (.varIntTooBig (Cluster.contentSize c.metadata pushed)) s') ∧
    ∀ count s', write s = .ok count s' →
      ((s'.medium.stream.data.drop (stream.pos + ElementId.cluster.size)).take
          c.placeholder.octets = VarInt.unknown c.placeholder.octets ↔
        Cluster.contentSize c.metadata pushed = c.placeholder.bodyLimit + 1) := by
  have hready : Ready stream.pos c.placeholder.octets c.metadata pushed s :=
    Ready.pushAll (ready_of_prepare hgrow hprepare) hpush
  have hiff : (∃ count s', write s = .ok count s') ↔
      VarInt.Fits (Cluster.contentSize c.metadata pushed) c.placeholder.octets :=
    ⟨fun ⟨_, _, hok⟩ => (hready.guards.write hok).2.1, hready.write_ok⟩
  refine ⟨hiff.trans PlaceholderLength.fits_iff, fun hnot => ?_, fun count s' hok => ?_⟩
  · exact hready.write_error fun hfits => hnot (hiff.mpr hfits)
  · have hpayload := (hiff.mp ⟨count, s', hok⟩).payload
    have hlimit := c.placeholder.bodyLimit_eq
    rw [hready.guards.size_of_write hok, VarInt.unknown,
      VarInt.sized_inj hpayload ⟨hpayload.length_pos, hpayload.length_le, by omega⟩]
    omega

/-- A cluster with one octet for its size, handed a block that makes its body one byte too large.
The result is the size of the whole cluster. -/
def overfull? : Option Nat := do
  let (_, opened) ← succeeded? prepare fresh
  let (_, s) ← succeeded? (pushAll [filled 118]) opened
  let (count, _) ← succeeded? write s
  return count

/-- The cluster is written with an unknown size. -/
theorem overfull_unknown : ∃ head opened u s count s',
    prepare fresh = .ok head opened ∧ pushAll [filled 118] opened = .ok u s ∧
      write s = .ok count s' ∧
        (s'.medium.stream.data.drop 4).take 1 = VarInt.unknown 1 := by
  have hcount : overfull? = some 132 := by decide +kernel
  simp only [overfull?, Option.bind_eq_bind, Option.bind_eq_some_iff, Prod.exists] at hcount
  obtain ⟨head, opened, hprepare, u, s, hpush, count, s', hwrite, _⟩ := hcount
  have hprepare := of_succeeded? hprepare
  have hpush := of_succeeded? hpush
  have hwrite := of_succeeded? hwrite
  refine ⟨head, opened, u, s, count, s', hprepare, hpush, hwrite, ?_⟩
  exact ((write_iff_of_pushAll rfl hprepare hpush).2.2 count s' hwrite).mpr (by decide +kernel)

end StreamingCluster

end Ebml
