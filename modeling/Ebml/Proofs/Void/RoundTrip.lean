import Ebml.Element.Primitive
import Ebml.Proofs.Consumption
import Ebml.Proofs.Element.RoundTrip
import Ebml.Proofs.Stream.Overwriting
import Ebml.Proofs.Void.Width

/-!
# What is read of a void element that was written

There are two ways to write a void element, and one of them leaves the body to whatever the stream
holds there.  Both put the ID and the size where they start and move the stream to where the element
ends (`VoidElement.Laid`).  That is all that a reader needs, because it passes over the body.

A reader keeps the size of the body, and stores it in as few octets as it needs.  So an element that
was widened comes back one byte smaller, and any other one as it was (`written_voids_read_back`).
-/

namespace Ebml

namespace VoidElement

variable {e : VoidElement} {sure : Prop}

/-! ## The ID and the size -/

/-- The bytes of the ID and of the size. -/
def header (e : VoidElement) : List UInt8 :=
  ElementId.void.encode ++ VarInt.sized e.size e.sizeLength

theorem length_header (e : VoidElement) : e.header.length = 1 + e.sizeLength := by
  rw [header, List.length_append, ElementId.length_encode, VarInt.length_sized]
  rfl

theorem encoding_eq (e : VoidElement) : e.encoding = e.header ++ List.replicate e.size 0 := by
  rw [encoding, header, List.append_assoc]

/-- Writes the ID and the size. -/
def writeHeader (e : VoidElement) : Writer Nat := do
  let idLength ← Element.writeId e
  let sizeLength ← Element.writeSize e
  return idLength + sizeLength

theorem emits_writeHeader (h : sure → VarInt.Fits e.size e.sizeLength) :
    Writer.Emits sure e.writeHeader e.header (1 + e.sizeLength) :=
  (ElementId.emits_write .void).bind ((VarInt.emits_writeSized h).map rfl)

theorem fillsGap_writeHeader (e : VoidElement) : Writer.FillsGap e.writeHeader :=
  (ElementId.fillsGap_write .void).bind _

theorem writeAround_of_fill (h : e.fill = true) : writeAround e = Element.write e := if_pos h

theorem writeAround_of_not_fill (h : e.fill = false) :
    writeAround e = e.writeHeader >>= fun length => do
      Writer.skip e.size
      return length + e.size := by
  rw [writeAround, if_neg (by rw [h]; decide), writeHeader]
  simp only [bind_assoc, pure_bind]

/-! ## Writing -/

/-- The element was written to `s`, which became `t`.  Of its body nothing is said. -/
structure Laid (e : VoidElement) (s t : Stream) : Prop where
  /-- The position is after the element. -/
  pos_eq : t.pos = s.pos + Element.totalSize e
  /-- The ID and the size are where the element starts. -/
  held : ∀ limit, (⟨t.data, limit⟩ : Source).Holds s.pos e.header
  /-- A reader can go where the element ends. -/
  admitted : ∀ limit, (⟨t.data, limit⟩ : Source).Admits t.pos

variable {sink sink' : Sink} {written : Nat}

theorem laid_of_write (hok : Element.write e sink = .ok written sink') :
    written = Element.totalSize e ∧ e.Laid sink.stream sink'.stream := by
  obtain ⟨hwritten, stream, hsettled, hpos, hstream⟩ :=
    (Element.fillsGap_write e).of_ok (emits_write fun h : False => h.elim) hok
  have hend : sink'.stream.pos ≤ sink'.stream.data.length := by
    rw [hstream]
    exact Stream.settled_overlay hsettled _
  refine ⟨hwritten, ?_, fun limit => ?_, fun limit => Source.admits_of_le hend⟩
  · rw [hstream, Stream.pos_overlay, length_encoding, hpos]
  · rw [Source.Holds, ← hpos, hstream, Stream.drop_overlay hsettled, encoding_eq,
      List.append_assoc]
    exact List.prefix_append _ _

theorem laid_of_writeAround (hok : writeAround e sink = .ok written sink') :
    written = Element.totalSize e ∧ e.Laid sink.stream sink'.stream := by
  cases hfill : e.fill with
  | true =>
      rw [writeAround_of_fill hfill] at hok
      exact laid_of_write hok
  | false =>
      rw [writeAround_of_not_fill hfill, Writer.bind_eq_ok] at hok
      obtain ⟨length, between, hheader, hok⟩ := hok
      obtain ⟨_, _, hskip, hpure⟩ := Writer.bind_eq_ok.mp hok
      cases hpure
      obtain ⟨⟨_, hadmits⟩, rfl⟩ := Writer.skip_eq_ok.mp hskip
      obtain ⟨rfl, stream, hsettled, hpos, hstream⟩ :=
        e.fillsGap_writeHeader.of_ok (emits_writeHeader fun h : False => h.elim) hheader
      refine ⟨rfl, ?_, fun limit => ?_, fun limit => hadmits⟩
      · show between.stream.pos + e.size = _
        rw [hstream, Stream.pos_overlay, length_header, hpos, Nat.add_assoc]
        rfl
      · rw [Source.Holds, ← hpos]
        show _ <+: between.stream.data.drop _
        rw [hstream, Stream.drop_overlay hsettled]
        exact List.prefix_append _ _

/-- After the ID and the size, the body is passed over if the stream admits the end of it. -/
theorem ok_of_writeHeader {between : Sink} (hfits : VarInt.Fits e.size e.sizeLength)
    (hfill : e.fill = false) (hheader : e.writeHeader sink = .ok (1 + e.sizeLength) between)
    (hadmits : Stream.admits between.stream.data.length (between.stream.pos + e.size) = true) :
    writeAround e sink = .ok (Element.totalSize e)
      { between with stream := { between.stream with pos := between.stream.pos + e.size } } := by
  have hreach : e.size < Stream.reach := by
    have hmax : VarInt.max < Stream.reach := by decide
    exact Nat.lt_of_le_of_lt hfits.2.2.2 hmax
  rw [writeAround_of_not_fill hfill]
  exact Writer.bind_eq_ok.mpr ⟨_, _, hheader,
    Writer.bind_eq_ok.mpr ⟨(), _, Writer.skip_eq_ok.mpr ⟨⟨hreach, hadmits⟩, rfl⟩, rfl⟩⟩

/-- A stream that grows takes the element, unless the end of a body that is passed over is no
position. -/
theorem ok_of_growing {stream : Stream} (hfits : VarInt.Fits e.size e.sizeLength)
    (hgrow : stream.fixed = false) (hend : stream.pos + Element.totalSize e < UInt64.size)
    (log : Log) :
    (∃ sink', Element.write e ⟨stream, log⟩ = .ok (Element.totalSize e) sink') ∧
      ∃ sink', writeAround e ⟨stream, log⟩ = .ok (Element.totalSize e) sink' := by
  have hwrite : ∃ sink', Element.write e ⟨stream, log⟩ = .ok (Element.totalSize e) sink' := by
    obtain ⟨_, hok⟩ :=
      (Element.fillsGap_write e).ok_of_growing (emits_write fun _ => hfits) trivial hgrow log
    exact ⟨_, hok⟩
  refine ⟨hwrite, ?_⟩
  cases hfill : e.fill with
  | true =>
      rw [writeAround_of_fill hfill]
      exact hwrite
  | false =>
      obtain ⟨log', hheader⟩ :=
        e.fillsGap_writeHeader.ok_of_growing (emits_writeHeader fun _ => hfits) trivial hgrow log
      have hadmits : Stream.admits (stream.fillGap.overlay e.header).data.length
          ((stream.fillGap.overlay e.header).pos + e.size) = true := by
        rw [Stream.pos_overlay, length_header, Stream.pos_fillGap, Nat.add_assoc]
        exact Bool.or_eq_true_iff.mpr (Or.inl (decide_eq_true hend))
      exact ⟨_, ok_of_writeHeader hfits hfill hheader hadmits⟩

/-! ## Reading -/

/-- What is read of an element at `offset` into another one. -/
def refound (e other : VoidElement) (offset : Nat) : VoidElement :=
  { size := e.size, fill := other.fill, offset }

theorem yields_read {source : Source} {pos size length : Nat} (other : VoidElement)
    (hsize : Reader.Yields VarInt.read source pos (size, length) (pos + length))
    (hadmits : source.Admits (pos + (length + size))) :
    Reader.Yields (Element.read other) source pos
      ({ size, fill := other.fill, offset := pos - ElementId.void.size }, length + size)
      (pos + (length + size)) := by
  have hbody : Reader.Yields
      (Element.readBody (Element.setOffset other (pos - ElementId.void.size)) size) source
      (pos + length) { size, fill := other.fill, offset := pos - ElementId.void.size }
      (pos + (length + size)) := (VarInt.yields_skip_of_read hsize hadmits).map rfl
  exact (Element.yields_locate other).bind (hsize.bind (hbody.map rfl))

/-- What a reader finds of an element that was written. -/
theorem Laid.parts {s t : Stream} (h : e.Laid s t) (hfits : VarInt.Fits e.size e.sizeLength)
    (limit : Nat) :
    t.pos = s.pos + ElementId.void.size + (e.sizeLength + e.size) ∧
      Reader.Yields ElementId.read ⟨t.data, limit⟩ s.pos .void (s.pos + ElementId.void.size) ∧
        Reader.Yields VarInt.read ⟨t.data, limit⟩ (s.pos + ElementId.void.size)
          (e.size, e.sizeLength) (s.pos + ElementId.void.size + e.sizeLength) ∧
          (⟨t.data, limit⟩ : Source).Admits
            (s.pos + ElementId.void.size + (e.sizeLength + e.size)) := by
  have hend : t.pos = s.pos + ElementId.void.size + (e.sizeLength + e.size) := by
    rw [h.pos_eq, Nat.add_assoc]
    exact congrArg (s.pos + ·) (Nat.add_assoc _ _ _)
  have hheld := h.held limit
  have hsize := hheld.right
  rw [ElementId.length_encode] at hsize
  exact ⟨hend, ElementId.yields_read hheld.left, VarInt.yields_read hfits.payload hsize,
    hend ▸ h.admitted limit⟩

theorem Laid.reads_back {s t : Stream} (h : e.Laid s t)
    (hfits : VarInt.Fits e.size e.sizeLength) (limit : Nat) (other : VoidElement) (log : Log) :
    ∃ log', Element.readFrom ⟨t.data, limit⟩ ⟨other, ⟨s.pos, log⟩⟩ =
      .ok (.void, e.sizeLength + e.size) ⟨e.refound other s.pos, ⟨t.pos, log'⟩⟩ := by
  obtain ⟨hend, hid, hsize, hadmits⟩ := h.parts hfits limit
  obtain ⟨idLog, hid⟩ := hid log
  obtain ⟨log', hfill⟩ := yields_read other hsize hadmits idLog
  rw [Nat.add_sub_cancel] at hfill
  rw [hend]
  exact ⟨log', Filling.lift_bind_eq_ok.mpr ⟨_, _, hid,
    Reader.bind_eq_ok.mpr ⟨_, _, Element.fill_eq_ok.mpr hfill, rfl⟩⟩⟩

/-- What is read of an element is as large, unless the element was widened. -/
theorem totalSize_refound (hmade : e.Made) (other : VoidElement) (offset : Nat) :
    (e.Widened → Element.totalSize (e.refound other offset) + 1 = Element.totalSize e) ∧
      (¬ e.Widened → Element.totalSize (e.refound other offset) = Element.totalSize e) := by
  have hroom := hmade.roomy.1
  have hwidth := hmade.sizeLength_le
  show (_ → 1 + VarInt.octetLength e.size + e.size + 1 = 1 + e.sizeLength + e.size) ∧
    (_ → 1 + VarInt.octetLength e.size + e.size = 1 + e.sizeLength + e.size)
  rw [Widened]
  omega

/-- What is read of an element takes the same bytes, unless the element was widened. -/
theorem encoding_refound (hmade : e.Made) (hwidth : ¬ e.Widened) (other : VoidElement)
    (offset : Nat) : (e.refound other offset).encoding = e.encoding := by
  have hminimal : VarInt.octetLength e.size = e.sizeLength :=
    Nat.le_antisymm hmade.roomy.1 (Nat.le_of_not_lt hwidth)
  rw [encoding, encoding, refound, hminimal]

/-- A void element of a void element has the size of that one. -/
theorem Made.totalSize_replacing (h : e.Made) (hmax : e.size ≤ VarInt.max) (fill : Bool) :
    Element.totalSize (VoidElement.replacing e fill) = Element.totalSize e := by
  obtain ⟨hlow, hhigh⟩ := h.totalSize_le hmax
  exact totalSize_ofTotalSize hlow hhigh fill

end VoidElement

/-- A void element that was written is read back with the size of its body.  Its total size, and the
bytes that it and its replacements take, are the same if its size was stored in as few octets as it
needs, and otherwise there is one byte less.  A size is stored in more octets only by an element
that replaces another one, and just if the total size of that one lies in a gap. -/
theorem written_voids_read_back {e : VoidElement} (hmade : e.Made) (hmax : e.size ≤ VarInt.max) :
    (∀ (stream : Stream) (log : Log), stream.fixed = false →
        stream.pos + Element.totalSize e < UInt64.size →
        ∀ write, write = Element.write e ∨ write = e.writeAround → ∃ sink,
          write ⟨stream, log⟩ = .ok (Element.totalSize e) sink) ∧
      (∀ write, write = Element.write e ∨ write = e.writeAround → ∀ sink written sink',
        write sink = .ok written sink' →
        written = Element.totalSize e ∧ sink'.stream.pos = sink.stream.pos + written ∧
          ∀ limit other log, ∃ log',
            Element.readFrom ⟨sink'.stream.data, limit⟩ ⟨other, ⟨sink.stream.pos, log⟩⟩ =
              .ok (.void, e.sizeLength + e.size)
                ⟨e.refound other sink.stream.pos, ⟨sink'.stream.pos, log'⟩⟩) ∧
      (∀ other offset, (e.refound other offset).size = e.size ∧
        (¬ e.Widened → (e.refound other offset).encoding = e.encoding ∧
          Element.totalSize (e.refound other offset) = Element.totalSize e ∧
          ∀ fill, Element.totalSize (VoidElement.replacing (e.refound other offset) fill) =
            Element.totalSize e) ∧
        (e.Widened → Element.totalSize (e.refound other offset) + 1 = Element.totalSize e ∧
          ∀ fill, Element.totalSize (VoidElement.replacing (e.refound other offset) fill) + 1 =
            Element.totalSize e)) ∧
      (∀ size fill, e = { size, fill } → ¬ e.Widened) ∧
      (∀ (before : VoidElement) size, e = before.setSize size → ¬ e.Widened) ∧
      ∀ {ε : Type} [Element ε] (replaced : ε) (fill : Bool), e = .replacing replaced fill →
        (e.Widened ↔ VoidElement.Gap (Element.totalSize replaced)) := by
  have hfits := hmade.fits hmax
  have hrefound : ∀ (other : VoidElement) (offset : Nat),
      (e.refound other offset).Made := fun other offset =>
    (VoidElement.Made.new e.size other.fill).setOffset offset
  refine ⟨?writes, ?reads, ?sizes, ?new, ?setSize, ?replacing⟩
  case writes =>
    intro stream log hgrow hend write hwrite
    obtain ⟨hplain, haround⟩ := VoidElement.ok_of_growing hfits hgrow hend log
    rcases hwrite with rfl | rfl
    · exact hplain
    · exact haround
  case reads =>
    intro write hwrite sink written sink' hok
    have hlaid : written = Element.totalSize e ∧ e.Laid sink.stream sink'.stream := by
      rcases hwrite with rfl | rfl
      · exact VoidElement.laid_of_write hok
      · exact VoidElement.laid_of_writeAround hok
    obtain ⟨rfl, hlaid⟩ := hlaid
    exact ⟨rfl, hlaid.pos_eq, fun limit other log => hlaid.reads_back hfits limit other log⟩
  case sizes =>
    intro other offset
    obtain ⟨hless, hsame⟩ := VoidElement.totalSize_refound hmade other offset
    have hreplaced := (hrefound other offset).totalSize_replacing hmax
    refine ⟨rfl, fun hwidth => ?_, fun hwidth => ⟨hless hwidth, fun fill => ?_⟩⟩
    · refine ⟨VoidElement.encoding_refound hmade hwidth other offset, hsame hwidth, fun fill => ?_⟩
      rw [hreplaced fill, hsame hwidth]
    · rw [hreplaced fill, hless hwidth]
  case new =>
    rintro size fill rfl
    exact VoidElement.not_widened_of_minimal
  case setSize =>
    rintro before size rfl
    exact VoidElement.not_widened_of_minimal
  case replacing =>
    rintro ε _ replaced fill rfl
    exact VoidElement.widened_ofTotalSize _ _

/-- An element of 130 bytes, which is a gap. -/
def longData : PrimitiveElement where
  id := .silentTracks
  value := .binary (List.replicate 127 0xaa)

/-- The element that takes the place of the 130 bytes is read back as one of 129. -/
theorem replaced_longData_shrinks :
    (VoidElement.replacing longData true).Widened ∧
      ∃ sink e log, Element.write (VoidElement.replacing longData true) ⟨{}, #[]⟩ =
          .ok 130 sink ∧
        Element.readFrom ⟨sink.stream.data, 0⟩ ⟨({ size := 0, fill := true } : VoidElement),
          ⟨0, #[]⟩⟩ = .ok (.void, 129) ⟨e, ⟨130, log⟩⟩ ∧
        e.size = 127 ∧ Element.totalSize e = 129 := by
  have hmade : (VoidElement.replacing longData true).Made := .replacing longData true
  have hmax : (VoidElement.replacing longData true).size ≤ VarInt.max := by decide +kernel
  have htotal : Element.totalSize (VoidElement.replacing longData true) = 130 := by
    decide +kernel
  have hbytes : (VoidElement.replacing longData true).sizeLength +
      (VoidElement.replacing longData true).size = 129 := by decide +kernel
  have hsize : (VoidElement.replacing longData true).size = 127 := by decide +kernel
  obtain ⟨hwrites, hreads, hsizes, -, -, hgap⟩ := written_voids_read_back hmade hmax
  have hwide := (hgap longData true rfl).mpr ⟨1, by decide, by decide, by decide +kernel⟩
  obtain ⟨sink, hwrite⟩ := hwrites {} #[] rfl (by rw [htotal]; decide) _ (Or.inl rfl)
  obtain ⟨-, hpos, hread⟩ := hreads _ (Or.inl rfl) _ _ _ hwrite
  obtain ⟨log, hread⟩ := hread 0 { size := 0, fill := true } #[]
  obtain ⟨hsame, -, hless⟩ := hsizes { size := 0, fill := true } 0
  have hless := (hless hwide).1
  rw [htotal] at hwrite hpos hless
  dsimp only at hread
  rw [hbytes, hpos.trans (Nat.zero_add 130)] at hread
  exact ⟨hwide, sink, _, log, hwrite, hread, hsame.trans hsize, by omega⟩

end Ebml
