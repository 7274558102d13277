import Ebml.Proofs.Group

/-!
# Elements survive a round trip

What was written of an element is read back into any object of its kind, whatever follows it in the
stream (`Element.ReadsBack`).  The ID and the size are the same for every kind of element, so it is
enough that the body of a kind can be written and read back (`ReadsBack.of_body`).
-/

namespace Ebml

namespace Element

variable {ε : Type} [Element ε]

/-- Reads an ID, and what follows it into an object.  The result counts the bytes after the ID. -/
def readFrom : Filling ε (ElementId × Nat) := do
  let id ← Filling.lift ElementId.read
  let count ← fill
  return (id, count)

/-- The element can be written, and is read back by anybody who can afford the payloads. -/
structure ReadsBack [BEq ε] (e : ε) (payloads : List (List UInt8)) : Prop where
  /-- A stream that grows takes the element, wherever its position is. -/
  writes : ∀ {stream : Stream}, stream.fixed = false → ∀ log, ∃ written sink,
    write e ⟨stream, log⟩ = .ok written sink
  /-- Where the bytes that were written are found again, an equal element is read from them and no
  more, whatever stream they were written to and whatever object they are read into. -/
  reads : ∀ {sink sink' : Sink} {written : Nat}, write e sink = .ok written sink' →
    sink'.stream.pos = sink.stream.pos + written ∧
      ∃ count, written = (Element.id e).size + count ∧
        ∀ source : Source, (∀ payload ∈ payloads, payload.length ≤ source.limit) →
          source.Holds sink.stream.pos ((sink'.stream.data.drop sink.stream.pos).take written) →
          ∀ (other : ε) (log : Log), ∃ e' log',
            readFrom source ⟨other, ⟨sink.stream.pos, log⟩⟩ =
                .ok (Element.id e, count) ⟨e', ⟨sink.stream.pos + written, log'⟩⟩ ∧
              (e' == e) = true

/-- An element is read with its ID if it is read without. -/
theorem readFrom_of_read {other e' : ε} {id : ElementId} {source : Source} {pos stop count : Nat}
    (hid : source.Holds pos id.encode)
    (hread : Reader.Yields
      (read (setOffset other (pos + id.size - (Element.id other).size))) source (pos + id.size)
      (e', count) stop) (log : Log) :
    ∃ log', readFrom source ⟨other, ⟨pos, log⟩⟩ = .ok (id, count) ⟨e', ⟨stop, log'⟩⟩ := by
  obtain ⟨idLog, hid⟩ := ElementId.yields_read hid log
  obtain ⟨log', hread⟩ := hread idLog
  refine ⟨log', Filling.lift_bind_eq_ok.mpr ⟨_, _, hid, ?_⟩⟩
  exact Reader.bind_eq_ok.mpr ⟨_, _, fill_eq_ok.mpr hread, rfl⟩

/-- An element is read back from wherever its bytes lie, if its body is. -/
theorem readFrom_of_holds [Encoded ε] {e : ε} {source : Source} {pos : Nat} {P : ε → Prop}
    (hmax : bodySize e ≤ VarInt.max)
    (hread : ∀ (pos : Nat) (other : ε), source.Holds pos (Encoded.body e) →
      ∃ e', P e' ∧ Reader.Yields (readBody other (bodySize e)) source pos e' (pos + bodySize e))
    (h : source.Holds pos (encoding e)) (other : ε) (log : Log) :
    ∃ e' log', readFrom source ⟨other, ⟨pos, log⟩⟩ =
        .ok (Element.id e, VarInt.octetLength (bodySize e) + bodySize e)
          ⟨e', ⟨pos + totalSize e, log'⟩⟩ ∧ P e' := by
  obtain ⟨hid, hsize, hbody⟩ := holds_parts h
  obtain ⟨e', hsame, hbody⟩ := hread _ _ hbody
  obtain ⟨log', hok⟩ := readFrom_of_read hid (yields_read hmax hsize hbody) log
  rw [Encoded.totalSize_eq, ← Nat.add_assoc, ← Nat.add_assoc]
  exact ⟨e', log', hok, hsame⟩

theorem ReadsBack.of_body [Encoded ε] [BEq ε] {e : ε} {payloads : List (List UInt8)}
    (hmax : bodySize e ≤ VarInt.max)
    (hwrite : Writer.Emits True (write e) (encoding e) (totalSize e))
    (hread : ∀ (source : Source) (pos : Nat) (other : ε),
      (∀ payload ∈ payloads, payload.length ≤ source.limit) →
      source.Holds pos (Encoded.body e) →
      ∃ e', (e' == e) = true ∧
        Reader.Yields (readBody other (bodySize e)) source pos e' (pos + bodySize e)) :
    ReadsBack e payloads where
  writes hgrow log := by
    obtain ⟨_, hok⟩ := (fillsGap_write e).ok_of_growing hwrite trivial hgrow log
    exact ⟨_, _, hok⟩
  reads hok := by
    obtain ⟨rfl, stream, hsettled, hpos, hstream⟩ := (fillsGap_write e).of_ok hwrite hok
    have htotal : totalSize e =
        (Element.id e).size + (VarInt.octetLength (bodySize e) + bodySize e) := by
      rw [Encoded.totalSize_eq, Nat.add_assoc]
    rw [← hpos, hstream]
    refine ⟨?_, _, htotal, fun source hlimit hheld other log => ?_⟩
    · rw [Stream.pos_overlay, length_encoding]
    · rw [Stream.drop_overlay hsettled, ← length_encoding, List.take_left] at hheld
      exact readFrom_of_holds hmax (fun pos other => hread source pos other hlimit) hheld other log

end Element

/-- Blocks of every kind and block additions survive a round trip, as long as they can be written at
all and none of what they hold is too large for the limit of the reader. -/
theorem written_elements_read_back :
    (∀ b : Block, b.Valid → Element.bodySize b < Element.sizeBound →
        Element.ReadsBack b b.frames) ∧
      (∀ b : SimpleBlock, b.block.Valid → Element.bodySize b < Element.sizeBound →
        Element.ReadsBack b b.block.frames) ∧
        (∀ g : BlockGroup, g.block.Valid → Element.bodySize g < Element.sizeBound →
          Element.ReadsBack g g.payloads) ∧
          ∀ a : BlockAdditions, Element.bodySize a < Element.sizeBound →
            Element.ReadsBack a (a.entries.map Addition.data) := by
  refine ⟨fun b hvalid hbound => ?_, fun b hvalid hbound => ?_, fun g hvalid hbound => ?_,
    fun a hbound => ?_⟩
  · refine .of_body (Element.le_max_of_lt hbound) (Block.emits_write fun _ => ⟨hvalid, hbound⟩) ?_
    intro source pos other hlimit h
    exact ⟨_, b.beq_moved _, Block.yields_readBody other hvalid hbound hlimit h⟩
  · refine .of_body (Element.le_max_of_lt hbound)
      (SimpleBlock.emits_write fun _ => ⟨hvalid, hbound⟩) ?_
    intro source pos other hlimit h
    exact ⟨_, b.beq_moved _, SimpleBlock.yields_readBody other hvalid hbound hlimit h⟩
  · refine .of_body (Element.le_max_of_lt hbound)
      (BlockGroup.emits_write fun _ => ⟨hvalid, hbound⟩) ?_
    intro source pos other hlimit h
    obtain ⟨additions, hsame, hread⟩ :=
      BlockGroup.yields_readBody other hvalid hbound hlimit h
    exact ⟨_, g.beq_moved hsame _ _, hread⟩
  · have hmax := Element.le_max_of_lt hbound
    refine .of_body hmax (BlockAdditions.emits_write fun _ => hmax) ?_
    intro source pos other hlimit h
    have hentries : ∀ entry ∈ a.entries, entry.data.length ≤ source.limit := fun entry hm =>
      hlimit _ (List.mem_map_of_mem (f := Addition.data) hm)
    refine ⟨_, ?_, BlockAdditions.yields_readBody other hmax hentries h⟩
    exact BlockAdditions.beq_of_entries rfl

/-- A group with a lace of three frames, a reference, and additions of which one is empty. -/
def furnished : BlockGroup where
  block :=
    { track := 300, timecode := -1, invisible := true, lacing := .ebml
      frames := [[1, 2], [3], [4]] }
  refBlocks := [-70000]
  additions := { entries := [{ addId := 1, data := [] }, { addId := 4, data := [5, 6] }] }

/-- The group is read back from behind a gap of three bytes, within a limit of two. -/
theorem furnished_reads_back :
    ∃ written sink count e' cursor,
      Element.write furnished ⟨{ pos := 3 }, #[]⟩ = .ok written sink ∧
        written = ElementId.blockGroup.size + count ∧
          Element.readFrom ⟨sink.stream.data, 2⟩ ⟨({} : BlockGroup), ⟨3, #[]⟩⟩ =
              .ok (.blockGroup, count) ⟨e', cursor⟩ ∧
            cursor.pos = 3 + written ∧ (e' == furnished) = true := by
  have hvalid : furnished.block.Valid := ⟨by decide, by decide, by decide⟩
  have hbound : Element.bodySize furnished < Element.sizeBound := by decide +kernel
  have hlimit : ∀ payload ∈ furnished.payloads, payload.length ≤ 2 := by decide
  have hread := written_elements_read_back.2.2.1 furnished hvalid hbound
  have hgrows : ({ pos := 3 } : Stream).fixed = false := rfl
  obtain ⟨written, sink, hwrite⟩ := hread.writes hgrows #[]
  obtain ⟨_, count, hcount, hread⟩ := hread.reads hwrite
  obtain ⟨e', log, hok, hsame⟩ :=
    hread ⟨sink.stream.data, 2⟩ hlimit (List.take_prefix _ _) {} #[]
  exact ⟨written, sink, count, e', _, hwrite, hcount, hok, rfl, hsame⟩

end Ebml
