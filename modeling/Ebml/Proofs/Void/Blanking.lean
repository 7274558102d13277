import Ebml.Proofs.Element.Rows
import Ebml.Proofs.Stream.Conduct
import Ebml.Proofs.Void.RoundTrip

/-!
# Blanking out an element

A void element takes the place of another one in a row of elements.  It has the same total size, so
it is written over just the bytes of the other one, whether or not its body is filled
(`VoidElement.ok_of_room`).  A reader that goes through the row passes over it, and comes to the
next element where that was before.  The bytes of all the others are untouched, so they are found as
if nothing had happened (`blanking_unnoticed`).
-/

namespace Ebml

theorem ElementId.overwrites_write (id : ElementId) :
    Writer.Overwrites id.write id.encode id.size := by
  have h := Writer.Overwrites.emitCounted id.encode
  rwa [length_encode] at h

theorem VarInt.overwrites_writeSized {value length : Nat} (h : Fits value length) :
    Writer.Overwrites (writeSized value length) (sized value length) length := by
  have hemit := Writer.Overwrites.emitCounted (sized value length)
  rw [length_sized] at hemit
  rw [writeSized, encodeSized_of_fits h]
  exact hemit

namespace VoidElement

variable {e : VoidElement}

/-! ## Writing over another element -/

theorem overwrites_writeHeader (h : VarInt.Fits e.size e.sizeLength) :
    Writer.Overwrites e.writeHeader e.header (1 + e.sizeLength) :=
  (ElementId.overwrites_write .void).bind ((VarInt.overwrites_writeSized h).map rfl)

theorem overwrites_write (h : VarInt.Fits e.size e.sizeLength) :
    Writer.Overwrites (Element.write e) e.encoding (Element.totalSize e) := by
  have hbody : Writer.Overwrites (Element.writeBody e) (List.replicate e.size 0) e.size :=
    (Writer.Overwrites.emitZeros e.size).map rfl
  have hrest := (VarInt.overwrites_writeSized h).bind (f := fun sizeLength => do
    let body ← Element.writeBody e
    return ElementId.void.size + sizeLength + body) (hbody.map rfl)
  exact (ElementId.overwrites_write .void).bind hrest

/-- Where there are as many bytes, the element is written over them, filled or not. -/
theorem ok_of_room {s : Stream} (hfits : VarInt.Fits e.size e.sizeLength)
    (hroom : s.pos + Element.totalSize e ≤ s.data.length) (log : Log) :
    ∃ t log', writeAround e ⟨s, log⟩ = .ok (Element.totalSize e) ⟨t, log'⟩ ∧
      s.Written t (Element.totalSize e) ∧ t.data.length = s.data.length := by
  cases hfill : e.fill with
  | true =>
      rw [← length_encoding] at hroom
      obtain ⟨log', hok⟩ := overwrites_write hfits ⟨s, log⟩ hroom
      have hwritten := Stream.written_overlay_of_le hroom
      rw [length_encoding] at hwritten
      rw [writeAround_of_fill hfill]
      exact ⟨_, log', hok, hwritten⟩
  | false =>
      have htotal : Element.totalSize e = e.header.length + e.size := by
        rw [length_header]
        rfl
      rw [htotal] at hroom
      have hheader : s.pos + e.header.length ≤ s.data.length := by omega
      obtain ⟨log', hok⟩ := overwrites_writeHeader hfits ⟨s, log⟩ hheader
      obtain ⟨hwritten, hlength⟩ := Stream.written_overlay_of_le hheader
      have hend : (s.overlay e.header).pos + e.size ≤ (s.overlay e.header).data.length := by
        rw [hlength, Stream.pos_overlay, Nat.add_assoc]
        exact hroom
      have hadmits : Stream.admits (s.overlay e.header).data.length
          ((s.overlay e.header).pos + e.size) = true :=
        Bool.or_eq_true_iff.mpr (Or.inr (decide_eq_true hend))
      have hwritten := hwritten.move hlength hroom
      rw [← htotal] at hwritten
      exact ⟨_, log', ok_of_writeHeader hfits hfill hok hadmits, hwritten, hlength⟩

/-- What replaces an element has its total size, and can be written. -/
theorem fits_replacing {ε : Type} [Element ε] {replaced : ε}
    (hmin : 2 ≤ Element.totalSize replaced)
    (hmax : Element.totalSize replaced ≤ 128 ^ VarInt.maxLength) (fill : Bool) :
    Element.totalSize (replacing replaced fill) = Element.totalSize replaced ∧
      VarInt.Fits (replacing replaced fill).size (replacing replaced fill).sizeLength := by
  have htotal : Element.totalSize (replacing replaced fill) = Element.totalSize replaced :=
    totalSize_ofTotalSize hmin (Nat.le_trans hmax (Nat.le_add_right _ _)) fill
  have hmade : (replacing replaced fill).Made := .replacing replaced fill
  have hwidth := Nat.le_trans (VarInt.octetLength_pos _) hmade.roomy.1
  refine ⟨htotal, hmade.fits ?_⟩
  rw [← htotal] at hmax
  have hsum : 1 + (replacing replaced fill).sizeLength + (replacing replaced fill).size ≤
      128 ^ VarInt.maxLength := hmax
  rw [VarInt.max]
  omega

/-! ## Going through the row -/

/-- Whoever passes over void elements finds nothing where one was written. -/
theorem Laid.traverses {s t : Stream} (h : e.Laid s t)
    (hfits : VarInt.Fits e.size e.sizeLength) (limit : Nat) {β : Type}
    (take : ElementId → Reader (Option β × Nat)) (items : List (Option β)) :
    Element.Traverses (Element.collect take) ⟨t.data, limit⟩ s.pos items t.pos
      (items ++ [none]) := by
  obtain ⟨hend, hid, hsize, hadmits⟩ := h.parts hfits limit
  have hpass : Reader.Yields (Element.passVoid take .void) ⟨t.data, limit⟩
      (s.pos + ElementId.void.size) (none, e.sizeLength + e.size)
      (s.pos + ElementId.void.size + (e.sizeLength + e.size)) := by
    rw [Element.passVoid, if_pos rfl]
    exact (Element.yields_skipRest hsize hadmits).map rfl
  rw [hend]
  exact .cons hid (hpass.map rfl) .nil

end VoidElement

section

open Element

variable {β : Type} {take : ElementId → Reader (Option β × Nat)}

/-- In a stream where a child of a row was blanked out, a reader of the row finds nothing in its
place, and the others as before. -/
theorem traverses_of_blanked {s t : Stream} {limit start stop : Nat} {before after : List Child}
    {child : Child} {e : VoidElement} (htake : ∀ id, Takes (take id))
    (hrow : Row ⟨s.data, limit⟩ start stop (before ++ child :: after))
    (hpos : s.pos = start + Child.sizes before) (hwritten : s.Written t child.totalSize)
    (hlength : t.data.length = s.data.length) (hlaid : e.Laid s t)
    (hfits : VarInt.Fits e.size e.sizeLength) {items : List (Option β)}
    (htraverses : Traverses (collect take) ⟨s.data, limit⟩ start [] stop items) :
    items.length = (before ++ child :: after).length ∧
      Traverses (collect take) ⟨t.data, limit⟩ start [] stop (items.set before.length none) := by
  obtain ⟨first, hfirst, hrow, htraverses, hbefore⟩ := hrow.traverses_part htake htraverses
  rw [← hpos] at hrow htraverses hbefore
  have hchild : Row ⟨s.data, limit⟩ s.pos stop ([child] ++ after) := hrow
  obtain ⟨middle, hmiddle, hrow, htraverses, -⟩ := hchild.traverses_part htake htraverses
  obtain ⟨item, rfl⟩ := List.length_eq_one_iff.mp hmiddle
  have hend : s.pos + Child.sizes [child] = t.pos := hwritten.pos_eq.symm
  rw [hend] at hrow htraverses
  obtain ⟨last, hlast, rfl, hafter⟩ := hrow.traverses htake htraverses
  have hkept : (⟨s.data, limit⟩ : Source).Agrees ⟨t.data, limit⟩ start (Child.sizes before) :=
    hwritten.agrees hlength (Or.inl (Nat.le_of_eq hpos.symm)) limit
  have hkept' : (⟨s.data, limit⟩ : Source).Agrees ⟨t.data, limit⟩ t.pos (Child.sizes after) :=
    hwritten.agrees hlength (Or.inr (Nat.le_of_eq hwritten.pos_eq.symm)) limit
  have hblanked := ((hbefore _ hkept []).append (hlaid.traverses hfits limit take _)).append
    (hafter _ hkept' _)
  have hset : ([] ++ first ++ [item] ++ last).set before.length none =
      [] ++ first ++ [none] ++ last := by
    rw [List.append_assoc _ [item], List.append_assoc _ [none], List.nil_append, ← hfirst,
      List.set_append_right _ _ (Nat.le_refl _), Nat.sub_self]
    rfl
  rw [hset]
  refine ⟨?_, hblanked⟩
  simp only [List.length_append, List.length_cons, List.length_nil, hfirst, hlast]
  omega

end

/-- An element of a row can be blanked out, and no reader of the row notices, apart from not finding
that element.  The void element that takes its place has the same total size.  It is written over
the bytes of that element and no others, filled or not.  Whatever is kept of the other elements when
they are read is what was kept of them before. -/
theorem blanking_unnoticed :
    (∀ {ε : Type} [Element ε] (e : ε) (fill : Bool), 2 ≤ Element.totalSize e →
        Element.totalSize e ≤ 128 ^ VarInt.maxLength →
        Element.totalSize (VoidElement.replacing e fill) = Element.totalSize e) ∧
      ∀ (s : Stream) (limit start stop : Nat) (before after : List Element.Child)
        (child : Element.Child),
        Element.Row ⟨s.data, limit⟩ start stop (before ++ child :: after) →
        s.pos = start + Element.Child.sizes before →
        child.totalSize ≤ 128 ^ VarInt.maxLength → ∀ (fill : Bool) (log : Log), ∃ t log',
          (VoidElement.replacing child.element fill).writeAround ⟨s, log⟩ =
              .ok child.totalSize ⟨t, log'⟩ ∧
            s.Written t child.totalSize ∧ t.data.length = s.data.length ∧
            ∀ {β : Type} (take : ElementId → Reader (Option β × Nat)),
              (∀ id, Element.Takes (take id)) → ∀ parent log items cursor,
              Element.readChildren parent (Element.Child.sizes (before ++ child :: after)) []
                  (Element.collect take) ⟨s.data, limit⟩ ⟨start, log⟩ = .ok items cursor →
              cursor.pos = stop ∧ items.length = (before ++ child :: after).length ∧
                ∀ log, ∃ log',
                  Element.readChildren parent (Element.Child.sizes (before ++ child :: after)) []
                      (Element.collect take) ⟨t.data, limit⟩ ⟨start, log⟩ =
                    .ok (items.set before.length none) ⟨stop, log'⟩ := by
  refine ⟨fun e fill hmin hmax => (VoidElement.fits_replacing hmin hmax fill).1, ?_⟩
  intro s limit start stop before after child hrow hpos hmax fill log
  have hstands := hrow.stands
  rw [← hpos] at hstands
  obtain ⟨_, _, _, _, _, hroom⟩ := hstands.parts
  obtain ⟨htotal, hfits⟩ := VoidElement.fits_replacing hstands.two_le hmax fill
  obtain ⟨t, log', hok, hwritten, hlength⟩ :=
    VoidElement.ok_of_room (s := s) hfits (by rw [htotal]; exact hroom) log
  have hlaid := (VoidElement.laid_of_writeAround hok).2
  rw [htotal] at hok hwritten
  refine ⟨t, log', hok, hwritten, hlength, ?_⟩
  intro β take htake parent log items cursor hread
  obtain ⟨htraverses, hstop⟩ := Element.traverses_of_readChildren
    (fun items id => Reader.Advances.of_spans (Element.spans_collect htake items id)) hread
  rw [← hrow.stop_eq] at hstop
  dsimp only at htraverses
  rw [hstop] at htraverses
  obtain ⟨hcount, htraverses⟩ :=
    traverses_of_blanked htake hrow hpos hwritten hlength hlaid hfits htraverses
  rw [hrow.stop_eq] at htraverses hstop ⊢
  exact ⟨hstop, hcount, Element.yields_readChildren parent htraverses⟩

/-- A timecode, a codec state and a size. -/
def stateBetween : List Element.Child :=
  [⟨({ id := .timecode, value := .uint 7 } : PrimitiveElement)⟩,
    ⟨({ id := .codecState, value := .binary [0xaa, 0xbb] } : PrimitiveElement)⟩,
    ⟨({ id := .prevSize, value := .uint 9 } : PrimitiveElement)⟩]

/-- Reads a codec state or a number, and keeps the number and the offset. -/
def readNumber (id : ElementId) : Reader (Option (Option UInt64 × Nat) × Nat) := do
  let value : Value := if id = .codecState then .binary [] else .uint 0
  let (e, count) ← Element.read ({ id, value } : PrimitiveElement)
  return (some (e.value.uint?, e.offset), count)

/-- When the codec state is blanked out, its bytes stay in the stream, but a reader that found it
before finds only the numbers. -/
theorem stateBetween_blanked :
    ∃ log, Element.Child.writeAll stateBetween ⟨{}, #[]⟩ = .ok 10
        ⟨⟨[0xe7, 0x81, 0x07, 0xa4, 0x82, 0xaa, 0xbb, 0xab, 0x81, 0x09], 10, false⟩, log⟩ ∧
      ∃ t log,
        (VoidElement.replacing
            ({ id := .codecState, value := .binary [0xaa, 0xbb] } : PrimitiveElement)
            false).writeAround
              ⟨⟨[0xe7, 0x81, 0x07, 0xa4, 0x82, 0xaa, 0xbb, 0xab, 0x81, 0x09], 3, false⟩, #[]⟩ =
          .ok 4 ⟨t, log⟩ ∧
        t.pos = 7 ∧ t.data.length = 10 ∧
        ∃ log, Element.readChildren .cluster 10 [] (Element.collect readNumber) ⟨t.data, 100⟩
            ⟨0, #[]⟩ = .ok [some (some 7, 0), none, some (some 9, 7)] ⟨10, log⟩ := by
  have hwrite : ∃ log, Element.Child.writeAll stateBetween ⟨{}, #[]⟩ = .ok 10
      ⟨⟨[0xe7, 0x81, 0x07, 0xa4, 0x82, 0xaa, 0xbb, 0xab, 0x81, 0x09], 10, false⟩, log⟩ :=
    ⟨_, rfl⟩
  obtain ⟨log, hwrite⟩ := hwrite
  have hrow := Element.row_of_writeAll (Nat.zero_le _) hwrite 100
  have hfound : resultOf? (Element.readChildren .cluster 10 [] (Element.collect readNumber)
      ⟨[0xe7, 0x81, 0x07, 0xa4, 0x82, 0xaa, 0xbb, 0xab, 0x81, 0x09], 100⟩ ⟨0, #[]⟩) =
        some [some (some 7, 0), some (none, 3), some (some 9, 7)] := by decide +kernel
  obtain ⟨cursor, hfound⟩ := of_resultOf? hfound
  have htake : ∀ id, Element.Takes (readNumber id) := fun id =>
    .read ({ id, value := if id = .codecState then .binary [] else .uint 0 } : PrimitiveElement)
      fun e => some (e.value.uint?, e.offset)
  obtain ⟨-, hblank⟩ := blanking_unnoticed
  obtain ⟨t, log', hok, hwritten, hlength, hread⟩ :=
    hblank ⟨[0xe7, 0x81, 0x07, 0xa4, 0x82, 0xaa, 0xbb, 0xab, 0x81, 0x09], 3, false⟩ 100 0 10 [_] [_]
      _ hrow rfl (by decide) false #[]
  obtain ⟨-, -, hread⟩ := hread readNumber htake .cluster #[] _ cursor hfound
  exact ⟨log, hwrite, t, log', hok, hwritten.pos_eq, hlength, hread #[]⟩

end Ebml
