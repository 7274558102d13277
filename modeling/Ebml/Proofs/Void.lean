import Ebml.Element.Void
import Ebml.Proofs.Element

/-!
# Void elements on streams

The size of a void element may be stored in more octets than it needs, but there is always room for
it in them.  This holds however the element was made (`VoidElement.Made`), and is what a writer has
to know (`Made.fits`).
-/

namespace Ebml.VoidElement

variable {e : VoidElement} {sure : Prop}

/-- The ways in which a void element is made and changed. -/
inductive Made : VoidElement → Prop
  | new (size : Nat) (fill : Bool) : Made { size, fill }
  | replacing {ε : Type} [Element ε] (replaced : ε) (fill : Bool) : Made (replacing replaced fill)
  | setSize {e : VoidElement} (h : Made e) (size : Nat) : Made (e.setSize size)
  | setFill {e : VoidElement} (h : Made e) (fill : Bool) : Made { e with fill }
  | setOffset {e : VoidElement} (h : Made e) (offset : Nat) : Made (Element.setOffset e offset)
  | read {e e' : VoidElement} {size : Nat} {source : Source} {cursor cursor' : Cursor} (h : Made e)
      (hok : Element.readBody e size source cursor = .ok e' cursor') : Made e'

/-- The size is stored in octets that have room for it. -/
def Roomy (e : VoidElement) : Prop :=
  VarInt.octetLength e.size ≤ e.sizeLength ∧
    (e.size ≤ VarInt.max → e.sizeLength ≤ VarInt.maxLength)

theorem roomy_of_minimal {size offset : Nat} {fill : Bool} :
    Roomy { size, sizeLength := VarInt.octetLength size, fill, offset } :=
  ⟨Nat.le_refl _, VarInt.octetLength_le_maxLength⟩

theorem roomy_ofTotalSize (total : Nat) (fill : Bool) : Roomy (ofTotalSize total fill) := by
  rw [ofTotalSize]
  split
  next length hfitting =>
    rw [fitting?] at hfitting
    have hmem := List.mem_of_find?_eq_some hfitting
    have hroom := List.find?_some hfitting
    have hle : length ≤ VarInt.maxLength := by
      rw [List.mem_range'_1] at hmem
      omega
    exact ⟨of_decide_eq_true hroom, fun _ => hle⟩
  next => exact roomy_of_minimal

/-- The octets of the size of a void element have room for it. -/
theorem Made.roomy (h : e.Made) : e.Roomy := by
  induction h with
  | new size fill => exact roomy_of_minimal
  | replacing replaced fill => exact roomy_ofTotalSize _ fill
  | setSize _ size => exact roomy_of_minimal
  | setFill _ fill ih => exact ih
  | setOffset _ offset ih => exact ih
  | read _ hok =>
      obtain ⟨_, _, _, hpure⟩ := Reader.bind_eq_ok.mp hok
      cases hpure
      exact roomy_of_minimal

/-- So it can be written, if it can be stored at all. -/
theorem Made.fits (h : e.Made) (hmax : e.size ≤ VarInt.max) : VarInt.Fits e.size e.sizeLength := by
  obtain ⟨hroom, hlength⟩ := h.roomy
  have hpos := VarInt.octetLength_pos e.size
  exact ⟨by omega, hlength hmax, hroom, hmax⟩

/-! ## Writing and reading -/

/-- The bytes of the element. -/
def encoding (e : VoidElement) : List UInt8 :=
  ElementId.void.encode ++ (VarInt.sized e.size e.sizeLength ++ List.replicate e.size 0)

theorem length_encoding (e : VoidElement) : e.encoding.length = Element.totalSize e := by
  rw [encoding, List.length_append, List.length_append, ElementId.length_encode,
    VarInt.length_sized, List.length_replicate, ← Nat.add_assoc]
  rfl

theorem emits_writeBody (e : VoidElement) :
    Writer.Emits sure (Element.writeBody e) (List.replicate e.size 0) e.size :=
  (Writer.Emits.emitZeros e.size).map rfl

theorem emits_write (h : sure → VarInt.Fits e.size e.sizeLength) :
    Writer.Emits sure (Element.write e) e.encoding (Element.totalSize e) := by
  have hrest := (VarInt.emits_writeSized h).bind (f := fun sizeLength => do
    let body ← Element.writeBody e
    return ElementId.void.size + sizeLength + body) (e.emits_writeBody.map rfl)
  exact (ElementId.emits_write .void).bind hrest

theorem spans_readBody (e : VoidElement) (size : Nat) :
    Reader.Spans (Element.readBody e size) fun _ n => n = size :=
  (Reader.Spans.skip size).bind fun _ _ h => Reader.Spans.pure h

end Ebml.VoidElement
