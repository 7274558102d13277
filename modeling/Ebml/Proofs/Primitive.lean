import Ebml.Element.Primitive
import Ebml.Proofs.Element
import Ebml.Proofs.Integer

/-!
# Primitive elements on streams

`Value.encoding` is the body of a primitive element.  Writing a value never fails but for want of
room, and a body that was read was read to its end, whatever its kind.

Master elements read the rest of a primitive child by the kind that its ID stands for.  Such a
child is one step of a way through children (`traverses_unsigned`, `traverses_signed`,
`traverses_binary`).
-/

namespace Ebml

namespace Value

variable {source : Source} {pos : Nat} {sure : Prop}

/-- The bytes of a body that holds the value. -/
def encoding : Value → List UInt8
  | int value | date value => Integer.encodeSigned value
  | uint value => Integer.encodeUnsigned value
  | float value => BigEndian.encode 8 value.bits.toNat
  | string value => Utf8.encode value
  | binary value => value

/-- What a reader of the value needs memory for. -/
def payloads : Value → List (List UInt8)
  | string text => [Utf8.encode text]
  | binary bytes => [bytes]
  | _ => []

theorem length_encoding (value : Value) : value.encoding.length = value.bodySize := by
  cases value with
  | int value => exact Integer.length_encodeSigned value
  | uint value => exact Integer.length_encodeUnsigned value
  | float value => exact BigEndian.length_encode _ _
  | string value => rfl
  | date value => exact Integer.length_encodeSigned value
  | binary value => rfl

theorem emits_write (value : Value) :
    Writer.Emits sure value.write value.encoding value.bodySize := by
  rw [← length_encoding]
  cases value with
  | int value => exact Writer.Emits.emitCounted _
  | uint value => exact Writer.Emits.emitCounted _
  | float value => exact Writer.Emits.emitCounted _
  | string value => exact Writer.Emits.emitCounted _
  | date value => exact Writer.Emits.emitCounted _
  | binary value => exact Writer.Emits.emitCounted _

theorem spans_readNumber {α : Type} {id : ElementId} {size : Nat} {number : Nat → Reader α}
    (h : Reader.Spans (number size) fun _ n => n = size) :
    Reader.Spans (readNumber id size number) fun _ n => n = size := by
  rw [readNumber]
  split
  next => exact Reader.Spans.throw_bind
  next => exact h

theorem spans_readFloat (id : ElementId) (size : Nat) :
    Reader.Spans (readFloat id size) fun _ n => n = size := by
  unfold readFloat
  split
  next => exact Reader.Spans.pure rfl
  next => exact (Reader.Spans.take 4).bind fun _ _ h => Reader.Spans.pure h.1
  next => exact (Reader.Spans.take 8).bind fun _ _ h => Reader.Spans.pure h.1
  next => exact Reader.Spans.throw

theorem spans_readText (size : Nat) : Reader.Spans (readText size) fun _ n => n = size := by
  refine (Reader.Spans.body size).bind fun bytes n h => ?_
  split
  next => exact Reader.Spans.pure h.1
  next => exact Reader.Spans.throw

/-- A body that was read was read to its end. -/
theorem spans_read (kind : Kind) (id : ElementId) (size : Nat) :
    Reader.Spans (read kind id size) fun _ n => n = size := by
  cases kind with
  | int =>
      exact (spans_readNumber (Integer.spans_readSigned size)).bind fun _ _ h => Reader.Spans.pure h
  | uint =>
      exact (spans_readNumber (Integer.spans_readUnsigned size)).bind fun _ _ h =>
        Reader.Spans.pure h
  | float => exact (spans_readFloat id size).bind fun _ _ h => Reader.Spans.pure h
  | string => exact (spans_readText size).bind fun _ _ h => Reader.Spans.pure h
  | date =>
      exact (spans_readNumber (Integer.spans_readSigned size)).bind fun _ _ h => Reader.Spans.pure h
  | binary => exact (Reader.Spans.body size).bind fun _ _ h => Reader.Spans.pure h.1

theorem yields_readNumber {α : Type} {id : ElementId} {size stop : Nat} {number : Nat → Reader α}
    {a : α} (hsize : size ≤ Integer.maxLength)
    (h : Reader.Yields (number size) source pos a stop) :
    Reader.Yields (readNumber id size number) source pos a stop := by
  rw [readNumber, if_neg (Nat.not_lt.mpr hsize)]
  exact h

theorem yields_read_uint {id : ElementId} {value : UInt64}
    (h : source.Holds pos (Integer.encodeUnsigned value)) :
    Reader.Yields (read .uint id (Integer.unsignedSize value)) source pos (.uint value)
      (pos + Integer.unsignedSize value) :=
  (yields_readNumber (Integer.unsignedSize_le value) (Integer.yields_readUnsigned h)).map rfl

/-- An unsigned number that was read is that of the octets of the body. -/
theorem of_read_uint {size : Nat} {id : ElementId} {value : Value} {cursor cursor' : Cursor}
    (hok : read .uint id size source cursor = .ok value cursor') :
    ∃ octets, Integer.Stored source cursor.pos size octets ∧
      value = .uint (Integer.ofOctetsUnsigned octets) := by
  obtain ⟨number, _, hnumber, hpure⟩ := Reader.bind_eq_ok.mp hok
  cases hpure
  rw [readNumber] at hnumber
  split at hnumber
  next => cases hnumber
  next hle =>
    rw [Integer.readUnsigned] at hnumber
    split at hnumber
    next => cases hnumber
    next =>
      obtain ⟨octets, _, htake, hpure⟩ := Reader.bind_eq_ok.mp hnumber
      cases hpure
      obtain ⟨_, hheld, _, rfl, hlength⟩ := Reader.Parses.take size _ _ _ htake
      exact ⟨octets, ⟨hlength, Nat.le_of_not_lt hle, hheld⟩, rfl⟩

theorem yields_read_int {id : ElementId} {value : Int64}
    (h : source.Holds pos (Integer.encodeSigned value)) :
    Reader.Yields (read .int id (Integer.signedSize value)) source pos (.int value)
      (pos + Integer.signedSize value) :=
  (yields_readNumber (Integer.signedSize_le value) (Integer.yields_readSigned h)).map rfl

theorem yields_read_binary {id : ElementId} {value : List UInt8} (h : source.Holds pos value)
    (hlimit : value.length ≤ source.limit) :
    Reader.Yields (read .binary id value.length) source pos (.binary value) (pos + value.length) :=
  (Reader.Yields.body h hlimit).map rfl

end Value

namespace PrimitiveElement

variable {source : Source} {pos : Nat} {sure : Prop}

instance : Element.Encoded PrimitiveElement where
  body e := e.value.encoding
  length_body e := Value.length_encoding e.value

/-- An unsigned number is left out if it is the default. -/
theorem isDefault_uint {id : ElementId} {value default : UInt64} :
    ({ id, value := .uint value, default? := some (.uint default) } : PrimitiveElement).isDefault ↔
      default = value :=
  show (default == value) = true ↔ default = value from beq_iff_eq

theorem emits_write {e : PrimitiveElement} (h : sure → e.value.bodySize ≤ VarInt.max) :
    Writer.Emits sure (Element.write e) (Element.encoding e) (Element.totalSize e) :=
  Element.emits_write ((Writer.Emits.note _).bind (Value.emits_write e.value)) h

/-- Children that are primitive elements. -/
theorem emits_children {children : List PrimitiveElement}
    (h : sure → Element.childrenSize children ≤ VarInt.max) :
    Writer.Emits sure (Writer.each Element.write children)
      (children.flatMap Element.encoding) (Element.childrenSize children) :=
  Writer.Emits.each fun _ hm =>
    emits_write fun hs => Nat.le_trans (Element.bodySize_le_childrenSize hm) (h hs)

theorem spans_readBody (e : PrimitiveElement) (size : Nat) :
    Reader.Spans (Element.readBody e size) fun _ n => n = size := by
  refine (Reader.Spans.note _).bind fun _ n hn => ?_
  subst hn
  exact (Value.spans_read _ _ _).bind fun _ n hn => Reader.Spans.pure (by omega)

theorem spans_read (e : PrimitiveElement) :
    Reader.Spans (Element.read e) fun result n => n = result.2 :=
  Element.spans_read (fun e size _ => e.spans_readBody size) e

/-! ## Children of master elements -/

theorem spans_readChild (id : ElementId) (kind : Value.Kind) :
    Reader.Spans (readChild id kind) fun result n => n = result.2 :=
  (spans_read _).bind fun _ _ h => Reader.Spans.pure h

theorem spans_readUnsignedChild (id : ElementId) :
    Reader.Spans (readUnsignedChild id) fun result n => n = result.2 :=
  (spans_readChild id .uint).bind fun _ _ h => Reader.Spans.pure h

theorem spans_readSignedChild (id : ElementId) :
    Reader.Spans (readSignedChild id) fun result n => n = result.2 :=
  (spans_readChild id .int).bind fun _ _ h => Reader.Spans.pure h

theorem spans_readBinaryChild (id : ElementId) :
    Reader.Spans (readBinaryChild id) fun result n => n = result.2 :=
  (spans_readChild id .binary).bind fun _ _ h => Reader.Spans.pure h

theorem counts_readChild (id : ElementId) (kind : Value.Kind) :
    Element.Counts (readChild id kind) Prod.snd :=
  (Element.counts_read _).map fun _ => ⟨_, rfl, rfl⟩

theorem counts_readUnsignedChild (id : ElementId) :
    Element.Counts (readUnsignedChild id) Prod.snd :=
  (counts_readChild id .uint).map fun _ => ⟨_, rfl, rfl⟩

theorem counts_readSignedChild (id : ElementId) : Element.Counts (readSignedChild id) Prod.snd :=
  (counts_readChild id .int).map fun _ => ⟨_, rfl, rfl⟩

theorem counts_readBinaryChild (id : ElementId) : Element.Counts (readBinaryChild id) Prod.snd :=
  (counts_readChild id .binary).map fun _ => ⟨_, rfl, rfl⟩

/-- A child with a number that was read. -/
theorem of_readUnsignedChild {id : ElementId} {value : UInt64} {count : Nat}
    {cursor cursor' : Cursor}
    (hok : readUnsignedChild id source cursor = .ok (value, count) cursor') :
    ∃ size length octets,
      Reader.Yields VarInt.read source cursor.pos (size, length) (cursor.pos + length) ∧
        count = length + size ∧ Integer.Stored source (cursor.pos + length) size octets ∧
          value = Integer.ofOctetsUnsigned octets := by
  obtain ⟨_, _, hchild, hpure⟩ := Reader.bind_eq_ok.mp hok
  cases hpure
  obtain ⟨⟨e, _⟩, _, hread, hpure⟩ := Reader.bind_eq_ok.mp hchild
  cases hpure
  obtain ⟨size, length, _, rfl, hsize, hbody⟩ := Element.of_read hread
  obtain ⟨_, _, hnote, hbody⟩ := Reader.bind_eq_ok.mp hbody
  cases hnote
  obtain ⟨_, _, hvalue, hpure⟩ := Reader.bind_eq_ok.mp hbody
  cases hpure
  obtain ⟨octets, hstored, rfl⟩ := Value.of_read_uint hvalue
  exact ⟨size, length, octets, hsize, rfl, hstored, rfl⟩

theorem yields_readChild (id : ElementId) {value : Value} (hmax : value.bodySize ≤ VarInt.max)
    (hsize : source.Holds pos (VarInt.minimal value.bodySize))
    (hread : Reader.Yields (Value.read value.kind id value.bodySize) source
      (pos + VarInt.octetLength value.bodySize) value
      (pos + VarInt.octetLength value.bodySize + value.bodySize)) :
    Reader.Yields (readChild id value.kind) source pos
      (value, VarInt.octetLength value.bodySize + value.bodySize)
      (pos + VarInt.octetLength value.bodySize + value.bodySize) := by
  have hkind : value.kind.zero.kind = value.kind := by
    cases value with
    | int => rfl
    | uint => rfl
    | float => rfl
    | string => rfl
    | date => rfl
    | binary => rfl
  have hbody : Reader.Yields
      (Element.readBody ({ id, value := value.kind.zero, offset := pos - id.size } :
        PrimitiveElement) value.bodySize) source (pos + VarInt.octetLength value.bodySize)
      ({ id, value, offset := pos - id.size } : PrimitiveElement)
      (pos + VarInt.octetLength value.bodySize + value.bodySize) := by
    refine (Reader.Yields.note _).bind (Reader.Yields.map ?_ rfl)
    show Reader.Yields (Value.read value.kind.zero.kind id value.bodySize) _ _ _ _
    rw [hkind]
    exact hread
  have helement := Element.yields_read (e := ({ id, value := value.kind.zero } : PrimitiveElement))
    hmax hsize hbody
  exact helement.map rfl

section

variable {α : Type} {handle : α → ElementId → Reader (α × Nat)} {acc next : α} {id : ElementId}

theorem traverses_child {value : Value}
    (h : source.Holds pos (Element.encoding ({ id, value } : PrimitiveElement)))
    (hhandle : Reader.Yields (handle acc id) source (pos + id.size)
      (next, VarInt.octetLength value.bodySize + value.bodySize)
      (pos + id.size + VarInt.octetLength value.bodySize + value.bodySize)) :
    Element.Traverses handle source pos acc
      (pos + (Element.encoding ({ id, value } : PrimitiveElement)).length) next := by
  have hlength : (Element.encoding ({ id, value } : PrimitiveElement)).length =
      id.size + (VarInt.octetLength value.bodySize + value.bodySize) := by
    rw [Element.length_encoding, ← Nat.add_assoc]
    rfl
  rw [hlength, ← Nat.add_assoc]
  exact Element.Traverses.child (Element.holds_parts h).1 (hhandle.cast (by omega))

/-- A child with an unsigned number, where the handler takes it for one. -/
theorem traverses_unsigned {value : UInt64}
    (h : source.Holds pos (Element.encoding ({ id, value := .uint value } : PrimitiveElement)))
    (absorb : UInt64 → α) (hnext : absorb value = next)
    (hhandle : handle acc id = do
      let (value, count) ← readUnsignedChild id
      return (absorb value, count)) :
    Element.Traverses handle source pos acc
      (pos + (Element.encoding ({ id, value := .uint value } : PrimitiveElement)).length) next := by
  obtain ⟨_, hsize, hbody⟩ := Element.holds_parts h
  have hmax : (Value.uint value).bodySize ≤ VarInt.max :=
    Nat.le_trans (Integer.unsignedSize_le value) (by decide)
  have hchild := yields_readChild id hmax hsize (Value.yields_read_uint hbody)
  have hread : Reader.Yields (readUnsignedChild id) source _ (value, _) _ := hchild.map rfl
  refine traverses_child h ?_
  rw [hhandle, ← hnext]
  exact hread.map rfl

/-- A child with a signed number, where the handler takes it for one. -/
theorem traverses_signed {value : Int64}
    (h : source.Holds pos (Element.encoding ({ id, value := .int value } : PrimitiveElement)))
    (absorb : Int64 → α) (hnext : absorb value = next)
    (hhandle : handle acc id = do
      let (value, count) ← readSignedChild id
      return (absorb value, count)) :
    Element.Traverses handle source pos acc
      (pos + (Element.encoding ({ id, value := .int value } : PrimitiveElement)).length) next := by
  obtain ⟨_, hsize, hbody⟩ := Element.holds_parts h
  have hmax : (Value.int value).bodySize ≤ VarInt.max :=
    Nat.le_trans (Integer.signedSize_le value) (by decide)
  have hchild := yields_readChild id hmax hsize (Value.yields_read_int hbody)
  have hread : Reader.Yields (readSignedChild id) source _ (value, _) _ := hchild.map rfl
  refine traverses_child h ?_
  rw [hhandle, ← hnext]
  exact hread.map rfl

/-- A child with bytes, where the handler takes it for one. -/
theorem traverses_binary {value : List UInt8}
    (h : source.Holds pos (Element.encoding ({ id, value := .binary value } : PrimitiveElement)))
    (hmax : value.length ≤ VarInt.max) (hlimit : value.length ≤ source.limit)
    (absorb : List UInt8 → α) (hnext : absorb value = next)
    (hhandle : handle acc id = do
      let (value, count) ← readBinaryChild id
      return (absorb value, count)) :
    Element.Traverses handle source pos acc
      (pos + (Element.encoding ({ id, value := .binary value } : PrimitiveElement)).length)
      next := by
  obtain ⟨_, hsize, hbody⟩ := Element.holds_parts h
  have hmax' : (Value.binary value).bodySize ≤ VarInt.max := hmax
  have hchild := yields_readChild id hmax' hsize
    (Value.yields_read_binary hbody hlimit)
  have hread : Reader.Yields (readBinaryChild id) source _ (value, _) _ := hchild.map rfl
  refine traverses_child h ?_
  rw [hhandle, ← hnext]
  exact hread.map rfl

end

end PrimitiveElement

end Ebml
