import Ebml.Proofs.Element.Atomicity
import Ebml.Proofs.Element.RoundTrip
import Ebml.Proofs.Utf8

/-!
# Primitive elements survive a round trip

A value is read back from its bytes whatever its kind, into any element of that kind
(`PrimitiveElement.Restores`).  Floating-point numbers keep all their bits.  Only the NULs at the
end of a text are lost, since they are taken for padding (`Value.restored`).

A body need not be one that a writer would make.  For whole numbers it is told what comes of any
body (`Value.WholeBody`): one that is too long is refused, and any other that is there to its end is
the number that its octets stand for, however many of them are redundant.
-/

namespace Ebml

namespace Value

variable {source : Source} {pos size : Nat} {id : ElementId}

/-! ## Values that were written -/

/-- What is read where a value was written.  A text has lost its last NULs. -/
def restored : Value → Value
  | string text => string (Utf8.trimNuls text)
  | value => value

theorem yields_readFloat {value : Double}
    (h : source.Holds pos (BigEndian.encode 8 value.bits.toNat)) :
    Reader.Yields (readFloat id 8) source pos value (pos + 8) := by
  have htake := Reader.Yields.take h
  rw [BigEndian.length_encode] at htake
  refine htake.map ?_
  have hbits : value.bits.toNat < 256 ^ 8 := value.bits.toNat_lt
  rw [BigEndian.decode_encode, Nat.mod_eq_of_lt hbits, UInt64.ofNat_toNat]

theorem yields_readText {text : String} (h : source.Holds pos (Utf8.encode text))
    (hlimit : (Utf8.encode text).length ≤ source.limit) :
    Reader.Yields (readText text.utf8ByteSize) source pos (Utf8.trimNuls text)
      (pos + text.utf8ByteSize) := by
  have hpadding : stripPadding (Utf8.encode text) = Utf8.encode (Utf8.trimNuls text) :=
    (Utf8.encode_trimNuls text).symm
  refine (Reader.Yields.body h hlimit).map ?_
  rw [hpadding, Utf8.decode_encode]

theorem yields_read {value : Value} (id : ElementId) (h : source.Holds pos value.encoding)
    (hlimit : ∀ payload ∈ value.payloads, payload.length ≤ source.limit) :
    Reader.Yields (read value.kind id value.bodySize) source pos value.restored
      (pos + value.bodySize) := by
  cases value with
  | int value => exact yields_read_int h
  | uint value => exact yields_read_uint h
  | float value => exact (yields_readFloat h).map rfl
  | string text => exact (yields_readText h (hlimit _ (List.mem_singleton_self _))).map rfl
  | date value =>
      exact (yields_readNumber (Integer.signedSize_le value) (Integer.yields_readSigned h)).map rfl
  | binary bytes => exact yields_read_binary h (hlimit _ (List.mem_singleton_self _))

/-! ## Whole numbers in any body -/

/-- The values of the kind are whole numbers. -/
def Kind.isWhole : Kind → Bool
  | int | uint | date => true
  | float | string | binary => false

/-- The value is the whole number that octets stand for. -/
def IsWholeOf (octets : List UInt8) : Value → Prop
  | int value | date value => value.toInt = Integer.twosComplement octets
  | uint value => value.toNat = BigEndian.decode octets
  | float _ | string _ | binary _ => False

/-- No octets stand for zero. -/
theorem IsWholeOf.eq_zero {value : Value} (h : value.IsWholeOf []) : value = value.kind.zero := by
  cases value with
  | int value => exact congrArg int (Int64.toInt_inj.mp h)
  | uint value => exact congrArg uint (UInt64.toNat_inj.mp h)
  | date value => exact congrArg date (Int64.toInt_inj.mp h)
  | float => exact h.elim
  | string => exact h.elim
  | binary => exact h.elim

/-- What can come of reading a body of `size` octets as a whole number. -/
inductive WholeBody (kind : Kind) (id : ElementId) (size : Nat) (source : Source)
    (cursor : Cursor) : EStateM.Result Error Cursor Value → Prop where
  /-- A body of more than eight octets is refused before it is looked at. -/
  | long : Integer.maxLength < size →
      WholeBody kind id size source cursor (.error (.badBodySize id.value size 0) cursor)
  /-- Any other body is the number that its octets stand for. -/
  | number {octets : List UInt8} {value : Value} {log : Log} :
      Integer.Stored source cursor.pos size octets → value.kind = kind → value.IsWholeOf octets →
        WholeBody kind id size source cursor (.ok value ⟨cursor.pos + size, log⟩)
  /-- The stream ends before the body does. -/
  | cut {cursor' : Cursor} : size ≤ Integer.maxLength →
      (∀ octets, ¬ Integer.Stored source cursor.pos size octets) →
        WholeBody kind id size source cursor (.error (.readError .unfilled) cursor')

theorem wholeBody_readNumber {α : Type} {kind : Kind} {cursor : Cursor} {number : Nat → Reader α}
    {make : α → Value} (decode : List UInt8 → α)
    (hnumber : ∀ length, number length = do
      if length > Integer.maxLength then throw Integer.tooLong
      return decode (← Reader.take length))
    (hkind : ∀ a, (make a).kind = kind)
    (hwhole : ∀ {octets}, octets.length ≤ Integer.maxLength →
      (make (decode octets)).IsWholeOf octets) :
    WholeBody kind id size source cursor
      ((do return make (← readNumber id size number) : Reader Value) source cursor) := by
  rcases Nat.lt_or_ge Integer.maxLength size with hlong | hsize
  · have hrefused : readNumber id size number source cursor =
        .error (.badBodySize id.value size 0) cursor := by
      rw [readNumber, if_pos hlong]
      rfl
    rw [Reader.bind_of_error hrefused]
    exact .long hlong
  by_cases hthere : ∃ octets, Integer.Stored source cursor.pos size octets
  · obtain ⟨octets, hstored⟩ := hthere
    have hlength := hstored.length_eq
    subst hlength
    have hyields := Integer.yields_take_decode decode hsize hstored.held
    rw [← hnumber] at hyields
    obtain ⟨log, hok⟩ := yields_readNumber hsize hyields cursor.log
    rw [Reader.bind_of_ok hok]
    exact .number hstored (hkind _) (hwhole hsize)
  · have habsent : ∀ octets, ¬ Integer.Stored source cursor.pos size octets :=
      fun octets hstored => hthere ⟨octets, hstored⟩
    have htaken : ((source.bytes.drop cursor.pos).take size).length ≠ size := fun hlength =>
      habsent _ ⟨hlength, hsize, List.take_prefix _ _⟩
    have hcut : readNumber id size number source cursor =
        .error (.readError .unfilled) { cursor with pos := source.bytes.length } := by
      rw [readNumber, if_neg (Nat.not_lt.mpr hsize), hnumber, if_neg (Nat.not_lt.mpr hsize)]
      exact Reader.bind_of_error (if_neg htaken)
    rw [Reader.bind_of_error hcut]
    exact .cut hsize habsent

theorem wholeBody_read {kind : Kind} (h : kind.isWhole) (id : ElementId) (size : Nat)
    (source : Source) (cursor : Cursor) :
    WholeBody kind id size source cursor (read kind id size source cursor) := by
  cases kind with
  | int =>
      exact wholeBody_readNumber Integer.ofOctetsSigned (fun _ => rfl) (fun _ => rfl)
        Integer.toInt_ofOctetsSigned
  | uint =>
      exact wholeBody_readNumber Integer.ofOctetsUnsigned (fun _ => rfl) (fun _ => rfl)
        Integer.toNat_ofOctetsUnsigned
  | date =>
      exact wholeBody_readNumber Integer.ofOctetsSigned (fun _ => rfl) (fun _ => rfl)
        Integer.toInt_ofOctetsSigned
  | float => cases h
  | string => cases h
  | binary => cases h

end Value

namespace PrimitiveElement

/-! ## Reading into an element -/

/-- What becomes of an element when its value is read or could not be read. -/
def outcome (e : PrimitiveElement) (count : Nat) :
    EStateM.Result Error Cursor Value → EStateM.Result Error (Held PrimitiveElement Cursor) Nat
  | .ok value cursor => .ok count ⟨{ e with value }, cursor⟩
  | .error fault cursor => .error fault ⟨e, cursor⟩

theorem fillBody_eq (e : PrimitiveElement) (size : Nat) (source : Source) (cursor : Cursor) :
    Element.fillBody size source ⟨e, cursor⟩ =
      outcome e size (Value.read e.value.kind e.id size source
        { cursor with log := cursor.log.push (.readingPrimitive e.id size) }) := by
  have hbody : Element.readBody e size source cursor =
      (do return { e with value := ← Value.read e.value.kind e.id size } : Reader PrimitiveElement)
        source { cursor with log := cursor.log.push (.readingPrimitive e.id size) } := rfl
  rw [Element.fillBody, Filling.object_bind]
  cases hvalue : Value.read e.value.kind e.id size source
      { cursor with log := cursor.log.push (.readingPrimitive e.id size) } with
  | ok value cursor' =>
      exact Filling.lift_bind_of_ok (hbody.trans (Reader.bind_of_ok hvalue))
  | error fault cursor' =>
      exact Filling.lift_bind_of_error (hbody.trans (Reader.bind_of_error hvalue))

theorem fill_eq {e : PrimitiveElement} {source : Source} {cursor cursor' : Cursor}
    {size length : Nat} (h : VarInt.read source cursor = .ok (size, length) cursor') :
    Element.fill source ⟨e, cursor⟩ =
      outcome { e with offset := cursor.pos - e.id.size } (length + size)
        (Value.read e.value.kind e.id size source
          { cursor' with log := cursor'.log.push (.readingPrimitive e.id size) }) := by
  have hbody := fillBody_eq { e with offset := cursor.pos - e.id.size } size source cursor'
  rw [Element.Stepwise.fill_of_size h]
  cases hvalue : Value.read e.value.kind e.id size source
      { cursor' with log := cursor'.log.push (.readingPrimitive e.id size) } with
  | ok value cursor₁ =>
      rw [hvalue] at hbody
      exact Reader.bind_of_ok hbody
  | error fault cursor₁ =>
      rw [hvalue] at hbody
      exact Reader.bind_of_error hbody

/-- How a body of `size` octets at `pos` is read as a whole number into an element, where `count`
bytes are counted. -/
structure ReadsWhole (e : PrimitiveElement) (size count : Nat) (source : Source) (pos : Nat)
    (result : EStateM.Result Error (Held PrimitiveElement Cursor) Nat) : Prop where
  /-- The size of a body is a failure just if there are more than eight octets. -/
  refused_iff : (∃ id declared consumed after,
      result = .error (.badBodySize id declared consumed) after) ↔ Integer.maxLength < size
  /-- This failure tells the ID and the size, and changes neither the element nor the position. -/
  refused : Integer.maxLength < size →
    ∃ log, result = .error (.badBodySize e.id.value size 0) ⟨e, ⟨pos, log⟩⟩
  /-- Any other body that is there is the number that its octets stand for.  If there are none, the
  number is zero. -/
  number : ∀ octets, Integer.Stored source pos size octets → ∃ value log,
    result = .ok count ⟨{ e with value }, ⟨pos + size, log⟩⟩ ∧ value.kind = e.value.kind ∧
      value.IsWholeOf octets ∧ (size = 0 → value = e.value.kind.zero)

/-- Of a body that is not too long the size is no failure. -/
theorem ReadsWhole.of_le {e : PrimitiveElement} {size count pos : Nat} {source : Source}
    {result : EStateM.Result Error (Held PrimitiveElement Cursor) Nat}
    (hsize : size ≤ Integer.maxLength)
    (hfailure : ∀ id declared consumed after,
      result ≠ .error (.badBodySize id declared consumed) after)
    (hnumber : ∀ octets, Integer.Stored source pos size octets → ∃ value log,
      result = .ok count ⟨{ e with value }, ⟨pos + size, log⟩⟩ ∧ value.kind = e.value.kind ∧
        value.IsWholeOf octets) : ReadsWhole e size count source pos result where
  refused_iff := by
    constructor
    · rintro ⟨_, _, _, _, h⟩
      exact absurd h (hfailure _ _ _ _)
    · intro hlong
      exact absurd hsize (Nat.not_le.mpr hlong)
  refused hlong := absurd hsize (Nat.not_le.mpr hlong)
  number octets hstored := by
    obtain ⟨value, log, hok, hkind, hwhole⟩ := hnumber octets hstored
    refine ⟨value, log, hok, hkind, hwhole, fun hzero => ?_⟩
    rw [List.length_eq_zero_iff.mp (hstored.length_eq.trans hzero)] at hwhole
    rw [← hkind]
    exact hwhole.eq_zero

theorem readsWhole_outcome {e : PrimitiveElement} {size count pos : Nat} {source : Source}
    {log : Log} (h : e.value.kind.isWhole) :
    ReadsWhole e size count source pos
      (outcome e count (Value.read e.value.kind e.id size source ⟨pos, log⟩)) := by
  have hbody := Value.wholeBody_read h e.id size source ⟨pos, log⟩
  generalize Value.read e.value.kind e.id size source ⟨pos, log⟩ = result at hbody
  cases hbody with
  | long hlong =>
      refine ⟨⟨fun _ => hlong, fun _ => ⟨_, _, _, _, rfl⟩⟩, fun _ => ⟨_, rfl⟩, ?_⟩
      intro octets hstored
      exact absurd hstored.size_le (Nat.not_le.mpr hlong)
  | number hstored hkind hwhole =>
      refine .of_le hstored.size_le (fun _ _ _ _ herror => nomatch herror) ?_
      intro octets hstored'
      cases hstored.unique hstored'
      exact ⟨_, _, rfl, hkind, hwhole⟩
  | cut hsize habsent =>
      refine .of_le hsize (fun _ _ _ _ herror => nomatch herror) ?_
      intro octets hstored
      exact absurd hstored (habsent octets)

/-! ## Elements that were written -/

/-- The element can be written unless its body is too large for any size, and its value is read
back by anybody who can afford it. -/
structure Restores (e : PrimitiveElement) : Prop where
  /-- A stream that grows takes the element, wherever its position is, just if the size can be
  stored. -/
  writes : ∀ {stream : Stream}, stream.fixed = false → ∀ log,
    (∃ written sink, Element.write e ⟨stream, log⟩ = .ok written sink) ↔
      e.value.bodySize ≤ VarInt.max
  /-- Where the bytes that were written are found again, the value is read from them, whatever
  follows them, into any element with this ID and this kind of value.  That element records where
  it was read and keeps its default. -/
  reads : ∀ {sink sink' : Sink} {written : Nat}, Element.write e sink = .ok written sink' →
    written = Element.totalSize e ∧ sink'.stream.pos = sink.stream.pos + written ∧
      ∀ source : Source, (∀ payload ∈ e.value.payloads, payload.length ≤ source.limit) →
        source.Holds sink.stream.pos ((sink'.stream.data.drop sink.stream.pos).take written) →
        ∀ other : PrimitiveElement, other.id = e.id → other.value.kind = e.value.kind →
          ∀ log, ∃ log', Element.readFrom source ⟨other, ⟨sink.stream.pos, log⟩⟩ =
            .ok (e.id, Element.totalSize e - e.id.size)
              ⟨{ other with value := e.value.restored, offset := sink.stream.pos },
                ⟨sink.stream.pos + written, log'⟩⟩

section

variable {e other : PrimitiveElement} {source : Source} {pos : Nat}

theorem yields_readBody (hid : other.id = e.id) (hkind : other.value.kind = e.value.kind)
    (hlimit : ∀ payload ∈ e.value.payloads, payload.length ≤ source.limit)
    (h : source.Holds pos e.value.encoding) :
    Reader.Yields (Element.readBody other e.value.bodySize) source pos
      ({ other with value := e.value.restored } : PrimitiveElement) (pos + e.value.bodySize) := by
  have hvalue := Value.yields_read e.id h hlimit
  rw [← hkind, ← hid] at hvalue
  exact (Reader.Yields.note _).bind (hvalue.map rfl)

theorem readFrom_of_holds (hmax : e.value.bodySize ≤ VarInt.max) (hid : other.id = e.id)
    (hkind : other.value.kind = e.value.kind)
    (hlimit : ∀ payload ∈ e.value.payloads, payload.length ≤ source.limit)
    (h : source.Holds pos (Element.encoding e)) (log : Log) :
    ∃ log', Element.readFrom source ⟨other, ⟨pos, log⟩⟩ =
      .ok (e.id, Element.totalSize e - e.id.size)
        ⟨{ other with value := e.value.restored, offset := pos },
          ⟨pos + Element.totalSize e, log'⟩⟩ := by
  obtain ⟨hidHeld, hsize, hbody⟩ := Element.holds_parts h
  have hread : Reader.Yields
      (Element.read ({ other with offset := pos + e.id.size - other.id.size } : PrimitiveElement))
      source (pos + e.id.size)
      ({ other with value := e.value.restored, offset := pos + e.id.size - other.id.size },
        VarInt.octetLength e.value.bodySize + e.value.bodySize)
      (pos + e.id.size + VarInt.octetLength e.value.bodySize + e.value.bodySize) :=
    Element.yields_read hmax hsize (yields_readBody hid hkind hlimit hbody)
  obtain ⟨log', hok⟩ := Element.readFrom_of_read hidHeld hread log
  have hcount : Element.totalSize e =
      e.id.size + (VarInt.octetLength e.value.bodySize + e.value.bodySize) := Nat.add_assoc ..
  rw [hid, Nat.add_sub_cancel] at hok
  rw [hid, hcount, Nat.add_sub_cancel_left, ← Nat.add_assoc, ← Nat.add_assoc]
  exact ⟨log', hok⟩

end

theorem restores (e : PrimitiveElement) : Restores e where
  writes hgrow log := by
    constructor
    · rintro ⟨_, _, hok⟩
      exact Element.le_max_of_write hok
    · intro hmax
      obtain ⟨_, hok⟩ :=
        (Element.fillsGap_write e).ok_of_growing (emits_write fun _ => hmax) trivial hgrow log
      exact ⟨_, _, hok⟩
  reads hok := by
    have hmax : e.value.bodySize ≤ VarInt.max := Element.le_max_of_write hok
    obtain ⟨rfl, stream, hsettled, hpos, hstream⟩ :=
      (Element.fillsGap_write e).of_ok (emits_write fun _ : True => hmax) hok
    rw [← hpos, hstream]
    refine ⟨rfl, ?_, fun source hlimit hheld other hid hkind log => ?_⟩
    · rw [Stream.pos_overlay, Element.length_encoding]
    · rw [Stream.drop_overlay hsettled, ← Element.length_encoding, List.take_left] at hheld
      exact readFrom_of_holds hmax hid hkind hlimit hheld log

/-- Whatever its ID and its value are, a primitive element that can be written is read back, and
only the last NULs of a text are lost.  A body of any size is read as a whole number if it has no
more than eight octets, and is refused for its size otherwise.  This holds of a body whose size is
given and of one whose size is in the stream. -/
theorem values_read_back :
    (∀ e : PrimitiveElement, e.Restores) ∧
      ∀ e : PrimitiveElement, e.value.kind.isWhole → ∀ source cursor,
        (∀ size, e.ReadsWhole size size source cursor.pos
            (Element.fillBody size source ⟨e, cursor⟩)) ∧
          ∀ size length cursor', VarInt.read source cursor = .ok (size, length) cursor' →
            ReadsWhole { e with offset := cursor.pos - e.id.size } size (length + size) source
              cursor'.pos (Element.fill source ⟨e, cursor⟩) := by
  refine ⟨restores, fun e hwhole source cursor => ⟨fun size => ?given, ?declared⟩⟩
  case given =>
    rw [fillBody_eq]
    exact readsWhole_outcome hwhole
  case declared =>
    intro size length cursor' hsize
    rw [fill_eq hsize]
    exact readsWhole_outcome (e := { e with offset := cursor.pos - e.id.size }) hwhole

/-- A title that ends in two NULs, and a date that is read from three octets. -/
theorem values_read_back_title_date :
    let title : PrimitiveElement := { id := ⟨0x7BA9, by decide⟩, value := .string "a\x00b\x00\x00" }
    let other : PrimitiveElement :=
      { title with value := .string "c", default? := some (.string "d"), offset := 9 }
    let date : PrimitiveElement := { id := ⟨0x4461, by decide⟩, value := .date 5 }
    let source : Source := ⟨[0x44, 0x61, 0x83, 0xFF, 0xFF, 0x7F, 0xAA], 0⟩
    (∃ written sink log, Element.write title ⟨{ pos := 3 }, #[]⟩ = .ok written sink ∧
        Element.readFrom ⟨sink.stream.data ++ [0xEC], 5⟩ ⟨other, ⟨3, #[]⟩⟩ =
          .ok (title.id, 6) ⟨{ other with value := .string "a\x00b", offset := 3 }, ⟨11, log⟩⟩) ∧
      (∃ value log, Element.fill source ⟨date, ⟨2, #[]⟩⟩ =
          .ok 4 ⟨{ date with value := .date value }, ⟨6, log⟩⟩ ∧ value.toInt = -129) ∧
        ∃ log, Element.fillBody 9 source ⟨date, ⟨3, #[]⟩⟩ =
          .error (.badBodySize 0x4461 9 0) ⟨date, ⟨3, log⟩⟩ := by
  intro title other date source
  obtain ⟨hrestores, hwhole⟩ := values_read_back
  refine ⟨?title, ?date, ?long⟩
  case title =>
    obtain ⟨hwrites, hreads⟩ := hrestores title
    have hgrows : ({ pos := 3 } : Stream).fixed = false := rfl
    obtain ⟨written, sink, hok⟩ := (hwrites hgrows #[]).mpr (by decide +kernel)
    obtain ⟨rfl, -, hread⟩ := hreads hok
    have hlimit : ∀ payload ∈ title.value.payloads, payload.length ≤ 5 := by decide +kernel
    have hheld : (⟨sink.stream.data ++ [0xEC], 5⟩ : Source).Holds 3
        ((sink.stream.data.drop 3).take (Element.totalSize title)) := by
      rw [Source.Holds, List.drop_append]
      exact (List.take_prefix _ _).trans (List.prefix_append _ _)
    obtain ⟨log, hread⟩ := hread _ hlimit hheld other rfl rfl #[]
    have htotal : Element.totalSize title = 8 := by decide +kernel
    have hwidth : title.id.size = 2 := by decide +kernel
    have htrimmed : title.value.restored = .string "a\x00b" :=
      congrArg Value.string (by decide +kernel)
    rw [htotal, htrimmed, hwidth] at hread
    exact ⟨_, sink, log, hok, hread⟩
  case date =>
    obtain ⟨-, hdeclared⟩ := hwhole date rfl source ⟨2, #[]⟩
    have hsizeHeld : source.Holds 2 (VarInt.minimal 3) :=
      ⟨[0xFF, 0xFF, 0x7F, 0xAA], by decide +kernel⟩
    have hstored : Integer.Stored source 3 3 [0xFF, 0xFF, 0x7F] := ⟨rfl, by decide, [0xAA], rfl⟩
    have hwidth : VarInt.octetLength 3 = 1 := by decide +kernel
    have hoffset : 2 - date.id.size = 0 := by decide +kernel
    obtain ⟨log, hsize⟩ := VarInt.yields_read_minimal (by decide) hsizeHeld #[]
    rw [hwidth] at hsize
    obtain ⟨value, log, hok, hkind, hnumber, -⟩ := (hdeclared _ _ _ hsize).number _ hstored
    cases value with
    | date value =>
        have hnumber : value.toInt = Integer.twosComplement [0xFF, 0xFF, 0x7F] := hnumber
        rw [hoffset] at hok
        exact ⟨value, log, hok, hnumber.trans (by decide +kernel)⟩
    | _ => cases hkind
  case long =>
    obtain ⟨hgiven, -⟩ := hwhole date rfl source ⟨3, #[]⟩
    exact (hgiven 9).refused (by decide)

end PrimitiveElement

end Ebml
