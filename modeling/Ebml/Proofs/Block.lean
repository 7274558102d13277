import Ebml.Proofs.Block.Grammar
import Ebml.Proofs.Lacing

/-!
# Block bodies on streams

`Block.content` is the body of a block.  A valid block is read back from it, flags included, and a
body that was read was read to its end.

A reader that only wants the timecode of a block reads its place (`Block.readPlace`).  That is
also the first thing that a reader of the whole body does, so both find the same timecode
(`place_of_readContent`).
-/

namespace Ebml.Block

variable {source : Source} {pos : Nat} {sure : Prop}

/-- The block can be written: nothing is wrong with its frames, and its track is one that a block
can be given (`Block.setTrack`). -/
structure Valid (b : Block) : Prop where
  /-- Nothing is wrong with the frames. -/
  sound : b.fault? = none
  /-- Tracks are numbered from 1. -/
  track_ne_zero : b.track ≠ 0
  /-- The number of the track can be stored. -/
  track_le : b.track ≤ VarInt.max

/-! ## The parts of a body -/

/-- A block without a fault has frames that its lacing can pack. -/
theorem packs_of_sound {b : Block} (h : b.fault? = none) : b.lacing.Packs b.frameSizes := by
  rw [fault?] at h
  split at h
  next => cases h
  next hnonempty =>
    split at h
    next => cases h
    next hfilled =>
      split at h
      next => cases h
      next hcount =>
        split at h
        next => cases h
        next heven =>
          have hframes : b.frames ≠ [] := fun h0 => hnonempty (List.isEmpty_iff.mpr h0)
          refine ⟨?_, ?_, ?_, fun hfixed size hm => Decidable.byContradiction fun hne => ?_⟩
          · exact fun h0 => hframes (List.map_eq_nil_iff.mp h0)
          · intro size hm h0
            obtain ⟨frame, hframe, rfl⟩ := List.mem_map.mp hm
            exact hfilled (List.any_eq_true.mpr
              ⟨frame, hframe, List.isEmpty_iff_length_eq_zero.mpr h0⟩)
          · rw [frameSizes, List.length_map]
            exact Nat.le_of_not_lt hcount
          · exact heven ⟨hfixed, List.any_eq_true.mpr ⟨size, hm, decide_eq_true hne⟩⟩

/-- The flags of a kind of block keep clear of those of every block. -/
def Clear (kindFlags : UInt8) : Prop :=
  kindFlags &&& Lacing.mask = 0 ∧ kindFlags &&& invisibleFlag = 0

theorem flags_and (b : Block) (kindFlags bits : UInt8) :
    b.flags kindFlags &&& bits = (kindFlags &&& bits) ||| (b.lacing.flags &&& bits) |||
      ((if b.invisible then invisibleFlag else 0) &&& bits) := by
  apply UInt8.toBitVec_inj.mp
  rw [flags, UInt8.toBitVec_and, UInt8.toBitVec_or, UInt8.toBitVec_or, BitVec.and_or_distrib_right,
    BitVec.and_or_distrib_right]
  rfl

/-- A flag of the kind of block is not hidden by those of every block. -/
theorem flags_of_kind {b : Block} {kindFlags bits : UInt8}
    (hlacing : ∀ lacing : Lacing, lacing.flags &&& bits = 0)
    (hinvisible : invisibleFlag &&& bits = 0) :
    b.flags kindFlags &&& bits = kindFlags &&& bits := by
  rw [flags_and, hlacing, UInt8.or_zero]
  cases b.invisible with
  | false => exact (congrArg _ UInt8.zero_and).trans UInt8.or_zero
  | true => exact (congrArg _ hinvisible).trans UInt8.or_zero

theorem flags_lacing (b : Block) {kindFlags : UInt8} (h : Clear kindFlags) :
    b.flags kindFlags &&& Lacing.mask = b.lacing.flags := by
  rw [flags_and, h.1]
  cases b.lacing with
  | none => cases b.invisible <;> rfl
  | ebml => cases b.invisible <;> rfl
  | fixed => cases b.invisible <;> rfl

theorem invisible_flags (b : Block) {kindFlags : UInt8} (h : Clear kindFlags) :
    decide (b.flags kindFlags &&& invisibleFlag = invisibleFlag) = b.invisible := by
  rw [flags_and, h.2]
  cases b.lacing with
  | none => cases b.invisible <;> rfl
  | ebml => cases b.invisible <;> rfl
  | fixed => cases b.invisible <;> rfl

/-- The body of a block with the flags of its kind. -/
def content (b : Block) (kindFlags : UInt8) : List UInt8 :=
  VarInt.minimal b.track ++ (encodeTimecode b.timecode ++ ([b.flags kindFlags] ++
    (b.lacing.header b.frameSizes ++ b.frames.flatten)))

theorem length_flatten (b : Block) : b.frames.flatten.length = b.frameSizes.sum :=
  List.length_flatten

theorem length_content (b : Block) (kindFlags : UInt8) :
    (b.content kindFlags).length = b.contentSize := by
  simp only [content, contentSize, List.length_append, VarInt.length_minimal,
    length_encodeTimecode, List.length_singleton, Lacing.length_header, length_flatten]
  omega

/-! ## Writing -/

theorem emits_validate {b : Block} (h : sure → b.fault? = none) :
    Writer.Emits sure b.validate [] () := by
  rw [validate]
  split
  next => exact Writer.Emits.pure ()
  next hfault =>
    have hnot : ¬ sure := fun hs => by
      rw [h hs] at hfault
      cases hfault
    exact (Writer.Emits.note _).bind (Writer.Emits.throw hnot)
  next _ hfault =>
    have hnot : ¬ sure := fun hs => by
      rw [h hs] at hfault
      cases hfault
    exact Writer.Emits.throw hnot

theorem emits_writeContent {b : Block} (kindFlags : UInt8)
    (h : sure → b.Valid ∧ b.contentSize < Element.sizeBound) :
    Writer.Emits sure (b.writeContent kindFlags) (b.content kindFlags) b.contentSize := by
  have hsizes : sure → ∀ size ∈ b.frameSizes, size < Element.sizeBound := fun hs size hm => by
    have hlt := (h hs).2
    have hle := VarInt.le_sum_of_mem hm
    rw [contentSize] at hlt
    omega
  have hframes : Writer.Emits sure (Writer.each Writer.emitCounted b.frames)
      (b.frames.flatMap id) (b.frames.flatMap id).length :=
    Writer.Emits.eachCounted fun frame _ => Writer.Emits.emitCounted frame
  rw [List.flatMap_id, length_flatten] at hframes
  have hrest := (Lacing.emits_writeHeader b.lacing hsizes).bind (f := fun headerSize => do
    let framesSize ← Writer.each Writer.emitCounted b.frames
    Writer.note (.wroteBlock b.track b.frames.length)
    return VarInt.octetLength b.track + 3 + headerSize + framesSize)
    (hframes.bind (((Writer.Emits.note _).map rfl)))
  rw [List.append_nil] at hrest
  refine ((emits_validate fun hs => (h hs).1.sound).bind ?_).cast (List.nil_append _) rfl
  refine (VarInt.emits_write fun hs => (h hs).1.track_le).bind ?_
  exact (Writer.Emits.emit _).bind ((Writer.Emits.emit _).bind hrest)

/-! ## Reading -/

theorem yields_readPlace {track : Nat} {timecode : Int16} (htrack : track ≤ VarInt.max)
    (h : source.Holds pos (VarInt.minimal track ++ encodeTimecode timecode)) :
    Reader.Yields readPlace source pos (track, timecode, VarInt.octetLength track)
      (pos + VarInt.octetLength track + 2) := by
  have hrest := h.right
  rw [VarInt.length_minimal] at hrest
  refine (VarInt.yields_read_minimal htrack h.left).bind ((Reader.Yields.take hrest).map ?_)
  rw [decode_encodeTimecode]

theorem spans_readPlace :
    Reader.Spans readPlace fun place n => n = place.2.2 + 2 ∧ 1 ≤ place.2.2 := by
  refine VarInt.spans_read.bind fun result n hn => ?_
  obtain ⟨rfl, hpos, _⟩ := hn
  refine (Reader.Spans.take 2).bind fun octets n hn => Reader.Spans.pure ?_
  obtain ⟨rfl, _⟩ := hn
  exact ⟨rfl, hpos⟩

/-- What the content of a block is made of. -/
def parts (b : Block) (kindFlags : UInt8) : Parts where
  track := b.track
  trackLength := VarInt.octetLength b.track
  timecode := b.timecode
  flags := b.flags kindFlags
  lacing := b.lacing
  header := b.lacing.header b.frameSizes
  frames := b.frames

/-- The parts of a valid block make a body. -/
theorem Valid.sound_parts {b : Block} {kindFlags : UInt8} {limit : Nat} (hvalid : b.Valid)
    (hclear : Clear kindFlags) (hbound : b.contentSize < Element.sizeBound)
    (hlimit : ∀ frame ∈ b.frames, frame.length ≤ limit) : (b.parts kindFlags).Sound limit := by
  have hpacks := packs_of_sound hvalid.sound
  have hsizes : ∀ size ∈ b.frameSizes, size < Element.sizeBound := fun size hm => by
    have hle := VarInt.le_sum_of_mem hm
    rw [contentSize] at hbound
    omega
  refine ⟨(VarInt.fits_octetLength hvalid.track_le).payload, Nat.pos_of_ne_zero hvalid.track_ne_zero,
    hvalid.track_le, b.flags_lacing hclear, hpacks.header hsizes, fun frame hm h0 => ?_, hlimit⟩
  exact hpacks.filled _ (List.mem_map_of_mem hm) (List.length_eq_zero_iff.mpr h0)

/-- A valid block is read back from its body. -/
theorem yields_readContent {b : Block} {kindFlags : UInt8} (id : ElementId) (hvalid : b.Valid)
    (hclear : Clear kindFlags) (hbound : b.contentSize < Element.sizeBound)
    (hlimit : ∀ frame ∈ b.frames, frame.length ≤ source.limit)
    (h : source.Holds pos (b.content kindFlags)) :
    Reader.Yields (readContent id b.contentSize) source pos
      ({ b with offset := 0 }, b.flags kindFlags) (pos + b.contentSize) := by
  have hsplits : (b.parts kindFlags).Splits source pos b.contentSize :=
    ⟨hvalid.sound_parts hclear hbound hlimit, b.length_content kindFlags, h⟩
  have hsize : b.contentSize < UInt64.size := Nat.lt_trans hbound (by decide)
  have hread := hsplits.yields_readContent id hsize
  rwa [Parts.block, parts, b.invisible_flags hclear] at hread

/-- The timecode of a body that was read is that of its place. -/
theorem place_of_readContent {id : ElementId} {size : Nat} {b : Block} {flags : UInt8}
    {cursor cursor' : Cursor} (hok : readContent id size source cursor = .ok (b, flags) cursor') :
    ∃ track trackLength stop,
      Reader.Yields readPlace source cursor.pos (track, b.timecode, trackLength) stop := by
  obtain ⟨⟨track, timecode, trackLength⟩, cursor₁, hplace, hok⟩ := Reader.bind_eq_ok.mp hok
  obtain ⟨_, cursor₂, _, hok⟩ := Reader.bind_eq_ok.mp hok
  dsimp only at hok
  split at hok
  next =>
    obtain ⟨_, _, hthrow, _⟩ := Reader.bind_eq_ok.mp hok
    cases hthrow
  next =>
    obtain ⟨lacing, _, _, hok⟩ := Reader.bind_eq_ok.mp hok
    obtain ⟨⟨sizes, _⟩, _, _, hok⟩ := Reader.bind_eq_ok.mp hok
    obtain ⟨_, _, _, hok⟩ := Reader.bind_eq_ok.mp hok
    obtain ⟨frames, _, _, hok⟩ := Reader.bind_eq_ok.mp hok
    obtain ⟨b', _, htrack, hok⟩ := Reader.bind_eq_ok.mp hok
    cases hok
    obtain ⟨_, _, ⟨_, htrack⟩, _⟩ := Reader.Spans.ofExcept _ _ _ _ _ htrack
    obtain ⟨-, -, rfl⟩ := of_setTrack htrack
    exact ⟨track, trackLength, cursor₁.pos, Reader.Steady.of_spans spans_readPlace _ _ _ _ hplace⟩

/-! ## As elements -/

/-- What a block holds does not depend on where it was read. -/
theorem beq_moved (b : Block) (offset : Nat) : ({ b with offset } == b) = true := by
  show (_ && _ && _ && _ && _) = true
  simp

instance : Element.Encoded Block where
  body b := b.content 0
  length_body b := b.length_content 0

theorem emits_write {b : Block} (h : sure → b.Valid ∧ b.contentSize < Element.sizeBound) :
    Writer.Emits sure (Element.write b) (Element.encoding b) (Element.totalSize b) :=
  Element.emits_write (emits_writeContent 0 h) fun hs => Element.le_max_of_lt (h hs).2

theorem yields_readBody {b : Block} (other : Block) (hvalid : b.Valid)
    (hbound : b.contentSize < Element.sizeBound)
    (hlimit : ∀ frame ∈ b.frames, frame.length ≤ source.limit)
    (h : source.Holds pos (b.content 0)) :
    Reader.Yields (Element.readBody other b.contentSize) source pos
      { b with offset := other.offset } (pos + b.contentSize) :=
  (yields_readContent .block hvalid ⟨rfl, rfl⟩ hbound hlimit h).map rfl

theorem yields_read {b : Block} (hvalid : b.Valid) (hbound : b.contentSize < Element.sizeBound)
    (hlimit : ∀ frame ∈ b.frames, frame.length ≤ source.limit)
    (h : source.Holds pos (Element.encoding b)) :
    Reader.Yields (Element.read ({} : Block)) source (pos + ElementId.block.size)
      ({ b with offset := pos }, VarInt.octetLength b.contentSize + b.contentSize)
      (pos + ElementId.block.size + (VarInt.octetLength b.contentSize + b.contentSize)) := by
  obtain ⟨_, hsize, hbody⟩ := Element.holds_parts h
  have hread := yields_readBody { offset := pos } hvalid hbound hlimit hbody
  rw [← Nat.add_assoc]
  refine Element.yields_read (Element.le_max_of_lt hbound) hsize ?_
  show Reader.Yields (Element.readBody
    ({ offset := pos + ElementId.block.size - ElementId.block.size } : Block) _) _ _ _ _
  rw [Nat.add_sub_cancel]
  exact hread

theorem spans_readBody (b : Block) {size : Nat} (hsize : size < UInt64.size) :
    Reader.Spans (Element.readBody b size) fun _ n => n = size :=
  (spans_readContent .block hsize).bind fun _ _ h => Reader.Spans.pure h

theorem spans_read (b : Block) : Reader.Spans (Element.read b) fun result n => n = result.2 :=
  Element.spans_read (fun b _ hsize => b.spans_readBody hsize) b

end Ebml.Block

namespace Ebml.SimpleBlock

variable {source : Source} {pos : Nat} {sure : Prop}

theorem beq_moved (b : SimpleBlock) (offset : Nat) :
    ({ b with block := { b.block with offset } } == b) = true := by
  show (_ && _ && _) = true
  simp [Block.beq_moved]

instance : Element.Encoded SimpleBlock where
  body b := b.block.content b.kindFlags
  length_body b := b.block.length_content b.kindFlags

theorem clear_kindFlags (b : SimpleBlock) : Block.Clear b.kindFlags := by
  rw [kindFlags]
  cases b.keyframe with
  | false => cases b.discardable <;> exact ⟨rfl, rfl⟩
  | true => cases b.discardable <;> exact ⟨rfl, rfl⟩

/-- The flags of a simple block are read back beside those of every block. -/
theorem own_flags (b : SimpleBlock) :
    decide (b.block.flags b.kindFlags &&& keyframeFlag = keyframeFlag) = b.keyframe ∧
      decide (b.block.flags b.kindFlags &&& discardableFlag = discardableFlag) =
        b.discardable := by
  rw [Block.flags_of_kind (fun lacing => by cases lacing <;> rfl) rfl,
    Block.flags_of_kind (fun lacing => by cases lacing <;> rfl) rfl, kindFlags]
  cases b.keyframe with
  | false => cases b.discardable <;> exact ⟨rfl, rfl⟩
  | true => cases b.discardable <;> exact ⟨rfl, rfl⟩

theorem emits_write {b : SimpleBlock}
    (h : sure → b.block.Valid ∧ b.block.contentSize < Element.sizeBound) :
    Writer.Emits sure (Element.write b) (Element.encoding b) (Element.totalSize b) :=
  Element.emits_write (Block.emits_writeContent b.kindFlags h) fun hs =>
    Element.le_max_of_lt (h hs).2

theorem yields_readBody {b : SimpleBlock} (other : SimpleBlock) (hvalid : b.block.Valid)
    (hbound : b.block.contentSize < Element.sizeBound)
    (hlimit : ∀ frame ∈ b.block.frames, frame.length ≤ source.limit)
    (h : source.Holds pos (b.block.content b.kindFlags)) :
    Reader.Yields (Element.readBody other b.block.contentSize) source pos
      { b with block := { b.block with offset := other.block.offset } }
      (pos + b.block.contentSize) := by
  have hread := Block.yields_readContent .simpleBlock hvalid b.clear_kindFlags hbound hlimit h
  refine hread.map ?_
  obtain ⟨hkeyframe, hdiscardable⟩ := b.own_flags
  dsimp only
  rw [hkeyframe, hdiscardable]

theorem spans_readBody (e : SimpleBlock) {size : Nat} (hsize : size < UInt64.size) :
    Reader.Spans (Element.readBody e size) fun _ n => n = size :=
  (Block.spans_readContent .simpleBlock hsize).bind fun _ _ h => Reader.Spans.pure h

end Ebml.SimpleBlock
