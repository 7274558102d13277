import Ebml.Block.Simple
import Ebml.Proofs.Element
import Ebml.Proofs.Lacing.Grammar

/-!
# The grammar of block bodies

`Block.Parts` are the parts of the body of a block, `Parts.bytes` puts them one after another, and
`Parts.Sound` says which parts make a body.  None of this mentions a reader.  A body is read exactly
if it is made of sound parts (`Splits.yields_readContent`, `parses_readContent`), there is only one
way to take it apart (`Parts.Splits.unique`), and what is read are these parts (`bodies_accepted`).

A reader finds the parts one by one, and some of its checks come after it has read past the end of
the body.  The grammar does not show that: a body that fails a check has no sound parts at all.
-/

namespace Ebml

/-- Flags name a lacing if they have the bits of it. -/
theorem Lacing.ofFlags_eq_ok {bits : UInt8} {lacing : Lacing} :
    ofFlags bits = .ok lacing ↔ bits &&& mask = lacing.flags := by
  have hmasked : ∀ bits : UInt8, bits &&& mask = flags none ∨ bits &&& mask = 0x20 ∨
      bits &&& mask = flags fixed ∨ bits &&& mask = flags ebml := by
    rintro ⟨⟨n⟩⟩
    revert n
    decide +kernel
  rw [ofFlags]
  rcases hmasked bits with h | h | h | h <;> rw [h] <;> cases lacing <;> simp [flags]

namespace Block

/-- The parts of the body of a block. -/
@[ext]
structure Parts where
  /-- The track number. -/
  track : Nat
  /-- The octets of the track number. -/
  trackLength : Nat
  /-- The timecode. -/
  timecode : Int16
  /-- The flags. -/
  flags : UInt8
  /-- The lacing that the flags name. -/
  lacing : Lacing
  /-- The lace header. -/
  header : List UInt8
  /-- The frames. -/
  frames : List Frame

namespace Parts

/-- The parts one after another. -/
def bytes (parts : Parts) : List UInt8 :=
  VarInt.sized parts.track parts.trackLength ++ (encodeTimecode parts.timecode ++
    ([parts.flags] ++ (parts.header ++ parts.frames.flatten)))

/-- The sizes of the frames. -/
def sizes (parts : Parts) : List Nat := parts.frames.map List.length

/-- The parts make a body that may be read with an allocation limit. -/
structure Sound (parts : Parts) (limit : Nat) : Prop where
  /-- The octets of the track number have room for it. -/
  track_payload : VarInt.Payload parts.track parts.trackLength
  /-- Tracks are numbered from 1. -/
  track_pos : 1 ≤ parts.track
  /-- The number of the track is not the reserved one. -/
  track_le : parts.track ≤ VarInt.max
  /-- The flags name the lacing. -/
  flags_lacing : parts.flags &&& Lacing.mask = parts.lacing.flags
  /-- The lace header is one of the sizes of the frames. -/
  header_sizes : parts.lacing.Header parts.header parts.sizes
  /-- No frame is empty. -/
  filled : ∀ frame ∈ parts.frames, frame ≠ []
  /-- Every frame may be read into memory. -/
  affordable : ∀ frame ∈ parts.frames, frame.length ≤ limit

/-- The stream has a body of `size` bytes at a position, and the parts are those of it. -/
structure Splits (source : Source) (pos size : Nat) (parts : Parts) : Prop where
  /-- The parts make a body. -/
  sound : parts.Sound source.limit
  /-- They are of the size. -/
  length_bytes : parts.bytes.length = size
  /-- They lie in the stream. -/
  holds : source.Holds pos parts.bytes

/-- A block that has read the parts, and keeps where it was. -/
def block (parts : Parts) (offset : Nat) : Block where
  track := parts.track
  timecode := parts.timecode
  invisible := parts.flags &&& invisibleFlag = invisibleFlag
  lacing := parts.lacing
  frames := parts.frames
  offset := offset

/-- A simple block that has read the parts, and keeps where it was. -/
def simpleBlock (parts : Parts) (offset : Nat) : SimpleBlock where
  block := parts.block offset
  keyframe := parts.flags &&& SimpleBlock.keyframeFlag = SimpleBlock.keyframeFlag
  discardable := parts.flags &&& SimpleBlock.discardableFlag = SimpleBlock.discardableFlag

end Parts

variable {source : Source} {pos : Nat}

/-! ## Timecodes and frames -/

@[simp] theorem length_encodeTimecode (timecode : Int16) : (encodeTimecode timecode).length = 2 :=
  BigEndian.length_encode _ _

theorem decode_encodeTimecode (timecode : Int16) :
    decodeTimecode (encodeTimecode timecode) = timecode := by
  have hlt : timecode.toUInt16.toNat < 256 ^ 2 := timecode.toUInt16.toNat_lt
  rw [decodeTimecode, encodeTimecode, BigEndian.decode_encode, Nat.mod_eq_of_lt hlt]
  apply Int16.toInt_inj.mp
  rw [Int16.toInt_ofInt]
  exact (BitVec.toInt_eq_toNat_bmod timecode.toBitVec).symm

/-- Two octets are those of the timecode that they stand for. -/
theorem encode_decodeTimecode {octets : List UInt8} (h : octets.length = 2) :
    encodeTimecode (decodeTimecode octets) = octets := by
  have hlt : BigEndian.decode octets < 2 ^ 16 := by
    have hlt := BigEndian.decode_lt octets
    rw [h] at hlt
    exact hlt
  have hnat : (decodeTimecode octets).toUInt16.toNat = BigEndian.decode octets := by
    show (BitVec.ofInt 16 (BigEndian.decode octets)).toNat = _
    rw [BitVec.toNat_ofInt]
    omega
  rw [encodeTimecode, hnat, ← h, BigEndian.encode_decode]

/-- Frames that may be read into memory are read. -/
theorem yields_readFrames :
    ∀ {frames : List Frame} {pos : Nat}, source.Holds pos frames.flatten →
      (∀ frame ∈ frames, frame.length ≤ source.limit) →
      Reader.Yields (readFrames (frames.map List.length)) source pos frames
        (pos + frames.flatten.length)
  | [], _, _, _ => Reader.Yields.pure _
  | frame :: frames, pos, h, hlimit => by
      rw [List.flatten_cons] at h ⊢
      have hfirst := Reader.Yields.body h.left (hlimit frame (List.mem_cons_self ..))
      have hrest := yields_readFrames h.right fun other hm =>
        hlimit other (List.mem_cons_of_mem _ hm)
      rw [List.length_append, ← Nat.add_assoc]
      exact hfirst.bind (hrest.map rfl)

theorem parses_readFrames : ∀ sizes : List Nat,
    Reader.Parses (readFrames sizes) source fun frames bytes =>
      bytes = frames.flatten ∧ frames.map List.length = sizes ∧
        ∀ frame ∈ frames, frame.length ≤ source.limit
  | [] => Reader.Parses.pure ⟨rfl, rfl, fun _ hm => nomatch hm⟩
  | size :: sizes => by
      refine (Reader.Parses.body size).bind fun frame bytes hframe => ?_
      obtain ⟨rfl, rfl, hlimit⟩ := hframe
      refine (parses_readFrames sizes).map fun frames rest hframes => ?_
      obtain ⟨rfl, hsizes, hlimits⟩ := hframes
      refine ⟨rfl, congrArg _ hsizes, fun other hm => ?_⟩
      rcases List.mem_cons.mp hm with rfl | hm
      · exact hlimit
      · exact hlimits other hm

/-! ## Bodies -/

/-- A track number that can be set can be stored, and nothing else changes. -/
theorem of_setTrack {b b' : Block} {track : Nat} (h : b.setTrack track = .ok b') :
    track ≠ 0 ∧ track ≤ VarInt.max ∧ b' = { b with track } := by
  rw [setTrack] at h
  split at h
  next => cases h
  next hzero =>
    split at h
    next => cases h
    next hmax =>
      cases h
      exact ⟨hzero, Nat.le_of_not_lt hmax, rfl⟩

theorem setTrack_of_bounds {track : Nat} (h : track ≠ 0 ∧ track ≤ VarInt.max) (b : Block) :
    b.setTrack track = .ok { b with track } := by
  rw [setTrack, if_neg h.1, if_neg (Nat.not_lt.mpr h.2)]

namespace Parts

theorem length_flatten (parts : Parts) : parts.frames.flatten.length = parts.sizes.sum :=
  List.length_flatten

theorem length_bytes (parts : Parts) : parts.bytes.length =
    parts.trackLength + 3 + (parts.header.length + parts.sizes.sum) := by
  simp only [bytes, List.length_append, VarInt.length_sized, length_encodeTimecode,
    List.length_singleton, length_flatten]
  omega

/-- Where the parts lie. -/
theorem Splits.places {parts : Parts} {size : Nat} (h : Splits source pos size parts) :
    source.Holds pos (VarInt.sized parts.track parts.trackLength) ∧
      source.Holds (pos + parts.trackLength) (encodeTimecode parts.timecode) ∧
      source.Holds (pos + parts.trackLength + 2) [parts.flags] ∧
      source.Holds (pos + parts.trackLength + 3) parts.header ∧
      source.Holds (pos + parts.trackLength + 3 + parts.header.length) parts.frames.flatten := by
  have htrack := h.holds
  rw [bytes] at htrack
  have htimecode := htrack.right
  rw [VarInt.length_sized] at htimecode
  have hflags := htimecode.right
  rw [length_encodeTimecode] at hflags
  exact ⟨htrack.left, htimecode.left, hflags.left, hflags.right.left, hflags.right.right⟩

theorem Splits.sizes_ne_zero {parts : Parts} {size : Nat} (h : Splits source pos size parts) :
    ∀ size ∈ parts.sizes, size ≠ 0 := by
  intro size hm h0
  obtain ⟨frame, hframe, rfl⟩ := List.mem_map.mp hm
  exact h.sound.filled frame hframe (List.length_eq_zero_iff.mp h0)

/-- The lace header of the parts is read where it lies. -/
theorem Splits.yields_header {parts : Parts} {size : Nat} (h : Splits source pos size parts)
    (hsize : size < UInt64.size) (id : ElementId) :
    Reader.Yields (parts.lacing.readHeader (size - (parts.trackLength + 3)) id size) source
      (pos + parts.trackLength + 3) (parts.sizes, parts.header.length)
      (pos + parts.trackLength + 3 + parts.header.length) := by
  have hlength := h.length_bytes
  rw [parts.length_bytes] at hlength
  have hremaining : size - (parts.trackLength + 3) = parts.header.length + parts.sizes.sum := by
    omega
  rw [hremaining]
  exact h.sound.header_sizes.yields h.sizes_ne_zero (by omega) h.places.2.2.2.1 id size

/-- A body that is made of sound parts is read. -/
theorem Splits.yields_readContent {parts : Parts} {size : Nat} (id : ElementId)
    (h : parts.Splits source pos size) (hsize : size < UInt64.size) :
    Reader.Yields (readContent id size) source pos (parts.block 0, parts.flags) (pos + size) := by
  obtain ⟨htrack, htimecode, hflags, _, hframes⟩ := h.places
  have hlength := h.length_bytes
  rw [parts.length_bytes] at hlength
  have hplace : Reader.Yields readPlace source pos
      (parts.track, parts.timecode, parts.trackLength) (pos + parts.trackLength + 2) := by
    refine (VarInt.yields_read h.sound.track_payload htrack).bind
      ((Reader.Yields.take htimecode).map ?_)
    rw [decode_encodeTimecode]
  refine hplace.bind ((Reader.Yields.next hflags).bind ?_)
  rw [if_neg (by omega)]
  refine (Reader.Yields.ofExcept (Lacing.ofFlags_eq_ok.mpr h.sound.flags_lacing)).bind ?_
  refine (h.yields_header hsize id).bind ((Reader.Yields.note _).bind ?_)
  have hend : pos + parts.trackLength + 3 + parts.header.length + parts.frames.flatten.length =
      pos + size := by
    rw [parts.length_flatten]
    omega
  refine ((yields_readFrames hframes h.sound.affordable).cast hend).bind ?_
  have htrack := setTrack_of_bounds
    ⟨Nat.one_le_iff_ne_zero.mp h.sound.track_pos, h.sound.track_le⟩
  exact (Reader.Yields.ofExcept (htrack _)).map rfl

end Parts

/-- A body that was read is made of sound parts. -/
theorem parses_readContent (id : ElementId) {size : Nat} (hsize : size < UInt64.size) :
    Reader.Parses (readContent id size) source fun read bytes =>
      ∃ parts : Parts, parts.Sound source.limit ∧ bytes = parts.bytes ∧ bytes.length = size ∧
        read = (parts.block 0, parts.flags) := by
  have hplace : Reader.Parses readPlace source fun place bytes =>
      VarInt.Payload place.1 place.2.2 ∧
        bytes = VarInt.sized place.1 place.2.2 ++ encodeTimecode place.2.1 := by
    refine VarInt.parses_read.bind fun ⟨track, length⟩ bytes htrack =>
      (Reader.Parses.take 2).map fun octets rest hoctets => ?_
    obtain ⟨hpayload, rfl⟩ := htrack
    obtain ⟨rfl, hlength⟩ := hoctets
    exact ⟨hpayload, congrArg _ (encode_decodeTimecode hlength).symm⟩
  refine hplace.bind fun ⟨track, timecode, trackLength⟩ place hplace => ?_
  obtain ⟨hpayload, rfl⟩ := hplace
  refine Reader.Parses.next.bind fun flags bytes hflags => ?_
  subst hflags
  dsimp only
  split
  next => exact Reader.Parses.throw_bind
  next hconsumed =>
    refine (Reader.Parses.ofExcept _).bind fun lacing bytes hlacing => ?_
    obtain ⟨rfl, hlacing⟩ := hlacing
    refine (Lacing.parses_readHeader (Nat.lt_of_le_of_lt (Nat.sub_le _ _) hsize)).bind
      fun ⟨sizes, _⟩ header hheader => ?_
    obtain ⟨hheader, hfilled, hsum, _⟩ := hheader
    refine (Reader.Parses.note _).bind fun _ bytes hnote => ?_
    subst hnote
    refine (parses_readFrames sizes).bind fun frames bytes hframes => ?_
    obtain ⟨rfl, rfl, hlimits⟩ := hframes
    refine (Reader.Parses.ofExcept _).map fun b bytes hb => ?_
    obtain ⟨rfl, hb⟩ := hb
    obtain ⟨hzero, hmax, rfl⟩ := of_setTrack hb
    have hbytes : (VarInt.sized track trackLength ++ encodeTimecode timecode ++ ([flags] ++
        ([] ++ (header ++ ([] ++ (frames.flatten ++ [])))))) =
          Parts.bytes ⟨track, trackLength, timecode, flags, lacing, header, frames⟩ := by
      rw [Parts.bytes, List.append_assoc, List.nil_append, List.nil_append, List.append_nil]
    rw [hbytes]
    refine ⟨_, ⟨hpayload, Nat.pos_of_ne_zero hzero, hmax, Lacing.ofFlags_eq_ok.mp hlacing, hheader,
      fun frame hm h0 => ?_, hlimits⟩, rfl, ?_, rfl⟩
    · exact hfilled _ (List.mem_map_of_mem hm) (List.length_eq_zero_iff.mpr h0)
    · rw [Parts.length_bytes]
      dsimp only [Parts.sizes] at hsum ⊢
      omega

/-- A body that was read was read to its end. -/
theorem spans_readContent (id : ElementId) {size : Nat} (hsize : size < UInt64.size) :
    Reader.Spans (readContent id size) fun _ n => n = size := by
  refine (Reader.Parses.spans_within (G := fun limit read bytes => ∃ parts : Parts,
    parts.Sound limit ∧ bytes = parts.bytes ∧ bytes.length = size ∧
      read = (parts.block 0, parts.flags)) (fun _ => parses_readContent id hsize)
    fun source pos read bytes h hheld => ?_).mono fun read n h => ?_
  · obtain ⟨parts, hsound, rfl, hlength, rfl⟩ := h
    have hsplits : parts.Splits source pos size := ⟨hsound, hlength, hheld⟩
    rw [hlength]
    exact hsplits.yields_readContent id hsize
  · obtain ⟨_, _, rfl, _, _, _, hlength, _⟩ := h
    exact hlength

/-! ## As elements -/

namespace Parts

/-- There is one way to take a body apart. -/
theorem Splits.unique {parts other : Parts} {size : Nat} (h : Splits source pos size parts)
    (h' : Splits source pos size other) (hsize : size < UInt64.size) : parts = other := by
  obtain ⟨htrack, htimecode, hflags, hheader, hframes⟩ := h.places
  obtain ⟨htrack', htimecode', hflags', hheader', hframes'⟩ := h'.places
  obtain ⟨hnumber, hwidth⟩ := Prod.mk.inj ((VarInt.yields_read h'.sound.track_payload htrack').agree
    (VarInt.yields_read h.sound.track_payload htrack)).1
  rw [← hwidth] at htimecode' hflags' hheader' hframes'
  have htime : parts.timecode = other.timecode := by
    rw [← decode_encodeTimecode parts.timecode, htimecode.unique htimecode' rfl,
      decode_encodeTimecode]
  have hflag : parts.flags = other.flags := (List.cons.inj (hflags.unique hflags' rfl)).1
  have hlacing : parts.lacing = other.lacing := by
    have hnamed := Lacing.ofFlags_eq_ok.mpr h'.sound.flags_lacing
    rw [← hflag, Lacing.ofFlags_eq_ok.mpr h.sound.flags_lacing] at hnamed
    exact Except.ok.inj hnamed
  have hread := h'.yields_header hsize .block
  rw [← hwidth, ← hlacing] at hread
  obtain ⟨hsizes, hlength⟩ := Prod.mk.inj (hread.agree (h.yields_header hsize .block)).1
  rw [← hlength] at hframes'
  have hlast := yields_readFrames hframes' h'.sound.affordable
  rw [← sizes, ← hsizes] at hlast
  have hequal := (hlast.agree (yields_readFrames hframes h.sound.affordable)).1
  exact Parts.ext hnumber hwidth htime hflag hlacing (hheader.unique hheader' hlength) hequal

/-- Exactly the bodies that split are read into an element, to their end, and it becomes what is
made of their parts. -/
def Accepted {ε : Type} [Element ε] (make : Parts → ε → ε) (source : Source) (pos size : Nat) :
    Prop :=
  ∀ (e : ε) (log : Log),
    ((∃ count state, Element.fillBody size source ⟨e, ⟨pos, log⟩⟩ = .ok count state) ↔
      ∃ parts, Splits source pos size parts) ∧
    ∀ parts, Splits source pos size parts → ∃ log',
      Element.fillBody size source ⟨e, ⟨pos, log⟩⟩ =
        .ok size ⟨make parts e, ⟨pos + size, log'⟩⟩

theorem Accepted.of_readContent {ε : Type} [Element ε] {id : ElementId} {size : Nat}
    (f : ε → Block × UInt8 → ε) (hsize : size < UInt64.size)
    (hbody : ∀ e : ε, Element.readBody e size =
      (readContent id size >>= fun read => Pure.pure (f e read))) :
    Accepted (fun parts e => f e (parts.block 0, parts.flags)) source pos size := by
  intro e log
  have hread : ∀ parts, Splits source pos size parts → ∃ log',
      Element.fillBody size source ⟨e, ⟨pos, log⟩⟩ =
        .ok size ⟨f e (parts.block 0, parts.flags), ⟨pos + size, log'⟩⟩ := by
    intro parts hsplits
    have hcontent : Reader.Yields (Element.readBody e size) source pos
        (f e (parts.block 0, parts.flags)) (pos + size) := by
      rw [hbody]
      exact (hsplits.yields_readContent id hsize).map rfl
    obtain ⟨log', hok⟩ := hcontent log
    exact ⟨log', Element.fillBody_eq_ok.mpr ⟨rfl, hok⟩⟩
  refine ⟨⟨?_, fun ⟨parts, hsplits⟩ => ?_⟩, hread⟩
  · rintro ⟨count, ⟨e', cursor'⟩, hok⟩
    obtain ⟨_, hok⟩ := Element.fillBody_eq_ok.mp hok
    rw [hbody] at hok
    obtain ⟨_, _, hcontent, _⟩ := Reader.bind_eq_ok.mp hok
    obtain ⟨_, hheld, _, parts, hsound, rfl, hlength, _⟩ :=
      parses_readContent id hsize _ _ _ hcontent
    exact ⟨parts, hsound, hlength, hheld⟩
  · obtain ⟨_, hok⟩ := hread parts hsplits
    exact ⟨_, _, hok⟩

/-- A body of `size` bytes is read exactly if it splits into the parts of a block, which it does in
one way only, and what is read are these parts. -/
theorem bodies_accepted {size : Nat} (hsize : size < UInt64.size) (source : Source) (pos : Nat) :
    (∀ parts other, Splits source pos size parts → Splits source pos size other →
      parts = other) ∧
    Accepted (fun parts (b : Block) => parts.block b.offset) source pos size ∧
    Accepted (fun parts (b : SimpleBlock) => parts.simpleBlock b.block.offset) source pos size := by
  refine ⟨fun _ _ h h' => h.unique h' hsize, ?_, ?_⟩
  · exact .of_readContent (fun (b : Block) read => { read.1 with offset := b.offset }) hsize
      fun _ => rfl
  · exact .of_readContent (fun (b : SimpleBlock) read =>
      { block := { read.1 with offset := b.block.offset }
        keyframe := read.2 &&& SimpleBlock.keyframeFlag = SimpleBlock.keyframeFlag
        discardable := read.2 &&& SimpleBlock.discardableFlag = SimpleBlock.discardableFlag :
          SimpleBlock }) hsize fun _ => rfl

/-- Three laced frames, with every number stored in one octet more than it needs. -/
def loose : Parts where
  track := 1
  trackLength := 2
  timecode := 5
  flags := 0x60
  lacing := .ebml
  header := 3 :: (VarInt.sized 2 2 ++ (VarInt.sized 8190 2 ++ []))
  frames := [[0xaa, 0xbb], [0xcc], [0xdd]]

/-- The frames are read from the middle of a stream into a block that has been read before, if two
bytes at a time may be allocated. -/
theorem loose_accepted :
    14 < UInt64.size ∧
      ∃ log', Element.fillBody 14
          ⟨[0x00, 0x40, 0x01, 0x00, 0x05, 0x60, 0x03, 0x40, 0x02, 0x5f, 0xfe, 0xaa, 0xbb, 0xcc, 0xdd,
            0xff], 2⟩ ⟨{ offset := 7 : Block }, ⟨1, #[]⟩⟩ =
        .ok 14 ⟨{ track := 1, timecode := 5, lacing := .ebml,
                  frames := [[0xaa, 0xbb], [0xcc], [0xdd]], offset := 7 : Block }, ⟨15, log'⟩⟩ := by
  have hsize : 14 < UInt64.size := by decide
  have hsound : loose.Sound 2 := {
    track_payload := ⟨by decide, by decide, by decide⟩
    track_pos := by decide
    track_le := by decide
    flags_lacing := by decide
    header_sizes := .ebml rfl (.cons ⟨by decide, by decide, by decide⟩
      (.cons ⟨by decide, by decide, by decide⟩ (by decide) .nil))
    filled := by decide
    affordable := by decide }
  exact ⟨hsize, ((bodies_accepted hsize _ _).2.1 _ _).2 loose
    ⟨hsound, by decide +kernel, ⟨[0xff], by decide +kernel⟩⟩⟩

end Parts

end Block

end Ebml
