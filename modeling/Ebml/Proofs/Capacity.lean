import Ebml.Proofs.Element.Atomicity
import Ebml.Proofs.Element.Validity

/-!
# What every block keeps to

The track of a block can be stored, and its lacing allows as many frames as it has
(`Block.Bounded`).  Whatever is called on a block keeps to that, because it is checked before
anything is changed: the track when it is set, the number of frames when one is added, and when the
lacing is.  A reader checks the same of what it reads, or leaves the block as it was.  So this holds
of every block that there can be, also of one within a simple block or a group (`Reached`).

Frames can be emptied in place, and those of a fixed lace can be of any sizes.  That is all that is
left to go wrong when a block is written (`Block.Flawed`).
-/

namespace Ebml

/-! ## Writers that fail -/

namespace Writer

variable {α β : Type} {sure : Prop} {w : Writer α} {bytes : List UInt8} {a : α} {fault : Error}

/-- On a stream that grows, the writer fails, wherever it is within the stream. -/
def Refuses (w : Writer α) (fault : Error) : Prop :=
  ∀ sink : Sink, sink.stream.Settled → sink.stream.fixed = false → errorOf? (w sink) = some fault

theorem Refuses.bind (h : Refuses w fault) (f : α → Writer β) : Refuses (w >>= f) fault := by
  intro sink hsettled hgrow
  obtain ⟨sink', herror⟩ := of_errorOf? (h sink hsettled hgrow)
  rw [bind_error herror]
  rfl

/-- What fails may come after what succeeds. -/
theorem Refuses.after {f : α → Writer β} (hemits : Emits True w bytes a)
    (h : Refuses (f a) fault) : Refuses (w >>= f) fault := by
  intro sink hsettled hgrow
  obtain ⟨log, hok⟩ := hemits.ok_of_growing trivial hsettled hgrow sink.log
  rw [bind_ok hok]
  exact h _ (Stream.settled_overlay hsettled _) hgrow

/-- What begins by writing something fails behind a gap as well. -/
theorem FillsGap.refused (hfills : FillsGap w) (h : Refuses w fault) {sink : Sink}
    (hgrow : sink.stream.fixed = false) : errorOf? (w sink) = some fault := by
  rw [hfills.fills sink hgrow]
  exact h _ (Stream.settled_fillGap _) hgrow

end Writer

/-- An element cannot be written if its body cannot be. -/
theorem Element.refuses_write {ε : Type} [Element ε] [Encoded ε] {e : ε} {fault : Error}
    (hmax : bodySize e ≤ VarInt.max) (h : Writer.Refuses (writeBody e) fault) :
    Writer.Refuses (write e) fault := by
  rw [write, writeId, Encoded.writeSize_eq]
  exact .after (ElementId.emits_write _) (.after (VarInt.emits_write fun _ => hmax) (h.bind _))

/-! ## Blocks -/

namespace Block

/-- The track can be stored, and the lacing allows as many frames as there are. -/
structure Bounded (b : Block) : Prop where
  /-- Tracks are numbered from 1. -/
  track_ne_zero : b.track ≠ 0
  /-- The number of the track can be stored. -/
  track_le : b.track ≤ VarInt.max
  /-- There are no more frames than the lacing allows. -/
  length_le : b.frames.length ≤ b.maxCount

/-- What is called on a block for its track, its lacing or its frames. -/
inductive Edit where
  | setTrack (track : Nat)
  | setLacing (lacing : Lacing)
  | push (frame : Frame)
  | resize (count : Nat)
  | setFrame (index : Nat) (frame : Frame)
  | mapFrames (f : Frame → Frame)
  | eraseFrame (index : Nat)
  | clear

/-- What becomes of a block, unless the call is refused. -/
def Edit.apply : Edit → Block → Except Error Block
  | setTrack track, b => b.setTrack track
  | setLacing lacing, b => b.setLacing lacing
  | push frame, b => b.push frame
  | resize count, b => b.resize count
  | setFrame index frame, b => .ok (b.setFrame index frame)
  | mapFrames f, b => .ok (b.mapFrames f)
  | eraseFrame index, b => .ok (b.eraseFrame index)
  | clear, b => .ok b.clear

/-- The block after a call.  It is as before if the call was refused. -/
def Edit.after (edit : Edit) (b : Block) : Block :=
  match edit.apply b with
  | .ok b' => b'
  | .error _ => b

variable {b b' : Block}

theorem Valid.bounded (h : b.Valid) : b.Bounded := by
  obtain ⟨-, -, hcount, -⟩ := packs_of_sound h.sound
  rw [frameSizes, List.length_map] at hcount
  exact ⟨h.track_ne_zero, h.track_le, hcount⟩

theorem bounded_empty : ({} : Block).Bounded := ⟨by decide, by decide, by decide⟩

/-- Only the track of a new block can be out of bounds. -/
theorem bounded_make {track : Nat} {timecode : Int16} {lacing : Lacing}
    (h : make track timecode lacing = .ok b) : b.Bounded := by
  obtain ⟨hzero, hmax, rfl⟩ := of_setTrack h
  exact ⟨hzero, hmax, Nat.zero_le _⟩

/-- Every call checks what it could break. -/
theorem Bounded.apply (h : b.Bounded) {edit : Edit} (hok : edit.apply b = .ok b') :
    b'.Bounded := by
  obtain ⟨hzero, hmax, hlength⟩ := h
  cases edit with
  | setTrack track =>
      obtain ⟨hzero', hmax', rfl⟩ := of_setTrack hok
      exact ⟨hzero', hmax', hlength⟩
  | setLacing lacing =>
      rw [Edit.apply, setLacing] at hok
      split at hok
      next => cases hok
      next hroom =>
        cases hok
        exact ⟨hzero, hmax, Nat.le_of_not_lt hroom⟩
  | push frame =>
      rw [Edit.apply, push] at hok
      split at hok
      next => cases hok
      next =>
        split at hok
        next => cases hok
        next hroom =>
          cases hok
          refine ⟨hzero, hmax, ?_⟩
          rw [List.length_append, List.length_singleton]
          exact Nat.lt_of_not_le hroom
  | resize count =>
      rw [Edit.apply, resize] at hok
      split at hok
      next => cases hok
      next hroom =>
        cases hok
        refine ⟨hzero, hmax, ?_⟩
        have hcount : count ≤ b.maxCount := Nat.le_of_not_lt hroom
        rw [List.length_append, List.length_take, List.length_replicate]
        show min count b.frames.length + (count - b.frames.length) ≤ b.maxCount
        omega
  | setFrame index frame =>
      cases hok
      exact ⟨hzero, hmax, Nat.le_trans (Nat.le_of_eq List.length_set) hlength⟩
  | mapFrames f =>
      cases hok
      exact ⟨hzero, hmax, Nat.le_trans (Nat.le_of_eq (List.length_map f)) hlength⟩
  | eraseFrame index =>
      cases hok
      exact ⟨hzero, hmax, Nat.le_trans (List.length_eraseIdx_le _ _) hlength⟩
  | clear =>
      cases hok
      exact ⟨hzero, hmax, Nat.zero_le _⟩

theorem Bounded.after (h : b.Bounded) (edit : Edit) : (edit.after b).Bounded := by
  rw [Edit.after]
  split
  next hok => exact h.apply hok
  next => exact h

/-! ### What can be wrong with a block -/

/-- What keeps a block from being written, if its lacing allows as many frames as it has. -/
inductive Flawed (b : Block) : Error → Prop
  /-- It has no frames. -/
  | emptyBlock : b.frames = [] → Flawed b .emptyBlock
  /-- A frame is empty. -/
  | emptyFrame : [] ∈ b.frames → Flawed b .emptyFrame
  /-- Frames of a fixed lace are of different sizes, and none is empty. -/
  | uneven {frame other : Frame} : [] ∉ b.frames → b.lacing = .fixed →
      frame ∈ b.frames → other ∈ b.frames → frame.length ≠ other.length →
      Flawed b .badLacedFrameSize

theorem any_isEmpty : b.frames.any List.isEmpty = true ↔ [] ∈ b.frames := by
  rw [List.any_eq_true]
  constructor
  · rintro ⟨frame, hm, hempty⟩
    exact List.isEmpty_iff.mp hempty ▸ hm
  · exact fun hm => ⟨[], hm, rfl⟩

/-- Not all frames are as large as the first if two of them are not as large as each other. -/
theorem any_ne_firstSize : b.frameSizes.any (· ≠ b.firstSize) = true ↔
    ∃ frame ∈ b.frames, ∃ other ∈ b.frames, frame.length ≠ other.length := by
  constructor
  · intro hany
    obtain ⟨size, hm, hne⟩ := List.any_eq_true.mp hany
    obtain ⟨frame, hframe, rfl⟩ := List.mem_map.mp hm
    cases hframes : b.frames with
    | nil =>
        rw [hframes] at hframe
        cases hframe
    | cons first rest =>
        rw [firstSize, frameSizes, hframes] at hne
        rw [hframes] at hframe
        exact ⟨frame, hframe, first, List.mem_cons_self .., of_decide_eq_true hne⟩
  · rintro ⟨frame, hframe, other, hother, hne⟩
    refine Decidable.byContradiction fun hall => hne ?_
    have hsame : ∀ frame ∈ b.frames, frame.length = b.firstSize := fun frame hm =>
      Decidable.byContradiction fun h => hall
        (List.any_eq_true.mpr ⟨_, List.mem_map_of_mem hm, decide_eq_true h⟩)
    rw [hsame frame hframe, hsame other hother]

theorem not_isEmpty_of_mem {frame : Frame} (h : frame ∈ b.frames) : ¬ b.frames.isEmpty = true := by
  intro hempty
  rw [List.isEmpty_iff.mp hempty] at h
  cases h

theorem Bounded.flawed_of_fault (h : b.Bounded) {fault : Error} (hfault : b.fault? = some fault) :
    b.Flawed fault := by
  rw [fault?, if_neg (Nat.not_lt.mpr h.length_le)] at hfault
  split at hfault
  next hempty =>
    cases hfault
    exact .emptyBlock (List.isEmpty_iff.mp hempty)
  next =>
    split at hfault
    next hempty =>
      cases hfault
      exact .emptyFrame (any_isEmpty.mp hempty)
    next hfilled =>
      split at hfault
      next huneven =>
        cases hfault
        obtain ⟨frame, hframe, other, hother, hne⟩ := any_ne_firstSize.mp huneven.2
        exact .uneven (fun hm => hfilled (any_isEmpty.mpr hm)) huneven.1 hframe hother hne
      next => cases hfault

theorem Bounded.fault_of_flawed (h : b.Bounded) {fault : Error} (hflawed : b.Flawed fault) :
    b.fault? = some fault := by
  rw [fault?, if_neg (Nat.not_lt.mpr h.length_le)]
  cases hflawed with
  | emptyBlock hempty => rw [if_pos (List.isEmpty_iff.mpr hempty)]
  | emptyFrame hm => rw [if_neg (not_isEmpty_of_mem hm), if_pos (any_isEmpty.mpr hm)]
  | uneven hfilled hfixed hframe hother hne =>
      have huneven := any_ne_firstSize.mpr ⟨_, hframe, _, hother, hne⟩
      rw [if_neg (not_isEmpty_of_mem hframe), if_neg (fun hany => hfilled (any_isEmpty.mp hany)),
        if_pos ⟨hfixed, huneven⟩]

/-- The number of frames is not what is wrong with a block. -/
theorem Bounded.fault_iff_flawed (h : b.Bounded) {fault : Error} :
    b.fault? = some fault ↔ b.Flawed fault :=
  ⟨h.flawed_of_fault, h.fault_of_flawed⟩

theorem errorOf_validate (b : Block) (sink : Sink) : errorOf? (b.validate sink) = b.fault? := by
  rw [validate]
  cases b.fault? with
  | none => rfl
  | some fault => cases fault <;> rfl

theorem refuses_writeContent {fault : Error} (h : b.fault? = some fault) (kindFlags : UInt8) :
    Writer.Refuses (b.writeContent kindFlags) fault := by
  have hvalidate : Writer.Refuses b.validate fault := fun sink _ _ =>
    (errorOf_validate b sink).trans h
  exact hvalidate.bind _

end Block

/-! ## Blocks within elements -/

/-- A kind of element that is a block with more to it. -/
class Framed (ε : Type) [Element ε] where
  /-- The block. -/
  block : ε → Block
  /-- The element with another block. -/
  setBlock : ε → Block → ε
  /-- The default, which has no frames. -/
  empty : ε
  /-- An element without frames. -/
  make : Nat → Int16 → Lacing → Except Error ε

instance : Framed Block where
  block b := b
  setBlock _ b := b
  empty := {}
  make := Block.make

instance : Framed SimpleBlock where
  block b := b.block
  setBlock b block := { b with block }
  empty := {}
  make := SimpleBlock.make

instance : Framed BlockGroup where
  block g := g.block
  setBlock g block := { g with block }
  empty := {}
  make := BlockGroup.make

/-- The elements of a kind that there can be: those that are made, and what becomes of them by calls
on their blocks, by changes of anything else, and by reads of the element or of its block from any
stream, whether or not these succeed. -/
inductive Reached {ε : Type} [Element ε] [Framed ε] : ε → Prop
  | empty : Reached Framed.empty
  | made {e : ε} {track : Nat} {timecode : Int16} {lacing : Lacing} :
      Framed.make track timecode lacing = .ok e → Reached e
  | edited {e : ε} (edit : Block.Edit) :
      Reached e → Reached (Framed.setBlock e (edit.after (Framed.block e)))
  | described {e e' : ε} :
      Reached e → (Framed.block e').track = (Framed.block e).track →
      (Framed.block e').lacing = (Framed.block e).lacing →
      (Framed.block e').frames = (Framed.block e).frames → Reached e'
  | filled {e : ε} (source : Source) (cursor : Cursor) :
      Reached e → Reached (stateOf (Element.fill source ⟨e, cursor⟩)).object
  | filledBody {e : ε} (size : Nat) (source : Source) (cursor : Cursor) :
      Reached e → Reached (stateOf (Element.fillBody size source ⟨e, cursor⟩)).object
  | filledWithin {e : ε} (source : Source) (cursor : Cursor) :
      Reached e → Reached (Framed.setBlock e
        (stateOf (Element.fill source ⟨Framed.block e, cursor⟩)).object)
  | filledBodyWithin {e : ε} (size : Nat) (source : Source) (cursor : Cursor) :
      Reached e → Reached (Framed.setBlock e
        (stateOf (Element.fillBody size source ⟨Framed.block e, cursor⟩)).object)

theorem exists_of_bind_pure {α β : Type} {x : Except Error α} {f : α → β} {b : β}
    (h : (x >>= fun a => pure (f a)) = .ok b) : ∃ a, x = .ok a ∧ b = f a := by
  cases x with
  | ok a =>
      cases h
      exact ⟨a, rfl, rfl⟩
  | error e => cases h

/-- A kind of element that reads and writes its block along with the rest.  A block that can be
written is what its reader gives it, and all that its writer needs. -/
class LawfulFramed (ε : Type) [Element ε] [Element.Encoded ε] [Framed ε] : Prop where
  block_setBlock : ∀ (e : ε) b, Framed.block (Framed.setBlock e b) = b
  block_empty : Framed.block (Framed.empty : ε) = {}
  block_make : ∀ {e : ε} {track timecode lacing}, Framed.make track timecode lacing = .ok e →
    Block.make track timecode lacing = .ok (Framed.block e)
  block_setOffset : ∀ (e : ε) pos, ∃ offset,
    Framed.block (Element.setOffset e pos) = { Framed.block e with offset }
  valid_readBody : ∀ (e : ε) size source,
    Reader.Ensures (Element.readBody e size) source fun e' => (Framed.block e').Valid
  emits_write : ∀ {e : ε}, (Framed.block e).Valid → Element.bodySize e < Element.sizeBound →
    Writer.Emits True (Element.write e) (Element.encoding e) (Element.totalSize e)
  refuses_writeBody : ∀ {e : ε} {fault}, (Framed.block e).fault? = some fault →
    Element.bodySize e < Element.sizeBound → Writer.Refuses (Element.writeBody e) fault

instance : LawfulFramed Block where
  block_setBlock _ _ := rfl
  block_empty := rfl
  block_make h := h
  block_setOffset _ pos := ⟨pos, rfl⟩
  valid_readBody b size _ := (b.ensures_readBody size).mono fun _ h => h.1
  emits_write hvalid hbound := Block.emits_write fun _ => ⟨hvalid, hbound⟩
  refuses_writeBody hfault _ := Block.refuses_writeContent hfault 0

instance : LawfulFramed SimpleBlock where
  block_setBlock _ _ := rfl
  block_empty := rfl
  block_make h := by
    obtain ⟨b, hblock, rfl⟩ := exists_of_bind_pure h
    exact hblock
  block_setOffset _ pos := ⟨pos, rfl⟩
  valid_readBody b size _ := (b.ensures_readBody size).mono fun _ h => h.1
  emits_write hvalid hbound := SimpleBlock.emits_write fun _ => ⟨hvalid, hbound⟩
  refuses_writeBody hfault _ := Block.refuses_writeContent hfault _

instance : LawfulFramed BlockGroup where
  block_setBlock _ _ := rfl
  block_empty := rfl
  block_make h := by
    obtain ⟨b, hblock, rfl⟩ := exists_of_bind_pure h
    exact hblock
  block_setOffset g _ := ⟨g.block.offset, rfl⟩
  valid_readBody g size _ := (g.ensures_readBody size).mono fun _ h => h.1
  emits_write hvalid hbound := BlockGroup.emits_write fun _ => ⟨hvalid, hbound⟩
  refuses_writeBody {g fault} hfault hbound := by
    have htotal := Element.Encoded.totalSize_eq g.block
    rw [BlockGroup.bodySize_eq] at hbound
    have hblock := Element.refuses_write (e := g.block)
      (Element.le_max_of_lt (by omega)) (Block.refuses_writeContent hfault 0)
    exact hblock.bind _

section

variable {ε : Type} [Element ε] [Element.Encoded ε] [Framed ε] [LawfulFramed ε] {e e' : ε}

/-- An element whose track can be stored is written exactly if nothing is wrong with its frames. -/
theorem errorOf_write (h : (Framed.block e).Bounded)
    (hbound : Element.bodySize e < Element.sizeBound) {sink : Sink}
    (hgrow : sink.stream.fixed = false) :
    errorOf? (Element.write e sink) = (Framed.block e).fault? := by
  cases hfault : (Framed.block e).fault? with
  | none =>
      have hvalid : (Framed.block e).Valid := ⟨hfault, h.track_ne_zero, h.track_le⟩
      obtain ⟨log, hok⟩ := (Element.fillsGap_write e).ok_of_growing
        (LawfulFramed.emits_write hvalid hbound) trivial hgrow sink.log
      rw [hok]
      rfl
  | some fault =>
      have hbody := Element.refuses_write (Element.le_max_of_lt hbound)
        (LawfulFramed.refuses_writeBody hfault hbound)
      exact (Element.fillsGap_write e).refused hbody hgrow

variable [Element.Stepwise ε]

/-- A read leaves a block that can be written, or the one that there was. -/
theorem bounded_fill (h : (Framed.block e).Bounded) (source : Source) (cursor : Cursor) :
    (Framed.block (stateOf (Element.fill source ⟨e, cursor⟩)).object).Bounded := by
  cases hfill : (Element.fill : Filling ε Nat) source ⟨e, cursor⟩ with
  | ok count state =>
      have hvalid := Element.ensures_read (fun _ _ => LawfulFramed.valid_readBody _ _ _) _ _ _
        (Element.fill_eq_ok.mp hfill)
      exact hvalid.bounded
  | error fault state =>
      obtain ⟨offset, hblock⟩ := LawfulFramed.block_setOffset e (cursor.pos - (Element.id e).size)
      rw [stateOf, Element.Stepwise.fill_kept hfill, hblock]
      exact ⟨h.track_ne_zero, h.track_le, h.length_le⟩

theorem bounded_fillBody (h : (Framed.block e).Bounded) (size : Nat) (source : Source)
    (cursor : Cursor) :
    (Framed.block (stateOf (Element.fillBody size source ⟨e, cursor⟩)).object).Bounded := by
  cases hfill : (Element.fillBody size : Filling ε Nat) source ⟨e, cursor⟩ with
  | ok count state =>
      obtain ⟨-, hread⟩ := Element.fillBody_eq_ok.mp hfill
      exact (LawfulFramed.valid_readBody _ _ _ _ _ _ hread).bounded
  | error fault state =>
      rw [stateOf, Element.Stepwise.fillBody_kept hfill]
      exact h

/-- Whatever was done to it, a block keeps to its bounds. -/
theorem Reached.bounded (h : Reached e) : (Framed.block e).Bounded := by
  induction h with
  | empty =>
      rw [LawfulFramed.block_empty]
      exact Block.bounded_empty
  | made hmake => exact Block.bounded_make (LawfulFramed.block_make hmake)
  | edited edit _ ih =>
      rw [LawfulFramed.block_setBlock]
      exact ih.after edit
  | described _ htrack hlacing hframes ih =>
      obtain ⟨hzero, hmax, hlength⟩ := ih
      rw [← htrack] at hzero hmax
      rw [Block.maxCount, ← hlacing, ← hframes] at hlength
      exact ⟨hzero, hmax, hlength⟩
  | filled source cursor _ ih => exact bounded_fill ih source cursor
  | filledBody size source cursor _ ih => exact bounded_fillBody ih size source cursor
  | @filledWithin e source cursor _ ih =>
      have hblock : (Framed.block (Framed.block e)).Bounded := ih
      rw [LawfulFramed.block_setBlock]
      exact bounded_fill hblock source cursor
  | @filledBodyWithin e size source cursor _ ih =>
      have hblock : (Framed.block (Framed.block e)).Bounded := ih
      rw [LawfulFramed.block_setBlock]
      exact bounded_fillBody hblock size source cursor

end

/-! ## Every kind of block -/

/-- What can be relied on of an element with a block. -/
structure Sound {ε : Type} [Element ε] [Framed ε] (e : ε) : Prop where
  /-- Tracks are numbered from 1. -/
  track_pos : 1 ≤ (Framed.block e).track
  /-- The number of the track can be stored. -/
  track_le : (Framed.block e).track ≤ VarInt.max
  /-- There are no more frames than the lacing allows. -/
  length_le : (Framed.block e).frames.length ≤ (Framed.block e).maxCount
  /-- The number of frames does not keep the block from being written. -/
  validate_ne : ∀ sink, errorOf? ((Framed.block e).validate sink) ≠ some .maxLaceSizeExceeded
  /-- The number of frames can be stored in one byte, as a lace header has it. -/
  count_eq : (UInt8.ofNat (Framed.block e).frameSizes.length).toNat = (Framed.block e).frames.length
  /-- On a stream that grows, a write fails exactly for a flaw of the block. -/
  write_fails_iff : Element.bodySize e < Element.sizeBound →
    ∀ sink : Sink, sink.stream.fixed = false →
      ∀ fault, errorOf? (Element.write e sink) = some fault ↔ (Framed.block e).Flawed fault

theorem Reached.sound {ε : Type} [Element ε] [Element.Encoded ε] [Element.Stepwise ε] [Framed ε]
    [LawfulFramed ε] {e : ε} (h : Reached e) : Sound e where
  track_pos := Nat.pos_of_ne_zero h.bounded.track_ne_zero
  track_le := h.bounded.track_le
  length_le := h.bounded.length_le
  validate_ne sink herror := by
    rw [Block.errorOf_validate, h.bounded.fault_iff_flawed] at herror
    cases herror
  count_eq := by
    have hmax := (Framed.block e).lacing.maxCount_le
    have hlength := h.bounded.length_le
    rw [Block.maxCount] at hlength
    have hlt : (Framed.block e).frames.length < 256 := by omega
    rw [Block.frameSizes, List.length_map, UInt8.toNat_ofNat_of_lt' hlt]
  write_fails_iff hbound sink hgrow fault := by
    rw [errorOf_write h.bounded hbound hgrow, h.bounded.fault_iff_flawed]

/-- Every block that there can be, by itself or within a simple block or a group, has a track that
can be stored and no more frames than its lacing allows.  So the number of frames is never wrong
when it is written: all that can go wrong is that there are no frames, that one is empty, or that
those of a fixed lace are not of one size. -/
theorem blocks_sound :
    (∀ b : Block, Reached b → Sound b) ∧ (∀ b : SimpleBlock, Reached b → Sound b) ∧
      ∀ g : BlockGroup, Reached g → Sound g :=
  ⟨fun _ h => h.sound, fun _ h => h.sound, fun _ h => h.sound⟩

/-- What is read from the body of a simple block with two frames of one byte. -/
def twoFrames : SimpleBlock :=
  (stateOf (Element.fillBody 8 ⟨[0x81, 0x00, 0x00, 0x60, 0x02, 0x81, 0xaa, 0xbb], 16⟩
    ⟨({} : SimpleBlock), ⟨0, #[]⟩⟩)).object

/-- The block with room for a third frame. -/
def thirdFrame : SimpleBlock :=
  Framed.setBlock twoFrames ((Block.Edit.resize 3).after (Framed.block twoFrames))

/-- There may be three frames, but the last cannot be left empty. -/
theorem thirdFrame_sound :
    thirdFrame.block.frames = [[0xaa], [0xbb], []] ∧
      thirdFrame.block.frames.length ≤ thirdFrame.block.maxCount ∧
      ∀ sink : Sink, sink.stream.fixed = false →
        errorOf? (Element.write thirdFrame sink) = some .emptyFrame := by
  obtain ⟨-, hsimple, -⟩ := blocks_sound
  have hsound : Sound thirdFrame :=
    hsimple _ (.edited (.resize 3) (.filledBody 8 _ _ .empty))
  have hframes : thirdFrame.block.frames = [[0xaa], [0xbb], []] := by decide +kernel
  have hbound : Element.bodySize thirdFrame < Element.sizeBound := by decide +kernel
  refine ⟨hframes, hsound.length_le, fun sink hgrow => ?_⟩
  refine (hsound.write_fails_iff hbound sink hgrow .emptyFrame).mpr (.emptyFrame ?_)
  show [] ∈ thirdFrame.block.frames
  rw [hframes]
  decide

end Ebml
