import Ebml.Cluster.Block
import Ebml.Element.Void
import Ebml.Proofs.Stream.Assignment
import Ebml.Proofs.Stream.Conduct

/-!
# Reads that fail keep the element

A kind of element says how a whole element is read, and `Element.fill` puts it in the place of the
one before.  Here the same is done in place: every field is assigned where its value is at hand
(`Element.Stepwise`).  Reading in place comes to the same, whatever the stream holds, because no
field is assigned as long as anything can fail.  It is the offset alone that is recorded before.

So a read that fails, for whatever reason and however deep within the element, leaves every field
but the offset as it was.
-/

namespace Ebml

namespace Element

variable {ε : Type} [Element ε]

/-- A kind of element with a way to read the body in place, which assigns nothing before it cannot
fail any more. -/
class Stepwise (ε : Type) [Element ε] where
  /-- Reads a body of a given size into an element, field by field. -/
  fillBody : Nat → Filling ε Nat
  /-- All fields are assigned in the end. -/
  commits_fillBody : ∀ (e : ε) size, Filling.Commits e (fillBody size)
    (do return (← readBody e size, size))
  /-- The ID does not depend on the offset. -/
  id_setOffset : ∀ (e : ε) offset, Element.id (setOffset e offset) = Element.id e := by
    exact fun _ _ => rfl
  /-- The offset recorded last counts. -/
  setOffset_setOffset : ∀ (e : ε) offset offset',
    setOffset (setOffset e offset) offset' = setOffset e offset' := by exact fun _ _ _ => rfl

namespace Stepwise

variable {source : Source} {e e' : ε} {cursor cursor' : Cursor} {fault : Error}

/-- What `Element.fill` does when the offset is recorded. -/
theorem commits_read (e : ε) : Filling.Commits e
    (do
      let (e, count) ← Filling.lift (read e)
      Filling.change fun _ => e
      return count)
    (read e) := by
  have hread : Filling.Commits e (do
      let (e, count) ← Filling.lift (read e)
      Filling.change fun _ => e
      return count) (read e >>= pure) := .lift_bind fun _ _ _ => rfl
  rwa [bind_pure] at hread

variable [Stepwise ε]

/-- Reads the size and the body into an element whose offset is recorded. -/
def fillRest : Filling ε Nat := do
  let (size, sizeLength) ← Filling.lift VarInt.read
  let body ← fillBody size
  return sizeLength + body

/-- Reads the size and the body into an element, field by field.  The offset comes first. -/
def fill : Filling ε Nat := do
  let position ← Filling.lift Reader.position
  Filling.change fun e => setOffset e (position - (Element.id e).size)
  fillRest

/-- Reading the body in place comes to the same. -/
theorem fillBody_eq (size : Nat) : (fillBody size : Filling ε Nat) = Element.fillBody size :=
  Filling.Commits.unique (fun e => commits_fillBody e size) fun _ =>
    .object_bind (.lift_bind fun _ _ _ => rfl)

theorem commits_fillRest (e : ε) : Filling.Commits e fillRest (do
    let (size, sizeLength) ← VarInt.read
    return (← readBody e size, sizeLength + size)) := by
  refine .lift_bind fun ⟨size, sizeLength⟩ => ?_
  have hbody := (commits_fillBody e size).bind (g := fun body => pure (sizeLength + body))
    (k := fun (e, body) => (e, sizeLength + body)) fun _ _ _ _ => rfl
  simpa only [bind_assoc, pure_bind] using hbody

/-- An element whose offset is recorded is read as it is. -/
theorem read_located (source : Source) (e : ε) (cursor : Cursor) :
    let located := setOffset e (cursor.pos - (Element.id e).size)
    read located source cursor = (do
      let (size, sizeLength) ← VarInt.read
      return (← readBody located size, sizeLength + size) : Reader (ε × Nat)) source cursor := by
  intro located
  have hlocate : locate located source cursor = .ok located cursor := by
    show EStateM.Result.ok (setOffset located (cursor.pos - (Element.id located).size)) cursor = _
    rw [id_setOffset, setOffset_setOffset]
  exact Reader.bind_of_ok hlocate

/-- Reading an element in place comes to the same. -/
theorem fill_eq : (fill : Filling ε Nat) = Element.fill := by
  funext source ⟨e, cursor⟩
  have hsteps := commits_fillRest (setOffset e (cursor.pos - (Element.id e).size)) source cursor
  have hwhole := commits_read (setOffset e (cursor.pos - (Element.id e).size)) source cursor
  rw [read_located] at hwhole
  exact hsteps.trans hwhole.symm

/-- Where the size is known, the body is read into the element with its offset recorded. -/
theorem fill_of_size {size length : Nat}
    (h : VarInt.read source cursor = .ok (size, length) cursor') :
    Element.fill source ⟨e, cursor⟩ =
      (do return length + (← Element.fillBody size) : Filling ε Nat) source
        ⟨setOffset e (cursor.pos - (Element.id e).size), cursor'⟩ := by
  rw [← fill_eq, ← fillBody_eq]
  exact Filling.lift_bind_of_ok h

/-- A body that could not be read leaves the element as it was. -/
theorem fillBody_kept {size : Nat}
    (h : Element.fillBody size source ⟨e, cursor⟩ = .error fault ⟨e', cursor'⟩) : e' = e := by
  rw [← fillBody_eq] at h
  exact (commits_fillBody e size).kept h

/-- An element that could not be read has another offset. -/
theorem fill_kept
    (h : Element.fill source ⟨e, cursor⟩ = .error fault ⟨e', cursor'⟩) :
    e' = setOffset e (cursor.pos - (Element.id e).size) := by
  rw [← fill_eq] at h
  exact (commits_fillRest _).kept h

end Stepwise

end Element

/-! ## Blocks -/

namespace Block

/-- Reads the body of the element `id`, of `size` bytes, into a block, and returns its flags. -/
def fillContent (id : ElementId) (size : Nat) : Filling Block UInt8 := do
  let (track, timecode, trackLength) ← Filling.lift readPlace
  let flags ← Filling.lift Reader.next
  let consumed := trackLength + 3
  if size < consumed then throw (.badBodySize id.value size consumed)
  let lacing ← Filling.lift (Reader.ofExcept (Lacing.ofFlags flags))
  let (sizes, _) ← Filling.lift (lacing.readHeader (size - consumed) id size)
  Filling.lift (Reader.note (.readingFrames sizes.length track lacing))
  let frames ← Filling.lift (readFrames sizes)
  Filling.update (·.setTrack track)
  Filling.change fun b => { b with timecode }
  Filling.change fun b => { b with invisible := flags &&& invisibleFlag = invisibleFlag }
  Filling.change fun b => { b with lacing }
  Filling.change fun b => { b with frames }
  return flags

/-- Whether a track number is allowed does not depend on the block. -/
theorem setTrack_cases (track : Nat) :
    (∃ e, ∀ b : Block, b.setTrack track = .error e) ∨
      ∀ b : Block, b.setTrack track = .ok { b with track } := by
  simp only [setTrack]
  split
  next => exact .inl ⟨_, fun _ => rfl⟩
  next =>
    split
    next => exact .inl ⟨_, fun _ => rfl⟩
    next => exact .inr fun _ => rfl

/-- The track number is checked when everything is read, and nothing is assigned before. -/
theorem commits_fillContent (b : Block) (id : ElementId) (size : Nat) :
    Filling.Commits b (fillContent id size) (do
      let (read, flags) ← readContent id size
      return ({ read with offset := b.offset }, flags)) := by
  simp only [readContent, fillContent, bind_assoc]
  refine .lift_bind fun ⟨track, timecode, trackLength⟩ => .lift_bind fun flags => ?_
  dsimp only
  split
  next =>
    rw [bind_assoc]
    exact .throw_bind
  next =>
    simp only [bind_assoc]
    refine .lift_bind fun lacing => .lift_bind fun ⟨sizes, _⟩ => .lift_bind fun _ =>
      .lift_bind fun frames => ?_
    rcases setTrack_cases track with ⟨e, hrefused⟩ | hset
    · intro source cursor
      simp only [Filling.update, hrefused]
      rfl
    · intro source cursor
      simp only [Filling.update, hset]
      rfl

instance : Element.Stepwise Block where
  fillBody size := do
    let _ ← fillContent .block size
    return size
  commits_fillBody b size := by
    have hbody := (commits_fillContent b .block size).bind (g := fun _ => pure size)
      (k := fun result => (result.1, size)) fun _ _ _ _ => rfl
    simpa only [Element.readBody, bind_assoc, pure_bind] using hbody

end Block

namespace SimpleBlock

/-- Assigns the flags that a simple block has beside those of every block. -/
def assignFlags (flags : UInt8) : Filling SimpleBlock Unit := do
  Filling.change fun b => { b with keyframe := flags &&& keyframeFlag = keyframeFlag }
  Filling.change fun b => { b with discardable := flags &&& discardableFlag = discardableFlag }

instance : Element.Stepwise SimpleBlock where
  fillBody size := do
    let b ← Filling.object
    let flags ← Filling.inside b.block ({ b with block := · })
      (Block.fillContent .simpleBlock size)
    assignFlags flags
    return size
  commits_fillBody b size := by
    have hblock := (Block.commits_fillContent b.block .simpleBlock size).inside
      fun block => { b with block }
    have hbody := hblock.bind
      (g := fun flags => do
        assignFlags flags
        return size)
      (k := fun (b, flags) =>
        ({ b with
            keyframe := flags &&& keyframeFlag = keyframeFlag
            discardable := flags &&& discardableFlag = discardableFlag }, size))
      fun _ _ _ _ => rfl
    refine .object_bind ?_
    simpa only [Element.readBody, bind_assoc, pure_bind] using hbody

end SimpleBlock

/-! ## Block groups -/

instance : Element.Stepwise BlockAdditions where
  fillBody size := do
    let entries ← Filling.lift
      (Element.readChildren .blockAdditions size [] BlockAdditions.readChild)
    Filling.change fun a => { a with entries }
    return size
  commits_fillBody a size := by
    simp only [Element.readBody, bind_assoc, pure_bind]
    exact .lift_bind fun entries _ _ => rfl

instance : Element.Stepwise BlockGroup where
  fillBody size := do
    let draft ← Filling.lift (Element.readChildren .blockGroup size {} BlockGroup.readChild)
    match draft.block? with
    | none => throw (.missingChild ElementId.blockGroup.value ElementId.block.value)
    | some block =>
      let rest := draft.rest
      Filling.lift (Reader.note (.readBlockGroup block.track rest.refBlocks.length))
      Filling.change fun g => { g with block }
      Filling.change fun g => { g with additions := rest.additions }
      Filling.change fun g => { g with duration := rest.duration }
      Filling.change fun g => { g with refPriority := rest.refPriority }
      Filling.change fun g => { g with refBlocks := rest.refBlocks }
      Filling.change fun g => { g with codecState := rest.codecState }
      return size
  commits_fillBody g size := by
    simp only [Element.readBody, BlockGroup.readContent, bind_assoc]
    refine .lift_bind fun draft => ?_
    cases draft.block? with
    | none => exact fun _ _ => rfl
    | some block =>
      simp only [bind_assoc]
      exact .lift_bind fun _ _ _ => rfl

instance : Element.Stepwise ClusterBlock where
  fillBody size := do
    match ← Filling.object with
    | .simple b => Filling.inside b .simple (Element.Stepwise.fillBody size)
    | .group b => Filling.inside b .group (Element.Stepwise.fillBody size)
  commits_fillBody b size := by
    refine .object_bind ?_
    cases b with
    | simple b =>
      have hbody := (Element.Stepwise.commits_fillBody b size).inside ClusterBlock.simple
      simpa only [Element.readBody, map_eq_pure_bind, bind_assoc, pure_bind] using hbody
    | group b =>
      have hbody := (Element.Stepwise.commits_fillBody b size).inside ClusterBlock.group
      simpa only [Element.readBody, map_eq_pure_bind, bind_assoc, pure_bind] using hbody
  id_setOffset b offset := by cases b <;> rfl
  setOffset_setOffset b offset offset' := by cases b <;> rfl

/-! ## Other elements -/

instance : Element.Stepwise VoidElement where
  fillBody size := do
    Filling.lift (Reader.skip size)
    Filling.change (·.setSize size)
    return size
  commits_fillBody e size := by
    simp only [Element.readBody, bind_assoc, pure_bind]
    exact .lift_bind fun _ _ _ => rfl

/-- Reads a body of the element `id` into a value of the same kind. -/
def Value.fill (id : ElementId) (size : Nat) : Filling Value Unit := do
  let value ← Filling.lift (Value.read (← Filling.object).kind id size)
  Filling.change fun _ => value

theorem Value.commits_fill (value : Value) (id : ElementId) (size : Nat) :
    Filling.Commits value (Value.fill id size)
      (do return (← Value.read value.kind id size, ())) :=
  .object_bind (.lift_bind fun _ _ _ => rfl)

instance : Element.Stepwise PrimitiveElement where
  fillBody size := do
    let e ← Filling.object
    Filling.lift (Reader.note (.readingPrimitive e.id size))
    Filling.inside e.value ({ e with value := · }) (Value.fill e.id size)
    return size
  commits_fillBody e size := by
    have hvalue := (Value.commits_fill e.value e.id size).inside fun value => { e with value }
    have hbody := hvalue.bind (g := fun _ => pure size) (k := fun result => (result.1, size))
      fun _ _ _ _ => rfl
    simp only [bind_assoc, pure_bind] at hbody
    simp only [Element.readBody, bind_assoc, pure_bind]
    exact .object_bind (.lift_bind fun _ => hbody)

/-! ## Every kind of element -/

namespace Element

/-- A read that fails keeps everything of the element that it had begun to read into, except that
`moved` records another offset.  This holds of the fields one by one as they are read in place. -/
structure KeptOnFailure (ε : Type) [Element ε] [Stepwise ε] (moved : ε → Nat → ε) : Prop where
  /-- A whole element that is read in place is the element that is read as a whole. -/
  fill_eq : (Stepwise.fill : Filling ε Nat) = fill
  /-- A body that is read in place is the body that is read as a whole. -/
  fillBody_eq : ∀ size, (Stepwise.fillBody size : Filling ε Nat) = fillBody size
  /-- Where the body could not be read, nothing has changed. -/
  body : ∀ size source cursor cursor' fault (e e' : ε),
    fillBody size source ⟨e, cursor⟩ = .error fault ⟨e', cursor'⟩ → e' = e
  /-- Where the size or the body could not be read, only the offset has changed. -/
  whole : ∀ source cursor cursor' fault (e e' : ε),
    fill source ⟨e, cursor⟩ = .error fault ⟨e', cursor'⟩ →
      e' = moved e (cursor.pos - (Element.id e).size)

theorem Stepwise.keptOnFailure {ε : Type} [Element ε] [Stepwise ε] :
    KeptOnFailure ε setOffset where
  fill_eq := fill_eq
  fillBody_eq := fillBody_eq
  body _ _ _ _ _ _ _ := fillBody_kept
  whole _ _ _ _ _ _ := fill_kept

end Element

/-- A read that fails, for whatever reason and at whatever depth, keeps every field of the element
but its own offset.  A read of the body keeps that as well. -/
theorem failed_reads_keep :
    Element.KeptOnFailure PrimitiveElement (fun e offset => { e with offset }) ∧
      Element.KeptOnFailure VoidElement (fun e offset => { e with offset }) ∧
      Element.KeptOnFailure Block (fun b offset => { b with offset }) ∧
      Element.KeptOnFailure SimpleBlock (fun b offset =>
        { b with block := { b.block with offset } }) ∧
      Element.KeptOnFailure BlockGroup (fun g offset => { g with offset }) ∧
      Element.KeptOnFailure BlockAdditions (fun a offset => { a with offset }) ∧
      Element.KeptOnFailure ClusterBlock (fun b offset =>
        match b with
        | .simple b => .simple { b with block := { b.block with offset } }
        | .group g => .group { g with offset }) := by
  refine ⟨Element.Stepwise.keptOnFailure, Element.Stepwise.keptOnFailure,
    Element.Stepwise.keptOnFailure, Element.Stepwise.keptOnFailure,
    Element.Stepwise.keptOnFailure, Element.Stepwise.keptOnFailure, ?_⟩
  have hmoved : (Element.setOffset : ClusterBlock → Nat → ClusterBlock) = fun b offset =>
      match b with
      | .simple b => .simple { b with block := { b.block with offset } }
      | .group g => .group { g with offset } := by
    funext b offset
    cases b <;> rfl
  rw [← hmoved]
  exact Element.Stepwise.keptOnFailure

/-- The size and the body of a block group with two blocks.  The second one has frames, but its
track number is zero. -/
def untrackedGroup : List UInt8 :=
  [0x8e, 0xa1, 0x85, 0x81, 0x00, 0x05, 0x00, 0xcc, 0xa1, 0x85, 0x80, 0x00, 0x06, 0x00, 0xdd]

/-- A group that was read before. -/
def priorGroup : BlockGroup :=
  { block := { track := 7, timecode := 42, frames := [[0xee]], offset := 12 }
    duration := 5, refBlocks := [-40], offset := 10 }

/-- It is kept when the other one is read into it, although all the frames could be read.  It moves
to where that one is, unless only the body is read. -/
theorem untrackedGroup_refused :
    ∃ cursor cursor',
      (Element.fill : Filling BlockGroup Nat) ⟨0xa0 :: untrackedGroup, 16⟩ ⟨priorGroup, ⟨1, #[]⟩⟩ =
          .error (.valueOutOfRange "track numbers start at 1")
            ⟨{ priorGroup with offset := 0 }, cursor⟩ ∧
        Element.fillBody 14 ⟨0xa0 :: untrackedGroup, 16⟩ ⟨priorGroup, ⟨2, #[]⟩⟩ =
          .error (.valueOutOfRange "track numbers start at 1") ⟨priorGroup, cursor'⟩ := by
  obtain ⟨-, -, -, -, hgroup, -⟩ := failed_reads_keep
  have hwhole : errorOf? ((Element.fill : Filling BlockGroup Nat) ⟨0xa0 :: untrackedGroup, 16⟩
      ⟨priorGroup, ⟨1, #[]⟩⟩) = some (.valueOutOfRange "track numbers start at 1") := by
    decide +kernel
  have hbody : errorOf? (Element.fillBody 14 ⟨0xa0 :: untrackedGroup, 16⟩
      ⟨priorGroup, ⟨2, #[]⟩⟩) = some (.valueOutOfRange "track numbers start at 1") := by
    decide +kernel
  obtain ⟨⟨g, cursor⟩, hwhole⟩ := of_errorOf? hwhole
  obtain ⟨⟨g', cursor'⟩, hbody⟩ := of_errorOf? hbody
  refine ⟨cursor, cursor', ?_, ?_⟩
  · rw [hwhole, hgroup.whole _ _ _ _ _ _ hwhole]
    rfl
  · rw [hbody, hgroup.body _ _ _ _ _ _ _ hbody]

end Ebml
