import Ebml.Proofs.Cluster.Block
import Ebml.Proofs.Void

/-!
# Elements in a row

Elements of any kinds lie one after another in a stream, as they were written (`Element.Row`).  A
reader that goes through them deals with one after the other.  What it makes of each depends on the
bytes of that one alone, so it is the same in every stream that has these bytes
(`Row.traverses_part`).

This needs two things of a kind (`Element.Regular`): what is written of an element is an ID, a size
and a body of that size, and a body that is read is moved over.
-/

namespace Ebml

namespace Element

/-- A kind of element that is written as an ID, a size and a body, and read as such. -/
class Regular (ε : Type) [Element ε] : Prop where
  /-- An element that can be written has an encoding, in which some octets hold the size. -/
  encoded : ∀ {e : ε} {sink sink' : Sink} {written : Nat}, write e sink = .ok written sink' →
    ∃ width body, VarInt.Payload (bodySize e) width ∧ List.length body = bodySize e ∧
      totalSize e = (id e).size + (width + bodySize e) ∧
        Writer.Emits False (write e)
          ((id e).encode ++ (VarInt.sized (bodySize e) width ++ body)) (totalSize e)
  /-- A body that is read is moved over. -/
  spans_readBody : ∀ (e : ε) size, size < UInt64.size →
    Reader.Spans (readBody e size) fun _ n => n = size

section

variable {ε : Type} [Element ε]

/-- A kind whose sizes are as short as possible. -/
theorem Regular.of_encoded [Encoded ε]
    (hwrite : ∀ e : ε, Writer.Emits False (write e) (encoding e) (totalSize e))
    (hread : ∀ (e : ε) size, size < UInt64.size →
      Reader.Spans (readBody e size) fun _ n => n = size) : Regular ε where
  encoded {e _ _ _} hok :=
    ⟨_, Encoded.body e, (VarInt.fits_octetLength (le_max_of_write hok)).payload,
      Encoded.length_body e, by rw [Encoded.totalSize_eq, Nat.add_assoc], hwrite e⟩
  spans_readBody := hread

end

instance : Regular PrimitiveElement :=
  .of_encoded (fun _ => PrimitiveElement.emits_write False.elim)
    fun e size _ => e.spans_readBody size

instance : Regular Block :=
  .of_encoded (fun _ => Block.emits_write False.elim) fun b _ => b.spans_readBody

instance : Regular SimpleBlock :=
  .of_encoded (fun _ => SimpleBlock.emits_write False.elim) fun b _ => b.spans_readBody

instance : Regular BlockAdditions :=
  .of_encoded (fun _ => BlockAdditions.emits_write False.elim) fun a size _ => a.spans_readBody size

instance : Regular BlockGroup :=
  .of_encoded (fun _ => BlockGroup.emits_write False.elim) fun g size _ => g.spans_readBody size

instance : Regular ClusterBlock :=
  .of_encoded (fun _ => ClusterBlock.emits_write False.elim) fun b _ => b.spans_readBody

instance : Regular VoidElement where
  encoded {e _ _ _} hok := by
    obtain ⟨_, _, _, hrest⟩ := Writer.bind_eq_ok.mp hok
    obtain ⟨_, _, hsize, _⟩ := Writer.bind_eq_ok.mp hrest
    have htotal : totalSize e = ElementId.void.size + (e.sizeLength + e.size) :=
      Nat.add_assoc _ _ _
    exact ⟨e.sizeLength, List.replicate e.size 0, (VarInt.fits_of_writeSized hsize).payload,
      List.length_replicate, htotal, VoidElement.emits_write False.elim⟩
  spans_readBody e size _ := e.spans_readBody size

/-! ## Rows -/

/-- An element of any kind. -/
structure Child where
  /-- The kind. -/
  {Kind : Type}
  [kind : Element Kind]
  [regular : Regular Kind]
  /-- The element. -/
  element : Kind

attribute [instance] Child.kind Child.regular

namespace Child

/-- Writes the element. -/
def write (child : Child) : Writer Nat := Element.write child.element

/-- Writes elements one after another. -/
def writeAll (children : List Child) : Writer Nat :=
  Writer.each (fun write => write) (children.map write)

/-- The ID of the element. -/
def id (child : Child) : ElementId := Element.id child.element

/-- The size of the whole element. -/
def totalSize (child : Child) : Nat := Element.totalSize child.element

/-- The total size of some elements. -/
def sizes (children : List Child) : Nat := (children.map totalSize).sum

/-- In the stream lies what is written of the element. -/
def Stands (child : Child) (source : Source) (pos : Nat) : Prop :=
  ∃ sink written sink', child.write sink = .ok written sink' ∧
    source.Holds pos ((sink'.stream.data.drop sink.stream.pos).take written)

end Child

/-- From `pos` to `stop` these elements lie in the stream, one after another. -/
inductive Row (source : Source) : (pos stop : Nat) → List Child → Prop
  | nil {pos : Nat} : Row source pos pos []
  | cons {pos stop : Nat} {child : Child} {children : List Child} :
      child.Stands source pos → Row source (pos + child.totalSize) stop children →
      Row source pos stop (child :: children)

variable {source : Source} {pos stop : Nat} {child : Child} {children : List Child}

theorem Row.stop_eq (h : Row source pos stop children) : stop = pos + Child.sizes children := by
  induction h with
  | nil => rfl
  | cons _ _ ih =>
      rw [Child.sizes, List.map_cons, List.sum_cons, ← Nat.add_assoc]
      exact ih

/-- An element that was written has an encoding of its total size. -/
theorem Child.emits_of_write {sink sink' : Sink} {written : Nat}
    (hok : child.write sink = .ok written sink') :
    ∃ size width body, VarInt.Payload size width ∧
      child.totalSize = child.id.size + (width + size) ∧
      (child.id.encode ++ (VarInt.sized size width ++ body)).length = child.totalSize ∧
      Writer.Emits False child.write (child.id.encode ++ (VarInt.sized size width ++ body))
        child.totalSize := by
  obtain ⟨width, body, hpayload, hbody, htotal, hemits⟩ := Regular.encoded hok
  refine ⟨_, width, body, hpayload, htotal, ?_, hemits⟩
  rw [List.length_append, List.length_append, ElementId.length_encode, VarInt.length_sized, hbody]
  exact htotal.symm

/-- What an element that stands somewhere begins with, and where it ends. -/
theorem Child.Stands.parts (h : child.Stands source pos) :
    ∃ size width, child.totalSize = child.id.size + (width + size) ∧
      Reader.Yields ElementId.read source pos child.id (pos + child.id.size) ∧
        Reader.Yields VarInt.read source (pos + child.id.size) (size, width)
          (pos + child.id.size + width) ∧ pos + child.totalSize ≤ source.bytes.length := by
  obtain ⟨sink, written, sink', hok, hheld⟩ := h
  obtain ⟨size, width, body, hpayload, htotal, hlength, hemits⟩ := Child.emits_of_write hok
  obtain ⟨rfl, stream, hsettled, hpos, hstream⟩ :=
    (fillsGap_write child.element).of_ok hemits hok
  rw [← hpos, hstream, Stream.drop_overlay hsettled, ← hlength, List.take_left] at hheld
  have hsize := hheld.right
  rw [ElementId.length_encode] at hsize
  have hend := hheld.end_le fun hnil =>
    ElementId.encode_ne_nil _ (List.append_eq_nil_iff.mp hnil).1
  rw [hlength] at hend
  exact ⟨size, width, htotal, ElementId.yields_read hheld.left,
    VarInt.yields_read hpayload hsize.left, hend⟩

/-- An element has at least an octet for its ID and one for its size. -/
theorem Child.Stands.two_le (h : child.Stands source pos) : 2 ≤ child.totalSize := by
  obtain ⟨size, width, htotal, _, hsize, _⟩ := h.parts
  obtain ⟨_, hok⟩ := hsize #[]
  obtain ⟨_, _, ⟨rfl, hwidth, _⟩, _⟩ := VarInt.spans_read _ _ _ _ hok
  have hid := child.id.size_pos
  omega

theorem Row.stands {front back : List Child}
    (h : Row source pos stop (front ++ child :: back)) :
    child.Stands source (pos + Child.sizes front) := by
  induction front generalizing pos with
  | nil =>
      cases h with
      | cons hstands _ => exact hstands
  | cons first front ih =>
      cases h with
      | cons _ hrest =>
          have hstands := ih hrest
          rw [Nat.add_assoc] at hstands
          exact hstands

/-- The bytes of elements that are written one after another are a row wherever they lie. -/
theorem rows_of_writeAll {sink sink' : Sink} {total : Nat} (hsettled : sink.stream.Settled)
    (hok : Child.writeAll children sink = .ok total sink') :
    ∃ bytes, bytes.length = Child.sizes children ∧
      sink'.stream = sink.stream.overlay bytes ∧
        ∀ source pos, source.Holds pos bytes →
          Row source pos (pos + Child.sizes children) children := by
  induction children generalizing sink total with
  | nil =>
      cases hok
      exact ⟨[], rfl, (Stream.overlay_nil _).symm, fun _ _ _ => .nil⟩
  | cons child children ih =>
      obtain ⟨_, between, hfirst, hok⟩ := Writer.bind_eq_ok.mp hok
      obtain ⟨_, _, hrest, hpure⟩ := Writer.bind_eq_ok.mp hok
      cases hpure
      obtain ⟨_, _, _, _, _, hlength, hemits⟩ := Child.emits_of_write hfirst
      obtain ⟨rfl, hstream⟩ := hemits.of_ok hsettled hfirst
      obtain ⟨bytes, hsizes, hstream', hrow⟩ :=
        ih (hstream ▸ Stream.settled_overlay hsettled _) hrest
      rw [hstream, Stream.overlay_overlay hsettled] at hstream'
      have hsum : Child.sizes (child :: children) = child.totalSize + Child.sizes children := rfl
      refine ⟨_, by rw [List.length_append, hlength, hsizes, hsum], hstream',
        fun source pos hheld => ?_⟩
      have hafter := hrow source _ hheld.right
      rw [hlength, Nat.add_assoc, ← hsum] at hafter
      refine .cons ⟨sink, _, between, hfirst, ?_⟩ hafter
      rw [hstream, Stream.drop_overlay hsettled, ← hlength, List.take_left]
      exact hheld.left

/-- Elements that are written one after another lie in a row. -/
theorem row_of_writeAll {sink sink' : Sink} {total : Nat} (hsettled : sink.stream.Settled)
    (hok : Child.writeAll children sink = .ok total sink') (limit : Nat) :
    Row ⟨sink'.stream.data, limit⟩ sink.stream.pos sink'.stream.pos children := by
  obtain ⟨bytes, hlength, hstream, hrow⟩ := rows_of_writeAll hsettled hok
  rw [hstream, Stream.pos_overlay, hlength]
  apply hrow
  rw [Source.Holds, Stream.drop_overlay hsettled]
  exact List.prefix_append _ _

/-! ## Going through a row -/

variable {β : Type}

/-- The ways to deal with an element whose ID was read: passing over it, reading it into an object
of some kind and keeping something of that, and refusing it. -/
inductive Takes : Reader (Option β × Nat) → Prop
  | skip : Takes (do return (none, ← skipRest))
  | read {ε : Type} [Element ε] [Regular ε] (fresh : ε) (keep : ε → Option β) :
      Takes (do let (e, count) ← Element.read fresh; return (keep e, count))
  | refuse (fault : Error) : Takes (throw fault)

theorem Takes.spans {take : Reader (Option β × Nat)} (h : Takes take) :
    Reader.Spans take fun result n => n = result.2 := by
  cases h with
  | skip => exact spans_skipRest.bind fun _ _ h => Reader.Spans.pure h
  | read fresh keep =>
      exact (spans_read Regular.spans_readBody fresh).bind fun _ _ h => Reader.Spans.pure h
  | refuse fault => exact Reader.Spans.throw

theorem Takes.counts {take : Reader (Option β × Nat)} (h : Takes take) :
    Counts take Prod.snd := by
  cases h with
  | skip => exact counts_skipRest.map fun _ => ⟨_, rfl, rfl⟩
  | read fresh keep => exact (counts_read fresh).map fun _ => ⟨_, rfl, rfl⟩
  | refuse fault => exact counts_throw fault

/-- Passes over void elements, and deals with the others. -/
def passVoid (take : ElementId → Reader (Option β × Nat)) (id : ElementId) :
    Reader (Option β × Nat) :=
  if id = .void then do return (none, ← skipRest) else take id

/-- Deals with a child, and adds what is kept of it to what was kept of those before. -/
def collect (take : ElementId → Reader (Option β × Nat)) (items : List (Option β))
    (id : ElementId) : Reader (List (Option β) × Nat) := do
  let (item, count) ← passVoid take id
  return (items ++ [item], count)

variable {take : ElementId → Reader (Option β × Nat)}

theorem takes_passVoid (htake : ∀ id, Takes (take id)) (id : ElementId) :
    Takes (passVoid take id) := by
  rw [passVoid]
  split
  next => exact .skip
  next => exact htake id

theorem spans_collect (htake : ∀ id, Takes (take id)) (items : List (Option β)) (id : ElementId) :
    Reader.Spans (collect take items id) fun result n => n = result.2 :=
  (takes_passVoid htake id).spans.bind fun _ _ h => Reader.Spans.pure h

theorem counts_collect (htake : ∀ id, Takes (take id)) (items : List (Option β))
    (id : ElementId) : Counts (collect take items id) Prod.snd :=
  (takes_passVoid htake id).counts.map fun _ => ⟨_, rfl, rfl⟩

/-- An element of a row is dealt with as one child, and alike wherever its bytes are. -/
theorem Child.Stands.traverses (htake : ∀ id, Takes (take id)) (h : child.Stands source pos)
    {items items' : List (Option β)}
    (htraverses : Traverses (collect take) source pos items stop items') (hne : pos ≠ stop) :
    ∃ item, Traverses (collect take) source (pos + child.totalSize) (items ++ [item]) stop items' ∧
      ∀ other, source.Agrees other pos child.totalSize → ∀ items,
        Traverses (collect take) other pos items (pos + child.totalSize) (items ++ [item]) := by
  obtain ⟨size, width, htotal, hid, hsize, _⟩ := h.parts
  obtain ⟨_, hchild, hrest⟩ := htraverses.uncons (counts_collect htake) hne hid hsize
  obtain ⟨_, hok⟩ := hchild #[]
  obtain ⟨⟨item, _⟩, _, htaken, hpure⟩ := Reader.bind_eq_ok.mp hok
  cases hpure
  obtain ⟨_, hfound⟩ := hid #[]
  obtain ⟨_, _, rfl, _, hlocal⟩ := ElementId.spans_read _ _ _ _ hfound
  obtain ⟨_, _, rfl, _, hlocal'⟩ := (takes_passVoid htake _).spans _ _ _ _ htaken
  rw [htotal, ← Nat.add_assoc]
  refine ⟨item, hrest, fun other hagrees items => ?_⟩
  exact .cons (hlocal other hagrees.left) ((hlocal' other hagrees.right).map rfl) .nil

/-- The first elements of a row are dealt with one by one.  What comes of it is added to what there
was before, and comes of it in every stream that has the bytes of these elements. -/
theorem Row.traverses_part (htake : ∀ id, Takes (take id)) {front back : List Child}
    (h : Row source pos stop (front ++ back)) {items items' : List (Option β)}
    (htraverses : Traverses (collect take) source pos items stop items') :
    ∃ found, found.length = front.length ∧
      Row source (pos + Child.sizes front) stop back ∧
        Traverses (collect take) source (pos + Child.sizes front) (items ++ found) stop items' ∧
          ∀ other, source.Agrees other pos (Child.sizes front) → ∀ items,
            Traverses (collect take) other pos items (pos + Child.sizes front)
              (items ++ found) := by
  induction front generalizing pos items with
  | nil =>
      refine ⟨[], rfl, h, ?_, fun other _ items => ?_⟩
      · rw [List.append_nil]
        exact htraverses
      · rw [List.append_nil]
        exact .nil
  | cons child front ih =>
      cases h with
      | cons hstands hrest =>
          have hsizes : Child.sizes (child :: front) = child.totalSize + Child.sizes front := rfl
          obtain ⟨size, width, htotal, _⟩ := hstands.parts
          have hpos := child.id.size_pos
          have hle := hrest.stop_eq
          obtain ⟨item, htraverses, halike⟩ :=
            hstands.traverses htake htraverses (by omega)
          obtain ⟨found, hlength, hback, htraverses, halike'⟩ := ih hrest htraverses
          rw [hsizes, ← Nat.add_assoc]
          refine ⟨item :: found, by rw [List.length_cons, List.length_cons, hlength], hback, ?_,
            fun other hagrees items => ?_⟩
          · rw [List.append_cons]
            exact htraverses
          · have hrest := halike' other hagrees.right (items ++ [item])
            rw [← List.append_cons] at hrest
            exact (halike other hagrees.left items).append hrest

/-- So are all elements of a row. -/
theorem Row.traverses (htake : ∀ id, Takes (take id)) (h : Row source pos stop children)
    {items items' : List (Option β)}
    (htraverses : Traverses (collect take) source pos items stop items') :
    ∃ found, found.length = children.length ∧ items' = items ++ found ∧
      ∀ other, source.Agrees other pos (Child.sizes children) → ∀ items,
        Traverses (collect take) other pos items stop (items ++ found) := by
  rw [← List.append_nil children] at h
  obtain ⟨found, hlength, hrest, htraverses, halike⟩ := h.traverses_part htake htraverses
  cases hrest
  exact ⟨found, hlength, htraverses.eq_of_nil, halike⟩

end Element

end Ebml
