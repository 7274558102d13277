import Ebml.Element.Void
import Ebml.Proofs.Element.Payloads
import Ebml.Proofs.Numbering
import Ebml.Proofs.Stream.Allocation

/-!
# What elements need memory for

A reader of an element asks for memory for the payloads in the body, for each by itself and as large
as it is, and for nothing else (`Reader.Asks`).  The lemmas follow the readers as far as they have
to do with payloads.  All other readers do not look at the limit on memory (`Reader.closed_blind`).
-/

namespace Ebml

open Reader (Asks Blind Gated closed_blind)

namespace Element

variable {α : Type} {carries : Source → Nat → Nat → List Nat → Prop}

theorem asks_varInt {f : Nat × Nat → Reader α}
    (hf : ∀ size length, size < UInt64.size →
      Asks (f (size, length)) fun source pos => carries source pos size) :
    Asks (VarInt.read >>= f) (Sized carries) := by
  intro source cursor a cursor' hok
  obtain ⟨⟨size, length⟩, ⟨_, log⟩, hread, hok⟩ := Reader.bind_eq_ok.mp hok
  obtain ⟨hpos, hsize⟩ := VarInt.of_read hread
  dsimp only at hpos
  subst hpos
  obtain ⟨sizes, hcarries, hgated⟩ := hf size length (VarInt.lt_size_of_yields hsize) _ _ _ _ hok
  exact ⟨sizes, ⟨size, length, hsize, hcarries⟩,
    .after_blind (VarInt.closed_read closed_blind) hread hgated⟩

theorem asks_read {ε : Type} [Element ε] {e : ε}
    (hbody : ∀ offset size, size < UInt64.size →
      Asks (readBody (setOffset e offset) size) fun source pos => carries source pos size) :
    Asks (read e) (Sized carries) := by
  rw [read, locate, bind_assoc]
  refine Asks.after_position fun pos => ?_
  rw [pure_bind]
  exact asks_varInt fun size length hsize => (hbody _ size hsize).bind fun _ => .pure _

/-- An element without payloads. -/
theorem asks_nothing {r : Reader α} {count : α → Nat} (hblind : Blind r) (hcounts : Counts r count)
    (hnone : ∀ source pos size, carries source pos size []) : Asks r (Sized carries) := by
  refine Asks.of_blind hblind fun source cursor a cursor' hok => ?_
  obtain ⟨size, length, hsize, -⟩ := hcounts source cursor a cursor' hok
  exact ⟨size, length, hsize, hnone source _ size⟩

/-! ## Children -/

section

variable {carries : Source → ElementId → Nat → Nat → List Nat → Prop}
  {handle : α → ElementId → Reader (α × Nat)}

/-- The memory that children need one after another. -/
theorem gated_readChildrenFrom {source : Source}
    (hadvances : ∀ acc id, Reader.Advances (handle acc id) Prod.snd)
    (hcounts : ∀ acc id, Counts (handle acc id) Prod.snd)
    (hasks : ∀ acc id, Asks (handle acc id) (Sized fun source => carries source id))
    {parent : ElementId} {size : Nat} :
    ∀ {consumed : Nat} {acc acc' : α} {cursor cursor' : Cursor},
      readChildrenFrom parent size handle consumed acc source cursor = .ok acc' cursor' →
        ∃ sizes, Carried source (carries source) cursor.pos cursor'.pos sizes ∧
          Gated source (readChildrenFrom parent size handle consumed acc) cursor sizes := by
  intro consumed
  -- every child takes at least the octet of its ID, so less of the body is left after it
  induction hleft : size - consumed using Nat.strongRecOn generalizing consumed with
  | ind left ih =>
      intro acc acc' cursor cursor' hok
      rw [readChildrenFrom] at hok ⊢
      split at hok
      next hlt =>
        obtain ⟨id, cursor₁, hread, hok⟩ := Reader.bind_eq_ok.mp hok
        obtain ⟨_, cursor₂, hnote, hok⟩ := Reader.bind_eq_ok.mp hok
        obtain ⟨⟨next, count⟩, cursor₃, hchild, hrest⟩ := Reader.bind_eq_ok.mp hok
        obtain ⟨_, hpos₁, rfl, _, hid⟩ := ElementId.spans_read _ _ _ _ hread
        have hsize := id.size_pos
        obtain ⟨rest, hcarried, hlater⟩ := ih _ (by omega) rfl hrest
        obtain ⟨first, ⟨size', length, hvint, hfirst⟩, hgated⟩ := hasks _ _ _ _ _ _ hchild
        obtain ⟨_, _, hvint', hcount⟩ := hcounts _ _ _ _ _ _ hchild
        cases (hvint.agree hvint').1
        obtain ⟨hpos₃, -⟩ := hadvances _ _ _ _ _ _ hchild
        have hpos₂ : cursor₂.pos = cursor.pos + id.size := by
          cases hnote
          exact hpos₁
        rw [hpos₂] at hvint hfirst hpos₃
        rw [hpos₃, hcount] at hcarried
        rw [if_pos hlt]
        refine ⟨first ++ rest, .cons (hid _ (.refl _ _ _)) hvint hfirst hcarried, ?_⟩
        exact .after_blind (ElementId.closed_read closed_blind) hread
          (.after_blind (.note _) hnote (.bind hchild hgated hlater))
      next hge =>
        split at hok
        next heq =>
          cases hok
          rw [if_neg hge, if_pos heq]
          exact ⟨[], .nil, .blind (.pure _)⟩
        next => cases hok

theorem asks_readChildren (hadvances : ∀ acc id, Reader.Advances (handle acc id) Prod.snd)
    (hcounts : ∀ acc id, Counts (handle acc id) Prod.snd)
    (hasks : ∀ acc id, Asks (handle acc id) (Sized fun source => carries source id))
    (parent : ElementId) (size : Nat) (init : α) :
    Asks (readChildren parent size init handle) fun source pos =>
      Carried source (carries source) pos (pos + size) := by
  intro source cursor acc cursor' hok
  obtain ⟨sizes, hcarried, hgated⟩ := gated_readChildrenFrom hadvances hcounts hasks hok
  rw [(traverses_of_readChildren hadvances hok).2] at hcarried
  exact ⟨sizes, hcarried, hgated⟩

end

end Element

/-! ## Values -/

theorem Value.asks_read (kind : Kind) (id : ElementId) (size : Nat) :
    Asks (read kind id size) fun _ _ sizes => sizes = kind.payloadSizes size := by
  cases kind with
  | int | uint | float | date =>
      exact Asks.of_blind (closed_read closed_blind (by rintro ⟨⟩) id) fun _ _ _ _ _ => rfl
  | string =>
      have htext : Asks (readText size) fun _ _ sizes => sizes = [size] := by
        refine (Asks.body size).bind fun bytes => ?_
        split
        next => exact .pure _
        next => exact .throw _
      exact htext.bind fun _ => .pure _
  | binary => exact (Asks.body size).bind fun _ => .pure _

namespace PrimitiveElement

theorem asks_readBody (e : PrimitiveElement) (size : Nat) :
    Asks (Element.readBody e size) fun _ _ sizes => sizes = e.value.kind.payloadSizes size :=
  Asks.after_note _ ((Value.asks_read e.value.kind e.id size).bind fun _ => .pure _)

theorem asks_readBinaryChild {carries : Source → Nat → Nat → List Nat → Prop} (id : ElementId)
    (h : ∀ source pos size, carries source pos size [size]) :
    Asks (readBinaryChild id) (Element.Sized carries) := by
  have hchild : Asks (readChild id .binary) (Element.Sized carries) := by
    refine (Element.asks_read fun offset size _ => ?_).bind fun _ => .pure _
    refine (asks_readBody _ size).mono fun source pos sizes hsizes => ?_
    rw [hsizes]
    exact h source pos size
  exact hchild.bind fun _ => .pure _

end PrimitiveElement

theorem VoidElement.blind_readBody (e : VoidElement) (size : Nat) :
    Blind (Element.readBody e size) :=
  (Blind.skip size).bind fun _ => .pure _

/-! ## Blocks -/

namespace Block

variable {source : Source} {cursor cursor' : Cursor}

theorem gated_readFrames : ∀ {sizes : List Nat} {frames : List Frame} {cursor cursor' : Cursor},
    readFrames sizes source cursor = .ok frames cursor' →
      Gated source (readFrames sizes) cursor sizes
  | [], _, _, _, _ => .blind (.pure _)
  | size :: sizes, _, _, _, hok => by
      obtain ⟨_, _, hbody, hrest⟩ := Reader.bind_eq_ok.mp hok
      obtain ⟨_, _, hframes, -⟩ := Reader.bind_eq_ok.mp hrest
      exact .bind hbody (.body hbody) ((gated_readFrames hframes).before_blind hframes (.pure _))

theorem gated_readContent {id : ElementId} {size : Nat} {read : Block × UInt8}
    (hok : readContent id size source cursor = .ok read cursor') :
    Gated source (readContent id size) cursor (read.1.frames.map List.length) := by
  obtain ⟨⟨track, timecode, trackLength⟩, _, hplace, hok⟩ := Reader.bind_eq_ok.mp hok
  refine .after_blind (closed_readPlace closed_blind) hplace ?_
  obtain ⟨flags, _, hflags, hok⟩ := Reader.bind_eq_ok.mp hok
  refine .after_blind closed_blind.next hflags ?_
  dsimp only at hok ⊢
  split at hok
  next =>
    obtain ⟨_, _, hthrow, _⟩ := Reader.bind_eq_ok.mp hok
    cases hthrow
  next hsize =>
    rw [if_neg hsize]
    obtain ⟨lacing, _, hlacing, hok⟩ := Reader.bind_eq_ok.mp hok
    refine .after_blind (Lacing.closed_ofFlags closed_blind flags) hlacing ?_
    obtain ⟨⟨sizes, _⟩, _, hheader, hok⟩ := Reader.bind_eq_ok.mp hok
    refine .after_blind (lacing.closed_readHeader closed_blind _ _ _) hheader ?_
    obtain ⟨_, _, hnote, hok⟩ := Reader.bind_eq_ok.mp hok
    refine .after_blind (.note _) hnote ?_
    obtain ⟨frames, _, hframes, hok⟩ := Reader.bind_eq_ok.mp hok
    obtain ⟨b, _, htrack, hpure⟩ := Reader.bind_eq_ok.mp hok
    cases hpure
    obtain ⟨_, -, -, -, hlengths, -⟩ := parses_readFrames sizes _ _ _ hframes
    obtain ⟨_, -, -, -, hb⟩ := Reader.Parses.ofExcept _ _ _ _ htrack
    obtain ⟨-, -, rfl⟩ := of_setTrack hb
    dsimp only
    rw [hlengths]
    exact (gated_readFrames hframes).before_blind hframes
      ((closed_setTrack closed_blind _ _).bind fun _ => .pure _)

/-- The frames that are read are those of the body. -/
theorem asks_readContent (id : ElementId) {size : Nat} (hsize : size < UInt64.size) :
    Asks (readContent id size) fun source pos => Carries source pos size := by
  intro source cursor read cursor' hok
  have hgated := gated_readContent hok
  obtain ⟨_, hheld, _, parts, hsound, rfl, hlength, rfl⟩ := parses_readContent id hsize _ _ _ hok
  exact ⟨parts.sizes, ⟨parts, source.limit, ⟨hsound, hlength, hheld⟩, rfl⟩, hgated⟩

theorem asks_readBody (b : Block) {size : Nat} (hsize : size < UInt64.size) :
    Asks (Element.readBody b size) fun source pos => Carries source pos size :=
  (asks_readContent _ hsize).bind fun _ => .pure _

end Block

theorem SimpleBlock.asks_readBody (b : SimpleBlock) {size : Nat} (hsize : size < UInt64.size) :
    Asks (Element.readBody b size) fun source pos => Block.Carries source pos size :=
  (Block.asks_readContent _ hsize).bind fun _ => .pure _

/-! ## Additions -/

namespace Addition

theorem asks_readChild (draft : Draft) (id : ElementId) :
    Asks (readChild draft id) (Element.Sized fun _ => ChildCarries id) := by
  rw [readChild]
  split
  next hid =>
    have hnumber : Asks (PrimitiveElement.readUnsignedChild id)
        (Element.Sized fun _ => ChildCarries id) :=
      Element.asks_nothing (PrimitiveElement.closed_readUnsignedChild closed_blind id)
        (PrimitiveElement.counts_readUnsignedChild id) fun _ _ _ => by rw [hid]; rfl
    exact hnumber.bind fun _ => .pure _
  next =>
    split
    next hid =>
      have hdata : Asks (PrimitiveElement.readBinaryChild id)
          (Element.Sized fun _ => ChildCarries id) :=
        PrimitiveElement.asks_readBinaryChild id fun _ _ _ => (if_pos hid).symm
      exact hdata.bind fun _ => .pure _
    next hid =>
      split
      next =>
        have hskip : Asks Element.skipRest (Element.Sized fun _ => ChildCarries id) :=
          Element.asks_nothing (Element.closed_skipRest closed_blind) Element.counts_skipRest
            fun _ _ _ => (if_neg hid).symm
        exact hskip.bind fun _ => .pure _
      next => exact Asks.throw

theorem asks_readBody (size : Nat) :
    Asks (readBody size) fun source pos => Carries source pos size := by
  refine (Element.asks_readChildren (fun draft id => .of_spans (spans_readChild draft id))
    counts_readChild asks_readChild _ size _).bind fun draft => ?_
  split
  next => exact .pure _
  next => exact .throw _

end Addition

namespace BlockAdditions

theorem asks_readChild (entries : List Addition) (id : ElementId) :
    Asks (readChild entries id) (Element.Sized fun source => ChildCarries source id) := by
  rw [readChild]
  split
  next =>
    intro _ _ _ _ hok
    cases hok
  next hid =>
    rw [Decidable.not_not] at hid
    refine Element.asks_varInt fun size _ _ => ?_
    refine ((Addition.asks_readBody size).bind fun _ => .pure _).mono fun _ _ _ h => ?_
    exact (if_pos hid).mpr h

theorem asks_readBody (a : BlockAdditions) (size : Nat) :
    Asks (Element.readBody a size) fun source pos => Carries source pos size :=
  (Element.asks_readChildren (fun entries id => .of_spans (spans_readChild entries id))
    counts_readChild asks_readChild _ size _).bind fun _ => .pure _

end BlockAdditions

/-! ## Groups -/

namespace BlockGroup

theorem asks_readBlock {id : ElementId} (hid : id = .block) :
    Asks (Element.read ({} : Block)) (Element.Sized fun source => ChildCarries source id) :=
  Element.asks_read fun _ _ hsize => (Block.asks_readBody _ hsize).mono fun _ _ _ h =>
    (if_pos hid).mpr h

theorem asks_readAdditions {id : ElementId} (hblock : id ≠ .block) (hid : id = .blockAdditions) :
    Asks (Element.read ({} : BlockAdditions))
      (Element.Sized fun source => ChildCarries source id) :=
  Element.asks_read fun _ size _ => (BlockAdditions.asks_readBody _ size).mono fun _ _ _ h =>
    (if_neg hblock).mpr ((if_pos hid).mpr h)

/-- A child of any other kind has no payloads. -/
theorem asks_other {α : Type} {id : ElementId} {r : Reader α} {count : α → Nat}
    (hblock : id ≠ .block) (hadditions : id ≠ .blockAdditions) (hcodec : id ≠ .codecState)
    (hblind : Blind r) (hcounts : Element.Counts r count) :
    Asks r (Element.Sized fun source => ChildCarries source id) :=
  Element.asks_nothing hblind hcounts fun _ _ _ => by
    rw [ChildCarries, if_neg hblock, if_neg hadditions, if_neg hcodec]

theorem asks_readChild (draft : Draft) (id : ElementId) :
    Asks (readChild draft id) (Element.Sized fun source => ChildCarries source id) := by
  have hunsigned : Blind (PrimitiveElement.readUnsignedChild id) :=
    PrimitiveElement.closed_readUnsignedChild closed_blind id
  have hcounts := PrimitiveElement.counts_readUnsignedChild id
  rw [readChild]
  dsimp only
  split
  next hid => exact (asks_readBlock hid).bind fun _ => .pure _
  next hblock =>
    split
    next hid => exact (asks_readAdditions hblock hid).bind fun _ => .pure _
    next hadditions =>
      split
      next hid =>
        exact (asks_other hblock hadditions (by rw [hid]; decide) hunsigned hcounts).bind
          fun _ => .pure _
      next =>
        split
        next hid =>
          exact (asks_other hblock hadditions (by rw [hid]; decide) hunsigned hcounts).bind
            fun _ => .pure _
        next =>
          split
          next hid =>
            exact (asks_other hblock hadditions (by rw [hid]; decide)
              (PrimitiveElement.closed_readSignedChild closed_blind id)
              (PrimitiveElement.counts_readSignedChild id)).bind fun _ => .pure _
          next =>
            split
            next hid =>
              have hstate : Asks (PrimitiveElement.readBinaryChild id)
                  (Element.Sized fun source => ChildCarries source id) :=
                PrimitiveElement.asks_readBinaryChild id fun _ _ _ => by
                  rw [ChildCarries, if_neg hblock, if_neg hadditions, if_pos hid]
              exact hstate.bind fun _ => .pure _
            next hcodec =>
              split
              next =>
                exact (asks_other hblock hadditions hcodec (Element.closed_skipRest closed_blind)
                  Element.counts_skipRest).bind fun _ => .pure _
              next => exact Asks.throw

theorem asks_readBody (g : BlockGroup) (size : Nat) :
    Asks (Element.readBody g size) fun source pos => Carries source pos size := by
  have hcontent : Asks (readContent size) fun source pos => Carries source pos size := by
    refine (Element.asks_readChildren (fun draft id => .of_spans (spans_readChild draft id))
      counts_readChild asks_readChild _ size _).bind fun draft => ?_
    split
    next => exact .throw _
    next => exact (Blind.note _).bind fun _ => .pure _
  exact hcontent.bind fun _ => .pure _

end BlockGroup

theorem ClusterBlock.asks_readBody (b : ClusterBlock) {size : Nat} (hsize : size < UInt64.size) :
    Asks (Element.readBody b size) fun source pos sizes => b.Carries source pos size sizes := by
  cases b with
  | simple b => exact (b.asks_readBody hsize).bind fun _ => .pure _
  | group g => exact (g.asks_readBody size).bind fun _ => .pure _

end Ebml
