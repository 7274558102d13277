import Ebml.Proofs.Element.RoundTrip
import Ebml.Proofs.Element.Validity

/-!
# Writing what was read

An element may be stored in many ways: with sizes and numbers in more octets than they need, with
children in another order, or repeated, or void elements among them.  A reader takes all of them,
and a writer knows one.  So what was read is written in a normal form (`Element.NormalForm`): an
equal element is read back from it, and is written in that form again.

What has to be known of a kind of element is collected in `Element.Normal`.  Most of it is what a
round trip needs.  What comes in addition is that nothing is read that could not be written, and
that elements that are equal are written alike.
-/

namespace Ebml

/-! ## Elements that are equal -/

theorem Block.eq_of_beq {a b : Block} (h : (a == b) = true) :
    a = { b with offset := a.offset } := by
  have hparts : (a.track == b.track && a.timecode == b.timecode && a.invisible == b.invisible &&
    a.lacing == b.lacing && a.frames == b.frames) = true := h
  simp only [Bool.and_eq_true, beq_iff_eq] at hparts
  obtain ⟨⟨⟨⟨htrack, htimecode⟩, hinvisible⟩, hlacing⟩, hframes⟩ := hparts
  rw [← htrack, ← htimecode, ← hinvisible, ← hlacing, ← hframes]

theorem SimpleBlock.eq_of_beq {a b : SimpleBlock} (h : (a == b) = true) :
    a = { b with block := { b.block with offset := a.block.offset } } := by
  have hparts : (a.block == b.block && a.keyframe == b.keyframe &&
    a.discardable == b.discardable) = true := h
  simp only [Bool.and_eq_true, beq_iff_eq] at hparts
  obtain ⟨⟨hblock, hkeyframe⟩, hdiscardable⟩ := hparts
  rw [← Block.eq_of_beq hblock, ← hkeyframe, ← hdiscardable]

theorem BlockAdditions.eq_of_beq {a b : BlockAdditions} (h : (a == b) = true) :
    a = { b with offset := a.offset } := by
  have hentries : (a.entries == b.entries) = true := h
  rw [← beq_iff_eq.mp hentries]

theorem BlockGroup.eq_of_beq {a b : BlockGroup} (h : (a == b) = true) :
    a = { b with
      block := { b.block with offset := a.block.offset }
      additions := { b.additions with offset := a.additions.offset }
      offset := a.offset } := by
  have hparts : (a.block == b.block && a.duration == b.duration &&
    a.refPriority == b.refPriority && a.refBlocks == b.refBlocks &&
      a.codecState == b.codecState && a.additions == b.additions) = true := h
  simp only [Bool.and_eq_true, beq_iff_eq] at hparts
  obtain ⟨⟨⟨⟨⟨hblock, hduration⟩, hpriority⟩, hreferences⟩, hcodecState⟩, hadditions⟩ := hparts
  rw [← Block.eq_of_beq hblock, ← BlockAdditions.eq_of_beq hadditions, ← hduration, ← hpriority,
    ← hreferences, ← hcodecState]

theorem BlockGroup.content_of_beq {a b : BlockGroup} (h : (a == b) = true) :
    a.content = b.content := by
  rw [eq_of_beq h, content, content]
  dsimp only
  by_cases hempty : b.additions.entries.isEmpty
  · rw [if_pos hempty, if_pos hempty]
    rfl
  · rw [if_neg hempty, if_neg hempty]
    rfl

/-- An encoding is made of the ID and the body. -/
theorem Element.encoding_congr {ε : Type} [Element ε] [Encoded ε] {a b : ε}
    (hid : Element.id a = Element.id b) (hbody : Encoded.body a = Encoded.body b) :
    encoding a = encoding b := by
  rw [encoding, encoding, ← Encoded.length_body a, ← Encoded.length_body b, hid, hbody]

/-- Blocks that are equal have one encoding, wherever they were read. -/
theorem ClusterBlock.encoding_of_beq {a b : ClusterBlock} (h : (a == b) = true) :
    Element.encoding a = Element.encoding b := by
  cases a with
  | simple a =>
      cases b with
      | simple b =>
          rw [SimpleBlock.eq_of_beq h]
          rfl
      | group b => cases h
  | group a =>
      cases b with
      | simple b => cases h
      | group b => exact Element.encoding_congr rfl (BlockGroup.content_of_beq h)

namespace Element

variable {ε : Type} [Element ε]

/-! ## Normal forms -/

/-- A stream that grows takes these bytes of the element, wherever its position is. -/
def Writes (e : ε) (bytes : List UInt8) : Prop :=
  ∀ stream : Stream, stream.fixed = false → ∀ log, ∃ log',
    write e ⟨stream, log⟩ = .ok bytes.length ⟨stream.fillGap.overlay bytes, log'⟩

/-- The bytes are what is written of the element.  From wherever they lie, whoever may read as much
into memory reads an equal element into any object of the kind, and of that the same bytes are
written. -/
structure NormalForm [BEq ε] (limit : Nat) (e : ε) (bytes : List UInt8) : Prop where
  writes : Writes e bytes
  reads : ∀ {source : Source} {pos : Nat}, limit ≤ source.limit → source.Holds pos bytes →
    ∀ (other : ε) (log : Log), ∃ count e' log',
      readFrom source ⟨other, ⟨pos, log⟩⟩ =
          .ok (Element.id e, count) ⟨e', ⟨pos + bytes.length, log'⟩⟩ ∧
        (Element.id e).size + count = bytes.length ∧ (e' == e) = true ∧ Writes e' bytes

/-- A kind of element of which nothing is read that could not be written. -/
class Normal (ε : Type) [Element ε] [Encoded ε] [BEq ε] where
  /-- The element can be written, if its size can be stored. -/
  Fit : ε → Prop
  /-- What a reader of the element needs memory for. -/
  payloads : ε → List (List UInt8)
  emits_write : ∀ {e : ε}, Fit e → bodySize e < sizeBound →
    Writer.Emits True (write e) (encoding e) (totalSize e)
  yields_readBody : ∀ {e : ε} {source : Source} {pos : Nat} (other : ε), Fit e →
    bodySize e < sizeBound → (∀ payload ∈ payloads e, payload.length ≤ source.limit) →
    source.Holds pos (Encoded.body e) →
    ∃ e', (e' == e) = true ∧
      Reader.Yields (readBody other (bodySize e)) source pos e' (pos + bodySize e)
  ensures_readBody : ∀ {source : Source} (e : ε) (size : Nat),
    Reader.Ensures (readBody e size) source fun e' =>
      Fit e' ∧ ∀ payload ∈ payloads e', payload.length ≤ source.limit
  write_of_beq : ∀ {a b : ε}, (a == b) = true → write a = write b

theorem writes_of_emits [Encoded ε] {e : ε}
    (h : Writer.Emits True (write e) (encoding e) (totalSize e)) : Writes e (encoding e) := by
  intro _ hgrow log
  rw [length_encoding]
  exact (fillsGap_write e).ok_of_growing h trivial hgrow log

/-- Whatever was read is written in a normal form, however it was stored. -/
theorem normalForm_of_fill [Encoded ε] [BEq ε] [Normal ε] {source : Source} {e e' : ε}
    {cursor cursor' : Cursor} {count : Nat}
    (hok : (fill : Filling ε Nat) source ⟨e, cursor⟩ = .ok count ⟨e', cursor'⟩)
    (hbound : bodySize e' < sizeBound) : NormalForm source.limit e' (encoding e') := by
  obtain ⟨hfit, hpayloads⟩ : Normal.Fit e' ∧
      ∀ payload ∈ Normal.payloads e', payload.length ≤ source.limit :=
    ensures_read (fun _ _ => Normal.ensures_readBody _ _) _ _ _ (fill_eq_ok.mp hok)
  have hwrites := writes_of_emits (Normal.emits_write hfit hbound)
  refine ⟨hwrites, fun hlimit hheld other log => ?_⟩
  obtain ⟨e'', log', hread, hsame⟩ := readFrom_of_holds (le_max_of_lt hbound)
    (fun _ other => Normal.yields_readBody other hfit hbound fun payload hm =>
      Nat.le_trans (hpayloads payload hm) hlimit) hheld other log
  rw [← length_encoding] at hread
  refine ⟨_, e'', log', hread, ?_, hsame, fun stream hgrow log => ?_⟩
  · rw [length_encoding, Encoded.totalSize_eq, Nat.add_assoc]
  · rw [Normal.write_of_beq hsame]
    exact hwrites stream hgrow log

/-- Whatever is read of this kind of element has a normal form. -/
def Normalizes (ε : Type) [Element ε] [Encoded ε] [BEq ε] : Prop :=
  ∀ {source : Source} {e e' : ε} {cursor cursor' : Cursor} {count : Nat},
    (fill : Filling ε Nat) source ⟨e, cursor⟩ = .ok count ⟨e', cursor'⟩ →
      bodySize e' < sizeBound → NormalForm source.limit e' (encoding e')

/-! ## Kinds of elements -/

instance : Normal Block where
  Fit b := b.Valid
  payloads b := b.frames
  emits_write hvalid hbound := Block.emits_write fun _ => ⟨hvalid, hbound⟩
  yields_readBody other hvalid hbound hlimit h :=
    ⟨_, Block.beq_moved _ _, Block.yields_readBody other hvalid hbound hlimit h⟩
  ensures_readBody := Block.ensures_readBody
  write_of_beq h := by
    rw [Block.eq_of_beq h]
    rfl

instance : Normal SimpleBlock where
  Fit b := b.block.Valid
  payloads b := b.block.frames
  emits_write hvalid hbound := SimpleBlock.emits_write fun _ => ⟨hvalid, hbound⟩
  yields_readBody other hvalid hbound hlimit h :=
    ⟨_, SimpleBlock.beq_moved _ _, SimpleBlock.yields_readBody other hvalid hbound hlimit h⟩
  ensures_readBody := SimpleBlock.ensures_readBody
  write_of_beq h := by
    rw [SimpleBlock.eq_of_beq h]
    rfl

instance : Normal BlockGroup where
  Fit g := g.block.Valid
  payloads g := g.payloads
  emits_write hvalid hbound := BlockGroup.emits_write fun _ => ⟨hvalid, hbound⟩
  yields_readBody other hvalid hbound hlimit h := by
    obtain ⟨additions, hsame, hread⟩ := BlockGroup.yields_readBody other hvalid hbound hlimit h
    exact ⟨_, BlockGroup.beq_moved _ hsame _ _, hread⟩
  ensures_readBody := BlockGroup.ensures_readBody
  write_of_beq h := by
    rw [BlockGroup.eq_of_beq h]
    rfl

instance : Normal BlockAdditions where
  Fit _ := True
  payloads a := a.entries.map Addition.data
  emits_write _ hbound := BlockAdditions.emits_write fun _ => le_max_of_lt hbound
  yields_readBody other _ hbound hlimit h := by
    refine ⟨_, ?_, BlockAdditions.yields_readBody other (le_max_of_lt hbound)
      (fun entry hm => hlimit _ (List.mem_map_of_mem hm)) h⟩
    exact BlockAdditions.beq_of_entries rfl
  ensures_readBody a size := (BlockAdditions.ensures_readBody a size).mono fun _ h =>
    ⟨trivial, fun payload hm => by
      obtain ⟨entry, hentry, rfl⟩ := List.mem_map.mp hm
      exact h entry hentry⟩
  write_of_beq h := by
    rw [BlockAdditions.eq_of_beq h]
    rfl

end Element

end Ebml
