import Ebml.Proofs.Cluster.Block
import Ebml.Proofs.Stream.Results

/-!
# What was read can be written

Whatever bytes a reader accepts, its result is fit to be written: the frames of a block are as its
lacing can pack them, its track can be stored, and nothing is larger than the limit on memory.  How
the bytes were laid out does not matter, since all of this is checked of what was read.
-/

namespace Ebml

variable {source : Source}

/-! ## Elements and their children -/

namespace Element

theorem ensures_read {ε : Type} [Element ε] {e : ε} {P : ε → Prop}
    (h : ∀ offset size, Reader.Ensures (readBody (setOffset e offset) size) source P) :
    Reader.Ensures (read e) source fun result => P result.1 := by
  intro cursor result cursor' hok
  obtain ⟨_, _, hlocate, hok⟩ := Reader.bind_eq_ok.mp hok
  cases hlocate
  obtain ⟨_, _, _, hok⟩ := Reader.bind_eq_ok.mp hok
  obtain ⟨_, _, hbody, hpure⟩ := Reader.bind_eq_ok.mp hok
  cases hpure
  exact h _ _ _ _ _ hbody

section

variable {α : Type} {handle : α → ElementId → Reader (α × Nat)} {I : α → Prop}

theorem ensures_readChildrenFrom (parent : ElementId) (size : Nat)
    (hhandle : ∀ acc id, I acc → Reader.Ensures (handle acc id) source fun result => I result.1) :
    ∀ consumed acc, I acc →
      Reader.Ensures (readChildrenFrom parent size handle consumed acc) source I := by
  intro consumed
  -- every child takes at least the octet of its ID, so less of the body is left after it
  induction hleft : size - consumed using Nat.strongRecOn generalizing consumed with
  | ind left ih =>
      intro acc hacc
      rw [readChildrenFrom]
      split
      next hlt =>
        refine Reader.Ensures.any.bind fun id _ => Reader.Ensures.any.bind fun _ _ => ?_
        have hsize := id.size_pos
        exact (hhandle acc id hacc).bind fun result hnext => ih _ (by omega) _ rfl _ hnext
      next hge =>
        split
        next => exact Reader.Ensures.pure hacc
        next => exact Reader.Ensures.throw

/-- What holds before the first child, and after a child if it held before, holds in the end. -/
theorem ensures_readChildren {parent : ElementId} {size : Nat} {init : α} (hinit : I init)
    (hhandle : ∀ acc id, I acc → Reader.Ensures (handle acc id) source fun result => I result.1) :
    Reader.Ensures (readChildren parent size init handle) source I :=
  ensures_readChildrenFrom parent size hhandle 0 init hinit

end

end Element

/-- Bytes that a child holds keep to the limit. -/
theorem PrimitiveElement.ensures_readBinaryChild (id : ElementId) :
    Reader.Ensures (readBinaryChild id) source fun result =>
      result.1.length ≤ source.limit := by
  have hvalue : ∀ size, Reader.Ensures (Value.read .binary id size) source fun value =>
      (value.binary?.getD []).length ≤ source.limit := fun size =>
    (Reader.Ensures.body size).bind fun bytes h => Reader.Ensures.pure (h.1 ▸ h.2)
  have hread : Reader.Ensures (Element.read ({ id, value := .binary [] } : PrimitiveElement))
      source fun result => (result.1.value.binary?.getD []).length ≤ source.limit :=
    Element.ensures_read
      (P := fun e : PrimitiveElement => (e.value.binary?.getD []).length ≤ source.limit)
      fun _ size => Reader.Ensures.any.bind fun _ _ =>
        (hvalue size).bind fun _ h => Reader.Ensures.pure h
  have hchild : Reader.Ensures (readChild id .binary) source fun result =>
      (result.1.binary?.getD []).length ≤ source.limit :=
    hread.bind fun _ h => Reader.Ensures.pure h
  exact hchild.bind fun _ h => Reader.Ensures.pure h

/-! ## Laces -/

namespace Lacing

theorem ensures_readCount (remaining : Nat) :
    Reader.Ensures (readCount remaining) source fun count => count ≠ 0 ∧ count ≤ 255 := by
  rw [readCount]
  split
  next => exact Reader.Ensures.throw_bind
  next =>
    refine Reader.Ensures.any.bind fun count _ => ?_
    split
    next => exact Reader.Ensures.throw_bind
    next hcount =>
      have hlt := count.toNat_lt
      exact Reader.Ensures.pure ⟨fun h0 => hcount (UInt8.toNat_inj.mp h0), by omega⟩

theorem ensures_readDifferences :
    ∀ count previous : Nat,
      Reader.Ensures (readDifferences previous count) source fun read => read.1.length = count
  | 0, _ => Reader.Ensures.pure rfl
  | count + 1, previous => by
      refine Reader.Ensures.any.bind fun result _ => ?_
      dsimp only
      split
      next => exact Reader.Ensures.throw_bind
      next =>
        refine (ensures_readDifferences count _).bind fun read hread => Reader.Ensures.pure ?_
        rw [List.length_cons, hread]

theorem ensures_readStoredSizes (count : Nat) :
    Reader.Ensures (readStoredSizes count) source fun read => read.1.length = count - 1 := by
  rw [readStoredSizes]
  split
  next hcount => exact Reader.Ensures.pure (by rw [List.length_nil]; omega)
  next hcount =>
    refine Reader.Ensures.any.bind fun first _ => ?_
    refine (ensures_readDifferences (count - 2) _).bind fun read hread => Reader.Ensures.pure ?_
    rw [List.length_cons, hread]
    omega

/-- The sizes that a header gives can be packed again, in whatever octets the header had them. -/
theorem ensures_readHeader (lacing : Lacing) {remaining declared : Nat} {id : ElementId} :
    Reader.Ensures (lacing.readHeader remaining id declared) source fun read =>
      lacing.Packs read.1 := by
  cases lacing with
  | none =>
      rw [readHeader]
      split
      next => exact Reader.Ensures.throw_bind
      next hremaining =>
        refine Reader.Ensures.pure ⟨by simp, fun size hm => ?_, by simp [maxCount], ?_⟩
        · rw [List.mem_singleton.mp hm]
          exact hremaining
        · intro h
          cases h
  | fixed =>
      rw [readHeader]
      refine (ensures_readCount remaining).bind fun count hcounted => ?_
      obtain ⟨hcount, hmax⟩ := hcounted
      dsimp only
      split
      next => exact Reader.Ensures.any.bind fun _ _ => Reader.Ensures.throw_bind
      next hmod =>
        split
        next => exact Reader.Ensures.throw_bind
        next havailable =>
          have hsize : (remaining - 1) / count ≠ 0 := fun h0 => by
            have hdiv := Nat.div_add_mod (remaining - 1) count
            rw [h0, Decidable.not_not.mp hmod] at hdiv
            omega
          refine Reader.Ensures.pure ⟨by simpa using hcount, ?_, by simpa [maxCount] using hmax, ?_⟩
          · intro size hm
            rw [(List.mem_replicate.mp hm).2]
            exact hsize
          · intro _ size hm
            obtain ⟨hne, hm⟩ := List.mem_replicate.mp hm
            obtain ⟨count, rfl⟩ := Nat.exists_eq_succ_of_ne_zero hne
            rw [List.replicate_succ, List.headD_cons, hm]
  | ebml =>
      rw [readHeader]
      refine (ensures_readCount remaining).bind fun count hcounted => ?_
      obtain ⟨hcount, hmax⟩ := hcounted
      refine (ensures_readStoredSizes count).bind fun read hread => ?_
      dsimp only
      split
      next => exact Reader.Ensures.any.bind fun _ _ => Reader.Ensures.throw_bind
      next =>
        split
        next => exact Reader.Ensures.throw_bind
        next hzero =>
          refine Reader.Ensures.pure ⟨by simp, fun size hm h0 => hzero ?_, ?_, ?_⟩
          · rw [List.contains_eq_mem, decide_eq_true_eq, ← h0]
            exact hm
          · show (_ ++ [_]).length ≤ 255
            rw [List.length_append, List.length_singleton, hread]
            omega
          · intro h
            cases h

end Lacing

/-! ## Blocks -/

namespace Block

/-- Frames that the lacing of a block can pack are no fault of it. -/
theorem sound_of_packs {b : Block} (h : b.lacing.Packs b.frameSizes) : b.fault? = none := by
  obtain ⟨hnonempty, hfilled, hcount, heven⟩ := h
  have hframes : ¬ b.frames.isEmpty := fun hempty =>
    hnonempty (List.map_eq_nil_iff.mpr (List.isEmpty_iff.mp hempty))
  have hfull : ¬ b.frames.any List.isEmpty := fun hany => by
    obtain ⟨frame, hm, hempty⟩ := List.any_eq_true.mp hany
    exact hfilled _ (List.mem_map_of_mem hm) (List.isEmpty_iff_length_eq_zero.mp hempty)
  have hroom : ¬ b.frames.length > b.maxCount := by
    rw [frameSizes, List.length_map] at hcount
    exact Nat.not_lt.mpr hcount
  have hsame : ¬ (b.lacing = .fixed ∧ b.frameSizes.any (· ≠ b.firstSize)) := by
    rintro ⟨hfixed, hany⟩
    obtain ⟨size, hm, hne⟩ := List.any_eq_true.mp hany
    exact of_decide_eq_true hne (heven hfixed size hm)
  rw [fault?, if_neg hframes, if_neg hfull, if_neg hroom, if_neg hsame]

theorem ensures_readFrames :
    ∀ sizes : List Nat, Reader.Ensures (readFrames sizes) source fun frames =>
      frames.map List.length = sizes ∧ ∀ frame ∈ frames, frame.length ≤ source.limit
  | [] => Reader.Ensures.pure ⟨rfl, fun _ hm => nomatch hm⟩
  | size :: sizes => by
      refine (Reader.Ensures.body size).bind fun frame ⟨hlength, hlimit⟩ => ?_
      refine (ensures_readFrames sizes).bind fun frames ⟨hlengths, hlimits⟩ =>
        Reader.Ensures.pure ⟨?_, fun other hm => ?_⟩
      · rw [List.map_cons, hlength, hlengths]
      · rcases List.mem_cons.mp hm with rfl | hm
        · rw [hlength]
          exact hlimit
        · exact hlimits other hm

/-- A block that was read can be written, and its frames keep to the limit. -/
theorem ensures_readContent (id : ElementId) (size : Nat) :
    Reader.Ensures (readContent id size) source fun read =>
      read.1.Valid ∧ ∀ frame ∈ read.1.frames, frame.length ≤ source.limit := by
  refine Reader.Ensures.any.bind fun ⟨track, timecode, trackLength⟩ _ => ?_
  refine Reader.Ensures.any.bind fun flags _ => ?_
  dsimp only
  split
  next => exact Reader.Ensures.throw_bind
  next =>
    refine Reader.Ensures.any.bind fun lacing _ => ?_
    refine lacing.ensures_readHeader.bind fun header hpacks => ?_
    refine Reader.Ensures.any.bind fun _ _ => ?_
    refine (ensures_readFrames header.1).bind fun frames ⟨hlengths, hlimits⟩ => ?_
    refine (Reader.Ensures.ofExcept _).bind fun b hb => Reader.Ensures.pure ?_
    obtain ⟨hzero, hmax, rfl⟩ := of_setTrack hb
    refine ⟨⟨sound_of_packs ?_, hzero, hmax⟩, hlimits⟩
    show lacing.Packs (frames.map List.length)
    rw [hlengths]
    exact hpacks

theorem Valid.moved {b : Block} (h : b.Valid) (offset : Nat) : Valid { b with offset } :=
  ⟨h.sound, h.track_ne_zero, h.track_le⟩

theorem ensures_readBody (b : Block) (size : Nat) :
    Reader.Ensures (Element.readBody b size) source fun b' =>
      b'.Valid ∧ ∀ frame ∈ b'.frames, frame.length ≤ source.limit :=
  (ensures_readContent .block size).bind fun _ ⟨hvalid, hlimits⟩ =>
    Reader.Ensures.pure ⟨hvalid.moved _, hlimits⟩

end Block

theorem SimpleBlock.ensures_readBody (b : SimpleBlock) (size : Nat) :
    Reader.Ensures (Element.readBody b size) source fun b' =>
      b'.block.Valid ∧ ∀ frame ∈ b'.block.frames, frame.length ≤ source.limit :=
  (Block.ensures_readContent .simpleBlock size).bind fun _ ⟨hvalid, hlimits⟩ =>
    Reader.Ensures.pure ⟨hvalid.moved _, hlimits⟩

/-! ## Additions -/

namespace Addition

theorem ensures_readBody (size : Nat) :
    Reader.Ensures (readBody size) source fun a => a.data.length ≤ source.limit := by
  have hdraft : Reader.Ensures (Element.readChildren .blockMore size {} readChild) source
      fun draft => ∀ data ∈ draft.data?, data.length ≤ source.limit := by
    refine Element.ensures_readChildren (fun _ hm => nomatch hm) fun draft id h => ?_
    rw [readChild]
    split
    next => exact Reader.Ensures.any.bind fun _ _ => Reader.Ensures.pure h
    next =>
      split
      next =>
        refine (PrimitiveElement.ensures_readBinaryChild id).bind fun _ hlimit =>
          Reader.Ensures.pure fun data hm => ?_
        cases hm
        exact hlimit
      next =>
        split
        next => exact Reader.Ensures.any.bind fun _ _ => Reader.Ensures.pure h
        next => exact Reader.Ensures.throw
  refine hdraft.bind fun draft h => ?_
  split
  next data hdata => exact Reader.Ensures.pure (h data hdata)
  next => exact Reader.Ensures.throw

end Addition

/-- The data of additions that were read keep to the limit. -/
theorem BlockAdditions.ensures_readBody (a : BlockAdditions) (size : Nat) :
    Reader.Ensures (Element.readBody a size) source fun a' =>
      ∀ entry ∈ a'.entries, entry.data.length ≤ source.limit := by
  have hentries : Reader.Ensures (Element.readChildren .blockAdditions size [] readChild) source
      fun entries => ∀ entry ∈ entries, entry.data.length ≤ source.limit := by
    refine Element.ensures_readChildren (fun _ hm => nomatch hm) fun entries id h => ?_
    rw [readChild]
    split
    next => exact Reader.Ensures.throw_bind
    next =>
      refine Reader.Ensures.any.bind fun size _ => ?_
      refine (Addition.ensures_readBody size.1).bind fun entry hlimit =>
        Reader.Ensures.pure fun other hm => ?_
      rcases List.mem_append.mp hm with hm | hm
      · exact h other hm
      · rw [List.mem_singleton.mp hm]
        exact hlimit
  exact hentries.bind fun _ h => Reader.Ensures.pure h

/-! ## Groups -/

namespace BlockGroup

/-- What has been read of a group can be written, and keeps to the limit. -/
structure Draft.Sound (source : Source) (draft : Draft) : Prop where
  block : ∀ b ∈ draft.block?, b.Valid ∧ ∀ frame ∈ b.frames, frame.length ≤ source.limit
  codecState : draft.rest.codecState.length ≤ source.limit
  additions : ∀ entry ∈ draft.rest.additions.entries, entry.data.length ≤ source.limit

theorem ensures_readChild {draft : Draft} (h : draft.Sound source) (id : ElementId) :
    Reader.Ensures (readChild draft id) source fun result => result.1.Sound source := by
  rw [readChild]
  split
  next =>
    refine (Element.ensures_read fun _ size => Block.ensures_readBody _ size).bind
      fun result hblock => Reader.Ensures.pure { h with block := fun b hm => ?_ }
    cases hm
    exact hblock
  next =>
    split
    next =>
      exact (Element.ensures_read fun _ size => BlockAdditions.ensures_readBody _ size).bind
        fun result hadditions => Reader.Ensures.pure { h with additions := hadditions }
    next =>
      split
      next => exact Reader.Ensures.any.bind fun _ _ => Reader.Ensures.pure { h with }
      next =>
        split
        next => exact Reader.Ensures.any.bind fun _ _ => Reader.Ensures.pure { h with }
        next =>
          split
          next => exact Reader.Ensures.any.bind fun _ _ => Reader.Ensures.pure { h with }
          next =>
            split
            next =>
              exact (PrimitiveElement.ensures_readBinaryChild id).bind fun _ hlimit =>
                Reader.Ensures.pure { h with codecState := hlimit }
            next =>
              split
              next => exact Reader.Ensures.any.bind fun _ _ => Reader.Ensures.pure h
              next => exact Reader.Ensures.throw

/-- A group that was read can be written, and nothing of it is larger than the limit. -/
theorem ensures_readBody (g : BlockGroup) (size : Nat) :
    Reader.Ensures (Element.readBody g size) source fun g' =>
      g'.block.Valid ∧ ∀ payload ∈ g'.payloads, payload.length ≤ source.limit := by
  have hinit : ({} : Draft).Sound source :=
    ⟨fun _ hm => (nomatch hm), Nat.zero_le _, fun _ hm => (nomatch hm)⟩
  have hcontent : Reader.Ensures (readContent size) source fun g' =>
      g'.block.Valid ∧ ∀ payload ∈ g'.payloads, payload.length ≤ source.limit := by
    refine (Element.ensures_readChildren hinit fun _ id h => ensures_readChild h id).bind
      fun draft h => ?_
    split
    next => exact Reader.Ensures.throw
    next b hb =>
      refine Reader.Ensures.any.bind fun _ _ => Reader.Ensures.pure ?_
      obtain ⟨hvalid, hframes⟩ := h.block b hb
      refine ⟨hvalid, fun payload hm => ?_⟩
      rcases List.mem_append.mp hm with hm | hm
      · exact hframes payload hm
      · rcases List.mem_cons.mp hm with rfl | hm
        · exact h.codecState
        · obtain ⟨entry, hentry, rfl⟩ := List.mem_map.mp hm
          exact h.additions entry hentry
  exact hcontent.bind fun _ h => Reader.Ensures.pure h

end BlockGroup

/-- A block of either kind that was read can be written, and nothing of it is larger than the
limit. -/
theorem ClusterBlock.ensures_readBody (b : ClusterBlock) (size : Nat) :
    Reader.Ensures (Element.readBody b size) source fun b' =>
      b'.Valid ∧ ∀ payload ∈ b'.payloads, payload.length ≤ source.limit := by
  cases b with
  | simple b =>
      exact (SimpleBlock.ensures_readBody b size).bind fun _ h => Reader.Ensures.pure h
  | group g => exact (BlockGroup.ensures_readBody g size).bind fun _ h => Reader.Ensures.pure h

end Ebml
