import Ebml.Cluster.Block
import Ebml.Proofs.Block.Grammar
import Ebml.Proofs.Element.Closure
import Ebml.Proofs.Element.Listing

/-!
# Payloads and their sizes

Some bytes of an element are handed over as they are: the frames of a block, and the bodies of texts
and of binary values.  These are its payloads.  For each kind of element, `Carries` says of a body
in a stream what the sizes of its payloads are, in order.

All that is in the body counts.  If a group has two codec states, or two blocks, then a reader keeps
the last one, and still there are the payloads of both.  Numbers, dates and padding have no
payloads, however large their bodies are.

Nothing is said of readers of bodies here, and nothing of a limit on memory.  The sizes are told by
the bytes, and in one way only.
-/

namespace Ebml

variable {source : Source} {pos stop size : Nat} {sizes others : List Nat}

/-! ## Elements one after another -/

namespace Element

/-- From `pos` to `stop` there are elements one after another, with payloads of these sizes.  By
`carries`, the payloads of each are told by its ID and by the position and the size of its body. -/
inductive Carried (source : Source) (carries : ElementId → Nat → Nat → List Nat → Prop) :
    (pos stop : Nat) → List Nat → Prop
  | nil {pos : Nat} : Carried source carries pos pos []
  | cons {pos stop size length : Nat} {id : ElementId} {first rest : List Nat} :
      Reader.Yields ElementId.read source pos id (pos + id.size) →
      Reader.Yields VarInt.read source (pos + id.size) (size, length) (pos + id.size + length) →
      carries id (pos + id.size + length) size first →
      Carried source carries (pos + id.size + (length + size)) stop rest →
      Carried source carries pos stop (first ++ rest)

namespace Carried

variable {carries : ElementId → Nat → Nat → List Nat → Prop}

theorem le (h : Carried source carries pos stop sizes) : pos ≤ stop := by
  induction h with
  | nil => exact Nat.le_refl _
  | cons _ _ _ _ ih => omega

/-- An element without payloads may come first, which takes up `count` bytes after its ID. -/
theorem pass {id : ElementId} {count : Nat}
    (hid : Reader.Yields ElementId.read source pos id (pos + id.size))
    (hcount : ∃ size length, Reader.Yields VarInt.read source (pos + id.size) (size, length)
      (pos + id.size + length) ∧ count = length + size)
    (hnone : ∀ pos size, carries id pos size [])
    (h : Carried source carries (pos + id.size + count) stop sizes) :
    Carried source carries pos stop sizes := by
  obtain ⟨size, length, hsize, rfl⟩ := hcount
  exact .cons hid hsize (hnone _ _) h

theorem append {mid : Nat} (h : Carried source carries pos mid sizes)
    (h' : Carried source carries mid stop others) :
    Carried source carries pos stop (sizes ++ others) := by
  induction h with
  | nil => exact h'
  | cons hid hsize hfirst _ ih =>
      rw [List.append_assoc]
      exact .cons hid hsize hfirst (ih h')

/-- What each element carries is told in one way, so what they carry together is. -/
theorem unique
    (hcarries : ∀ {id pos size sizes others}, size < UInt64.size →
      carries id pos size sizes → carries id pos size others → sizes = others)
    (h : Carried source carries pos stop sizes) (h' : Carried source carries pos stop others) :
    sizes = others := by
  induction h generalizing others with
  | nil =>
      cases h' with
      | nil => rfl
      | @cons _ _ _ _ id _ _ _ _ _ hrest =>
          have hle := hrest.le
          have hsize := id.size_pos
          omega
  | @cons _ _ _ _ id _ _ hid hsize hfirst hrest ih =>
      cases h' with
      | nil =>
          have hle := hrest.le
          have hpos := id.size_pos
          omega
      | cons hid' hsize' hfirst' hrest' =>
          cases (hid.agree hid').1
          cases (hsize.agree hsize').1
          rw [hcarries (VarInt.lt_size_of_yields hsize) hfirst hfirst', ih hrest']

end Carried

/-- The payloads of the element whose ID ends at `pos`, by what is told of bodies. -/
def Sized (carries : Source → Nat → Nat → List Nat → Prop) (source : Source) (pos : Nat)
    (sizes : List Nat) : Prop :=
  Placed source (fun pos size => carries source pos size sizes) pos none

theorem Sized.unique {carries : Source → Nat → Nat → List Nat → Prop}
    (hcarries : ∀ {pos size}, size < UInt64.size →
      carries source pos size sizes → carries source pos size others → sizes = others)
    (h : Sized carries source pos sizes) (h' : Sized carries source pos others) :
    sizes = others := by
  obtain ⟨size, length, hsize, hbody⟩ := h
  obtain ⟨_, _, hsize', hbody'⟩ := h'
  cases (hsize.agree hsize').1
  exact hcarries (VarInt.lt_size_of_yields hsize) hbody hbody'

end Element

/-! ## Kinds of elements -/

/-- A value that is read as it is has one payload, and the others have none. -/
def Value.Kind.payloadSizes (kind : Kind) (size : Nat) : List Nat :=
  if kind.isBytes then [size] else []

/-- The payloads of a block are its frames. -/
def Block.Carries (source : Source) (pos size : Nat) (sizes : List Nat) : Prop :=
  ∃ (parts : Parts) (limit : Nat), parts.Splits { source with limit } pos size ∧ sizes = parts.sizes

/-- A child of a single addition is its data, or it has no payloads. -/
def Addition.ChildCarries (id : ElementId) (_ size : Nat) (sizes : List Nat) : Prop :=
  sizes = if id = .blockAdditional then [size] else []

/-- The payload of a single addition is its data. -/
def Addition.Carries (source : Source) (pos size : Nat) (sizes : List Nat) : Prop :=
  Element.Carried source ChildCarries pos (pos + size) sizes

/-- The children of additions are single ones. -/
def BlockAdditions.ChildCarries (source : Source) (id : ElementId) (pos size : Nat)
    (sizes : List Nat) : Prop :=
  if id = .blockMore then Addition.Carries source pos size sizes else sizes = []

/-- The payloads of additions are those of each. -/
def BlockAdditions.Carries (source : Source) (pos size : Nat) (sizes : List Nat) : Prop :=
  Element.Carried source (ChildCarries source) pos (pos + size) sizes

/-- A child of a group is a block, its additions or its codec state, or it has no payloads. -/
def BlockGroup.ChildCarries (source : Source) (id : ElementId) (pos size : Nat)
    (sizes : List Nat) : Prop :=
  if id = .block then Block.Carries source pos size sizes
  else if id = .blockAdditions then BlockAdditions.Carries source pos size sizes
  else sizes = if id = .codecState then [size] else []

/-- The payloads of a group are those of its blocks and of their additions, and its codec states. -/
def BlockGroup.Carries (source : Source) (pos size : Nat) (sizes : List Nat) : Prop :=
  Element.Carried source (ChildCarries source) pos (pos + size) sizes

/-- The payloads of a block as a cluster holds it. -/
def ClusterBlock.Carries (source : Source) (pos size : Nat) (sizes : List Nat) :
    ClusterBlock → Prop
  | simple _ => Block.Carries source pos size sizes
  | group _ => BlockGroup.Carries source pos size sizes

/-- A child of a cluster is a block of some kind, or it has no payloads. -/
def Cluster.ChildCarries (source : Source) (id : ElementId) (pos size : Nat) (sizes : List Nat) :
    Prop :=
  match ClusterBlock.ofId? id with
  | some kind => kind.Carries source pos size sizes
  | none => sizes = []

/-- The payloads of a cluster are those of its blocks. -/
def Cluster.Carries (source : Source) (pos size : Nat) (sizes : List Nat) : Prop :=
  Element.Carried source (ChildCarries source) pos (pos + size) sizes

/-! ## They are told in one way -/

/-- Parts that may be read under a limit may be read under a larger one. -/
theorem Block.Parts.Splits.raise {parts : Parts} {limit limit' : Nat}
    (h : parts.Splits { source with limit } pos size) (hle : limit ≤ limit') :
    parts.Splits { source with limit := limit' } pos size where
  sound := { h.sound with
    affordable := fun frame hm => Nat.le_trans (h.sound.affordable frame hm) hle }
  length_bytes := h.length_bytes
  holds := h.holds

theorem Block.Carries.unique (hsize : size < UInt64.size) (h : Carries source pos size sizes)
    (h' : Carries source pos size others) : sizes = others := by
  obtain ⟨parts, limit, hsplits, rfl⟩ := h
  obtain ⟨parts', limit', hsplits', rfl⟩ := h'
  rw [(hsplits.raise (Nat.le_max_left limit limit')).unique
    (hsplits'.raise (Nat.le_max_right limit limit')) hsize]

theorem Addition.Carries.unique (h : Carries source pos size sizes)
    (h' : Carries source pos size others) : sizes = others :=
  Element.Carried.unique (fun _ h h' => h.trans h'.symm) h h'

theorem BlockAdditions.Carries.unique (h : Carries source pos size sizes)
    (h' : Carries source pos size others) : sizes = others := by
  refine Element.Carried.unique (fun {id} _ _ _ _ _ h h' => ?_) h h'
  by_cases hid : id = .blockMore
  · rw [ChildCarries, if_pos hid] at h h'
    exact h.unique h'
  · rw [ChildCarries, if_neg hid] at h h'
    exact h.trans h'.symm

theorem BlockGroup.Carries.unique (h : Carries source pos size sizes)
    (h' : Carries source pos size others) : sizes = others := by
  refine Element.Carried.unique (fun {id} _ _ _ _ hsize h h' => ?_) h h'
  by_cases hblock : id = .block
  · rw [ChildCarries, if_pos hblock] at h h'
    exact h.unique hsize h'
  · rw [ChildCarries, if_neg hblock] at h h'
    by_cases hadditions : id = .blockAdditions
    · rw [if_pos hadditions] at h h'
      exact h.unique h'
    · rw [if_neg hadditions] at h h'
      exact h.trans h'.symm

theorem ClusterBlock.Carries.unique {kind : ClusterBlock} (hsize : size < UInt64.size)
    (h : kind.Carries source pos size sizes) (h' : kind.Carries source pos size others) :
    sizes = others := by
  cases kind with
  | simple _ => exact Block.Carries.unique hsize h h'
  | group _ => exact BlockGroup.Carries.unique h h'

theorem Cluster.Carries.unique (h : Carries source pos size sizes)
    (h' : Carries source pos size others) : sizes = others := by
  refine Element.Carried.unique (fun {id} _ _ _ _ hsize h h' => ?_) h h'
  cases hkind : ClusterBlock.ofId? id with
  | some kind =>
      rw [ChildCarries, hkind] at h h'
      exact h.unique hsize h'
  | none =>
      rw [ChildCarries, hkind] at h h'
      exact h.trans h'.symm

end Ebml
