import Ebml.Proofs.Cluster.Demand
import Ebml.Proofs.Cluster.NormalForm
import Ebml.Proofs.Utf8

/-!
# The limit on memory

Elements are read under a limit on what is read into memory at once.  The payloads in a body are
held against it, each by itself, and nothing else is (`Filling.Gated`).  So an element that is read
under one limit is read alike under any other that no payload exceeds, and is refused under one that
some payload exceeds.  What is left of the payloads in the object keeps to the limit.

The payloads are those of the stream, not those that are kept.  A child that is repeated takes the
place of the one before it, and a large one is refused even if a small one comes after it.  Elements
without payloads do not depend on the limit, whether or not they can be read (`Element.Ungated`).
-/

namespace Ebml

open Reader (Asks Blind closed_blind)

/-- The limit on memory gates what reads into an object.  By `carries`, the stream tells what the
sizes of the payloads are from where a read starts.  The object then holds `payloads`. -/
structure Filling.Gated {κ α : Type} (f : Filling κ α)
    (carries : κ → Source → Nat → List Nat → Prop) (payloads : κ → List (List UInt8)) : Prop where
  /-- Of a success the sizes are told, and in one way. -/
  told : ∀ {source state a state'}, f source state = .ok a state' →
    ∃ sizes, ∀ others, carries state.object source state.medium.pos others ↔ others = sizes
  /-- A limit that none of them exceeds does not change what comes of it. -/
  same : ∀ {source state a state' sizes limit}, f source state = .ok a state' →
    carries state.object source state.medium.pos sizes → (∀ size ∈ sizes, size ≤ limit) →
      f { source with limit } state = .ok a state'
  /-- A limit that one of them exceeds is reported. -/
  refused : ∀ {source state a state' sizes limit}, f source state = .ok a state' →
    carries state.object source state.medium.pos sizes → (∃ size ∈ sizes, limit < size) →
      ∃ after, f { source with limit } state = .error .tooMuchData after
  /-- A larger limit does not change what comes of it, either. -/
  raised : ∀ {source state a state' limit}, f source state = .ok a state' →
    source.limit ≤ limit → f { source with limit } state = .ok a state'
  /-- What the object holds keeps to the limit. -/
  kept : ∀ {source state a state'}, f source state = .ok a state' →
    ∀ payload ∈ payloads state'.object, payload.length ≤ source.limit

/-- It is enough that sizes which tell what comes of a success are told by the stream in one way,
and that the object keeps to the limit. -/
theorem Filling.gated {κ α : Type} {f : Filling κ α} {carries : κ → Source → Nat → List Nat → Prop}
    {payloads : κ → List (List UInt8)}
    (hgated : ∀ {source state a state'}, f source state = .ok a state' →
      ∃ sizes, carries state.object source state.medium.pos sizes ∧
        Reader.Gated source f state sizes)
    (hunique : ∀ {c source pos sizes others}, carries c source pos sizes →
      carries c source pos others → sizes = others)
    (hkept : ∀ {source state a state'}, f source state = .ok a state' →
      ∀ payload ∈ payloads state'.object, payload.length ≤ source.limit) :
    Gated f carries payloads where
  told hok := by
    obtain ⟨sizes, hsizes, -⟩ := hgated hok
    refine ⟨sizes, fun others => ⟨fun hothers => hunique hothers hsizes, ?_⟩⟩
    rintro rfl
    exact hsizes
  same hok hcarries hle := by
    obtain ⟨sizes, hsizes, hgates⟩ := hgated hok
    cases hunique hcarries hsizes
    exact (hgates.same hle).trans hok
  refused hok hcarries hlt := by
    obtain ⟨sizes, hsizes, hgates⟩ := hgated hok
    cases hunique hcarries hsizes
    exact hgates.refused hlt
  raised hok hle := by
    obtain ⟨sizes, -, hgates⟩ := hgated hok
    exact (hgates.same fun size hm => Nat.le_trans (hgates.le_limit hok size hm) hle).trans hok
  kept := hkept

/-! ## Elements -/

namespace Element

variable {ε : Type} [Element ε]

/-- The limit on memory gates elements of a kind, read with their header or without.  By `carries`,
the payloads are told by the position and the size of a body. -/
structure Gated (ε : Type) [Element ε] (carries : ε → Source → Nat → Nat → List Nat → Prop)
    (payloads : ε → List (List UInt8)) : Prop where
  fill : Filling.Gated (fill : Filling ε Nat) (fun e => Sized (carries e)) payloads
  fillBody : ∀ size, size < UInt64.size →
    Filling.Gated (fillBody size : Filling ε Nat) (fun e source pos => carries e source pos size)
      payloads

/-- The limit on memory does not matter to the element, whether or not it can be read. -/
structure Ungated (e : ε) : Prop where
  fill : ∀ source limit cursor,
    (fill : Filling ε Nat) { source with limit } ⟨e, cursor⟩ = fill source ⟨e, cursor⟩
  fillBody : ∀ source limit cursor size,
    fillBody size { source with limit } ⟨e, cursor⟩ = fillBody size source ⟨e, cursor⟩

theorem gated {carries : ε → Source → Nat → Nat → List Nat → Prop}
    {payloads : ε → List (List UInt8)}
    (hasks : ∀ (e : ε) {size}, size < UInt64.size →
      Asks (readBody e size) fun source pos => carries e source pos size)
    (hmoved : ∀ e offset, carries (setOffset e offset) = carries e)
    (hunique : ∀ {e source pos size sizes others}, size < UInt64.size →
      carries e source pos size sizes → carries e source pos size others → sizes = others)
    (hkept : ∀ {source} (e : ε) (size : Nat), Reader.Ensures (readBody e size) source fun e' =>
      ∀ payload ∈ payloads e', payload.length ≤ source.limit) : Gated ε carries payloads where
  fill := by
    refine Filling.gated (fun {source state _ _} hok => ?_) (fun h h' => h.unique hunique h')
      fun hok => ensures_read (fun _ _ => hkept _ _) _ _ _ (fill_eq_ok.mp hok)
    obtain ⟨e, cursor⟩ := state
    have hread := fill_eq_ok.mp hok
    have hmoves : ∀ offset, carries (setOffset (setOffset e _) offset) = carries e := fun offset =>
      (hmoved _ offset).trans (hmoved e (cursor.pos - (Element.id e).size))
    have hreads : Asks (read (setOffset e (cursor.pos - (Element.id e).size)))
        (Sized (carries e)) :=
      asks_read fun offset size hsize => hmoves offset ▸ hasks _ hsize
    obtain ⟨sizes, hsizes, hgated⟩ := hreads _ _ _ _ hread
    refine ⟨sizes, hsizes, .of_eq (fun limit => fill_eq e { source with limit } cursor) ?_⟩
    exact (hgated.lift _).before_blind (Filling.lift_eq_ok.mpr ⟨hread, rfl⟩)
      (Filling.blind_commit _ _)
  fillBody size hsize := by
    refine Filling.gated (fun {_ state _ _} hok => ?_) (hunique hsize)
      fun hok => hkept _ _ _ _ _ (fillBody_eq_ok.mp hok).2
    obtain ⟨e, cursor⟩ := state
    obtain ⟨-, hbody⟩ := fillBody_eq_ok.mp hok
    obtain ⟨sizes, hsizes, hgated⟩ := hasks e hsize _ _ _ _ hbody
    refine ⟨sizes, hsizes, .after_blind Filling.blind_object rfl ?_⟩
    exact (hgated.lift e).before_blind (Filling.lift_eq_ok.mpr ⟨hbody, rfl⟩)
      (Filling.blind_commit _ _)

theorem ungated {P : ε → Prop} (hbody : ∀ e, P e → ∀ size, Blind (readBody e size))
    (hmoved : ∀ e offset, P e → P (setOffset e offset)) {e : ε} (h : P e) : Ungated e where
  fill source limit cursor := by
    have hread : Blind (read (setOffset e (cursor.pos - (Element.id e).size))) :=
      closed_read closed_blind fun _ _ => hbody _ (hmoved _ _ (hmoved _ _ h)) _
    rw [fill_eq, fill_eq]
    exact (Filling.blind_lift hread).bind (fun _ => Filling.blind_commit _ _) source limit _
  fillBody source limit cursor size :=
    (Filling.blind_lift (hbody e h size)).bind (fun _ => Filling.blind_commit _ _)
      source limit ⟨e, cursor⟩

end Element

/-! ## Values -/

namespace Value

theorem length_stripPadding_le (bytes : List UInt8) :
    (stripPadding bytes).length ≤ bytes.length := by
  have hle := (List.dropWhile_suffix (fun byte => decide (byte = 0)) (l := bytes.reverse)).length_le
  rw [List.length_reverse] at hle
  rw [stripPadding, List.length_reverse]
  exact hle

variable {source : Source}

theorem ensures_readText (size : Nat) : Reader.Ensures (readText size) source fun text =>
    (Utf8.encode text).length ≤ source.limit := by
  refine (Reader.Ensures.body size).bind fun bytes h => ?_
  have hstripped := length_stripPadding_le bytes
  split
  next text htext =>
    refine Reader.Ensures.pure ?_
    rw [Utf8.encode_of_decode htext]
    omega
  next => exact Reader.Ensures.throw

/-- A text has no more octets than the body that it was read from, since only zeros are left out. -/
theorem ensures_read (kind : Kind) (id : ElementId) (size : Nat) :
    Reader.Ensures (read kind id size) source fun value =>
      ∀ payload ∈ value.payloads, payload.length ≤ source.limit := by
  have hnone : ∀ {value : Value}, value.payloads = [] →
      ∀ payload ∈ value.payloads, payload.length ≤ source.limit := fun h payload hm => by
    rw [h] at hm
    cases hm
  cases kind with
  | int => exact Reader.Ensures.any.bind fun _ _ => .pure (hnone rfl)
  | uint => exact Reader.Ensures.any.bind fun _ _ => .pure (hnone rfl)
  | float => exact Reader.Ensures.any.bind fun _ _ => .pure (hnone rfl)
  | date => exact Reader.Ensures.any.bind fun _ _ => .pure (hnone rfl)
  | string =>
      refine (ensures_readText size).bind fun text htext => .pure fun payload hm => ?_
      rw [List.mem_singleton.mp hm]
      exact htext
  | binary =>
      refine (Reader.Ensures.body size).bind fun bytes h => .pure fun payload hm => ?_
      rw [List.mem_singleton.mp hm]
      omega

end Value

/-! ## Clusters -/

namespace BufferedCluster

/-- What a reader of the cluster needs memory for. -/
def payloads (c : BufferedCluster) : List (List UInt8) := c.blocks.flatMap ClusterBlock.payloads

theorem Sound.keeps {limit : Nat} {c : BufferedCluster} (h : c.Sound limit) :
    ∀ payload ∈ c.payloads, payload.length ≤ limit := fun payload hm => by
  obtain ⟨b, hb, hpayload⟩ := List.mem_flatMap.mp hm
  exact h.affordable b hb payload hpayload

end BufferedCluster

/-! ## Everything that is read into memory -/

/-- The limit on memory is a gate for every kind of element, and for clusters that are read into
memory in any mode.  It is one for frames, and for the bodies of texts and binary values, all of
them that there are in the stream.  It does not matter to padding and to numbers and dates. -/
theorem limit_gates :
    Element.Gated PrimitiveElement (fun e _ _ size sizes => sizes = e.value.kind.payloadSizes size)
      (fun e => e.value.payloads) ∧
    Element.Gated VoidElement (fun _ _ _ _ sizes => sizes = []) (fun _ => []) ∧
    Element.Gated Block (fun _ => Block.Carries) (fun b => b.frames) ∧
    Element.Gated SimpleBlock (fun _ => Block.Carries) (fun b => b.block.frames) ∧
    Element.Gated BlockAdditions (fun _ => BlockAdditions.Carries)
      (fun a => a.entries.map Addition.data) ∧
    Element.Gated BlockGroup (fun _ => BlockGroup.Carries) BlockGroup.payloads ∧
    Element.Gated ClusterBlock (fun b source pos size sizes => b.Carries source pos size sizes)
      ClusterBlock.payloads ∧
    (∀ mode, Filling.Gated (Cluster.read mode : Filling BufferedCluster Nat)
      (fun _ => Element.Sized Cluster.Carries) BufferedCluster.payloads) ∧
    (∀ mode size, Filling.Gated (Cluster.readBlocks mode size : Filling BufferedCluster Nat)
      (fun _ source pos => Cluster.Carries source pos size) BufferedCluster.payloads) ∧
    (∀ e : PrimitiveElement, e.value.kind.isBytes = false → Element.Ungated e) ∧
    ∀ e : VoidElement, Element.Ungated e := by
  refine ⟨?primitive, ?void, ?block, ?simple, ?additions, ?group, ?either, ?cluster, ?region,
    ?numbers, ?padding⟩
  case primitive =>
    refine Element.gated (fun e size _ => e.asks_readBody size) (fun _ _ => rfl)
      (fun _ h h' => h.trans h'.symm) fun e size => ?_
    exact Reader.Ensures.any.bind fun _ _ => (Value.ensures_read _ _ size).bind fun _ h => .pure h
  case void =>
    refine Element.gated (fun e size _ => .of_blind (e.blind_readBody size) fun _ _ _ _ _ => rfl)
      (fun _ _ => rfl) (fun _ h h' => h.trans h'.symm) fun e size => ?_
    exact Reader.Ensures.any.mono fun _ _ _ hm => nomatch hm
  case block =>
    exact Element.gated (fun b _ hsize => b.asks_readBody hsize) (fun _ _ => rfl)
      (fun hsize h h' => h.unique hsize h') fun b size =>
        (b.ensures_readBody size).mono fun _ h => h.2
  case simple =>
    exact Element.gated (fun b _ hsize => b.asks_readBody hsize) (fun _ _ => rfl)
      (fun hsize h h' => h.unique hsize h') fun b size =>
        (b.ensures_readBody size).mono fun _ h => h.2
  case additions =>
    refine Element.gated (fun a size _ => a.asks_readBody size) (fun _ _ => rfl)
      (fun _ h h' => h.unique h') fun a size =>
        (a.ensures_readBody size).mono fun _ h payload hm => ?_
    obtain ⟨entry, hentry, rfl⟩ := List.mem_map.mp hm
    exact h entry hentry
  case group =>
    exact Element.gated (fun g size _ => g.asks_readBody size) (fun _ _ => rfl)
      (fun _ h h' => h.unique h') fun g size => (g.ensures_readBody size).mono fun _ h => h.2
  case either =>
    refine Element.gated (fun b _ hsize => b.asks_readBody hsize) (fun b _ => ?_)
      (fun hsize h h' => h.unique hsize h') fun b size =>
        (b.ensures_readBody size).mono fun _ h => h.2
    cases b <;> rfl
  case cluster =>
    exact fun mode => Filling.gated BufferedCluster.gated_read
      (fun h h' => h.unique (fun _ h h' => h.unique h') h')
      fun hok => (BufferedCluster.sound_of_read hok).1.keeps
  case region =>
    exact fun mode size => Filling.gated BufferedCluster.gated_readBlocks (fun h h' => h.unique h')
      fun hok => (BufferedCluster.sound_of_readBlocks hok).1.keeps
  case numbers =>
    have hbody : ∀ e : PrimitiveElement, e.value.kind.isBytes = false →
        ∀ size, Blind (Element.readBody e size) := fun e hbytes size =>
      e.closed_readBody closed_blind fun h => by
        rw [hbytes] at h
        cases h
    exact fun e => Element.ungated hbody fun _ _ h => h
  case padding =>
    exact fun e => Element.ungated (fun e (_ : True) => e.blind_readBody) (fun _ _ h => h) trivial

/-- The body of a group with a block of one frame and two codec states, the larger one first. -/
def repeatedState : Source :=
  ⟨[0xa1, 0x85, 0x81, 0, 0, 0, 7, 0xa4, 0x83, 1, 2, 3, 0xa4, 0x81, 4], 3⟩

/-- Its payloads are the frame and both of the states. -/
theorem carries_repeatedState : BlockGroup.Carries repeatedState 0 15 [1, 3, 1] := by
  have hframes : Block.Carries repeatedState 2 5 [1] := by
    refine ⟨{ track := 1, trackLength := 1, timecode := 0, flags := 0, lacing := .none
              header := [], frames := [[7]] }, 3, ⟨?_, by decide, ⟨_, rfl⟩⟩, rfl⟩
    exact { track_payload := ⟨by decide, by decide, by decide⟩, track_pos := by decide
            track_le := by decide, flags_lacing := by decide, header_sizes := .none
            filled := by decide, affordable := by decide }
  have hblock : Reader.Yields ElementId.read repeatedState 0 .block (0 + ElementId.block.size) :=
    ElementId.yields_read ⟨_, rfl⟩
  have hfirst : Reader.Yields ElementId.read repeatedState 7 .codecState
      (7 + ElementId.codecState.size) := ElementId.yields_read ⟨_, rfl⟩
  have hsecond : Reader.Yields ElementId.read repeatedState 12 .codecState
      (12 + ElementId.codecState.size) := ElementId.yields_read ⟨_, rfl⟩
  have hone : ∀ size < 127, VarInt.Payload size 1 := fun size h => ⟨by decide, by decide, by omega⟩
  have hlast : Element.Carried repeatedState (BlockGroup.ChildCarries repeatedState) 12 15
      ([1] ++ []) :=
    .cons hsecond (VarInt.yields_read (hone 1 (by decide)) ⟨_, rfl⟩) rfl .nil
  have hstates : Element.Carried repeatedState (BlockGroup.ChildCarries repeatedState) 7 15
      ([3] ++ [1]) :=
    .cons hfirst (VarInt.yields_read (hone 3 (by decide)) ⟨_, rfl⟩) rfl hlast
  show Element.Carried repeatedState (BlockGroup.ChildCarries repeatedState) 0 15 ([1] ++ [3, 1])
  exact .cons hblock (VarInt.yields_read (hone 5 (by decide)) ⟨_, rfl⟩) hframes hstates

/-- It is read under a limit that lets the larger state in, of which nothing is kept.  Under any
smaller one it is refused. -/
theorem repeatedState_gated :
    ∃ state, (Element.fillBody 15 : Filling BlockGroup Nat) repeatedState ⟨{}, ⟨0, #[]⟩⟩ =
        .ok 15 state ∧
      state.object.codecState = [4] ∧
        ∀ limit < 3, ∃ after, (Element.fillBody 15 : Filling BlockGroup Nat)
          { repeatedState with limit } ⟨{}, ⟨0, #[]⟩⟩ = .error .tooMuchData after := by
  obtain ⟨-, -, -, -, -, hgroup, -⟩ := limit_gates
  have hread : errorOf? ((Element.fillBody 15 : Filling BlockGroup Nat) repeatedState
      ⟨{}, ⟨0, #[]⟩⟩) = none := by decide +kernel
  have hstate : (stateOf ((Element.fillBody 15 : Filling BlockGroup Nat) repeatedState
      ⟨{}, ⟨0, #[]⟩⟩)).object.codecState = [4] := by decide +kernel
  cases hresult : (Element.fillBody 15 : Filling BlockGroup Nat) repeatedState ⟨{}, ⟨0, #[]⟩⟩ with
  | error e state =>
      rw [hresult] at hread
      cases hread
  | ok count state =>
      rw [hresult] at hstate
      obtain ⟨rfl, -⟩ := Element.fillBody_eq_ok.mp hresult
      exact ⟨state, rfl, hstate, fun limit hlt =>
        (hgroup.fillBody 15 (by decide)).refused hresult carries_repeatedState ⟨3, by decide, hlt⟩⟩

end Ebml
