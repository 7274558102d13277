import Ebml.Proofs.Cluster.Timecode
import Ebml.Proofs.Element.Atomicity
import Ebml.Proofs.Element.Listing

/-!
# The numbers of additions

The number of an addition that is read is that of the last child that holds one, and nothing is
asked of it (`Addition.Named`).  A number without octets is zero, and only where there is no such
child the default is taken.  So the stream tells whether one of the additions that are read has
zero for its number (`exists_zero_fillWith`), whether they are read by themselves or as part of a
group.
-/

namespace Ebml

variable {source : Source} {pos size : Nat}

/-! ## What is in the stream -/

/-- What the children in a body say of the number of an addition: the octets of the last one that
holds a number, if there is one. -/
def Addition.Named (source : Source) (pos size : Nat) (last? : Option (List UInt8)) : Prop :=
  ∃ numbers, Element.Lists source .blockAddId (Integer.Stored source) pos (pos + size) numbers ∧
    numbers.getLast? = last?

/-- The same of all the additions in a body, in order. -/
def BlockAdditions.Named (source : Source) (pos size : Nat)
    (names : List (Option (List UInt8))) : Prop :=
  Element.Lists source .blockMore (Addition.Named source) pos (pos + size) names

/-- The same of the additions of a group, which are those that come last among its children. -/
def BlockGroup.Named (source : Source) (pos size : Nat) (names : List (Option (List UInt8))) :
    Prop :=
  ∃ all, Element.Lists source .blockAdditions (BlockAdditions.Named source) pos (pos + size) all ∧
    all.getLast?.getD [] = names

namespace Addition

theorem Named.unique {last? last?' : Option (List UInt8)} (h : Named source pos size last?)
    (h' : Named source pos size last?') : last? = last?' := by
  obtain ⟨numbers, hlists, rfl⟩ := h
  obtain ⟨numbers', hlists', rfl⟩ := h'
  rw [hlists.unique (fun h h' => h.unique h') hlists']

theorem Named.length_le {octets : List UInt8} (h : Named source pos size (some octets)) :
    octets.length ≤ Integer.maxLength := by
  obtain ⟨numbers, hlists, hlast⟩ := h
  obtain ⟨_, _, hstored⟩ := hlists.exists_of_mem (List.mem_of_getLast? hlast)
  rw [hstored.length_eq]
  exact hstored.size_le

/-- The number of an addition. -/
def numberOf (last? : Option (List UInt8)) : UInt64 :=
  (last?.map Integer.ofOctetsUnsigned).getD defaultAddId

/-- The default is not zero. -/
theorem Named.number_eq_zero {last? : Option (List UInt8)} (h : Named source pos size last?) :
    numberOf last? = 0 ↔ ∃ octets, last? = some octets ∧ ∀ octet ∈ octets, octet = 0 := by
  cases last? with
  | none =>
      refine ⟨fun hzero => ?_, fun ⟨_, hsome, _⟩ => nomatch hsome⟩
      exact absurd hzero (by decide)
  | some octets =>
      have hnumber : numberOf (some octets) = Integer.ofOctetsUnsigned octets := rfl
      rw [hnumber, Integer.ofOctetsUnsigned_eq_zero h.length_le]
      exact ⟨fun hzero => ⟨octets, rfl, hzero⟩, fun ⟨_, hsome, hzero⟩ => by
        cases hsome
        exact hzero⟩

/-! ## Single additions -/

theorem counts_readChild (draft : Draft) (id : ElementId) :
    Element.Counts (readChild draft id) Prod.snd := by
  rw [readChild]
  split
  next => exact (PrimitiveElement.counts_readUnsignedChild id).map fun _ => ⟨_, rfl, rfl⟩
  next =>
    split
    next => exact (PrimitiveElement.counts_readBinaryChild id).map fun _ => ⟨_, rfl, rfl⟩
    next =>
      split
      next => exact Element.counts_skipRest.map fun _ => ⟨_, rfl, rfl⟩
      next => exact Element.counts_throw _

/-- A child that holds a number gives it to the addition. -/
theorem addId_of_readChild {draft next : Draft} {count : Nat} {cursor cursor' : Cursor}
    (hok : readChild draft .blockAddId source cursor = .ok (next, count) cursor') :
    ∃ size length octets,
      Reader.Yields VarInt.read source cursor.pos (size, length) (cursor.pos + length) ∧
        count = length + size ∧ Integer.Stored source (cursor.pos + length) size octets ∧
          next.addId = Integer.ofOctetsUnsigned octets := by
  obtain ⟨_, _, hnumber, hpure⟩ := Reader.bind_eq_ok.mp hok
  cases hpure
  exact PrimitiveElement.of_readUnsignedChild hnumber

/-- Other children leave the number as it is. -/
theorem addId_of_readChild_of_ne {draft next : Draft} {id : ElementId} {count : Nat}
    {cursor cursor' : Cursor} (hid : id ≠ .blockAddId)
    (hok : readChild draft id source cursor = .ok (next, count) cursor') :
    next.addId = draft.addId := by
  rw [readChild, if_neg hid] at hok
  repeat
    split at hok
    next =>
      obtain ⟨_, _, _, hpure⟩ := Reader.bind_eq_ok.mp hok
      cases hpure
      rfl
  cases hok

theorem collects_readChild : Element.Collects source .blockAddId (Integer.Stored source) readChild
    Draft.addId fun _ octets => Integer.ofOctetsUnsigned octets where
  spans := spans_readChild
  counts := counts_readChild
  item := addId_of_readChild
  other := addId_of_readChild_of_ne

theorem named_of_readBody {a : Addition} {cursor cursor' : Cursor}
    (hok : readBody size source cursor = .ok a cursor') :
    ∃ last?, Named source cursor.pos size last? ∧ a.addId = numberOf last? := by
  obtain ⟨draft, _, hchildren, hdraft⟩ := Reader.bind_eq_ok.mp hok
  obtain ⟨numbers, hlists, hnumber⟩ := collects_readChild.of_readChildren hchildren
  refine ⟨_, ⟨numbers, hlists, rfl⟩, ?_⟩
  have hlast : draft.addId = numberOf numbers.getLast? :=
    hnumber.trans (Element.foldl_last _ _ _)
  rw [← hlast]
  cases hdata : draft.data? with
  | none =>
      rw [hdata] at hdraft
      cases hdraft
  | some data =>
      rw [hdata] at hdraft
      cases hdraft
      rfl

end Addition

/-! ## All the additions -/

namespace BlockAdditions

theorem Named.unique {names names' : List (Option (List UInt8))}
    (h : Named source pos size names) (h' : Named source pos size names') : names = names' :=
  Element.Lists.unique (P := Addition.Named source) Addition.Named.unique h h'

theorem counts_readChild (entries : List Addition) (id : ElementId) :
    Element.Counts (readChild entries id) Prod.snd := by
  rw [readChild]
  split
  next => exact fun _ _ _ _ hok => by cases hok
  next =>
    refine Element.counts_varInt fun size length _ _ _ _ hok => ?_
    obtain ⟨_, _, _, hpure⟩ := Reader.bind_eq_ok.mp hok
    cases hpure
    rfl

/-- A single addition is put behind those before it. -/
theorem addIds_of_readChild {entries next : List Addition} {count : Nat}
    {cursor cursor' : Cursor}
    (hok : readChild entries .blockMore source cursor = .ok (next, count) cursor') :
    ∃ size length last?,
      Reader.Yields VarInt.read source cursor.pos (size, length) (cursor.pos + length) ∧
        count = length + size ∧ Addition.Named source (cursor.pos + length) size last? ∧
          next.map Addition.addId = entries.map Addition.addId ++ [Addition.numberOf last?] := by
  obtain ⟨⟨size, length⟩, ⟨_, log⟩, hsize, hok⟩ := Reader.bind_eq_ok.mp hok
  obtain ⟨entry, _, hentry, hpure⟩ := Reader.bind_eq_ok.mp hok
  cases hpure
  obtain ⟨hpos, hyields⟩ := VarInt.of_read hsize
  dsimp only at hpos
  subst hpos
  obtain ⟨last?, hnamed, hnumber⟩ := Addition.named_of_readBody hentry
  refine ⟨size, length, last?, hyields, rfl, hnamed, ?_⟩
  rw [List.map_append, List.map_singleton, hnumber]

/-- There are no other children. -/
theorem addIds_of_readChild_of_ne {entries next : List Addition} {id : ElementId} {count : Nat}
    {cursor cursor' : Cursor} (hid : id ≠ .blockMore)
    (hok : readChild entries id source cursor = .ok (next, count) cursor') :
    next.map Addition.addId = entries.map Addition.addId := by
  rw [readChild, if_pos hid] at hok
  cases hok

theorem collects_readChild : Element.Collects source .blockMore (Addition.Named source) readChild
    (fun entries => entries.map Addition.addId)
    fun numbers last? => numbers ++ [Addition.numberOf last?] where
  spans := spans_readChild
  counts := counts_readChild
  item := addIds_of_readChild
  other := addIds_of_readChild_of_ne

theorem named_of_readBody {a a' : BlockAdditions} {cursor cursor' : Cursor}
    (hok : Element.readBody a size source cursor = .ok a' cursor') :
    ∃ names, Named source cursor.pos size names ∧
      a'.entries.map Addition.addId = names.map Addition.numberOf := by
  obtain ⟨entries, _, hchildren, hpure⟩ := Reader.bind_eq_ok.mp hok
  cases hpure
  obtain ⟨names, hlists, hnumbers⟩ := collects_readChild.of_readChildren hchildren
  refine ⟨names, hlists, ?_⟩
  rw [hnumbers, List.foldl_append_eq_append, List.map_nil, List.nil_append]
  exact List.map_eq_flatMap.symm

end BlockAdditions

namespace BlockGroup

theorem Named.unique {names names' : List (Option (List UInt8))}
    (h : Named source pos size names) (h' : Named source pos size names') : names = names' := by
  obtain ⟨all, hlists, rfl⟩ := h
  obtain ⟨all', hlists', rfl⟩ := h'
  cases Element.Lists.unique (P := BlockAdditions.Named source) BlockAdditions.Named.unique
    hlists hlists'
  rfl

/-- The numbers of the additions of a group that is being read. -/
def Draft.addIds (draft : Draft) : List UInt64 :=
  draft.rest.additions.entries.map Addition.addId

/-- The additions of the group are replaced. -/
theorem addIds_of_readChild {draft next : Draft} {count : Nat} {cursor cursor' : Cursor}
    (hok : readChild draft .blockAdditions source cursor = .ok (next, count) cursor') :
    ∃ size length names,
      Reader.Yields VarInt.read source cursor.pos (size, length) (cursor.pos + length) ∧
        count = length + size ∧ BlockAdditions.Named source (cursor.pos + length) size names ∧
          next.addIds = names.map Addition.numberOf := by
  obtain ⟨⟨a, _⟩, _, hread, hpure⟩ := Reader.bind_eq_ok.mp hok
  cases hpure
  obtain ⟨size, length, _, rfl, hsize, hbody⟩ := Element.of_read hread
  obtain ⟨names, hnamed, hnumbers⟩ := BlockAdditions.named_of_readBody hbody
  exact ⟨size, length, names, hsize, rfl, hnamed, hnumbers⟩

/-- Other children leave the additions as they are. -/
theorem addIds_of_readChild_of_ne {draft next : Draft} {id : ElementId} {count : Nat}
    {cursor cursor' : Cursor} (hid : id ≠ .blockAdditions)
    (hok : readChild draft id source cursor = .ok (next, count) cursor') :
    next.addIds = draft.addIds := by
  rw [readChild, if_neg hid] at hok
  repeat
    split at hok
    next =>
      obtain ⟨_, _, _, hpure⟩ := Reader.bind_eq_ok.mp hok
      cases hpure
      rfl
  cases hok

theorem collects_readChild : Element.Collects source .blockAdditions (BlockAdditions.Named source)
    readChild Draft.addIds fun _ names => names.map Addition.numberOf where
  spans := spans_readChild
  counts := counts_readChild
  item := addIds_of_readChild
  other := addIds_of_readChild_of_ne

theorem named_of_readBody {g g' : BlockGroup} {cursor cursor' : Cursor}
    (hok : Element.readBody g size source cursor = .ok g' cursor') :
    ∃ names, Named source cursor.pos size names ∧
      g'.additions.entries.map Addition.addId = names.map Addition.numberOf := by
  obtain ⟨content, _, hcontent, hpure⟩ := Reader.bind_eq_ok.mp hok
  cases hpure
  obtain ⟨draft, _, hchildren, hdraft⟩ := Reader.bind_eq_ok.mp hcontent
  obtain ⟨all, hlists, hnumbers⟩ := collects_readChild.of_readChildren hchildren
  refine ⟨_, ⟨all, hlists, rfl⟩, ?_⟩
  have hlast : draft.addIds = (all.getLast?.getD []).map Addition.numberOf := by
    rw [hnumbers, Element.foldl_last]
    cases all.getLast? with
    | none => rfl
    | some names => rfl
  rw [← hlast]
  cases hblock : draft.block? with
  | none =>
      rw [hblock] at hdraft
      cases hdraft
  | some block =>
      rw [hblock] at hdraft
      cases hdraft
      rfl

end BlockGroup

/-! ## Numbers that are zero -/

namespace Addition

/-- The stream gives zero for the number of some addition of the element, or body, at `pos`.  There
is a number, and it has no octets other than zeros. -/
def SomeZero (source : Source) (Named : Source → Nat → Nat → List (Option (List UInt8)) → Prop)
    (pos : Nat) (size? : Option Nat) : Prop :=
  ∃ names, Element.Placed source (fun pos size => Named source pos size names) pos size? ∧
    ∃ octets, some octets ∈ names ∧ ∀ octet ∈ octets, octet = 0

theorem exists_zero_iff {entries : List Addition} {names : List (Option (List UInt8))}
    (hnumbers : entries.map addId = names.map numberOf)
    (hnamed : ∀ last? ∈ names, ∃ pos size, Named source pos size last?) :
    (∃ entry ∈ entries, entry.addId = 0) ↔
      ∃ octets, some octets ∈ names ∧ ∀ octet ∈ octets, octet = 0 := by
  rw [← List.mem_map, hnumbers, List.mem_map]
  constructor
  · rintro ⟨last?, hm, hzero⟩
    obtain ⟨_, _, hlast⟩ := hnamed last? hm
    obtain ⟨octets, rfl, hoctets⟩ := hlast.number_eq_zero.mp hzero
    exact ⟨octets, hm, hoctets⟩
  · rintro ⟨octets, hm, hoctets⟩
    obtain ⟨_, _, hlast⟩ := hnamed _ hm
    exact ⟨_, hm, hlast.number_eq_zero.mpr ⟨octets, rfl, hoctets⟩⟩

end Addition

/-- A kind of element with additions. -/
class Supplemented (ε : Type) [Element ε] where
  /-- The additions, if this one is such that it has some. -/
  additions? : ε → Option BlockAdditions
  /-- What a body says of the numbers of the additions. -/
  Named : Source → Nat → Nat → List (Option (List UInt8)) → Prop

instance : Supplemented BlockAdditions where
  additions? a := some a
  Named := BlockAdditions.Named

instance : Supplemented BlockGroup where
  additions? g := some g.additions
  Named := BlockGroup.Named

instance : Supplemented ClusterBlock where
  additions?
    | .simple _ => none
    | .group g => some g.additions
  Named := BlockGroup.Named

/-- A kind of element whose additions are numbered as the body that they are read from has them. -/
class LawfulSupplemented (ε : Type) [Element ε] [Supplemented ε] : Prop where
  entries_setOffset : ∀ (e : ε) offset,
    (Supplemented.additions? (Element.setOffset e offset)).map BlockAdditions.entries =
      (Supplemented.additions? e).map BlockAdditions.entries
  named_of_readBody : ∀ {source size} {e e' : ε} {a : BlockAdditions} {cursor cursor' : Cursor},
    Element.readBody e size source cursor = .ok e' cursor' →
      Supplemented.additions? e' = some a →
      ∃ names, Supplemented.Named ε source cursor.pos size names ∧
        a.entries.map Addition.addId = names.map Addition.numberOf
  unique : ∀ {source pos size names names'}, Supplemented.Named ε source pos size names →
    Supplemented.Named ε source pos size names' → names = names'
  named_of_mem : ∀ {source pos size names last?}, Supplemented.Named ε source pos size names →
    last? ∈ names → ∃ pos size, Addition.Named source pos size last?

theorem BlockAdditions.Named.named_of_mem {names : List (Option (List UInt8))}
    {last? : Option (List UInt8)} (h : Named source pos size names) (hm : last? ∈ names) :
    ∃ pos size, Addition.Named source pos size last? :=
  Element.Lists.exists_of_mem (P := Addition.Named source) h hm

theorem BlockGroup.Named.named_of_mem {names : List (Option (List UInt8))}
    {last? : Option (List UInt8)} (h : Named source pos size names) (hm : last? ∈ names) :
    ∃ pos size, Addition.Named source pos size last? := by
  obtain ⟨all, hlists, rfl⟩ := h
  cases hlast : all.getLast? with
  | none =>
      rw [hlast] at hm
      cases hm
  | some names =>
      rw [hlast] at hm
      obtain ⟨_, _, hnames⟩ := hlists.exists_of_mem (List.mem_of_getLast? hlast)
      exact hnames.named_of_mem hm

instance : LawfulSupplemented BlockAdditions where
  entries_setOffset _ _ := rfl
  named_of_readBody hok ha := by
    cases ha
    exact BlockAdditions.named_of_readBody hok
  unique := BlockAdditions.Named.unique
  named_of_mem := BlockAdditions.Named.named_of_mem

instance : LawfulSupplemented BlockGroup where
  entries_setOffset _ _ := rfl
  named_of_readBody hok ha := by
    cases ha
    exact BlockGroup.named_of_readBody hok
  unique := BlockGroup.Named.unique
  named_of_mem := BlockGroup.Named.named_of_mem

instance : LawfulSupplemented ClusterBlock where
  entries_setOffset b _ := by cases b <;> rfl
  named_of_readBody {source size b b' a cursor cursor'} hok ha := by
    cases b with
    | simple b =>
        obtain ⟨_, _, rfl⟩ := Reader.map_eq_ok.mp hok
        cases ha
    | group g =>
        obtain ⟨_, hgroup, rfl⟩ := Reader.map_eq_ok.mp hok
        cases ha
        exact BlockGroup.named_of_readBody hgroup
  unique := BlockGroup.Named.unique
  named_of_mem := BlockGroup.Named.named_of_mem

/-- Reads into an element what comes after its ID or, where a size is given, its body alone. -/
def Element.fillWith {ε : Type} [Element ε] (size? : Option Nat) : Filling ε Nat :=
  match size? with
  | none => fill
  | some size => fillBody size

/-- What holds after a read: something new if it succeeded, and what held before if it failed. -/
def renewed {σ α : Type} (result : EStateM.Result Error σ α) (new old : Prop) : Prop :=
  match result with
  | .ok _ _ => new
  | .error _ _ => old

theorem renewed_iff_of_ok {σ α : Type} {result : EStateM.Result Error σ α} {new old : Prop}
    (h : errorOf? result = none) : renewed result new old ↔ new := by
  cases result with
  | ok a state => exact Iff.rfl
  | error e state => cases h

section

variable {ε : Type} [Element ε] [Supplemented ε] [LawfulSupplemented ε] {e e' : ε}
  {a a' : BlockAdditions} {cursor cursor' : Cursor} {count start : Nat} {size? : Option Nat}

theorem exists_zero_of_readBody
    (hok : Element.readBody e size source cursor = .ok e' cursor')
    (ha : Supplemented.additions? e' = some a)
    (hplaced : ∀ P, Element.Placed source P start size? ↔ P cursor.pos size) :
    (∃ entry ∈ a.entries, entry.addId = 0) ↔
      Addition.SomeZero source (Supplemented.Named ε) start size? := by
  obtain ⟨names, hnamed, hnumbers⟩ := LawfulSupplemented.named_of_readBody hok ha
  rw [Addition.exists_zero_iff hnumbers fun _ => LawfulSupplemented.named_of_mem hnamed]
  simp only [Addition.SomeZero, hplaced]
  constructor
  · exact fun hzero => ⟨names, hnamed, hzero⟩
  · rintro ⟨names', hnamed', hzero⟩
    cases LawfulSupplemented.unique hnamed hnamed'
    exact hzero

theorem exists_zero_of_read (hok : Element.read e source cursor = .ok (e', count) cursor')
    (ha : Supplemented.additions? e' = some a) :
    (∃ entry ∈ a.entries, entry.addId = 0) ↔
      Addition.SomeZero source (Supplemented.Named ε) cursor.pos none := by
  obtain ⟨size, length, log, -, hsize, hbody⟩ := Element.of_read hok
  refine exists_zero_of_readBody hbody ha fun P => ⟨?_, fun hp => ⟨size, length, hsize, hp⟩⟩
  rintro ⟨size', length', hsize', hp⟩
  cases (hsize.agree hsize').1
  exact hp

variable [Element.Stepwise ε]

/-- A read that succeeds takes the numbers from the stream, and one that fails keeps them. -/
theorem exists_zero_fillWith {zero : Prop} (ha : Supplemented.additions? e = some a)
    (hzero : (∃ entry ∈ a.entries, entry.addId = 0) ↔ zero)
    (ha' : Supplemented.additions?
      (stateOf (Element.fillWith size? source ⟨e, cursor⟩)).object = some a') :
    (∃ entry ∈ a'.entries, entry.addId = 0) ↔
      renewed (Element.fillWith size? source ⟨e, cursor⟩)
        (Addition.SomeZero source (Supplemented.Named ε) cursor.pos size?) zero := by
  cases hresult : Element.fillWith size? source ⟨e, cursor⟩ with
  | ok count state =>
      rw [hresult] at ha'
      cases size? with
      | none => exact exists_zero_of_read (Element.fill_eq_ok.mp hresult) ha'
      | some size =>
          obtain ⟨-, hbody⟩ := Element.fillBody_eq_ok.mp hresult
          exact exists_zero_of_readBody hbody ha' fun _ => Iff.rfl
  | error fault state =>
      rw [hresult] at ha'
      have hentries : (Supplemented.additions? state.object).map BlockAdditions.entries =
          (Supplemented.additions? e).map BlockAdditions.entries := by
        cases size? with
        | none =>
            rw [Element.Stepwise.fill_kept hresult]
            exact LawfulSupplemented.entries_setOffset _ _
        | some size => rw [Element.Stepwise.fillBody_kept hresult]
      have hsame : a'.entries = a.entries := by
        rw [ha, show Supplemented.additions? state.object = some a' from ha'] at hentries
        exact Option.some.inj hentries
      rw [hsame]
      exact hzero

end

end Ebml
