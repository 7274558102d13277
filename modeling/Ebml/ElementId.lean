import Ebml.Bytes.BigEndian
import Ebml.Error

/-!
# Element IDs

An ID is a number of one to eight octets that keeps its length marker: the first octet has one
leading zero fewer than the ID has octets.  The ID whose other bits are all ones is reserved in
each length.  `IsElementId` says this of a number, and an `ElementId` is a number for which it
holds, so every `ElementId` can be written.
-/

namespace Ebml

/-- A number is an element ID: its first octet marks the length that the number has, and the
bits after the marker are not all ones. -/
def IsElementId (value : Nat) : Prop :=
  value ≠ 0 ∧
    (value / 256 ^ (byteLength value - 1)).log2 + byteLength value = 8 ∧
    value ≠ 2 ^ (7 * byteLength value + 1) - 1

instance : DecidablePred IsElementId := fun _ => inferInstanceAs (Decidable (_ ∧ _ ∧ _))

/-- The ID of an element, as IDs are listed: the marker bit is part of the number. -/
structure ElementId where
  /-- The number. -/
  value : Nat
  /-- The number is an ID. -/
  valid : IsElementId value
deriving DecidableEq

namespace ElementId

/-- The number of octets of the ID. -/
def size (id : ElementId) : Nat := byteLength id.value

/-- An ID has at least one octet. -/
theorem size_pos (id : ElementId) : 0 < id.size := byteLength_pos id.valid.1

/-- The ID with a given number, for an element that is to be made. -/
def ofValue (value : Nat) : Except Error ElementId :=
  if valid : IsElementId value then .ok ⟨value, valid⟩ else .error (.invalidElementId value)

/-- The ID with a given number, where the number is a coded one. -/
def verify (value : Nat) : Except Error ElementId :=
  if valid : IsElementId value then .ok ⟨value, valid⟩ else .error (.invalidEbmlId value)

/-- The ID as log messages show it. -/
def inspect (id : ElementId) : String := "ElementId(" ++ hex id.value ++ ")"

/-! ## IDs that the library reads or writes itself -/

/-- Void element, used to reserve space. -/
def void : ElementId := ⟨0xEC, by decide⟩

/-- CRC-32 of the parent's other children. -/
def crc32 : ElementId := ⟨0xBF, by decide⟩

/-- A cluster of blocks. -/
def cluster : ElementId := ⟨0x1F43B675, by decide⟩

/-- The base timecode of a cluster. -/
def timecode : ElementId := ⟨0xE7, by decide⟩

/-- The tracks that are silent in a cluster. -/
def silentTracks : ElementId := ⟨0x5854, by decide⟩

/-- A single silent track number. -/
def silentTrackNumber : ElementId := ⟨0x58D7, by decide⟩

/-- The position of a cluster in its segment. -/
def position : ElementId := ⟨0xA7, by decide⟩

/-- The size of the cluster before. -/
def prevSize : ElementId := ⟨0xAB, by decide⟩

/-- A block without extra information. -/
def simpleBlock : ElementId := ⟨0xA3, by decide⟩

/-- A block along with its extra information. -/
def blockGroup : ElementId := ⟨0xA0, by decide⟩

/-- The block of a block group. -/
def block : ElementId := ⟨0xA1, by decide⟩

/-- Additional data attached to a block. -/
def blockAdditions : ElementId := ⟨0x75A1, by decide⟩

/-- A single block addition. -/
def blockMore : ElementId := ⟨0xA6, by decide⟩

/-- The ID that says how a block addition is meant. -/
def blockAddId : ElementId := ⟨0xEE, by decide⟩

/-- The data of a block addition. -/
def blockAdditional : ElementId := ⟨0xA5, by decide⟩

/-- The duration of a block. -/
def blockDuration : ElementId := ⟨0x9B, by decide⟩

/-- The priority of a block that others refer to. -/
def referencePriority : ElementId := ⟨0xFA, by decide⟩

/-- The timecode of a block that this one refers to. -/
def referenceBlock : ElementId := ⟨0xFB, by decide⟩

/-- The codec state from a block on. -/
def codecState : ElementId := ⟨0xA4, by decide⟩

end ElementId

end Ebml
