import Ebml.Bytes.Hex
import Ebml.Bytes.Utf8

/-!
# Errors

One constructor per cause, with the numbers that identify the case.  `Error.message` words a cause
for a reader.  A cause that wraps a failure of the stream, of memory or of a text decoder gives
that failure's own words in `Error.source?`.
-/

namespace Ebml

/-- What the stream answered instead of doing what was asked. -/
inductive StreamFault where
  /-- Fewer bytes were left than an exact read asked for. -/
  | unfilled
  /-- A stream of fixed size had no room for all the bytes. -/
  | unwritten
  /-- Something would have to lie past the end of the stream. -/
  | ended
  /-- A move would have led to a position that is no number of 64 bits. -/
  | unreachable
deriving DecidableEq, Repr, Inhabited

/-- A stream fault in words. -/
def StreamFault.message : StreamFault → String
  | unfilled => "failed to fill whole buffer"
  | unwritten => "failed to write whole buffer"
  | ended => "unexpected end of file"
  | unreachable => "invalid seek to a negative or overflowing position"

/-- Why memory for a body could not be had. -/
inductive MemoryFault where
  /-- The request was made and refused. -/
  | refused
  /-- The request was larger than a collection may be. -/
  | overflow
deriving DecidableEq, Repr, Inhabited

/-- A memory fault in words. -/
def MemoryFault.message : MemoryFault → String
  | refused =>
    "memory allocation failed because the memory allocator returned an error"
  | overflow =>
    "memory allocation failed because the computed capacity exceeded the collection's maximum"

/-- The causes of failure. -/
inductive Error where
  /-- A variable-length integer has no marker bit in its first octet. -/
  | invalidVarInt
  /-- An encoded ID is not an EBML ID. -/
  | invalidEbmlId (id : Nat)
  /-- An element was to get an ID that is not an EBML ID. -/
  | invalidElementId (id : Nat)
  /-- An element contains a child that it may not have. -/
  | invalidChildId (parent child : Nat)
  /-- A value is too large for a variable-length integer. -/
  | varIntTooBig (value : Nat)
  /-- A buffer is too small for what it should hold. -/
  | bufferTooSmall (required available : Nat)
  /-- A block holds as many frames as its lacing allows. -/
  | maxLaceSizeExceeded
  /-- The bytes consumed by a body differ from its declared size. -/
  | badBodySize (id declared consumed : Nat)
  /-- A mandatory child is missing. -/
  | missingChild (parent child : Nat)
  /-- A block without frames was to be written. -/
  | emptyBlock
  /-- A frame is empty. -/
  | emptyFrame
  /-- The sizes in a lace are inconsistent. -/
  | badLacedFrameSize
  /-- The stream failed while reading. -/
  | readError (fault : StreamFault)
  /-- The stream failed while writing. -/
  | writeError (fault : StreamFault)
  /-- A value lies outside the range of its field, which `rule` states. -/
  | valueOutOfRange (rule : String)
  /-- A value has another type than the element holds. -/
  | valueTypeMismatch
  /-- A cluster was not prepared. -/
  | clusterNotOpen
  /-- A cluster was prepared already. -/
  | clusterAlreadyOpen
  /-- The output moved while a cluster was open. -/
  | interleavedWrite (expected found : Nat)
  /-- A body is larger than anything that should be read or written. -/
  | tooMuchData
  /-- Memory for a body could not be had. -/
  | alloc (fault : MemoryFault)
  /-- The bytes of a string are not UTF-8. -/
  | stringFromUtf8 (fault : Utf8.Fault)
deriving DecidableEq, Repr, Inhabited

namespace Error

/-- Whether the stream failed, and not the data in it. -/
def isStreamFault : Error → Bool
  | readError _ | writeError _ => true
  | _ => false

/-- The words of the failure that the cause wraps. -/
def source? : Error → Option String
  | readError fault | writeError fault => some fault.message
  | alloc fault => some fault.message
  | stringFromUtf8 fault => some fault.message
  | _ => none

/-- The cause in words. -/
def message : Error → String
  | invalidVarInt => "Encountered a variable-length integer with no marker bit"
  | invalidEbmlId id => "Encountered an invalid EBML ID: " ++ hex id
  | invalidElementId id => "Attempted to use an invalid element ID: " ++ hex id
  | invalidChildId parent child =>
    "Element " ++ hex parent ++ " cannot contain a child with the ID " ++ hex child
  | varIntTooBig value =>
    s!"The value {value} is too large to store in a variable-length integer"
  | bufferTooSmall required available =>
    s!"Buffer too small: {required} bytes are required, only {available} are available"
  | maxLaceSizeExceeded => "The block cannot hold any more frames with its current lacing"
  | badBodySize id declared consumed =>
    "Element " ++ hex id ++ s!" declared a body of {declared} bytes, but {consumed} were consumed"
  | missingChild parent child =>
    "Element " ++ hex parent ++ " is missing its mandatory child " ++ hex child
  | emptyBlock => "Attempted to write a block with no frames"
  | emptyFrame => "Encountered an empty frame"
  | badLacedFrameSize => "The laced frame sizes do not agree with the block contents"
  | readError fault => "Failed to read from the stream: " ++ fault.message
  | writeError fault => "Failed to write to the stream: " ++ fault.message
  | valueOutOfRange rule => s!"Value out of range: {rule}"
  | valueTypeMismatch =>
    "Attempted to store a value of a different type in a primitive element"
  | clusterNotOpen => "The cluster must be prepared before this operation"
  | clusterAlreadyOpen => "The cluster has already been prepared"
  | interleavedWrite expected found =>
    "The output was modified while a cluster was open " ++
      s!"(expected position {expected}, found {found})"
  | tooMuchData => "Attempted to read/write an abnormally large amount of data"
  | alloc fault => fault.message
  | stringFromUtf8 fault => fault.message

end Error

end Ebml
