import Ebml.Error
import Ebml.Text.Quoted

/-!
# Errors spelled out

`Error.kind` names a cause by one word, and `Error.inspect?` writes it with its fields, as
`MissingChild` followed by the numbers of the parent and the child.  A cause that wraps another
failure has no such form, since that failure keeps its details to itself.
-/

namespace Ebml.Error

/-- The name of the cause. -/
def kind : Error → String
  | invalidVarInt => "InvalidVarInt"
  | invalidEbmlId _ => "InvalidEbmlId"
  | invalidElementId _ => "InvalidElementId"
  | invalidChildId _ _ => "InvalidChildId"
  | varIntTooBig _ => "VarIntTooBig"
  | bufferTooSmall _ _ => "BufferTooSmall"
  | maxLaceSizeExceeded => "MaxLaceSizeExceeded"
  | badBodySize _ _ _ => "BadBodySize"
  | missingChild _ _ => "MissingChild"
  | emptyBlock => "EmptyBlock"
  | emptyFrame => "EmptyFrame"
  | badLacedFrameSize => "BadLacedFrameSize"
  | readError _ => "ReadError"
  | writeError _ => "WriteError"
  | valueOutOfRange _ => "ValueOutOfRange"
  | valueTypeMismatch => "ValueTypeMismatch"
  | clusterNotOpen => "ClusterNotOpen"
  | clusterAlreadyOpen => "ClusterAlreadyOpen"
  | interleavedWrite _ _ => "InterleavedWrite"
  | tooMuchData => "TooMuchData"
  | alloc _ => "Alloc"
  | stringFromUtf8 _ => "StringFromUtf8"

/-- The fields of a cause, as an inspection shows them. -/
inductive Fields where
  /-- No field. -/
  | none
  /-- One field, written without a name. -/
  | plain (text : String)
  /-- Named fields. -/
  | named (fields : List (String × Nat))

/-- The fields of a cause that wraps no other failure. -/
def fields? : Error → Option Fields
  | invalidEbmlId id | invalidElementId id => some (.plain (toString id))
  | varIntTooBig value => some (.plain (toString value))
  | valueOutOfRange rule => some (.plain (Text.quote rule))
  | invalidChildId parent child => some (.named [("parent", parent), ("child", child)])
  | missingChild parent child => some (.named [("parent", parent), ("child", child)])
  | bufferTooSmall required available =>
    some (.named [("required", required), ("available", available)])
  | badBodySize id declared consumed =>
    some (.named [("id", id), ("declared", declared), ("consumed", consumed)])
  | interleavedWrite expected found =>
    some (.named [("expected", expected), ("found", found)])
  | readError _ | writeError _ | alloc _ | stringFromUtf8 _ => none
  | _ => some .none

/-- The fields after the name of their cause. -/
def Fields.render : Fields → String
  | none => ""
  | plain text => "(" ++ text ++ ")"
  | named fields =>
    " \x7b " ++ ", ".intercalate (fields.map fun (name, n) => name ++ ": " ++ toString n) ++ " \x7d"

/-- The cause with its fields, unless it wraps another failure. -/
def inspect? (error : Error) : Option String :=
  error.fields?.map fun fields => error.kind ++ fields.render

end Ebml.Error
