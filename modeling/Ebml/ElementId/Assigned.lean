import Ebml.ElementId

/-!
# Assigned IDs

The IDs of the EBML header and of the Segment, SeekHead, Info, Tracks and Cluster levels, with
their names.  Every other valid ID is unassigned here and has no name.
-/

namespace Ebml.ElementId

/-- The assigned IDs by name, in the order of the levels. -/
def assigned : List (String × ElementId) :=
  [ ("NULL", ⟨0x80, by decide⟩),
    ("VOID", .void),
    ("CRC32", .crc32),
    ("EBML", ⟨0x1A45DFA3, by decide⟩),
    ("EBML_VERSION", ⟨0x4286, by decide⟩),
    ("EBML_READ_VERSION", ⟨0x42F7, by decide⟩),
    ("EBML_MAX_ID_LENGTH", ⟨0x42F2, by decide⟩),
    ("EBML_MAX_SIZE_LENGTH", ⟨0x42F3, by decide⟩),
    ("DOC_TYPE", ⟨0x4282, by decide⟩),
    ("DOC_TYPE_VERSION", ⟨0x4287, by decide⟩),
    ("DOC_TYPE_READ_VERSION", ⟨0x4285, by decide⟩),
    ("SEGMENT", ⟨0x18538067, by decide⟩),
    ("SEEK_HEAD", ⟨0x114D9B74, by decide⟩),
    ("SEEK", ⟨0x4DBB, by decide⟩),
    ("SEEK_ID", ⟨0x53AB, by decide⟩),
    ("SEEK_POSITION", ⟨0x53AC, by decide⟩),
    ("INFO", ⟨0x1549A966, by decide⟩),
    ("SEGMENT_UID", ⟨0x73A4, by decide⟩),
    ("SEGMENT_FILENAME", ⟨0x7384, by decide⟩),
    ("TIMECODE_SCALE", ⟨0x2AD7B1, by decide⟩),
    ("DURATION", ⟨0x4489, by decide⟩),
    ("DATE_UTC", ⟨0x4461, by decide⟩),
    ("TITLE", ⟨0x7BA9, by decide⟩),
    ("MUXING_APP", ⟨0x4D80, by decide⟩),
    ("WRITING_APP", ⟨0x5741, by decide⟩),
    ("TRACKS", ⟨0x1654AE6B, by decide⟩),
    ("TRACK_ENTRY", ⟨0xAE, by decide⟩),
    ("TRACK_NUMBER", ⟨0xD7, by decide⟩),
    ("TRACK_UID", ⟨0x73C5, by decide⟩),
    ("TRACK_TYPE", ⟨0x83, by decide⟩),
    ("FLAG_ENABLED", ⟨0xB9, by decide⟩),
    ("FLAG_DEFAULT", ⟨0x88, by decide⟩),
    ("FLAG_FORCED", ⟨0x55AA, by decide⟩),
    ("FLAG_LACING", ⟨0x9C, by decide⟩),
    ("MIN_CACHE", ⟨0x6DE7, by decide⟩),
    ("MAX_CACHE", ⟨0x6DF8, by decide⟩),
    ("DEFAULT_DURATION", ⟨0x23E383, by decide⟩),
    ("TRACK_TIMECODE_SCALE", ⟨0x23314F, by decide⟩),
    ("NAME", ⟨0x536E, by decide⟩),
    ("LANGUAGE", ⟨0x22B59C, by decide⟩),
    ("CODEC_ID", ⟨0x86, by decide⟩),
    ("CODEC_PRIVATE", ⟨0x63A2, by decide⟩),
    ("CODEC_NAME", ⟨0x258688, by decide⟩),
    ("CODEC_DECODE_ALL", ⟨0xAA, by decide⟩),
    ("TRACK_OVERLAY", ⟨0x6FAB, by decide⟩),
    ("CLUSTER", .cluster),
    ("TIMECODE", .timecode),
    ("SILENT_TRACKS", .silentTracks),
    ("SILENT_TRACK_NUMBER", .silentTrackNumber),
    ("POSITION", .position),
    ("PREV_SIZE", .prevSize),
    ("SIMPLE_BLOCK", .simpleBlock),
    ("BLOCK_GROUP", .blockGroup),
    ("BLOCK", .block),
    ("BLOCK_ADDITIONS", .blockAdditions),
    ("BLOCK_MORE", .blockMore),
    ("BLOCK_ADD_ID", .blockAddId),
    ("BLOCK_ADDITIONAL", .blockAdditional),
    ("BLOCK_DURATION", .blockDuration),
    ("REFERENCE_PRIORITY", .referencePriority),
    ("REFERENCE_BLOCK", .referenceBlock),
    ("CODEC_STATE", .codecState),
    ("CUES", ⟨0x1C53BB6B, by decide⟩),
    ("ATTACHMENTS", ⟨0x1941A469, by decide⟩),
    ("CHAPTERS", ⟨0x1043A770, by decide⟩),
    ("TAGS", ⟨0x1254C367, by decide⟩) ]

/-- The ID that a name is assigned to. -/
def named? (name : String) : Option ElementId := assigned.lookup name

/-- The name that is assigned to an ID. -/
def name? (id : ElementId) : Option String :=
  (assigned.find? fun entry => entry.2 = id).map Prod.fst

end Ebml.ElementId
