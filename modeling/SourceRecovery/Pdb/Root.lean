import SourceRecovery.Pdb.Error
import SourceRecovery.Signature
import SourceRecovery.Text.Utf8

/-!
The metadata root: a version string and named streams that may lie anywhere in the file. Of streams
with one name the first counts.
-/
namespace SourceRecovery.Pdb

structure Stream where
  name : String
  data : Bytes
  deriving DecidableEq, Repr

structure Root where
  version : String
  streams : List Stream
  deriving DecidableEq, Repr

def Root.stream? (r : Root) (name : String) : Option Bytes :=
  (r.streams.find? (·.name = name)).map (·.data)

def uint (data : Bytes) (width offset : Nat) : Except FormatError Nat :=
  (data.uintAt width offset).mapError .truncated

/-- The bytes a stream name takes: its terminating zero and padding to four bytes are included. -/
def paddedNameSize (length : Nat) : Nat := (length / 4 + 1) * 4

/-- The stream whose header is at `offset`, and the offset of the next header. -/
def streamAt (data : Bytes) (offset : Nat) : Except FormatError (Stream × Nat) := do
  let header ← (data.field offset 8).mapError .truncated
  let start := Bytes.toNatLE (header.take 4)
  let size := Bytes.toNatLE (header.drop 4)
  let following : Bytes := data.drop (offset + 8)
  let name := Bytes.untilZero following
  if name.length = following.length then .error .unterminatedStreamName
  else
    let text := Ascii.decodeLenient name
    if data.length < start + size then .error (.streamOutOfRange text)
    else .ok (⟨text, data.slice start size⟩, offset + 8 + paddedNameSize name.length)

def streamsAt (data : Bytes) : (count offset : Nat) → Except FormatError (List Stream)
  | 0, _ => .ok []
  | count + 1, offset => do
    let (stream, next) ← streamAt data offset
    return stream :: (← streamsAt data count next)

def Root.read (data : Bytes) : Except FormatError Root := do
  if !Signature.isPortablePdb data then
    .error (if Signature.isWindowsPdb data then .windowsPdb else .missingSignature)
  else
    let versionLength ← uint data 4 12
    let versionEnd := 16 + versionLength
    if data.length < versionEnd then .error .versionOutOfRange
    else
      let count ← uint data 2 (versionEnd + 2)
      return {
        version := Ascii.decodeLenient (Bytes.untilZero (data.slice 16 versionLength))
        streams := ← streamsAt data count (versionEnd + 4) }

end SourceRecovery.Pdb
