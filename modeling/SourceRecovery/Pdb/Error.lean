import SourceRecovery.Pdb.Compressed

/-!
What can be wrong with a Portable PDB. An image is refused as a whole when its headers or tables do
not hold together; a heap index that leads nowhere spoils only what it names.
-/
namespace SourceRecovery.Pdb

inductive FormatError where
  | truncated (e : Overrun)
  | missingHeapSizes
  | windowsPdb
  | missingSignature
  | versionOutOfRange
  | unterminatedStreamName
  | streamOutOfRange (name : String)
  | missingPdbStream
  | missingTableStream
  | truncatedPdbStream
  | unexpectedTable (number : Nat)
  | tablesPastStream
  deriving DecidableEq, Repr

def FormatError.message : FormatError → String
  | .truncated e => "truncated metadata: " ++ e.message
  | .missingHeapSizes => "truncated metadata: index out of range"
  | .windowsPdb => "Windows PDB (MSF) files carry no Portable PDB metadata"
  | .missingSignature => "missing metadata root signature"
  | .versionOutOfRange => "metadata version string out of range"
  | .unterminatedStreamName => "unterminated stream name"
  | .streamOutOfRange name => s!"stream {name} out of range"
  | .missingPdbStream => "missing #Pdb stream, not a Portable PDB"
  | .missingTableStream => "missing #~ table stream"
  | .truncatedPdbStream => "#Pdb stream is truncated"
  | .unexpectedTable number =>
    "unexpected table 0x" ++ hexPadded 2 number ++ " in Portable PDB"
  | .tablesPastStream => "table data extends past the #~ stream"

inductive HeapError where
  | blobIndex (index : Nat)
  | blobPastHeap (index : Nat)
  | guidIndex (index : Nat)
  | length (e : Compressed.Error)
  deriving DecidableEq, Repr

def HeapError.message : HeapError → String
  | .blobIndex index => s!"blob index {index} out of range"
  | .blobPastHeap index => s!"blob at {index} extends past the heap"
  | .guidIndex index => s!"guid index {index} out of range"
  | .length e => e.message

end SourceRecovery.Pdb
