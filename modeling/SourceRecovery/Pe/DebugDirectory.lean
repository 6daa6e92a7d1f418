import SourceRecovery.Pdb.Image
import SourceRecovery.Pe.Image

/-!
The debug directory of an image, and the Portable PDBs embedded in it. Each embedded PDB is opened
on its own, so a bad entry is reported in its place and the rest is still found.
-/
namespace SourceRecovery.Pe

structure DebugEntry where
  index : Nat
  kind : Nat
  majorVersion : Nat
  minorVersion : Nat
  size : Nat
  address : Nat
  pointer : Nat
  deriving DecidableEq, Repr

def debugEntrySize : Nat := 28

def embeddedPdbKind : Nat := 17

def DebugEntry.isEmbeddedPdb (e : DebugEntry) : Bool := e.kind = embeddedPdbKind

def DebugEntry.ofFields (index : Nat) (fields : Bytes) : DebugEntry where
  index := index
  majorVersion := Bytes.toNatLE (fields.slice 8 2)
  minorVersion := Bytes.toNatLE (fields.slice 10 2)
  kind := Bytes.toNatLE (fields.slice 12 4)
  size := Bytes.toNatLE (fields.slice 16 4)
  address := Bytes.toNatLE (fields.slice 20 4)
  pointer := Bytes.toNatLE (fields.slice 24 4)

def debugEntriesAt (data : Bytes) :
    (count index offset : Nat) → Except FormatError (List DebugEntry)
  | 0, _, _ => .ok []
  | count + 1, index, offset =>
    if data.length < offset + debugEntrySize then .error .directoryPastEnd
    else do
      let entry := DebugEntry.ofFields index (data.slice offset debugEntrySize)
      return entry :: (← debugEntriesAt data count (index + 1) (offset + debugEntrySize))

namespace Image

def debugEntries (p : Image) : Except FormatError (List DebugEntry) :=
  match p.debugDirectory with
  | none => .ok []
  | some directory =>
    match p.offset? directory.address with
    | none => .error (.directoryUnmapped directory.address)
    | some offset => debugEntriesAt p.data (directory.size / debugEntrySize) 0 offset

/-- Where an entry's data begins: its file pointer or, where that is zero, its address. -/
def entryStart (p : Image) (e : DebugEntry) : Nat :=
  if e.pointer ≠ 0 then e.pointer
  else if e.address ≠ 0 then (p.offset? e.address).getD 0
  else 0

def entryData (p : Image) (e : DebugEntry) : Except EntryError Bytes :=
  let start := p.entryStart e
  if start = 0 ∨ p.data.length < start + e.size then .error ⟨e.index, .outOfRange⟩
  else .ok (p.data.slice start e.size)

/-- The Portable PDB in the data of an entry: a signature, its size and its Deflate stream. -/
def unpackPdb (index : Nat) (data : Bytes) : Except EntryError Bytes :=
  if data.length < 8 ∨ data.take 4 ≠ Signature.embeddedPdb then
    .error ⟨index, .missingSignature⟩
  else
    (inflateExact (data.drop 8) (Bytes.toNatLE (data.slice 4 4))).mapError fun e =>
      ⟨index, .payload e⟩

def embeddedPdb (p : Image) (e : DebugEntry) : Except EntryError Bytes := do
  unpackPdb e.index (← p.entryData e)

def embeddedEntries (p : Image) : Except FormatError (List DebugEntry) :=
  p.debugEntries.map (·.filter DebugEntry.isEmbeddedPdb)

inductive OpenError where
  | entry (e : EntryError)
  | pdb (e : Pdb.FormatError)
  deriving DecidableEq, Repr

def OpenError.message : OpenError → String
  | .entry e => e.message
  | .pdb e => e.message

def openEntry (p : Image) (e : DebugEntry) : Except OpenError Pdb.Image := do
  let data ← (p.embeddedPdb e).mapError .entry
  (Pdb.Image.read data).mapError .pdb

/-- Each entry that embeds a PDB, with the PDB or the reason why it cannot be opened. -/
def openEmbedded (p : Image) :
    Except FormatError (List (DebugEntry × Except OpenError Pdb.Image)) :=
  p.embeddedEntries.map (·.map fun e => (e, p.openEntry e))

end Image
end SourceRecovery.Pe
