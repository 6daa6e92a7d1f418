import SourceRecovery.Pdb.Root
import SourceRecovery.Pdb.Table

/-!
A Portable PDB: the heaps that its rows point into and the debug tables, laid out one after the
other in ascending order of their numbers.
-/
namespace SourceRecovery.Pdb

abbrev RowCounts := List (Nat × Nat)

structure Image where
  version : String
  id : Bytes
  entryPoint : Nat
  blobHeap : Bytes
  guidHeap : Bytes
  tableStream : Bytes
  wideStrings : Bool
  wideGuids : Bool
  wideBlobs : Bool
  /-- Row counts of the tables of the assembly. -/
  referenced : RowCounts
  /-- The debug tables present with their row counts, in the order in which they lie. -/
  present : List (Table × Nat)
  /-- Where the first row begins in the table stream. -/
  rowsStart : Nat
  deriving DecidableEq, Repr

def bitsSet (mask : Nat) : List Nat := (List.range 64).filter mask.testBit

def rowCountsAt (stream : Bytes) : (offset : Nat) → List Nat → Except FormatError RowCounts
  | _, [] => .ok []
  | offset, table :: rest => do
    let count ← uint stream 4 offset
    return (table, count) :: (← rowCountsAt stream (offset + 4) rest)

def debugRowCountsAt (stream : Bytes) :
    (offset : Nat) → List Nat → Except FormatError (List (Table × Nat))
  | _, [] => .ok []
  | offset, number :: rest =>
    match Table.ofNumber? number with
    | none => .error (.unexpectedTable number)
    | some table => do
      let count ← uint stream 4 offset
      return (table, count) :: (← debugRowCountsAt stream (offset + 4) rest)

def idSize : Nat := 20

structure PdbStream where
  id : Bytes
  entryPoint : Nat
  referenced : RowCounts
  deriving DecidableEq, Repr

def PdbStream.read (stream : Bytes) : Except FormatError PdbStream :=
  if stream.length < idSize then .error .truncatedPdbStream
  else do
    let fields ← (stream.field idSize 12).mapError .truncated
    let referenced ← rowCountsAt stream (idSize + 12) (bitsSet (Bytes.toNatLE (fields.drop 4)))
    return ⟨stream.take idSize, Bytes.toNatLE (fields.take 4), referenced⟩

namespace Image

def debugRowCount? (p : Image) (number : Nat) : Option Nat :=
  (p.present.find? fun (table, _) => table.number = number).map Prod.snd

/-- The row count of any table. The table stream has the last word on debug tables. -/
def rowCount (p : Image) (number : Nat) : Nat :=
  (p.debugRowCount? number).getD ((p.referenced.lookup number).getD 0)

def sizes (p : Image) : Sizes := ⟨p.wideStrings, p.wideGuids, p.wideBlobs, p.rowCount⟩

structure Extent where
  table : Table
  start : Nat
  rows : Nat
  deriving DecidableEq, Repr

def extentsFrom (s : Sizes) : (start : Nat) → List (Table × Nat) → List Extent
  | _, [] => []
  | start, (table, rows) :: rest =>
    ⟨table, start, rows⟩ :: extentsFrom s (start + s.rowWidth table * rows) rest

def extents (p : Image) : List Extent := extentsFrom p.sizes p.rowsStart p.present

def rowsSize (p : Image) : Nat :=
  (p.present.map fun (table, rows) => p.sizes.rowWidth table * rows).sum

def tableRows (p : Image) (t : Table) : Nat := (p.debugRowCount? t.number).getD 0

def splitColumns : List Nat → Bytes → List Nat
  | [], _ => []
  | width :: rest, data => Bytes.toNatLE (data.take width) :: splitColumns rest (data.drop width)

def startOf (p : Image) (t : Table) : Nat :=
  ((p.extents.find? (·.table = t)).map (·.start)).getD p.rowsStart

/-- The column values of row `n` of a table, the first row being 1. -/
def row (p : Image) (t : Table) (n : Nat) : Except Overrun (List Nat) := do
  let width := p.sizes.rowWidth t
  let data ← p.tableStream.field (p.startOf t + (n - 1) * width) width
  return splitColumns (t.columns.map p.sizes.width) data

/-- The image of a table stream with these heap sizes and row counts. The counts are followed by
four more bytes where a flag says so. -/
def ofCounts (version : String) (pdb : PdbStream) (blobHeap guidHeap stream : Bytes)
    (heapSizes : UInt8) (present : List (Table × Nat)) : Image where
  version
  id := pdb.id
  entryPoint := pdb.entryPoint
  blobHeap
  guidHeap
  tableStream := stream
  wideStrings := heapSizes &&& 0x01 != 0
  wideGuids := heapSizes &&& 0x02 != 0
  wideBlobs := heapSizes &&& 0x04 != 0
  referenced := pdb.referenced
  present
  rowsStart := 24 + 4 * present.length + (if heapSizes &&& 0x40 != 0 then 4 else 0)

def ofTableStream (version : String) (pdb : PdbStream) (blobHeap guidHeap stream : Bytes) :
    Except FormatError Image :=
  match (stream[6]? : Option UInt8) with
  | none => .error .missingHeapSizes
  | some heapSizes => do
    let valid ← uint stream 8 8
    let present ← debugRowCountsAt stream 24 (bitsSet valid)
    let p := ofCounts version pdb blobHeap guidHeap stream heapSizes present
    if stream.length < p.rowsStart + p.rowsSize then .error .tablesPastStream else return p

def ofRoot (r : Root) : Except FormatError Image :=
  match r.stream? "#Pdb" with
  | none => .error .missingPdbStream
  | some pdb =>
    match (r.stream? "#~").or (r.stream? "#-") with
    | none => .error .missingTableStream
    | some stream => do
      ofTableStream r.version (← PdbStream.read pdb) ((r.stream? "#Blob").getD [])
        ((r.stream? "#GUID").getD []) stream

def read (data : Bytes) : Except FormatError Image := do ofRoot (← Root.read data)

end Image
end SourceRecovery.Pdb
