import SourceRecovery.Container
import SourceRecovery.Pdb.Image
import SourceRecovery.Pdb.ParentIndex

/-!
What the rows of a Portable PDB point to: blobs, GUIDs, document names, and the records of custom
debug information gathered by the parents that they name.
-/
namespace SourceRecovery.Pdb.Image

/-- A blob by its index; index 0 is the empty blob. -/
def blob (p : Image) (index : Nat) : Except HeapError Bytes :=
  if index = 0 then .ok []
  else if p.blobHeap.length ≤ index then .error (.blobIndex index)
  else do
    let (length, start) ← (Compressed.read p.blobHeap index).mapError .length
    if p.blobHeap.length < start + length then .error (.blobPastHeap index)
    else .ok (p.blobHeap.slice start length)

/-- A GUID by its index, the first being 1; index 0 is the nil GUID. -/
def guid (p : Image) (index : Nat) : Except HeapError Guid :=
  if index = 0 then .ok .nil
  else if p.guidHeap.length < index * 16 then .error (.guidIndex index)
  else .ok (Guid.ofBytes (p.guidHeap.slice (index * 16 - 16) 16))

/-- The parts of a document name, read from `offset` on: blob indexes up to the end of the name's
own blob. Each index takes a byte at least, so `fuel` is the length of the blob. -/
def nameParts (p : Image) (name : Bytes) :
    (fuel offset : Nat) → Except HeapError (List String)
  | 0, _ => .ok []
  | fuel + 1, offset =>
    if name.length ≤ offset then .ok []
    else do
      let (index, next) ← (Compressed.read name offset).mapError .length
      let part ← p.blob index
      return Utf8.decodeLenient part :: (← nameParts p name fuel next)

/-- The separator that the first byte of a name stands for; zero is no separator. -/
def separator (b : UInt8) : String := if b = 0 then "" else (Char.ofNat b.toNat).toString

def documentName (p : Image) (index : Nat) : Except HeapError String := do
  match ← p.blob index with
  | [] => return ""
  | first :: rest =>
    let name := first :: rest
    return (separator first).intercalate (← p.nameParts name name.length 1)

structure DebugRow where
  parent : Nat
  kind : Nat
  value : Nat
  deriving DecidableEq, Repr

def debugRow (p : Image) (n : Nat) : Except Overrun DebugRow := do
  match ← p.row .customDebugInformation n with
  | [parent, kind, value] => return ⟨parent, kind, value⟩
  | _ => return ⟨0, 0, 0⟩

def record (p : Image) (r : DebugRow) : Except HeapError Record := do
  let kind ← p.guid r.kind
  let value ← p.blob r.value
  return ⟨kind, value⟩

def heapFault (e : HeapError) : Fault := .format e.message

def rowNumbers (p : Image) (t : Table) : List Nat := List.range' 1 (p.tableRows t)

def recordAt (p : Image) (n : Nat) : Except Fault Record := do
  (p.record (← (p.debugRow n).mapError .overrun)).mapError heapFault

/-- Gathers rows by their parents; a row that cannot be read leaves no index. -/
def gatherParents (p : Image) : List Nat → ParentIndex → Except Fault ParentIndex
  | [], x => .ok x
  | n :: rest, x => do
    let row ← (p.debugRow n).mapError .overrun
    gatherParents p rest (x.add row.parent n)

def parentIndex (p : Image) : Except Fault ParentIndex :=
  p.gatherParents (p.rowNumbers .customDebugInformation) .empty

end SourceRecovery.Pdb.Image
