import SourceRecovery.Pdb.Document

/-!
A reader of an image. The parents of custom debug information are gathered when the records of a
document are first asked for, and kept from then on. A walk through records may be left at any
point and taken up again after other calls.
-/
namespace SourceRecovery.Pdb

structure Reader where
  image : Image
  /-- The parent index, once it has been needed. -/
  parents : Option ParentIndex
  deriving DecidableEq, Repr

/-- How far a walk through the records of a document has come. -/
inductive Walk where
  | unstarted (document : Nat)
  | among (rows : List Nat)
  | ended
  deriving DecidableEq, Repr

inductive Answer where
  | record (r : Record)
  | fault (f : Fault)
  | done
  deriving DecidableEq, Repr

namespace Reader

def ofImage (p : Image) : Reader := ⟨p, none⟩

def parentIndex (r : Reader) : Except Fault ParentIndex × Reader :=
  match r.parents with
  | some x => (.ok x, r)
  | none =>
    match r.image.parentIndex with
    | .ok x => (.ok x, { r with parents := some x })
    | .error fault => (.error fault, r)

/-- Takes a walk on by one record. A fault ends the walk. -/
def advance (p : Image) : List Nat → Answer × Walk
  | [] => (.done, .ended)
  | n :: rest =>
    match p.recordAt n with
    | .ok record => (.record record, .among rest)
    | .error fault => (.fault fault, .ended)

def resume (r : Reader) : Walk → (Answer × Walk) × Reader
  | .ended => ((.done, .ended), r)
  | .among rows => (advance r.image rows, r)
  | .unstarted document =>
    match r.parentIndex with
    | (.ok x, r) => (advance r.image (x.rowsOf (documentParent document)), r)
    | (.error fault, r) => ((.fault fault, .ended), r)

def records (r : Reader) (document : Nat) : Sequence Record × Reader :=
  match r.parentIndex with
  | (.ok x, r) => (Sequence.ofSteps r.image.recordAt (x.rowsOf (documentParent document)), r)
  | (.error fault, r) => (.failed fault, r)

def document (r : Reader) (row : Nat) : Except Fault Document := do
  let nameIndex := (← (r.image.row .document row).mapError .overrun).headD 0
  let records := (r.records row).1
  match r.image.documentName nameIndex with
  | .ok name => return { row, name, nameError := none, records }
  | .error e => return { row, name := "", nameError := some e.message, records }

def container (r : Reader) : Container where
  documentCount := r.image.tableRows .document
  documents := Sequence.ofSteps r.document (r.image.rowNumbers .document)

end Reader

/-- An image as a container, read with its parents gathered once for all documents. -/
def Image.container (p : Image) : Container := (Reader.ofImage p).parentIndex.2.container

end SourceRecovery.Pdb
