import SourceRecovery.Container
import SourceRecovery.Payload

/-!
Recovering the source text of every document of a container. A document that cannot be read is
reported and does not hide the others.
-/
namespace SourceRecovery

structure ExtractedFile where
  name : String
  text : String
  compressed : Bool
  deriving DecidableEq, Repr

structure ExtractionIssue where
  document : String
  reason : String
  deriving DecidableEq, Repr

inductive Extracted where
  | file (f : ExtractedFile)
  | issue (i : ExtractionIssue)
  deriving DecidableEq, Repr

def embeddedSourceKind : Guid := Guid.ofNat 0x0E8A571B6926466EB4AD8AB04611F5FE

/-- The value of the first embedded-source record. A fault counts only if it comes before. -/
def selectSource (records : Sequence Record) : Except Fault (Option Bytes) :=
  match records.items.find? (·.kind = embeddedSourceKind) with
  | some record => .ok (some record.value)
  | none =>
    match records.fault with
    | some fault => .error fault
    | none => .ok none

def recover (records : Sequence Record) : Except Fault (Option (Payload × String)) := do
  match ← selectSource records with
  | none => return none
  | some blob =>
    let decodeFault := fun (e : DecodeError) => Fault.decode e.message
    let payload ← (Payload.ofBlob blob).mapError decodeFault
    return some (payload, ← payload.text.mapError decodeFault)

/-- What a document contributes. Malformed content is an issue; any other fault goes through. An
empty name error says nothing and counts as none. -/
def contribution (d : Document) : Except Fault (Option Extracted) :=
  match d.nameError.filter (· ≠ "") with
  | some reason => .ok (some (.issue ⟨s!"document row {d.row}", reason⟩))
  | none =>
    if d.name = "" then .ok none
    else
      match recover d.records with
      | .error (.format reason) | .error (.decode reason) =>
        .ok (some (.issue ⟨d.name, reason⟩))
      | .error fault => .error fault
      | .ok none => .ok none
      | .ok (some (payload, text)) =>
        if text = "" then .ok none
        else .ok (some (.file ⟨d.name, text, payload.compressed⟩))

/-- The contributions of documents, up to a fault that goes through. -/
def contributions (documents : List Document) : Sequence Extracted :=
  let steps := Sequence.ofSteps contribution documents
  ⟨steps.items.filterMap id, steps.fault⟩

def extract (c : Container) : Sequence Extracted :=
  (contributions c.documents.items).append ⟨[], c.documents.fault⟩

end SourceRecovery
