import SourceRecovery.Extraction
import SourceRecovery.Output

/-!
What is reported about an input while it is read and written, its one-line description, and the
counts kept over a run.
-/
namespace SourceRecovery

structure ContainerIssue where
  source : String
  reason : String
  deriving DecidableEq, Repr

structure ContainerOpened where
  source : String
  documents : Nat
  deriving DecidableEq, Repr

structure InputSkipped where
  source : String
  reason : String
  deriving DecidableEq, Repr

inductive Event where
  | opened (o : ContainerOpened)
  | file (f : ExtractedFile)
  | extractionIssue (i : ExtractionIssue)
  | containerIssue (i : ContainerIssue)
  | skipped (s : InputSkipped)
  deriving DecidableEq, Repr

/-- What extracting an input yields: recovered files are written. -/
inductive Outcome where
  | opened (o : ContainerOpened)
  | written (f : Output.WrittenFile)
  | extractionIssue (i : ExtractionIssue)
  | writeIssue (i : Output.WriteIssue)
  | containerIssue (i : ContainerIssue)
  | skipped (s : InputSkipped)
  deriving DecidableEq, Repr

def Outcome.describe : Outcome → String
  | .opened o => s!"Open: {o.source} ({o.documents} documents)"
  | .written f => "Extract: " ++ f.path.render
  | .extractionIssue i => s!"Failed: {i.document}, {i.reason}"
  | .writeIssue i => s!"Failed: {i.path}, {i.reason}"
  | .containerIssue i => s!"Failed: {i.source}, {i.reason}"
  | .skipped s => s!"Skip: {s.source} ({s.reason})"

structure Summary where
  inputs : Nat := 0
  containers : Nat := 0
  written : Nat := 0
  issues : Nat := 0
  skipped : Nat := 0
  totalBytes : Nat := 0
  deriving DecidableEq, Repr

/-- The counts after one more outcome. Inputs are counted by whoever goes through them. -/
def Summary.record (s : Summary) : Outcome → Summary
  | .opened _ => { s with containers := s.containers + 1 }
  | .written f => { s with written := s.written + 1, totalBytes := s.totalBytes + f.size }
  | .skipped _ => { s with skipped := s.skipped + 1 }
  | .extractionIssue _ | .writeIssue _ | .containerIssue _ => { s with issues := s.issues + 1 }

end SourceRecovery
