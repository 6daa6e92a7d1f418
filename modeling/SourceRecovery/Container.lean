import SourceRecovery.Fault
import SourceRecovery.Guid

/-!
A container of debug information as the extraction sees it: documents in order, each with the
records attached to it. Documents and records may be cut short by a fault.
-/
namespace SourceRecovery

structure Record where
  kind : Guid
  value : Bytes
  deriving DecidableEq, Repr

/-- A document row. Where its name cannot be read the name is empty and `nameError` says why. -/
structure Document where
  row : Nat
  name : String
  nameError : Option String
  records : Sequence Record
  deriving DecidableEq, Repr

structure Container where
  documentCount : Nat
  documents : Sequence Document
  deriving DecidableEq, Repr

end SourceRecovery
