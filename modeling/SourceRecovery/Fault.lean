import SourceRecovery.Bytes
import SourceRecovery.Disk.Error

/-!
The faults that can end a computation early, and sequences that such a fault may cut short.
-/
namespace SourceRecovery

/-- What went wrong, with its text: a malformed container, a source that does not decode, the file
system, an unusable value, a field read past its end, or anything else. -/
inductive Fault where
  | format (reason : String)
  | decode (reason : String)
  | system (reason : String)
  | disk (e : Disk.Error)
  | value (reason : String)
  | overrun (e : Overrun)
  | other (reason : String)
  deriving DecidableEq, Repr

def Fault.message : Fault → String
  | .format reason | .decode reason | .system reason | .value reason | .other reason => reason
  | .disk e => e.message
  | .overrun e => e.message

/-- Items in the order in which they are produced, and the fault that ended them, if one did. -/
structure Sequence (α : Type) where
  items : List α
  fault : Option Fault
  deriving DecidableEq, Repr

namespace Sequence

variable {α β : Type}

def ofList (items : List α) : Sequence α := ⟨items, none⟩

def failed (fault : Fault) : Sequence α := ⟨[], some fault⟩

def after (front : List α) (s : Sequence α) : Sequence α := ⟨front ++ s.items, s.fault⟩

/-- What follows a sequence is produced only if no fault ended it. -/
def append (s : Sequence α) (next : Sequence α) : Sequence α :=
  match s.fault with
  | some _ => s
  | none => next.after s.items

/-- The results of a step on each item, up to the first fault. -/
def ofSteps (step : α → Except Fault β) : List α → Sequence β
  | [] => ofList []
  | a :: rest =>
    match step a with
    | .ok b => (ofSteps step rest).after [b]
    | .error fault => failed fault

def concatMap (step : α → Sequence β) : List α → Sequence β
  | [] => ofList []
  | a :: rest => (step a).append (concatMap step rest)

end Sequence
end SourceRecovery
