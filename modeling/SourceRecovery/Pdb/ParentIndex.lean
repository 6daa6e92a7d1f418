/-!
Row numbers gathered by the parent that their rows name, in the order in which they came.
-/
namespace SourceRecovery.Pdb

structure ParentIndex where
  groups : List (Nat × List Nat)
  deriving DecidableEq, Repr

namespace ParentIndex

def empty : ParentIndex := ⟨[]⟩

def rowsOf (x : ParentIndex) (parent : Nat) : List Nat := (x.groups.lookup parent).getD []

def addTo (parent row : Nat) : List (Nat × List Nat) → List (Nat × List Nat)
  | [] => [(parent, [row])]
  | (other, rows) :: rest =>
    if parent = other then (other, rows ++ [row]) :: rest
    else (other, rows) :: addTo parent row rest

/-- Adds a row behind those that name the same parent. -/
def add (x : ParentIndex) (parent row : Nat) : ParentIndex := ⟨addTo parent row x.groups⟩

end ParentIndex
end SourceRecovery.Pdb
