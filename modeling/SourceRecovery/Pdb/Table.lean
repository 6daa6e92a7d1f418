import SourceRecovery.Bytes

/-!
The debug tables and the columns of their rows. A column's width depends on how far its values have
to reach: heap columns on the size class of the heap, indexes on the row count of their table.
-/
namespace SourceRecovery.Pdb

inductive Table where
  | document
  | methodDebugInformation
  | localScope
  | localVariable
  | localConstant
  | importScope
  | stateMachineMethod
  | customDebugInformation
  deriving DecidableEq, Repr

namespace Table

def all : List Table :=
  [.document, .methodDebugInformation, .localScope, .localVariable, .localConstant, .importScope,
    .stateMachineMethod, .customDebugInformation]

def number : Table → Nat
  | .document => 0x30
  | .methodDebugInformation => 0x31
  | .localScope => 0x32
  | .localVariable => 0x33
  | .localConstant => 0x34
  | .importScope => 0x35
  | .stateMachineMethod => 0x36
  | .customDebugInformation => 0x37

def ofNumber? (n : Nat) : Option Table := all.find? (·.number = n)

end Table

/-- The number of the type-system table of methods, which a debug table may refer to. -/
def methodTable : Nat := 0x06

inductive Column where
  | string
  | guid
  | blob
  | number (width : Nat)
  | index (table : Nat)
  | parent
  deriving DecidableEq, Repr

def Table.columns : Table → List Column
  | .document => [.blob, .guid, .blob, .guid]
  | .methodDebugInformation => [.index Table.document.number, .blob]
  | .localScope =>
    [.index methodTable, .index Table.importScope.number, .index Table.localVariable.number,
      .index Table.localConstant.number, .number 4, .number 4]
  | .localVariable => [.number 2, .number 2, .string]
  | .localConstant => [.string, .blob]
  | .importScope => [.index Table.importScope.number, .blob]
  | .stateMachineMethod => [.index methodTable, .index methodTable]
  | .customDebugInformation => [.parent, .guid, .blob]

/-- The tables that a row of custom debug information can belong to, in the order of their tags. -/
def parentTables : List Nat :=
  [0x06, 0x04, 0x01, 0x02, 0x08, 0x09, 0x0A, 0x00, 0x0E, 0x17, 0x14, 0x11, 0x1A, 0x1B, 0x20, 0x23,
    0x26, 0x27, 0x28, 0x2A, 0x2C, 0x2B, 0x30, 0x32, 0x33, 0x34, 0x35]

def parentTags : Nat := 32

def documentTag : Nat := 22

def documentParent (row : Nat) : Nat := row * parentTags + documentTag

structure Sizes where
  wideStrings : Bool
  wideGuids : Bool
  wideBlobs : Bool
  rowCount : Nat → Nat

def narrowOr (wide : Bool) : Nat := if wide then 4 else 2

def Sizes.width (s : Sizes) : Column → Nat
  | .string => narrowOr s.wideStrings
  | .guid => narrowOr s.wideGuids
  | .blob => narrowOr s.wideBlobs
  | .number width => width
  | .index table => narrowOr (0x10000 ≤ s.rowCount table)
  | .parent => narrowOr (parentTables.any fun table => 0x10000 / parentTags ≤ s.rowCount table)

def Sizes.rowWidth (s : Sizes) (t : Table) : Nat := (t.columns.map s.width).sum

end SourceRecovery.Pdb
