import SourceRecovery.Container
import SourceRecovery.Pdb.Compressed
import SourceRecovery.Pdb.Table
import SourceRecovery.Signature
import SourceRecovery.Text.Utf8

/-!
Writing a Portable PDB with documents and the records attached to them. The writer chooses the
widths of columns from what it writes and knows nothing of how an image is read.
-/
namespace SourceRecovery.Pdb.Writer

structure DocumentSpec where
  name : String
  records : List Record
  deriving DecidableEq, Repr

/-- What to write: the documents, the number of methods in the assembly, rows of method debug
information that point at the first document, and whether heaps are to have wide indexes. -/
structure Spec where
  documents : List DocumentSpec
  methodCount : Nat := 0
  methodDebugRows : Nat := 0
  wideHeaps : Bool := false
  deriving DecidableEq, Repr

/-- The heaps so far. The blob heap begins with the empty blob. -/
structure Heaps where
  blobs : Bytes := [0]
  guids : List Guid := []
  deriving DecidableEq, Repr

namespace Heaps

/-- Adds a blob and gives its index; the empty blob is always there. -/
def addBlob (h : Heaps) (value : Bytes) : Nat × Heaps :=
  if value = [] then (0, h)
  else
    (h.blobs.length, { h with blobs := h.blobs ++ Compressed.encode value.length ++ value })

/-- A GUID is stored once. -/
def addGuid (h : Heaps) (g : Guid) : Nat × Heaps :=
  match h.guids.idxOf? g with
  | some i => (i + 1, h)
  | none => (h.guids.length + 1, { h with guids := h.guids ++ [g] })

/-- Adds the parts of a name and gives their indexes as the name's blob has them. -/
def addParts : List String → Heaps → Bytes × Heaps
  | [], h => ([], h)
  | part :: rest, h =>
    let (index, h) := h.addBlob (Utf8.encode part)
    let (indexes, h) := addParts rest h
    (Compressed.encode index ++ indexes, h)

end Heaps

/-- The character at which a name is cut into parts: a slash, else a backslash. -/
def separator? (name : List Char) : Option Char :=
  if name.contains '/' then some '/' else if name.contains '\\' then some '\\' else none

def cutAt (separator : Char) : List Char → List (List Char)
  | [] => [[]]
  | c :: rest =>
    if c = separator then [] :: cutAt separator rest
    else
      match cutAt separator rest with
      | [] => [[c]]
      | first :: others => (c :: first) :: others

def nameParts (name : String) : List String :=
  match separator? name.toList with
  | none => [name]
  | some separator => (cutAt separator name.toList).map String.ofList

def separatorByte (name : String) : UInt8 :=
  match separator? name.toList with
  | none => 0
  | some c => UInt8.ofNat c.toNat

def Heaps.addName (h : Heaps) (name : String) : Nat × Heaps :=
  if name = "" then (0, h)
  else
    let (indexes, h) := Heaps.addParts (nameParts name) h
    h.addBlob (separatorByte name :: indexes)

structure RecordRow where
  parent : Nat
  kind : Nat
  value : Nat
  deriving DecidableEq, Repr

def addRecords (row : Nat) : List Record → Heaps → List RecordRow × Heaps
  | [], h => ([], h)
  | r :: rest, h =>
    let (kind, h) := h.addGuid r.kind
    let (value, h) := h.addBlob r.value
    let (rows, h) := addRecords row rest h
    (⟨documentParent row, kind, value⟩ :: rows, h)

structure Rows where
  names : List Nat
  records : List RecordRow
  deriving DecidableEq, Repr

def addDocuments : (row : Nat) → List DocumentSpec → Heaps → Rows × Heaps
  | _, [], h => (⟨[], []⟩, h)
  | row, d :: rest, h =>
    let (name, h) := h.addName d.name
    let (records, h) := addRecords row d.records h
    let (rows, h) := addDocuments (row + 1) rest h
    (⟨name :: rows.names, records ++ rows.records⟩, h)

def hashAlgorithm : Guid := Guid.ofNat 0x8829D00F11B84213878B770E8597AC16

def language : Guid := Guid.ofNat 0x3F5162F807C611D3905300C04FA302A1

def hashIndex : Nat := 1

def languageIndex : Nat := 2

structure Content where
  rows : Rows
  heaps : Heaps
  deriving DecidableEq, Repr

/-- The GUIDs that every document shares come first. -/
def Spec.content (s : Spec) : Content :=
  let (rows, heaps) := addDocuments 1 s.documents { guids := [hashAlgorithm, language] }
  ⟨rows, heaps⟩

structure Widths where
  blob : Nat
  guid : Nat
  document : Nat
  parent : Nat
  deriving DecidableEq, Repr

def wideBlobs (s : Spec) (h : Heaps) : Bool := s.wideHeaps || 0x10000 ≤ h.blobs.length

def Spec.widths (s : Spec) (h : Heaps) : Widths where
  blob := if wideBlobs s h then 4 else 2
  guid := if s.wideHeaps then 4 else 2
  document := if s.documents.length < 0x10000 then 2 else 4
  parent := if max s.documents.length s.methodCount < 0x800 then 2 else 4

def documentRow (w : Widths) (name : Nat) : Bytes :=
  Bytes.ofNatLE w.blob name ++ Bytes.ofNatLE w.guid hashIndex ++ Bytes.ofNatLE w.blob 0 ++
    Bytes.ofNatLE w.guid languageIndex

def methodDebugRow (w : Widths) (document : Nat) : Bytes :=
  Bytes.ofNatLE w.document document ++ Bytes.ofNatLE w.blob 0

def recordRow (w : Widths) (r : RecordRow) : Bytes :=
  Bytes.ofNatLE w.parent r.parent ++ Bytes.ofNatLE w.guid r.kind ++ Bytes.ofNatLE w.blob r.value

/-- The tables with their rows, in ascending order of their numbers. Documents are always there,
the other tables only if they have rows. -/
def Spec.tables (s : Spec) (c : Content) : List (Table × List Bytes) :=
  let w := s.widths c.heaps
  let firstDocument := if s.documents = [] then 0 else 1
  (.document, c.rows.names.map (documentRow w)) ::
    ([(.methodDebugInformation, List.replicate s.methodDebugRows (methodDebugRow w firstDocument)),
      (.customDebugInformation, c.rows.records.map (recordRow w))] :
        List (Table × List Bytes)).filter fun (_, rows) => !rows.isEmpty

def heapSizes (s : Spec) (h : Heaps) : Nat :=
  (if s.wideHeaps then 2 else 0) + (if wideBlobs s h then 4 else 0)

def tableStream (s : Spec) (c : Content) : Bytes :=
  let tables := s.tables c
  let valid := (tables.map fun (t, _) => 1 <<< t.number).sum
  Bytes.ofNatLE 4 0 ++ [2, 0, UInt8.ofNat (heapSizes s c.heaps), 1] ++ Bytes.ofNatLE 8 valid ++
    Bytes.ofNatLE 8 0 ++ tables.flatMap (fun (_, rows) => Bytes.ofNatLE 4 rows.length) ++
    tables.flatMap fun (_, rows) => rows.flatten

def pdbId : Bytes := (List.range 20).map UInt8.ofNat

def pdbStream (s : Spec) : Bytes :=
  if s.methodCount = 0 then pdbId ++ Bytes.ofNatLE 4 0 ++ Bytes.ofNatLE 8 0
  else
    pdbId ++ Bytes.ofNatLE 4 0 ++ Bytes.ofNatLE 8 (1 <<< methodTable) ++
      Bytes.ofNatLE 4 s.methodCount

abbrev NamedStream := String × Bytes

def Spec.streams (s : Spec) : List NamedStream :=
  let c := s.content
  [("#Pdb", (pdbStream s).padTo 4), ("#~", (tableStream s c).padTo 4),
    ("#Strings", List.replicate 4 0), ("#US", List.replicate 4 0),
    ("#GUID", c.heaps.guids.flatMap Guid.toBytes), ("#Blob", c.heaps.blobs.padTo 4)]

def version : Bytes := Bytes.padTo 4 (Signature.ofText "PDB v1.0\x00")

def nameBytes (name : String) : Bytes := Bytes.padTo 4 (Signature.ofText name ++ [0])

def streamHeaders : (offset : Nat) → List NamedStream → Bytes
  | _, [] => []
  | offset, (name, data) :: rest =>
    Bytes.ofNatLE 4 offset ++ Bytes.ofNatLE 4 data.length ++ nameBytes name ++
      streamHeaders (offset + data.length) rest

/-- Where the data of streams begins, behind the root's own fields, the version and the headers. -/
def bodyStart (streams : List NamedStream) : Nat :=
  16 + version.length + 4 + (streams.map fun (name, _) => 8 + (nameBytes name).length).sum

/-- A metadata root with its streams one after the other behind their headers. -/
def root (streams : List NamedStream) : Bytes :=
  Signature.portablePdb ++ Bytes.ofNatLE 2 1 ++ Bytes.ofNatLE 2 1 ++ Bytes.ofNatLE 4 0 ++
    Bytes.ofNatLE 4 version.length ++ version ++ Bytes.ofNatLE 2 0 ++
    Bytes.ofNatLE 2 streams.length ++ streamHeaders (bodyStart streams) streams ++
    streams.flatMap fun (_, data) => data

def write (s : Spec) : Bytes := root s.streams

end SourceRecovery.Pdb.Writer
