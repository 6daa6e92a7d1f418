import SourceRecovery.Pe.Image

/-!
Writing an executable image whose only section holds a debug directory and the data of its
entries.
-/
namespace SourceRecovery.Pe.Writer

structure EntrySpec where
  kind : Nat
  data : Bytes
  deriving DecidableEq, Repr

def sectionAddress : Nat := 0x2000

def sectionFileOffset : Nat := 0x200

def entrySize : Nat := 28

/-- One entry of the directory; its data is `offset` bytes into the section. -/
def directoryEntry (e : EntrySpec) (offset : Nat) : Bytes :=
  Bytes.ofNatLE 4 0 ++ Bytes.ofNatLE 4 0 ++ Bytes.ofNatLE 2 0x100 ++ Bytes.ofNatLE 2 0x100 ++
    Bytes.ofNatLE 4 e.kind ++ Bytes.ofNatLE 4 e.data.length ++
    Bytes.ofNatLE 4 (sectionAddress + offset) ++ Bytes.ofNatLE 4 (sectionFileOffset + offset)

def directoryEntries : (offset : Nat) → List EntrySpec → Bytes
  | _, [] => []
  | offset, e :: rest => directoryEntry e offset ++ directoryEntries (offset + e.data.length) rest

def sectionData (entries : List EntrySpec) : Bytes :=
  directoryEntries (entrySize * entries.length) entries ++ entries.flatMap (·.data)

def machine : Format → Nat
  | .pe32 => 0x14C
  | .pe32Plus => 0x8664

def zeros (count : Nat) : Bytes := List.replicate count 0

/-- Sixteen data directories, all of them empty except the one for debug information. -/
def directories (entries : List EntrySpec) : Bytes :=
  let debug := if entries = [] then zeros 8
    else Bytes.ofNatLE 4 sectionAddress ++ Bytes.ofNatLE 4 (entrySize * entries.length)
  zeros 48 ++ debug ++ zeros 72

def optionalHeader (format : Format) (entries : List EntrySpec) : Bytes :=
  Bytes.ofNatLE 2 format.magic ++ zeros (format.directoryCountOffset - 2) ++ Bytes.ofNatLE 4 16 ++
    directories entries

def coffHeader (format : Format) (optionalSize : Nat) : Bytes :=
  Bytes.ofNatLE 2 (machine format) ++ Bytes.ofNatLE 2 1 ++ Bytes.ofNatLE 4 0 ++
    Bytes.ofNatLE 4 0 ++ Bytes.ofNatLE 4 0 ++ Bytes.ofNatLE 2 optionalSize ++
    Bytes.ofNatLE 2 0x2022

def sectionHeader (size rawSize : Nat) : Bytes :=
  Signature.ofText ".text\x00\x00\x00" ++ Bytes.ofNatLE 4 (max size 1) ++
    Bytes.ofNatLE 4 sectionAddress ++ Bytes.ofNatLE 4 rawSize ++
    Bytes.ofNatLE 4 sectionFileOffset ++ zeros 12 ++ Bytes.ofNatLE 4 0x60000020

/-- Everything in front of the section, which begins at `sectionFileOffset`. -/
def headers (format : Format) (entries : List EntrySpec) : Bytes :=
  let optional := optionalHeader format entries
  let raw := (sectionData entries).padTo 0x200
  Signature.dosHeader ++ zeros 0x3A ++ Bytes.ofNatLE 4 0x80 ++ zeros 0x40 ++ Signature.peHeader ++
    coffHeader format optional.length ++ optional ++
    sectionHeader (sectionData entries).length raw.length

def write (format : Format) (entries : List EntrySpec) : Bytes :=
  (headers format entries).padTo sectionFileOffset ++ (sectionData entries).padTo 0x200

def embeddedPdbData (pdb stream : Bytes) : Bytes :=
  Signature.embeddedPdb ++ Bytes.ofNatLE 4 pdb.length ++ stream

end SourceRecovery.Pe.Writer
