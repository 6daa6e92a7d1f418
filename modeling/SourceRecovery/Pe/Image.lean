import SourceRecovery.Pe.Error
import SourceRecovery.Signature

/-!
The headers of an executable image: its sections and where its debug directory lies. Addresses in
the loaded image are mapped to offsets in the file through the sections.
-/
namespace SourceRecovery.Pe

structure Section where
  name : String
  virtualAddress : Nat
  virtualSize : Nat
  rawSize : Nat
  rawPointer : Nat
  deriving DecidableEq, Repr

def Section.contains (s : Section) (address : Nat) : Bool :=
  s.virtualAddress ≤ address && address < s.virtualAddress + max s.virtualSize s.rawSize

structure Directory where
  address : Nat
  size : Nat
  deriving DecidableEq, Repr

inductive Format where
  | pe32
  | pe32Plus
  deriving DecidableEq, Repr

namespace Format

def magic : Format → Nat
  | .pe32 => 0x10B
  | .pe32Plus => 0x20B

def ofMagic? (n : Nat) : Option Format := [pe32, pe32Plus].find? (·.magic = n)

def directoryCountOffset : Format → Nat
  | .pe32 => 92
  | .pe32Plus => 108

def directoriesOffset (f : Format) : Nat := f.directoryCountOffset + 4

end Format

structure Image where
  data : Bytes
  machine : Nat
  format : Format
  debugDirectory : Option Directory
  sections : List Section
  deriving DecidableEq, Repr

def field (data : Bytes) (offset size : Nat) : Except FormatError Bytes :=
  (data.field offset size).mapError .truncated

def uint (data : Bytes) (width offset : Nat) : Except FormatError Nat :=
  (data.uintAt width offset).mapError .truncated

def peHeaderPointer : Nat := 0x3C

def coffHeaderSize : Nat := 20

def sectionHeaderSize : Nat := 40

def sectionFieldsSize : Nat := 24

def debugDirectoryIndex : Nat := 6

def Section.ofFields (fields : Bytes) : Section where
  name := Ascii.decodeLenient (Bytes.trimZeros (fields.slice 0 8))
  virtualSize := Bytes.toNatLE (fields.slice 8 4)
  virtualAddress := Bytes.toNatLE (fields.slice 12 4)
  rawSize := Bytes.toNatLE (fields.slice 16 4)
  rawPointer := Bytes.toNatLE (fields.slice 20 4)

def sectionsAt (data : Bytes) : (count offset : Nat) → Except FormatError (List Section)
  | 0, _ => .ok []
  | count + 1, offset => do
    let fields ← field data offset sectionFieldsSize
    return Section.ofFields fields :: (← sectionsAt data count (offset + sectionHeaderSize))

/-- The debug directory, unless the optional header does not reach it or leaves it empty. -/
def directoryAt (data : Bytes) (format : Format) (optional optionalSize : Nat) :
    Except FormatError (Option Directory) := do
  let count ← uint data 4 (optional + format.directoryCountOffset)
  let offset := format.directoriesOffset + debugDirectoryIndex * 8
  if debugDirectoryIndex < count ∧ offset + 8 ≤ optionalSize then
    let fields ← field data (optional + offset) 8
    let d : Directory := ⟨Bytes.toNatLE (fields.take 4), Bytes.toNatLE (fields.drop 4)⟩
    return if d.address = 0 ∨ d.size = 0 then none else some d
  else return none

namespace Image

def read (data : Bytes) : Except FormatError Image := do
  if !Signature.isImage data then .error .missingDosHeader
  else
    let peOffset ← uint data 4 peHeaderPointer
    if data.slice peOffset 4 ≠ Signature.peHeader then .error .missingPeHeader
    else
      let coff ← field data (peOffset + 4) coffHeaderSize
      let optionalSize := Bytes.toNatLE (coff.slice 16 2)
      let optional := peOffset + 4 + coffHeaderSize
      let magic ← uint data 2 optional
      match Format.ofMagic? magic with
      | none => .error (.unknownMagic magic)
      | some format =>
        return {
          data, machine := Bytes.toNatLE (coff.slice 0 2), format
          debugDirectory := ← directoryAt data format optional optionalSize
          sections := ← sectionsAt data (Bytes.toNatLE (coff.slice 2 2)) (optional + optionalSize) }

/-- The file offset of an address; the first section that contains it decides. -/
def offset? (p : Image) (address : Nat) : Option Nat :=
  (p.sections.find? (·.contains address)).map fun s => address - s.virtualAddress + s.rawPointer

end Image
end SourceRecovery.Pe
