import Mathlib.Data.List.Forall2
import Mathlib.Tactic.NthRewrite
import SourceRecovery.Pe.DebugDirectory
import SourceRecovery.Pe.Writer
import SourceRecovery.Proofs.ByteFields
import SourceRecovery.Proofs.Sequences

/-! An image that was written is read back: headers, the one section, the entries of the debug
directory in order and the data of each where its entry says. -/
namespace SourceRecovery.Pe

open Writer

theorem directories_length (entries : List EntrySpec) : (directories entries).length = 128 := by
  unfold directories
  split <;> simp [zeros]

theorem optionalHeader_length (format : Format) (entries : List EntrySpec) :
    (optionalHeader format entries).length = format.directoryCountOffset + 132 := by
  cases format <;> simp [optionalHeader, directories_length, zeros, Format.directoryCountOffset]

theorem coffHeader_length (format : Format) (size : Nat) :
    (coffHeader format size).length = coffHeaderSize := by
  simp [coffHeader, coffHeaderSize]

theorem sectionHeader_length (size rawSize : Nat) :
    (sectionHeader size rawSize).length = sectionHeaderSize := by
  have hname : (Signature.ofText ".text\x00\x00\x00").length = 8 := by decide
  simp [sectionHeader, sectionHeaderSize, zeros, hname]

theorem headers_length (format : Format) (entries : List EntrySpec) :
    (headers format entries).length = format.directoryCountOffset + 324 := by
  have hdos : Signature.dosHeader.length = 2 := by decide
  have hpe : Signature.peHeader.length = 4 := by decide
  simp only [headers, List.length_append, Bytes.ofNatLE_length, zeros, List.length_replicate, hdos,
    hpe, coffHeader_length, optionalHeader_length, sectionHeader_length, coffHeaderSize,
    sectionHeaderSize]
  omega

theorem padded_headers_length (format : Format) (entries : List EntrySpec) :
    ((headers format entries).padTo sectionFileOffset).length = sectionFileOffset := by
  rw [Bytes.padTo, List.length_append, List.length_replicate, headers_length]
  cases format <;> rfl

structure HeadersLaidOut (format : Format) (entries : List EntrySpec) (image : Bytes) : Prop where
  dos : image.At 0 Signature.dosHeader
  pointer : image.At peHeaderPointer (Bytes.ofNatLE 4 0x80)
  pe : image.At 0x80 Signature.peHeader
  coff : image.At 0x84 (coffHeader format (format.directoryCountOffset + 132))
  optional : image.At 0x98 (optionalHeader format entries)
  sectionTable : image.At (0x98 + (format.directoryCountOffset + 132))
    (sectionHeader (sectionData entries).length ((sectionData entries).padTo 0x200).length)

structure LaidOut (format : Format) (entries : List EntrySpec) (image : Bytes) : Prop extends
    HeadersLaidOut format entries image where
  contents : image.At sectionFileOffset (sectionData entries)

theorem write_laidOut (format : Format) (entries : List EntrySpec) :
    LaidOut format entries (write format entries) := by
  have hdos : Signature.dosHeader.length = 2 := by decide
  have hpe : Signature.peHeader.length = 4 := by decide
  obtain ⟨gap, hgap⟩ := Bytes.padTo_eq sectionFileOffset (headers format entries)
  obtain ⟨rest, hrest⟩ := Bytes.padTo_eq 0x200 (sectionData entries)
  have hall : (write format entries).At 0
      ((headers format entries).padTo sectionFileOffset ++ (sectionData entries).padTo 0x200) :=
    .whole _
  have hsection := hall.right
  rw [padded_headers_length, Nat.zero_add, hrest] at hsection
  have hheaders := hall.left
  rw [hgap] at hheaders
  have hparts := hheaders.left
  unfold headers at hparts
  dsimp only at hparts
  have hheader := hparts.right
  have hoptional := hparts.left.right
  have hcoff := hparts.left.left.right
  have hsignature := hparts.left.left.left.right
  have hpointer := hparts.left.left.left.left.left.right
  have hfirst := hparts.left.left.left.left.left.left.left
  simp only [List.length_append, Bytes.ofNatLE_length, zeros, List.length_replicate, hdos, hpe,
    coffHeader_length, optionalHeader_length, coffHeaderSize, Nat.zero_add, Nat.reduceAdd]
    at hheader hoptional hcoff hsignature hpointer
  exact ⟨⟨hfirst, hpointer, hsignature, hcoff, hoptional, hheader⟩, hsection.left⟩

def EntriesFit : (offset : Nat) → List EntrySpec → Prop
  | _, [] => True
  | offset, e :: rest =>
    e.kind < Bytes.capacity 4 ∧ e.data.length < Bytes.capacity 4 ∧
      sectionAddress + offset < Bytes.capacity 4 ∧ EntriesFit (offset + e.data.length) rest

instance EntriesFit.decidable : (offset : Nat) → (entries : List EntrySpec) →
    Decidable (EntriesFit offset entries)
  | _, [] => inferInstanceAs (Decidable True)
  | offset, e :: rest =>
    have := EntriesFit.decidable (offset + e.data.length) rest
    inferInstanceAs (Decidable (_ ∧ _ ∧ _ ∧ _))

/-- All that is written into a field of an image has room there. -/
structure Fits (entries : List EntrySpec) : Prop where
  directory : EntriesFit (entrySize * entries.length) entries
  sectionSize : ((sectionData entries).padTo 0x200).length < Bytes.capacity 4

theorem directoryEntry_length (e : EntrySpec) (offset : Nat) :
    (directoryEntry e offset).length = entrySize := by
  simp [directoryEntry, entrySize]

theorem directoryEntries_length (offset : Nat) (entries : List EntrySpec) :
    (directoryEntries offset entries).length = entrySize * entries.length := by
  induction entries generalizing offset with
  | nil => rfl
  | cons e rest ih =>
    rw [directoryEntries, List.length_append, directoryEntry_length, ih, List.length_cons,
      Nat.mul_succ, Nat.add_comm]

variable {format : Format} {entries : List EntrySpec} {image : Bytes}

theorem Fits.section_le (hfits : Fits entries) :
    (sectionData entries).length < Bytes.capacity 4 ∧
      entrySize * entries.length ≤ (sectionData entries).length := by
  have hsize := hfits.sectionSize
  rw [Bytes.padTo, List.length_append] at hsize
  refine ⟨by omega, ?_⟩
  rw [sectionData, List.length_append, directoryEntries_length]
  exact Nat.le_add_right _ _

theorem HeadersLaidOut.directoryCount (h : HeadersLaidOut format entries image) :
    image.uintAt 4 (0x98 + format.directoryCountOffset) = .ok 16 := by
  have hparts := h.optional
  unfold optionalHeader at hparts
  have hcount := hparts.left.right
  have hfront : (Bytes.ofNatLE 2 format.magic ++ zeros (format.directoryCountOffset - 2)).length =
      format.directoryCountOffset := by
    cases format <;> rfl
  rw [hfront] at hcount
  exact hcount.uintAt (show 16 < Bytes.capacity 4 by decide)

theorem HeadersLaidOut.debugField (h : HeadersLaidOut format entries image) :
    image.field (0x98 + (format.directoriesOffset + debugDirectoryIndex * 8)) 8 =
      .ok (if entries = [] then zeros 8 else
        Bytes.ofNatLE 4 sectionAddress ++ Bytes.ofNatLE 4 (entrySize * entries.length)) := by
  have hparts := h.optional
  unfold optionalHeader directories at hparts
  dsimp only at hparts
  have hdebug := hparts.right.left.right.field
  have hsize : (if entries = [] then zeros 8 else Bytes.ofNatLE 4 sectionAddress ++
      Bytes.ofNatLE 4 (entrySize * entries.length)).length = 8 := by
    split <;> simp [zeros]
  have hplace : 0x98 + (Bytes.ofNatLE 2 format.magic ++ zeros (format.directoryCountOffset - 2) ++
      Bytes.ofNatLE 4 16).length + (zeros 48).length =
        0x98 + (format.directoriesOffset + debugDirectoryIndex * 8) := by
    cases format <;> rfl
  rwa [hplace, hsize] at hdebug

theorem HeadersLaidOut.directoryAt_eq (h : HeadersLaidOut format entries image) (hfits : Fits entries) :
    directoryAt image format 0x98 (format.directoryCountOffset + 132) =
      .ok (if entries = [] then none else some ⟨sectionAddress, entrySize * entries.length⟩) := by
  have hreaches : debugDirectoryIndex < 16 ∧ format.directoriesOffset + debugDirectoryIndex * 8 + 8 ≤
      format.directoryCountOffset + 132 := by
    cases format <;> decide
  simp only [directoryAt, uint, field, h.directoryCount, h.debugField, mapError_ok, bind,
    Except.bind]
  rw [if_pos hreaches]
  -- An image without entries has zeros here, which stand for no directory.
  by_cases hnone : entries = []
  · rw [if_pos hnone, if_pos hnone]
    rfl
  · obtain ⟨hsection, hsize⟩ := hfits.section_le
    have hpos : entrySize * entries.length ≠ 0 :=
      Nat.mul_ne_zero (by decide) fun hlength => hnone (List.length_eq_zero_iff.mp hlength)
    have haddress : Bytes.toNatLE ((Bytes.ofNatLE 4 sectionAddress ++
        Bytes.ofNatLE 4 (entrySize * entries.length)).take 4) = sectionAddress := by
      rw [List.take_left' (Bytes.ofNatLE_length 4 _)]
      decide
    have hlength : Bytes.toNatLE ((Bytes.ofNatLE 4 sectionAddress ++
        Bytes.ofNatLE 4 (entrySize * entries.length)).drop 4) = entrySize * entries.length := by
      rw [List.drop_left' (Bytes.ofNatLE_length 4 _),
        Bytes.toNatLE_ofNatLE (Nat.lt_of_le_of_lt hsize hsection)]
    simp only [if_neg hnone, haddress, hlength]
    rw [if_neg (not_or.mpr ⟨by decide, hpos⟩)]
    rfl

theorem Section.ofFields_written {name : Bytes} {size address rawSize pointer : Nat}
    (hname : name.length = 8) (hsize : size < Bytes.capacity 4)
    (haddress : address < Bytes.capacity 4) (hraw : rawSize < Bytes.capacity 4)
    (hpointer : pointer < Bytes.capacity 4) :
    Section.ofFields (name ++ Bytes.ofNatLE 4 size ++ Bytes.ofNatLE 4 address ++
      Bytes.ofNatLE 4 rawSize ++ Bytes.ofNatLE 4 pointer) =
      ⟨Ascii.decodeLenient (Bytes.trimZeros name), address, size, rawSize, pointer⟩ := by
  generalize hfields : name ++ Bytes.ofNatLE 4 size ++ Bytes.ofNatLE 4 address ++
    Bytes.ofNatLE 4 rawSize ++ Bytes.ofNatLE 4 pointer = fields
  have hall := Bytes.At.whole fields
  nth_rewrite 2 [← hfields] at hall
  have hnameAt := hall.left.left.left.left.slice
  have hsizeAt := hall.left.left.left.right.slice
  have haddressAt := hall.left.left.right.slice
  have hrawAt := hall.left.right.slice
  have hpointerAt := hall.right.slice
  simp only [List.length_append, Bytes.ofNatLE_length, hname, Nat.zero_add, Nat.reduceAdd]
    at hnameAt hsizeAt haddressAt hrawAt hpointerAt
  rw [Section.ofFields, hnameAt, hsizeAt, haddressAt, hrawAt, hpointerAt,
    Bytes.toNatLE_ofNatLE hsize, Bytes.toNatLE_ofNatLE haddress, Bytes.toNatLE_ofNatLE hraw,
    Bytes.toNatLE_ofNatLE hpointer]

theorem HeadersLaidOut.sectionsAt_eq (h : HeadersLaidOut format entries image) (hfits : Fits entries) :
    sectionsAt image 1 (0x98 + (format.directoryCountOffset + 132)) =
      .ok [⟨".text", sectionAddress, max (sectionData entries).length 1,
        ((sectionData entries).padTo 0x200).length, sectionFileOffset⟩] := by
  have hname : (Signature.ofText ".text\x00\x00\x00").length = 8 := by decide
  have htext : Ascii.decodeLenient (Bytes.trimZeros (Signature.ofText ".text\x00\x00\x00")) =
      ".text" := by
    decide
  have hsize : max (sectionData entries).length 1 < Bytes.capacity 4 :=
    Nat.max_lt.mpr ⟨hfits.section_le.1, by decide⟩
  have hsection := Section.ofFields_written hname hsize
    (show sectionAddress < Bytes.capacity 4 by decide) hfits.sectionSize
    (show sectionFileOffset < Bytes.capacity 4 by decide)
  have hparts := h.sectionTable
  unfold sectionHeader at hparts
  have hfield := hparts.left.left.field
  simp only [List.length_append, Bytes.ofNatLE_length, hname, Nat.reduceAdd] at hfield
  simp only [sectionsAt, sectionFieldsSize, field, hfield, mapError_ok, bind, Except.bind, hsection,
    htext]
  rfl

def imageOf (format : Format) (entries : List EntrySpec) : Image where
  data := write format entries
  machine := Writer.machine format
  format
  debugDirectory :=
    if entries = [] then none else some ⟨sectionAddress, entrySize * entries.length⟩
  sections := [⟨".text", sectionAddress, max (sectionData entries).length 1,
    ((sectionData entries).padTo 0x200).length, sectionFileOffset⟩]

/-- The same headers and sections over other bytes. -/
def Image.withData (p : Image) (data : Bytes) : Image := { p with data }

theorem HeadersLaidOut.read (h : HeadersLaidOut format entries image) (hfits : Fits entries) :
    Image.read image = .ok ((imageOf format entries).withData image) := by
  have hmagic : Signature.isImage image = true := by
    have hfirst : image.take 2 = Signature.dosHeader := h.dos.slice
    rw [Signature.isImage, Signature.startsWith, beq_iff_eq]
    exact hfirst
  have hpe : image.slice 0x80 4 = Signature.peHeader := h.pe.slice
  have hcoff : image.field 0x84 20 =
      .ok (coffHeader format (format.directoryCountOffset + 132)) := h.coff.field
  have hcoffFields : ∀ format : Format,
      let coff := coffHeader format (format.directoryCountOffset + 132)
      Bytes.toNatLE (coff.slice 16 2) = format.directoryCountOffset + 132 ∧
      Bytes.toNatLE (coff.slice 0 2) = Writer.machine format ∧
      Bytes.toNatLE (coff.slice 2 2) = 1 := by
    intro format
    cases format <;> decide
  have hmagicField := h.optional.left.left.left.uintAt
    (show format.magic < Bytes.capacity 2 by cases format <;> decide)
  have hformat : Format.ofMagic? format.magic = some format := by cases format <;> rfl
  obtain ⟨hoptionalSize, hmachine, hsections⟩ := hcoffFields format
  simp only [Image.read, hmagic, uint, field, h.pointer.uintAt (show 0x80 < Bytes.capacity 4 by decide),
    mapError_ok, bind, Except.bind, hpe, hcoff, hoptionalSize, hmachine, hsections, Nat.reduceAdd,
    coffHeaderSize, hmagicField, hformat, h.directoryAt_eq hfits, h.sectionsAt_eq hfits]
  rw [if_neg (by decide), if_neg (not_not_intro rfl)]
  rfl

theorem write_read (format : Format) (hfits : Fits entries) :
    Image.read (write format entries) = .ok (imageOf format entries) :=
  (write_laidOut format entries).read hfits

def writtenEntries : (index offset : Nat) → List EntrySpec → List DebugEntry
  | _, _, [] => []
  | index, offset, e :: rest =>
    ⟨index, e.kind, 0x100, 0x100, e.data.length, sectionAddress + offset,
      sectionFileOffset + offset⟩ :: writtenEntries (index + 1) (offset + e.data.length) rest

theorem ofFields_directoryEntry {e : EntrySpec} {offset index : Nat}
    (hkind : e.kind < Bytes.capacity 4) (hlength : e.data.length < Bytes.capacity 4)
    (haddress : sectionAddress + offset < Bytes.capacity 4) :
    DebugEntry.ofFields index (directoryEntry e offset) = ⟨index, e.kind, 0x100, 0x100,
      e.data.length, sectionAddress + offset, sectionFileOffset + offset⟩ := by
  have hpointer : sectionFileOffset + offset < Bytes.capacity 4 := by
    unfold sectionAddress at haddress
    unfold sectionFileOffset
    omega
  have hversion : 0x100 < Bytes.capacity 2 := by decide
  have hall := Bytes.At.whole (directoryEntry e offset)
  generalize hfields : directoryEntry e offset = fields at hall ⊢
  unfold directoryEntry at hfields
  nth_rewrite 2 [← hfields] at hall
  have hpointerAt := hall.right.slice
  have haddressAt := hall.left.right.slice
  have hlengthAt := hall.left.left.right.slice
  have hkindAt := hall.left.left.left.right.slice
  have hminorAt := hall.left.left.left.left.right.slice
  have hmajorAt := hall.left.left.left.left.left.right.slice
  simp only [List.length_append, Bytes.ofNatLE_length, Nat.zero_add, Nat.reduceAdd]
    at hpointerAt haddressAt hlengthAt hkindAt hminorAt hmajorAt
  rw [DebugEntry.ofFields, hpointerAt, haddressAt, hlengthAt, hkindAt, hminorAt, hmajorAt,
    Bytes.toNatLE_ofNatLE hkind, Bytes.toNatLE_ofNatLE hlength, Bytes.toNatLE_ofNatLE haddress,
    Bytes.toNatLE_ofNatLE hpointer, Bytes.toNatLE_ofNatLE hversion]

theorem debugEntriesAt_eq {index place offset : Nat}
    (hat : image.At place (directoryEntries offset entries)) (hfit : EntriesFit offset entries) :
    debugEntriesAt image entries.length index place = .ok (writtenEntries index offset entries) := by
  induction entries generalizing index place offset with
  | nil => rfl
  | cons e rest ih =>
    obtain ⟨hkind, hlength, haddress, hrest⟩ := hfit
    have hentry := hat.left.slice
    have hinside := hat.left.le_length
    have hnext := hat.right
    rw [directoryEntry_length] at hentry hinside hnext
    have hothers : debugEntriesAt image rest.length (index + 1) (place + debugEntrySize) =
        .ok (writtenEntries (index + 1) (offset + e.data.length) rest) := ih hnext hrest
    change place + debugEntrySize ≤ image.length at hinside
    change image.slice place debugEntrySize = _ at hentry
    rw [List.length_cons, debugEntriesAt, if_neg (Nat.not_lt_of_le hinside)]
    simp only [hentry, hothers, bind, Except.bind,
      ofFields_directoryEntry hkind hlength haddress]
    rfl

theorem debugEntries_eq (format : Format) (entries : List EntrySpec) (data : Bytes) :
    ((imageOf format entries).withData data).debugEntries =
      debugEntriesAt data entries.length 0 sectionFileOffset := by
  by_cases hnone : entries = []
  · subst hnone
    rfl
  · have hdirectory : ((imageOf format entries).withData data).debugDirectory =
        some ⟨sectionAddress, entrySize * entries.length⟩ := if_neg hnone
    have hcontains : Section.contains ⟨".text", sectionAddress, max (sectionData entries).length 1,
        ((sectionData entries).padTo 0x200).length, sectionFileOffset⟩ sectionAddress = true := by
      simp only [Section.contains, Bool.and_eq_true, decide_eq_true_eq]
      omega
    have hoffset : ((imageOf format entries).withData data).offset? sectionAddress =
        some sectionFileOffset := by
      simp [Image.offset?, Image.withData, imageOf, hcontains]
    have hcount : entrySize * entries.length / debugEntrySize = entries.length :=
      Nat.mul_div_cancel_left _ (by decide)
    simp only [Image.debugEntries, hdirectory, hoffset, hcount]
    rfl

theorem imageOf_debugEntries (format : Format) (hfits : Fits entries) :
    (imageOf format entries).debugEntries =
      .ok (writtenEntries 0 (entrySize * entries.length) entries) :=
  (debugEntries_eq format entries _).trans
    (debugEntriesAt_eq (write_laidOut format entries).contents.left hfits.directory)

structure Describes (p : Image) (entry : DebugEntry) (e : EntrySpec) : Prop where
  kind : entry.kind = e.kind
  data : p.entryData entry = .ok e.data

theorem Image.entryData_of_at {p : Image} {entry : DebugEntry} {data : Bytes} {start : Nat}
    (hstart : p.entryStart entry = start) (hpos : start ≠ 0) (hsize : entry.size = data.length)
    (hat : p.data.At start data) : p.entryData entry = .ok data := by
  simp only [entryData, hstart, hsize]
  rw [if_neg (not_or.mpr ⟨hpos, Nat.not_lt_of_le hat.le_length⟩), hat.slice]

theorem writtenEntries_describe {p : Image} {index offset : Nat}
    (hat : p.data.At (sectionFileOffset + offset) (entries.flatMap (·.data))) :
    List.Forall₂ (Describes p) (writtenEntries index offset entries) entries := by
  induction entries generalizing index offset with
  | nil => exact .nil
  | cons e rest ih =>
    rw [List.flatMap_cons] at hat
    have hnext := hat.right
    rw [Nat.add_assoc] at hnext
    refine .cons ⟨rfl, ?_⟩ (ih hnext)
    have hpos : sectionFileOffset + offset ≠ 0 := by
      unfold sectionFileOffset
      omega
    exact Image.entryData_of_at (if_pos hpos) hpos rfl hat.left

theorem imageOf_describes (format : Format) (entries : List EntrySpec) :
    List.Forall₂ (Describes (imageOf format entries))
      (writtenEntries 0 (entrySize * entries.length) entries) entries := by
  have hat := (write_laidOut format entries).contents.right
  rw [directoryEntries_length] at hat
  exact writtenEntries_describe hat

end SourceRecovery.Pe
