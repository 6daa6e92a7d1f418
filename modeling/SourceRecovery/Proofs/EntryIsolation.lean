import Mathlib.Data.List.Forall2
import SourceRecovery.Pdb.Writer
import SourceRecovery.Pe.Writer
import SourceRecovery.Pipeline
import SourceRecovery.Proofs.ByteFields
import SourceRecovery.Proofs.CappedInflation
import SourceRecovery.Proofs.Sequences

/-! The PDBs embedded in an image are opened each on its own. Headers and directory decide whether
the image can be read at all; after that an entry gives what its own data and index make of it. -/
namespace SourceRecovery

namespace Pe

theorem debugEntriesAt_fields {data : Bytes} {count index offset : Nat} {entries : List DebugEntry}
    (h : debugEntriesAt data count index offset = .ok entries) :
    entries.length = count ∧ ∀ (k : Nat) e, entries[k]? = some e →
      ∃ fields, data.field (offset + debugEntrySize * k) debugEntrySize = .ok fields ∧
        e = DebugEntry.ofFields (index + k) fields := by
  induction count generalizing index offset entries with
  | zero =>
    cases h
    exact ⟨rfl, fun k e he => by cases he⟩
  | succ count ih =>
    rw [debugEntriesAt] at h
    split at h
    · cases h
    · rename_i hinside
      obtain ⟨rest, hrest, h⟩ := bind_eq_ok.mp h
      cases h
      obtain ⟨hlength, hfields⟩ := ih hrest
      refine ⟨by rw [List.length_cons, hlength], fun k e he => ?_⟩
      cases k with
      | zero =>
        cases he
        exact ⟨_, Bytes.field_of_le (Nat.le_of_not_lt hinside), rfl⟩
      | succ k =>
        obtain ⟨fields, hfield, rfl⟩ := hfields k e he
        have hplace : offset + debugEntrySize + debugEntrySize * k =
            offset + debugEntrySize * (k + 1) := by
          rw [Nat.mul_succ]
          omega
        have hindex : index + 1 + k = index + (k + 1) := by omega
        exact ⟨fields, hplace ▸ hfield, by rw [hindex]⟩

namespace Image

variable {p q : Image}

/-- The entries of the debug directory in order, each read from bytes of its own in the file. -/
inductive Lists (p : Image) : List DebugEntry → Prop
  | absent (h : p.debugDirectory = none) : Lists p []
  | directory {d offset entries} (hdirectory : p.debugDirectory = some d)
      (hoffset : p.offset? d.address = some offset)
      (hlength : entries.length = d.size / debugEntrySize)
      (hentries : ∀ (k : Nat) e, entries[k]? = some e →
        ∃ fields, p.data.field (offset + debugEntrySize * k) debugEntrySize = .ok fields ∧
          e = DebugEntry.ofFields k fields) : Lists p entries

theorem debugEntries_lists {entries : List DebugEntry} (h : p.debugEntries = .ok entries) :
    p.Lists entries := by
  unfold debugEntries at h
  split at h
  · cases h
    exact .absent ‹_›
  · split at h
    · cases h
    · obtain ⟨hlength, hfields⟩ := debugEntriesAt_fields h
      refine .directory ‹_› ‹_› hlength fun k e he => ?_
      obtain ⟨fields, hfield, he⟩ := hfields k e he
      exact ⟨fields, hfield, by rw [he, Nat.zero_add]⟩

structure HasData (p : Image) (e : DebugEntry) (i : Nat) : Prop where
  start_pos : p.entryStart e ≠ 0
  inside : p.entryStart e + e.size ≤ p.data.length
  low : p.entryStart e ≤ i
  high : i < p.entryStart e + e.size

def Embeds (p : Image) (e : DebugEntry) (pdb : Pdb.Image) : Prop :=
  ∃ size stream content, p.entryData e = .ok (Signature.embeddedPdb ++ size ++ stream) ∧
    size.length = 4 ∧ Bytes.toNatLE size = content.length ∧
    Deflate.Decodes .blockStart #[] (Deflate.BitStream.ofBytes stream) ⟨content, .finished⟩ ∧
    Pdb.Image.read content = .ok pdb

theorem unpackPdb_eq_ok_iff {index : Nat} {data content : Bytes} :
    unpackPdb index data = .ok content ↔
      ∃ size stream, data = Signature.embeddedPdb ++ size ++ stream ∧ size.length = 4 ∧
        Bytes.toNatLE size = content.length ∧
        Deflate.Decodes .blockStart #[] (Deflate.BitStream.ofBytes stream) ⟨content, .finished⟩ := by
  have hsignature : Signature.embeddedPdb.length = 4 := by decide
  constructor
  · intro h
    unfold unpackPdb at h
    split at h
    · cases h
    · rename_i hwell
      obtain ⟨hlength, hfront⟩ := not_or.mp hwell
      obtain ⟨hdecodes, hsize⟩ := inflateExact_eq_ok_iff.mp (mapError_eq_ok.mp h)
      refine ⟨data.slice 4 4, data.drop 8, ?_, ?_, hsize.symm, hdecodes⟩
      · rw [← Decidable.not_not.mp hfront, Bytes.slice, ← List.take_add, List.take_append_drop]
      · rw [Bytes.slice, List.length_take, List.length_drop]
        omega
  · rintro ⟨size, stream, rfl, hlength, hsize, hdecodes⟩
    have hfront : (Signature.embeddedPdb ++ size ++ stream).take 4 = Signature.embeddedPdb := by
      rw [List.append_assoc, List.take_left' hsignature]
    have hmiddle : Bytes.slice (Signature.embeddedPdb ++ size ++ stream) 4 4 = size := by
      rw [List.append_assoc, Bytes.slice, List.drop_left' hsignature, List.take_left' hlength]
    have hback : (Signature.embeddedPdb ++ size ++ stream).drop 8 = stream :=
      List.drop_left' (by rw [List.length_append, hsignature, hlength])
    have hshort : ¬ ((Signature.embeddedPdb ++ size ++ stream).length < 8 ∨
        (Signature.embeddedPdb ++ size ++ stream).take 4 ≠ Signature.embeddedPdb) := by
      simp only [hfront, ne_eq, not_true_eq_false, or_false, List.length_append, hsignature,
        hlength]
      omega
    rw [unpackPdb, if_neg hshort, hmiddle, hback]
    exact mapError_eq_ok.mpr (inflateExact_eq_ok_iff.mpr ⟨hdecodes, hsize.symm⟩)

theorem openEntry_eq_ok_iff {e : DebugEntry} {pdb : Pdb.Image} :
    p.openEntry e = .ok pdb ↔ p.Embeds e pdb := by
  constructor
  · intro h
    obtain ⟨content, hcontent, hread⟩ := bind_eq_ok.mp h
    obtain ⟨data, hdata, hunpack⟩ := bind_eq_ok.mp (mapError_eq_ok.mp hcontent)
    obtain ⟨size, stream, rfl, hlength, hsize, hdecodes⟩ := unpackPdb_eq_ok_iff.mp hunpack
    exact ⟨size, stream, content, hdata, hlength, hsize, hdecodes, mapError_eq_ok.mp hread⟩
  · rintro ⟨size, stream, content, hdata, hlength, hsize, hdecodes, hread⟩
    have hunpack : unpackPdb e.index (Signature.embeddedPdb ++ size ++ stream) = .ok content :=
      unpackPdb_eq_ok_iff.mpr ⟨size, stream, rfl, hlength, hsize, hdecodes⟩
    exact bind_eq_ok.mpr ⟨content, mapError_eq_ok.mpr (bind_eq_ok.mpr ⟨_, hdata, hunpack⟩),
      mapError_eq_ok.mpr hread⟩

theorem openEntry_congr {e : DebugEntry} (h : p.entryData e = q.entryData e) :
    p.openEntry e = q.openEntry e := by
  rw [openEntry, embeddedPdb, h, openEntry, embeddedPdb]

/-- Images of one length with the same headers and sections. -/
structure SameHeaders (p q : Image) : Prop where
  machine : p.machine = q.machine
  format : p.format = q.format
  debugDirectory : p.debugDirectory = q.debugDirectory
  sections : p.sections = q.sections
  length : p.data.length = q.data.length

theorem SameHeaders.entryData_eq (h : p.SameHeaders q) {e : DebugEntry}
    (hbytes : ∀ i, p.HasData e i → p.data[i]? = q.data[i]?) :
    p.entryData e = q.entryData e := by
  -- Where the data begins is told from sections alone, so both images look in one place.
  have hstart : p.entryStart e = q.entryStart e := by
    rw [entryStart, offset?, h.sections, entryStart, offset?]
  rw [entryData, entryData, ← hstart, ← h.length]
  split
  · rfl
  · rename_i hwell
    obtain ⟨hpos, hinside⟩ := not_or.mp hwell
    rw [Bytes.slice_congr fun i hlow hhigh => hbytes i ⟨hpos, Nat.le_of_not_lt hinside, hlow, hhigh⟩]

theorem read_data {data : Bytes} (h : read data = .ok p) : p.data = data := by
  unfold read at h
  split at h
  · cases h
  · obtain ⟨peOffset, _, h⟩ := bind_eq_ok.mp h
    split at h
    · cases h
    · obtain ⟨coff, _, h⟩ := bind_eq_ok.mp h
      obtain ⟨magic, _, h⟩ := bind_eq_ok.mp h
      split at h
      · cases h
      · obtain ⟨directory, _, h⟩ := bind_eq_ok.mp h
        obtain ⟨sections, _, h⟩ := bind_eq_ok.mp h
        cases h
        rfl

end Image
end Pe

namespace Pipeline

open Pe

def partOf (p : Pe.Image) (e : DebugEntry) : Part := embeddedPart (e, p.openEntry e)

theorem imageSource_parts {d : Disk} {path : Path} {data : Bytes} {p : Pe.Image}
    {entries : List DebugEntry} (hdata : d.read path = .ok data) (hread : Pe.Image.read data = .ok p)
    (hentries : p.debugEntries = .ok entries) :
    imageSource.parts d path = .ofList ((entries.filter (·.isEmbeddedPdb)).map (partOf p)) := by
  have hopened : (Pe.Image.read data).bind (·.openEmbedded) =
      .ok ((entries.filter (·.isEmbeddedPdb)).map fun e => (e, p.openEntry e)) := by
    simp only [hread, Except.bind, Image.openEmbedded, Image.embeddedEntries, hentries, Except.map]
  simp only [imageSource, hdata, hopened, List.map_map]
  rfl

/-- Headers and directory decide whether an image can be read, before any of its entries is. -/
theorem imageSource_refused {d : Disk} {path : Path} {data : Bytes} {e : Pe.FormatError}
    (hdata : d.read path = .ok data)
    (h : (Pe.Image.read data).bind (·.debugEntries) = .error e) :
    imageSource.parts d path = .failed (.format e.message) := by
  have hopened : (Pe.Image.read data).bind (·.openEmbedded) = .error e := by
    cases hread : Pe.Image.read data with
    | error e' =>
      rw [hread] at h
      cases h
      rfl
    | ok p =>
      rw [hread] at h
      simp only [Except.bind] at h
      simp only [Except.bind, Image.openEmbedded, Image.embeddedEntries, h, Except.map]
  simp only [imageSource, hdata, hopened]

/-- What an entry gives: the container of the PDB in its data or, if there is none, an issue under
the number of the entry. -/
inductive Gives (p : Pe.Image) (e : DebugEntry) : Part → Prop
  | container {pdb} (h : p.Embeds e pdb) : Gives p e (.container pdb.container)
  | issue {reason} (h : ∀ pdb, ¬ p.Embeds e pdb) :
      Gives p e (.issue ⟨s!"debug directory entry {e.index}", reason⟩)

theorem gives_partOf (p : Pe.Image) (e : DebugEntry) : Gives p e (partOf p e) := by
  unfold partOf
  cases hopen : p.openEntry e with
  | ok pdb => exact .container (Image.openEntry_eq_ok_iff.mp hopen)
  | error cause =>
    refine .issue fun pdb hembeds => ?_
    cases hopen.symm.trans (Image.openEntry_eq_ok_iff.mpr hembeds)

/-- Of the bytes of a file either headers and directory are malformed, and then nothing is read, or
each entry that embeds a PDB gives one part, in the order of the directory. Two images with the same
headers and directory that agree on the data of all entries but one give the same parts for these. -/
theorem entries_opened_alone :
    (∀ (d : Disk) path data, d.read path = .ok data →
      (∃ e : Pe.FormatError, (Pe.Image.read data).bind (·.debugEntries) = .error e ∧
        imageSource.parts d path = .failed (.format e.message)) ∨
      ∃ p entries parts, Pe.Image.read data = .ok p ∧ p.Lists entries ∧
        imageSource.parts d path = .ofList parts ∧
        List.Forall₂ (Gives p) (entries.filter (·.isEmbeddedPdb)) parts) ∧
    ∀ (d d' : Disk) path path' data data' p q entries k, d.read path = .ok data →
      d'.read path' = .ok data' → Pe.Image.read data = .ok p → Pe.Image.read data' = .ok q →
      p.SameHeaders q → p.debugEntries = .ok entries → q.debugEntries = .ok entries →
      (∀ e ∈ entries, e ≠ k → ∀ i, p.HasData e i → data[i]? = data'[i]?) →
      ∃ parts parts', imageSource.parts d path = .ofList parts ∧
        imageSource.parts d' path' = .ofList parts' ∧ parts.length = parts'.length ∧
        ∀ (j : Nat) e, (entries.filter (·.isEmbeddedPdb))[j]? = some e → e ≠ k →
          parts[j]? = parts'[j]? := by
  refine ⟨?_, ?_⟩
  · intro d path data hdata
    cases hbind : (Pe.Image.read data).bind (·.debugEntries) with
    | error e => exact Or.inl ⟨e, rfl, imageSource_refused hdata hbind⟩
    | ok entries =>
      obtain ⟨p, hread, hentries⟩ := bind_eq_ok.mp hbind
      refine Or.inr ⟨p, entries, _, hread, Image.debugEntries_lists hentries,
        imageSource_parts hdata hread hentries, ?_⟩
      rw [List.forall₂_map_right_iff]
      exact List.forall₂_same.mpr fun e _ => gives_partOf p e
  · intro d d' path path' data data' p q entries k hdata hdata' hread hread' hsame hentries hentries'
      hagree
    refine ⟨_, _, imageSource_parts hdata hread hentries, imageSource_parts hdata' hread' hentries',
      by rw [List.length_map, List.length_map], fun j e he hk => ?_⟩
    have hmem : e ∈ entries := (List.mem_filter.mp (List.mem_of_getElem? he)).1
    have hbytes : ∀ i, p.HasData e i → p.data[i]? = q.data[i]? := by
      rw [Image.read_data hread, Image.read_data hread']
      exact hagree e hmem hk
    have hopen := Image.openEntry_congr (hsame.entryData_eq hbytes)
    rw [List.getElem?_map, List.getElem?_map, he, Option.map_some, Option.map_some, partOf, hopen,
      partOf]

def emptyPdb : Bytes := Pdb.Writer.root [("#Pdb", List.replicate 32 0), ("#~", List.replicate 24 0)]

def storedBlock (data : Bytes) : Bytes :=
  1 :: Bytes.ofNatLE 2 data.length ++ Bytes.ofNatLE 2 (0xFFFF - data.length) ++ data

def imageBehind (bytes : Bytes) : Bytes :=
  Pe.Writer.write .pe32 [⟨17, bytes⟩, ⟨17, Pe.Writer.embeddedPdbData emptyPdb (storedBlock emptyPdb)⟩]

def imageBehindHeaders (bytes : Bytes) : Pe.Image where
  data := imageBehind bytes
  machine := 0x14C
  format := .pe32
  debugDirectory := some ⟨0x2000, 56⟩
  sections := [⟨".text", 0x2000, 189, 0x200, 0x200⟩]

def entryInFront : DebugEntry := ⟨0, 17, 0x100, 0x100, 4, 0x2038, 0x238⟩

def entryBehind : DebugEntry := ⟨1, 17, 0x100, 0x100, 129, 0x203C, 0x23C⟩

theorem imageBehind_opened_alone :
    let disk := fun bytes : Bytes => (⟨⟨.root, []⟩, [(["a.dll"], .file (imageBehind bytes))]⟩ : Disk)
    ∃ parts, imageSource.parts (disk [5, 6, 7, 8]) ⟨.root, ["a.dll"]⟩ = .ofList parts ∧
      parts.length = 2 ∧ parts[1]? = some (.container ⟨0, .ofList []⟩) := by
  intro disk
  have hread : ∀ bytes ∈ [[1, 2, 3, 4], [5, 6, 7, 8]],
      Pe.Image.read (imageBehind bytes) = .ok (imageBehindHeaders bytes) ∧
      (imageBehindHeaders bytes).debugEntries = .ok [entryInFront, entryBehind] := by
    decide +kernel
  have hopened : imageSource.parts (disk [1, 2, 3, 4]) ⟨.root, ["a.dll"]⟩ =
      .ofList [.issue ⟨"debug directory entry 0", "debug entry 0 has no MPDB signature"⟩,
        .container ⟨0, .ofList []⟩] := by
    decide +kernel
  have hbytes : (imageBehind [1, 2, 3, 4]).slice 0x23C 129 =
      (imageBehind [5, 6, 7, 8]).slice 0x23C 129 := by
    decide +kernel
  have hlength : (imageBehind [1, 2, 3, 4]).length = (imageBehind [5, 6, 7, 8]).length := by
    decide +kernel
  obtain ⟨hfirst, hfirstEntries⟩ := hread [1, 2, 3, 4] (by decide)
  obtain ⟨hsecond, hsecondEntries⟩ := hread [5, 6, 7, 8] (by decide)
  have hagree : ∀ e ∈ [entryInFront, entryBehind], e ≠ entryInFront → ∀ i,
      (imageBehindHeaders [1, 2, 3, 4]).HasData e i →
        (imageBehind [1, 2, 3, 4])[i]? = (imageBehind [5, 6, 7, 8])[i]? := by
    intro e he hne i hi
    rcases List.mem_cons.mp he with rfl | he
    · exact absurd rfl hne
    · obtain rfl := List.mem_singleton.mp he
      exact Bytes.getElem?_of_slice_eq hbytes hi.low hi.high
  obtain ⟨parts, parts', hparts, hparts', hcount, hsame⟩ := entries_opened_alone.2 (disk [1, 2, 3, 4])
    (disk [5, 6, 7, 8]) ⟨.root, ["a.dll"]⟩ ⟨.root, ["a.dll"]⟩ _ _ _ _ _ entryInFront rfl rfl hfirst
    hsecond ⟨rfl, rfl, rfl, rfl, hlength⟩ hfirstEntries hsecondEntries hagree
  obtain rfl : _ = parts := congrArg Sequence.items (hopened.symm.trans hparts)
  exact ⟨parts', hparts', hcount.symm, (hsame 1 entryBehind rfl (by decide)).symm⟩

end Pipeline
end SourceRecovery
