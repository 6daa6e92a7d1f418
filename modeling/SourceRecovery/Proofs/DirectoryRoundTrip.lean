import Mathlib.Data.List.Forall2
import SourceRecovery.Proofs.EntryIsolation
import SourceRecovery.Proofs.ImageLayout

/-! What a debug directory was written for is read from it again. File pointers may be zeroed in the
written image: data that is there is then found through its address and the section table. -/
namespace SourceRecovery

namespace Bytes

/-- The bytes from `offset` on are replaced by `part`. -/
def put (data : Bytes) (offset : Nat) (part : Bytes) : Bytes :=
  data.take offset ++ part ++ data.drop (offset + part.length)

variable {data part : Bytes} {offset : Nat}

theorem put_length (h : offset + part.length ≤ data.length) :
    (data.put offset part).length = data.length := by
  simp only [put, List.length_append, List.length_take, List.length_drop]
  omega

theorem put_at (h : offset + part.length ≤ data.length) : (data.put offset part).At offset part :=
  ⟨data.take offset, data.drop (offset + part.length), by rw [put, List.append_assoc], by
    rw [List.length_take]
    omega⟩

theorem getElem?_put_of_outside (h : offset + part.length ≤ data.length) {i : Nat}
    (hi : i < offset ∨ offset + part.length ≤ i) : (data.put offset part)[i]? = data[i]? := by
  have hfront : (data.take offset).length = offset := by
    rw [List.length_take]
    omega
  rcases hi with hlow | hhigh
  · rw [put, List.append_assoc, List.getElem?_append_left (by omega),
      List.getElem?_take_of_lt hlow]
  · rw [put, List.getElem?_append_right (by rw [List.length_append]; omega), List.length_append,
      hfront, List.getElem?_drop]
    congr 1
    omega

theorem slice_slice {data : Bytes} {start size inner width : Nat} (h : inner + width ≤ size) :
    (data.slice start size).slice inner width = data.slice (start + inner) width := by
  rw [slice, slice, slice, List.drop_take, List.take_take, List.drop_drop,
    Nat.min_eq_left (by omega)]

theorem slice_put_of_outside (h : offset + part.length ≤ data.length) {start size : Nat}
    (hoff : start + size ≤ offset ∨ offset + part.length ≤ start) :
    (data.put offset part).slice start size = data.slice start size :=
  slice_congr fun i hlow hhigh => getElem?_put_of_outside h (by omega)

theorem At.put {other : Bytes} {start : Nat} (hat : data.At start other)
    (h : offset + part.length ≤ data.length)
    (hoff : start + other.length ≤ offset ∨ offset + part.length ≤ start) :
    (data.put offset part).At start other := by
  rw [at_iff_slice, put_length h, slice_put_of_outside h hoff]
  exact at_iff_slice.mp hat

end Bytes

namespace Pe

open Writer

def dataOffset (entries : List EntrySpec) (k : Nat) : Nat :=
  entrySize * entries.length + ((entries.take k).flatMap (·.data)).length

def pointerPlace (k : Nat) : Nat := sectionFileOffset + entrySize * k + 24

/-- The image with the file pointers of these entries zeroed. -/
def clearPointers (image : Bytes) (cleared : List Nat) : Bytes :=
  cleared.foldr (fun k image => image.put (pointerPlace k) (zeros 4)) image

def entryAt (image : Bytes) (k : Nat) : DebugEntry :=
  DebugEntry.ofFields k (image.slice (sectionFileOffset + entrySize * k) entrySize)

variable {format : Format} {entries : List EntrySpec} {image : Bytes} {k : Nat} {e : EntrySpec}

theorem debugEntriesAt_eq_map {data : Bytes} {count index offset : Nat}
    (h : offset + debugEntrySize * count ≤ data.length) :
    debugEntriesAt data count index offset = .ok ((List.range count).map fun k =>
      DebugEntry.ofFields (index + k)
        (data.slice (offset + debugEntrySize * k) debugEntrySize)) := by
  induction count generalizing index offset with
  | zero => rfl
  | succ count ih =>
    rw [Nat.mul_succ] at h
    have hinside : ¬ data.length < offset + debugEntrySize := by omega
    have hroom : offset + debugEntrySize + debugEntrySize * count ≤ data.length := by omega
    rw [debugEntriesAt, if_neg hinside, ih hroom, List.range_succ_eq_map, List.map_cons,
      List.map_map]
    simp only [bind, Except.bind, pure, Except.pure, Except.ok.injEq, List.cons.injEq]
    refine ⟨rfl, List.map_congr_left fun k _ => ?_⟩
    have hindex : index + 1 + k = index + (k + 1) := by omega
    have hplace : offset + debugEntrySize + debugEntrySize * k =
        offset + debugEntrySize * (k + 1) := by
      rw [Nat.mul_succ]
      omega
    rw [Function.comp_apply, hindex, hplace]

theorem EntriesFit.getElem? {offset : Nat} (h : EntriesFit offset entries)
    (he : entries[k]? = some e) : e.kind < Bytes.capacity 4 ∧ e.data.length < Bytes.capacity 4 ∧
      sectionAddress + (offset + ((entries.take k).flatMap (·.data)).length) <
        Bytes.capacity 4 := by
  induction entries generalizing offset k with
  | nil => cases he
  | cons first rest ih =>
    obtain ⟨hkind, hlength, haddress, hrest⟩ := h
    cases k with
    | zero =>
      cases he
      exact ⟨hkind, hlength, haddress⟩
    | succ k =>
      obtain ⟨hkind, hlength, haddress⟩ := ih hrest he
      refine ⟨hkind, hlength, ?_⟩
      rw [List.take_succ_cons, List.flatMap_cons, List.length_append, ← Nat.add_assoc offset]
      exact haddress

theorem directoryEntries_at {offset : Nat} (he : entries[k]? = some e) :
    (directoryEntries offset entries).At (entrySize * k)
      (directoryEntry e (offset + ((entries.take k).flatMap (·.data)).length)) := by
  induction entries generalizing offset k with
  | nil => cases he
  | cons first rest ih =>
    cases k with
    | zero =>
      cases he
      exact .here _ _
    | succ k =>
      have hrest := (Bytes.At.behind (directoryEntry first offset)
        (directoryEntries (offset + first.data.length) rest) []).trans (ih he)
      rw [List.append_nil, directoryEntry_length, Nat.add_assoc] at hrest
      rw [directoryEntries, List.take_succ_cons, List.flatMap_cons, List.length_append,
        Nat.mul_succ, Nat.add_comm (entrySize * k)]
      exact hrest

theorem flatMap_data_at (he : entries[k]? = some e) :
    Bytes.At (entries.flatMap (·.data)) ((entries.take k).flatMap (·.data)).length e.data := by
  obtain ⟨hk, rfl⟩ := List.getElem?_eq_some_iff.mp he
  have hsplit : entries = entries.take k ++ entries[k] :: entries.drop (k + 1) := by
    rw [List.getElem_cons_drop, List.take_append_drop]
  have hdata : entries.flatMap (·.data) = (entries.take k).flatMap (·.data) ++
      (entries[k].data ++ (entries.drop (k + 1)).flatMap (·.data)) := by
    conv_lhs => rw [hsplit]
    rw [List.flatMap_append, List.flatMap_cons]
  rw [hdata]
  exact .behind _ _ _

theorem HeadersLaidOut.put (h : HeadersLaidOut format entries image) {offset : Nat} {part : Bytes}
    (hlow : sectionFileOffset ≤ offset) (hinside : offset + part.length ≤ image.length) :
    HeadersLaidOut format entries (image.put offset part) := by
  have hdos : Signature.dosHeader.length = 2 := by decide
  have hpe : Signature.peHeader.length = 4 := by decide
  have hoffset : 0x200 ≤ offset := hlow
  have hformat : format.directoryCountOffset ≤ 108 := by cases format <;> decide
  refine ⟨h.dos.put hinside ?_, h.pointer.put hinside ?_, h.pe.put hinside ?_,
    h.coff.put hinside ?_, h.optional.put hinside ?_, h.sectionTable.put hinside ?_⟩
  · omega
  · rw [Bytes.ofNatLE_length, peHeaderPointer]
    omega
  · omega
  · rw [coffHeader_length, coffHeaderSize]
    omega
  · rw [optionalHeader_length]
    omega
  · rw [sectionHeader_length, sectionHeaderSize]
    omega

theorem entryAt_fields (image : Bytes) (k : Nat) :
    let place := sectionFileOffset + entrySize * k
    entryAt image k = ⟨k, Bytes.toNatLE (image.slice (place + 12) 4),
      Bytes.toNatLE (image.slice (place + 8) 2), Bytes.toNatLE (image.slice (place + 10) 2),
      Bytes.toNatLE (image.slice (place + 16) 4), Bytes.toNatLE (image.slice (place + 20) 4),
      Bytes.toNatLE (image.slice (pointerPlace k) 4)⟩ := by
  simp only [entryAt, DebugEntry.ofFields, pointerPlace]
  rw [Bytes.slice_slice (by decide), Bytes.slice_slice (by decide), Bytes.slice_slice (by decide),
    Bytes.slice_slice (by decide), Bytes.slice_slice (by decide), Bytes.slice_slice (by decide)]

theorem entryAt_put_same (hinside : pointerPlace k + 4 ≤ image.length) :
    entryAt (image.put (pointerPlace k) (zeros 4)) k = { entryAt image k with pointer := 0 } := by
  have hzero : Bytes.toNatLE (zeros 4) = 0 := by decide
  have hroom : pointerPlace k + (zeros 4).length ≤ image.length := hinside
  have hpointer := (Bytes.put_at hroom).slice
  have hother : ∀ start size, start + size ≤ sectionFileOffset + entrySize * k + 24 →
      (image.put (pointerPlace k) (zeros 4)).slice start size = image.slice start size :=
    fun start size hoff => Bytes.slice_put_of_outside hroom (Or.inl hoff)
  change (image.put (pointerPlace k) (zeros 4)).slice (pointerPlace k) 4 = zeros 4 at hpointer
  rw [entryAt_fields, entryAt_fields, hpointer, hzero]
  simp (disch := omega) only [hother]

theorem entryAt_put_other {j : Nat} (hinside : pointerPlace k + 4 ≤ image.length) (hne : j ≠ k) :
    entryAt (image.put (pointerPlace k) (zeros 4)) j = entryAt image j := by
  rw [entryAt, entryAt, Bytes.slice_put_of_outside hinside]
  change _ ∨ pointerPlace k + 4 ≤ _
  unfold pointerPlace entrySize
  omega

/-- A written image in which the file pointers of some entries are zero, and nothing else of what is
read is changed. -/
structure Cleared (format : Format) (entries : List EntrySpec) (cleared : List Nat)
    (image : Bytes) : Prop where
  headers : HeadersLaidOut format entries image
  contents : image.At (sectionFileOffset + entrySize * entries.length) (entries.flatMap (·.data))
  entry : ∀ (k : Nat) e, entries[k]? = some e → entryAt image k = ⟨k, e.kind, 0x100, 0x100,
    e.data.length, sectionAddress + dataOffset entries k,
    if k ∈ cleared then 0 else sectionFileOffset + dataOffset entries k⟩

theorem write_cleared (format : Format) (hfits : Fits entries) :
    Cleared format entries [] (write format entries) := by
  have h := write_laidOut format entries
  have hcontents := h.contents.right
  rw [directoryEntries_length] at hcontents
  refine ⟨h.toHeadersLaidOut, hcontents, fun k e he => ?_⟩
  obtain ⟨hkind, hlength, haddress⟩ := hfits.directory.getElem? he
  have hfields := (h.contents.left.trans (directoryEntries_at he)).slice
  rw [directoryEntry_length] at hfields
  rw [entryAt, hfields, ofFields_directoryEntry hkind hlength haddress, if_neg (List.not_mem_nil)]
  rfl

theorem Cleared.put {cleared : List Nat} (h : Cleared format entries cleared image)
    (hk : k < entries.length) :
    Cleared format entries (k :: cleared) (image.put (pointerPlace k) (zeros 4)) := by
  have hplace : pointerPlace k + 4 ≤ sectionFileOffset + entrySize * entries.length := by
    unfold pointerPlace entrySize
    omega
  have hinside : pointerPlace k + 4 ≤ image.length :=
    Nat.le_trans hplace (Nat.le_trans (Nat.le_add_right _ _) h.contents.le_length)
  refine ⟨h.headers.put ?_ hinside, h.contents.put hinside (Or.inr hplace), fun j e he => ?_⟩
  · unfold pointerPlace
    omega
  · by_cases hj : j = k
    · subst hj
      rw [entryAt_put_same hinside, h.entry j e he, if_pos List.mem_cons_self]
    · rw [entryAt_put_other hinside hj, h.entry j e he]
      simp [hj]

theorem clearPointers_cleared (format : Format) (hfits : Fits entries) {cleared : List Nat}
    (hcleared : ∀ k ∈ cleared, k < entries.length) :
    Cleared format entries cleared (clearPointers (write format entries) cleared) := by
  induction cleared with
  | nil => exact write_cleared format hfits
  | cons k rest ih =>
    exact (ih fun j hj => hcleared j (List.mem_cons_of_mem k hj)).put
      (hcleared k List.mem_cons_self)

theorem dataOffset_add_le (he : entries[k]? = some e) :
    dataOffset entries k + e.data.length ≤ (sectionData entries).length := by
  have hinside := (flatMap_data_at he).le_length
  rw [sectionData, List.length_append, directoryEntries_length, dataOffset]
  omega

theorem offset?_of_inside (format : Format) (image : Bytes) {offset : Nat}
    (h : offset < (sectionData entries).length) :
    ((imageOf format entries).withData image).offset? (sectionAddress + offset) =
      some (sectionFileOffset + offset) := by
  have hcontains : Section.contains ⟨".text", sectionAddress, max (sectionData entries).length 1,
      ((sectionData entries).padTo 0x200).length, sectionFileOffset⟩ (sectionAddress + offset) =
        true := by
    simp only [Section.contains, Bool.and_eq_true, decide_eq_true_eq]
    omega
  simp only [Image.offset?, Image.withData, imageOf, List.find?_cons, hcontains, Option.map_some]
  rw [Nat.add_sub_cancel_left, Nat.add_comm]

theorem Cleared.data_at {cleared : List Nat} (h : Cleared format entries cleared image)
    (he : entries[k]? = some e) :
    image.At (sectionFileOffset + dataOffset entries k) e.data := by
  rw [dataOffset, ← Nat.add_assoc]
  exact h.contents.trans (flatMap_data_at he)

/-- Through a pointer, or through the address where the pointer is zero, an entry leads to its
data. Without bytes there is nothing to find at an address, which may lie behind the section. -/
theorem Cleared.entryData_eq {cleared : List Nat} (h : Cleared format entries cleared image)
    (he : entries[k]? = some e) {entry : DebugEntry} (hsize : entry.size = e.data.length)
    (haddress : entry.address = sectionAddress + dataOffset entries k)
    (hpointer : entry.pointer = sectionFileOffset + dataOffset entries k ∨
      entry.pointer = 0 ∧ e.data ≠ []) :
    ((imageOf format entries).withData image).entryData entry = .ok e.data := by
  have hpos : sectionFileOffset + dataOffset entries k ≠ 0 := by
    unfold sectionFileOffset
    omega
  have hstart : ((imageOf format entries).withData image).entryStart entry =
      sectionFileOffset + dataOffset entries k := by
    rcases hpointer with hpointer | ⟨hpointer, hdata⟩
    · rw [Image.entryStart, hpointer, if_pos hpos]
    · have hinside := dataOffset_add_le he
      have hlength := List.length_pos_iff.mpr hdata
      have hmapped := offset?_of_inside format image
        (show dataOffset entries k < (sectionData entries).length by omega)
      have haddressPos : sectionAddress + dataOffset entries k ≠ 0 := by
        unfold sectionAddress
        omega
      rw [Image.entryStart, hpointer, haddress, if_neg (not_not_intro rfl), if_pos haddressPos,
        hmapped, Option.getD_some]
  exact Image.entryData_of_at hstart hpos hsize (h.data_at he)

theorem Cleared.debugEntries_eq {cleared : List Nat} (h : Cleared format entries cleared image) :
    ((imageOf format entries).withData image).debugEntries =
      .ok ((List.range entries.length).map (entryAt image)) := by
  have hinside : sectionFileOffset + debugEntrySize * entries.length ≤ image.length :=
    Nat.le_trans (Nat.le_add_right _ _) h.contents.le_length
  rw [Pe.debugEntries_eq, debugEntriesAt_eq_map hinside]
  simp only [Nat.zero_add]
  rfl

/-- What is read of an entry that was written, under its number, for these data. -/
structure Returns (p : Image) (cleared : List Nat) (entry : DebugEntry) (spec : EntrySpec × Nat) :
    Prop where
  index : entry.index = spec.2
  kind : entry.kind = spec.1.kind
  size : entry.size = spec.1.data.length
  pointer : entry.pointer = 0 ↔ spec.2 ∈ cleared
  data : p.entryData entry = .ok spec.1.data
  byAddress : spec.1.data ≠ [] → p.entryData { entry with pointer := 0 } = .ok spec.1.data
  pdb : ∀ pdb stream, spec.1.data = embeddedPdbData pdb stream → pdb.length < Bytes.capacity 4 →
    Deflate.Decodes .blockStart #[] (Deflate.BitStream.ofBytes stream) ⟨pdb, .finished⟩ →
    p.embeddedPdb entry = .ok pdb

theorem embeddedPdb_of_data {p : Image} {entry : DebugEntry} {pdb stream : Bytes}
    (hdata : p.entryData entry = .ok (embeddedPdbData pdb stream))
    (hlength : pdb.length < Bytes.capacity 4)
    (hstream : Deflate.Decodes .blockStart #[] (Deflate.BitStream.ofBytes stream)
      ⟨pdb, .finished⟩) :
    p.embeddedPdb entry = .ok pdb := by
  have hunpack : Image.unpackPdb entry.index (embeddedPdbData pdb stream) = .ok pdb :=
    Image.unpackPdb_eq_ok_iff.mpr ⟨Bytes.ofNatLE 4 pdb.length, stream, rfl,
      Bytes.ofNatLE_length 4 _, Bytes.toNatLE_ofNatLE hlength, hstream⟩
  exact bind_eq_ok.mpr ⟨_, hdata, hunpack⟩

theorem Cleared.returns {cleared : List Nat} (h : Cleared format entries cleared image)
    (hcleared : ∀ k ∈ cleared, ∃ e, entries[k]? = some e ∧ e.data ≠ [])
    (he : entries[k]? = some e) :
    Returns ((imageOf format entries).withData image) cleared (entryAt image k) (e, k) := by
  have hentry := h.entry k e he
  have hnonempty : k ∈ cleared → e.data ≠ [] := by
    intro hk
    obtain ⟨e', he', hdata⟩ := hcleared k hk
    cases he.symm.trans he'
    exact hdata
  have hdata : ((imageOf format entries).withData image).entryData (entryAt image k) =
      .ok e.data := by
    refine h.entryData_eq he (by rw [hentry]) (by rw [hentry]) ?_
    rw [hentry]
    by_cases hk : k ∈ cleared
    · exact Or.inr ⟨if_pos hk, hnonempty hk⟩
    · exact Or.inl (if_neg hk)
  exact {
    index := by rw [hentry]
    kind := by rw [hentry]
    size := by rw [hentry]
    pointer := by
      rw [hentry]
      simp [sectionFileOffset]
    data := hdata
    byAddress := fun hne =>
      h.entryData_eq he (by rw [hentry]) (by rw [hentry]) (Or.inr ⟨rfl, hne⟩)
    pdb := fun pdb stream hspec hlength hstream =>
      embeddedPdb_of_data (hspec ▸ hdata) hlength hstream }

theorem Cleared.forall₂_returns {cleared : List Nat} (h : Cleared format entries cleared image)
    (hcleared : ∀ k ∈ cleared, ∃ e, entries[k]? = some e ∧ e.data ≠ []) :
    List.Forall₂ (Returns ((imageOf format entries).withData image) cleared)
      ((List.range entries.length).map (entryAt image)) entries.zipIdx := by
  refine List.forall₂_iff_get.mpr ⟨by simp, fun k hk hk' => ?_⟩
  have hlength : k < entries.length := by simpa using hk
  have hreturns := h.returns hcleared (List.getElem?_eq_getElem hlength)
  simpa using hreturns

theorem forall₂_returns_of_kind {p : Image} {cleared : List Nat} {found : List DebugEntry}
    {specs : List (EntrySpec × Nat)} (h : List.Forall₂ (Returns p cleared) found specs)
    (kind : Nat) :
    List.Forall₂ (Returns p cleared) (found.filter fun entry => entry.kind = kind)
      (specs.filter fun spec => spec.1.kind = kind) := by
  refine List.rel_filter (fun entry spec hreturns => ?_) h
  simp only [hreturns.kind]

/-- Whatever entries a debug directory is written for, of either format, they are read from it in
their order, each with its number, kind, length and data. Zeroing the file pointers of entries
that have data changes nothing of this. The entries that embed a PDB are those of its kind, and where
the data are such a PDB it is unpacked. -/
theorem written_directory_read_back (format : Format) {entries : List EntrySpec} {cleared : List Nat}
    (hfits : Fits entries)
    (hcleared : ∀ k ∈ cleared, ∃ e, entries[k]? = some e ∧ e.data ≠ []) :
    ∃ p found, Image.read (clearPointers (write format entries) cleared) = .ok p ∧
      p.format = format ∧ p.debugEntries = .ok found ∧
      List.Forall₂ (Returns p cleared) found entries.zipIdx ∧
      p.embeddedEntries = .ok (found.filter fun entry => entry.kind = 17) ∧
      List.Forall₂ (Returns p cleared) (found.filter fun entry => entry.kind = 17)
        (entries.zipIdx.filter fun spec => spec.1.kind = 17) := by
  have hinside : ∀ k ∈ cleared, k < entries.length := by
    intro k hk
    obtain ⟨e, he, _⟩ := hcleared k hk
    exact (List.getElem?_eq_some_iff.mp he).1
  have h := clearPointers_cleared format hfits hinside
  have hfound := h.forall₂_returns hcleared
  exact ⟨_, _, h.headers.read hfits, rfl, h.debugEntries_eq, hfound,
    map_eq_ok.mpr ⟨_, h.debugEntries_eq, rfl⟩, forall₂_returns_of_kind hfound 17⟩

def mixedEntries : List EntrySpec :=
  [⟨2, Signature.ofText "RSDS"⟩, ⟨16, []⟩, ⟨17, embeddedPdbData [65] [1, 1, 0, 0xFE, 0xFF, 65]⟩]

theorem mixedEntries_read_back :
    ∃ p found entry, Image.read (clearPointers (write .pe32Plus mixedEntries) [2]) = .ok p ∧
      p.debugEntries = .ok found ∧ found.length = 3 ∧ found[2]? = some entry ∧
      entry.pointer = 0 ∧ p.embeddedPdb entry = .ok [65] := by
  have hfits : Fits mixedEntries := ⟨by decide, by decide +kernel⟩
  have hcleared : ∀ k ∈ [2], ∃ e, mixedEntries[k]? = some e ∧ e.data ≠ [] := by
    intro k hk
    obtain rfl := List.mem_singleton.mp hk
    exact ⟨_, rfl, by decide⟩
  have hstream : Deflate.Decodes .blockStart #[]
      (Deflate.BitStream.ofBytes [1, 1, 0, 0xFE, 0xFF, 65]) ⟨[65], .finished⟩ :=
    (inflateExact_eq_ok_iff.mp (show inflateExact _ 1 = .ok [65] by rfl)).1
  obtain ⟨p, found, hread, _, hfound, hreturns, _⟩ :=
    written_directory_read_back .pe32Plus hfits hcleared
  have hlength : found.length = 3 := hreturns.length_eq
  have hentry := (List.forall₂_iff_get.mp hreturns).2 2 (by omega) (by decide)
  exact ⟨p, found, found[2], hread, hfound, hlength, List.getElem?_eq_getElem _,
    hentry.pointer.mpr (by decide), hentry.pdb [65] _ rfl (by decide) hstream⟩

end Pe
end SourceRecovery
