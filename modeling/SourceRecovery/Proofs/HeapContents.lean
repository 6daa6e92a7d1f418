import SourceRecovery.Pdb.Document
import SourceRecovery.Pdb.Writer
import SourceRecovery.Proofs.ByteFields
import SourceRecovery.Proofs.Sequences
import SourceRecovery.Proofs.Utf8RoundTrip

/-! What the writer puts into the heaps is read back from them. Heaps are only added to, so an
index stays good in all heaps to come and above all in those of the finished image. -/
namespace SourceRecovery

namespace Pdb.Compressed

theorem encode_length_pos (value : Nat) : 0 < (encode value).length := by
  unfold encode
  split
  · simp
  · split <;> simp

theorem toNat_ofNat_of_eq {n m : Nat} (h : n % 256 = m) : (UInt8.ofNat n).toNat = m := by
  rw [UInt8.toNat_ofNat', h]

theorem read_encode {data : Bytes} {offset value : Nat} (h : Bytes.At data offset (encode value))
    (hvalue : value < bound) :
    read data offset = .ok (value, offset + (encode value).length) := by
  obtain ⟨back, hdrop⟩ := h.drop
  unfold bound at hvalue
  unfold encode at hdrop ⊢
  by_cases hone : value < 0x80
  · rw [if_pos hone] at hdrop ⊢
    have ha : (UInt8.ofNat value).toNat = value := toNat_ofNat_of_eq (by omega)
    rw [read, hdrop]
    simp only [List.cons_append, UInt8.lt_iff_toNat_lt, ha]
    rw [if_pos (by change _ < 128; exact hone)]
    rfl
  rw [if_neg hone] at hdrop ⊢
  by_cases htwo : value < 0x4000
  · rw [if_pos htwo] at hdrop ⊢
    have hform : Bytes.ofNatBE 2 (0x8000 + value) =
        [UInt8.ofNat ((0x8000 + value) / 256), UInt8.ofNat (0x8000 + value)] := rfl
    have ha : (UInt8.ofNat ((0x8000 + value) / 256)).toNat = 128 + value / 256 :=
      toNat_ofNat_of_eq (by omega)
    have hb : (UInt8.ofNat (0x8000 + value)).toNat = value % 256 := toNat_ofNat_of_eq (by omega)
    rw [hform] at hdrop ⊢
    have hjoin : (128 + value / 256) % 64 * 256 + value % 256 = value := by omega
    rw [read, hdrop]
    simp only [List.cons_append, UInt8.lt_iff_toNat_lt, ha, hb, hjoin]
    rw [if_neg (by change ¬ _ < 128; omega), if_pos (by change _ < 192; omega)]
    rfl
  · rw [if_neg htwo] at hdrop ⊢
    have hform : Bytes.ofNatBE 4 (0xC0000000 + value) =
        [UInt8.ofNat ((0xC0000000 + value) / 256 / 256 / 256),
          UInt8.ofNat ((0xC0000000 + value) / 256 / 256), UInt8.ofNat ((0xC0000000 + value) / 256),
          UInt8.ofNat (0xC0000000 + value)] := rfl
    have ha : (UInt8.ofNat ((0xC0000000 + value) / 256 / 256 / 256)).toNat =
        192 + value / 0x1000000 := toNat_ofNat_of_eq (by omega)
    have hb : (UInt8.ofNat ((0xC0000000 + value) / 256 / 256)).toNat = value / 0x10000 % 256 :=
      toNat_ofNat_of_eq (by omega)
    have hc : (UInt8.ofNat ((0xC0000000 + value) / 256)).toNat = value / 0x100 % 256 :=
      toNat_ofNat_of_eq (by omega)
    have hd : (UInt8.ofNat (0xC0000000 + value)).toNat = value % 256 :=
      toNat_ofNat_of_eq (by omega)
    have hjoin : (192 + value / 0x1000000) % 32 * 0x1000000 + value / 0x10000 % 256 * 0x10000 +
        value / 0x100 % 256 * 0x100 + value % 256 = value := by omega
    rw [hform] at hdrop ⊢
    rw [read, hdrop]
    simp only [List.cons_append, UInt8.lt_iff_toNat_lt, ha, hb, hc, hd, hjoin]
    rw [if_neg (by change ¬ _ < 128; omega), if_neg (by change ¬ _ < 192; omega),
      if_pos (by change _ < 224; omega)]
    rfl

end Pdb.Compressed

theorem Guid.ofBytes_toBytes (g : Guid) : Guid.ofBytes g.toBytes = g := by
  have hall : Bytes.At g.toBytes 0 g.toBytes := by
    simpa using Bytes.At.here g.toBytes []
  have h1 := hall.left.left.left.slice
  have h2 := hall.left.left.right.slice
  have h3 := hall.left.right.slice
  have h4 := hall.right.slice
  simp only [List.length_append, Bytes.ofNatLE_length, Bytes.ofNatBE_length, Nat.zero_add,
    Nat.reduceAdd] at h1 h2 h3 h4
  rw [Guid.ofBytes, h1, h2, h3, h4, Bytes.toNatLE_ofNatLE g.data1.toNat_lt,
    Bytes.toNatLE_ofNatLE g.data2.toNat_lt, Bytes.toNatLE_ofNatLE g.data3.toNat_lt,
    Bytes.toNatBE_ofNatBE g.data4.toNat_lt]
  simp

theorem Guid.toBytes_length (g : Guid) : g.toBytes.length = 16 := by
  simp [Guid.toBytes]

namespace Pdb.Writer

theorem separator?_eq_some {name : List Char} {c : Char} (h : separator? name = some c) :
    c = '/' ∨ c = '\\' := by
  unfold separator? at h
  split at h
  · exact Or.inl (Option.some.inj h).symm
  · split at h
    · exact Or.inr (Option.some.inj h).symm
    · cases h

theorem cutAt_eq_splitOn (c : Char) (name : List Char) : cutAt c name = name.splitOn c := by
  induction name with
  | nil => simp [cutAt]
  | cons d rest ih =>
    rw [cutAt, List.splitOn_cons_eq_if_modifyHead, ih]
    by_cases hd : d = c
    · simp [hd]
    · obtain ⟨first, others, hcut⟩ := List.exists_cons_of_ne_nil (List.splitOn_ne_nil c rest)
      simp [hd, hcut]

theorem intercalate_nameParts (name : String) :
    (Image.separator (separatorByte name)).intercalate (nameParts name) = name := by
  unfold separatorByte nameParts
  cases h : separator? name.toList with
  | none => simp [Image.separator]
  | some c =>
    have hc : Image.separator (UInt8.ofNat c.toNat) = c.toString := by
      rcases separator?_eq_some h with rfl | rfl <;> rfl
    have hparts : ((cutAt c name.toList).map String.ofList).map String.toList =
        name.toList.splitOn c := by
      simp [cutAt_eq_splitOn, List.map_map, Function.comp_def]
    have hsingle : c.toString.toList = [c] := String.toList_singleton c
    apply String.ext
    simp only [hc, String.toList_intercalate, hparts, hsingle]
    exact List.intercalate_splitOn c

namespace Heaps

/-- Heaps that have come about by adding to others. -/
structure Extends (h final : Heaps) : Prop where
  blobs : h.blobs <+: final.blobs
  guids : h.guids <+: final.guids

theorem Extends.refl (h : Heaps) : h.Extends h := ⟨List.prefix_refl _, List.prefix_refl _⟩

theorem Extends.trans {h k final : Heaps} (hk : h.Extends k) (hfinal : k.Extends final) :
    h.Extends final :=
  ⟨hk.blobs.trans hfinal.blobs, hk.guids.trans hfinal.guids⟩

theorem Extends.blobs_pos {h final : Heaps} (hfinal : h.Extends final) (h0 : 0 < h.blobs.length) :
    0 < final.blobs.length :=
  Nat.lt_of_lt_of_le h0 hfinal.blobs.length_le

/-- At `index` the blob heap holds `value` behind its length. -/
def Holds (h : Heaps) (index : Nat) (value : Bytes) : Prop :=
  index = 0 ∧ value = [] ∨ 0 < index ∧ value.length < Compressed.bound ∧
    Bytes.At h.blobs index (Compressed.encode value.length ++ value)

theorem Holds.mono {h final : Heaps} {index : Nat} {value : Bytes} (hfinal : h.Extends final)
    (hvalue : h.Holds index value) : final.Holds index value := by
  obtain ⟨more, hmore⟩ := hfinal.blobs
  rcases hvalue with hnone | ⟨hindex, hlength, hat⟩
  · exact Or.inl hnone
  · exact Or.inr ⟨hindex, hlength, hmore ▸ hat.append more⟩

def HoldsGuid (h : Heaps) (index : Nat) (g : Guid) : Prop :=
  0 < index ∧ h.guids[index - 1]? = some g

theorem HoldsGuid.mono {h final : Heaps} {index : Nat} {g : Guid} (hfinal : h.Extends final)
    (hg : h.HoldsGuid index g) : final.HoldsGuid index g := by
  obtain ⟨hindex, hget⟩ := hg
  obtain ⟨more, hmore⟩ := hfinal.guids
  obtain ⟨hlt, _⟩ := List.getElem?_eq_some_iff.mp hget
  exact ⟨hindex, by rw [← hmore, List.getElem?_append_left hlt, hget]⟩

theorem addBlob_extends (h : Heaps) (value : Bytes) : h.Extends (h.addBlob value).2 := by
  unfold addBlob
  split
  · exact .refl h
  · exact ⟨⟨_, (List.append_assoc _ _ _).symm⟩, List.prefix_refl _⟩

theorem addBlob_holds {h : Heaps} {value : Bytes} (h0 : 0 < h.blobs.length)
    (hvalue : value.length < Compressed.bound) :
    (h.addBlob value).2.Holds (h.addBlob value).1 value := by
  unfold addBlob
  split
  · exact Or.inl ⟨rfl, ‹_›⟩
  · refine Or.inr ⟨h0, hvalue, h.blobs, [], ?_, rfl⟩
    simp

theorem addGuid_extends (h : Heaps) (g : Guid) : h.Extends (h.addGuid g).2 := by
  unfold addGuid
  split
  · exact .refl h
  · exact ⟨List.prefix_refl _, List.prefix_append _ _⟩

theorem addGuid_holds (h : Heaps) (g : Guid) : (h.addGuid g).2.HoldsGuid (h.addGuid g).1 g := by
  unfold addGuid
  cases hfound : h.guids.idxOf? g with
  | some i =>
    obtain ⟨hlt, heq, _⟩ := List.idxOf?_eq_some_iff.mp hfound
    exact ⟨Nat.succ_pos i, by simp [List.getElem?_eq_getElem hlt, heq]⟩
  | none => exact ⟨Nat.succ_pos _, by simp⟩

inductive Spells (h : Heaps) : Bytes → List String → Prop
  | nil : Spells h [] []
  | cons {index indexes part parts} (hindex : index < Compressed.bound)
      (hpart : h.Holds index (Utf8.encode part)) (hrest : Spells h indexes parts) :
      Spells h (Compressed.encode index ++ indexes) (part :: parts)

def HoldsName (h : Heaps) (index : Nat) (name : String) : Prop :=
  name = "" ∧ index = 0 ∨ name ≠ "" ∧
    ∃ indexes, h.Spells indexes (nameParts name) ∧ h.Holds index (separatorByte name :: indexes)

def PartsFit : List String → Heaps → Prop
  | [], _ => True
  | part :: rest, h =>
    (Utf8.encode part).length < Compressed.bound ∧
      (h.addBlob (Utf8.encode part)).1 < Compressed.bound ∧
      PartsFit rest (h.addBlob (Utf8.encode part)).2

def NameFits (h : Heaps) (name : String) : Prop :=
  name = "" ∨ PartsFit (nameParts name) h ∧
    (separatorByte name :: (addParts (nameParts name) h).1).length < Compressed.bound

def decidePartsFit : (parts : List String) → (h : Heaps) → Decidable (PartsFit parts h)
  | [], _ => isTrue trivial
  | part :: rest, h =>
    have := decidePartsFit rest (h.addBlob (Utf8.encode part)).2
    inferInstanceAs (Decidable (_ ∧ _ ∧ PartsFit rest (h.addBlob (Utf8.encode part)).2))

instance (h : Heaps) (name : String) : Decidable (h.NameFits name) :=
  have := decidePartsFit (nameParts name) h
  inferInstanceAs (Decidable (_ ∨ PartsFit (nameParts name) h ∧ _))

theorem addParts_extends (parts : List String) (h : Heaps) :
    h.Extends (addParts parts h).2 := by
  induction parts generalizing h with
  | nil => exact .refl h
  | cons part rest ih => exact (addBlob_extends h _).trans (ih _)

theorem addParts_spells {parts : List String} {h final : Heaps} (h0 : 0 < h.blobs.length)
    (hfit : PartsFit parts h) (hfinal : (addParts parts h).2.Extends final) :
    final.Spells (addParts parts h).1 parts := by
  induction parts generalizing h with
  | nil => exact .nil
  | cons part rest ih =>
    obtain ⟨hlength, hindex, hrest⟩ := hfit
    have hstep := addBlob_extends h (Utf8.encode part)
    have hpart := addBlob_holds h0 hlength
    have hlater := (addParts_extends rest (h.addBlob (Utf8.encode part)).2).trans hfinal
    exact .cons hindex (hpart.mono hlater) (ih (hstep.blobs_pos h0) hrest hfinal)

theorem addName_extends (h : Heaps) (name : String) : h.Extends (h.addName name).2 := by
  unfold addName
  split
  · exact .refl h
  · exact (addParts_extends _ h).trans (addBlob_extends _ _)

theorem addName_holds {h final : Heaps} {name : String} (h0 : 0 < h.blobs.length)
    (hfit : h.NameFits name) (hfinal : (h.addName name).2.Extends final) :
    final.HoldsName (h.addName name).1 name := by
  unfold addName at hfinal ⊢
  by_cases hname : name = ""
  · rw [if_pos hname]
    exact Or.inl ⟨hname, rfl⟩
  · rw [if_neg hname] at hfinal ⊢
    rcases hfit with hempty | ⟨hparts, hlength⟩
    · exact absurd hempty hname
    · have hadded := addParts_extends (nameParts name) h
      have hblob := addBlob_holds (hadded.blobs_pos h0) hlength
      refine Or.inr ⟨hname, _, addParts_spells h0 hparts ?_, hblob.mono hfinal⟩
      exact (addBlob_extends _ _).trans hfinal

/-- Rows of custom debug information that carry the records of document `row`. -/
inductive Lists (h : Heaps) (row : Nat) : List RecordRow → List Record → Prop
  | nil : Lists h row [] []
  | cons {r record rows records} (hparent : r.parent = documentParent row)
      (hkind : h.HoldsGuid r.kind record.kind) (hvalue : h.Holds r.value record.value)
      (hrest : Lists h row rows records) : Lists h row (r :: rows) (record :: records)

/-- Rows that stand for documents, the first of them being document `row`. -/
inductive Describes (h : Heaps) : (row : Nat) → Rows → List DocumentSpec → Prop
  | nil {row} : Describes h row ⟨[], []⟩ []
  | cons {row name d names records rest documents} (hname : h.HoldsName name d.name)
      (hrecords : h.Lists row records d.records)
      (hrest : Describes h (row + 1) ⟨names, rest⟩ documents) :
      Describes h row ⟨name :: names, records ++ rest⟩ (d :: documents)

def DocumentsFit : (row : Nat) → List DocumentSpec → Heaps → Prop
  | _, [], _ => True
  | row, d :: rest, h =>
    h.NameFits d.name ∧ (∀ r ∈ d.records, r.value.length < Compressed.bound) ∧
      DocumentsFit (row + 1) rest (addRecords row d.records (h.addName d.name).2).2

def decideDocumentsFit : (row : Nat) → (documents : List DocumentSpec) → (h : Heaps) →
    Decidable (DocumentsFit row documents h)
  | _, [], _ => isTrue trivial
  | row, d :: rest, h =>
    have := decideDocumentsFit (row + 1) rest (addRecords row d.records (h.addName d.name).2).2
    inferInstanceAs (Decidable (h.NameFits d.name ∧
      (∀ r ∈ d.records, r.value.length < Compressed.bound) ∧ DocumentsFit (row + 1) rest _))

instance (row : Nat) (documents : List DocumentSpec) (h : Heaps) :
    Decidable (DocumentsFit row documents h) := decideDocumentsFit row documents h

theorem addRecords_extends (row : Nat) (records : List Record) (h : Heaps) :
    h.Extends (addRecords row records h).2 := by
  induction records generalizing h with
  | nil => exact .refl h
  | cons r rest ih =>
    exact (addGuid_extends h r.kind).trans ((addBlob_extends _ r.value).trans (ih _))

theorem addRecords_lists {row : Nat} {records : List Record} {h final : Heaps}
    (h0 : 0 < h.blobs.length) (hfit : ∀ r ∈ records, r.value.length < Compressed.bound)
    (hfinal : (addRecords row records h).2.Extends final) :
    final.Lists row (addRecords row records h).1 records := by
  induction records generalizing h with
  | nil => exact .nil
  | cons r rest ih =>
    have hkind := addGuid_extends h r.kind
    have hvalue := addBlob_extends (h.addGuid r.kind).2 r.value
    have hlater := (addRecords_extends row rest ((h.addGuid r.kind).2.addBlob r.value).2).trans hfinal
    have hheld := addBlob_holds (hkind.blobs_pos h0) (hfit r List.mem_cons_self)
    exact .cons rfl ((addGuid_holds h r.kind).mono (hvalue.trans hlater)) (hheld.mono hlater)
      (ih ((hkind.trans hvalue).blobs_pos h0)
        (fun s hs => hfit s (List.mem_cons_of_mem r hs)) hfinal)

theorem addDocuments_extends (row : Nat) (documents : List DocumentSpec) (h : Heaps) :
    h.Extends (addDocuments row documents h).2 := by
  induction documents generalizing row h with
  | nil => exact .refl h
  | cons d rest ih =>
    exact (addName_extends h d.name).trans ((addRecords_extends row d.records _).trans (ih _ _))

theorem addDocuments_describes {row : Nat} {documents : List DocumentSpec} {h final : Heaps}
    (h0 : 0 < h.blobs.length) (hfit : DocumentsFit row documents h)
    (hfinal : (addDocuments row documents h).2.Extends final) :
    final.Describes row (addDocuments row documents h).1 documents := by
  induction documents generalizing row h with
  | nil => exact .nil
  | cons d rest ih =>
    obtain ⟨hname, hvalues, hrest⟩ := hfit
    have hnamed := addName_extends h d.name
    have hlisted := addRecords_extends row d.records (h.addName d.name).2
    have hlater := (addDocuments_extends (row + 1) rest
      (addRecords row d.records (h.addName d.name).2).2).trans hfinal
    exact .cons (addName_holds h0 hname (hlisted.trans hlater))
      (addRecords_lists (hnamed.blobs_pos h0) hvalues hlater)
      (ih ((hnamed.trans hlisted).blobs_pos h0) hrest hfinal)

theorem Describes.names_length {h : Heaps} {row : Nat} {rows : Rows}
    {documents : List DocumentSpec} (hrows : h.Describes row rows documents) :
    rows.names.length = documents.length := by
  induction hrows with
  | nil => rfl
  | cons _ _ _ ih => simpa using ih

theorem Describes.name {h : Heaps} {row i : Nat} {rows : Rows} {documents : List DocumentSpec}
    {d : DocumentSpec} (hrows : h.Describes row rows documents) (hd : documents[i]? = some d) :
    ∃ name, rows.names[i]? = some name ∧ h.HoldsName name d.name := by
  induction hrows generalizing i with
  | nil => simp at hd
  | cons hname _ _ ih =>
    cases i with
    | zero =>
      cases hd
      exact ⟨_, rfl, hname⟩
    | succ i => exact ih (by simpa using hd)

theorem Lists.parent {h : Heaps} {row : Nat} {rows : List RecordRow} {records : List Record}
    (hrows : h.Lists row rows records) {r : RecordRow} (hr : r ∈ rows) :
    r.parent = documentParent row := by
  induction hrows with
  | nil => cases hr
  | cons hparent _ _ _ ih =>
    rcases List.mem_cons.mp hr with rfl | hr
    · exact hparent
    · exact ih hr

theorem Describes.parent {h : Heaps} {row : Nat} {rows : Rows} {documents : List DocumentSpec}
    (hrows : h.Describes row rows documents) {r : RecordRow} (hr : r ∈ rows.records) :
    ∃ document, row ≤ document ∧ document < row + documents.length ∧
      r.parent = documentParent document := by
  induction hrows with
  | nil => cases hr
  | cons _ hrecords _ ih =>
    rcases List.mem_append.mp hr with hr | hr
    · exact ⟨_, Nat.le_refl _, by simp, hrecords.parent hr⟩
    · obtain ⟨document, hlow, hhigh, hparent⟩ := ih hr
      exact ⟨document, by omega, by rw [List.length_cons]; omega, hparent⟩

theorem documentParent_inj {row other : Nat} : documentParent row = documentParent other ↔
    row = other := by
  simp only [documentParent, parentTags]
  omega

theorem Describes.records {h : Heaps} {row i : Nat} {rows : Rows} {documents : List DocumentSpec}
    {d : DocumentSpec} (hrows : h.Describes row rows documents) (hd : documents[i]? = some d) :
    h.Lists (row + i) (rows.records.filter fun r => r.parent = documentParent (row + i))
      d.records := by
  induction hrows generalizing i with
  | nil => simp at hd
  | @cons row name e names records rest documents _ hrecords hrest ih =>
    rw [List.filter_append]
    cases i with
    | zero =>
      -- The later documents have larger rows, so none of their records names this one.
      cases hd
      have hown : records.filter (fun r => r.parent = documentParent row) = records := by
        rw [List.filter_eq_self]
        intro r hr
        simpa using hrecords.parent hr
      have hothers : rest.filter (fun r => r.parent = documentParent row) = [] := by
        rw [List.filter_eq_nil_iff]
        intro r hr
        obtain ⟨document, hlow, _, hparent⟩ := hrest.parent hr
        rw [hparent, decide_eq_true_eq, documentParent_inj]
        omega
      rw [Nat.add_zero, hown, hothers, List.append_nil]
      exact hrecords
    | succ i =>
      have hown : records.filter (fun r => r.parent = documentParent (row + (i + 1))) = [] := by
        rw [List.filter_eq_nil_iff]
        intro r hr
        rw [hrecords.parent hr, decide_eq_true_eq, documentParent_inj]
        omega
      have hlater := ih (i := i) (by simpa using hd)
      rw [Nat.add_right_comm row 1 i] at hlater
      rw [hown, List.nil_append]
      exact hlater

end Heaps

end Pdb.Writer

namespace Pdb.Image

open Writer

/-- The image's heaps are those of the writer, the blob heap with padding behind it perhaps. -/
structure Carries (p : Image) (h : Heaps) : Prop where
  blobs : h.blobs <+: p.blobHeap
  guids : p.guidHeap = (h.guids.map Guid.toBytes).flatten

variable {p : Image} {h : Heaps}

theorem Carries.blob (hp : p.Carries h) {index : Nat} {value : Bytes}
    (hvalue : h.Holds index value) : p.blob index = .ok value := by
  rcases hvalue with ⟨rfl, rfl⟩ | ⟨hindex, hlength, hat⟩
  · rfl
  · obtain ⟨more, hmore⟩ := hp.blobs
    have hheap : p.blobHeap.At index (Compressed.encode value.length ++ value) :=
      hmore ▸ hat.append more
    have hread := Compressed.read_encode hheap.left hlength
    have hinside := hheap.right.le_length
    have hpos := Compressed.encode_length_pos value.length
    rw [Image.blob, if_neg (by omega), if_neg (by omega), hread]
    simp only [mapError_ok, bind, Except.bind]
    rw [if_neg (by omega), hheap.right.slice]

theorem Carries.guid (hp : p.Carries h) {index : Nat} {g : Guid} (hg : h.HoldsGuid index g) :
    p.guid index = .ok g := by
  obtain ⟨hindex, hget⟩ := hg
  have hwidth : ∀ r ∈ h.guids.map Guid.toBytes, r.length = 16 := by
    intro r hr
    obtain ⟨g', _, rfl⟩ := List.mem_map.mp hr
    exact g'.toBytes_length
  have hat : p.guidHeap.At (16 * (index - 1)) g.toBytes :=
    hp.guids ▸ Bytes.at_flatten hwidth (by rw [List.getElem?_map, hget]; rfl)
  have hinside := hat.le_length
  have hslice := hat.slice
  rw [Guid.toBytes_length] at hinside hslice
  have hplace : index * 16 - 16 = 16 * (index - 1) := by omega
  rw [Image.guid, if_neg (by omega), if_neg (by omega), hplace, hslice, Guid.ofBytes_toBytes]

/-- The indexes in a name's blob lead the reader to the parts one after the other. -/
theorem Carries.parts (hp : p.Carries h) {name indexes : Bytes} {parts : List String}
    {fuel offset : Nat} (hparts : h.Spells indexes parts) (hat : name.At offset indexes)
    (hlength : name.length = offset + indexes.length) (hfuel : indexes.length ≤ fuel) :
    p.nameParts name fuel offset = .ok parts := by
  induction hparts generalizing fuel offset with
  | nil =>
    cases fuel with
    | zero => rfl
    | succ fuel => rw [Image.nameParts, if_pos (by rw [hlength]; exact Nat.le_refl _)]
  | @cons index indexes part parts hindex hpart _ ih =>
    have hpos := Compressed.encode_length_pos index
    rw [List.length_append] at hlength hfuel
    cases fuel with
    | zero => omega
    | succ fuel =>
      have hread := Compressed.read_encode hat.left hindex
      have hrest : p.nameParts name fuel (offset + (Compressed.encode index).length) = .ok parts :=
        ih hat.right (by omega) (by omega)
      rw [Image.nameParts, if_neg (by omega), hread]
      simp only [mapError_ok, bind, Except.bind, hp.blob hpart, hrest,
        Utf8.decodeLenient_encode]
      rfl

theorem Carries.documentName (hp : p.Carries h) {index : Nat} {name : String}
    (hname : h.HoldsName index name) : p.documentName index = .ok name := by
  rcases hname with ⟨rfl, rfl⟩ | ⟨_, indexes, hparts, hblob⟩
  · rfl
  · have hread : p.nameParts (separatorByte name :: indexes) (indexes.length + 1) 1 =
        .ok (Writer.nameParts name) := by
      refine hp.parts hparts ⟨[separatorByte name], [], by simp, rfl⟩ ?_ (Nat.le_succ _)
      rw [List.length_cons, Nat.add_comm]
    simp only [Image.documentName, hp.blob hblob, bind, Except.bind, List.length_cons, hread,
      intercalate_nameParts]
    rfl

theorem Carries.records (hp : p.Carries h) {row : Nat} {rows : List RecordRow}
    {records : List Record} (hrows : h.Lists row rows records) :
    Sequence.ofSteps (fun r : RecordRow => (p.record ⟨r.parent, r.kind, r.value⟩).mapError heapFault)
      rows = .ofList records := by
  induction hrows with
  | nil => rfl
  | @cons r record _ _ _ hkind hvalue _ ih =>
    have hrecord : p.record ⟨r.parent, r.kind, r.value⟩ = .ok record := by
      simp [Image.record, hp.guid hkind, hp.blob hvalue, bind, Except.bind, pure, Except.pure]
    rw [Sequence.ofSteps, ih, hrecord]
    rfl

end Pdb.Image
end SourceRecovery
