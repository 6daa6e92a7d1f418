import SourceRecovery.Proofs.DocumentRecords
import SourceRecovery.Proofs.HeapContents
import SourceRecovery.Proofs.RootLayout
import SourceRecovery.Proofs.WrittenTables

/-! An image read back gives the documents and records it was written with, whatever the sizes of
its heaps and tables make of the widths of its columns. -/
namespace SourceRecovery.Pdb

open Writer

def methodCounts (s : Spec) : RowCounts :=
  if s.methodCount = 0 then [] else [(methodTable, s.methodCount)]

def methodMask (s : Spec) : Nat := if s.methodCount = 0 then 0 else 1 <<< methodTable

theorem methodCounts_read {s : Spec} (h : s.methodCount < Bytes.capacity 4) {stream : Bytes}
    {offset : Nat}
    (hat : stream.At offset ((methodCounts s).flatMap fun (_, count) => Bytes.ofNatLE 4 count)) :
    rowCountsAt stream offset (bitsSet (methodMask s)) = .ok (methodCounts s) := by
  unfold methodCounts methodMask at *
  by_cases hnone : s.methodCount = 0
  · rw [if_pos hnone, if_pos hnone]
    rfl
  · rw [if_neg hnone, List.flatMap_singleton] at hat
    have hbits : bitsSet (1 <<< methodTable) = [methodTable] := by decide
    rw [if_neg hnone, if_neg hnone, hbits]
    simp only [rowCountsAt, uint, hat.uintAt h, mapError_ok, bind, Except.bind]
    rfl

theorem pdbStream_eq (s : Spec) : pdbStream s = pdbId ++ (Bytes.ofNatLE 4 0 ++
    Bytes.ofNatLE 8 (methodMask s)) ++
      (methodCounts s).flatMap fun (_, count) => Bytes.ofNatLE 4 count := by
  by_cases h : s.methodCount = 0 <;> simp [pdbStream, methodCounts, methodMask, h]

theorem pdbStream_read {s : Spec} (h : s.methodCount < Bytes.capacity 4) :
    PdbStream.read ((pdbStream s).padTo 4) = .ok ⟨pdbId, 0, methodCounts s⟩ := by
  obtain ⟨zeros, hzeros⟩ := Bytes.padTo_eq 4 (pdbStream s)
  have hall : ((pdbStream s).padTo 4).At 0 (pdbId ++ (Bytes.ofNatLE 4 0 ++
      Bytes.ofNatLE 8 (methodMask s)) ++
        (methodCounts s).flatMap fun (_, count) => Bytes.ofNatLE 4 count) := by
    rw [hzeros, pdbStream_eq]
    exact .here _ _
  generalize (pdbStream s).padTo 4 = stream at hall
  have hsize : pdbId.length = 20 := by decide
  have hid := hall.left.left.slice
  have hfields := hall.left.right.field
  have hinside := hall.left.right.le_length
  have hcounts := hall.right
  simp only [List.length_append, Bytes.ofNatLE_length, hsize, Nat.zero_add, Nat.reduceAdd]
    at hid hfields hinside hcounts
  have hfirst : (Bytes.ofNatLE 4 0 ++ Bytes.ofNatLE 8 (methodMask s)).take 4 =
      Bytes.ofNatLE 4 0 := rfl
  have hrest : (Bytes.ofNatLE 4 0 ++ Bytes.ofNatLE 8 (methodMask s)).drop 4 =
      Bytes.ofNatLE 8 (methodMask s) := rfl
  have hmask : methodMask s < Bytes.capacity 8 := by
    unfold methodMask
    split <;> decide
  have hfront : stream.take 20 = pdbId := hid
  have hentryPoint : Bytes.toNatLE (Bytes.ofNatLE 4 0) = 0 := rfl
  rw [PdbStream.read, if_neg (by change ¬ _ < 20; omega)]
  simp only [idSize, hfields, mapError_ok, bind, Except.bind, hfirst, hrest,
    Bytes.toNatLE_ofNatLE hmask, Nat.reduceAdd, methodCounts_read h hcounts, hfront, hentryPoint]
  rfl

def imageOf (s : Spec) (c : Content) (version : String) (blobHeap guidHeap : Bytes) : Image :=
  Image.ofCounts version ⟨pdbId, 0, methodCounts s⟩ blobHeap guidHeap ((tableStream s c).padTo 4)
    (UInt8.ofNat (heapSizes s c.heaps)) (rowTally (s.tables c))

variable {s : Spec} {c : Content} {version : String} {blobHeap guidHeap : Bytes}

theorem heapSizes_flags (s : Spec) (h : Heaps) :
    (UInt8.ofNat (heapSizes s h) &&& 0x02 != 0) = s.wideHeaps ∧
    (UInt8.ofNat (heapSizes s h) &&& 0x04 != 0) = wideBlobs s h ∧
    (UInt8.ofNat (heapSizes s h) &&& 0x40 != 0) = false := by
  unfold heapSizes
  generalize wideBlobs s h = blobs
  generalize s.wideHeaps = guids
  cases guids <;> cases blobs <;> decide

theorem tableSets_parents : ∀ set ∈ tableSets, ∀ n ∈ parentTables, n ≠ Table.document.number →
    ∀ t ∈ set, t.number ≠ n := by
  decide

theorem imageOf_rowCount_of_absent {n : Nat} (hparent : n ∈ parentTables)
    (hn : n ≠ Table.document.number) : (imageOf s c version blobHeap guidHeap).rowCount n =
      ((methodCounts s).lookup n).getD 0 := by
  have hnone : (imageOf s c version blobHeap guidHeap).debugRowCount? n = none := by
    have hpresent : (imageOf s c version blobHeap guidHeap).present = rowTally (s.tables c) := rfl
    rw [Image.debugRowCount?, hpresent, Option.map_eq_none_iff, List.find?_eq_none]
    intro entry hentry
    obtain ⟨e, he, rfl⟩ := List.mem_map.mp hentry
    have hne := tableSets_parents _ (tables_mem s c) n hparent hn e.1 (List.mem_map_of_mem he)
    simpa using hne
  rw [Image.rowCount, hnone]
  rfl

theorem imageOf_sized (hnames : c.rows.names.length = s.documents.length) :
    (imageOf s c version blobHeap guidHeap).Sized s c.heaps := by
  obtain ⟨hguids, hblobs, _⟩ := heapSizes_flags s c.heaps
  refine ⟨hguids, hblobs, ?_, ?_, ?_⟩
  · have hcount := Image.debugRowCount?_of_present (p := imageOf s c version blobHeap guidHeap) rfl
      .document
    rw [tables_document] at hcount
    rw [Image.rowCount, hcount]
    simpa using hnames
  · rw [imageOf_rowCount_of_absent (by decide) (by decide)]
    by_cases h : s.methodCount = 0 <;> simp [methodCounts, h]
  · intro table htable hdocument hmethod
    rw [imageOf_rowCount_of_absent htable hdocument]
    have hne : (table == methodTable) = false := beq_false_of_ne hmethod
    by_cases h : s.methodCount = 0 <;> simp [methodCounts, h, hne]

theorem tableStream_layout (s : Spec) (c : Content) :
    ((tableStream s c).padTo 4)[6]? = some (UInt8.ofNat (heapSizes s c.heaps)) ∧
    ((tableStream s c).padTo 4).At 8
      (Bytes.ofNatLE 8 (((s.tables c).map fun (t, _) => 1 <<< t.number).sum)) ∧
    ((tableStream s c).padTo 4).At 24
      ((s.tables c).flatMap fun (_, rows) => Bytes.ofNatLE 4 rows.length) ∧
    ((tableStream s c).padTo 4).At (24 + 4 * (s.tables c).length)
      ((s.tables c).flatMap fun (_, rows) => rows.flatten) := by
  obtain ⟨zeros, hzeros⟩ := Bytes.padTo_eq 4 (tableStream s c)
  have hall : ((tableStream s c).padTo 4).At 0 (tableStream s c) := hzeros ▸ .here _ _
  have hcounts : ((s.tables c).flatMap fun (_, rows) => Bytes.ofNatLE 4 rows.length).length =
      4 * (s.tables c).length := by
    have hwidth : ∀ count ∈ (s.tables c).map (fun (_, rows) => Bytes.ofNatLE 4 rows.length),
        count.length = 4 := by
      intro count hcount
      obtain ⟨e, _, rfl⟩ := List.mem_map.mp hcount
      exact Bytes.ofNatLE_length 4 _
    rw [List.flatMap_def, flatten_length_of_width hwidth, List.length_map]
  generalize (tableStream s c).padTo 4 = stream at hall
  have hsizes := hall.left.left.left.left.right
  have hvalid := hall.left.left.left.right
  have hcountsAt := hall.left.right
  have hrows := hall.right
  simp only [List.length_append, Bytes.ofNatLE_length, List.length_cons, List.length_nil,
    Nat.zero_add, Nat.reduceAdd, hcounts] at hsizes hvalid hcountsAt hrows
  obtain ⟨back, hback⟩ := hsizes.drop
  have hbyte : stream[6]? = (stream.drop 4)[2]? := by rw [List.getElem?_drop]
  exact ⟨by rw [hbyte, hback]; rfl, hvalid, hcountsAt, hrows⟩

theorem tableStream_read (version : String) (blobHeap guidHeap : Bytes)
    (hnames : c.rows.names.length = s.documents.length)
    (hcounts : ∀ e ∈ s.tables c, e.2.length < Bytes.capacity 4) :
    Image.ofTableStream version ⟨pdbId, 0, methodCounts s⟩ blobHeap guidHeap
      ((tableStream s c).padTo 4) = .ok (imageOf s c version blobHeap guidHeap) ∧
    (imageOf s c version blobHeap guidHeap).Lays (s.tables c) := by
  obtain ⟨hsizes, hvalid, hcountsAt, hrows⟩ := tableStream_layout s c
  obtain ⟨_, _, hextra⟩ := heapSizes_flags s c.heaps
  obtain ⟨hmask, hbits⟩ := tableSets_mask _ (tables_mem s c)
  simp only [List.map_map, Function.comp_def] at hmask hbits
  have hpresent := debugRowCountsAt_ok hcountsAt hcounts
  have hlays : (imageOf s c version blobHeap guidHeap).Lays (s.tables c) := by
    refine ⟨rfl, ?_, (imageOf_sized hnames).widths c rfl⟩
    have hstart : (imageOf s c version blobHeap guidHeap).rowsStart =
        24 + 4 * (s.tables c).length := by
      simp only [imageOf, Image.ofCounts, hextra, rowTally, List.length_map]
      rfl
    rw [hstart]
    exact hrows
  refine ⟨?_, hlays⟩
  have hfit := hlays.rows_fit
  unfold Image.ofTableStream
  simp only [hsizes, uint, hvalid.uintAt hmask, hbits, hpresent, mapError_ok, bind, Except.bind]
  exact if_neg (Nat.not_lt_of_le hfit)

/-- Everything to be written has room in the field that is there for it: lengths and part indexes in
compressed integers, heap and row indexes in their columns, counts and places in four bytes. -/
structure Fits (s : Spec) : Prop where
  blobs : Heaps.DocumentsFit 1 s.documents { guids := [hashAlgorithm, language] }
  names : ∀ name ∈ s.content.rows.names, name < Bytes.capacity (s.widths s.content.heaps).blob
  records : ∀ r ∈ s.content.rows.records, Image.RecordFits (s.widths s.content.heaps) r
  methods : s.methodCount < Bytes.capacity 4
  rows : ∀ e ∈ s.tables s.content, e.2.length < Bytes.capacity 4
  streams : Placeable (bodyStart s.streams) s.streams

structure Written (s : Spec) (p : Image) : Prop where
  carries : p.Carries s.content.heaps
  lays : p.Lays (s.tables s.content)
  sized : p.Sized s s.content.heaps

theorem content_describes (hfits : Fits s) :
    s.content.heaps.Describes 1 s.content.rows s.documents :=
  Heaps.addDocuments_describes (by decide) hfits.blobs (.refl _)

theorem streams_found (s : Spec) (version : String) :
    let root : Root := ⟨version, s.streams.map toStream⟩
    root.stream? "#Pdb" = some ((pdbStream s).padTo 4) ∧
    root.stream? "#~" = some ((tableStream s s.content).padTo 4) ∧
    root.stream? "#Blob" = some (s.content.heaps.blobs.padTo 4) ∧
    root.stream? "#GUID" = some (s.content.heaps.guids.flatMap Guid.toBytes) := by
  simp [Root.stream?, Spec.streams, toStream]

theorem write_read (hfits : Fits s) :
    ∃ p, Image.read (write s) = .ok p ∧ Written s p := by
  have hnames : ∀ e ∈ s.streams, PlainText e.1 := by
    have hall : ∀ name ∈ s.streams.map Prod.fst, PlainText name := by
      change ∀ name ∈ ["#Pdb", "#~", "#Strings", "#US", "#GUID", "#Blob"], PlainText name
      decide
    exact fun e he => hall e.1 (List.mem_map_of_mem he)
  have hroot := root_read hnames (by change 6 < _; decide) hfits.streams
  obtain ⟨hpdb, htables, hblobs, hguids⟩ := streams_found s "PDB v1.0"
  have hlength := (content_describes hfits).names_length
  obtain ⟨hread, hlays⟩ := tableStream_read "PDB v1.0" (s.content.heaps.blobs.padTo 4)
    (s.content.heaps.guids.flatMap Guid.toBytes) hlength hfits.rows
  refine ⟨_, ?_, ⟨?_, ?_⟩, hlays, imageOf_sized hlength⟩
  · simp only [Image.read, write, hroot, bind, Except.bind, Image.ofRoot, hpdb, htables, hblobs,
      hguids, Option.some_or, Option.getD_some, pdbStream_read hfits.methods]
    exact hread
  · exact List.prefix_append _ _
  · rfl

namespace Written

variable {p : Image}

theorem documentCount (hfits : Fits s) (hp : Written s p) :
    p.tableRows .document = s.documents.length := by
  have hlength := (content_describes hfits).names_length
  rw [Image.tableRows, Image.debugRowCount?_of_present hp.lays.present, tables_document]
  simpa using hlength

theorem recordCount (hp : Written s p) :
    p.tableRows .customDebugInformation = s.content.rows.records.length := by
  rw [Image.tableRows, Image.debugRowCount?_of_present hp.lays.present]
  by_cases hnone : s.content.rows.records = []
  · rw [tables_no_records s s.content hnone, hnone]
    rfl
  · rw [tables_records s s.content hnone]
    simp

theorem debugRow (hfits : Fits s) (hp : Written s p) {k : Nat} {r : RecordRow}
    (hr : s.content.rows.records[k]? = some r) :
    p.debugRow (1 + k) = .ok ⟨r.parent, r.kind, r.value⟩ := by
  have hmem := List.mem_of_getElem? hr
  have hsome : s.content.rows.records ≠ [] := List.ne_nil_of_mem hmem
  have hrow := hp.lays.row (k := k) (tables_records s s.content hsome)
    (by rw [List.getElem?_map, hr]; rfl)
  rw [hp.sized.recordValues (hfits.records r hmem)] at hrow
  rw [Nat.add_comm, Image.debugRow, hrow]
  rfl

theorem ofSteps_named {rows : List RecordRow} {first : Nat}
    (hrows : ∀ (k : Nat) r, rows[k]? = some r →
      p.debugRow (first + k) = .ok ⟨r.parent, r.kind, r.value⟩) (document : Nat) :
    Sequence.ofSteps p.recordAt
        ((List.range' first rows.length).filter (p.Names · document)) =
      Sequence.ofSteps
        (fun r : RecordRow => (p.record ⟨r.parent, r.kind, r.value⟩).mapError Image.heapFault)
        (rows.filter fun r => r.parent = documentParent document) := by
  induction rows generalizing first with
  | nil => rfl
  | cons r rest ih =>
    have hrow := hrows 0 r rfl
    have hnames := Image.names_iff_parent hrow document
    have hlater : ∀ (k : Nat) q, rest[k]? = some q →
        p.debugRow (first + 1 + k) = .ok ⟨q.parent, q.kind, q.value⟩ := by
      intro k q hq
      rw [Nat.add_assoc, Nat.add_comm 1 k]
      exact hrows (k + 1) q hq
    have hrest := ih hlater
    have hstep : p.recordAt first =
        (p.record ⟨r.parent, r.kind, r.value⟩).mapError Image.heapFault := by
      rw [Image.recordAt, show p.debugRow first = _ from hrow]
      rfl
    simp only [Nat.add_zero] at hnames
    rw [List.length_cons, List.range'_succ, List.filter_cons, List.filter_cons]
    by_cases hparent : r.parent = documentParent document
    · simp only [hnames, hparent, decide_true, if_true, Sequence.ofSteps, hstep, hrest]
    · simp only [hnames, hparent, decide_false, Bool.false_eq_true, if_false, hrest]

theorem recordsNaming (hfits : Fits s) (hp : Written s p) {i : Nat} {d : DocumentSpec}
    (hd : s.documents[i]? = some d) : p.recordsNaming (1 + i) = .ofList d.records := by
  have hnumbers : p.rowNumbers .customDebugInformation =
      List.range' 1 s.content.rows.records.length := by
    rw [Image.rowNumbers, hp.recordCount]
  rw [Image.recordsNaming, Image.rowsNaming, hnumbers,
    ofSteps_named (fun k r hr => hp.debugRow hfits hr)]
  exact hp.carries.records ((content_describes hfits).records hd)

theorem document (hfits : Fits s) (hp : Written s p) (hwell : p.WellFormed) {r : Reader}
    (hr : r.Of p) {i : Nat} {d : DocumentSpec} (hd : s.documents[i]? = some d) :
    r.document (1 + i) = .ok ⟨1 + i, d.name, none, .ofList d.records⟩ := by
  obtain ⟨name, hname, hheld⟩ := (content_describes hfits).name hd
  have hrow := hp.lays.row (k := i) (tables_document s s.content)
    (by rw [List.getElem?_map, hname]; rfl)
  have hindex := hp.sized.documentName (hfits.names name (List.mem_of_getElem? hname))
  rw [Nat.add_comm] at hrow
  rw [hr.document_of_row hwell hrow, hindex, hp.carries.documentName hheld,
    hp.recordsNaming hfits hd]

theorem container (hfits : Fits s) (hp : Written s p) (hwell : p.WellFormed) {r : Reader}
    (hr : r.Of p) : r.container = ⟨s.documents.length, .ofList ((s.documents.zipIdx 1).map
      fun (d, row) => ⟨row, d.name, none, .ofList d.records⟩)⟩ := by
  have hnumbers : p.rowNumbers .document = (s.documents.zipIdx 1).map Prod.snd := by
    rw [Image.rowNumbers, hp.documentCount hfits, List.zipIdx_map_snd]
  have hdocuments : ∀ e ∈ s.documents.zipIdx 1,
      r.document e.2 = .ok ⟨e.2, e.1.name, none, .ofList e.1.records⟩ := by
    intro e he
    obtain ⟨d, row⟩ := e
    obtain ⟨hrow, hd⟩ := List.mk_mem_zipIdx_iff_le_and_getElem?_sub.mp he
    have hread := hp.document hfits hwell hr hd
    rw [Nat.add_sub_cancel' hrow] at hread
    exact hread
  rw [Reader.container, hr.image, hp.documentCount hfits, hnumbers,
    Sequence.ofSteps_of_ok hdocuments]

end Written

/-- Every accepted specification is read back as it was written: the documents in order under rows
from 1 on, each with its name and exactly its own records. -/
theorem written_documents_read_back (s : Spec) (hfits : Fits s) :
    ∃ p, Image.read (write s) = .ok p ∧
      p.container = ⟨s.documents.length, .ofList ((s.documents.zipIdx 1).map
        fun (d, row) => ⟨row, d.name, none, .ofList d.records⟩)⟩ ∧
      ∀ i d, s.documents[i]? = some d →
        ((Reader.ofImage p).records (1 + i)).1 = .ofList d.records := by
  obtain ⟨p, hread, hp⟩ := write_read hfits
  have hwell := Image.read_wellFormed hread
  have hfresh := Reader.ofImage_of p
  obtain ⟨r, hindex, hr⟩ := hfresh.parentIndex
  refine ⟨p, hread, ?_, ?_⟩
  · rw [Image.container, hindex]
    exact hp.container hfits hwell hr
  · intro i d hd
    rw [(hfresh.records hwell (1 + i)).1]
    exact hp.recordsNaming hfits hd

def mixedNames : Spec where
  documents := [⟨"", []⟩, ⟨"C:\\src\\é.cs", [⟨embeddedSourceKind, [0, 0, 0, 0, 65]⟩, ⟨.nil, []⟩]⟩,
    ⟨"/x", [⟨.nil, [1]⟩]⟩]
  methodCount := 0x800
  methodDebugRows := 2
  wideHeaps := true

theorem mixedNames_read_back :
    Fits mixedNames ∧ ∃ p, Image.read (write mixedNames) = .ok p ∧
      ((Reader.ofImage p).records 2).1 =
        .ofList [⟨embeddedSourceKind, [0, 0, 0, 0, 65]⟩, ⟨.nil, []⟩] := by
  have hfits : Fits mixedNames := by
    refine ⟨?_, ?_, ?_, ?_, ?_, ?_⟩ <;> decide +kernel
  obtain ⟨p, hread, _, hrecords⟩ := written_documents_read_back mixedNames hfits
  exact ⟨hfits, p, hread, hrecords 1 _ rfl⟩

end SourceRecovery.Pdb
