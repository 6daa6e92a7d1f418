import SourceRecovery.Pdb.Writer
import SourceRecovery.Proofs.TableLayout

/-! The tables of a written image. The reader works out from counts alone how wide the columns are
and where each row lies; it comes to the widths that the writer chose and to the rows it wrote. -/
namespace SourceRecovery.Pdb

abbrev TableRows := List (Table × List Bytes)

def rowTally (tables : TableRows) : List (Table × Nat) := tables.map fun (t, rows) => (t, rows.length)

theorem debugRowCountsAt_ok {stream : Bytes} {offset : Nat} {tables : TableRows}
    (hat : stream.At offset (tables.flatMap fun (_, rows) => Bytes.ofNatLE 4 rows.length))
    (hcounts : ∀ e ∈ tables, e.2.length < Bytes.capacity 4) :
    debugRowCountsAt stream offset (tables.map fun (t, _) => t.number) = .ok (rowTally tables) := by
  induction tables generalizing offset with
  | nil => rfl
  | cons e rest ih =>
    obtain ⟨t, rows⟩ := e
    rw [List.flatMap_cons] at hat
    have hcount := hat.left.uintAt (hcounts _ List.mem_cons_self)
    have hnext := hat.right
    rw [Bytes.ofNatLE_length] at hnext
    have hothers := ih hnext fun e he => hcounts e (List.mem_cons_of_mem _ he)
    simp only [List.map_cons, debugRowCountsAt, Table.ofNumber?_number, uint, hcount, hothers,
      mapError_ok, bind, Except.bind]
    rfl

theorem flatten_length_of_width {rows : List Bytes} {width : Nat}
    (h : ∀ row ∈ rows, row.length = width) : rows.flatten.length = width * rows.length := by
  induction rows with
  | nil => rfl
  | cons row rest ih =>
    have hrest := ih fun r hr => h r (List.mem_cons_of_mem row hr)
    rw [List.flatten_cons, List.length_append, hrest, h row List.mem_cons_self, List.length_cons,
      Nat.mul_succ, Nat.add_comm]

theorem extentsFrom_at {sizes : Sizes} {stream : Bytes} {start : Nat} {tables : TableRows}
    (hat : stream.At start (tables.flatMap fun (_, rows) => rows.flatten))
    (hwidths : ∀ e ∈ tables, ∀ row ∈ e.2, row.length = sizes.rowWidth e.1) {t : Table}
    {rows : List Bytes} (hfind : tables.find? (·.1 = t) = some (t, rows)) :
    ∃ first, (Image.extentsFrom sizes start (rowTally tables)).find? (·.table = t) =
      some ⟨t, first, rows.length⟩ ∧ stream.At first rows.flatten := by
  induction tables generalizing start with
  | nil => simp at hfind
  | cons e rest ih =>
    obtain ⟨u, own⟩ := e
    rw [List.flatMap_cons] at hat
    by_cases hu : u = t
    · subst hu
      simp only [List.find?_cons, decide_true, Option.some.injEq, Prod.mk.injEq] at hfind
      obtain ⟨_, rfl⟩ := hfind
      exact ⟨start, by simp [rowTally, Image.extentsFrom], hat.left⟩
    · have hown := flatten_length_of_width (hwidths _ List.mem_cons_self)
      have hnext := hat.right
      simp only [hown] at hnext
      obtain ⟨first, hfirst, hplace⟩ := ih hnext
        (fun e he => hwidths e (List.mem_cons_of_mem _ he)) (by simpa [hu] using hfind)
      exact ⟨first, by simpa [rowTally, Image.extentsFrom, hu] using hfirst, hplace⟩

theorem splitColumns_cons {width n : Nat} (rest : List Nat) (data : Bytes)
    (hn : n < Bytes.capacity width) :
    Image.splitColumns (width :: rest) (Bytes.ofNatLE width n ++ data) =
      n :: Image.splitColumns rest data := by
  have htake : (Bytes.ofNatLE width n ++ data).take width = Bytes.ofNatLE width n := by
    rw [List.take_left' (Bytes.ofNatLE_length width n)]
  have hdrop : (Bytes.ofNatLE width n ++ data).drop width = data := by
    rw [List.drop_left' (Bytes.ofNatLE_length width n)]
  rw [Image.splitColumns, htake, hdrop, Bytes.toNatLE_ofNatLE hn]

namespace Image

variable {p : Image} {tables : TableRows}

/-- The image has these tables, laid out one after the other in rows of the widths it works out. -/
structure Lays (p : Image) (tables : TableRows) : Prop where
  present : p.present = rowTally tables
  rows : p.tableStream.At p.rowsStart (tables.flatMap fun (_, rows) => rows.flatten)
  widths : ∀ e ∈ tables, ∀ row ∈ e.2, row.length = p.sizes.rowWidth e.1

theorem Lays.rows_fit (hp : p.Lays tables) : p.rowsStart + p.rowsSize ≤ p.tableStream.length := by
  have hsize : p.rowsSize = (tables.flatMap fun (_, rows) => rows.flatten).length := by
    rw [rowsSize, hp.present]
    have hwidths := hp.widths
    generalize p.sizes = sizes at hwidths
    clear hp
    induction tables with
    | nil => rfl
    | cons e rest ih =>
      obtain ⟨t, rows⟩ := e
      have hown := flatten_length_of_width (hwidths _ List.mem_cons_self)
      have hothers := ih fun e he => hwidths e (List.mem_cons_of_mem _ he)
      rw [List.flatMap_cons, List.length_append, hown, ← hothers]
      rfl
  rw [hsize]
  exact hp.rows.le_length

theorem debugRowCount?_of_present (hpresent : p.present = rowTally tables) (t : Table) :
    p.debugRowCount? t.number = (tables.find? (·.1 = t)).map fun (_, rows) => rows.length := by
  rw [debugRowCount?, hpresent, rowTally, List.find?_map]
  simp only [Function.comp_def, Table.number_inj, Option.map_map]

theorem Lays.row (hp : p.Lays tables) {t : Table} {rows : List Bytes} {k : Nat} {data : Bytes}
    (hfind : tables.find? (·.1 = t) = some (t, rows)) (hrow : rows[k]? = some data) :
    p.row t (k + 1) = .ok (splitColumns (t.columns.map p.sizes.width) data) := by
  obtain ⟨first, hfirst, hat⟩ := extentsFrom_at hp.rows hp.widths hfind
  have hstart : p.startOf t = first := by
    rw [startOf, extents, hp.present, hfirst]
    rfl
  have hwidth := hp.widths _ (List.mem_of_find?_eq_some hfind)
  have hplace := (hat.trans (Bytes.at_flatten hwidth hrow)).field
  rw [hwidth data (List.mem_of_getElem? hrow), Nat.mul_comm] at hplace
  rw [Image.row, hstart, Nat.add_sub_cancel, hplace]
  rfl

/-- What is known of the image of a written table stream before its tables are: which heaps have
wide indexes, and how many rows the columns may point to. -/
structure Sized (p : Image) (s : Writer.Spec) (h : Writer.Heaps) : Prop where
  wideGuids : p.wideGuids = s.wideHeaps
  wideBlobs : p.wideBlobs = Writer.wideBlobs s h
  documents : p.rowCount Table.document.number = s.documents.length
  methods : p.rowCount methodTable = s.methodCount
  others : ∀ table ∈ parentTables, table ≠ Table.document.number → table ≠ methodTable →
    p.rowCount table = 0

open Writer

variable {s : Spec} {h : Heaps}

/-- The reader looks at the largest of all the tables that a parent may be in, the writer at the two
that it knows to have rows. -/
theorem Sized.parent (hp : p.Sized s h) : p.sizes.width .parent = (s.widths h).parent := by
  have hreach : parentTables.any (fun table => 0x10000 / parentTags ≤ p.rowCount table) =
      decide (¬ max s.documents.length s.methodCount < 0x800) := by
    rw [Bool.eq_iff_iff, List.any_eq_true, decide_eq_true_eq]
    constructor
    · rintro ⟨table, htable, hlarge⟩
      have hlarge : 0x800 ≤ p.rowCount table := of_decide_eq_true hlarge
      by_cases hdocument : table = Table.document.number
      · rw [hdocument, hp.documents] at hlarge
        omega
      · by_cases hmethod : table = methodTable
        · rw [hmethod, hp.methods] at hlarge
          omega
        · rw [hp.others table htable hdocument hmethod] at hlarge
          omega
    · intro hlarge
      by_cases hdocuments : 0x800 ≤ s.documents.length
      · refine ⟨Table.document.number, by decide, ?_⟩
        rw [hp.documents]
        exact decide_eq_true hdocuments
      · refine ⟨methodTable, by decide, ?_⟩
        have hmethods : 0x800 ≤ s.methodCount := by omega
        rw [hp.methods]
        exact decide_eq_true hmethods
  change narrowOr (parentTables.any fun table => 0x10000 / parentTags ≤ p.rowCount table) = _
  rw [hreach]
  by_cases hsmall : max s.documents.length s.methodCount < 0x800 <;>
    simp [narrowOr, Spec.widths, hsmall]

theorem Sized.document (hp : p.Sized s h) :
    p.sizes.width (.index Table.document.number) = (s.widths h).document := by
  change narrowOr (0x10000 ≤ p.rowCount Table.document.number) = _
  rw [hp.documents]
  by_cases hsmall : s.documents.length < 0x10000
  · simp [narrowOr, Spec.widths, hsmall, Nat.not_le_of_lt hsmall]
  · simp [narrowOr, Spec.widths, hsmall, Nat.le_of_not_lt hsmall]

theorem Sized.blob (hp : p.Sized s h) : p.sizes.width .blob = (s.widths h).blob := by
  change narrowOr p.wideBlobs = _
  rw [hp.wideBlobs]
  rfl

theorem Sized.guid (hp : p.Sized s h) : p.sizes.width .guid = (s.widths h).guid := by
  change narrowOr p.wideGuids = _
  rw [hp.wideGuids]
  rfl

theorem Sized.widths (hp : p.Sized s h) (c : Content) (hc : c.heaps = h) :
    ∀ e ∈ s.tables c, ∀ row ∈ e.2, row.length = p.sizes.rowWidth e.1 := by
  subst hc
  intro e he row hrow
  rw [Spec.tables, List.mem_cons, List.mem_filter] at he
  rcases he with rfl | ⟨he, _⟩
  · obtain ⟨name, _, rfl⟩ := List.mem_map.mp hrow
    have hwidth : p.sizes.rowWidth .document = p.sizes.width .blob + (p.sizes.width .guid +
        (p.sizes.width .blob + p.sizes.width .guid)) := rfl
    simp only [documentRow, List.length_append, Bytes.ofNatLE_length, hwidth, hp.blob, hp.guid]
    omega
  · rcases List.mem_cons.mp he with rfl | he
    · obtain rfl := List.eq_of_mem_replicate hrow
      have hwidth : p.sizes.rowWidth .methodDebugInformation =
          p.sizes.width (.index Table.document.number) + p.sizes.width .blob := rfl
      simp only [methodDebugRow, List.length_append, Bytes.ofNatLE_length, hwidth, hp.document,
        hp.blob]
    · obtain rfl := List.mem_singleton.mp he
      obtain ⟨r, _, rfl⟩ := List.mem_map.mp hrow
      have hwidth : p.sizes.rowWidth .customDebugInformation =
          p.sizes.width .parent + (p.sizes.width .guid + p.sizes.width .blob) := rfl
      simp only [recordRow, List.length_append, Bytes.ofNatLE_length, hwidth, hp.parent, hp.guid,
        hp.blob, Nat.add_assoc]

theorem Sized.documentName (hp : p.Sized s h) {name : Nat}
    (hname : name < Bytes.capacity (s.widths h).blob) :
    (splitColumns (Table.document.columns.map p.sizes.width)
      (documentRow (s.widths h) name)).headD 0 = name := by
  have hcolumns : Table.document.columns.map p.sizes.width = (s.widths h).blob ::
      [p.sizes.width .guid, p.sizes.width .blob, p.sizes.width .guid] := by
    rw [← hp.blob]
    rfl
  rw [hcolumns, documentRow, List.append_assoc, List.append_assoc, splitColumns_cons _ _ hname]
  rfl

/-- The values of a row of custom debug information can be told from its bytes. -/
structure RecordFits (w : Widths) (r : RecordRow) : Prop where
  parent : r.parent < Bytes.capacity w.parent
  kind : r.kind < Bytes.capacity w.guid
  value : r.value < Bytes.capacity w.blob

instance (w : Widths) (r : RecordRow) : Decidable (RecordFits w r) :=
  decidable_of_iff (r.parent < Bytes.capacity w.parent ∧ r.kind < Bytes.capacity w.guid ∧
    r.value < Bytes.capacity w.blob) ⟨fun ⟨h, k, v⟩ => ⟨h, k, v⟩, fun ⟨h, k, v⟩ => ⟨h, k, v⟩⟩

theorem Sized.recordValues (hp : p.Sized s h) {r : RecordRow}
    (hr : RecordFits (s.widths h) r) :
    splitColumns (Table.customDebugInformation.columns.map p.sizes.width)
      (recordRow (s.widths h) r) = [r.parent, r.kind, r.value] := by
  have hcolumns : Table.customDebugInformation.columns.map p.sizes.width =
      [(s.widths h).parent, (s.widths h).guid, (s.widths h).blob] := by
    rw [← hp.parent, ← hp.guid, ← hp.blob]
    rfl
  have hlast : Bytes.ofNatLE (s.widths h).blob r.value =
      Bytes.ofNatLE (s.widths h).blob r.value ++ [] := (List.append_nil _).symm
  rw [hcolumns, recordRow, List.append_assoc, splitColumns_cons _ _ hr.parent,
    splitColumns_cons _ _ hr.kind, hlast, splitColumns_cons _ _ hr.value]
  rfl

end Image

namespace Writer

variable (s : Spec) (c : Content)

theorem tables_cases :
    let documents := (Table.document, c.rows.names.map (documentRow (s.widths c.heaps)))
    let methods := (Table.methodDebugInformation, List.replicate s.methodDebugRows
      (methodDebugRow (s.widths c.heaps) (if s.documents = [] then 0 else 1)))
    let records := (Table.customDebugInformation,
      c.rows.records.map (recordRow (s.widths c.heaps)))
    (c.rows.records = [] ∧
      (s.tables c = [documents] ∨ s.tables c = [documents, methods])) ∨
    (c.rows.records ≠ [] ∧
      (s.tables c = [documents, records] ∨ s.tables c = [documents, methods, records])) := by
  by_cases hrecords : c.rows.records = []
  · by_cases hmethods : s.methodDebugRows = 0 <;>
      simp [Spec.tables, hrecords, hmethods]
  · by_cases hmethods : s.methodDebugRows = 0 <;>
      simp [Spec.tables, hrecords, hmethods]

def tableSets : List (List Table) :=
  [[.document], [.document, .methodDebugInformation], [.document, .customDebugInformation],
    [.document, .methodDebugInformation, .customDebugInformation]]

theorem tables_mem : (s.tables c).map Prod.fst ∈ tableSets := by
  rcases tables_cases s c with ⟨_, h | h⟩ | ⟨_, h | h⟩ <;> rw [h] <;> simp [tableSets]

theorem tableSets_mask : ∀ set ∈ tableSets,
    (set.map fun t => 1 <<< t.number).sum < Bytes.capacity 8 ∧
      bitsSet ((set.map fun t => 1 <<< t.number).sum) = set.map Table.number := by
  decide +kernel

theorem tables_document : (s.tables c).find? (·.1 = .document) =
    some (.document, c.rows.names.map (documentRow (s.widths c.heaps))) := by
  simp [Spec.tables]

theorem tables_records (h : c.rows.records ≠ []) :
    (s.tables c).find? (·.1 = .customDebugInformation) =
      some (.customDebugInformation, c.rows.records.map (recordRow (s.widths c.heaps))) := by
  rcases tables_cases s c with ⟨hnone, _⟩ | ⟨_, htables | htables⟩
  · exact absurd hnone h
  · simp [htables]
  · simp [htables]

theorem tables_no_records (h : c.rows.records = []) :
    (s.tables c).find? (·.1 = .customDebugInformation) = none := by
  rcases tables_cases s c with ⟨_, htables | htables⟩ | ⟨hsome, _⟩
  · simp [htables]
  · simp [htables]
  · exact absurd h hsome

end Writer
end SourceRecovery.Pdb
