import SourceRecovery.Proofs.DocumentRecords

/-! The rows of an accepted image use up its table stream. From the end of the header to the end of
the last table each byte lies in exactly one row, and the column values of all rows, written again
in the widths of their columns, are those bytes. -/
namespace SourceRecovery

namespace Pdb

/-- The width of a column by the flags of the heaps and the row counts of all tables. -/
def declaredWidth (flags : UInt8) (rows : Nat → Nat) : Column → Nat
  | .string => if flags &&& 0x01 = 0 then 2 else 4
  | .guid => if flags &&& 0x02 = 0 then 2 else 4
  | .blob => if flags &&& 0x04 = 0 then 2 else 4
  | .number width => width
  | .index table => if rows table < 0x10000 then 2 else 4
  | .parent => if (parentTables.map rows).foldr max 0 < 0x800 then 2 else 4

/-- What the header of a table stream says: the flags, the tables present in ascending order of
their numbers and, in fields of four bytes one behind the other, the rows of each. -/
structure Declares (stream : Bytes) (flags : UInt8) (present : List (Table × Nat)) : Prop where
  flags : stream[6]? = some flags
  tables : ∃ mask, stream.uintAt 8 8 = .ok mask ∧
    present.map (fun entry => entry.1.number) = bitsSet mask
  rows : ∀ (k : Nat) entry, present[k]? = some entry →
    stream.uintAt 4 (24 + 4 * k) = .ok entry.2

theorem debugRowCountsAt_fields {stream : Bytes} {offset : Nat} {numbers : List Nat}
    {present : List (Table × Nat)} (h : debugRowCountsAt stream offset numbers = .ok present)
    {k : Nat} {entry : Table × Nat} (hk : present[k]? = some entry) :
    stream.uintAt 4 (offset + 4 * k) = .ok entry.2 := by
  induction numbers generalizing offset present k with
  | nil =>
    cases h
    cases hk
  | cons number rest ih =>
    simp only [debugRowCountsAt] at h
    cases ht : Table.ofNumber? number with
    | none => simp [ht] at h
    | some t =>
      simp only [ht] at h
      obtain ⟨count, hcount, h⟩ := bind_eq_ok.mp h
      obtain ⟨others, hothers, h⟩ := bind_eq_ok.mp h
      cases h
      cases k with
      | zero =>
        cases hk
        exact mapError_eq_ok.mp hcount
      | succ k =>
        have hplace : offset + 4 * (k + 1) = offset + 4 + 4 * k := by omega
        rw [hplace]
        exact ih hothers hk

theorem foldr_max_lt {l : List Nat} {bound : Nat} (hbound : 0 < bound) :
    l.foldr max 0 < bound ↔ ∀ n ∈ l, n < bound := by
  induction l with
  | nil => simpa using hbound
  | cons n rest ih => rw [List.foldr_cons, Nat.max_lt, List.forall_mem_cons, ih]

namespace Image

variable {p : Image}

theorem width_parent (s : Sizes) :
    s.width .parent = if (parentTables.map s.rowCount).foldr max 0 < 0x800 then 2 else 4 := by
  have hlarge : (parentTables.any fun table => 0x10000 / parentTags ≤ s.rowCount table) =
      decide (¬ (parentTables.map s.rowCount).foldr max 0 < 0x800) := by
    rw [Bool.eq_iff_iff, decide_eq_true_eq, foldr_max_lt (by decide), List.any_eq_true]
    simp only [List.forall_mem_map, decide_eq_true_eq, Classical.not_forall, Nat.not_lt,
      exists_prop]
    rfl
  rw [Sizes.width, hlarge]
  by_cases h : (parentTables.map s.rowCount).foldr max 0 < 0x800 <;> simp [narrowOr, h]

theorem ofCounts_width (version : String) (pdb : PdbStream) (blobHeap guidHeap stream : Bytes)
    (flags : UInt8) (present : List (Table × Nat)) (c : Column) :
    let p := ofCounts version pdb blobHeap guidHeap stream flags present
    p.sizes.width c = declaredWidth flags p.rowCount c := by
  intro p
  have hflag : ∀ bit : UInt8, narrowOr (flags &&& bit != 0) = if flags &&& bit = 0 then 2 else 4 := by
    intro bit
    by_cases h : flags &&& bit = 0 <;> simp [narrowOr, h]
  cases c with
  | string => exact hflag 0x01
  | guid => exact hflag 0x02
  | blob => exact hflag 0x04
  | number width => rfl
  | index table =>
    change narrowOr (0x10000 ≤ p.rowCount table) = if p.rowCount table < 0x10000 then 2 else 4
    by_cases h : p.rowCount table < 0x10000
    · simp [narrowOr, h, Nat.not_le_of_lt h]
    · simp [narrowOr, h, Nat.le_of_not_lt h]
  | parent => exact width_parent p.sizes

/-- The layout of an accepted image is the one that the header of its table stream declares. -/
theorem read_declares {data : Bytes} (h : read data = .ok p) :
    ∃ flags, Declares p.tableStream flags p.present ∧
      p.rowsStart = 24 + 4 * p.present.length + (if flags &&& 0x40 = 0 then 0 else 4) ∧
      ∀ c, p.sizes.width c = declaredWidth flags p.rowCount c := by
  obtain ⟨root, _, h⟩ := bind_eq_ok.mp h
  unfold ofRoot at h
  split at h
  · cases h
  · split at h
    · cases h
    · obtain ⟨pdb, _, h⟩ := bind_eq_ok.mp h
      unfold ofTableStream at h
      split at h
      · cases h
      · rename_i stream _ flags hflags
        obtain ⟨mask, hmask, h⟩ := bind_eq_ok.mp h
        obtain ⟨present, hpresent, h⟩ := bind_eq_ok.mp h
        dsimp only at h
        split at h
        · cases h
        · cases h
          refine ⟨flags, ⟨hflags, ⟨mask, mapError_eq_ok.mp hmask, ?_⟩, ?_⟩, ?_, ?_⟩
          · exact debugRowCountsAt_numbers hpresent
          · exact fun k entry hk => debugRowCountsAt_fields hpresent hk
          · by_cases hextra : flags &&& 0x40 = 0 <;> simp [ofCounts, hextra]
          · exact ofCounts_width _ _ _ _ _ _ _

theorem mem_extentsFrom {s : Sizes} {start : Nat} {l : List (Table × Nat)} {e : Extent}
    (he : e ∈ extentsFrom s start l) : (e.table, e.rows) ∈ l ∧ start ≤ e.start := by
  induction l generalizing start with
  | nil => cases he
  | cons entry rest ih =>
    rcases List.mem_cons.mp he with rfl | he
    · exact ⟨List.mem_cons_self, Nat.le_refl _⟩
    · obtain ⟨hmem, hstart⟩ := ih he
      exact ⟨List.mem_cons_of_mem _ hmem, by omega⟩

theorem extentsFrom_end {s : Sizes} {start : Nat} {l : List (Table × Nat)} {e : Extent}
    (he : e ∈ extentsFrom s start l) : e.start + s.rowWidth e.table * e.rows ≤
      start + (l.map fun entry => s.rowWidth entry.1 * entry.2).sum := by
  induction l generalizing start with
  | nil => cases he
  | cons entry rest ih =>
    rw [List.map_cons, List.sum_cons]
    rcases List.mem_cons.mp he with rfl | he
    · dsimp only
      omega
    · have hrest := ih he
      omega

theorem extentsFrom_tables (s : Sizes) (start : Nat) (l : List (Table × Nat)) :
    (extentsFrom s start l).map (·.table) = l.map Prod.fst := by
  induction l generalizing start with
  | nil => rfl
  | cons entry rest ih => simp [extentsFrom, ih]

theorem extentsFrom_ordered {s : Sizes} {start : Nat} {l : List (Table × Nat)} {e f : Extent}
    (hl : (l.map fun entry => entry.1.number).Pairwise (· < ·)) (he : e ∈ extentsFrom s start l)
    (hf : f ∈ extentsFrom s start l) (hlt : e.table.number < f.table.number) :
    e.start + s.rowWidth e.table * e.rows ≤ f.start := by
  induction l generalizing start with
  | nil => cases he
  | cons entry rest ih =>
    obtain ⟨hfirst, hrest⟩ := List.pairwise_cons.mp hl
    rcases List.mem_cons.mp he with rfl | he
    · rcases List.mem_cons.mp hf with rfl | hf
      · exact absurd hlt (Nat.lt_irrefl _)
      · exact (mem_extentsFrom hf).2
    · rcases List.mem_cons.mp hf with rfl | hf
      · have hbehind := hfirst _ (List.mem_map_of_mem (mem_extentsFrom he).1)
        exact absurd hlt (Nat.lt_asymm hbehind)
      · exact ih hrest he hf

theorem extentsFrom_covers {s : Sizes} {start : Nat} {l : List (Table × Nat)} {b : Nat}
    (hlow : start ≤ b)
    (hhigh : b < start + (l.map fun entry => s.rowWidth entry.1 * entry.2).sum) :
    ∃ e ∈ extentsFrom s start l, e.start ≤ b ∧ b < e.start + s.rowWidth e.table * e.rows := by
  induction l generalizing start with
  | nil => exact absurd hhigh (Nat.not_lt_of_le hlow)
  | cons entry rest ih =>
    obtain ⟨table, rows⟩ := entry
    simp only [List.map_cons, List.sum_cons] at hhigh
    by_cases hown : b < start + s.rowWidth table * rows
    · exact ⟨⟨table, start, rows⟩, List.mem_cons_self, hlow, hown⟩
    · obtain ⟨e, he, hbyte⟩ := ih (Nat.le_of_not_lt hown) (by omega)
      exact ⟨e, List.mem_cons_of_mem _ he, hbyte⟩

theorem WellFormed.extents_keys (hp : p.WellFormed) :
    p.extents.Pairwise fun e f => e.table ≠ f.table := by
  have htables : (p.extents.map (·.table)).Pairwise (· ≠ ·) := by
    rw [extents, extentsFrom_tables]
    have hnumbers := hp.ascending
    rw [List.pairwise_map] at hnumbers ⊢
    exact hnumbers.imp fun hlt he => Nat.ne_of_lt hlt (congrArg Table.number he)
  exact List.pairwise_map.mp htables

theorem WellFormed.extent_of_table (hp : p.WellFormed) {e : Extent} (he : e ∈ p.extents) :
    p.startOf e.table = e.start ∧ p.tableRows e.table = e.rows := by
  constructor
  · rw [startOf, find?_key_eq_some (fun e : Extent => e.table) hp.extents_keys he]
    rfl
  · have hkeys : p.present.Pairwise fun a b => a.1.number ≠ b.1.number :=
      (List.pairwise_map.mp hp.ascending).imp Nat.ne_of_lt
    rw [tableRows, debugRowCount?, find?_key_eq_some (fun entry : Table × Nat => entry.1.number)
      hkeys (mem_extentsFrom he).1]
    rfl

theorem extent_of_rows {t : Table} (h : 0 < p.tableRows t) :
    ∃ e ∈ p.extents, e.table = t := by
  obtain ⟨n, hn⟩ := exists_rowCount h
  obtain ⟨first, hfind, _⟩ := extentsFrom_find p.sizes p.rowsStart hn
  exact ⟨_, List.mem_of_find?_eq_some hfind, rfl⟩

/-- Where row `n` of a table begins in the table stream. -/
def rowOffset (p : Image) (t : Table) (n : Nat) : Nat := p.startOf t + (n - 1) * p.sizes.rowWidth t

/-- Byte `b` of the table stream belongs to row `n` of the table. -/
structure RowHas (p : Image) (t : Table) (n b : Nat) : Prop where
  first : 1 ≤ n
  last : n ≤ p.tableRows t
  low : p.rowOffset t n ≤ b
  high : b < p.rowOffset t n + p.sizes.rowWidth t

theorem rowOffset_end {t : Table} {n : Nat} (hfirst : 1 ≤ n) :
    p.rowOffset t n + p.sizes.rowWidth t = p.startOf t + p.sizes.rowWidth t * n := by
  rw [rowOffset, Nat.add_assoc, ← Nat.succ_mul, Nat.succ_eq_add_one, Nat.sub_add_cancel hfirst,
    Nat.mul_comm]

theorem RowHas.row_unique {t : Table} {n m b : Nat} (hn : p.RowHas t n b) (hm : p.RowHas t m b) :
    n = m := by
  have before : ∀ {i j : Nat}, p.RowHas t i b → p.RowHas t j b → ¬ i < j := by
    intro i j hi hj hlt
    have hend := hi.high
    rw [rowOffset_end hi.first] at hend
    have hstart := hj.low
    have hmul : i * p.sizes.rowWidth t ≤ (j - 1) * p.sizes.rowWidth t :=
      Nat.mul_le_mul_right _ (by omega)
    rw [rowOffset] at hstart
    rw [Nat.mul_comm] at hend
    omega
  exact Nat.le_antisymm (Nat.le_of_not_lt (before hm hn)) (Nat.le_of_not_lt (before hn hm))

theorem RowHas.in_extent (hp : p.WellFormed) {t : Table} {n b : Nat} (h : p.RowHas t n b) :
    ∃ e ∈ p.extents, e.table = t ∧ e.start ≤ b ∧ b < e.start + p.sizes.rowWidth t * e.rows := by
  obtain ⟨e, he, rfl⟩ := extent_of_rows (Nat.lt_of_lt_of_le h.first h.last)
  obtain ⟨hstart, hrows⟩ := hp.extent_of_table he
  have hlow := h.low
  have hhigh := h.high
  have hlast := Nat.mul_le_mul_left (p.sizes.rowWidth e.table) h.last
  rw [rowOffset_end h.first, hstart] at hhigh
  rw [rowOffset, hstart] at hlow
  rw [hrows] at hlast
  exact ⟨e, he, rfl, by omega, by omega⟩

theorem RowHas.table_unique (hp : p.WellFormed) {t u : Table} {n m b : Nat}
    (ht : p.RowHas t n b) (hu : p.RowHas u m b) : t = u := by
  obtain ⟨e, he, rfl, helow, hehigh⟩ := ht.in_extent hp
  obtain ⟨f, hf, rfl, hflow, hfhigh⟩ := hu.in_extent hp
  rcases Nat.lt_trichotomy e.table.number f.table.number with hlt | heq | hlt
  · have hordered := extentsFrom_ordered hp.ascending he hf hlt
    change e.start + p.sizes.rowWidth e.table * e.rows ≤ _ at hordered
    omega
  · exact Table.number_inj.mp heq
  · have hordered := extentsFrom_ordered hp.ascending hf he hlt
    change f.start + p.sizes.rowWidth f.table * f.rows ≤ _ at hordered
    omega

theorem WellFormed.exists_row (hp : p.WellFormed) {b : Nat} (hlow : p.rowsStart ≤ b)
    (hhigh : b < p.rowsStart + p.rowsSize) : ∃ t n, p.RowHas t n b := by
  obtain ⟨e, he, helow, hehigh⟩ := extentsFrom_covers hlow hhigh
  obtain ⟨hstart, hrows⟩ := hp.extent_of_table he
  -- A table with a byte in it has rows of some width, so the row is found by division.
  have hwidth : 0 < p.sizes.rowWidth e.table := by
    apply Nat.pos_of_ne_zero
    intro hzero
    rw [hzero, Nat.zero_mul] at hehigh
    omega
  have hindex : (b - e.start) / p.sizes.rowWidth e.table < e.rows :=
    Nat.div_lt_of_lt_mul (by omega)
  have hbelow := Nat.div_mul_le_self (b - e.start) (p.sizes.rowWidth e.table)
  have habove := Nat.lt_div_mul_add (a := b - e.start) hwidth
  generalize (b - e.start) / p.sizes.rowWidth e.table = k at hindex hbelow habove
  refine ⟨e.table, k + 1, Nat.le_add_left 1 k, by omega, ?_, ?_⟩
  · rw [rowOffset, hstart, Nat.add_sub_cancel]
    omega
  · rw [rowOffset, hstart, Nat.add_sub_cancel]
    omega

def joinColumns : (widths values : List Nat) → Bytes
  | width :: widths, value :: values => Bytes.ofNatLE width value ++ joinColumns widths values
  | _, _ => []

theorem joinColumns_splitColumns {widths : List Nat} {data : Bytes}
    (h : data.length = widths.sum) : joinColumns widths (splitColumns widths data) = data := by
  induction widths generalizing data with
  | nil => exact (List.length_eq_zero_iff.mp h).symm
  | cons width rest ih =>
    rw [List.sum_cons] at h
    have hfirst : (data.take width).length = width := by
      rw [List.length_take]
      omega
    have hbehind : (data.drop width).length = rest.sum := by
      rw [List.length_drop]
      omega
    have hvalue := Bytes.ofNatLE_toNatLE (data.take width)
    rw [hfirst] at hvalue
    rw [splitColumns, joinColumns, hvalue, ih hbehind, List.take_append_drop]

def writeRow (p : Image) (t : Table) (values : List Nat) : Bytes :=
  joinColumns (t.columns.map p.sizes.width) values

/-- All rows of all tables present, read one after the other and written again. -/
def rowsAgain (p : Image) : Except Overrun Bytes := do
  let tables ← p.present.mapM fun (t, _) =>
    (p.rowNumbers t).mapM fun n => (p.row t n).map (p.writeRow t)
  return (tables.map List.flatten).flatten

theorem WellFormed.row_written (hp : p.WellFormed) {t : Table} {n : Nat} (hfirst : 1 ≤ n)
    (hlast : n ≤ p.tableRows t) :
    p.rowsStart ≤ p.rowOffset t n ∧
    p.rowOffset t n + p.sizes.rowWidth t ≤ p.rowsStart + p.rowsSize ∧
    ∃ values, p.row t n = .ok values ∧
      p.writeRow t values = p.tableStream.slice (p.rowOffset t n) (p.sizes.rowWidth t) := by
  obtain ⟨e, he, rfl⟩ := extent_of_rows (Nat.lt_of_lt_of_le hfirst hlast)
  obtain ⟨hstart, hrows⟩ := hp.extent_of_table he
  have hlow := (mem_extentsFrom he).2
  have hhigh := extentsFrom_end he
  have hmul := Nat.mul_le_mul_left (p.sizes.rowWidth e.table) hlast
  have hend := rowOffset_end (p := p) (t := e.table) hfirst
  rw [hstart] at hend
  rw [hrows] at hmul
  have hinside : p.rowOffset e.table n + p.sizes.rowWidth e.table ≤ p.rowsStart + p.rowsSize :=
    calc p.rowOffset e.table n + p.sizes.rowWidth e.table
        = e.start + p.sizes.rowWidth e.table * n := hend
      _ ≤ e.start + p.sizes.rowWidth e.table * e.rows := Nat.add_le_add_left hmul _
      _ ≤ p.rowsStart + p.rowsSize := hhigh
  have hfit := Nat.le_trans hinside hp.rows_fit
  refine ⟨by rw [rowOffset, hstart]; omega, hinside, _,
    bind_eq_ok.mpr ⟨_, Bytes.field_of_le hfit, rfl⟩,
    joinColumns_splitColumns (Bytes.slice_length_of_le hfit)⟩

theorem extentsFrom_slices (stream : Bytes) (s : Sizes) (start : Nat) (l : List (Table × Nat)) :
    ((extentsFrom s start l).map fun e =>
      stream.slice e.start (s.rowWidth e.table * e.rows)).flatten =
      stream.slice start ((l.map fun entry => s.rowWidth entry.1 * entry.2).sum) := by
  induction l generalizing start with
  | nil => simp [extentsFrom, Bytes.slice]
  | cons entry rest ih =>
    rw [List.map_cons, List.sum_cons, Bytes.slice_add, extentsFrom, List.map_cons,
      List.flatten_cons, ih]

theorem WellFormed.rowsAgain_eq (hp : p.WellFormed) :
    p.rowsAgain = .ok (p.tableStream.slice p.rowsStart p.rowsSize) := by
  have hrows : ∀ entry ∈ p.present,
      ((p.rowNumbers entry.1).mapM fun n => (p.row entry.1 n).map (p.writeRow entry.1)) =
        .ok ((p.rowNumbers entry.1).map fun n =>
          p.tableStream.slice (p.rowOffset entry.1 n) (p.sizes.rowWidth entry.1)) := by
    intro entry _
    refine mapM_eq_ok fun n hn => ?_
    obtain ⟨hfirst, hlast⟩ := mem_rowNumbers.mp hn
    obtain ⟨_, _, values, hvalues, hwritten⟩ := hp.row_written hfirst hlast
    exact map_eq_ok.mpr ⟨values, hvalues, hwritten⟩
  have htable : ∀ e ∈ p.extents, ((p.rowNumbers e.table).map fun n =>
      p.tableStream.slice (p.rowOffset e.table n) (p.sizes.rowWidth e.table)).flatten =
        p.tableStream.slice e.start (p.sizes.rowWidth e.table * e.rows) := by
    intro e he
    obtain ⟨hstart, hcount⟩ := hp.extent_of_table he
    have hflat := Bytes.flatten_slices p.tableStream e.start (p.sizes.rowWidth e.table) 0 e.rows
    rw [Nat.zero_mul, Nat.add_zero e.start] at hflat
    rw [rowNumbers, hcount, ← hflat]
    simp only [rowOffset, hstart]
  have hpresent : p.present.map Prod.fst = p.extents.map (·.table) :=
    (extentsFrom_tables p.sizes p.rowsStart p.present).symm
  have hall := extentsFrom_slices p.tableStream p.sizes p.rowsStart p.present
  have hjoined : ((p.present.map Prod.fst).map fun t => ((p.rowNumbers t).map fun n =>
      p.tableStream.slice (p.rowOffset t n) (p.sizes.rowWidth t)).flatten).flatten =
        p.tableStream.slice p.rowsStart p.rowsSize := by
    rw [hpresent, List.map_map, ← (show _ = p.tableStream.slice p.rowsStart p.rowsSize from hall)]
    exact congrArg List.flatten (List.map_congr_left htable)
  rw [rowsAgain, mapM_eq_ok hrows, ← hjoined]
  simp only [bind, Except.bind, pure, Except.pure, List.map_map, Function.comp_def]

/-- In every accepted image each row that a table counts is read from inside the table stream, the
rows written again are its bytes from the end of the header to the end of the last table, and of
these each byte lies in one row and no other. Widths are as the header declares them. -/
theorem rows_tile_table_stream {data : Bytes} (h : read data = .ok p) :
    (∃ flags, Declares p.tableStream flags p.present ∧
      p.rowsStart = 24 + 4 * p.present.length + (if flags &&& 0x40 = 0 then 0 else 4) ∧
      ∀ c, p.sizes.width c = declaredWidth flags p.rowCount c) ∧
    p.rowsStart + p.rowsSize ≤ p.tableStream.length ∧
    (∀ t n, 1 ≤ n → n ≤ p.tableRows t →
      p.rowsStart ≤ p.rowOffset t n ∧
      p.rowOffset t n + p.sizes.rowWidth t ≤ p.rowsStart + p.rowsSize ∧
      ∃ values, p.row t n = .ok values ∧
        p.writeRow t values = p.tableStream.slice (p.rowOffset t n) (p.sizes.rowWidth t)) ∧
    p.rowsAgain = .ok (p.tableStream.slice p.rowsStart p.rowsSize) ∧
    ∀ b, p.rowsStart ≤ b → b < p.rowsStart + p.rowsSize →
      ∃ t n, p.RowHas t n b ∧ ∀ u m, p.RowHas u m b → u = t ∧ m = n := by
  have hp := read_wellFormed h
  refine ⟨read_declares h, hp.rows_fit, fun t n => hp.row_written, hp.rowsAgain_eq, ?_⟩
  intro b hlow hhigh
  obtain ⟨t, n, hrow⟩ := hp.exists_row hlow hhigh
  refine ⟨t, n, hrow, fun u m hother => ?_⟩
  obtain rfl := hother.table_unique hp hrow
  exact ⟨rfl, hother.row_unique hrow⟩

/-- In the image of the folder the rows of two documents take 16 bytes, then those of three records
take 18. -/
theorem folder_rows_tile :
    ∃ p, read (Writer.write folder) = .ok p ∧ p.rowsStart = 32 ∧
      p.rowsAgain = .ok (p.tableStream.slice 32 34) ∧
      ∀ u m, p.RowHas u m 50 → u = .customDebugInformation ∧ m = 1 := by
  have hread : ((read (Writer.write folder)).toOption.map fun p =>
      ((p.rowsStart, p.rowsSize), p.startOf .customDebugInformation,
        p.sizes.rowWidth .customDebugInformation, p.tableRows .customDebugInformation)) =
      some ((32, 34), 48, 6, 3) := by
    decide +kernel
  cases hp : read (Writer.write folder) with
  | error e => simp [hp, Except.toOption] at hread
  | ok p =>
    simp only [hp, Except.toOption, Option.map_some, Option.some.injEq, Prod.mk.injEq] at hread
    obtain ⟨⟨hstart, hsize⟩, htable, hwidth, hrows⟩ := hread
    obtain ⟨_, _, _, hagain, hbytes⟩ := rows_tile_table_stream hp
    rw [hstart, hsize] at hagain hbytes
    have hfirst : p.RowHas .customDebugInformation 1 50 := by
      refine ⟨Nat.le_refl 1, ?_, ?_, ?_⟩
      · rw [hrows]
        decide
      · rw [rowOffset, htable, hwidth]
        decide
      · rw [rowOffset, htable, hwidth]
        decide
    obtain ⟨t, n, _, honly⟩ := hbytes 50 (by decide) (by decide)
    obtain ⟨rfl, rfl⟩ := honly _ _ hfirst
    exact ⟨p, rfl, hstart, hagain, honly⟩

end Image
end Pdb
end SourceRecovery
