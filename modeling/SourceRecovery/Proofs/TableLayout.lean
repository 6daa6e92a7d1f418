import SourceRecovery.Pdb.Reader
import SourceRecovery.Proofs.ByteFields
import SourceRecovery.Proofs.Sequences

/-! The rows of an accepted image. What the checks on reading an image establish is kept as
`WellFormed`; from it every row that a table counts lies inside the table stream. -/
namespace SourceRecovery.Pdb

theorem Table.number_inj {t u : Table} : t.number = u.number ↔ t = u := by
  cases t <;> cases u <;> decide

theorem Table.ofNumber?_number (t : Table) : Table.ofNumber? t.number = some t := by
  cases t <;> decide

theorem Table.number_of_ofNumber? {n : Nat} {t : Table} (h : Table.ofNumber? n = some t) :
    t.number = n := by
  simpa using List.find?_some h

theorem bitsSet_ascending (mask : Nat) : (bitsSet mask).Pairwise (· < ·) :=
  List.Pairwise.filter _ List.pairwise_lt_range

theorem debugRowCountsAt_numbers {stream : Bytes} {offset : Nat} {numbers : List Nat}
    {present : List (Table × Nat)} (h : debugRowCountsAt stream offset numbers = .ok present) :
    present.map (fun entry => entry.1.number) = numbers := by
  induction numbers generalizing offset present with
  | nil =>
    cases h
    rfl
  | cons number rest ih =>
    simp only [debugRowCountsAt] at h
    cases ht : Table.ofNumber? number with
    | none => simp [ht] at h
    | some t =>
      simp only [ht] at h
      obtain ⟨count, _, h⟩ := bind_eq_ok.mp h
      obtain ⟨others, hothers, h⟩ := bind_eq_ok.mp h
      cases h
      simp [Table.number_of_ofNumber? ht, ih hothers]

namespace Image

variable {p : Image}

/-- What reading has checked: the tables lie in the order of their numbers, none twice, and all
their rows end inside the stream. -/
structure WellFormed (p : Image) : Prop where
  ascending : (p.present.map fun entry => entry.1.number).Pairwise (· < ·)
  rows_fit : p.rowsStart + p.rowsSize ≤ p.tableStream.length

theorem ofTableStream_wellFormed {version : String} {pdb : PdbStream}
    {blobHeap guidHeap stream : Bytes}
    (h : ofTableStream version pdb blobHeap guidHeap stream = .ok p) : p.WellFormed := by
  unfold ofTableStream at h
  split at h
  · cases h
  · obtain ⟨valid, _, h⟩ := bind_eq_ok.mp h
    obtain ⟨present, hpresent, h⟩ := bind_eq_ok.mp h
    generalize hq : ofCounts _ _ _ _ _ _ _ = q at h
    dsimp only at h
    split at h
    · cases h
    · cases h
      refine ⟨?_, ?_⟩
      · rw [← hq]
        exact debugRowCountsAt_numbers hpresent ▸ bitsSet_ascending valid
      · have hstream : p.tableStream = stream := by rw [← hq]; rfl
        rw [hstream]
        omega

theorem read_wellFormed {data : Bytes} (h : read data = .ok p) : p.WellFormed := by
  obtain ⟨root, _, h⟩ := bind_eq_ok.mp h
  unfold ofRoot at h
  split at h
  · cases h
  · split at h
    · cases h
    · obtain ⟨pdb, _, h⟩ := bind_eq_ok.mp h
      exact ofTableStream_wellFormed h

theorem extentsFrom_find (s : Sizes) (start : Nat) {t : Table} {l : List (Table × Nat)} {n : Nat}
    (h : (l.find? fun entry => entry.1.number = t.number).map Prod.snd = some n) :
    ∃ first, (extentsFrom s start l).find? (·.table = t) = some ⟨t, first, n⟩ ∧ start ≤ first ∧
      first + s.rowWidth t * n ≤ start + (l.map fun entry => s.rowWidth entry.1 * entry.2).sum := by
  induction l generalizing start with
  | nil => simp at h
  | cons entry rest ih =>
    obtain ⟨table, rows⟩ := entry
    simp only [List.map_cons, List.sum_cons]
    by_cases ht : table = t
    · subst ht
      have hn : rows = n := by simpa using h
      subst hn
      exact ⟨start, by simp [extentsFrom], Nat.le_refl _, by omega⟩
    · have hnumber : table.number ≠ t.number := fun e => ht (Table.number_inj.mp e)
      obtain ⟨first, hfind, hlow, hhigh⟩ :=
        ih (start + s.rowWidth table * rows) (by simpa [hnumber] using h)
      exact ⟨first, by simp [extentsFrom, ht, hfind], by omega, by omega⟩

theorem exists_rowCount {t : Table} (h : 0 < p.tableRows t) :
    ∃ n, p.debugRowCount? t.number = some n := by
  cases hcount : p.debugRowCount? t.number with
  | none => simp [tableRows, hcount] at h
  | some n => exact ⟨n, rfl⟩

theorem WellFormed.table_fits (hp : p.WellFormed) {t : Table} (h : 0 < p.tableRows t) :
    p.startOf t + p.sizes.rowWidth t * p.tableRows t ≤ p.tableStream.length := by
  obtain ⟨n, hn⟩ := exists_rowCount h
  obtain ⟨first, hfind, _, hhigh⟩ := extentsFrom_find p.sizes p.rowsStart hn
  have hfit := hp.rows_fit
  have hstart : p.startOf t = first := by simp [startOf, extents, hfind]
  have hsize : p.rowsSize = (p.present.map fun entry => p.sizes.rowWidth entry.1 * entry.2).sum :=
    rfl
  rw [hstart, tableRows, hn, Option.getD_some]
  omega

theorem splitColumns_length (widths : List Nat) (data : Bytes) :
    (splitColumns widths data).length = widths.length := by
  induction widths generalizing data with
  | nil => rfl
  | cons width rest ih => simp [splitColumns, ih]

theorem WellFormed.row_ok (hp : p.WellFormed) {t : Table} {n : Nat} (hn : 1 ≤ n)
    (hcount : n ≤ p.tableRows t) :
    ∃ values, p.row t n = .ok values ∧ values.length = t.columns.length := by
  have hfits := hp.table_fits (t := t) (by omega)
  have hrow : (n - 1) * p.sizes.rowWidth t + p.sizes.rowWidth t ≤
      p.sizes.rowWidth t * p.tableRows t := by
    calc (n - 1) * p.sizes.rowWidth t + p.sizes.rowWidth t
        = (n - 1 + 1) * p.sizes.rowWidth t := (Nat.succ_mul _ _).symm
      _ = p.sizes.rowWidth t * n := by rw [Nat.sub_add_cancel hn, Nat.mul_comm]
      _ ≤ p.sizes.rowWidth t * p.tableRows t := Nat.mul_le_mul_left _ hcount
  have hend : p.startOf t + (n - 1) * p.sizes.rowWidth t + p.sizes.rowWidth t ≤
      p.tableStream.length := by omega
  exact ⟨_, bind_eq_ok.mpr ⟨_, Bytes.field_of_le hend, rfl⟩, by simp [splitColumns_length]⟩

theorem mem_rowNumbers {t : Table} {n : Nat} :
    n ∈ p.rowNumbers t ↔ 1 ≤ n ∧ n ≤ p.tableRows t := by
  simp only [rowNumbers, List.mem_range'_1]
  omega

theorem WellFormed.debugRow_ok (hp : p.WellFormed) {n : Nat}
    (hn : n ∈ p.rowNumbers .customDebugInformation) : ∃ row, p.debugRow n = .ok row := by
  obtain ⟨hlow, hhigh⟩ := mem_rowNumbers.mp hn
  obtain ⟨values, hvalues, hlength⟩ := hp.row_ok hlow hhigh
  match values, hlength with
  | [parent, kind, value], _ =>
    exact ⟨⟨parent, kind, value⟩, bind_eq_ok.mpr ⟨_, hvalues, rfl⟩⟩

end Image
end SourceRecovery.Pdb
