import SourceRecovery.Proofs.EntryIsolation
import SourceRecovery.Proofs.ImageLayout

/-! What is read at addresses of an image, against what a loader places there. The section table
translates the first address of a range, and from there on the range is read in one piece. -/
namespace SourceRecovery.Pe

def Section.rawPlace? (s : Section) (address : Nat) : Option Nat :=
  if address - s.virtualAddress < s.rawSize then
    some (s.rawPointer + (address - s.virtualAddress))
  else none

/-- What a section supplies at an address: the raw data first, then zeros. -/
def Section.loaded? (s : Section) (data : Bytes) (address : Nat) : Option UInt8 :=
  match s.rawPlace? address with
  | some place => data[place]?
  | none => some 0

theorem Section.rawPlace?_of_low {s : Section} {address : Nat}
    (h : address - s.virtualAddress < s.rawSize) :
    s.rawPlace? address = some (s.rawPointer + (address - s.virtualAddress)) := if_pos h

theorem Section.rawPlace?_of_high {s : Section} {address : Nat}
    (h : s.rawSize ≤ address - s.virtualAddress) : s.rawPlace? address = none :=
  if_neg (Nat.not_lt_of_le h)

namespace Image

/-- The section that an address belongs to. Where several contain it, it is the first of these. -/
def sectionAt? (p : Image) (address : Nat) : Option Section :=
  p.sections.find? (·.contains address)

def rawPlace? (p : Image) (address : Nat) : Option Nat :=
  (p.sectionAt? address).bind (·.rawPlace? address)

def loaded? (p : Image) (address : Nat) : Option UInt8 :=
  (p.sectionAt? address).bind (·.loaded? p.data address)

def Loads (p : Image) (address : Nat) (bytes : Bytes) : Prop :=
  ∀ k < bytes.length, p.loaded? (address + k) = bytes[k]?

instance (p : Image) (address : Nat) (bytes : Bytes) : Decidable (p.Loads address bytes) :=
  inferInstanceAs (Decidable (∀ k < bytes.length, _ = _))

/-- The sections have the bytes of a range of addresses in one piece of the file. -/
def Backs (p : Image) (address start size : Nat) : Prop :=
  ∀ k < size, p.rawPlace? (address + k) = some (start + k)

variable {p : Image} {s : Section} {address start size place shift part : Nat} {bytes : Bytes}

theorem loaded?_of_rawPlace? (h : p.rawPlace? address = some place) :
    p.loaded? address = p.data[place]? := by
  obtain ⟨s, hsection, hplace⟩ := Option.bind_eq_some_iff.mp h
  rw [loaded?, hsection, Option.bind_some, Section.loaded?, hplace]

theorem loaded?_of_rawPlace?_none (h : p.rawPlace? address = none) :
    p.loaded? address = none ∨ p.loaded? address = some 0 := by
  rw [loaded?]
  rw [rawPlace?] at h
  cases hsection : p.sectionAt? address with
  | none => exact Or.inl rfl
  | some s =>
    rw [hsection, Option.bind_some] at h
    right
    rw [Option.bind_some, Section.loaded?, h]

/-- What the translation of an address comes to. Behind the raw data of a section it gives what
follows these in the file, though a loader has zeros there. -/
inductive Translates (p : Image) (address : Nat) : Option Nat → Prop
  | unmapped (hsections : ∀ s ∈ p.sections, s.contains address = false)
      (hloaded : p.loaded? address = none) : Translates p address none
  | raw {s : Section} {place : Nat} (hsection : p.sectionAt? address = some s)
      (hplace : p.rawPlace? address = some place) (hlow : s.rawPointer ≤ place)
      (hhigh : place < s.rawPointer + s.rawSize)
      (hloaded : p.loaded? address = p.data[place]?) : Translates p address (some place)
  | tail {s : Section} {place : Nat} (hsection : p.sectionAt? address = some s)
      (hpast : s.rawPointer + s.rawSize ≤ place)
      (hloaded : p.loaded? address = some 0) : Translates p address (some place)

theorem offset?_eq (p : Image) (address : Nat) : p.offset? address =
    (p.sectionAt? address).map fun s => s.rawPointer + (address - s.virtualAddress) := by
  rw [offset?, sectionAt?]
  congr
  funext s
  exact Nat.add_comm _ _

theorem offset?_translates (p : Image) (address : Nat) :
    p.Translates address (p.offset? address) := by
  rw [offset?_eq]
  cases hsection : p.sectionAt? address with
  | none =>
    refine .unmapped (fun s hs => ?_) (by rw [loaded?, hsection, Option.bind_none])
    exact Bool.eq_false_iff.mpr (List.find?_eq_none.mp hsection s hs)
  | some s =>
    by_cases hraw : address - s.virtualAddress < s.rawSize
    · have hplace : p.rawPlace? address = some (s.rawPointer + (address - s.virtualAddress)) := by
        rw [rawPlace?, hsection, Option.bind_some, Section.rawPlace?_of_low hraw]
      exact .raw hsection hplace (Nat.le_add_right _ _) (Nat.add_lt_add_left hraw _)
        (loaded?_of_rawPlace? hplace)
    · have hhigh : s.rawSize ≤ address - s.virtualAddress := Nat.le_of_not_lt hraw
      refine .tail hsection (Nat.add_le_add_left hhigh _) ?_
      rw [loaded?, hsection, Option.bind_some, Section.loaded?, Section.rawPlace?_of_high hhigh]

/-- A range of addresses among the raw data of a section. The sections in front of it contain none
of them; those behind it may. -/
structure RawRange (p : Image) (s : Section) (address size : Nat) : Prop where
  first : ∃ front behind, p.sections = front ++ s :: behind ∧
    ∀ t ∈ front, ∀ k < size, t.contains (address + k) = false
  low : s.virtualAddress ≤ address
  high : address + size ≤ s.virtualAddress + s.rawSize

theorem RawRange.sectionAt?_eq (h : p.RawRange s address size) {k : Nat} (hk : k < size) :
    p.sectionAt? (address + k) = some s := by
  obtain ⟨⟨front, behind, hsections, hfront⟩, hlow, hhigh⟩ := h
  have hnone : front.find? (·.contains (address + k)) = none :=
    List.find?_eq_none.mpr fun t ht => Bool.not_eq_true _ ▸ hfront t ht k hk
  have hcontains : s.contains (address + k) = true := by
    rw [Section.contains, Bool.and_eq_true, decide_eq_true_eq, decide_eq_true_eq]
    have hmax := Nat.le_max_right s.virtualSize s.rawSize
    omega
  rw [sectionAt?, hsections, List.find?_append, hnone, Option.none_or,
    List.find?_cons_of_pos (p := fun t : Section => t.contains (address + k)) hcontains]

theorem RawRange.backs (h : p.RawRange s address size) (hstart : p.offset? address = some start) :
    p.Backs address start size := by
  intro k hk
  have hsection := h.sectionAt?_eq hk
  have hfirst : p.sectionAt? address = some s := h.sectionAt?_eq (Nat.zero_lt_of_lt hk)
  obtain ⟨_, hlow, hhigh⟩ := h
  have hplace : address + k - s.virtualAddress = address - s.virtualAddress + k := by omega
  rw [offset?_eq, hfirst, Option.map_some, Option.some.injEq] at hstart
  rw [rawPlace?, hsection, Option.bind_some, Section.rawPlace?_of_low (by omega), hplace, ← hstart,
    Nat.add_assoc]

theorem Backs.inner (h : p.Backs address start size) (hinside : shift + part ≤ size) :
    p.Backs (address + shift) (start + shift) part := by
  intro k hk
  rw [Nat.add_assoc, Nat.add_assoc]
  exact h (shift + k) (by omega)

/-- Bytes that are read in one piece for a range of addresses. They are the ones loaded there if the
sections have them where they are read; no weaker condition is enough for all that a file can hold
under this section table. -/
structure ReadsFor (p : Image) (address start : Nat) (bytes : Bytes) : Prop where
  read : p.data.At start bytes
  loads : p.Backs address start bytes.length → p.Loads address bytes
  backs : (∀ data : Bytes, data.length = p.data.length →
    (p.withData data).Loads address (data.slice start bytes.length)) →
      p.Backs address start bytes.length

theorem loads_of_backs (hread : p.data.At start bytes)
    (hbacks : p.Backs address start bytes.length) : p.Loads address bytes := by
  intro k hk
  rw [loaded?_of_rawPlace? (hbacks k hk)]
  conv_rhs => rw [← hread.slice, Bytes.slice, List.getElem?_take_of_lt hk, List.getElem?_drop]

/-- Of a file with a single one among zeros, only the place of the one can be what is loaded. -/
theorem rawPlace?_of_loaded_one
    (h : (p.withData ((List.replicate p.data.length 0).set place 1)).loaded? address = some 1) :
    p.rawPlace? address = some place := by
  have hsame : ∀ data, (p.withData data).rawPlace? address = p.rawPlace? address := fun _ => rfl
  cases hplace : p.rawPlace? address with
  | none =>
    rcases loaded?_of_rawPlace?_none ((hsame _).trans hplace) with hnone | hzero
    · cases hnone.symm.trans h
    · cases hzero.symm.trans h
  | some other =>
    rw [loaded?_of_rawPlace? ((hsame _).trans hplace)] at h
    by_cases hother : place = other
    · rw [hother]
    · have hzero : (List.replicate p.data.length (0 : UInt8))[other]? = some 1 := by
        rw [← List.getElem?_set_ne hother]
        exact h
      rw [List.getElem?_replicate] at hzero
      split at hzero <;> cases hzero

theorem backs_of_always_loads (hinside : start + size ≤ p.data.length)
    (h : ∀ data : Bytes, data.length = p.data.length →
      (p.withData data).Loads address (data.slice start size)) : p.Backs address start size := by
  intro k hk
  let data : Bytes := (List.replicate p.data.length 0).set (start + k) 1
  have hlength : data.length = p.data.length := by
    rw [List.length_set, List.length_replicate]
  have hone : data[start + k]? = some 1 :=
    List.getElem?_set_self (by rw [List.length_replicate]; omega)
  apply rawPlace?_of_loaded_one
  have hslice : (data.slice start size).length = size :=
    Bytes.slice_length_of_le (by rw [hlength]; exact hinside)
  rw [h data hlength k (by rw [hslice]; exact hk), Bytes.slice, List.getElem?_take_of_lt hk,
    List.getElem?_drop, hone]

theorem readsFor_of_at (hread : p.data.At start bytes) : p.ReadsFor address start bytes :=
  ⟨hread, loads_of_backs hread, backs_of_always_loads hread.le_length⟩

theorem entryData_of_address {e : DebugEntry} (hpointer : e.pointer = 0)
    (h : p.entryData e = .ok bytes) :
    ∃ start, p.offset? e.address = some start ∧ p.data.At start bytes ∧ bytes.length = e.size := by
  unfold entryData at h
  dsimp only at h
  split at h
  · cases h
  · rename_i hwell
    cases h
    obtain ⟨hstart, hinside⟩ := not_or.mp hwell
    rw [entryStart, if_neg (not_not.mpr hpointer)] at hstart hinside ⊢
    split at hstart
    · rename_i haddress
      rw [if_pos haddress] at hinside ⊢
      cases hoffset : p.offset? e.address with
      | none =>
        rw [hoffset] at hstart
        exact absurd rfl hstart
      | some start =>
        rw [hoffset, Option.getD_some] at hinside
        exact ⟨start, rfl, Bytes.field_eq_ok_iff.mp (Bytes.field_of_le (Nat.le_of_not_lt hinside))⟩
    · exact absurd rfl hstart

/-- An address is translated through the first section that contains it, to its byte if that is
among the raw data of the section and past them if it is not. So a range of addresses among the raw
data of one section is found in one piece. The entries of a debug directory are read from the piece
that begins at its address, and so are the data of an entry that is found by its address; what is
read is what a loader places there, for every content of the file, exactly where the sections have
it in that piece. -/
theorem mapped_ranges_loaded {d : Directory} {entries : List DebugEntry}
    (hdirectory : p.debugDirectory = some d) (hentries : p.debugEntries = .ok entries) :
    (∀ address, p.Translates address (p.offset? address)) ∧
    (∀ s address size start, p.RawRange s address size → p.offset? address = some start →
      ∀ shift part, shift + part ≤ size → p.Backs (address + shift) (start + shift) part) ∧
    (∃ start, p.offset? d.address = some start ∧ entries.length = d.size / debugEntrySize ∧
      ∀ (i : Nat) e, entries[i]? = some e → ∃ fields, fields.length = debugEntrySize ∧
        e = DebugEntry.ofFields i fields ∧
        p.ReadsFor (d.address + debugEntrySize * i) (start + debugEntrySize * i) fields) ∧
    ∀ (e : DebugEntry) bytes, e.pointer = 0 → p.entryData e = .ok bytes →
      ∃ start, p.offset? e.address = some start ∧ bytes.length = e.size ∧
        p.ReadsFor e.address start bytes := by
  refine ⟨p.offset?_translates, ?_, ?_, ?_⟩
  · intro s address size start hrange hstart shift part hinside
    exact (hrange.backs hstart).inner hinside
  · cases debugEntries_lists hentries with
    | absent habsent => cases habsent.symm.trans hdirectory
    | directory hsome hoffset hlength hfields =>
      cases hsome.symm.trans hdirectory
      refine ⟨_, hoffset, hlength, fun i e he => ?_⟩
      obtain ⟨fields, hfield, he⟩ := hfields i e he
      obtain ⟨hread, hsize⟩ := Bytes.field_eq_ok_iff.mp hfield
      exact ⟨fields, hsize, he, readsFor_of_at hread⟩
  · intro e bytes hpointer hdata
    obtain ⟨start, hoffset, hread, hsize⟩ := entryData_of_address hpointer hdata
    exact ⟨start, hoffset, hsize, readsFor_of_at hread⟩

/-- Two sections, and a directory of two entries that begins in the raw data of the first section
and ends in the zeros behind them. -/
def acrossSections : Image where
  data := List.replicate 20 0 ++ Bytes.ofNatLE 4 2 ++ Bytes.ofNatLE 4 0x1010 ++
    List.replicate 4 0 ++ List.replicate 28 0xFF
  machine := 0x14C
  format := .pe32
  debugDirectory := some ⟨0x1000, 56⟩
  sections := [⟨".text", 0x1000, 0x1000, 28, 4⟩, ⟨".data", 0x2000, 28, 28, 32⟩]

/-- The first entry and its data are the ones loaded. The second is read out of the next section. -/
theorem directory_across_sections :
    ∃ first second data, acrossSections.debugEntries =
        .ok [DebugEntry.ofFields 0 first, DebugEntry.ofFields 1 second] ∧
      acrossSections.Loads 0x1000 first ∧ ¬ acrossSections.Loads 0x101C second ∧
      acrossSections.entryData (DebugEntry.ofFields 0 first) = .ok data ∧
      acrossSections.Loads 0x1010 data := by
  let first : Bytes := acrossSections.data.slice 4 28
  let second : Bytes := acrossSections.data.slice 32 28
  have hentries : acrossSections.debugEntries =
      .ok [DebugEntry.ofFields 0 first, DebugEntry.ofFields 1 second] := by
    decide +kernel
  have hdata : acrossSections.entryData (DebugEntry.ofFields 0 first) = .ok [2, 0] := by
    decide +kernel
  have hrange : ∀ {address size}, 0x1000 ≤ address → address + size ≤ 0x101C →
      acrossSections.RawRange ⟨".text", 0x1000, 0x1000, 28, 4⟩ address size :=
    fun hlow hhigh => ⟨⟨[], _, rfl, fun t ht => absurd ht List.not_mem_nil⟩, hlow, hhigh⟩
  obtain ⟨_, hbacks, ⟨start, hstart, _, hread⟩, hlocated⟩ :=
    mapped_ranges_loaded (rfl : acrossSections.debugDirectory = some ⟨0x1000, 56⟩) hentries
  have hfirst : acrossSections.Loads 0x1000 first := by
    obtain ⟨fields, hsize, _, hfields⟩ := hread 0 _ rfl
    have hplace : start = 4 := Option.some.inj (hstart.symm.trans (by decide))
    subst hplace
    have hsame : first = fields := by rw [← hfields.read.slice, hsize]; rfl
    rw [hsame]
    apply hfields.loads
    rw [hsize]
    exact hbacks _ _ 28 _ (hrange (by decide) (by decide)) hstart 0 28 (by decide)
  have hloaded : acrossSections.Loads 0x1010 [2, 0] := by
    obtain ⟨place, hplace, _, hbytes⟩ := hlocated (DebugEntry.ofFields 0 first) _ (by decide) hdata
    exact hbytes.loads (hbacks _ _ 2 _ (hrange (by decide) (by decide)) hplace 0 2 (by decide))
  exact ⟨first, second, [2, 0], hentries, hfirst, by decide +kernel, hdata, hloaded⟩

end Image
end SourceRecovery.Pe
