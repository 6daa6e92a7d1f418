import SourceRecovery.Proofs.PathLookup

/-! Trees, and what putting files into one does to it. There are no links, so a path is its names
from the root. A file needs the directories above it, and those that can be made are made even if
the file cannot be put there. -/
namespace SourceRecovery

abbrev Tree := Location → Option Entry

namespace Path

def location (p : Path) : Location := p.names.reverse

theorem parent_location (p : Path) : p.parent.location = p.location.tail := by
  rw [location, location, parent, List.tail_reverse]

end Path

instance (p : Path) : Decidable (Disk.Admits p) :=
  decidable_of_iff
    (p.names.any (·.toList.contains '\x00') = false ∧ p.render.utf8ByteSize < Disk.pathMax)
    ⟨fun h => ⟨h.1, h.2⟩, fun h => ⟨h.no_zero, h.fits⟩⟩

/-- A file to be put at a path, if there is one for it. -/
structure Placement where
  path : Option Path
  content : Bytes
  deriving DecidableEq, Repr

namespace Tree

/-- What holds of a location and all above it but the root, and their names are not too long. -/
def Down (P : Location → Prop) : Location → Prop
  | [] => True
  | name :: above => Down P above ∧ name.utf8ByteSize ≤ Disk.nameMax ∧ P (name :: above)

/-- All there is on the way down to a location is directories, itself included, and what is missing
can be made. -/
def Open (t : Tree) (l : Location) : Prop := Down (fun s => t s = none ∨ t s = some .directory) l

/-- Nothing is missing on the way down to a location, and it is a directory like all above it. -/
def Made (t : Tree) (l : Location) : Prop := Down (fun s => t s = some .directory) l

instance decidableDown (P : Location → Prop) [DecidablePred P] :
    (l : Location) → Decidable (Down P l)
  | [] => isTrue trivial
  | name :: above =>
    have := decidableDown P above
    inferInstanceAs (Decidable (Down P above ∧ name.utf8ByteSize ≤ Disk.nameMax ∧
      P (name :: above)))

instance (t : Tree) (l : Location) : Decidable (t.Open l) :=
  inferInstanceAs (Decidable (Down (fun s => t s = none ∨ t s = some .directory) l))

variable {t t' : Tree} {l s above : Location} {name : String}

theorem Down.of_suffix {P : Location → Prop} (h : Down P l) (hs : s <:+ l) : Down P s := by
  induction l with
  | nil => exact List.suffix_nil.mp hs ▸ h
  | cons name above ih =>
    rcases List.suffix_cons_iff.mp hs with rfl | hs
    · exact h
    · exact ih h.1 hs

theorem Down.imp {P Q : Location → Prop} (h : Down P l)
    (himp : ∀ s, s <:+ l → s ≠ [] → P s → Q s) : Down Q l := by
  induction l with
  | nil => trivial
  | cons name above ih =>
    exact ⟨ih h.1 fun s hs => himp s (hs.trans (List.suffix_cons name above)), h.2.1,
      himp _ (List.suffix_refl _) (List.cons_ne_nil name above) h.2.2⟩

theorem Made.isOpen (h : t.Made l) : t.Open l := h.imp fun _ _ _ => .inr

theorem Made.of_suffix (h : t.Made l) (hs : s <:+ l) : t.Made s := Down.of_suffix h hs

theorem Open.of_suffix (h : t.Open l) (hs : s <:+ l) : t.Open s := Down.of_suffix h hs

/-- What is there and no directory is in the way of all below it. -/
theorem not_open_of_entry {e : Entry} (he : t (name :: above) = some e) (hkind : e ≠ .directory) :
    ¬ t.Open (name :: above) := by
  rintro ⟨_, _, hnone | hdirectory⟩
  · cases he.symm.trans hnone
  · cases he.symm.trans hdirectory
    exact hkind rfl

theorem made_of_closed (hclosed : ¬ t.Open (name :: above))
    (hmade : ∀ s, s <:+ above → t.Open s → t.Made s) :
    ∀ s, s <:+ name :: above → t.Open s → t.Made s := by
  intro s hs hopen
  rcases List.suffix_cons_iff.mp hs with rfl | hs
  · exact absurd hopen hclosed
  · exact hmade s hs hopen

theorem open_iff_of_made (h : ∀ s, s <:+ l → t' s = t s ∨ t.Open s ∧ t' s = some .directory) :
    t'.Open l ↔ t.Open l := by
  induction l with
  | nil => exact Iff.rfl
  | cons name above ih =>
    have habove := ih fun s hs => h s (hs.trans (List.suffix_cons name above))
    rcases h _ (List.suffix_refl _) with hsame | ⟨hopen, hmade⟩
    · exact and_congr habove (and_congr_right fun _ => by simp only [hsame])
    · exact iff_of_true ⟨habove.mpr hopen.1, hopen.2.1, .inr hmade⟩ hopen

/-- With the directories that are missing on the way to a location, down to where one cannot be
made. -/
def withDirectories (t : Tree) (l : Location) : Tree := fun s =>
  if s <:+ l ∧ t.Open s then some .directory else t s

theorem withDirectories_of_open (hs : s <:+ l) (h : t.Open s) :
    t.withDirectories l s = some .directory := if_pos ⟨hs, h⟩

theorem withDirectories_of_not (h : ¬ (s <:+ l ∧ t.Open s)) : t.withDirectories l s = t s :=
  if_neg h

theorem withDirectories_open_iff : (t.withDirectories l).Open s ↔ t.Open s := by
  refine open_iff_of_made fun other _ => ?_
  by_cases h : other <:+ l ∧ t.Open other
  · exact .inr ⟨h.2, withDirectories_of_open h.1 h.2⟩
  · exact .inl (withDirectories_of_not h)

theorem withDirectories_made (h : t.Open l) : (t.withDirectories l).Made l :=
  h.imp fun _ hs _ _ => withDirectories_of_open hs (h.of_suffix hs)

theorem withDirectories_of_closed (h : ¬ t.Open (name :: above)) :
    t.withDirectories (name :: above) = t.withDirectories above := by
  funext s
  have hway : s <:+ name :: above ∧ t.Open s ↔ s <:+ above ∧ t.Open s := by
    apply and_congr_left
    intro hopen
    refine List.suffix_cons_iff.trans (or_iff_right ?_)
    rintro rfl
    exact h hopen
  simp only [withDirectories, hway]

theorem withDirectories_withDirectories (hs : s <:+ l) :
    (t.withDirectories s).withDirectories l = t.withDirectories l := by
  funext other
  by_cases h : other <:+ l ∧ t.Open other
  · rw [withDirectories_of_open h.1 h.2,
      withDirectories_of_open h.1 (withDirectories_open_iff.mpr h.2)]
  · rw [withDirectories_of_not h, withDirectories_of_not (by rwa [withDirectories_open_iff]),
      withDirectories_of_not fun h' => h ⟨h'.1.trans hs, h'.2⟩]

/-- A file can be put at a location: it can be there and no directory is. -/
def Receives (t : Tree) : Location → Prop
  | [] => False
  | name :: above => t.Open above ∧ name.utf8ByteSize ≤ Disk.nameMax ∧
      t (name :: above) ≠ some .directory

instance decidableReceives (t : Tree) : (l : Location) → Decidable (t.Receives l)
  | [] => isFalse id
  | name :: above =>
    inferInstanceAs (Decidable (t.Open above ∧ name.utf8ByteSize ≤ Disk.nameMax ∧
      t (name :: above) ≠ some .directory))

def Accepts (t : Tree) (p : Path) : Prop :=
  Disk.Admits p.parent ∧ Disk.Admits p ∧ t.Receives p.location

instance (t : Tree) (p : Path) : Decidable (t.Accepts p) :=
  inferInstanceAs (Decidable (_ ∧ _ ∧ _))

/-- A file that is to be put at a path has a directory made here, if it is not there already. -/
def Paves (t : Tree) (p : Path) (s : Location) : Prop :=
  Disk.Admits p.parent ∧ s <:+ p.location.tail ∧ t.Open s

instance (t : Tree) (p : Path) : DecidablePred (t.Paves p) :=
  fun _ => inferInstanceAs (Decidable (_ ∧ _ ∧ _))

def prepared (t : Tree) (p : Path) : Tree := fun s => if t.Paves p s then some .directory else t s

/-- A file put at a path takes this location. A device stays what it is. -/
def Fills (t : Tree) (p : Path) (s : Location) : Prop :=
  s = p.location ∧ t.Accepts p ∧ t s ≠ some .device

instance (t : Tree) (p : Path) : DecidablePred (t.Fills p) :=
  fun _ => inferInstanceAs (Decidable (_ ∧ _ ∧ _))

def written (t : Tree) (p : Path) (content : Bytes) : Tree := fun s =>
  if t.Fills p s then some (.file content) else t.prepared p s

def put (t : Tree) (f : Placement) : Tree :=
  match f.path with
  | none => t
  | some p => t.written p f.content

def Takes (t : Tree) (f : Placement) : Prop := ∃ p, f.path = some p ∧ t.Accepts p

theorem takes_some {p : Path} {content : Bytes} : t.Takes ⟨some p, content⟩ ↔ t.Accepts p :=
  ⟨fun ⟨_, hp, h⟩ => by cases hp; exact h, fun h => ⟨p, rfl, h⟩⟩

instance (t : Tree) : (f : Placement) → Decidable (t.Takes f)
  | ⟨none, _⟩ => isFalse fun ⟨_, hp, _⟩ => by cases hp
  | ⟨some _, _⟩ => decidable_of_iff' _ takes_some

variable {p : Path} {content : Bytes}

theorem prepared_of_admits (h : Disk.Admits p.parent) :
    t.prepared p = t.withDirectories p.location.tail :=
  funext fun _ => ite_congr (propext (and_iff_right h)) (fun _ => rfl) fun _ => rfl

theorem prepared_of_not_admits (h : ¬ Disk.Admits p.parent) : t.prepared p = t :=
  funext fun _ => if_neg fun hpaves => h hpaves.1

theorem prepared_open_iff : (t.prepared p).Open l ↔ t.Open l := by
  by_cases h : Disk.Admits p.parent
  · rw [prepared_of_admits h, withDirectories_open_iff]
  · rw [prepared_of_not_admits h]

theorem not_suffix_tail (hl : l ≠ []) : ¬ l <:+ l.tail := by
  intro h
  have hlength := h.length_le
  rw [List.length_tail] at hlength
  have := List.length_pos_iff.mpr hl
  omega

theorem prepared_at_location (hl : p.location ≠ []) : t.prepared p p.location = t p.location :=
  if_neg fun h => not_suffix_tail hl h.2.1

/-- Preparing the way for a file does not decide whether it can be put there. -/
theorem receives_prepared : (t.prepared p).Receives p.location ↔ t.Receives p.location := by
  have hsame := prepared_at_location (t := t) (p := p)
  generalize p.location = l at hsame
  cases l with
  | nil => exact Iff.rfl
  | cons name above => rw [Receives, Receives, prepared_open_iff, hsame (List.cons_ne_nil _ _)]

theorem Receives.open_above (h : t.Receives l) : t.Open l.tail := by
  cases l with
  | nil => exact h.elim
  | cons name above => exact h.1

theorem Accepts.location_ne_nil (h : t.Accepts p) : p.location ≠ [] := by
  intro hnil
  have hreceives := h.2.2
  rw [hnil] at hreceives
  exact hreceives

theorem written_of_fills (h : t.Fills p s) : t.written p content s = some (.file content) :=
  if_pos h

theorem written_of_not_fills (h : ¬ t.Fills p s) : t.written p content s = t.prepared p s :=
  if_neg h

theorem written_of_not_accepts (h : ¬ t.Accepts p) : t.written p content = t.prepared p :=
  funext fun _ => written_of_not_fills fun hfills => h hfills.2.1

end Tree
end SourceRecovery
