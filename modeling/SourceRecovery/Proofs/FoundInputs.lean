import Mathlib.Data.List.Basic
import SourceRecovery.Proofs.InputSearch

/-! What a search of a whole tree finds. Real subdirectories are entered and links are not, so the
search is an induction along the directories that can be reached, and their paths get longer with
every step, so that the depth is bounded. The files of a directory come before all that is found
below it. -/
namespace SourceRecovery

theorem occursIn_iff {piece text : List Char} : occursIn piece text = true ↔ piece <:+: text := by
  induction text with
  | nil => simp [occursIn]
  | cons c rest ih =>
    rw [occursIn, Bool.or_eq_true, ih, List.infix_cons_iff, List.isPrefixOf_iff_prefix]

namespace Sequence

theorem pairwise_concatMap {α β : Type} {step : α → Sequence β} {r : β → β → Prop} {l : List α}
    (hstep : ∀ a ∈ l, (step a).items.Pairwise r)
    (hsteps : l.Pairwise fun a b => ∀ x ∈ (step a).items, ∀ y ∈ (step b).items, r x y) :
    (concatMap step l).items.Pairwise r := by
  induction l with
  | nil => exact .nil
  | cons a rest ih =>
    obtain ⟨hfirst, hrest⟩ := List.forall_mem_cons.mp hstep
    obtain ⟨hlater, hsteps⟩ := List.pairwise_cons.mp hsteps
    rw [concatMap, append]
    split
    · exact hfirst
    · refine List.pairwise_append.mpr ⟨hfirst, ih hrest hsteps, fun x hx y hy => ?_⟩
      obtain ⟨b, hb, hy⟩ := mem_concatMap hy
      exact hlater b hb x hx y hy

end Sequence

namespace Path

variable {p dir : Path} {name : String} {chars stem suffix : List Char}

theorem name_child (dir : Path) (name : String) : (dir.child name).name = name := by
  simp [child, Path.name]

theorem suffixOf_append (hstem : stem ≠ []) (hsuffix : suffix ≠ []) (hdot : '.' ∉ suffix) :
    suffixOf (stem ++ '.' :: suffix) = '.' :: suffix := by
  have hkept : ∀ c ∈ suffix.reverse, decide (c ≠ '.') = true := by
    intro c hc
    refine decide_eq_true fun heq => hdot ?_
    exact heq ▸ List.mem_reverse.mp hc
  have htail : ((stem ++ '.' :: suffix).reverse.takeWhile (· ≠ '.')).reverse = suffix := by
    rw [List.reverse_append, List.reverse_cons, List.append_assoc, List.singleton_append,
      List.takeWhile_append_of_pos hkept, List.takeWhile_cons_of_neg (by simp), List.append_nil,
      List.reverse_reverse]
  have hlong : ¬ (stem ++ '.' :: suffix).length ≤ suffix.length + 1 := by
    have hlength := List.length_pos_of_ne_nil hstem
    rw [List.length_append, List.length_cons]
    omega
  rw [suffixOf, htail, if_neg (not_or.mpr ⟨hsuffix, hlong⟩)]

theorem parent_child (dir : Path) (name : String) : (dir.child name).parent = dir := by
  simp [child, parent]

theorem stem_of_suffixOf (h : suffixOf chars ≠ []) :
    ∃ stem suffix, stem ≠ [] ∧ chars = stem ++ '.' :: suffix ∧ suffixOf chars = '.' :: suffix := by
  have hsplit : (chars.reverse.takeWhile (· ≠ '.')) ++ (chars.reverse.dropWhile (· ≠ '.')) =
      chars.reverse := List.takeWhile_append_dropWhile
  have hdot := List.head?_dropWhile_not (· ≠ '.') chars.reverse
  rw [suffixOf] at h ⊢
  split at h
  · exact absurd rfl h
  · rename_i hsuffix
    rw [if_neg hsuffix]
    obtain ⟨_, hlong⟩ := not_or.mp hsuffix
    generalize chars.reverse.takeWhile (· ≠ '.') = last at *
    have hlength := congrArg List.length hsplit
    rw [List.length_append, List.length_reverse] at hlength
    rw [List.length_reverse] at hlong
    cases hfront : chars.reverse.dropWhile (· ≠ '.') with
    | nil =>
      rw [hfront, List.length_nil] at hlength
      omega
    | cons c front =>
      rw [hfront] at hsplit hdot hlength
      obtain rfl : c = '.' := by simpa using hdot
      refine ⟨front.reverse, last.reverse, ?_, ?_, rfl⟩
      · rintro hempty
        rw [List.reverse_eq_nil_iff.mp hempty, List.length_singleton] at hlength
        omega
      · rw [← chars.reverse_reverse, ← hsplit]
        simp

def width (p : Path) : Nat := ("/".intercalate p.names).utf8ByteSize

theorem width_child (h : p.names ≠ []) (name : String) :
    (p.child name).width = p.width + 1 + name.utf8ByteSize := by
  rw [width, child, String.intercalate_append_of_ne_nil h (List.cons_ne_nil name []),
    String.utf8ByteSize_append, String.utf8ByteSize_append, String.intercalate_singleton]
  rfl

theorem width_lt_child (p : Path) (hname : name ≠ "") : p.width < (p.child name).width := by
  have hsize : 0 < name.utf8ByteSize := Nat.pos_of_ne_zero fun h =>
    hname (String.utf8ByteSize_eq_zero_iff.mp h)
  by_cases hnames : p.names = []
  · simpa [width, child, hnames] using hsize
  · rw [width_child hnames]
    omega

theorem render_eq (h : p.anchor ≠ .relative ∨ p.names ≠ []) :
    p.render = p.anchor.text ++ "/".intercalate p.names := by
  obtain ⟨anchor, names⟩ := p
  cases anchor <;> cases names <;> first | rfl | simp at h

theorem width_le_render (p : Path) : p.width ≤ p.render.utf8ByteSize := by
  by_cases h : p.anchor ≠ .relative ∨ p.names ≠ []
  · rw [render_eq h, String.utf8ByteSize_append]
    exact Nat.le_add_left _ _
  · obtain ⟨_, hnames⟩ := not_or.mp h
    simp [width, Decidable.not_not.mp hnames]

theorem render_le_child (p : Path) (hname : name ≠ "") :
    p.render.utf8ByteSize ≤ (p.child name).render.utf8ByteSize := by
  have hwidth := p.width_lt_child hname
  have hnames : (p.child name).names ≠ [] := by simp [child]
  have hchild : (p.child name).render.utf8ByteSize =
      p.anchor.text.utf8ByteSize + (p.child name).width := by
    rw [render_eq (Or.inr hnames), String.utf8ByteSize_append]
    rfl
  rw [hchild]
  by_cases h : p.anchor ≠ .relative ∨ p.names ≠ []
  · rw [render_eq h, String.utf8ByteSize_append]
    exact Nat.add_le_add_left (Nat.le_of_lt hwidth) _
  · obtain ⟨hanchor, hnames⟩ := not_or.mp h
    have hdot : p = ⟨.relative, []⟩ := by
      rw [← Decidable.not_not.mp hanchor, ← Decidable.not_not.mp hnames]
    subst hdot
    exact Nat.le_add_left_of_le (Nat.lt_of_le_of_lt (Nat.zero_le _) hwidth)

end Path

namespace Disk

variable {d : Disk} {p : Path} {l : Location} {name : String} {e : Entry}

def EmptyFree (d : Disk) : Prop := ∀ entry ∈ d.entries, "" ∉ entry.1

instance (d : Disk) : Decidable d.EmptyFree := by unfold EmptyFree; infer_instance

theorem EmptyFree.named (h : d.EmptyFree) (hentry : d.entry? (name :: l) = some e) : name ≠ "" := by
  obtain ⟨front, back, hentries, _⟩ := List.lookup_eq_some_iff.mp hentry
  rintro rfl
  exact h (_, e) (hentries ▸ List.mem_append_right front List.mem_cons_self) List.mem_cons_self

theorem isFile_directory (h : d.stat p = .ok (l, .directory)) : d.isFile p = .ok false := by
  rw [isFile, h]
  rfl

end Disk

namespace Discovery

open Disk

variable {d : Disk} {excludes : List String} {source dir sub p : Path} {l s : Location}
variable {name : String} {levels : Nat}

/-- A name with the suffix of an image or a PDB in any letter case, and something in front. -/
def IsInputName (name : String) : Prop :=
  ∃ stem suffix, stem ≠ [] ∧ name.toList = stem ++ '.' :: suffix ∧
    suffix.map Char.toLower ∈ ["dll".toList, "exe".toList, "pdb".toList]

theorem hasCandidateSuffix_iff : hasCandidateSuffix p = true ↔ IsInputName p.name := by
  have hlower : hasCandidateSuffix p = true ↔ (Path.suffixOf p.name.toList).map Char.toLower ∈
      [".dll".toList, ".exe".toList, ".pdb".toList] := by
    simp [hasCandidateSuffix, imageSuffixes, pdbSuffixes, lowerSuffix, Path.suffix,
      ← String.toList_inj]
  have hcons : ∀ suffix : List Char,
      ('.' :: suffix).map Char.toLower ∈ [".dll".toList, ".exe".toList, ".pdb".toList] ↔
        suffix.map Char.toLower ∈ ["dll".toList, "exe".toList, "pdb".toList] := by
    simp
  rw [hlower]
  constructor
  · intro hmem
    have hsuffix : Path.suffixOf p.name.toList ≠ [] := by
      intro hempty
      rw [hempty] at hmem
      exact absurd hmem (by decide)
    obtain ⟨stem, suffix, hstem, hname, hsuffix⟩ := Path.stem_of_suffixOf hsuffix
    rw [hsuffix, hcons] at hmem
    exact ⟨stem, suffix, hstem, hname, hmem⟩
  · rintro ⟨stem, suffix, hstem, hname, hmem⟩
    have hempty : suffix ≠ [] := by
      rintro rfl
      exact absurd hmem (by decide)
    have hdot : '.' ∉ suffix := by
      intro hdot
      have hlower : '.' ∈ suffix.map Char.toLower := List.mem_map.mpr ⟨'.', hdot, by decide⟩
      have hnone : ∀ chars ∈ ["dll".toList, "exe".toList, "pdb".toList], '.' ∉ chars := by decide
      exact hnone _ hmem hlower
    rw [hname, Path.suffixOf_append hstem hempty hdot, hcons]
    exact hmem

theorem isCandidate_child : isCandidate excludes (dir.child name) = true ↔
    IsInputName name ∧ ∀ piece ∈ excludes, ¬ piece.toList <:+: (dir.child name).render.toList := by
  rw [isCandidate, Bool.and_eq_true, hasCandidateSuffix_iff, Path.name_child, Bool.not_eq_true',
    List.any_eq_false]
  simp only [occursIn_iff]

/-- From the directory at a path and location another one is reached by entering real
subdirectories only. -/
inductive Reaches (d : Disk) : Path → Location → Path → Location → Prop
  | here {dir : Path} {l : Location} : Reaches d dir l dir l
  | enter {dir sub : Path} {l s : Location} {name : String}
      (hentry : d.entry? (name :: l) = some .directory)
      (h : Reaches d (dir.child name) (name :: l) sub s) : Reaches d dir l sub s

theorem Reaches.render_le (h : Reaches d dir l sub s) (hd : d.EmptyFree) (source : Path) :
    (lookedUp source dir).render.utf8ByteSize ≤ (lookedUp source sub).render.utf8ByteSize := by
  induction h with
  | here => exact Nat.le_refl _
  | enter hentry _ ih =>
    rw [lookedUp_child] at ih
    exact Nat.le_trans (Path.render_le_child _ (hd.named hentry)) ih

/-- A directory, or a link whose path leads to one. -/
inductive IsDirectoryAt (d : Disk) (p : Path) : Entry → Prop
  | directory : IsDirectoryAt d p .directory
  | link {target : String} {l : Location} (h : d.stat p = .ok (l, .directory)) :
      IsDirectoryAt d p (.link target)

theorem leadsToDirectory_iff {e : Entry} :
    leadsToDirectory d dir (name, e) = true ↔ IsDirectoryAt d (dir.child name) e := by
  cases e with
  | directory => exact iff_of_true rfl .directory
  | link target =>
    refine isDirectory_getD_iff.trans ⟨fun ⟨l, h⟩ => .link h, fun h => ?_⟩
    cases h with
    | link h => exact ⟨_, h⟩
  | _ =>
    refine iff_of_false Bool.false_ne_true fun h => ?_
    cases h

/-- An entry of a directory that a search of `source` finds there. -/
structure IsInput (d : Disk) (excludes : List String) (source dir : Path) (l : Location)
    (name : String) : Prop where
  named : IsInputName name
  kept : ∀ piece ∈ excludes, ¬ piece.toList <:+: (dir.child name).render.toList
  file : ∃ e, d.entry? (name :: l) = some e ∧
    ¬ IsDirectoryAt d (lookedUp source (dir.child name)) e

theorem isFileName_iff : IsFileName d source dir l name ↔
    ∃ e, d.entry? (name :: l) = some e ∧
      ¬ IsDirectoryAt d (lookedUp source (dir.child name)) e := by
  unfold IsFileName
  simp only [lookedUp_child, ← leadsToDirectory_iff, Bool.not_eq_true]

theorem mem_candidates_listed (hd : d.IsTree) :
    p ∈ candidates excludes dir (listed d source dir l).files ↔
      ∃ name, IsInput d excludes source dir l name ∧ p = dir.child name := by
  rw [mem_candidates]
  constructor
  · rintro ⟨name, hfile, hcandidate, rfl⟩
    obtain ⟨hnamed, hkept⟩ := isCandidate_child.mp hcandidate
    exact ⟨name, ⟨hnamed, hkept, isFileName_iff.mp ((mem_listed_files hd).mp hfile)⟩, rfl⟩
  · rintro ⟨name, hinput, rfl⟩
    exact ⟨name, (mem_listed_files hd).mpr (isFileName_iff.mpr hinput.file),
      isCandidate_child.mpr ⟨hinput.named, hinput.kept⟩, rfl⟩

/-- What is found below a directory are the inputs of the directories that can be reached, those
whose path the file system does not look at left out. There are levels enough for all of them, as
paths get longer from level to level. -/
theorem mem_search_iff (hd : d.IsTree) (hzero : d.ZeroFree) (hempty : d.EmptyFree)
    (hdir : ∀ name ∈ dir.names, ¬ HasZero name)
    (hlevels : pathMax ≤ levels + (lookedUp source dir).width)
    (hstat : Admits (lookedUp source dir) → d.stat (lookedUp source dir) = .ok (l, .directory)) :
    p ∈ (search d excludes source levels dir).items ↔
      ∃ sub s name, Reaches d dir l sub s ∧ (lookedUp source sub).render.utf8ByteSize < pathMax ∧
        IsInput d excludes source sub s name ∧ p = sub.child name := by
  induction levels generalizing dir l with
  | zero =>
    apply iff_of_false List.not_mem_nil
    rintro ⟨sub, s, name, hreaches, hfits, _⟩
    have hlong := (lookedUp source dir).width_le_render
    have hgrows := hreaches.render_le hempty source
    omega
  | succ levels ih =>
    have hnever : (search d excludes source (levels + 1) dir).fault = none :=
      search_never_fails hzero hdir
    by_cases hadmits : Admits (lookedUp source dir)
    · have hsub : ∀ {name}, d.entry? (name :: l) = some .directory →
          (p ∈ (search d excludes source levels (dir.child name)).items ↔
            ∃ sub s other, Reaches d (dir.child name) (name :: l) sub s ∧
              (lookedUp source sub).render.utf8ByteSize < pathMax ∧
              IsInput d excludes source sub s other ∧ p = sub.child other) := by
        intro name hentry
        have hwider := (lookedUp source dir).width_lt_child (hempty.named hentry)
        apply ih (hzero.not_hasZero_child hdir ((mem_children_iff hd).mpr hentry))
        · rw [lookedUp_child]
          omega
        · rw [lookedUp_child]
          exact stat_child (hstat hadmits) (hd.named (by rw [hentry]; exact Option.some_ne_none _))
            hentry (by simp [Entry.IsLink])
      rw [search_of_stat (hstat hadmits)] at hnever ⊢
      rw [mem_searchBelow hnever, mem_candidates_listed hd]
      constructor
      · rintro (⟨name, hinput, rfl⟩ | ⟨name, hname, hp⟩)
        · exact ⟨dir, l, name, .here, hadmits.fits, hinput, rfl⟩
        · have hentry := (mem_listed_directories hd).mp hname
          obtain ⟨sub, s, other, hreaches, hinput⟩ := (hsub hentry).mp hp
          exact ⟨sub, s, other, .enter hentry hreaches, hinput⟩
      · rintro ⟨sub, s, name, hreaches, hfits, hinput, hp⟩
        cases hreaches with
        | here => exact Or.inl ⟨name, hinput, hp⟩
        | enter hentry hreaches =>
          exact Or.inr ⟨_, (mem_listed_directories hd).mpr hentry,
            (hsub hentry).mpr ⟨sub, s, name, hreaches, hfits, hinput, hp⟩⟩
    · rw [search_of_not_admits hadmits d hnever]
      apply iff_of_false List.not_mem_nil
      rintro ⟨sub, s, name, hreaches, hfits, _⟩
      apply hadmits
      refine ⟨Bool.eq_false_iff.mpr fun hany => ?_,
        Nat.lt_of_le_of_lt (hreaches.render_le hempty source) hfits⟩
      obtain ⟨other, hother, hhas⟩ := List.any_eq_true.mp hany
      exact not_hasZero_lookedUp hdir other hother hhas

/-- The order of what lies below a directory, given by the names that lead there: its own entries
come first, by name, and then its subdirectories, by name and each as a whole. -/
inductive Precedes : List String → List String → Prop
  | entries {a b : String} (h : a < b) : Precedes [a] [b]
  | entry_first (a b c : String) (rest : List String) : Precedes [a] (b :: c :: rest)
  | subdirectories {a b : String} (x y : String) (xs ys : List String) (h : a < b) :
      Precedes (a :: x :: xs) (b :: y :: ys)
  | inside {names others : List String} (a : String) (h : Precedes names others) :
      Precedes (a :: names) (a :: others)

theorem Precedes.ne {names others : List String} (h : Precedes names others) : names ≠ others := by
  induction h with
  | entries h =>
    rintro ⟨⟩
    exact String.lt_irrefl _ h
  | entry_first => simp
  | subdirectories x y xs ys h =>
    rintro ⟨⟩
    exact String.lt_irrefl _ h
  | inside a _ ih => exact fun heq => ih (List.cons.inj heq).2

def Before (dir p q : Path) : Prop :=
  ∃ names others, p = ⟨dir.anchor, dir.names ++ names⟩ ∧ q = ⟨dir.anchor, dir.names ++ others⟩ ∧
    Precedes names others

theorem Before.ne {q : Path} (h : Before dir p q) : p ≠ q := by
  obtain ⟨names, others, rfl, rfl, h⟩ := h
  exact fun heq => h.ne (List.append_cancel_left (congrArg Path.names heq))

theorem Before.of_child {q : Path} (h : Before (dir.child name) p q) : Before dir p q := by
  obtain ⟨names, others, rfl, rfl, h⟩ := h
  exact ⟨name :: names, name :: others, by simp [Path.child], by simp [Path.child], .inside name h⟩

theorem pairwise_lt {names : List String} (h : names.Pairwise (· ≤ ·)) (hnodup : names.Nodup) :
    names.Pairwise (· < ·) :=
  (h.and hnodup).imp fun ⟨hle, hne⟩ =>
    Decidable.not_not.mp fun hnot => hne (String.le_antisymm hle hnot)

theorem candidates_before {names : List String} (h : names.Pairwise (· < ·)) :
    (candidates excludes dir names).Pairwise (Before dir) := by
  refine List.pairwise_map.mpr ((h.filter _).imp ?_)
  intro a b hlt
  exact ⟨[a], [b], rfl, rfl, .entries hlt⟩

theorem search_before (hd : d.IsTree) (levels : Nat) (dir : Path) :
    (search d excludes source levels dir).items.Pairwise (Before dir) := by
  induction levels generalizing dir with
  | zero => exact .nil
  | succ levels ih =>
    rw [search]
    cases hlist : d.list (lookedUp source dir) with
    | error err => cases err <;> exact .nil
    | ok entries =>
      obtain ⟨l, _, rfl⟩ := stat_of_list hlist
      obtain ⟨hfiles, hfiles', hdirectories, hdirectories'⟩ := listed_ordered hd source dir l
      refine List.pairwise_append.mpr ⟨candidates_before (pairwise_lt hfiles hfiles'), ?_, ?_⟩
      · apply Sequence.pairwise_concatMap
        · intro name _
          exact (ih (dir.child name)).imp Before.of_child
        · refine (pairwise_lt hdirectories hdirectories').imp fun {a b} hlt p hp q hq => ?_
          obtain ⟨x, xs, rfl⟩ := isBelow_of_mem_search hp
          obtain ⟨y, ys, rfl⟩ := isBelow_of_mem_search hq
          exact ⟨a :: x :: xs, b :: y :: ys, by simp [Path.child], by simp [Path.child],
            .subdirectories x y xs ys hlt⟩
      · intro p hp q hq
        obtain ⟨a, _, _, rfl⟩ := mem_candidates.mp hp
        obtain ⟨b, _, hq⟩ := Sequence.mem_concatMap hq
        obtain ⟨y, ys, rfl⟩ := isBelow_of_mem_search hq
        exact ⟨[a], b :: y :: ys, rfl, by simp [Path.child], .entry_first a b y ys⟩

theorem inputs_recursive (h : d.stat dir = .ok (l, .directory)) (excludes : List String) :
    inputs d ⟨dir, true, excludes⟩ = search d excludes dir pathMax dir := by
  rw [inputs_eq, isFile_directory h]
  exact if_pos rfl

theorem mem_inputs_iff (hd : d.IsTree) (hzero : d.ZeroFree) (hempty : d.EmptyFree)
    (hdir : d.stat dir = .ok (l, .directory)) :
    p ∈ (inputs d ⟨dir, true, excludes⟩).items ↔
      ∃ sub s name, Reaches d dir l sub s ∧ (lookedUp dir sub).render.utf8ByteSize < pathMax ∧
        IsInput d excludes dir sub s name ∧ p = sub.child name := by
  rw [inputs_recursive hdir]
  exact mem_search_iff hd hzero hempty (admits_of_stat hdir).not_hasZero (Nat.le_add_right _ _)
    fun _ => stat_lookedUp_source.mpr hdir

/-- A search of a directory with all that is below it comes to its end and finds just the inputs in
the directories that are reached through real subdirectories and whose path, as it is looked up, is
not too long for the file system: each of them once, the entries of a directory by name before what
is further down, and its subdirectories by name, one after the other. -/
theorem tree_search_complete (hd : d.IsTree) (hzero : d.ZeroFree) (hempty : d.EmptyFree)
    (hdir : d.stat dir = .ok (l, .directory)) (excludes : List String) :
    (inputs d ⟨dir, true, excludes⟩).fault = none ∧
    (∀ p, p ∈ (inputs d ⟨dir, true, excludes⟩).items ↔
      ∃ sub s name, Reaches d dir l sub s ∧ (lookedUp dir sub).render.utf8ByteSize < pathMax ∧
        IsInput d excludes dir sub s name ∧ p = sub.child name) ∧
    (inputs d ⟨dir, true, excludes⟩).items.Pairwise (Before dir) ∧
    (inputs d ⟨dir, true, excludes⟩).items.Nodup := by
  have hbefore : (search d excludes dir pathMax dir).items.Pairwise (Before dir) :=
    search_before hd pathMax dir
  rw [← inputs_recursive hdir] at hbefore
  refine ⟨?_, fun p => mem_inputs_iff hd hzero hempty hdir, hbefore, hbefore.imp Before.ne⟩
  rw [inputs_recursive hdir]
  exact search_never_fails hzero (admits_of_stat hdir).not_hasZero

def linkedTree : Disk where
  workingDirectory := ⟨.root, ["w"]⟩
  entries := [(["w"], .directory), (["in", "w"], .directory), (["b.DLL", "in", "w"], .file []),
    (["a.pdb", "in", "w"], .link "nowhere"), (["loop.dll", "in", "w"], .link "."),
    (["sub", "in", "w"], .directory), (["up", "sub", "in", "w"], .link ".."),
    (["c.exe", "sub", "in", "w"], .device), (["obj", "sub", "in", "w"], .directory),
    (["d.pdb", "obj", "sub", "in", "w"], .file [])]

theorem linkedTree_source :
    linkedTree.stat ⟨.relative, ["in"]⟩ = .ok (["in", "w"], .directory) := by
  decide +kernel

theorem linkedTree_broken_link :
    IsInput linkedTree ["obj"] ⟨.relative, ["in"]⟩ ⟨.relative, ["in"]⟩ ["in", "w"] "a.pdb" := by
  refine ⟨⟨"a".toList, "pdb".toList, by decide, by decide, by decide⟩, by decide +kernel, ?_⟩
  exact isFileName_iff.mp ⟨_, rfl, by decide +kernel⟩

theorem linkedTree_searched :
    let found := inputs linkedTree ⟨⟨.relative, ["in"]⟩, true, ["obj"]⟩
    found.fault = none ∧
    ⟨.relative, ["in", "a.pdb"]⟩ ∈ found.items ∧ ⟨.relative, ["in", "sub", "c.exe"]⟩ ∈ found.items ∧
    ⟨.relative, ["in", "sub", "obj", "d.pdb"]⟩ ∉ found.items ∧
    found.items.Pairwise (Before ⟨.relative, ["in"]⟩) := by
  obtain ⟨hfault, hmem, hbefore, _⟩ := tree_search_complete (d := linkedTree) (by decide +kernel)
    (by decide +kernel) (by decide +kernel) linkedTree_source ["obj"]
  refine ⟨hfault, (hmem _).mpr ?_, (hmem _).mpr ?_, ?_, hbefore⟩
  · exact ⟨_, _, "a.pdb", .here, by decide +kernel, linkedTree_broken_link, rfl⟩
  · have hsub : linkedTree.entry? ["sub", "in", "w"] = some .directory := rfl
    refine ⟨_, _, "c.exe", .enter hsub .here, by decide +kernel, ⟨?_, by decide +kernel, ?_⟩, rfl⟩
    · exact ⟨"c".toList, "exe".toList, by decide, by decide, by decide⟩
    · exact isFileName_iff.mp ⟨_, rfl, by decide +kernel⟩
  · intro hfound
    obtain ⟨sub, s, name, _, _, hinput, hp⟩ := (hmem _).mp hfound
    apply hinput.kept "obj" List.mem_cons_self
    rw [← hp]
    decide +kernel

def libraryTree : Disk where
  workingDirectory := ⟨.root, ["w"]⟩
  entries := [(["w"], .directory), (["lib", "w"], .directory), (["debug", "lib", "w"], .directory),
    (["a.pdb", "debug", "lib", "w"], .file [])]

def winding (turns : Nat) : Path :=
  ⟨.relative, "lib" :: (List.replicate turns ["..", "lib"]).flatten⟩

theorem lookedUp_winding (turns : Nat) (p : Path) : lookedUp (winding turns) p = p :=
  if_neg (by simp [winding])

theorem winding_succ (turns : Nat) :
    winding (turns + 1) = ((winding turns).child "..").child "lib" := by
  rw [winding, List.replicate_succ', List.flatten_append]
  simp [winding, Path.child]

theorem winding_width (turns : Nat) : (winding turns).width = 3 + 7 * turns := by
  induction turns with
  | zero => decide +kernel
  | succ turns ih =>
    have hnames : ((winding turns).child "..").names ≠ [] := by simp [Path.child]
    rw [winding_succ, Path.width_child hnames, Path.width_child (List.cons_ne_nil _ _), ih]
    have hup : "..".utf8ByteSize = 2 := by decide
    have hlib : "lib".utf8ByteSize = 3 := by decide
    omega

theorem render_eq_width (h : p.anchor = .relative) (hnames : p.names ≠ []) :
    p.render.utf8ByteSize = p.width := by
  rw [Path.render_eq (Or.inr hnames), h, Anchor.text, String.empty_append]
  rfl

theorem winding_walks (turns : Nat) :
    libraryTree.Walks true ["w"] (winding turns).names (.arrived ["lib", "w"]) := by
  have hlib : IsEntryName "lib" := ⟨by decide, by decide, by decide⟩
  induction turns with
  | zero => exact .down rfl hlib rfl (by simp [Entry.IsLink]) .arrived
  | succ turns ih => exact .down rfl hlib rfl (by simp [Entry.IsLink]) (.up rfl ih)

theorem winding_stat {turns : Nat} (h : 3 + 7 * turns < pathMax) :
    libraryTree.stat (winding turns) = .ok (["lib", "w"], .directory) := by
  have hadmits : Admits (winding turns) := by
    refine ⟨?_, ?_⟩
    · simp [winding]
    · rwa [render_eq_width rfl (List.cons_ne_nil _ _), winding_width]
  exact stat_eq_ok_iff.mpr ⟨locate_eq_ok_iff.mpr ⟨hadmits, .taken (winding_walks turns)⟩, rfl⟩

/-- Where a path to a directory is just short enough, what is in its real subdirectory is not found.
-/
theorem longer_path_passed_over :
    libraryTree.IsTree ∧ libraryTree.ZeroFree ∧ libraryTree.EmptyFree ∧
    libraryTree.stat (winding 584) = .ok (["lib", "w"], .directory) ∧
    Reaches libraryTree (winding 584) ["lib", "w"] ((winding 584).child "debug")
      ["debug", "lib", "w"] ∧
    IsInput libraryTree [] (winding 584) ((winding 584).child "debug") ["debug", "lib", "w"]
      "a.pdb" ∧
    ((winding 584).child "debug").child "a.pdb" ∉
      (inputs libraryTree ⟨winding 584, true, []⟩).items := by
  have htree : libraryTree.IsTree := by decide +kernel
  have hzero : libraryTree.ZeroFree := by decide +kernel
  have hempty : libraryTree.EmptyFree := by decide +kernel
  have hstat : libraryTree.stat (winding 584) = .ok (["lib", "w"], .directory) :=
    winding_stat (by decide)
  refine ⟨htree, hzero, hempty, hstat, .enter rfl .here, ⟨?_, by simp, ?_⟩, fun hfound => ?_⟩
  · exact ⟨"a".toList, "pdb".toList, by decide, by decide, by decide⟩
  · exact ⟨_, rfl, fun h => by cases h⟩
  · obtain ⟨sub, s, name, _, hfits, _, hp⟩ := (mem_inputs_iff htree hzero hempty hstat).mp hfound
    have hsub := congrArg Path.parent hp
    rw [Path.parent_child, Path.parent_child] at hsub
    have hlong : ((winding 584).child "debug").render.utf8ByteSize = 4097 := by
      rw [render_eq_width rfl (List.cons_ne_nil _ _), Path.width_child (List.cons_ne_nil _ _),
        winding_width]
      decide
    rw [← hsub, lookedUp_winding, hlong] at hfits
    exact absurd hfits (by decide)

end Discovery
end SourceRecovery
