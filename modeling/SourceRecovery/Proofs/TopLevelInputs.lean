import SourceRecovery.Proofs.FoundInputs

/-! The inputs of one directory, found by listing it alone and by searching all that is below it.
The list asks of every name whether it leads to a file and ends where that cannot be told; the
search only leaves out directories. So what the list gives are those the search finds there that
are files. -/
namespace SourceRecovery

namespace Discovery

open Disk

variable {d : Disk} {excludes : List String} {dir p : Path} {l : Location} {name : String}
variable {names : List String} {levels : Nat}

theorem parent_of_isBelow_child (h : p.IsBelow (dir.child name)) : p.parent ≠ dir := by
  obtain ⟨first, rest, rfl⟩ := h
  intro heq
  have hlength := congrArg (List.length ∘ Path.names) heq
  simp [Path.parent, Path.child] at hlength

theorem filter_parent_candidates (excludes : List String) (dir : Path) (names : List String) :
    (candidates excludes dir names).filter (fun p => p.parent = dir) =
      candidates excludes dir names := by
  refine List.filter_eq_self.mpr fun p hp => ?_
  obtain ⟨name, _, _, rfl⟩ := mem_candidates.mp hp
  exact decide_eq_true (Path.parent_child dir name)

theorem search_filter_parent (hdir : d.stat dir = .ok (l, .directory)) (levels : Nat) :
    (search d excludes dir (levels + 1) dir).items.filter (fun p => p.parent = dir) =
      candidates excludes dir (listed d dir dir l).files := by
  have hbelow : (Sequence.concatMap (fun name => search d excludes dir levels (dir.child name))
      (listed d dir dir l).directories).items.filter (fun p => p.parent = dir) = [] := by
    refine List.filter_eq_nil_iff.mpr fun p hp => ?_
    obtain ⟨name, _, hp⟩ := Sequence.mem_concatMap hp
    simpa using parent_of_isBelow_child (isBelow_of_mem_search hp)
  rw [search_of_stat (stat_lookedUp_source.mpr hdir), searchAt, searchBelow, Sequence.after,
    List.filter_append, hbelow, filter_parent_candidates, List.append_nil]

def fileCandidates (d : Disk) (excludes : List String) (dir : Path) (names : List String) :
    List Path :=
  (candidates excludes dir names).filter fun p => d.isFile p = .ok true

theorem fileCandidates_cons {isFile : Bool} (hfile : d.isFile (dir.child name) = .ok isFile)
    (rest : List String) :
    fileCandidates d excludes dir (name :: rest) =
      (fileCandidate d excludes (dir.child name)).items ++
        fileCandidates d excludes dir rest := by
  rw [fileCandidates, candidates_cons, fileCandidate, hfile]
  cases isFile <;> cases isCandidate excludes (dir.child name) <;>
    simp [fileCandidates, Sequence.ofList, hfile]

/-- A list that goes on until something cannot be examined is a front of what it would be. -/
theorem fileCandidate_front (d : Disk) (excludes : List String) (dir : Path) (names : List String) :
    (Sequence.concatMap (fun name => fileCandidate d excludes (dir.child name)) names).items <+:
        fileCandidates d excludes dir names ∧
      ((Sequence.concatMap (fun name => fileCandidate d excludes (dir.child name)) names).fault =
          none →
        (Sequence.concatMap (fun name => fileCandidate d excludes (dir.child name)) names).items =
          fileCandidates d excludes dir names) := by
  induction names with
  | nil => exact ⟨List.prefix_refl [], fun _ => rfl⟩
  | cons name rest ih =>
    cases hfile : d.isFile (dir.child name) with
    | error err =>
      have hone : fileCandidate d excludes (dir.child name) = .failed (.disk err) := by
        rw [fileCandidate, hfile]
      rw [Sequence.concatMap, hone]
      exact ⟨List.nil_prefix, fun h => by cases h⟩
    | ok isFile =>
      have hfault : (fileCandidate d excludes (dir.child name)).fault = none := by
        rw [fileCandidate, hfile]
        rfl
      rw [fileCandidates_cons hfile, Sequence.concatMap, Sequence.append, hfault]
      exact ⟨(List.prefix_append_right_inj _).mpr ih.1,
        fun h => congrArg (_ ++ ·) (ih.2 h)⟩

theorem isFileName_of_isFile (hdir : d.stat dir = .ok (l, .directory)) (hd : d.IsTree) {e : Entry}
    (hentry : d.entry? (name :: l) = some e) (hfile : d.isFile (dir.child name) = .ok true) :
    IsFileName d dir dir l name := by
  obtain ⟨location, content, hstat⟩ := isFile_eq_true_iff.mp hfile
  refine isFileName_iff.mpr ⟨e, hentry, fun hdirectory => ?_⟩
  cases hdirectory with
  | directory =>
    have hname := hd.named (by rw [hentry]; exact Option.some_ne_none _)
    cases hstat.symm.trans
      (stat_child hdir hname hentry (by simp [Entry.IsLink]) (admits_of_stat hstat))
  | link hdirectory =>
    cases hstat.symm.trans ((stat_lookedUp hdir (admits_of_stat hstat)
      (admits_of_stat hdirectory) rfl).mp hdirectory)

theorem fileCandidates_eq (d : Disk) (excludes : List String) (dir : Path) (names : List String) :
    fileCandidates d excludes dir names =
      (names.filter fun name => decide (d.isFile (dir.child name) = .ok true) &&
        isCandidate excludes (dir.child name)).map dir.child := by
  rw [fileCandidates, candidates, List.filter_map, List.filter_filter]
  rfl

theorem fileCandidates_listed (hdir : d.stat dir = .ok (l, .directory)) (hd : d.IsTree) :
    fileCandidates d excludes dir (sortNames ((d.children l).map Prod.fst)) =
      fileCandidates d excludes dir (listed d dir dir l).files := by
  obtain ⟨hordered, hnodup, _⟩ := listed_ordered hd dir dir l
  have hordered' := sortNames_pairwise ((d.children l).map Prod.fst)
  have hnodup' := sortNames_nodup (children_nodup hd l)
  rw [fileCandidates_eq, fileCandidates_eq]
  apply congrArg (List.map dir.child)
  apply eq_of_ordered (hordered'.filter _) (hordered.filter _) (hnodup'.filter _) (hnodup.filter _)
  intro name
  rw [List.mem_filter, List.mem_filter, mem_sortNames, mem_listed_files hd]
  apply and_congr_left
  intro hkept
  have hfile := of_decide_eq_true (Bool.and_eq_true_iff.mp hkept).1
  constructor
  · intro hname
    obtain ⟨⟨_, e⟩, hmem, rfl⟩ := List.mem_map.mp hname
    exact isFileName_of_isFile hdir hd ((mem_children_iff hd).mp hmem) hfile
  · rintro ⟨e, hentry, _⟩
    exact List.mem_map.mpr ⟨(name, e), (mem_children_iff hd).mpr hentry, rfl⟩

/-- Of every name in a directory it can be told whether its path leads to a file. -/
def Examinable (d : Disk) (dir : Path) (l : Location) : Prop :=
  ∀ name, d.entry? (name :: l) ≠ none → ∃ isFile, d.isFile (dir.child name) = .ok isFile

theorem inputs_flat (hdir : d.stat dir = .ok (l, .directory)) (excludes : List String) :
    inputs d ⟨dir, false, excludes⟩ =
      .concatMap (fun name => fileCandidate d excludes (dir.child name))
        (sortNames ((d.children l).map Prod.fst)) := by
  rw [inputs_eq, isFile_directory hdir]
  dsimp only
  rw [if_neg Bool.false_ne_true, searchFlat, list_of_stat hdir]

theorem fileCandidate_fault : (fileCandidate d excludes p).fault = none ↔
    ∃ isFile, d.isFile p = .ok isFile := by
  rw [fileCandidate]
  cases hfile : d.isFile p with
  | error err => simp [Sequence.failed]
  | ok isFile => simp [Sequence.ofList]

theorem inputs_flat_fault (hdir : d.stat dir = .ok (l, .directory)) (hd : d.IsTree) :
    (inputs d ⟨dir, false, excludes⟩).fault = none ↔ Examinable d dir l := by
  rw [inputs_flat hdir, Sequence.concatMap_fault_eq_none]
  simp only [fileCandidate_fault, mem_sortNames]
  constructor
  · intro h name hthere
    obtain ⟨e, hentry⟩ := Option.ne_none_iff_exists'.mp hthere
    exact h name (List.mem_map.mpr ⟨(name, e), (mem_children_iff hd).mpr hentry, rfl⟩)
  · intro h name hname
    obtain ⟨⟨_, e⟩, hmem, rfl⟩ := List.mem_map.mp hname
    apply h
    rw [(mem_children_iff hd).mp hmem]
    exact Option.some_ne_none e

theorem inputs_top (hdir : d.stat dir = .ok (l, .directory)) (excludes : List String) :
    (inputs d ⟨dir, true, excludes⟩).items.filter (fun p => p.parent = dir) =
      candidates excludes dir (listed d dir dir l).files := by
  rw [inputs_recursive hdir]
  exact search_filter_parent hdir 4095

theorem inputs_flat_faulty {fault : Fault} (hdir : d.stat dir = .ok (l, .directory)) (hd : d.IsTree)
    (h : (inputs d ⟨dir, false, excludes⟩).fault = some fault) :
    ∃ name, d.entry? (name :: l) ≠ none ∧
      fault = .disk (.refused .nameTooLong (dir.child name)) := by
  rw [inputs_flat hdir] at h
  obtain ⟨name, hname, h⟩ := Sequence.fault_of_concatMap h
  obtain ⟨⟨_, e⟩, hmem, rfl⟩ := List.mem_map.mp (mem_sortNames.mp hname)
  refine ⟨_, by rw [(mem_children_iff hd).mp hmem]; exact Option.some_ne_none e, ?_⟩
  rw [fileCandidate] at h
  split at h
  · rename_i err hfile
    obtain ⟨rfl, _⟩ := isFile_error hfile
    exact (Option.some.inj h).symm
  · cases h

/-- Listing a directory alone finds, in the same order, what a search finds in the directory itself
and is a file; where it cannot be told of a name whether it leads to a file, the list ends. So both
agree exactly if that can be told of every name and the search finds nothing but files there. -/
theorem flat_list_agrees_on_files (hd : d.IsTree) (hzero : d.ZeroFree)
    (hdir : d.stat dir = .ok (l, .directory)) (excludes : List String) :
    let whole := inputs d ⟨dir, true, excludes⟩
    let flat := inputs d ⟨dir, false, excludes⟩
    let top := whole.items.filter fun p => p.parent = dir
    whole.fault = none ∧
    flat.items <+: top.filter (fun p => d.isFile p = .ok true) ∧
    (flat.fault = none ↔ Examinable d dir l) ∧
    (∀ fault, flat.fault = some fault → ∃ name, d.entry? (name :: l) ≠ none ∧
      fault = .disk (.refused .nameTooLong (dir.child name))) ∧
    (flat.fault = none → flat.items = top.filter fun p => d.isFile p = .ok true) ∧
    (flat = .ofList top ↔ Examinable d dir l ∧ ∀ p ∈ top, d.isFile p = .ok true) := by
  intro whole flat top
  have hfront := fileCandidate_front d excludes dir (sortNames ((d.children l).map Prod.fst))
  rw [← inputs_flat hdir, fileCandidates_listed hdir hd, fileCandidates,
    ← inputs_top hdir] at hfront
  have hexaminable : flat.fault = none ↔ Examinable d dir l := inputs_flat_fault hdir hd
  refine ⟨?_, hfront.1, hexaminable, fun _ => inputs_flat_faulty hdir hd, hfront.2, ?_⟩
  · have hwhole : whole.fault = (search d excludes dir pathMax dir).fault :=
      congrArg Sequence.fault (inputs_recursive hdir excludes)
    rw [hwhole, search_never_fails hzero (admits_of_stat hdir).not_hasZero]
  · constructor
    · intro hagree
      have hfault : flat.fault = none := congrArg Sequence.fault hagree
      have hitems : top.filter (fun p => d.isFile p = .ok true) = top :=
        (hfront.2 hfault).symm.trans (congrArg Sequence.items hagree)
      exact ⟨hexaminable.mp hfault, fun p hp =>
        of_decide_eq_true (List.filter_eq_self.mp hitems p hp)⟩
    · rintro ⟨hall, hfiles⟩
      have hfault := hexaminable.mpr hall
      have hitems : flat.items = top := (hfront.2 hfault).trans
        (List.filter_eq_self.mpr fun p hp => decide_eq_true (hfiles p hp))
      exact congr (congrArg Sequence.mk hitems) hfault

/-- A broken link is found by the search, but the list passes it over. -/
theorem linkedTree_listed_apart :
    let source : Path := ⟨.relative, ["in"]⟩
    let flat := inputs linkedTree ⟨source, false, ["obj"]⟩
    let top := (inputs linkedTree ⟨source, true, ["obj"]⟩).items.filter fun p => p.parent = source
    flat.fault = none ∧ (flat.items = top.filter fun p => linkedTree.isFile p = .ok true) ∧
    source.child "a.pdb" ∈ top ∧ flat ≠ .ofList top := by
  intro source flat top
  have htree : linkedTree.IsTree := by decide +kernel
  have hzero : linkedTree.ZeroFree := by decide +kernel
  have htop : source.child "a.pdb" ∈ top := by
    refine List.mem_filter.mpr ⟨?_, decide_eq_true (Path.parent_child source "a.pdb")⟩
    exact (mem_inputs_iff htree hzero (by decide +kernel) linkedTree_source).mpr
      ⟨_, _, "a.pdb", .here, by decide +kernel, linkedTree_broken_link, rfl⟩
  have hbroken : linkedTree.isFile (source.child "a.pdb") = .ok false := by decide +kernel
  have hexaminable : Examinable linkedTree source ["in", "w"] := by
    intro name hthere
    obtain ⟨e, hentry⟩ := Option.ne_none_iff_exists'.mp hthere
    have hall : ∀ entry ∈ linkedTree.children ["in", "w"],
        linkedTree.isFile (source.child entry.1) = .ok true ∨
          linkedTree.isFile (source.child entry.1) = .ok false := by
      decide +kernel
    rcases hall (name, e) ((mem_children_iff htree).mpr hentry) with h | h
    · exact ⟨true, h⟩
    · exact ⟨false, h⟩
  obtain ⟨_, _, hfault, _, hitems, hagree⟩ :=
    flat_list_agrees_on_files htree hzero linkedTree_source ["obj"]
  refine ⟨hfault.mpr hexaminable, hitems (hfault.mpr hexaminable), htop, fun h => ?_⟩
  cases hbroken.symm.trans ((hagree.mp h).2 _ htop)

end Discovery
end SourceRecovery
