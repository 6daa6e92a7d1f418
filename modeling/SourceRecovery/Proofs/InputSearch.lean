import SourceRecovery.Discovery
import SourceRecovery.Proofs.FileTrees

/-! The input files of a disk that stays as it is, as a recursion over directories. Which of them
lie in which directory can be told from their paths, and the names in a directory are in one order
only, so what a directory contributes is known once its members are. -/
namespace SourceRecovery

namespace Sequence

variable {α β : Type} {step : α → Sequence β} {l : List α}

theorem mem_concatMap {b : β} (h : b ∈ (concatMap step l).items) : ∃ a ∈ l, b ∈ (step a).items := by
  induction l with
  | nil => exact absurd h List.not_mem_nil
  | cons a rest ih =>
    rw [concatMap, append] at h
    split at h
    · exact ⟨a, List.mem_cons_self, h⟩
    · rcases List.mem_append.mp h with h | h
      · exact ⟨a, List.mem_cons_self, h⟩
      · obtain ⟨other, hother, h⟩ := ih h
        exact ⟨other, List.mem_cons_of_mem a hother, h⟩

theorem mem_concatMap_iff {b : β} (h : (concatMap step l).fault = none) :
    b ∈ (concatMap step l).items ↔ ∃ a ∈ l, b ∈ (step a).items := by
  refine ⟨mem_concatMap, ?_⟩
  rintro ⟨a, ha, hb⟩
  rw [concatMap_items (concatMap_fault_eq_none.mp h)]
  exact List.mem_flatten.mpr ⟨_, List.mem_map_of_mem ha, hb⟩

theorem concatMap_filter {keep : α → Bool} (h : ∀ a ∈ l, keep a = false → step a = ofList []) :
    concatMap step (l.filter keep) = concatMap step l := by
  induction l with
  | nil => rfl
  | cons a rest ih =>
    obtain ⟨hfirst, hrest⟩ := List.forall_mem_cons.mp h
    cases hkeep : keep a with
    | true => rw [List.filter_cons_of_pos hkeep, concatMap, concatMap, ih hrest]
    | false =>
      rw [List.filter_cons_of_neg (Bool.eq_false_iff.mp hkeep), concatMap, hfirst hkeep, ih hrest]
      rfl

end Sequence

namespace Path

def IsBelow (p dir : Path) : Prop := ∃ name rest, p = ⟨dir.anchor, dir.names ++ name :: rest⟩

variable {p dir : Path} {name other : String}

theorem isBelow_child (dir : Path) (name : String) : (dir.child name).IsBelow dir :=
  ⟨name, [], rfl⟩

theorem IsBelow.of_child (h : p.IsBelow (dir.child name)) : p.IsBelow dir := by
  obtain ⟨first, rest, rfl⟩ := h
  exact ⟨name, first :: rest, by rw [child, List.append_assoc]; rfl⟩

theorem child_injective (h : dir.child name = dir.child other) : name = other := by
  have hnames := List.append_cancel_left (congrArg Path.names h)
  cases hnames
  rfl

theorem not_isBelow_child : ¬ (dir.child other).IsBelow (dir.child name) := by
  rintro ⟨first, rest, h⟩
  have hlength := congrArg (List.length ∘ Path.names) h
  simp [child] at hlength

theorem IsBelow.child_unique (h : p.IsBelow (dir.child name)) (h' : p.IsBelow (dir.child other)) :
    name = other := by
  obtain ⟨first, rest, rfl⟩ := h
  obtain ⟨first', rest', h'⟩ := h'
  have hnames := congrArg Path.names h'
  simp only [child, List.append_assoc, List.singleton_append] at hnames
  cases List.append_cancel_left hnames
  rfl

theorem IsBelow.leadsTo (h : p.IsBelow dir) : dir.LeadsTo p := by
  obtain ⟨name, rest, rfl⟩ := h
  exact ⟨rfl, List.prefix_append _ _⟩

end Path

namespace Disk

variable {d : Disk} {p : Path} {l : Location} {entries : List (String × Entry)}

theorem list_of_stat (h : d.stat p = .ok (l, .directory)) : d.list p = .ok (d.children l) := by
  rw [list, h]
  rfl

theorem stat_of_list (h : d.list p = .ok entries) :
    ∃ l, d.stat p = .ok (l, .directory) ∧ entries = d.children l := by
  obtain ⟨⟨l, e⟩, hstat, h⟩ := bind_eq_ok.mp h
  split at h
  · rename_i location heq
    cases heq
    cases h
    exact ⟨_, hstat, rfl⟩
  · cases h

theorem list_of_not_admits (h : ¬ Admits p) :
    ∃ err, (∀ d : Disk, d.list p = .error err) ∧
      (err = .zeroInPath ∨ err = .refused .nameTooLong p) := by
  obtain ⟨err, hlocate, hkind⟩ := locate_of_not_admits h
  refine ⟨err, ?_, hkind⟩
  intro d
  rw [list, stat, hlocate]
  rfl

theorem zero_of_list (h : d.list p = .error .zeroInPath) :
    p.names.any (·.toList.contains '\x00') = true := by
  refine Classical.byContradiction fun hzero => ?_
  rcases bind_eq_error.mp h with hstat | ⟨found, _, h⟩
  · rcases bind_eq_error.mp hstat with hlocate | ⟨place, _, hstat⟩
    · rw [locate, if_neg hzero] at hlocate
      split at hlocate
      · cases hlocate
      · obtain ⟨cause, _, hcause⟩ := mapError_eq_error.mp hlocate
        cases hcause
    · split at hstat
      · cases hstat
      · split at hstat <;> cases hstat
  · split at h <;> cases h

theorem list_refused (h : p.names.any (·.toList.contains '\x00') = false) {err : Error}
    (herr : d.list p = .error err) : ∃ cause q, err = .refused cause q := by
  cases err with
  | refused cause q => exact ⟨cause, q, rfl⟩
  | zeroInPath => cases h.symm.trans (zero_of_list herr)

end Disk

namespace Discovery

open Disk

variable {σ α : Type} {d m d' : Disk} {excludes : List String} {source dir p : Path} {l : Location}
variable {name : String} {names names' : List String} {levels : Nat}

theorem mem_sortNames : name ∈ sortNames names ↔ name ∈ names := List.mem_mergeSort

theorem sortNames_pairwise (names : List String) : (sortNames names).Pairwise (· ≤ ·) := by
  have hpairwise : (sortNames names).Pairwise fun a b => decide (a ≤ b) = true :=
    List.pairwise_mergeSort
      (fun a b c hab hbc => by
        simpa using String.le_trans (of_decide_eq_true hab) (of_decide_eq_true hbc))
      (fun a b => by simpa using String.le_total a b) names
  exact hpairwise.imp of_decide_eq_true

theorem sortNames_nodup (h : names.Nodup) : (sortNames names).Nodup :=
  (List.mergeSort_perm names _).nodup_iff.mpr h

theorem eq_of_ordered (h : names.Pairwise (· ≤ ·)) (h' : names'.Pairwise (· ≤ ·))
    (hnodup : names.Nodup) (hnodup' : names'.Nodup) (hsame : ∀ name, name ∈ names ↔ name ∈ names') :
    names = names' := by
  apply List.Perm.eq_of_pairwise _ h h'
  · exact (List.perm_ext_iff_of_nodup hnodup hnodup').mpr hsame
  · intro a b _ _ hab hba
    exact String.le_antisymm hab hba

/-- A path is looked up below a directory as the directory is. -/
theorem lookedUp_child (source dir : Path) (name : String) :
    lookedUp source (dir.child name) = (lookedUp source dir).child name := by
  unfold lookedUp
  split
  · rfl
  · rfl

example : (lookedUp ⟨.relative, []⟩ ⟨.relative, ["a", "b"]⟩).render = "./a/b" := by decide

theorem not_hasZero_lookedUp (h : ∀ name ∈ p.names, ¬ HasZero name) :
    ∀ name ∈ (lookedUp source p).names, ¬ HasZero name := by
  unfold lookedUp
  split
  · exact List.forall_mem_cons.mpr ⟨by decide, h⟩
  · exact h

/-- Looked up either way a path leads to the same place, if the file system looks at both. -/
theorem stat_lookedUp {other : Location} {e : Entry} (hsource : d.stat source = .ok (l, .directory))
    (h : Admits p) (hlooked : Admits (lookedUp source p)) (hp : p.anchor = source.anchor) :
    d.stat (lookedUp source p) = .ok (other, e) ↔ d.stat p = .ok (other, e) := by
  unfold lookedUp at hlooked ⊢
  split at hlooked
  · rename_i hdot
    subst hdot
    obtain ⟨anchor, names⟩ := p
    obtain rfl : anchor = .relative := hp
    rw [if_pos rfl]
    exact stat_dot (entry?_start hsource) h hlooked
  · rename_i hdot
    rw [if_neg hdot]

theorem stat_lookedUp_source :
    d.stat (lookedUp source source) = .ok (l, .directory) ↔ d.stat source = .ok (l, .directory) := by
  unfold lookedUp
  split
  · rename_i hdot
    subst hdot
    have hadmits : Admits ⟨.relative, []⟩ ∧ Admits ⟨.relative, ["."]⟩ := by
      refine ⟨⟨?_, ?_⟩, ⟨?_, ?_⟩⟩ <;> decide
    constructor
    · intro h
      exact (stat_dot (entry?_start_dot h) hadmits.1 hadmits.2).mp h
    · intro h
      exact (stat_dot (entry?_start h) hadmits.1 hadmits.2).mpr h
  · exact Iff.rfl

def IsFileName (d : Disk) (source dir : Path) (l : Location) (name : String) : Prop :=
  ∃ e, d.entry? (name :: l) = some e ∧ leadsToDirectory d (lookedUp source dir) (name, e) = false

def listed (d : Disk) (source dir : Path) (l : Location) : Listing :=
  listing d (lookedUp source dir) (d.children l)

theorem mem_listed_files (hd : d.IsTree) :
    name ∈ (listed d source dir l).files ↔ IsFileName d source dir l name := by
  rw [listed, listing, mem_sortNames, List.mem_map]
  constructor
  · rintro ⟨⟨other, e⟩, hmem, rfl⟩
    obtain ⟨hmem, hleads⟩ := List.mem_filter.mp hmem
    exact ⟨e, (mem_children_iff hd).mp hmem, (Bool.not_eq_true' _).mp hleads⟩
  · rintro ⟨e, hentry, hleads⟩
    refine ⟨(name, e), List.mem_filter.mpr ⟨(mem_children_iff hd).mpr hentry, ?_⟩, rfl⟩
    exact (Bool.not_eq_true' _).mpr hleads

theorem mem_listed_directories (hd : d.IsTree) :
    name ∈ (listed d source dir l).directories ↔ d.entry? (name :: l) = some .directory := by
  rw [listed, listing, mem_sortNames, List.mem_map]
  constructor
  · rintro ⟨⟨other, e⟩, hmem, rfl⟩
    obtain ⟨hmem, hkind⟩ := List.mem_filter.mp hmem
    rw [(mem_children_iff hd).mp hmem, of_decide_eq_true hkind]
  · intro hentry
    refine ⟨(name, .directory), List.mem_filter.mpr ⟨(mem_children_iff hd).mpr hentry, ?_⟩, rfl⟩
    exact decide_eq_true rfl

theorem listed_ordered (hd : d.IsTree) (source dir : Path) (l : Location) :
    (listed d source dir l).files.Pairwise (· ≤ ·) ∧ (listed d source dir l).files.Nodup ∧
      (listed d source dir l).directories.Pairwise (· ≤ ·) ∧
      (listed d source dir l).directories.Nodup := by
  have hnodup : ∀ keep : String × Entry → Bool, (((d.children l).filter keep).map Prod.fst).Nodup :=
    fun keep => (List.filter_sublist.map Prod.fst).nodup (children_nodup hd l)
  exact ⟨sortNames_pairwise _, sortNames_nodup (hnodup _), sortNames_pairwise _,
    sortNames_nodup (hnodup _)⟩

theorem leadsToDirectory_mono (h : d.Extends m) {old new : Entry}
    (hold : d.entry? (name :: l) = some old) (hnew : m.entry? (name :: l) = some new)
    (hleads : leadsToDirectory d dir (name, old) = true) :
    leadsToDirectory m dir (name, new) = true := by
  cases old with
  | directory =>
    cases hnew.symm.trans (h.same hold (by simp))
    rfl
  | link target =>
    cases hnew.symm.trans (h.same hold (by simp))
    obtain ⟨location, hstat⟩ := isDirectory_getD_iff.mp hleads
    exact isDirectory_getD_iff.mpr ⟨location, h.stat_directory hstat⟩
  | file => cases hleads
  | device => cases hleads

theorem leadsToDirectory_of_kind {old new : Entry} (hkind : new.kind = old.kind)
    (hlink : ¬ old.IsLink) (hleads : leadsToDirectory d dir (name, old) = false) :
    leadsToDirectory m dir (name, new) = false := by
  cases old with
  | directory => cases hleads
  | link target => exact absurd ⟨target, rfl⟩ hlink
  | _ => cases new <;> first | rfl | cases hkind

theorem isFileName_between (hdm : d.Adds m) (hme : m.Adds d')
    (h : IsFileName d source dir l name ↔ IsFileName d' source dir l name) :
    IsFileName m source dir l name ↔ IsFileName d source dir l name := by
  constructor
  · rintro ⟨now, hnow, hfile⟩
    cases hold : d.entry? (name :: l) with
    | none =>
      apply h.mpr
      obtain ⟨last, hlast, hkind⟩ := hme.extended.entries hnow
      exact ⟨last, hlast, leadsToDirectory_of_kind hkind (hdm.new hold hnow) hfile⟩
    | some old =>
      refine ⟨old, hold, Bool.eq_false_iff.mpr ?_⟩
      intro hleads
      cases hfile.symm.trans (leadsToDirectory_mono hdm.extended hold hnow hleads)
  · intro hfirst
    obtain ⟨last, hlast, hfile⟩ := h.mp hfirst
    obtain ⟨old, hold, _⟩ := hfirst
    obtain ⟨now, hnow, _⟩ := hdm.extended.entries hold
    refine ⟨now, hnow, Bool.eq_false_iff.mpr ?_⟩
    intro hleads
    cases hfile.symm.trans (leadsToDirectory_mono hme.extended hnow hlast hleads)

def candidates (excludes : List String) (dir : Path) (names : List String) : List Path :=
  (names.filter fun name => isCandidate excludes (dir.child name)).map dir.child

theorem candidates_cons (excludes : List String) (dir : Path) (name : String)
    (rest : List String) :
    candidates excludes dir (name :: rest) =
      if isCandidate excludes (dir.child name) then dir.child name :: candidates excludes dir rest
      else candidates excludes dir rest := by
  simp only [candidates, List.filter_cons]
  split <;> rfl

def searchBelow (excludes : List String) (found : Path → Sequence Path) (dir : Path)
    (names : Listing) : Sequence Path :=
  (Sequence.concatMap (fun name => found (dir.child name)) names.directories).after
    (candidates excludes dir names.files)

def search (d : Disk) (excludes : List String) (source : Path) :
    (levels : Nat) → Path → Sequence Path
  | 0, _ => .ofList []
  | levels + 1, dir =>
    match d.list (lookedUp source dir) with
    | .error .zeroInPath => .failed (.disk .zeroInPath)
    | .error (.refused _ _) => .ofList []
    | .ok entries =>
      searchBelow excludes (search d excludes source levels) dir
        (listing d (lookedUp source dir) entries)

/-- What is found in the directory at a location, with so many levels below it. -/
abbrev searchAt (d : Disk) (excludes : List String) (source : Path) (levels : Nat) (dir : Path)
    (l : Location) : Sequence Path :=
  searchBelow excludes (search d excludes source levels) dir (listed d source dir l)

def fileCandidate (d : Disk) (excludes : List String) (p : Path) : Sequence Path :=
  match d.isFile p with
  | .error err => .failed (.disk err)
  | .ok isFile => .ofList (if isFile && isCandidate excludes p then [p] else [])

def searchFlat (d : Disk) (excludes : List String) (dir : Path) : Sequence Path :=
  match d.list dir with
  | .error err => .failed (.disk err)
  | .ok entries =>
    .concatMap (fun name => fileCandidate d excludes (dir.child name))
      (sortNames (entries.map Prod.fst))

theorem foldUntil_append {step : σ → α → σ × Option Fault} {front rest : List α} {s : σ} :
    foldUntil step (front ++ rest) s =
      match foldUntil step front s with
      | (s, none) => foldUntil step rest s
      | (s, some fault) => (s, some fault) := by
  induction front generalizing s with
  | nil => rfl
  | cons a front ih =>
    simp only [List.cons_append, foldUntil]
    split
    · exact ih
    · rfl

theorem foldUntil_visitCandidate (v : Visitor σ) (excludes : List String) (dir : Path)
    (names : List String) (s : σ) :
    foldUntil (fun s name => visitCandidate v excludes s (dir.child name)) names s =
      foldUntil v.visit (candidates excludes dir names) s := by
  induction names generalizing s with
  | nil => rfl
  | cons name rest ih =>
    by_cases hcandidate : isCandidate excludes (dir.child name) = true
    · rw [foldUntil, visitCandidate, candidates_cons, if_pos hcandidate, if_pos hcandidate,
        foldUntil]
      split
      · exact ih _
      · rfl
    · rw [foldUntil, visitCandidate, candidates_cons, if_neg hcandidate, if_neg hcandidate]
      exact ih s

theorem foldUntil_gather {step : List Path → α → List Path × Option Fault}
    {found : α → Sequence Path} (l : List α)
    (h : ∀ a ∈ l, ∀ before, step before a = ((found a).items.reverse ++ before, (found a).fault))
    (before : List Path) :
    foldUntil step l before = ((Sequence.concatMap found l).items.reverse ++ before,
      (Sequence.concatMap found l).fault) := by
  induction l generalizing before with
  | nil => rfl
  | cons a rest ih =>
    obtain ⟨hfirst, hrest⟩ := List.forall_mem_cons.mp h
    rw [foldUntil, hfirst, Sequence.concatMap, Sequence.append]
    cases hfault : (found a).fault with
    | some fault => simp only [hfault]
    | none =>
      dsimp only
      rw [ih hrest]
      simp [Sequence.after]

theorem foldUntil_collector (ps before : List Path) :
    foldUntil (collector d).visit ps before = (ps.reverse ++ before, none) := by
  induction ps generalizing before with
  | nil => rfl
  | cons p rest ih =>
    have hstep : foldUntil (collector d).visit (p :: rest) before =
        foldUntil (collector d).visit rest (p :: before) := rfl
    rw [hstep, ih, List.reverse_cons, List.append_assoc]
    rfl

theorem visitTree_collector (levels : Nat) (dir : Path) (before : List Path) :
    visitTree (collector d) excludes source levels dir before =
      ((search d excludes source levels dir).items.reverse ++ before,
        (search d excludes source levels dir).fault) := by
  induction levels generalizing dir before with
  | zero => rfl
  | succ levels ih =>
    rw [visitTree, search]
    have hdisk : (collector d).disk before = d := rfl
    rw [hdisk]
    cases d.list (lookedUp source dir) with
    | error err => cases err <;> rfl
    | ok entries =>
      dsimp only
      rw [foldUntil_visitCandidate, foldUntil_collector]
      dsimp only
      rw [foldUntil_gather _ fun name _ before => ih (dir.child name) before, searchBelow,
        Sequence.after, List.reverse_append, List.append_assoc]

theorem visitFlat_collector (dir : Path) :
    visitFlat (collector d) excludes dir [] =
      ((searchFlat d excludes dir).items.reverse, (searchFlat d excludes dir).fault) := by
  have hstep : ∀ name before,
      (match ((collector d).disk before).isFile (dir.child name) with
        | .error err => (before, some (Fault.disk err))
        | .ok isFile =>
          if isFile then visitCandidate (collector d) excludes before (dir.child name)
          else (before, none)) =
        ((fileCandidate d excludes (dir.child name)).items.reverse ++ before,
          (fileCandidate d excludes (dir.child name)).fault) := by
    intro name before
    have hfile : ((collector d).disk before).isFile (dir.child name) =
        d.isFile (dir.child name) := rfl
    rw [hfile, fileCandidate]
    cases d.isFile (dir.child name) with
    | error err => rfl
    | ok isFile =>
      rw [visitCandidate]
      cases isFile <;> cases isCandidate excludes (dir.child name) <;> rfl
  rw [visitFlat, searchFlat]
  have hlist : ((collector d).disk []).list dir = d.list dir := rfl
  rw [hlist]
  cases d.list dir with
  | error err => rfl
  | ok entries =>
    dsimp only
    refine (foldUntil_gather _ (fun name _ before => hstep name before) []).trans ?_
    rw [List.append_nil]

theorem inputs_eq (d : Disk) (q : Query) :
    inputs d q =
      match d.isFile q.source with
      | .error err => .failed (.disk err)
      | .ok true => .ofList [q.source]
      | .ok false =>
        if q.recursive then search d q.excludes q.source Disk.pathMax q.source
        else searchFlat d q.excludes q.source := by
  rw [inputs, visitInputs]
  have hfile : ((collector d).disk []).isFile q.source = d.isFile q.source := rfl
  rw [hfile]
  cases d.isFile q.source with
  | error err => rfl
  | ok isFile =>
    cases isFile with
    | true => rfl
    | false =>
      dsimp only
      split
      · rw [visitTree_collector]
        simp
      · rw [visitFlat_collector]
        simp

theorem mem_candidates : p ∈ candidates excludes dir names ↔
    ∃ name ∈ names, isCandidate excludes (dir.child name) = true ∧ dir.child name = p := by
  simp only [candidates, List.mem_map, List.mem_filter, and_assoc]

theorem isBelow_of_mem_search (h : p ∈ (search d excludes source levels dir).items) : p.IsBelow dir := by
  induction levels generalizing dir with
  | zero => exact absurd h List.not_mem_nil
  | succ levels ih =>
    rw [search] at h
    split at h
    · exact absurd h List.not_mem_nil
    · exact absurd h List.not_mem_nil
    · rcases List.mem_append.mp h with hfile | hbelow
      · obtain ⟨name, _, _, rfl⟩ := mem_candidates.mp hfile
        exact Path.isBelow_child dir name
      · obtain ⟨name, _, hname⟩ := Sequence.mem_concatMap hbelow
        exact (ih hname).of_child

theorem search_of_stat (h : d.stat (lookedUp source dir) = .ok (l, .directory)) :
    search d excludes source (levels + 1) dir =
      searchAt d excludes source levels dir l := by
  rw [search, list_of_stat h]
  rfl

theorem searchBelow_fault {found : Path → Sequence Path} {names : Listing} :
    (searchBelow excludes found dir names).fault = none ↔
      ∀ name ∈ names.directories, (found (dir.child name)).fault = none :=
  Sequence.concatMap_fault_eq_none

theorem mem_searchBelow {found : Path → Sequence Path} {names : Listing}
    (h : (searchBelow excludes found dir names).fault = none) :
    p ∈ (searchBelow excludes found dir names).items ↔
      p ∈ candidates excludes dir names.files ∨
        ∃ name ∈ names.directories, p ∈ (found (dir.child name)).items :=
  List.mem_append.trans (or_congr_right (Sequence.mem_concatMap_iff h))

theorem child_mem_search (h : (searchAt d excludes source levels dir l).fault = none) (hd : d.IsTree)
    (hcandidate : isCandidate excludes (dir.child name) = true) :
    dir.child name ∈ (searchAt d excludes source levels dir l).items ↔
      IsFileName d source dir l name := by
  rw [mem_searchBelow h, ← mem_listed_files hd]
  constructor
  · rintro (hfile | ⟨other, _, hbelow⟩)
    · obtain ⟨other, hother, _, hsame⟩ := mem_candidates.mp hfile
      exact Path.child_injective hsame ▸ hother
    · exact absurd (isBelow_of_mem_search hbelow) Path.not_isBelow_child
  · intro hfile
    exact Or.inl (mem_candidates.mpr ⟨name, hfile, hcandidate, rfl⟩)

theorem mem_search_child (h : (searchAt d excludes source levels dir l).fault = none)
    (hname : name ∉ (listed d source dir l).directories →
      search d excludes source levels (dir.child name) = .ofList []) :
    p ∈ (search d excludes source levels (dir.child name)).items ↔
      p ∈ (searchAt d excludes source levels dir l).items ∧
        p.IsBelow (dir.child name) := by
  rw [mem_searchBelow h]
  constructor
  · intro hp
    refine ⟨Or.inr ⟨name, Decidable.not_not.mp fun hmissing => ?_, hp⟩, isBelow_of_mem_search hp⟩
    rw [hname hmissing] at hp
    exact List.not_mem_nil hp
  · rintro ⟨hfile | ⟨other, _, hp⟩, hbelow⟩
    · obtain ⟨other, _, _, rfl⟩ := mem_candidates.mp hfile
      exact absurd hbelow Path.not_isBelow_child
    · rwa [hbelow.child_unique (isBelow_of_mem_search hp)]

theorem search_of_not_admits (h : ¬ Admits (lookedUp source dir)) (d : Disk)
    (hfault : (search d' excludes source levels dir).fault = none) :
    search d excludes source levels dir = .ofList [] := by
  cases levels with
  | zero => rfl
  | succ levels =>
    obtain ⟨err, hlist, rfl | rfl⟩ := list_of_not_admits h
    · rw [search, hlist] at hfault
      cases hfault
    · rw [search, hlist]

/-- The files of a directory that are candidates at first and in the end are those in between. -/
theorem candidates_between (hd : d.IsTree) (hdm : d.Adds m) (hme : m.Adds d')
    (h : ∀ name, m.entry? (name :: l) ≠ none → isCandidate excludes (dir.child name) = true →
      (IsFileName d' source dir l name ↔ IsFileName d source dir l name)) :
    candidates excludes dir (listed m source dir l).files =
      candidates excludes dir (listed d source dir l).files := by
  obtain ⟨hordered, hnodup, _⟩ := listed_ordered hdm.tree source dir l
  obtain ⟨hordered', hnodup', _⟩ := listed_ordered hd source dir l
  apply congrArg (List.map dir.child)
  apply eq_of_ordered (hordered.filter _) (hordered'.filter _) (hnodup.filter _) (hnodup'.filter _)
  intro name
  rw [List.mem_filter, List.mem_filter, mem_listed_files hdm.tree, mem_listed_files hd]
  apply and_congr_left
  intro hcandidate
  by_cases hthere : m.entry? (name :: l) = none
  · apply iff_of_false
    · rintro ⟨e, hentry, _⟩
      cases hthere.symm.trans hentry
    · rintro ⟨e, hentry, _⟩
      exact hdm.extended.tree.there (by rw [hentry]; exact Option.some_ne_none e) hthere
  · exact isFileName_between hdm hme (h name hthere hcandidate).symm

theorem mem_searchFlat {entries : List (String × Entry)} (hlist : d.list dir = .ok entries)
    (hfault : (searchFlat d excludes dir).fault = none) :
    dir.child name ∈ (searchFlat d excludes dir).items ↔
      name ∈ entries.map Prod.fst ∧ d.isFile (dir.child name) = .ok true ∧
        isCandidate excludes (dir.child name) = true := by
  rw [searchFlat, hlist] at hfault ⊢
  rw [Sequence.mem_concatMap_iff hfault]
  have hfound : ∀ other p, p ∈ (fileCandidate d excludes (dir.child other)).items ↔
      p = dir.child other ∧ d.isFile (dir.child other) = .ok true ∧
        isCandidate excludes (dir.child other) = true := by
    intro other p
    rw [fileCandidate]
    cases d.isFile (dir.child other) with
    | error err => simp [Sequence.failed]
    | ok isFile => cases isFile <;> simp [Sequence.ofList, and_comm]
  constructor
  · rintro ⟨other, hother, hmem⟩
    obtain ⟨hsame, hfile⟩ := (hfound other _).mp hmem
    cases Path.child_injective hsame
    exact ⟨mem_sortNames.mp hother, hfile⟩
  · rintro ⟨hname, hfile⟩
    exact ⟨name, mem_sortNames.mpr hname, (hfound name _).mpr ⟨rfl, hfile⟩⟩

theorem isFile_of_searchFlat {entries : List (String × Entry)} (hlist : d.list dir = .ok entries)
    (hfault : (searchFlat d excludes dir).fault = none) (hname : name ∈ entries.map Prod.fst) :
    ∃ isFile, d.isFile (dir.child name) = .ok isFile := by
  rw [searchFlat, hlist] at hfault
  have hone := Sequence.concatMap_fault_eq_none.mp hfault name (mem_sortNames.mpr hname)
  rw [fileCandidate] at hone
  cases hfile : d.isFile (dir.child name) with
  | error err =>
    rw [hfile] at hone
    cases hone
  | ok isFile => exact ⟨isFile, rfl⟩

/-- Any fault is a refusal of the file system. -/
def OnlyRefused (fault : Option Fault) : Prop :=
  ∀ f, fault = some f → ∃ cause p, f = .disk (.refused cause p)

theorem OnlyRefused.concatMap {α β : Type} {step : α → Sequence β} {l : List α}
    (h : ∀ a ∈ l, OnlyRefused (step a).fault) : OnlyRefused (Sequence.concatMap step l).fault := by
  intro f hf
  obtain ⟨a, ha, hfault⟩ := Sequence.fault_of_concatMap hf
  exact h a ha f hfault

theorem refused_of_list (hdir : ∀ name ∈ dir.names, ¬ HasZero name) {err : Error}
    (h : d.list dir = .error err) : ∃ cause p, err = .refused cause p := by
  refine list_refused (Bool.eq_false_iff.mpr fun hzero => ?_) h
  obtain ⟨name, hname, hzero⟩ := List.any_eq_true.mp hzero
  exact hdir name hname hzero

/-- A directory below that cannot be listed is passed over. -/
theorem search_never_fails (hd : d.ZeroFree) (hdir : ∀ name ∈ dir.names, ¬ HasZero name) :
    (search d excludes source levels dir).fault = none := by
  induction levels generalizing dir with
  | zero => rfl
  | succ levels ih =>
    rw [search]
    cases hlist : d.list (lookedUp source dir) with
    | error err =>
      obtain ⟨cause, p, rfl⟩ := refused_of_list (not_hasZero_lookedUp hdir) hlist
      rfl
    | ok entries =>
      obtain ⟨l, _, rfl⟩ := stat_of_list hlist
      apply searchBelow_fault.mpr
      intro name hname
      obtain ⟨⟨_, e⟩, hmem, rfl⟩ := List.mem_map.mp (mem_sortNames.mp hname)
      exact ih (hd.not_hasZero_child hdir (List.mem_filter.mp hmem).1)

theorem searchFlat_refused (hdir : ∀ name ∈ dir.names, ¬ HasZero name) :
    OnlyRefused (searchFlat d excludes dir).fault := by
  rw [searchFlat]
  cases hlist : d.list dir with
  | error err =>
    obtain ⟨cause, p, rfl⟩ := refused_of_list hdir hlist
    rintro f ⟨⟩
    exact ⟨cause, p, rfl⟩
  | ok entries =>
    apply OnlyRefused.concatMap
    intro name _
    rw [fileCandidate]
    cases hfile : d.isFile (dir.child name) with
    | error err =>
      obtain ⟨rfl, _⟩ := isFile_error hfile
      rintro f ⟨⟩
      exact ⟨_, _, rfl⟩
    | ok isFile =>
      rintro f ⟨⟩

theorem inputs_refused (hd : d.ZeroFree) (q : Query) (hthere : d.exists? q.source = .ok true) :
    OnlyRefused (inputs d q).fault := by
  have hsource : ∀ name ∈ q.source.names, ¬ HasZero name :=
    (admits_of_exists hthere).not_hasZero
  rw [inputs_eq]
  cases hfile : d.isFile q.source with
  | error err =>
    obtain ⟨rfl, _⟩ := isFile_error hfile
    rintro f ⟨⟩
    exact ⟨_, _, rfl⟩
  | ok isFile =>
    cases isFile with
    | true => rintro f ⟨⟩
    | false =>
      dsimp only
      split
      · intro f hf
        cases (search_never_fails hd hsource).symm.trans hf
      · exact searchFlat_refused hsource

end Discovery
end SourceRecovery
