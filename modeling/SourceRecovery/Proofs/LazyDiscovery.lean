import SourceRecovery.Proofs.InputReports
import SourceRecovery.Proofs.InputSearch

/-! Input files that are looked for while a visitor adds to the disk. A directory is listed when its
turn comes, but every disk met on the way lies between the first and the last one. So if these agree
on the inputs, apart from such as bear a name that is new in the source, the files visited are those
that were there before the first visit. -/
namespace SourceRecovery.Discovery

open Disk

variable {σ α : Type} {v : Visitor σ} {d d' m : Disk} {excludes : List String} {source dir : Path}
variable {l : Location} {name : String} {s : σ} {front rest : List Path}

/-- Visits leave all that is there and make no links. -/
def Visitor.Adding (v : Visitor σ) : Prop :=
  ∀ s p, (v.disk s).IsTree → (v.disk s).Adds (v.disk (v.visit s p).1)

theorem foldUntil_adds (hv : v.Adding) (hs : (v.disk s).IsTree) (ps : List Path) :
    (v.disk s).Adds (v.disk (foldUntil v.visit ps s).1) := by
  induction ps generalizing s with
  | nil => exact .refl hs
  | cons p rest ih =>
    have hfirst := hv s p hs
    rw [foldUntil]
    split
    · rename_i after hvisit
      rw [hvisit] at hfirst
      exact hfirst.trans (ih hfirst.tree)
    · rename_i after fault hvisit
      rw [hvisit] at hfirst
      exact hfirst

theorem foldUntil_singleton (step : σ → α → σ × Option Fault) (a : α) (s : σ) :
    foldUntil step [a] s = step s a := by
  rw [foldUntil]
  split <;> rename_i hstep <;> rw [hstep]
  rfl

structure Finishes (v : Visitor σ) (d' : Disk) (ps : List Path) (s : σ) : Prop where
  faultless : (foldUntil v.visit ps s).2 = none
  kept : (v.disk (foldUntil v.visit ps s).1).Adds d'

theorem Finishes.adds (h : Finishes v d' rest s) (hv : v.Adding) (hs : (v.disk s).IsTree) :
    (v.disk s).Adds d' := (foldUntil_adds hv hs rest).trans h.kept

theorem Finishes.split (h : Finishes v d' (front ++ rest) s) (hv : v.Adding)
    (hs : (v.disk s).IsTree) :
    Finishes v d' front s ∧ ∃ after, foldUntil v.visit front s = (after, none) ∧
      (v.disk s).Adds (v.disk after) ∧ Finishes v d' rest after := by
  have hadds := foldUntil_adds hv hs front
  obtain ⟨hfaultless, hkept⟩ := h
  rw [foldUntil_append] at hfaultless hkept
  cases hfront : foldUntil v.visit front s with
  | mk after fault =>
    rw [hfront] at hfaultless hkept hadds
    cases fault with
    | some fault => cases hfaultless
    | none =>
      have hrest : Finishes v d' rest after := ⟨hfaultless, hkept⟩
      refine ⟨⟨by rw [hfront], ?_⟩, after, rfl, hadds, hrest⟩
      rw [hfront]
      exact hrest.adds hv hadds.tree

theorem foldUntil_visits (hv : v.Adding) {step : σ → α → σ × Option Fault}
    {found : α → Sequence Path} {as : List α} (hfound : ∀ a ∈ as, (found a).fault = none)
    (hstep : ∀ a ∈ as, ∀ s, m.Adds (v.disk s) → Finishes v d' (found a).items s →
      step s a = foldUntil v.visit (found a).items s)
    (hs : m.Adds (v.disk s)) (h : Finishes v d' (Sequence.concatMap found as).items s) :
    foldUntil step as s = foldUntil v.visit (Sequence.concatMap found as).items s := by
  induction as generalizing s with
  | nil => rfl
  | cons a rest ih =>
    obtain ⟨hfirst, hrest⟩ := List.forall_mem_cons.mp hfound
    obtain ⟨hstep, hsteps⟩ := List.forall_mem_cons.mp hstep
    have hitems : (Sequence.concatMap found (a :: rest)).items =
        (found a).items ++ (Sequence.concatMap found rest).items := by
      rw [Sequence.concatMap, Sequence.append, hfirst]
      rfl
    rw [hitems] at h ⊢
    obtain ⟨hfinishes, after, hvisit, hadds, hremaining⟩ := h.split hv hs.tree
    rw [foldUntil, hstep s hs hfinishes, foldUntil_append, hvisit]
    exact ih hrest hsteps (hs.trans hadds) hremaining

/-- A path leads to a directory now, and if that was there at first the path led to it then. -/
structure Reached (d m : Disk) (dir : Path) (l : Location) : Prop where
  now : m.stat dir = .ok (l, .directory)
  before : d.entry? l ≠ none → d.stat dir = .ok (l, .directory)

theorem Reached.adds (h : Reached d m dir l) (hadds : m.Adds d') : Reached d d' dir l :=
  ⟨hadds.extended.stat_directory h.now, h.before⟩

theorem Reached.child (h : Reached d m dir l) (hd : d.IsTree) (hdm : d.Adds m)
    (hentry : m.entry? (name :: l) = some .directory) (hadmits : Admits (dir.child name)) :
    Reached d m (dir.child name) (name :: l) := by
  have hlink : ¬ Entry.IsLink .directory := by simp [Entry.IsLink]
  have hname : IsEntryName name := hdm.tree.named (by rw [hentry]; exact Option.some_ne_none _)
  refine ⟨stat_child h.now hname hentry hlink hadmits, ?_⟩
  intro hthere
  have habove : d.entry? l ≠ none := by
    rw [hd.within hthere]
    exact Option.some_ne_none _
  have hold := hdm.extended.tree.same_before hentry (by simp) hthere
  exact stat_child (h.before habove) hname hold hlink hadmits

theorem Reached.search_missing (h : Reached d m (lookedUp source dir) l) (hdm : d.Adds m)
    (hadmits : Admits (lookedUp source dir)) (hmissing : d.entry? l = none) (levels : Nat) :
    search d excludes source levels dir = .ofList [] := by
  cases levels with
  | zero => rfl
  | succ levels =>
    rw [search]
    cases hlist : d.list (lookedUp source dir) with
    | error err =>
      obtain ⟨cause, q, rfl⟩ := list_refused hadmits.no_zero hlist
      rfl
    | ok entries =>
      -- The path would have led to something else than it does now.
      obtain ⟨other, hstat, _⟩ := stat_of_list hlist
      cases (hdm.extended.stat_directory hstat).symm.trans h.now
      cases hmissing.symm.trans (stat_eq_ok_iff.mp hstat).2

theorem Reached.search_eq (h : Reached d m (lookedUp source dir) l) (hd : d.IsTree)
    (hdm : d.Adds m) (hadmits : Admits (lookedUp source dir)) (levels : Nat) :
    search d excludes source (levels + 1) dir = searchAt d excludes source levels dir l := by
  by_cases hmissing : d.entry? l = none
  · have hlisted : listed d source dir l = ⟨[], []⟩ := by
      rw [listed, children_eq_nil hd hmissing]
      simp [listing, sortNames]
    rw [h.search_missing hdm hadmits hmissing, searchAt, hlisted]
    rfl
  · exact search_of_stat (h.before hmissing)

/-- A path that begins, below a directory, with a name which that directory has. -/
def Knows (d : Disk) (dir p : Path) : Prop :=
  ∃ entries entry, d.list dir = .ok entries ∧ entry ∈ entries ∧ (dir.child entry.1).LeadsTo p

def Begins (d : Disk) (dir : Path) (l : Location) (p : Path) : Prop :=
  ∃ name, d.entry? (name :: l) ≠ none ∧ (dir.child name).LeadsTo p

theorem Begins.leadsTo {p : Path} (h : Begins d dir l p) : dir.LeadsTo p := by
  obtain ⟨name, _, hleads⟩ := h
  exact (Path.isBelow_child dir name).leadsTo.trans hleads

theorem Begins.knows {p : Path} (h : Begins d dir l p) (hd : d.IsTree)
    (hdir : d.stat dir = .ok (l, .directory)) : Knows d dir p := by
  obtain ⟨name, hthere, hleads⟩ := h
  obtain ⟨e, hentry⟩ := Option.ne_none_iff_exists'.mp hthere
  exact ⟨_, (name, e), list_of_stat hdir, (mem_children_iff hd).mpr hentry, hleads⟩

/-- A directory listed in between: what was found there at first and what is found there in the end,
of which as far as names go that it has now the one is the other. -/
structure Midway (d m d' : Disk) (excludes : List String) (source : Path) (levels : Nat)
    (dir : Path) (l : Location) : Prop where
  first : d.IsTree
  before : d.Adds m
  after : m.Adds d'
  reached : Reached d m (lookedUp source dir) l
  fault : (searchAt d excludes source levels dir l).fault = none
  fault' : (searchAt d' excludes source levels dir l).fault = none
  same : ∀ p, Begins m dir l p →
    (p ∈ (searchAt d' excludes source levels dir l).items ↔
      p ∈ (searchAt d excludes source levels dir l).items)

namespace Midway

variable {levels : Nat} (h : Midway d m d' excludes source levels dir l)
include h

theorem candidates_eq :
    candidates excludes dir (listed m source dir l).files =
      candidates excludes dir (listed d source dir l).files := by
  apply candidates_between h.first h.before h.after
  intro name hthere hcandidate
  rw [← child_mem_search h.fault' h.after.tree hcandidate,
    ← child_mem_search h.fault h.first hcandidate]
  exact h.same _ ⟨name, hthere, .refl _⟩

variable (hname : name ∈ (listed m source dir l).directories)
include hname

theorem there : m.entry? (name :: l) = some .directory :=
  (mem_listed_directories h.before.tree).mp hname

theorem stays : name ∈ (listed d' source dir l).directories :=
  (mem_listed_directories h.after.tree).mpr (h.after.extended.same (h.there hname) (by simp))

theorem child_fault' : (search d' excludes source levels (dir.child name)).fault = none :=
  searchBelow_fault.mp h.fault' name (h.stays hname)

theorem child_new (hnew : name ∉ (listed d source dir l).directories) :
    search d excludes source levels (dir.child name) = .ofList [] := by
  have hthere := h.there hname
  rw [mem_listed_directories h.first] at hnew
  by_cases hadmits : Admits (lookedUp source (dir.child name))
  · apply Reached.search_missing (lookedUp_child source dir name ▸
      h.reached.child h.first h.before hthere (lookedUp_child source dir name ▸ hadmits))
      h.before hadmits
    apply Decidable.not_not.mp
    intro hold
    exact hnew (h.before.extended.tree.same_before hthere (by simp) hold)
  · exact search_of_not_admits hadmits d (h.child_fault' hname)

theorem child_fault : (search d excludes source levels (dir.child name)).fault = none := by
  by_cases hold : name ∈ (listed d source dir l).directories
  · exact searchBelow_fault.mp h.fault name hold
  · rw [h.child_new hname hold]
    rfl

theorem child_same {p : Path} (hp : (dir.child name).LeadsTo p) :
    p ∈ (search d' excludes source levels (dir.child name)).items ↔
      p ∈ (search d excludes source levels (dir.child name)).items := by
  rw [mem_search_child h.fault' fun hnot => absurd (h.stays hname) hnot,
    mem_search_child h.fault (h.child_new hname)]
  apply and_congr_left
  intro _
  refine h.same p ⟨name, ?_, hp⟩
  rw [h.there hname]
  exact Option.some_ne_none _

omit hname

theorem directories_eq :
    Sequence.concatMap (fun name => search d excludes source levels (dir.child name))
        (listed m source dir l).directories =
      Sequence.concatMap (fun name => search d excludes source levels (dir.child name))
        (listed d source dir l).directories := by
  obtain ⟨_, _, hordered, hnodup⟩ := listed_ordered h.before.tree source dir l
  obtain ⟨_, _, hordered', hnodup'⟩ := listed_ordered h.first source dir l
  have hkept : (listed m source dir l).directories.filter
      (· ∈ (listed d source dir l).directories) = (listed d source dir l).directories := by
    apply eq_of_ordered (hordered.filter _) hordered' (hnodup.filter _) hnodup'
    intro name
    rw [List.mem_filter, decide_eq_true_iff, and_iff_right_iff_imp, mem_listed_directories h.first,
      mem_listed_directories h.before.tree]
    intro hold
    exact h.before.extended.same hold (by simp)
  rw [← hkept, Sequence.concatMap_filter]
  intro name hname hnew
  exact h.child_new hname (of_decide_eq_false hnew)

end Midway

/-- A directory that is visited late is visited for the files that were found in it at first, if the
same are found in the end. Names that are new since it was listed do not matter. -/
theorem visitTree_eq (hv : v.Adding) (hd : d.IsTree) (levels : Nat) (hs : d.Adds (v.disk s))
    (hreached : Admits (lookedUp source dir) → Reached d (v.disk s) (lookedUp source dir) l)
    (hfault : (search d excludes source levels dir).fault = none)
    (hfault' : (search d' excludes source levels dir).fault = none)
    (hsame : ∀ p, Begins (v.disk s) dir l p →
      (p ∈ (search d' excludes source levels dir).items ↔
        p ∈ (search d excludes source levels dir).items))
    (h : Finishes v d' (search d excludes source levels dir).items s) :
    visitTree v excludes source levels dir s =
      foldUntil v.visit (search d excludes source levels dir).items s := by
  induction levels generalizing dir l s with
  | zero => rfl
  | succ levels ih =>
    by_cases hadmits : Admits (lookedUp source dir)
    · have hl := hreached hadmits
      have hs' : (v.disk s).Adds d' := h.adds hv hs.tree
      rw [search_of_stat (hs'.extended.stat_directory hl.now)] at hfault' hsame
      rw [hl.search_eq hd hs hadmits] at hfault hsame h ⊢
      have hmidway : Midway d (v.disk s) d' excludes source levels dir l :=
        ⟨hd, hs, hs', hl, hfault, hfault', hsame⟩
      obtain ⟨_, after, hvisit, hafter, hrest⟩ := h.split hv hs.tree
      have hlisted : listing (v.disk s) (lookedUp source dir) ((v.disk s).children l) =
          listed (v.disk s) source dir l := rfl
      rw [visitTree, list_of_stat hl.now]
      dsimp only
      rw [foldUntil_visitCandidate, hlisted, hmidway.candidates_eq, hvisit, searchAt,
        searchBelow, Sequence.after, foldUntil_append, hvisit, ← hmidway.directories_eq]
      rw [← hmidway.directories_eq] at hrest
      apply foldUntil_visits hv (fun name hname => hmidway.child_fault hname) _ hafter hrest
      intro name hname later hlater hfinishes
      have hstill := hlater.extended.same (hmidway.there hname) (by simp)
      apply ih (l := name :: l) (hs.trans hlater) _ (hmidway.child_fault hname)
        (hmidway.child_fault' hname) _ hfinishes
      · rw [lookedUp_child]
        exact (hl.adds hlater).child hd (hs.trans hlater) hstill
      · intro p hp
        exact hmidway.child_same hname hp.leadsTo
    · obtain ⟨err, hlist, rfl | rfl⟩ := list_of_not_admits hadmits
      · rw [search, hlist] at hfault
        cases hfault
      · rw [visitTree, hlist, search, hlist]
        rfl

theorem fileCandidate_eq (hv : v.Adding) (hs : d.Adds (v.disk s)) {p : Path} {first last : Bool}
    (hfirst : d.isFile p = .ok first) (hlast : d'.isFile p = .ok last)
    (hsame : isCandidate excludes p = true → last = true → first = true)
    (h : Finishes v d' (fileCandidate d excludes p).items s) :
    (match (v.disk s).isFile p with
      | .error err => (s, some (.disk err))
      | .ok isFile => if isFile then visitCandidate v excludes s p else (s, none)) =
      foldUntil v.visit (fileCandidate d excludes p).items s := by
  have hs' := h.adds hv hs.tree
  cases hnow : (v.disk s).isFile p with
  | error err => cases hlast.symm.trans (hs'.extended.isFile_error hnow)
  | ok now =>
    have hitems : (fileCandidate d excludes p).items =
        if first && isCandidate excludes p then [p] else [] := by
      rw [fileCandidate, hfirst]
      rfl
    rw [hitems, visitCandidate]
    cases hcandidate : isCandidate excludes p with
    | false => cases now <;> cases first <;> rfl
    | true =>
      have hnow' : now = first := by
        cases now with
        | true =>
          cases hlast.symm.trans (hs'.extended.isFile_true hnow)
          exact (hsame hcandidate rfl).symm
        | false =>
          cases first with
          | false => rfl
          | true => cases hnow.symm.trans (hs.extended.isFile_true hfirst)
      subst hnow'
      cases now with
      | false => rfl
      | true => exact (foldUntil_singleton v.visit p s).symm

theorem visitFlat_eq (hv : v.Adding) (hd : (v.disk s).IsTree)
    (hfault : (searchFlat (v.disk s) excludes dir).fault = none)
    (hfault' : (searchFlat d' excludes dir).fault = none)
    (hsame : ∀ p, Knows (v.disk s) dir p →
      (p ∈ (searchFlat d' excludes dir).items ↔ p ∈ (searchFlat (v.disk s) excludes dir).items))
    (h : Finishes v d' (searchFlat (v.disk s) excludes dir).items s) :
    visitFlat v excludes dir s =
      foldUntil v.visit (searchFlat (v.disk s) excludes dir).items s := by
  have hs' : (v.disk s).Adds d' := h.adds hv hd
  cases hlist : (v.disk s).list dir with
  | error err =>
    rw [searchFlat, hlist] at hfault
    cases hfault
  | ok entries =>
    obtain ⟨l, hstat, rfl⟩ := stat_of_list hlist
    have hlist' := list_of_stat (hs'.extended.stat_directory hstat)
    have hstays : ∀ name ∈ ((v.disk s).children l).map Prod.fst,
        name ∈ (d'.children l).map Prod.fst := by
      intro name hname
      obtain ⟨⟨other, e⟩, hmem, rfl⟩ := List.mem_map.mp hname
      obtain ⟨e', hentry, _⟩ := hs'.extended.entries ((mem_children_iff hd).mp hmem)
      exact List.mem_map.mpr ⟨(other, e'), (mem_children_iff hs'.tree).mpr hentry, rfl⟩
    have hflat : searchFlat (v.disk s) excludes dir =
        .concatMap (fun name => fileCandidate (v.disk s) excludes (dir.child name))
          (sortNames (((v.disk s).children l).map Prod.fst)) := by
      rw [searchFlat, hlist]
    have hfaults := hfault
    have hfinishes := h
    rw [hflat] at hfaults hfinishes ⊢
    rw [visitFlat, hlist]
    apply foldUntil_visits hv (Sequence.concatMap_fault_eq_none.mp hfaults) _ (.refl hd) hfinishes
    intro name hname later hlater hone
    have hname := mem_sortNames.mp hname
    obtain ⟨first, hfirst⟩ := isFile_of_searchFlat hlist hfault hname
    obtain ⟨last, hlast⟩ := isFile_of_searchFlat hlist' hfault' (hstays name hname)
    apply fileCandidate_eq hv hlater hfirst hlast _ hone
    rintro hcandidate rfl
    obtain ⟨⟨other, e⟩, hmem, rfl⟩ := List.mem_map.mp hname
    have hfound := (hsame _ ⟨_, _, hlist, hmem, .refl _⟩).mp
      ((mem_searchFlat hlist' hfault').mpr ⟨hstays _ hname, hlast, hcandidate⟩)
    have hfile := ((mem_searchFlat hlist hfault).mp hfound).2.1
    cases hfirst.symm.trans hfile
    rfl

/-- Looking for the inputs once more finds the same, as far as names go that the source had. -/
structure Steady (d d' : Disk) (q : Query) : Prop where
  found : (inputs d' q).fault = none
  same : ∀ p, Knows d q.source p → (p ∈ (inputs d' q).items ↔ p ∈ (inputs d q).items)

theorem Steady.of_eq {q : Query} (hfault : (inputs d q).fault = none)
    (h : inputs d' q = inputs d q) : Steady d d' q := by
  refine ⟨h ▸ hfault, ?_⟩
  intro p _
  rw [h]

/-- A source that is neither a file nor a directory: looked through it holds nothing, and listed by
itself it faults. -/
theorem visitInputs_unlisted {q : Query} (hfile : (v.disk s).isFile q.source = .ok false)
    (hnone : ∀ l, (v.disk s).stat q.source ≠ .ok (l, .directory))
    (hfault : (inputs (v.disk s) q).fault = none) :
    visitInputs v q s = foldUntil v.visit (inputs (v.disk s) q).items s := by
  have hsource := inputs_eq (v.disk s) q
  obtain ⟨levels, hlevels⟩ : ∃ levels, pathMax = levels + 1 := ⟨4095, rfl⟩
  rw [hfile] at hsource
  cases hrecursive : q.recursive with
  | true =>
    simp only [hrecursive, if_true, hlevels, search] at hsource
    rw [hsource] at hfault ⊢
    simp only [visitInputs, hfile, hrecursive, if_true, hlevels, visitTree]
    cases hlist : (v.disk s).list (lookedUp q.source q.source) with
    | error err =>
      simp only [hlist] at hfault
      cases err with
      | zeroInPath => cases hfault
      | refused cause path => rfl
    | ok entries =>
      obtain ⟨l, hstat, _⟩ := stat_of_list hlist
      exact absurd (stat_lookedUp_source.mp hstat) (hnone l)
  | false =>
    simp only [hrecursive, Bool.false_eq_true, if_false, searchFlat] at hsource
    rw [hsource] at hfault
    cases hlist : (v.disk s).list q.source with
    | error err =>
      rw [hlist] at hfault
      cases hfault
    | ok entries =>
      obtain ⟨l, hstat, _⟩ := stat_of_list hlist
      exact absurd hstat (hnone l)

theorem visitInputs_directory (hv : v.Adding) {q : Query} (hd : (v.disk s).IsTree)
    (hfile : (v.disk s).isFile q.source = .ok false)
    (hstat : (v.disk s).stat q.source = .ok (l, .directory))
    (hfault : (inputs (v.disk s) q).fault = none)
    (h : Finishes v d' (inputs (v.disk s) q).items s) (hsteady : Steady (v.disk s) d' q) :
    visitInputs v q s = foldUntil v.visit (inputs (v.disk s) q).items s := by
  obtain ⟨hfault', hsame⟩ := hsteady
  have hstat' := (h.adds hv hd).extended.stat_directory hstat
  have hfile' : d'.isFile q.source = .ok false := by
    rw [isFile, hstat']
    rfl
  have hsource := inputs_eq (v.disk s) q
  have hsource' := inputs_eq d' q
  rw [hfile] at hsource
  rw [hfile'] at hsource'
  rw [visitInputs, hfile]
  cases hrecursive : q.recursive with
  | true =>
    simp only [hrecursive, if_true] at hsource hsource' ⊢
    rw [hsource] at hfault h hsame ⊢
    rw [hsource'] at hfault' hsame
    have hlooked := stat_lookedUp_source.mpr hstat
    exact visitTree_eq hv hd pathMax (.refl hd) (fun _ => ⟨hlooked, fun _ => hlooked⟩) hfault
      hfault' (fun p hp => hsame p (hp.knows hd hstat)) h
  | false =>
    simp only [hrecursive, Bool.false_eq_true, if_false] at hsource hsource' ⊢
    rw [hsource] at hfault h hsame ⊢
    rw [hsource'] at hfault' hsame
    exact visitFlat_eq hv hd hfault hfault' hsame h

/-- A visit to the inputs that leaves them as they are is a visit to those that were there before.
-/
theorem visitInputs_eq (hv : v.Adding) {q : Query} (hs : v.disk s = d) (hd : d.IsTree)
    (hfault : (inputs d q).fault = none)
    (hfaultless : (foldUntil v.visit (inputs d q).items s).2 = none)
    (hlast : v.disk (foldUntil v.visit (inputs d q).items s).1 = d') (hsteady : Steady d d' q) :
    visitInputs v q s = foldUntil v.visit (inputs d q).items s := by
  subst hs
  have hs' : (v.disk s).Adds d' := hlast ▸ foldUntil_adds hv hd (inputs (v.disk s) q).items
  have hfinishes : Finishes v d' (inputs (v.disk s) q).items s :=
    ⟨hfaultless, hlast.symm ▸ .refl hs'.tree⟩
  cases hfile : (v.disk s).isFile q.source with
  | error err =>
    rw [inputs_eq, hfile] at hfault
    cases hfault
  | ok isFile =>
    cases isFile with
    | true =>
      rw [visitInputs, inputs_eq, hfile]
      exact (foldUntil_singleton v.visit q.source s).symm
    | false =>
      by_cases hdir : ∃ l, (v.disk s).stat q.source = .ok (l, .directory)
      · obtain ⟨l, hstat⟩ := hdir
        exact visitInputs_directory hv hd hfile hstat hfault hfinishes hsteady
      · exact visitInputs_unlisted hfile (not_exists.mp hdir) hfault

end SourceRecovery.Discovery
