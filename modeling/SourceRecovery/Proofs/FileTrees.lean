import SourceRecovery.Proofs.EventsOnDemand
import SourceRecovery.Proofs.LinkFreeWrites
import SourceRecovery.Proofs.TreeRuns

/-! File trees to which directories and files are added while links may be followed. What a
directory lists is what its location says, a path to a directory goes on to its entries, and of all
that comes to be there nothing is a link. -/
namespace SourceRecovery

namespace Disk

variable {d d' d'' : Disk} {follow : Bool} {here l : Location} {name : String} {names : List String}
variable {p : Path} {e : Entry}

/-- Every entry is given once, under a name that can be looked up, in a directory. -/
structure IsTree (d : Disk) : Prop where
  absolute : d.workingDirectory.anchor ≠ .relative
  once : (d.entries.map Prod.fst).Nodup
  named : ∀ {name above}, d.entry? (name :: above) ≠ none → IsEntryName name
  within : ∀ {name above}, d.entry? (name :: above) ≠ none → d.entry? above = some .directory

theorem lookup_eq_some_iff {entries : List (Location × Entry)} (h : (entries.map Prod.fst).Nodup) :
    entries.lookup l = some e ↔ (l, e) ∈ entries := by
  induction entries with
  | nil => exact iff_of_false (by simp) (by simp)
  | cons entry rest ih =>
    obtain ⟨other, old⟩ := entry
    obtain ⟨hother, hrest⟩ := List.nodup_cons.mp h
    rw [lookup_cons_eq, List.mem_cons]
    by_cases hl : l = other
    · subst hl
      have hnew : (l, e) ∉ rest := fun hmem => hother (List.mem_map.mpr ⟨_, hmem, rfl⟩)
      simp [hnew, eq_comm]
    · simp [hl, ih hrest]

theorem entry?_ne_none_iff {above : Location} (h : (d.entries.map Prod.fst).Nodup) :
    d.entry? (name :: above) ≠ none ↔ ∃ e, (name :: above, e) ∈ d.entries := by
  rw [Option.ne_none_iff_exists']
  exact exists_congr fun e => lookup_eq_some_iff h

instance (name : String) : Decidable (IsEntryName name) :=
  decidable_of_iff (name ≠ "." ∧ name ≠ ".." ∧ name.utf8ByteSize ≤ nameMax)
    ⟨fun h => ⟨h.1, h.2.1, h.2.2⟩, fun h => ⟨h.not_here, h.not_up, h.fits⟩⟩

theorem isTree_iff : d.IsTree ↔
    d.workingDirectory.anchor ≠ .relative ∧ (d.entries.map Prod.fst).Nodup ∧
      ∀ entry ∈ d.entries, entry.1 ≠ [] →
        IsEntryName (entry.1.headD "") ∧ d.entry? entry.1.tail = some .directory := by
  constructor
  · intro h
    refine ⟨h.absolute, h.once, ?_⟩
    rintro ⟨location, e⟩ hmem hroot
    cases location with
    | nil => exact absurd rfl hroot
    | cons name above =>
      have hthere := (entry?_ne_none_iff h.once).mpr ⟨e, hmem⟩
      exact ⟨h.named hthere, h.within hthere⟩
  · rintro ⟨habsolute, honce, hentries⟩
    refine ⟨habsolute, honce, fun hthere => ?_, fun hthere => ?_⟩
    · obtain ⟨e, hmem⟩ := (entry?_ne_none_iff honce).mp hthere
      exact (hentries _ hmem (List.cons_ne_nil _ _)).1
    · obtain ⟨e, hmem⟩ := (entry?_ne_none_iff honce).mp hthere
      exact (hentries _ hmem (List.cons_ne_nil _ _)).2

instance (d : Disk) : Decidable d.IsTree := decidable_of_iff' _ isTree_iff

theorem mem_children_iff (hd : d.IsTree) :
    (name, e) ∈ d.children l ↔ d.entry? (name :: l) = some e := by
  have hlookup : d.entry? (name :: l) = d.entries.lookup (name :: l) := rfl
  rw [hlookup, lookup_eq_some_iff hd.once, children, List.mem_filterMap]
  constructor
  · rintro ⟨⟨location, other⟩, hmem, h⟩
    cases location with
    | nil => cases h
    | cons first parent =>
      dsimp only at h
      split at h
      · rename_i hparent
        cases h
        exact hparent ▸ hmem
      · cases h
  · intro hmem
    exact ⟨_, hmem, if_pos rfl⟩

theorem children_nodup (hd : d.IsTree) (l : Location) : ((d.children l).map Prod.fst).Nodup := by
  have hentries := List.pairwise_map.mp hd.once
  apply List.pairwise_map.mpr
  apply hentries.filterMap
  rintro ⟨location, old⟩ ⟨location', old'⟩ hne ⟨name, e⟩ h ⟨name', e'⟩ h' rfl
  cases location with
  | nil => cases h
  | cons first parent =>
    cases location' with
    | nil => cases h'
    | cons first' parent' =>
      simp only [Option.ite_none_right_eq_some, Option.some.injEq, Prod.mk.injEq] at h h'
      obtain ⟨rfl, rfl, rfl⟩ := h
      obtain ⟨rfl, rfl, rfl⟩ := h'
      exact hne rfl

theorem children_eq_nil (hd : d.IsTree) (h : d.entry? l = none) : d.children l = [] := by
  apply List.eq_nil_iff_forall_not_mem.mpr
  rintro ⟨name, e⟩ hmem
  have hentry := (mem_children_iff hd).mp hmem
  cases h.symm.trans (hd.within (by rw [hentry]; exact Option.some_ne_none e))

theorem Walks.append_arrived {w : Walk} (h : d.Walks true here names w) (hw : w = .arrived l)
    (hdirectory : d.entry? l = some .directory) (hname : IsEntryName name)
    (hentry : d.entry? (name :: l) = some e) (hlink : ¬ e.IsLink) :
    d.Walks true here (names ++ [name]) (.arrived (name :: l)) := by
  induction h with
  | arrived =>
    cases hw
    exact .down hdirectory hname hentry hlink .arrived
  | stay hhere _ ih => exact .stay hhere (ih hw)
  | up hhere _ ih => exact .up hhere (ih hw)
  | down hhere hfirst hthere hkind _ ih => exact .down hhere hfirst hthere hkind (ih hw)
  | unfollowed _ _ _ hfollow => cases hfollow
  | _ => cases hw

theorem Walks.append_detour {w : Walk} {start : Location} {rest : List String}
    (h : d.Walks true here names w) (hw : w = .detour start rest) (name : String) :
    d.Walks true here (names ++ [name]) (.detour start (rest ++ [name])) := by
  induction h with
  | stay hhere _ ih => exact .stay hhere (ih hw)
  | up hhere _ ih => exact .up hhere (ih hw)
  | down hhere hfirst hthere hkind _ ih => exact .down hhere hfirst hthere hkind (ih hw)
  | detour hhere hfirst hlink _ =>
    cases hw
    rw [List.append_assoc]
    exact .detour hhere hfirst hlink fun _ => rfl
  | _ => cases hw

theorem Resolves.append {walks : Nat} {place : Place} (h : d.Resolves true walks here names place)
    (hplace : place = .taken l) (hdirectory : d.entry? l = some .directory)
    (hname : IsEntryName name) (hentry : d.entry? (name :: l) = some e) (hlink : ¬ e.IsLink) :
    d.Resolves true walks here (names ++ [name]) (.taken (name :: l)) := by
  induction h with
  | taken h =>
    cases hplace
    exact .taken (h.append_arrived rfl hdirectory hname hentry hlink)
  | vacant => cases hplace
  | detour h _ ih => exact .detour (h.append_detour rfl name) (ih hplace)

/-- From a directory its path goes on to what is in it, if it does not get too long. -/
theorem stat_child {dir : Path} (hdir : d.stat dir = .ok (l, .directory)) (hname : IsEntryName name)
    (hentry : d.entry? (name :: l) = some e) (hlink : ¬ e.IsLink)
    (hadmits : Admits (dir.child name)) :
    d.stat (dir.child name) = .ok (name :: l, e) := by
  obtain ⟨hplace, hdirectory⟩ := stat_eq_ok_iff.mp hdir
  obtain ⟨_, hresolves⟩ := locate_eq_ok_iff.mp hplace
  apply stat_eq_ok_iff.mpr
  refine ⟨locate_eq_ok_iff.mpr ⟨hadmits, ?_⟩, hentry⟩
  exact hresolves.append rfl hdirectory hname hentry hlink

theorem Walks.vacant_name {w : Walk} {directory : Location} (h : d.Walks follow here names w)
    (hw : w = .vacant directory name) : IsEntryName name := by
  induction h with
  | vacant _ hname _ =>
    cases hw
    exact hname
  | stay _ _ ih | up _ _ ih | down _ _ _ _ _ ih => exact ih hw
  | _ => cases hw

theorem Resolves.vacant_name {walks : Nat} {place : Place} {directory : Location}
    (h : d.Resolves follow walks here names place) (hplace : place = .vacant directory name) :
    IsEntryName name := by
  induction h with
  | taken => cases hplace
  | vacant h =>
    cases hplace
    exact h.vacant_name rfl
  | detour _ _ ih => exact ih hplace

theorem Extends.tree (hd : d.Extends d') : Tree.Extends d.entry? d'.entry? := fun _ _ => hd.entries

theorem Extends.walk_tooLong (hd : d.Extends d')
    (h : d.walk follow here names = .refused .nameTooLong) :
    d'.walk follow here names = .refused .nameTooLong := by
  have hdirectory : ∀ {l}, d.entry? l = some .directory → d'.entry? l = some .directory :=
    fun h => hd.same h (by simp)
  fun_induction walk d follow here names with
  | case2 => cases h
  | case3 here rest hhere ih =>
    rw [walk, if_neg (not_not_intro (hdirectory (Decidable.not_not.mp hhere))), if_pos rfl]
    exact ih h
  | case4 here rest hhere hstay ih =>
    rw [walk, if_neg (not_not_intro (hdirectory (Decidable.not_not.mp hhere))), if_neg (by decide),
      if_pos rfl]
    exact ih h
  | case5 here name rest hhere hstay hup hlong =>
    rw [walk, if_neg (not_not_intro (hdirectory (Decidable.not_not.mp hhere))), if_neg hstay,
      if_neg hup, if_pos hlong]
  | case10 here name rest hhere hstay hup hfits e hkind hentry ih =>
    obtain ⟨e', hentry', hsame⟩ := hd.entries hentry
    have hlink : ¬ e'.IsLink := fun hlink =>
      (Entry.isLink_of_kind_eq hsame hlink).elim hkind
    have hname : IsEntryName name := ⟨hstay, hup, Nat.le_of_not_lt hfits⟩
    rw [walk_entry (hdirectory (Decidable.not_not.mp hhere)) hname, hentry']
    cases e' with
    | link target => exact absurd ⟨target, rfl⟩ hlink
    | _ => exact ih h
  | _ => cases h

theorem Extends.resolve_tooLong {walks : Nat} (hd : d.Extends d')
    (h : d.resolve follow walks here names = .error .nameTooLong) :
    d'.resolve follow walks here names = .error .nameTooLong := by
  induction walks generalizing here names with
  | zero => cases h
  | succ walks ih =>
    rw [resolve] at h ⊢
    split at h
    · cases h
    · cases h
    · rename_i cause hwalk
      cases h
      rw [hd.walk_tooLong hwalk]
    · rename_i start rest hwalk
      have hdetour := (walks_of_walk_eq hwalk (by simp)).extends hd (by simp)
      rw [hdetour.walk_eq]
      exact ih h

theorem Extends.stat_tooLong (hd : d.Extends d') (h : d.stat p = .error (.refused .nameTooLong p)) :
    d'.stat p = .error (.refused .nameTooLong p) := by
  have hlocate : d.locate true p = .error (.refused .nameTooLong p) := by
    rcases bind_eq_error.mp h with hlocate | ⟨place, _, h⟩
    · exact hlocate
    · split at h
      · cases h
      · split at h <;> cases h
  suffices d'.locate true p = .error (.refused .nameTooLong p) by
    rw [Disk.stat, this]
    rfl
  unfold locate at hlocate ⊢
  split at hlocate
  · cases hlocate
  · rename_i hzero
    rw [if_neg hzero]
    split at hlocate
    · rename_i hlong
      rw [if_pos hlong]
    · rename_i hfits
      obtain ⟨cause, hresolve, hcause⟩ := mapError_eq_error.mp hlocate
      cases hcause
      rw [if_neg hfits, start_eq hd.workingDirectory, hd.resolve_tooLong hresolve]
      rfl

theorem Extends.isFile_error {err : Error} (hd : d.Extends d') (h : d.isFile p = .error err) :
    d'.isFile p = .error err := by
  obtain ⟨hstat, hpresent⟩ := isFile_eq_error_iff.mp h
  rcases stat_error hstat with habsent | rfl
  · cases hpresent.symm.trans habsent
  · exact isFile_eq_error_iff.mpr ⟨hd.stat_tooLong hstat, hpresent⟩

theorem Extends.isFile_true (hd : d.Extends d') (h : d.isFile p = .ok true) :
    d'.isFile p = .ok true := by
  obtain ⟨location, content, hstat⟩ := isFile_eq_true_iff.mp h
  obtain ⟨e', hstat', hkind⟩ := hd.stat hstat
  cases e' with
  | file content' => exact isFile_eq_true_iff.mpr ⟨location, content', hstat'⟩
  | _ => cases hkind

theorem Extends.stat_directory (hd : d.Extends d') (h : d.stat p = .ok (l, .directory)) :
    d'.stat p = .ok (l, .directory) := by
  obtain ⟨e', hstat, hkind⟩ := hd.stat h
  rwa [Entry.eq_of_kind_eq hkind (by simp)] at hstat

theorem isDirectory_getD_iff :
    (d.isDirectory p).toOption.getD false = true ↔ ∃ l, d.stat p = .ok (l, .directory) := by
  unfold isDirectory
  cases hstat : d.stat p with
  | error err => cases hkind : err.isAbsence <;> simp [Except.map, orAbsent, hkind, Except.toOption]
  | ok found =>
    obtain ⟨location, e⟩ := found
    simp [Except.map, orAbsent, Except.toOption]

/-- Disk `d'` is a tree that has what `d` has and beyond that no links. -/
structure Adds (d d' : Disk) : Prop where
  tree : d'.IsTree
  extended : d.Extends d'
  new : ∀ {l e}, d.entry? l = none → d'.entry? l = some e → ¬ e.IsLink

theorem Adds.refl (hd : d.IsTree) : d.Adds d :=
  ⟨hd, .refl d, fun hnone hsome => by cases hnone.symm.trans hsome⟩

theorem Adds.trans (h : d.Adds d') (h' : d'.Adds d'') : d.Adds d'' := by
  refine ⟨h'.tree, h.extended.trans h'.extended, ?_⟩
  intro l e hnone hsome
  cases hmiddle : d'.entry? l with
  | none => exact h'.new hmiddle hsome
  | some old =>
    obtain ⟨e', he', hkind⟩ := h'.extended.entries hmiddle
    cases hsome.symm.trans he'
    intro hlink
    exact h.new hnone hmiddle (Entry.isLink_of_kind_eq hkind hlink)

theorem mem_fst_replace {entries : List (Location × Entry)} {l s : Location} {e : Entry} :
    s ∈ (replace l e entries).map Prod.fst ↔ s = l ∨ s ∈ entries.map Prod.fst := by
  induction entries with
  | nil => simp [replace]
  | cons entry rest ih =>
    obtain ⟨other, old⟩ := entry
    rw [replace]
    by_cases hl : other = l
    · subst hl
      simp
    · simp only [if_neg hl, List.map_cons, List.mem_cons, ih]
      exact or_left_comm

theorem replace_nodup {entries : List (Location × Entry)} (h : (entries.map Prod.fst).Nodup)
    (l : Location) (e : Entry) : ((replace l e entries).map Prod.fst).Nodup := by
  induction entries with
  | nil => simp [replace]
  | cons entry rest ih =>
    obtain ⟨other, old⟩ := entry
    obtain ⟨hother, hrest⟩ := List.nodup_cons.mp h
    rw [replace]
    by_cases hl : other = l
    · rw [if_pos hl]
      exact h
    · rw [if_neg hl]
      apply List.nodup_cons.mpr
      refine ⟨?_, ih hrest⟩
      intro hmem
      rcases mem_fst_replace.mp hmem with heq | hmem
      · exact hl heq
      · exact hother hmem

theorem Adds.put (hd : d.IsTree) (hname : IsEntryName name) (habove : d.entry? l = some .directory)
    (hlink : ¬ e.IsLink)
    (hkind : ∀ old, d.entry? (name :: l) = some old → e.kind = old.kind) :
    d.Adds (d.put (name :: l) e) := by
  have hextends : d.Extends (d.put (name :: l) e) :=
    .put d fun old hold => ⟨List.cons_ne_nil name l, hkind old hold⟩
  have hnew : ∀ {s}, entry? (d.put (name :: l) e) s ≠ none → s ≠ name :: l → d.entry? s ≠ none := by
    intro s hs hne
    rwa [entry?_put_of_ne d e hne] at hs
  refine ⟨⟨hd.absolute, replace_nodup hd.once _ _, ?_, ?_⟩, hextends, ?_⟩
  · intro other above hentry
    by_cases hsame : other :: above = name :: l
    · cases hsame
      exact hname
    · exact hd.named (hnew hentry hsame)
  · intro other above hentry
    apply hextends.same _ (by simp)
    by_cases hsame : other :: above = name :: l
    · cases hsame
      exact habove
    · exact hd.within (hnew hentry hsame)
  · intro s e' hnone hsome
    by_cases hsame : s = name :: l
    · subst hsame
      rw [entry?_put_self d e (List.cons_ne_nil name l)] at hsome
      cases hsome
      exact hlink
    · rw [entry?_put_of_ne d e hsame] at hsome
      cases hnone.symm.trans hsome

theorem Adds.put_vacant (hd : d.IsTree) {directory : Location}
    (hplace : d.locate follow p = .ok (.vacant directory name)) (hlink : ¬ e.IsLink) :
    d.Adds (d.put (name :: directory) e) := by
  obtain ⟨habove, hnone⟩ := locate_vacant hplace
  refine .put hd ((locate_eq_ok_iff.mp hplace).2.vacant_name rfl) habove hlink ?_
  intro old hold
  cases hnone.symm.trans hold

/-- What holds of a disk and is kept whenever a directory is made at a vacant name also holds after
a request for directories. -/
theorem makeDirectories_induct {P : Disk → Prop}
    (hput : ∀ d q directory name, P d → d.locate false q = .ok (.vacant directory name) →
      P (d.put (name :: directory) .directory))
    (hd : P d) (p : Path) : P (d.makeDirectories p).1 := by
  have hmake : ∀ {d q made}, P d → d.makeDirectory q = .ok made → P made := by
    intro d q made hd h
    obtain ⟨place, hplace, h⟩ := bind_eq_ok.mp h
    cases place with
    | taken => cases h
    | vacant directory name =>
      cases h
      exact hput d q directory name hd hplace
  have hparent : ∀ {d q}, P d → P (d.makeInParent q).1 := by
    intro d q hd
    unfold makeInParent
    split
    · rename_i made hmade
      exact hmake hd hmade
    · exact hd
    · rw [unlessDirectory_disk]
      exact hd
  have hall : ∀ anchor names d, P d → P (makeAll anchor names d).1 := by
    intro anchor names
    induction names with
    | nil => exact fun d hd => hparent hd
    | cons name above ih =>
      intro d hd
      have habove := ih d hd
      simp only [makeAll]
      split
      · rename_i made hmade
        exact hmake hd hmade
      · split
        · rename_i between e hbetween
          rwa [hbetween] at habove
        · rename_i between done hbetween
          rw [hbetween] at habove
          exact hparent habove
      · rw [unlessDirectory_disk]
        exact hd
  exact hall p.anchor p.names.reverse d hd

theorem makeDirectories_adds (hd : d.IsTree) (p : Path) : d.Adds (d.makeDirectories p).1 := by
  apply makeDirectories_induct (P := d.Adds) _ (.refl hd)
  intro between q directory name hbetween hplace
  exact hbetween.trans (.put_vacant hbetween.tree hplace (by simp [Entry.IsLink]))

theorem write_adds (hd : d.IsTree) (hp : p.anchor ≠ .relative) {content : Bytes}
    (h : d.write p content = .ok d') : d.Adds d' := by
  obtain ⟨place, hplace, h⟩ := bind_eq_ok.mp h
  rw [mapError_eq_ok] at hplace
  cases place with
  | vacant directory name =>
    cases h
    exact .put_vacant hd hplace (by simp [Entry.IsLink])
  | taken location =>
    obtain ⟨e, hentry, hlink⟩ := locate_rooted hp hplace
    simp only [hentry] at h
    cases e with
    | directory => cases h
    | link target => exact absurd ⟨target, rfl⟩ hlink
    | device =>
      cases h
      exact .refl hd
    | file old =>
      cases h
      cases location with
      | nil => cases hentry
      | cons name above =>
        have hthere : d.entry? (name :: above) ≠ none := by
          rw [hentry]
          exact Option.some_ne_none _
        refine .put hd (hd.named hthere) (hd.within hthere) (by simp [Entry.IsLink]) ?_
        intro other hother
        cases hentry.symm.trans hother
        rfl

end Disk

namespace Output

theorem write_adds {d : Disk} (hd : d.IsTree) (options : Options) (name text : String) :
    d.Adds (write d options name text).1 := by
  have hwrites := write_writes d options name text
  have hparent : ∀ {path between made}, d.makeDirectories path = (between, made) →
      d.Adds between := by
    intro path between made h
    have hadds := Disk.makeDirectories_adds hd path
    rwa [h] at hadds
  generalize (write d options name text).1 = after at hwrites
  generalize (write d options name text).2 = result at hwrites
  cases hwrites with
  | unnamed => exact .refl hd
  | blocked _ hmade => exact hparent hmade
  | failed _ hmade _ => exact hparent hmade
  | written hpath hmade hwrite =>
    have hbetween := hparent hmade
    exact hbetween.trans (Disk.write_adds hbetween.tree (resolve_anchor hd.absolute hpath) hwrite)

end Output

namespace Pipeline

theorem settle_adds {d : Disk} (hd : d.IsTree) (options : Output.Options) (event : Event) :
    d.Adds (settle options d event).1 := by
  cases event with
  | file f =>
    rw [settle_file]
    exact Output.write_adds hd options f.name f.text
  | _ => exact .refl hd

theorem extractFile_adds {d : Disk} (hd : d.IsTree) (sources : List Source)
    (options : Output.Options) (p : Path) : d.Adds (extractFile sources options d p).disk := by
  rw [extractFile_eq_feed]
  dsimp only
  generalize (read sources d p).events.items = events
  induction events generalizing d with
  | nil => exact .refl hd
  | cons event rest ih =>
    have hfirst := settle_adds hd options event
    exact hfirst.trans (ih hfirst.tree)

end Pipeline
end SourceRecovery
