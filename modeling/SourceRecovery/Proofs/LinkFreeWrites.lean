import SourceRecovery.Proofs.Containment
import SourceRecovery.Proofs.TreeWrites
import SourceRecovery.Proofs.WriteEffect

/-! Writing on a disk without links. What a request does and answers is what its tree decides: a
walk along a path leads as far as its names are there, so the directories made on the way and the
file are those that putting it into the tree adds. -/
namespace SourceRecovery

namespace Path

theorem Canonical.parent {p : Path} (h : p.Canonical) : p.parent.Canonical :=
  ⟨h.absolute, fun name hname => h.steps name (List.dropLast_subset _ hname)⟩

end Path

namespace Disk

theorem intercalate_dropLast_le (names : List String) :
    ("/".intercalate names.dropLast).utf8ByteSize ≤ ("/".intercalate names).utf8ByteSize := by
  rcases List.eq_nil_or_concat names with rfl | ⟨front, last, rfl⟩
  · exact Nat.le_refl _
  · rw [List.concat_eq_append, List.dropLast_concat]
    by_cases hfront : front = []
    · subst hfront
      exact Nat.zero_le _
    · rw [String.intercalate_append_of_ne_nil hfront (List.cons_ne_nil last []),
        String.utf8ByteSize_append, String.utf8ByteSize_append, Nat.add_assoc]
      exact Nat.le_add_right _ _

theorem Admits.parent {p : Path} (h : Admits p) (hp : p.anchor ≠ .relative) : Admits p.parent := by
  obtain ⟨anchor, names⟩ := p
  refine ⟨?_, Nat.lt_of_le_of_lt ?_ h.fits⟩
  · refine List.any_eq_false.mpr fun name hname => ?_
    exact List.any_eq_false.mp h.no_zero name (List.dropLast_subset _ hname)
  · cases anchor with
    | relative => exact absurd rfl hp
    | root =>
      simp only [Path.render, Path.parent, String.utf8ByteSize_append]
      exact Nat.add_le_add_left (intercalate_dropLast_le names) _
    | doubleRoot =>
      simp only [Path.render, Path.parent, String.utf8ByteSize_append]
      exact Nat.add_le_add_left (intercalate_dropLast_le names) _

/-- A disk without links, used by a process whose working directory has a path from the root. -/
structure LinkFree (d : Disk) : Prop where
  base : d.workingDirectory.Canonical
  no_link : ∀ location target, d.entry? location ≠ some (.link target)

variable {d d' : Disk} {follow : Bool} {l : Location} {name : String}

theorem walk_step (hd : d.LinkFree) (here : Location) (hstep : Path.IsStep name) :
    d.walk follow here [name] =
      if d.entry? here ≠ some .directory then .refused .notDirectory
      else if nameMax < name.utf8ByteSize then .refused .nameTooLong
      else if d.entry? (name :: here) = none then .vacant here name
      else .arrived (name :: here) := by
  rw [walk, if_neg hstep.not_here, if_neg hstep.not_up]
  refine ite_congr rfl (fun _ => rfl) fun _ => ite_congr rfl (fun _ => rfl) fun _ => ?_
  cases he : d.entry? (name :: here) with
  | none => rfl
  | some e =>
    cases e with
    | link target => exact absurd he (hd.no_link _ target)
    | _ => rfl

theorem entry?_of_made (h : Tree.Made d.entry? l) : d.entry? l = some .directory := by
  cases l with
  | nil => rfl
  | cons name above => exact h.2.2

theorem walk_concat (hd : d.LinkFree) (here : Location) (names : List String) :
    d.walk follow here (names ++ [name]) =
      match d.walk follow here names with
      | .arrived l => d.walk follow l [name]
      | .vacant _ _ => .refused .noEntry
      | w => w := by
  fun_induction walk d follow here names with
  | case1 => rfl
  | case2 here first rest hhere =>
    rw [List.cons_append, walk, if_pos hhere]
  | case3 here rest hhere ih =>
    rw [List.cons_append, walk, if_neg hhere, if_pos rfl]
    exact ih
  | case4 here rest hhere hstay ih =>
    rw [List.cons_append, walk, if_neg hhere, if_neg hstay, if_pos rfl]
    exact ih
  | case5 here first rest hhere hstay hup hlong =>
    rw [List.cons_append, walk, if_neg hhere, if_neg hstay, if_neg hup, if_pos hlong]
  | case6 here first rest hhere hstay hup hlong hnone hrest =>
    rw [List.cons_append, walk, if_neg hhere, if_neg hstay, if_neg hup, if_neg hlong, hnone]
    simp
  | case7 here first rest hhere hstay hup hlong hnone hrest =>
    rw [List.cons_append, walk, if_neg hhere, if_neg hstay, if_neg hup, if_neg hlong, hnone]
    simp
  | case8 here first rest hhere hstay hup hlong target hlink =>
    exact absurd hlink (hd.no_link _ target)
  | case9 here first rest hhere hstay hup hlong target hlink =>
    exact absurd hlink (hd.no_link _ target)
  | case10 here first rest hhere hstay hup hlong e hkind hentry ih =>
    rw [List.cons_append, walk, if_neg hhere, if_neg hstay, if_neg hup, if_neg hlong, hentry]
    cases e with
    | link target => exact absurd hentry (hd.no_link _ target)
    | _ => exact ih

inductive Leads (t : Tree) : Location → Walk → Prop
  | root : Leads t [] (.arrived [])
  | found {name above e} (habove : t.Made above) (hfits : name.utf8ByteSize ≤ nameMax)
      (hentry : t (name :: above) = some e) : Leads t (name :: above) (.arrived (name :: above))
  | vacant {name above} (habove : t.Made above) (hfits : name.utf8ByteSize ≤ nameMax)
      (hnone : t (name :: above) = none) : Leads t (name :: above) (.vacant above name)
  | lost {name above} (habove : ¬ t.Made above) : Leads t (name :: above) (.refused .noEntry)
  | blocked {name above cause} (hcause : cause = .notDirectory ∨ cause = .nameTooLong)
      (hclosed : ¬ (t.Open above ∧ name.utf8ByteSize ≤ nameMax))
      (hmade : ∀ s, s <:+ above → t.Open s → t.Made s) : Leads t (name :: above) (.refused cause)

/-- Once all above it is made, the last name decides. -/
theorem leads_step (hd : d.LinkFree) (follow : Bool) (hstep : Path.IsStep name)
    (habove : Tree.Made d.entry? l) : Leads d.entry? (name :: l) (d.walk follow l [name]) := by
  rw [walk_step hd l hstep, if_neg (not_not_intro (entry?_of_made habove))]
  split
  · rename_i hlong
    exact .blocked (.inr rfl) (fun h => absurd h.2 (Nat.not_le.mpr hlong))
      fun s hs _ => habove.of_suffix hs
  · rename_i hfits
    have hfits := Nat.le_of_not_lt hfits
    split
    · rename_i hnone
      exact .vacant habove hfits hnone
    · rename_i hsome
      obtain ⟨e, he⟩ := Option.ne_none_iff_exists'.mp hsome
      exact .found habove hfits he

theorem leads_walk (hd : d.LinkFree) (follow : Bool) (hl : ∀ name ∈ l, Path.IsStep name) :
    Leads d.entry? l (d.walk follow [] l.reverse) := by
  induction l with
  | nil => exact .root
  | cons name above ih =>
    obtain ⟨hstep, hsteps⟩ := List.forall_mem_cons.mp hl
    rw [List.reverse_cons, walk_concat hd]
    have hwalk := ih hsteps
    generalize d.walk follow [] above.reverse = w at hwalk
    cases hwalk with
    | root => exact leads_step hd follow hstep trivial
    | @found last before e habove hfits hentry =>
      by_cases hdirectory : e = .directory
      · subst hdirectory
        exact leads_step hd follow hstep ⟨habove, hfits, hentry⟩
      · have hclosed := Tree.not_open_of_entry hentry hdirectory
        have hblocked : d.walk follow (last :: before) [name] = .refused .notDirectory := by
          rw [walk_step hd _ hstep, if_pos]
          rw [hentry]
          exact fun h => hdirectory (Option.some.inj h)
        simp only [hblocked]
        exact .blocked (.inl rfl) (fun h => hclosed h.1)
          (Tree.made_of_closed hclosed fun s hs _ => habove.of_suffix hs)
    | vacant _ _ hnone =>
      refine .lost fun hmade => ?_
      cases hnone.symm.trans hmade.2.2
    | lost habove => exact .lost fun hmade => habove hmade.1
    | blocked hcause hclosed hmade =>
      exact .blocked hcause (fun h => hclosed ⟨h.1.1, h.1.2.1⟩)
        (Tree.made_of_closed (fun h => hclosed ⟨h.1, h.2.1⟩) hmade)

theorem walk_follow (hd : d.LinkFree) (here : Location) (names : List String) :
    d.walk follow here names = d.walk true here names := by
  fun_induction walk d follow here names with
  | case1 => rfl
  | case2 here name rest hhere => rw [walk, if_pos hhere]
  | case3 here rest hhere ih => rw [walk, if_neg hhere, if_pos rfl, ih]
  | case4 here rest hhere hstay ih => rw [walk, if_neg hhere, if_neg hstay, if_pos rfl, ih]
  | case5 here name rest hhere hstay hup hlong =>
    rw [walk, if_neg hhere, if_neg hstay, if_neg hup, if_pos hlong]
  | case6 here name rest hhere hstay hup hlong hnone hrest =>
    rw [walk, if_neg hhere, if_neg hstay, if_neg hup, if_neg hlong, hnone]
    exact (if_pos hrest).symm
  | case7 here name rest hhere hstay hup hlong hnone hrest =>
    rw [walk, if_neg hhere, if_neg hstay, if_neg hup, if_neg hlong, hnone]
    exact (if_neg hrest).symm
  | case8 here name rest hhere hstay hup hlong target hlink =>
    exact absurd hlink (hd.no_link _ target)
  | case9 here name rest hhere hstay hup hlong target hlink =>
    exact absurd hlink (hd.no_link _ target)
  | case10 here name rest hhere hstay hup hlong e hkind hentry ih =>
    rw [walk, if_neg hhere, if_neg hstay, if_neg hup, if_neg hlong, hentry]
    cases e with
    | link target => exact absurd hentry (hd.no_link _ target)
    | _ => exact ih

def placeOf (p : Path) : Walk → Except Error Place
  | .arrived l => .ok (.taken l)
  | .vacant directory name => .ok (.vacant directory name)
  | .refused cause => .error (.refused cause p)
  | .detour _ _ => .error (.refused .tooManyLinks p)

variable {p : Path}

theorem locate_leads (hd : d.LinkFree) (hp : p.Canonical) (h : Admits p) :
    ∃ w, Leads d.entry? p.location w ∧ ∀ follow, d.locate follow p = placeOf p w := by
  have hleads : Leads d.entry? p.location (d.walk true [] p.location.reverse) :=
    leads_walk hd true fun name hname => hp.steps name (List.mem_reverse.mp hname)
  rw [show p.location.reverse = p.names from List.reverse_reverse _] at hleads
  refine ⟨_, hleads, fun follow => ?_⟩
  have hstart : d.start p = [] := by
    unfold start
    split
    · rename_i hrelative
      exact absurd hrelative hp.absolute
    · rfl
  rw [locate, if_neg (Bool.eq_false_iff.mp h.no_zero), if_neg (Nat.not_le.mpr h.fits), hstart,
    resolve, walk_follow hd]
  -- A walk that leads somewhere takes no detour.
  generalize d.walk true [] p.names = w at hleads
  generalize p.location = l at hleads
  cases hleads <;> rfl

theorem LinkFree.stat_eq (hd : d.LinkFree) (hp : p.Canonical) (h : Admits p)
    (habove : Tree.Made d.entry? p.location.tail)
    (hfits : (p.location.headD "").utf8ByteSize ≤ nameMax) {e : Entry}
    (he : d.entry? p.location = some e) : d.stat p = .ok (p.location, e) := by
  obtain ⟨w, hleads, hlocate⟩ := locate_leads hd hp h
  apply stat_eq_ok_iff.mpr
  rw [hlocate]
  refine ⟨?_, he⟩
  generalize p.location = l at *
  cases hleads with
  | root | found => rfl
  | vacant _ _ hnone => cases hnone.symm.trans he
  | lost hlost => exact absurd habove hlost
  | blocked _ hclosed => exact absurd ⟨habove.isOpen, hfits⟩ hclosed

theorem locate_of_not_admits (h : ¬ Admits p) :
    ∃ e, (∀ d follow, locate d follow p = .error e) ∧
      (e = .zeroInPath ∨ e = .refused .nameTooLong p) := by
  by_cases hzero : p.names.any (·.toList.contains '\x00') = true
  · exact ⟨_, fun d follow => by rw [locate, if_pos hzero], .inl rfl⟩
  · have hlong : pathMax ≤ p.render.utf8ByteSize :=
      Nat.not_lt.mp fun hfits => h ⟨Bool.eq_false_iff.mpr hzero, hfits⟩
    exact ⟨_, fun d follow => by rw [locate, if_neg hzero, if_pos hlong], .inr rfl⟩

theorem withDirectories_eq_self (h : ∀ s, s <:+ l → Tree.Open d.entry? s → Tree.Made d.entry? s) :
    Tree.withDirectories d.entry? l = d.entry? := by
  funext s
  by_cases hs : s <:+ l ∧ Tree.Open d.entry? s
  · rw [Tree.withDirectories_of_open hs.1 hs.2, entry?_of_made (h s hs.1 hs.2)]
  · exact Tree.withDirectories_of_not hs

/-- A request for a directory at a location has made all directories that it could on the way, and
it was granted exactly if that is all of them. -/
structure MakesWay (d : Disk) (l : Location) (c : Change) : Prop where
  tree : Disk.entry? c.1 = Tree.withDirectories d.entry? l
  workingDirectory : c.1.workingDirectory = d.workingDirectory
  granted : c.2 = .ok () ↔ Tree.Open d.entry? l

theorem makesWay_refused {e : Error} (hclosed : ¬ Tree.Open d.entry? l)
    (hmade : ∀ s, s <:+ l → Tree.Open d.entry? s → Tree.Made d.entry? s) :
    MakesWay d l (d, .error e) :=
  ⟨(withDirectories_eq_self hmade).symm, rfl, iff_of_false (fun h => by cases h) hclosed⟩

theorem makesWay_made (hmade : Tree.Made d.entry? l) : MakesWay d l (d, .ok ()) :=
  ⟨(withDirectories_eq_self fun _ hs _ => hmade.of_suffix hs).symm, rfl,
    iff_of_true rfl hmade.isOpen⟩

theorem makesWay_put {above : Location} (hmade : Tree.Made d.entry? above)
    (hfits : name.utf8ByteSize ≤ nameMax) (hnone : d.entry? (name :: above) = none) :
    MakesWay d (name :: above) (d.put (name :: above) .directory, .ok ()) := by
  have hopen : Tree.Open d.entry? (name :: above) := ⟨hmade.isOpen, hfits, .inl hnone⟩
  refine ⟨funext fun s => ?_, rfl, iff_of_true rfl hopen⟩
  by_cases hs : s = name :: above
  · subst hs
    rw [entry?_put_self d .directory (List.cons_ne_nil name above),
      Tree.withDirectories_of_open (List.suffix_refl _) hopen]
  · rw [entry?_put_of_ne d .directory hs]
    by_cases hway : s <:+ name :: above ∧ Tree.Open d.entry? s
    · rw [Tree.withDirectories_of_open hway.1 hway.2]
      exact entry?_of_made (hmade.of_suffix ((List.suffix_cons_iff.mp hway.1).resolve_left hs))
    · rw [Tree.withDirectories_of_not hway]

theorem makeDirectory_eq (d : Disk) (p : Path) (w : Walk) : d.locate false p = placeOf p w →
    d.makeDirectory p = match w with
      | .vacant directory name => .ok (d.put (name :: directory) .directory)
      | .arrived _ => .error (.refused .exists p)
      | .refused cause => .error (.refused cause p)
      | .detour _ _ => .error (.refused .tooManyLinks p) := by
  intro h
  rw [makeDirectory, h]
  cases w <;> rfl

theorem isDirectory_eq (d : Disk) (p : Path) (w : Walk) : d.locate true p = placeOf p w →
    d.isDirectory p = match w with
      | .arrived l => .ok <| decide <| d.entry? l = some .directory
      | .refused cause => orAbsent false (.error (.refused cause p))
      | .vacant _ _ | .detour _ _ => .ok false := by
  intro h
  rw [isDirectory, stat, h]
  cases w with
  | arrived l =>
    cases he : d.entry? l with
    | none => simp [placeOf, he, bind, Except.bind, Except.map, orAbsent, Error.isAbsence]
    | some e => simp [placeOf, he, bind, Except.bind, Except.map, orAbsent]
  | _ => rfl

theorem Leads.not_lost {t : Tree} {above : Location} {w : Walk} (h : Leads t (name :: above) w)
    (habove : t.Made above) : w ≠ .refused .noEntry := by
  cases h with
  | lost hlost => exact absurd habove hlost
  | blocked hcause => rcases hcause with rfl | rfl <;> simp
  | _ => simp

theorem makeInParent_makesWay {w : Walk} (hleads : Leads d.entry? l w)
    (hlocate : ∀ follow, d.locate follow p = placeOf p w) (hw : w ≠ .refused .noEntry) :
    MakesWay d l (d.makeInParent p) := by
  have hmake := makeDirectory_eq d p w (hlocate false)
  have hdirectory := isDirectory_eq d p w (hlocate true)
  cases hleads with
  | root =>
    have hgranted : d.makeInParent p = (d, .ok ()) := by
      simp only [makeInParent, hmake, unlessDirectory, hdirectory]
      rfl
    rw [hgranted]
    exact makesWay_made trivial
  | @found name above e hmade hfits hentry =>
    have hway : d.makeInParent p = if e = .directory then (d, .ok ()) else
        (d, .error (.refused .exists p)) := by
      simp only [makeInParent, hmake, unlessDirectory, hdirectory, hentry, Option.some.injEq]
      by_cases he : e = .directory <;> simp [he]
    rw [hway]
    split
    · rename_i he
      subst he
      exact makesWay_made ⟨hmade, hfits, hentry⟩
    · rename_i he
      have hclosed := Tree.not_open_of_entry hentry he
      exact makesWay_refused hclosed
        (Tree.made_of_closed hclosed fun s hs _ => hmade.of_suffix hs)
  | @vacant name above hmade hfits hnone =>
    have hway : d.makeInParent p = (d.put (name :: above) .directory, .ok ()) := by
      simp only [makeInParent, hmake]
    rw [hway]
    exact makesWay_put hmade hfits hnone
  | lost => exact absurd rfl hw
  | @blocked name above cause hcause hclosed hmade =>
    have hway : d.makeInParent p = (d, .error (.refused cause p)) := by
      rcases hcause with rfl | rfl
      · simp only [makeInParent, hmake, unlessDirectory, hdirectory]
        rfl
      · simp only [makeInParent, hmake, unlessDirectory, hdirectory]
        rfl
    have hclosed' : ¬ Tree.Open d.entry? (name :: above) := fun h => hclosed ⟨h.1, h.2.1⟩
    rw [hway]
    exact makesWay_refused hclosed' (Tree.made_of_closed hclosed' hmade)

theorem MakesWay.linkFree {c : Change} (h : MakesWay d l c) (hd : d.LinkFree) : c.1.LinkFree := by
  refine ⟨h.workingDirectory ▸ hd.base, fun location target hlink => ?_⟩
  rw [h.tree] at hlink
  by_cases hs : location <:+ l ∧ Tree.Open d.entry? location
  · rw [Tree.withDirectories_of_open hs.1 hs.2] at hlink
    cases hlink
  · rw [Tree.withDirectories_of_not hs] at hlink
    exact hd.no_link location target hlink

theorem MakesWay.trans {s : Location} {c c' : Change} (h : MakesWay d s c) (hs : s <:+ l)
    (h' : MakesWay c.1 l c') : MakesWay d l c' := by
  refine ⟨?_, h'.workingDirectory.trans h.workingDirectory, ?_⟩
  · rw [h'.tree, h.tree, Tree.withDirectories_withDirectories hs]
  · rw [h'.granted, h.tree, Tree.withDirectories_open_iff]

theorem makeAll_makesWay {anchor : Anchor} (hd : d.LinkFree)
    (hp : Path.Canonical ⟨anchor, l.reverse⟩) (h : Admits ⟨anchor, l.reverse⟩) :
    MakesWay d l (makeAll anchor l d) := by
  induction l generalizing d with
  | nil =>
    obtain ⟨w, hleads, hlocate⟩ := locate_leads hd hp h
    refine makeInParent_makesWay hleads hlocate ?_
    rintro rfl
    cases hleads
  | cons name above ih =>
    have hparent : Path.parent ⟨anchor, (name :: above).reverse⟩ = ⟨anchor, above.reverse⟩ := by
      rw [Path.parent, List.reverse_cons, List.dropLast_concat]
    have hattempt : ∀ {d : Disk}, d.LinkFree → ∃ w, Leads d.entry? (name :: above) w ∧
        ∀ follow, d.locate follow ⟨anchor, (name :: above).reverse⟩ =
          placeOf ⟨anchor, (name :: above).reverse⟩ w := by
      intro d hd
      obtain ⟨w, hleads, hlocate⟩ := locate_leads hd hp h
      rw [Path.location, List.reverse_reverse] at hleads
      exact ⟨w, hleads, hlocate⟩
    obtain ⟨w, hleads, hlocate⟩ := hattempt hd
    have hmake := makeDirectory_eq d _ w (hlocate false)
    by_cases hw : w = .refused .noEntry
    · subst hw
      have habove := ih hd (hparent ▸ hp.parent) (hparent ▸ h.parent hp.absolute)
      have hsuffix : above <:+ name :: above := List.suffix_cons name above
      simp only [makeAll, hmake]
      generalize makeAll anchor above d = c at habove
      obtain ⟨between, e | done⟩ := c
      · -- What is above could not be made, let alone this.
        have hclosed : ¬ Tree.Open d.entry? (name :: above) := fun hopen => by
          cases habove.granted.mpr hopen.1
        refine ⟨?_, habove.workingDirectory, iff_of_false (fun h => by cases h) hclosed⟩
        rw [habove.tree, Tree.withDirectories_of_closed hclosed]
      · obtain ⟨w', hleads', hlocate'⟩ := hattempt (habove.linkFree hd)
        refine habove.trans hsuffix (makeInParent_makesWay hleads' hlocate' (hleads'.not_lost ?_))
        rw [habove.tree]
        exact Tree.withDirectories_made (habove.granted.mp rfl)
    · have hsame : makeAll anchor (name :: above) d =
          d.makeInParent ⟨anchor, (name :: above).reverse⟩ := by
        cases hleads with
        | lost => exact absurd rfl hw
        | found | vacant => simp only [makeAll, makeInParent, hmake]
        | blocked hcause =>
          rcases hcause with rfl | rfl <;> simp only [makeAll, makeInParent, hmake]
      exact hsame ▸ makeInParent_makesWay hleads hlocate hw

theorem makeDirectories_makesWay (hd : d.LinkFree) (hp : p.Canonical) (h : Admits p) :
    MakesWay d p.location (d.makeDirectories p) := by
  have hsame : (⟨p.anchor, p.location.reverse⟩ : Path) = p := by
    rw [Path.location, List.reverse_reverse]
  exact makeAll_makesWay hd (hsame.symm ▸ hp) (hsame.symm ▸ h)

/-- For a path that the file system does not look at, nothing is made. -/
theorem makeDirectories_of_not_admits (d : Disk) (h : ¬ Admits p) :
    ∃ e, d.makeDirectories p = (d, .error e) := by
  obtain ⟨e, hlocate, hkind⟩ := locate_of_not_admits h
  have hmake : d.makeDirectory p = .error e := by
    rw [makeDirectory, hlocate]
    rfl
  have hunless : d.unlessDirectory p e = (d, .error e) := by
    rcases hkind with rfl | rfl
    · rfl
    · simp only [unlessDirectory, isDirectory, stat, hlocate]
      rfl
  refine ⟨e, ?_⟩
  obtain ⟨anchor, names⟩ := p
  rw [makeDirectories]
  cases hnames : names.reverse with
  | nil =>
    obtain rfl := List.reverse_eq_nil_iff.mp hnames
    rcases hkind with rfl | rfl <;> simp only [makeAll, makeInParent, hmake, hunless]
  | cons name above =>
    have hsame : (name :: above).reverse = names := by rw [← hnames, List.reverse_reverse]
    rcases hkind with rfl | rfl <;> simp only [makeAll, hsame, hmake, hunless]

variable {between : Disk}

structure Prepares (d : Disk) (p : Path) (c : Change) : Prop where
  tree : Disk.entry? c.1 = Tree.prepared d.entry? p
  workingDirectory : c.1.workingDirectory = d.workingDirectory
  linkFree : c.1.LinkFree
  granted : c.2 = .ok () ↔ Admits p.parent ∧ Tree.Open d.entry? p.location.tail

theorem makeDirectories_prepares (hd : d.LinkFree) (hp : p.Canonical) :
    Prepares d p (d.makeDirectories p.parent) := by
  by_cases hadmits : Admits p.parent
  · have hmakes := makeDirectories_makesWay hd hp.parent hadmits
    rw [Path.parent_location] at hmakes
    refine ⟨?_, hmakes.workingDirectory, hmakes.linkFree hd, ?_⟩
    · rw [hmakes.tree, Tree.prepared_of_admits hadmits]
    · exact hmakes.granted.trans (and_iff_right hadmits).symm
  · obtain ⟨e, he⟩ := makeDirectories_of_not_admits d hadmits
    rw [he]
    refine ⟨?_, rfl, hd, iff_of_false (fun h => by cases h) fun h => hadmits h.1⟩
    rw [Tree.prepared_of_not_admits hadmits]

theorem Prepares.not_accepts {answer : Except Error Unit} (h : Prepares d p (between, answer))
    (hrefused : answer ≠ .ok ()) :
    ¬ Tree.Accepts d.entry? p := by
  intro haccepts
  exact hrefused (h.granted.mpr ⟨haccepts.1, haccepts.2.2.open_above⟩)

theorem Prepares.made (h : Prepares d p (between, .ok ())) :
    Tree.Made between.entry? p.location.tail := by
  obtain ⟨hadmits, hopen⟩ := h.granted.mp rfl
  rw [h.tree, Tree.prepared_of_admits hadmits]
  exact Tree.withDirectories_made hopen

theorem Prepares.accepts_iff (h : Prepares d p (between, .ok ())) :
    Tree.Accepts d.entry? p ↔ Admits p ∧ Tree.Receives between.entry? p.location := by
  rw [h.tree, Tree.receives_prepared]
  exact and_iff_right (h.granted.mp rfl).1

end Disk

namespace Output

open Disk

def WriteIssue.unexplained (i : WriteIssue) : WriteIssue := { i with reason := "" }

def placement (base : Path) (options : Options) (name text : String) : Placement :=
  ⟨(resolve base options name).toOption, markedBytes text⟩

def answer (base : Path) (options : Options) (name text : String) (taken : Bool) :
    Except WriteIssue WrittenFile :=
  match resolve base options name with
  | .error _ => .error ⟨name, ""⟩
  | .ok path =>
    if taken then .ok ⟨path, name, (markedBytes text).length⟩ else .error ⟨path.render, ""⟩

/-- A request to write a document does and answers what the tree alone decides. -/
structure Follows (d : Disk) (options : Options) (name text : String) (after : Disk)
    (result : Except WriteIssue WrittenFile) : Prop where
  tree : after.entry? = Tree.put d.entry? (placement d.workingDirectory options name text)
  workingDirectory : after.workingDirectory = d.workingDirectory
  answered : result.mapError WriteIssue.unexplained =
    answer d.workingDirectory options name text
      (decide (Tree.Takes d.entry? (placement d.workingDirectory options name text)))

theorem put_file_entry? (d : Disk) {l : Location} (hl : l ≠ [])
    (hdevice : d.entry? l ≠ some .device) (content : Bytes) (s : Location) :
    entry? (d.put l (.file content)) s =
      if s = l ∧ d.entry? s ≠ some .device then some (.file content) else d.entry? s := by
  by_cases hs : s = l
  · subst hs
    rw [entry?_put_self d _ hl, if_pos ⟨rfl, hdevice⟩]
  · rw [entry?_put_of_ne d _ hs, if_neg fun h => hs h.1]

theorem write_in_directory {d : Disk} {p : Path} (hd : d.LinkFree) (hp : p.Canonical)
    (habove : Tree.Made d.entry? p.location.tail) (content : Bytes) :
    (Admits p ∧ Tree.Receives d.entry? p.location → ∃ after, d.write p content = .ok after ∧
      after.workingDirectory = d.workingDirectory ∧ ∀ s, after.entry? s =
        if s = p.location ∧ d.entry? s ≠ some .device then some (.file content)
        else d.entry? s) ∧
    (¬ (Admits p ∧ Tree.Receives d.entry? p.location) → ∃ e, d.write p content = .error e) := by
  by_cases hadmits : Admits p
  · obtain ⟨w, hleads, hlocate⟩ := locate_leads hd hp hadmits
    rw [Disk.write, hlocate]
    generalize p.location = l at hleads habove
    cases hleads with
    | root => exact ⟨fun h => h.2.elim, fun _ => ⟨_, rfl⟩⟩
    | @found name above e hmade hfits hentry =>
      have hl : name :: above ≠ [] := List.cons_ne_nil name above
      have hhere : Tree.Receives d.entry? (name :: above) ↔ e ≠ .directory := by
        simp [Tree.Receives, hmade.isOpen, hfits, hentry]
      simp only [placeOf, mapError_ok, bind, Except.bind, hentry, hhere]
      cases e with
      | directory => exact ⟨fun h => absurd rfl h.2, fun _ => ⟨_, rfl⟩⟩
      | link target => exact absurd hentry (hd.no_link _ target)
      | device =>
        refine ⟨fun _ => ⟨d, rfl, rfl, fun s => (if_neg ?_).symm⟩,
          fun h => absurd ⟨hadmits, by simp⟩ h⟩
        rintro ⟨rfl, hother⟩
        exact hother hentry
      | file old =>
        exact ⟨fun _ => ⟨_, rfl, rfl, put_file_entry? d hl (by simp [hentry]) content⟩,
          fun h => absurd ⟨hadmits, by simp⟩ h⟩
    | @vacant name above hmade hfits hnone =>
      exact ⟨fun _ => ⟨_, rfl, rfl,
          put_file_entry? d (List.cons_ne_nil name above) (by simp [hnone]) content⟩,
        fun h => absurd ⟨hadmits, hmade.isOpen, hfits, by simp [hnone]⟩ h⟩
    | lost hlost => exact absurd habove hlost
    | blocked _ hclosed => exact ⟨fun h => absurd ⟨h.2.1, h.2.2.1⟩ hclosed, fun _ => ⟨_, rfl⟩⟩
  · obtain ⟨e, hlocate, _⟩ := locate_of_not_admits hadmits
    refine ⟨fun h => absurd h.1 hadmits, fun _ => ⟨d.whenMaking p e, ?_⟩⟩
    rw [Disk.write, hlocate]
    rfl

section

variable {d after : Disk} {options : Options} {name text : String} {path : Path}

theorem placement_of_resolve (h : resolve d.workingDirectory options name = .ok path) :
    placement d.workingDirectory options name text = ⟨some path, markedBytes text⟩ := by
  rw [placement, h]
  rfl

theorem Follows.refused (hpath : resolve d.workingDirectory options name = .ok path)
    (hnot : ¬ Tree.Accepts d.entry? path) (htree : after.entry? = Tree.prepared d.entry? path)
    (hworking : after.workingDirectory = d.workingDirectory) (reason : String) :
    Follows d options name text after (.error ⟨path.render, reason⟩) := by
  refine ⟨?_, hworking, ?_⟩
  · rw [htree, placement_of_resolve hpath]
    exact (Tree.written_of_not_accepts hnot).symm
  · rw [placement_of_resolve hpath, answer, hpath]
    exact (if_neg fun h => hnot (Tree.takes_some.mp (of_decide_eq_true h))).symm

theorem Follows.granted (hpath : resolve d.workingDirectory options name = .ok path)
    (htaken : Tree.Accepts d.entry? path)
    (hentries : ∀ s, after.entry? s =
      if s = path.location ∧ Tree.prepared d.entry? path s ≠ some .device then
        some (.file (markedBytes text))
      else Tree.prepared d.entry? path s)
    (hworking : after.workingDirectory = d.workingDirectory) :
    Follows d options name text after (.ok ⟨path, name, (markedBytes text).length⟩) := by
  refine ⟨funext fun s => ?_, hworking, ?_⟩
  · rw [hentries, placement_of_resolve hpath]
    by_cases hs : s = path.location
    · subst hs
      have hsame := Tree.prepared_at_location (t := d.entry?) htaken.location_ne_nil
      simp only [Tree.put, Tree.written, Tree.Fills, hsame, htaken, true_and]
    · rw [if_neg fun h => hs h.1]
      exact (Tree.written_of_not_fills fun h => hs h.1).symm
  · rw [placement_of_resolve hpath, answer, hpath]
    exact (if_pos (decide_eq_true (Tree.takes_some.mpr htaken))).symm

end

theorem write_follows {d : Disk} (hd : d.LinkFree) (destination : String) (contain : Bool)
    (name text : String) :
    let options : Options := ⟨Path.ofString destination, contain⟩
    Follows d options name text (write d options name text).1 (write d options name text).2 := by
  intro options
  have hwrites := write_writes d options name text
  generalize (write d options name text).1 = after at hwrites
  generalize (write d options name text).2 = result at hwrites
  have hprepares : ∀ {path between made}, resolve d.workingDirectory options name = .ok path →
      d.makeDirectories path.parent = (between, made) → Prepares d path (between, made) := by
    intro path between made hpath hparent
    exact hparent ▸ makeDirectories_prepares hd (resolve_canonical hd.base hpath)
  cases hwrites with
  | unnamed hpath =>
    have hplace : placement d.workingDirectory options name text = ⟨none, markedBytes text⟩ := by
      rw [placement, hpath]
      rfl
    exact ⟨by rw [hplace]; rfl, rfl, by rw [answer, hpath]; rfl⟩
  | blocked hpath hparent =>
    have hway := hprepares hpath hparent
    exact .refused hpath (hway.not_accepts fun h => by cases h) hway.tree hway.workingDirectory _
  | @failed path _ _ hpath hparent hwrite =>
    have hway := hprepares hpath hparent
    obtain ⟨hwritten, _⟩ := write_in_directory hway.linkFree (resolve_canonical hd.base hpath)
      hway.made (markedBytes text)
    have hnot : ¬ Tree.Accepts d.entry? path := by
      intro h
      obtain ⟨after, hafter, _⟩ := hwritten (hway.accepts_iff.mp h)
      cases hwrite.symm.trans hafter
    exact .refused hpath hnot hway.tree hway.workingDirectory _
  | @written path _ after hpath hparent hwrite =>
    have hway := hprepares hpath hparent
    obtain ⟨hwritten, hrefused⟩ := write_in_directory hway.linkFree
      (resolve_canonical hd.base hpath) hway.made (markedBytes text)
    have htaken : Tree.Accepts d.entry? path := by
      refine hway.accepts_iff.mpr (Decidable.not_not.mp fun hnot => ?_)
      obtain ⟨e, he⟩ := hrefused hnot
      cases hwrite.symm.trans he
    obtain ⟨after', hafter, hworking, hentries⟩ := hwritten (hway.accepts_iff.mp htaken)
    cases hwrite.symm.trans hafter
    rw [hway.tree] at hentries
    exact .granted hpath htaken hentries (hworking.trans hway.workingDirectory)

end Output
end SourceRecovery
