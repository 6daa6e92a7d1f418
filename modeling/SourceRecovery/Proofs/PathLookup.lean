import SourceRecovery.Disk.Change
import SourceRecovery.Proofs.Sequences

/-! Looking up a path on a disk that grows. A walk along names is a relation with a case for each
way to go on, so what it depends on can be read off: an entry found once stays found, and a name
that was vacant leads to what is put there. -/
namespace SourceRecovery

def Entry.kind : Entry → Entry
  | .file _ => .file []
  | e => e

def Entry.IsLink (e : Entry) : Prop := ∃ target, e = .link target

theorem Entry.isLink_of_kind_eq {e e' : Entry} (h : e'.kind = e.kind) (hlink : e'.IsLink) :
    e.IsLink := by
  obtain ⟨target, rfl⟩ := hlink
  cases e <;> simp_all [Entry.kind, Entry.IsLink]

theorem Entry.eq_of_kind_eq {e e' : Entry} (h : e'.kind = e.kind)
    (hfile : ∀ content, e ≠ .file content) : e' = e := by
  cases e <;> cases e' <;> simp_all [Entry.kind]

namespace Disk

theorem lookup_cons_eq (entries : List (Location × Entry)) (location other : Location) (e : Entry) :
    ((location, e) :: entries).lookup other =
      if other = location then some e else entries.lookup other := by
  rw [List.lookup_cons]
  by_cases h : other = location
  · rw [if_pos h, h, beq_self_eq_true]
  · rw [if_neg h, beq_false_of_ne h]

theorem lookup_replace (entries : List (Location × Entry)) (location other : Location) (e : Entry) :
    (replace location e entries).lookup other =
      if other = location then some e else entries.lookup other := by
  induction entries with
  | nil => rw [replace, lookup_cons_eq]
  | cons entry rest ih =>
    obtain ⟨l, old⟩ := entry
    rw [replace]
    by_cases hl : l = location
    · subst hl
      rw [if_pos rfl, lookup_cons_eq, lookup_cons_eq]
      by_cases h : other = l
      · rw [if_pos h, if_pos h]
      · rw [if_neg h, if_neg h, if_neg h]
    · rw [if_neg hl, lookup_cons_eq, lookup_cons_eq, ih]
      by_cases h : other = l
      · subst h
        rw [if_pos rfl, if_pos rfl, if_neg hl]
      · rw [if_neg h, if_neg h]

theorem entry?_put_self (d : Disk) (e : Entry) {location : Location} (h : location ≠ []) :
    entry? (d.put location e) location = some e := by
  cases location with
  | nil => exact absurd rfl h
  | cons name above => exact (lookup_replace ..).trans (if_pos rfl)

theorem entry?_put_of_ne (d : Disk) (e : Entry) {location other : Location} (h : other ≠ location) :
    entry? (d.put location e) other = d.entry? other := by
  cases other with
  | nil => rfl
  | cons name above => exact (lookup_replace ..).trans (if_neg h)

theorem mem_entries_of_eq_some {d : Disk} {location : Location} {e : Entry}
    (h : d.entry? location = some e) : e = .directory ∨ (location, e) ∈ d.entries := by
  cases location with
  | nil =>
    cases h
    exact Or.inl rfl
  | cons name above =>
    obtain ⟨front, back, hentries, _⟩ := List.lookup_eq_some_iff.mp h
    exact Or.inr (hentries ▸ List.mem_append_right front List.mem_cons_self)

structure IsEntryName (name : String) : Prop where
  not_here : name ≠ "."
  not_up : name ≠ ".."
  fits : name.utf8ByteSize ≤ nameMax

/-- The ways in which a walk along names goes on until it is over or leaves by a link. -/
inductive Walks (d : Disk) (follow : Bool) : Location → List String → Walk → Prop
  | arrived {here} : Walks d follow here [] (.arrived here)
  | stay {here rest w} (hdirectory : d.entry? here = some .directory)
      (h : Walks d follow here rest w) : Walks d follow here ("." :: rest) w
  | up {here rest w} (hdirectory : d.entry? here = some .directory)
      (h : Walks d follow here.tail rest w) : Walks d follow here (".." :: rest) w
  | vacant {here name} (hdirectory : d.entry? here = some .directory) (hname : IsEntryName name)
      (hnone : d.entry? (name :: here) = none) : Walks d follow here [name] (.vacant here name)
  | detour {here name rest target} (hdirectory : d.entry? here = some .directory)
      (hname : IsEntryName name) (hlink : d.entry? (name :: here) = some (.link target))
      (hfollow : rest = [] → follow = true) :
      Walks d follow here (name :: rest)
        (.detour (if target.toList.head? = some '/' then [] else here) (targetNames target ++ rest))
  | unfollowed {here name target} (hdirectory : d.entry? here = some .directory)
      (hname : IsEntryName name) (hlink : d.entry? (name :: here) = some (.link target))
      (hfollow : follow = false) : Walks d follow here [name] (.arrived (name :: here))
  | down {here name rest e w} (hdirectory : d.entry? here = some .directory)
      (hname : IsEntryName name) (hentry : d.entry? (name :: here) = some e) (hkind : ¬ e.IsLink)
      (h : Walks d follow (name :: here) rest w) : Walks d follow here (name :: rest) w

variable {d d' d'' : Disk} {follow : Bool} {here location : Location} {names : List String}

theorem walks_of_walk_eq {w : Walk} (h : d.walk follow here names = w)
    (hw : ∀ cause, w ≠ .refused cause) : d.Walks follow here names w := by
  fun_induction walk d follow here names with
  | case1 =>
    cases h
    exact .arrived
  | case2 | case5 | case7 => exact absurd h.symm (hw _)
  | case3 here rest hdirectory ih => exact .stay (Decidable.not_not.mp hdirectory) (ih h)
  | case4 here rest hdirectory hhere ih => exact .up (Decidable.not_not.mp hdirectory) (ih h)
  | case6 here name rest hdirectory hhere hup hfits hnone hrest =>
    obtain rfl := List.isEmpty_iff.mp hrest
    exact h ▸ .vacant (Decidable.not_not.mp hdirectory) ⟨hhere, hup, Nat.le_of_not_lt hfits⟩ hnone
  | case8 here name rest hdirectory hhere hup hfits target hlink hlast =>
    obtain ⟨hrest, hfollow⟩ := (Bool.and_eq_true _ _).mp hlast
    obtain rfl := List.isEmpty_iff.mp hrest
    exact h ▸ .unfollowed (Decidable.not_not.mp hdirectory) ⟨hhere, hup, Nat.le_of_not_lt hfits⟩
      hlink ((Bool.not_eq_true' _).mp hfollow)
  | case9 here name rest hdirectory hhere hup hfits target hlink hgoes =>
    refine h ▸ .detour (Decidable.not_not.mp hdirectory) ⟨hhere, hup, Nat.le_of_not_lt hfits⟩
      hlink fun hrest => ?_
    subst hrest
    simpa using hgoes
  | case10 here name rest hdirectory hhere hup hfits e hkind hentry ih =>
    exact .down (Decidable.not_not.mp hdirectory) ⟨hhere, hup, Nat.le_of_not_lt hfits⟩ hentry
      (fun ⟨target, he⟩ => hkind target he) (ih h)

theorem walk_entry {name : String} {rest : List String}
    (hdirectory : d.entry? here = some .directory) (hname : IsEntryName name) :
    d.walk follow here (name :: rest) =
      match d.entry? (name :: here) with
      | none => if rest.isEmpty then .vacant here name else .refused .noEntry
      | some (.link target) =>
        if rest.isEmpty && !follow then .arrived (name :: here)
        else
          .detour (if target.toList.head? = some '/' then [] else here) (targetNames target ++ rest)
      | some _ => d.walk follow (name :: here) rest := by
  rw [walk, if_neg (not_not_intro hdirectory), if_neg hname.not_here, if_neg hname.not_up]
  exact if_neg (Nat.not_lt.mpr hname.fits)

theorem walk_dot (h : d.entry? here = some .directory) :
    d.walk follow here ("." :: names) = d.walk follow here names := by
  rw [walk, if_neg (not_not_intro h), if_pos rfl]

theorem resolve_dot (h : d.entry? here = some .directory) (walks : Nat) :
    d.resolve follow walks here ("." :: names) = d.resolve follow walks here names := by
  cases walks with
  | zero => rfl
  | succ walks => rw [resolve, resolve, walk_dot h]

theorem Walks.walk_eq {w : Walk} (h : d.Walks follow here names w) :
    d.walk follow here names = w := by
  induction h with
  | arrived => rfl
  | stay hdirectory _ ih => rw [walk, if_neg (not_not_intro hdirectory), if_pos rfl, ih]
  | up hdirectory _ ih =>
    rw [walk, if_neg (not_not_intro hdirectory), if_neg (by decide), if_pos rfl, ih]
  | vacant hdirectory hname hnone =>
    rw [walk_entry hdirectory hname, hnone]
    rfl
  | @detour here name rest target hdirectory hname hlink hfollow =>
    have hgoes : (rest.isEmpty && !follow) = false := by
      cases rest with
      | nil => simp [hfollow rfl]
      | cons _ _ => rfl
    rw [walk_entry hdirectory hname, hlink, hgoes]
    rfl
  | unfollowed hdirectory hname hlink hfollow =>
    rw [walk_entry hdirectory hname, hlink, hfollow]
    rfl
  | @down here name rest e w hdirectory hname hentry hkind _ ih =>
    rw [walk_entry hdirectory hname, hentry]
    cases e with
    | link target => exact absurd ⟨target, rfl⟩ hkind
    | _ => exact ih

theorem Walks.of_cons {name : String} {w : Walk} (h : d.Walks follow here (name :: names) w) :
    d.entry? here = some .directory := by
  cases h <;> assumption

/-- Lookups that end at a place, by walks with a link between one and the next. -/
inductive Resolves (d : Disk) (follow : Bool) : Nat → Location → List String → Place → Prop
  | taken {walks start names location} (h : d.Walks follow start names (.arrived location)) :
      Resolves d follow (walks + 1) start names (.taken location)
  | vacant {walks start names directory name}
      (h : d.Walks follow start names (.vacant directory name)) :
      Resolves d follow (walks + 1) start names (.vacant directory name)
  | detour {walks start names start' names' place}
      (h : d.Walks follow start names (.detour start' names'))
      (hrest : Resolves d follow walks start' names' place) :
      Resolves d follow (walks + 1) start names place

theorem resolve_eq_ok_iff {walks : Nat} {place : Place} :
    d.resolve follow walks here names = .ok place ↔ d.Resolves follow walks here names place := by
  constructor
  · intro h
    induction walks generalizing here names with
    | zero => cases h
    | succ walks ih =>
      rw [resolve] at h
      split at h
      · rename_i location hwalk
        cases h
        exact .taken (walks_of_walk_eq hwalk (by simp))
      · rename_i directory name hwalk
        cases h
        exact .vacant (walks_of_walk_eq hwalk (by simp))
      · cases h
      · rename_i start' names' hwalk
        exact .detour (walks_of_walk_eq hwalk (by simp)) (ih h)
  · intro h
    induction h with
    | taken h => rw [resolve, h.walk_eq]
    | vacant h => rw [resolve, h.walk_eq]
    | detour h _ ih =>
      rw [resolve, h.walk_eq]
      exact ih

theorem Walks.of_vacant {w : Walk} {directory : Location} {name : String}
    (h : d.Walks follow here names w) (hw : w = .vacant directory name) :
    d.entry? directory = some .directory ∧ d.entry? (name :: directory) = none := by
  induction h with
  | vacant hdirectory hname hnone =>
    cases hw
    exact ⟨hdirectory, hnone⟩
  | stay _ _ ih | up _ _ ih | down _ _ _ _ _ ih => exact ih hw
  | _ => cases hw

/-- Whatever is on one disk is on the other as well, in the same place and of the same kind. -/
structure Extends (d d' : Disk) : Prop where
  workingDirectory : d'.workingDirectory = d.workingDirectory
  entries : ∀ {location e}, d.entry? location = some e →
    ∃ e', d'.entry? location = some e' ∧ e'.kind = e.kind

theorem Extends.refl (d : Disk) : d.Extends d := ⟨rfl, fun h => ⟨_, h, rfl⟩⟩

theorem Extends.trans (h : d.Extends d') (h' : d'.Extends d'') : d.Extends d'' := by
  refine ⟨h'.workingDirectory.trans h.workingDirectory, fun he => ?_⟩
  obtain ⟨e', he', hkind⟩ := h.entries he
  obtain ⟨e'', he'', hkind'⟩ := h'.entries he'
  exact ⟨e'', he'', hkind'.trans hkind⟩

theorem Extends.same (h : d.Extends d') {e : Entry} (he : d.entry? location = some e)
    (hfile : ∀ content, e ≠ .file content) : d'.entry? location = some e := by
  obtain ⟨e', he', hkind⟩ := h.entries he
  rw [he', Entry.eq_of_kind_eq hkind hfile]

theorem Extends.put (d : Disk) {e : Entry}
    (h : ∀ old, d.entry? location = some old → location ≠ [] ∧ e.kind = old.kind) :
    d.Extends (d.put location e) := by
  refine ⟨rfl, fun {other old} hold => ?_⟩
  by_cases hother : other = location
  · subst hother
    obtain ⟨hroot, hkind⟩ := h old hold
    exact ⟨e, entry?_put_self d e hroot, hkind⟩
  · exact ⟨old, (entry?_put_of_ne d e hother).trans hold, rfl⟩

theorem Walks.extends {w : Walk} (h : d.Walks follow here names w) (hd : d.Extends d')
    (hw : ∀ directory name, w ≠ .vacant directory name) : d'.Walks follow here names w := by
  have hdirectory : ∀ {l}, d.entry? l = some .directory → d'.entry? l = some .directory :=
    fun h => hd.same h (by simp)
  induction h with
  | arrived => exact .arrived
  | stay hhere _ ih => exact .stay (hdirectory hhere) (ih hw)
  | up hhere _ ih => exact .up (hdirectory hhere) (ih hw)
  | vacant => exact absurd rfl (hw _ _)
  | detour hhere hname hlink hfollow =>
    exact .detour (hdirectory hhere) hname (hd.same hlink (by simp)) hfollow
  | unfollowed hhere hname hlink hfollow =>
    exact .unfollowed (hdirectory hhere) hname (hd.same hlink (by simp)) hfollow
  | down hhere hname hentry hlink _ ih =>
    obtain ⟨e', he', hkind⟩ := hd.entries hentry
    exact .down (hdirectory hhere) hname he' (fun h => hlink (Entry.isLink_of_kind_eq hkind h))
      (ih hw)

theorem Walks.filled {w : Walk} {directory : Location} {name : String} {e : Entry}
    (h : d.Walks follow here names w) (hw : w = .vacant directory name) (hd : d.Extends d')
    (he : d'.entry? (name :: directory) = some e) (hlink : ¬ e.IsLink) :
    d'.Walks follow here names (.arrived (name :: directory)) := by
  have hdirectory : ∀ {l}, d.entry? l = some .directory → d'.entry? l = some .directory :=
    fun h => hd.same h (by simp)
  induction h with
  | vacant hhere hname hnone =>
    cases hw
    exact .down (hdirectory hhere) hname he hlink .arrived
  | stay hhere _ ih => exact .stay (hdirectory hhere) (ih hw)
  | up hhere _ ih => exact .up (hdirectory hhere) (ih hw)
  | down hhere hname hentry hkind _ ih =>
    obtain ⟨e', he', hsame⟩ := hd.entries hentry
    exact .down (hdirectory hhere) hname he' (fun h => hkind (Entry.isLink_of_kind_eq hsame h))
      (ih hw)
  | _ => cases hw

theorem Walks.followed {w : Walk} (h : d.Walks false here names w)
    (hw : ∀ location, w ≠ .arrived location) : d.Walks true here names w := by
  induction h with
  | arrived => exact absurd rfl (hw _)
  | stay hhere _ ih => exact .stay hhere (ih hw)
  | up hhere _ ih => exact .up hhere (ih hw)
  | vacant hhere hname hnone => exact .vacant hhere hname hnone
  | detour hhere hname hlink _ => exact .detour hhere hname hlink fun _ => rfl
  | unfollowed => exact absurd rfl (hw _)
  | down hhere hname hentry hkind _ ih => exact .down hhere hname hentry hkind (ih hw)

theorem Resolves.of_vacant {walks : Nat} {place : Place} {directory : Location} {name : String}
    (h : d.Resolves follow walks here names place) (hplace : place = .vacant directory name) :
    d.entry? directory = some .directory ∧ d.entry? (name :: directory) = none := by
  induction h with
  | taken => cases hplace
  | vacant h =>
    cases hplace
    exact h.of_vacant rfl
  | detour _ _ ih => exact ih hplace

theorem Resolves.extends {walks : Nat} {place : Place}
    (h : d.Resolves follow walks here names place) (hplace : place = .taken location)
    (hd : d.Extends d') : d'.Resolves follow walks here names (.taken location) := by
  induction h with
  | taken h =>
    cases hplace
    exact .taken (h.extends hd (by simp))
  | vacant => cases hplace
  | detour h _ ih => exact .detour (h.extends hd (by simp)) (ih hplace)

theorem Resolves.filled {walks : Nat} {place : Place} {directory : Location} {name : String}
    {e : Entry} (h : d.Resolves follow walks here names place)
    (hplace : place = .vacant directory name) (hd : d.Extends d')
    (he : d'.entry? (name :: directory) = some e) (hlink : ¬ e.IsLink) :
    d'.Resolves follow walks here names (.taken (name :: directory)) := by
  induction h with
  | taken => cases hplace
  | vacant h =>
    cases hplace
    exact .taken (h.filled rfl hd he hlink)
  | detour h _ ih => exact .detour (h.extends hd (by simp)) (ih hplace)

theorem Resolves.followed {walks : Nat} {place : Place} (h : d.Resolves false walks here names place)
    (hplace : ∀ location, place ≠ .taken location) : d.Resolves true walks here names place := by
  induction h with
  | taken => exact absurd rfl (hplace _)
  | vacant h => exact .vacant (h.followed (by simp))
  | detour h _ ih => exact .detour (h.followed (by simp)) (ih hplace)

/-- A location below the root with directories only above it. -/
def Rooted (d : Disk) : Location → Prop
  | [] => True
  | name :: above => d.Rooted above ∧ ∃ e, d.entry? (name :: above) = some e ∧ ¬ e.IsLink

theorem Rooted.tail (h : d.Rooted location) : d.Rooted location.tail := by
  cases location with
  | nil => exact h
  | cons name above => exact h.1

theorem Rooted.exists_entry (h : d.Rooted location) :
    ∃ e, d.entry? location = some e ∧ ¬ e.IsLink := by
  cases location with
  | nil => exact ⟨.directory, rfl, by simp [Entry.IsLink]⟩
  | cons name above => exact h.2

theorem Walks.rooted {w : Walk} (h : d.Walks true here names w) (hhere : d.Rooted here) :
    (∀ location, w = .arrived location → d.Rooted location) ∧
    ∀ start rest, w = .detour start rest → d.Rooted start := by
  induction h with
  | arrived =>
    refine ⟨fun _ hw => ?_, fun _ _ hw => (by cases hw)⟩
    cases hw
    exact hhere
  | stay _ _ ih => exact ih hhere
  | up _ _ ih => exact ih hhere.tail
  | vacant => exact ⟨fun _ hw => (by cases hw), fun _ _ hw => (by cases hw)⟩
  | detour =>
    refine ⟨fun _ hw => (by cases hw), fun _ _ hw => ?_⟩
    cases hw
    split
    · trivial
    · exact hhere
  | unfollowed _ _ _ hfollow => cases hfollow
  | down _ _ hentry hkind _ ih => exact ih ⟨hhere, _, hentry, hkind⟩

theorem Resolves.rooted {walks : Nat} {place : Place} (h : d.Resolves true walks here names place)
    (hplace : place = .taken location) (hhere : d.Rooted here) : d.Rooted location := by
  induction h with
  | taken h =>
    cases hplace
    exact (h.rooted hhere).1 _ rfl
  | vacant => cases hplace
  | detour h _ ih => exact ih hplace ((h.rooted hhere).2 _ _ rfl)

/-- A path that the file system looks at: without a zero character and not too long. -/
structure Admits (p : Path) : Prop where
  no_zero : p.names.any (·.toList.contains '\x00') = false
  fits : p.render.utf8ByteSize < pathMax

theorem locate_eq_ok_iff {p : Path} {place : Place} :
    d.locate follow p = .ok place ↔
      Admits p ∧ d.Resolves follow (linksMax + 1) (d.start p) p.names place := by
  unfold locate
  split
  · rename_i hzero
    refine iff_of_false (fun h => by cases h) fun h => ?_
    rw [h.1.no_zero] at hzero
    cases hzero
  · rename_i hzero
    split
    · rename_i hlong
      exact iff_of_false (fun h => by cases h) fun h => absurd h.1.fits (Nat.not_lt.mpr hlong)
    · rename_i hlong
      rw [mapError_eq_ok, resolve_eq_ok_iff]
      exact ⟨fun h => ⟨⟨Bool.eq_false_iff.mpr hzero, Nat.lt_of_not_le hlong⟩, h⟩, fun h => h.2⟩

theorem start_eq (h : d'.workingDirectory = d.workingDirectory) (p : Path) :
    d'.start p = d.start p := by
  rw [start, start, h]

theorem locate_vacant {p : Path} {directory : Location} {name : String}
    (h : d.locate follow p = .ok (.vacant directory name)) :
    d.entry? directory = some .directory ∧ d.entry? (name :: directory) = none :=
  (locate_eq_ok_iff.mp h).2.of_vacant rfl

theorem locate_rooted {p : Path} (hp : p.anchor ≠ .relative)
    (h : d.locate true p = .ok (.taken location)) :
    ∃ e, d.entry? location = some e ∧ ¬ e.IsLink := by
  have hstart : d.start p = [] := by
    unfold start
    split
    · rename_i hrelative
      exact absurd hrelative hp
    · rfl
  have hresolves := (locate_eq_ok_iff.mp h).2
  rw [hstart] at hresolves
  exact (hresolves.rooted rfl trivial).exists_entry

theorem stat_eq_ok_iff {p : Path} {e : Entry} :
    d.stat p = .ok (location, e) ↔
      d.locate true p = .ok (.taken location) ∧ d.entry? location = some e := by
  unfold stat
  rw [bind_eq_ok]
  constructor
  · rintro ⟨place, hplace, h⟩
    split at h
    · cases h
    · split at h
      · rename_i hentry
        cases h
        exact ⟨hplace, hentry⟩
      · cases h
  · rintro ⟨hplace, hentry⟩
    exact ⟨_, hplace, by simp only [hentry]⟩

theorem read_of_stat {p : Path} {content : Bytes}
    (h : d.stat p = .ok (location, .file content)) : d.read p = .ok content := by
  rw [read, h]
  rfl

theorem walk_refused {cause : Cause} (h : d.walk follow here names = .refused cause) :
    cause ≠ .exists ∧ cause ≠ .isDirectory := by
  fun_induction walk d follow here names with
  | case1 => cases h
  | case2 | case5 | case7 =>
    cases h
    decide
  | case3 | case4 | case10 =>
    rename_i ih
    exact ih h
  | _ => cases h

theorem resolve_error {walks : Nat} {cause : Cause}
    (h : d.resolve follow walks here names = .error cause) :
    cause ≠ .exists ∧ cause ≠ .isDirectory := by
  induction walks generalizing here names with
  | zero =>
    cases h
    decide
  | succ walks ih =>
    rw [resolve] at h
    split at h
    · cases h
    · cases h
    · rename_i hwalk
      cases h
      exact walk_refused hwalk
    · exact ih h

theorem stat_error {p : Path} {e : Error} (h : d.stat p = .error e) :
    e.isAbsence = true ∨ e = .refused .nameTooLong p := by
  unfold stat at h
  rcases bind_eq_error.mp h with hlocate | ⟨place, _, h⟩
  · unfold locate at hlocate
    split at hlocate
    · cases hlocate
      exact Or.inl rfl
    · split at hlocate
      · cases hlocate
        exact Or.inr rfl
      · obtain ⟨cause, hresolve, rfl⟩ := mapError_eq_error.mp hlocate
        obtain ⟨hexists, hdirectory⟩ := resolve_error hresolve
        cases cause with
        | «exists» => exact absurd rfl hexists
        | isDirectory => exact absurd rfl hdirectory
        | nameTooLong => exact Or.inr rfl
        | _ => exact Or.inl rfl
  · split at h
    · cases h
      exact Or.inl rfl
    · split at h
      · cases h
      · cases h
        exact Or.inl rfl

theorem isFile_eq_true_iff {p : Path} :
    d.isFile p = .ok true ↔ ∃ location content, d.stat p = .ok (location, .file content) := by
  unfold isFile
  cases hstat : d.stat p with
  | error e => cases hkind : e.isAbsence <;> simp [Except.map, orAbsent, hkind]
  | ok found =>
    obtain ⟨location, e⟩ := found
    cases e <;> simp [Except.map, orAbsent]

theorem orAbsent_eq_error_iff {α : Type} {absent : α} {x : Except Error α} {e : Error} :
    orAbsent absent x = .error e ↔ x = .error e ∧ e.isAbsence = false := by
  cases x with
  | ok found => simp [orAbsent]
  | error e' =>
    rw [orAbsent]
    split
    · rename_i habsence
      refine iff_of_false (fun h => by cases h) fun h => ?_
      cases h.1
      exact Bool.false_ne_true (h.2.symm.trans habsence)
    · rename_i hpresence
      constructor
      · intro h
        cases h
        exact ⟨rfl, Bool.eq_false_iff.mpr hpresence⟩
      · intro h
        cases h.1
        rfl

theorem map_eq_error_iff {α β : Type} {f : α → β} {x : Except Error α} {e : Error} :
    x.map f = .error e ↔ x = .error e := by
  cases x <;> simp [Except.map]

theorem isFile_eq_error_iff {p : Path} {e : Error} :
    d.isFile p = .error e ↔ d.stat p = .error e ∧ e.isAbsence = false :=
  orAbsent_eq_error_iff.trans (and_congr_left' map_eq_error_iff)

theorem isFile_error {p : Path} {e : Error} (h : d.isFile p = .error e) :
    e = .refused .nameTooLong p ∧ d.stat p = .error (.refused .nameTooLong p) := by
  obtain ⟨hstat, hpresence⟩ := isFile_eq_error_iff.mp h
  rcases stat_error hstat with habsence | rfl
  · exact absurd (habsence.symm.trans hpresence) (by decide)
  · exact ⟨rfl, hstat⟩

theorem exists_eq_error_iff {p : Path} {e : Error} :
    d.exists? p = .error e ↔ d.stat p = .error e ∧ e = .refused .nameTooLong p := by
  refine orAbsent_eq_error_iff.trans ((and_congr_left' map_eq_error_iff).trans ?_)
  refine and_congr_right fun hstat => ⟨fun hpresence => ?_, fun hlong => hlong ▸ rfl⟩
  rcases stat_error hstat with habsence | hlong
  · cases habsence.symm.trans hpresence
  · exact hlong

theorem admits_of_stat {p : Path} {e : Entry} (h : d.stat p = .ok (location, e)) : Admits p :=
  (locate_eq_ok_iff.mp (stat_eq_ok_iff.mp h).1).1

theorem admits_of_exists {p : Path} (h : d.exists? p = .ok true) : Admits p := by
  cases hstat : d.stat p with
  | ok found => exact admits_of_stat hstat
  | error e =>
    rw [exists?, hstat, Except.map, orAbsent] at h
    split at h <;> cases h

theorem entry?_start {anchor : Anchor} {e : Entry} (h : d.stat ⟨anchor, []⟩ = .ok (location, e)) :
    d.entry? (d.start ⟨anchor, []⟩) = some e := by
  obtain ⟨hlocate, hentry⟩ := stat_eq_ok_iff.mp h
  cases (locate_eq_ok_iff.mp hlocate).2 with
  | taken hwalks =>
    cases hwalks
    exact hentry
  | detour hwalks => cases hwalks

theorem entry?_start_dot {anchor : Anchor} {names : List String} {e : Entry}
    (h : d.stat ⟨anchor, "." :: names⟩ = .ok (location, e)) :
    d.entry? (d.start ⟨anchor, []⟩) = some .directory := by
  cases (locate_eq_ok_iff.mp (stat_eq_ok_iff.mp h).1).2 with
  | taken hwalks | detour hwalks _ => exact hwalks.of_cons

theorem stat_dot {anchor : Anchor} {names : List String} {e : Entry}
    (hstart : d.entry? (d.start ⟨anchor, []⟩) = some .directory) (h : Admits ⟨anchor, names⟩)
    (hdot : Admits ⟨anchor, "." :: names⟩) :
    d.stat ⟨anchor, "." :: names⟩ = .ok (location, e) ↔
      d.stat ⟨anchor, names⟩ = .ok (location, e) := by
  have hsame : ∀ names, d.start ⟨anchor, names⟩ = d.start ⟨anchor, []⟩ := fun _ => rfl
  rw [stat_eq_ok_iff, stat_eq_ok_iff, locate_eq_ok_iff, locate_eq_ok_iff, ← resolve_eq_ok_iff,
    ← resolve_eq_ok_iff, hsame, hsame names, resolve_dot hstart]
  simp only [h, hdot]

def HasZero (name : String) : Prop := name.toList.contains '\x00' = true

instance (name : String) : Decidable (HasZero name) := by unfold HasZero; infer_instance

theorem Admits.not_hasZero {p : Path} (h : Admits p) : ∀ name ∈ p.names, ¬ HasZero name := by
  intro name hname hzero
  cases h.no_zero.symm.trans (List.any_eq_true.mpr ⟨name, hname, hzero⟩)

/-- No name of an entry has a zero character, as file systems have it. -/
def ZeroFree (d : Disk) : Prop := ∀ entry ∈ d.entries, ∀ name ∈ entry.1, ¬ HasZero name

instance (d : Disk) : Decidable d.ZeroFree := by unfold ZeroFree; infer_instance

theorem ZeroFree.child (h : d.ZeroFree) {name : String} {e : Entry}
    (hmem : (name, e) ∈ d.children location) : ¬ HasZero name := by
  obtain ⟨⟨location, entry⟩, hentry, hchild⟩ := List.mem_filterMap.mp hmem
  cases location with
  | nil => cases hchild
  | cons last parent =>
    dsimp only at hchild
    split at hchild
    · cases hchild
      exact h _ hentry _ List.mem_cons_self
    · cases hchild

theorem ZeroFree.not_hasZero_child (h : d.ZeroFree) {p : Path} {name : String} {e : Entry}
    (hp : ∀ other ∈ p.names, ¬ HasZero other) (hmem : (name, e) ∈ d.children location) :
    ∀ other ∈ (p.child name).names, ¬ HasZero other := by
  intro other hother
  rcases List.mem_append.mp hother with habove | hlast
  · exact hp other habove
  · cases List.mem_singleton.mp hlast
    exact h.child hmem

/-- What was found at a path is still found there. -/
theorem Extends.stat (hd : d.Extends d') {p : Path} {e : Entry} (h : d.stat p = .ok (location, e)) :
    ∃ e', d'.stat p = .ok (location, e') ∧ e'.kind = e.kind := by
  obtain ⟨hplace, hentry⟩ := stat_eq_ok_iff.mp h
  obtain ⟨hadmits, hresolves⟩ := locate_eq_ok_iff.mp hplace
  obtain ⟨e', he', hkind⟩ := hd.entries hentry
  rw [← start_eq hd.workingDirectory] at hresolves
  exact ⟨e', stat_eq_ok_iff.mpr
    ⟨locate_eq_ok_iff.mpr ⟨hadmits, hresolves.extends rfl hd⟩, he'⟩, hkind⟩

theorem Extends.stat_filled (hd : d.Extends d') {p : Path} {directory : Location} {name : String}
    {e : Entry} (h : d.locate follow p = .ok (.vacant directory name))
    (he : d'.entry? (name :: directory) = some e) (hlink : ¬ e.IsLink) :
    d'.stat p = .ok (name :: directory, e) := by
  obtain ⟨hadmits, hresolves⟩ := locate_eq_ok_iff.mp h
  have hfollowed : d.Resolves true (linksMax + 1) (d.start p) p.names (.vacant directory name) := by
    cases follow with
    | true => exact hresolves
    | false => exact hresolves.followed (by simp)
  rw [← start_eq hd.workingDirectory] at hfollowed
  exact stat_eq_ok_iff.mpr
    ⟨locate_eq_ok_iff.mpr ⟨hadmits, hfollowed.filled rfl hd he hlink⟩, he⟩

end Disk
end SourceRecovery
