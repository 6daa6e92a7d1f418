import SourceRecovery.Proofs.TreeWrites

/-! Putting one file after another into a tree. Whatever is there keeps its kind, so what is put
later lets in no file that was turned away and turns away none that was let in. Where several files
take one location the last of them stays, and putting all of them once more changes nothing. -/
namespace SourceRecovery.Tree

variable {t t' u : Tree} {f g : Placement} {fs front rest : List Placement}
variable {l s : Location} {p : Path} {content : Bytes}

/-- A tree of directories, files and devices. -/
structure LinkFree (t : Tree) : Prop where
  root : t [] = some .directory
  no_link : ∀ l target, t l ≠ some (.link target)

def Extends (t t' : Tree) : Prop :=
  ∀ l e, t l = some e → ∃ e', t' l = some e' ∧ e'.kind = e.kind

theorem Extends.refl (t : Tree) : t.Extends t := fun _ e he => ⟨e, he, rfl⟩

theorem Extends.trans (h : t.Extends t') (h' : t'.Extends u) : t.Extends u := by
  intro l e he
  obtain ⟨e', he', hkind⟩ := h l e he
  obtain ⟨e'', he'', hkind'⟩ := h' l e' he'
  exact ⟨e'', he'', hkind'.trans hkind⟩

theorem Extends.same (h : t.Extends t') {e : Entry} (he : t l = some e)
    (hfile : ∀ content, e ≠ .file content) : t' l = some e := by
  obtain ⟨e', he', hkind⟩ := h l e he
  rw [he', Entry.eq_of_kind_eq hkind hfile]

theorem Extends.same_before (h : t.Extends t') {e : Entry} (he : t' l = some e)
    (hfile : ∀ content, e ≠ .file content) (hthere : t l ≠ none) : t l = some e := by
  obtain ⟨old, hold⟩ := Option.ne_none_iff_exists'.mp hthere
  obtain ⟨e', he', hkind⟩ := h l old hold
  cases he.symm.trans he'
  rw [hold, Entry.eq_of_kind_eq hkind.symm hfile]

theorem Extends.there (h : t.Extends t') (hthere : t l ≠ none) : t' l ≠ none := by
  obtain ⟨e, he⟩ := Option.ne_none_iff_exists'.mp hthere
  obtain ⟨e', he', _⟩ := h l e he
  rw [he']
  exact Option.some_ne_none e'

theorem Extends.made (h : t.Extends t') (hmade : t.Made l) : t'.Made l :=
  hmade.imp fun _ _ _ hdirectory => h.same hdirectory (by simp)

theorem Extends.isOpen (h : t.Extends t') (hopen : t'.Open l) : t.Open l := by
  apply hopen.imp
  intro s _ _ hs
  by_cases hthere : t s = none
  · exact Or.inl hthere
  · rcases hs with hnone | hdirectory
    · exact absurd hnone (h.there hthere)
    · exact Or.inr (h.same_before hdirectory (by simp) hthere)

theorem receives_iff (hl : l ≠ []) :
    t.Receives l ↔ t.Open l.tail ∧ (l.headD "").utf8ByteSize ≤ Disk.nameMax ∧
      t l ≠ some .directory := by
  cases l with
  | nil => exact absurd rfl hl
  | cons name above => exact Iff.rfl

theorem Receives.ne_nil (h : t.Receives l) : l ≠ [] := by
  rintro rfl
  exact h

theorem Extends.accepts (h : t.Extends t') (haccepts : t'.Accepts p) : t.Accepts p := by
  obtain ⟨hparent, hadmits, hreceives⟩ := haccepts
  have hl := hreceives.ne_nil
  obtain ⟨hopen, hfits, hfree⟩ := (receives_iff hl).mp hreceives
  refine ⟨hparent, hadmits, (receives_iff hl).mpr ⟨h.isOpen hopen, hfits, ?_⟩⟩
  intro hdirectory
  exact hfree (h.same hdirectory (by simp))

def Assigns (t : Tree) (f : Placement) (s : Location) : Prop :=
  ∃ p, f.path = some p ∧ t.Fills p s

def Lays (t : Tree) (f : Placement) (s : Location) : Prop :=
  ∃ p, f.path = some p ∧ t.Paves p s

theorem put_of_assigns (h : t.Assigns f s) : t.put f s = some (.file f.content) := by
  obtain ⟨path, content⟩ := f
  obtain ⟨p, hpath, hfills⟩ := h
  cases hpath
  exact written_of_fills hfills

theorem put_of_lays (hassigns : ¬ t.Assigns f s) (h : t.Lays f s) :
    t.put f s = some .directory := by
  obtain ⟨path, content⟩ := f
  obtain ⟨p, hpath, hpaves⟩ := h
  cases hpath
  refine (written_of_not_fills fun hfills => hassigns ⟨p, rfl, hfills⟩).trans ?_
  exact if_pos hpaves

theorem put_elsewhere (hassigns : ¬ t.Assigns f s) (hlays : ¬ t.Lays f s) : t.put f s = t s := by
  obtain ⟨path, content⟩ := f
  cases path with
  | none => rfl
  | some p =>
    refine (written_of_not_fills fun hfills => hassigns ⟨p, rfl, hfills⟩).trans ?_
    exact if_neg fun hpaves => hlays ⟨p, rfl, hpaves⟩

theorem Assigns.not_above (h : t.Assigns f s) (hlays : t'.Lays f l) : ¬ s <:+ l := by
  obtain ⟨p, hp, rfl, haccepts, _⟩ := h
  obtain ⟨q, hq, hpaves⟩ := hlays
  cases hp.symm.trans hq
  intro hs
  exact not_suffix_tail haccepts.location_ne_nil (hs.trans hpaves.2.1)

theorem Made.directory (h : t.Made l) (ht : t.LinkFree) : t l = some .directory := by
  cases l with
  | nil => exact ht.root
  | cons name above => exact h.2.2

theorem Open.directory (h : t.Open l) (ht : t.LinkFree) (hthere : t l ≠ none) :
    t l = some .directory := by
  cases l with
  | nil => exact ht.root
  | cons name above => exact h.2.2.resolve_left hthere

theorem put_of_there (ht : t.LinkFree) {e : Entry} (he : t s = some e) (h : ¬ t.Assigns f s) :
    t.put f s = some e := by
  by_cases hlays : t.Lays f s
  · rw [put_of_lays h hlays, ← he]
    obtain ⟨p, _, hpaves⟩ := hlays
    exact (hpaves.2.2.directory ht fun hnone => by cases hnone.symm.trans he).symm
  · rw [put_elsewhere h hlays, he]

theorem put_extends (ht : t.LinkFree) (f : Placement) : t.Extends (t.put f) := by
  intro s e he
  by_cases h : t.Assigns f s
  · refine ⟨_, put_of_assigns h, ?_⟩
    obtain ⟨p, _, rfl, haccepts, hdevice⟩ := h
    have hreceives := haccepts.2.2
    have hdirectory := ((receives_iff hreceives.ne_nil).mp hreceives).2.2
    cases e with
    | file old => rfl
    | directory => exact absurd he hdirectory
    | link target => exact absurd he (ht.no_link _ target)
    | device => exact absurd he hdevice
  · exact ⟨e, put_of_there ht he h, rfl⟩

theorem put_linkFree (ht : t.LinkFree) (f : Placement) : (t.put f).LinkFree := by
  constructor
  · exact (put_extends ht f).same ht.root (by simp)
  · intro s target hlink
    by_cases h : t.Assigns f s
    · cases (put_of_assigns h).symm.trans hlink
    · by_cases hlays : t.Lays f s
      · cases (put_of_lays h hlays).symm.trans hlink
      · exact ht.no_link s target ((put_elsewhere h hlays).symm.trans hlink)

theorem put_device (h : t.put f s = some .device) : t s = some .device := by
  by_cases hassigns : t.Assigns f s
  · cases (put_of_assigns hassigns).symm.trans h
  · by_cases hlays : t.Lays f s
    · cases (put_of_lays hassigns hlays).symm.trans h
    · exact (put_elsewhere hassigns hlays).symm.trans h

/-- All that putting a file into the tree could make is there. -/
structure Settled (t : Tree) (f : Placement) : Prop where
  laid : ∀ s, t.Lays f s → t.Made s
  there : ∀ p, f.path = some p → t.Accepts p → t p.location ≠ none

theorem Lays.extends (hx : t.Extends t') (h : t'.Lays f s) : t.Lays f s := by
  obtain ⟨p, hp, hparent, hs, hopen⟩ := h
  exact ⟨p, hp, hparent, hs, hx.isOpen hopen⟩

theorem put_made (h : t.Lays f s) : (t.put f).Made s := by
  obtain ⟨p, hp, hparent, hs, hopen⟩ := h
  apply hopen.imp
  intro other hother _ _
  have hlays : t.Lays f other := ⟨p, hp, hparent, hother.trans hs, hopen.of_suffix hother⟩
  exact put_of_lays (fun hassigns => hassigns.not_above hlays (List.suffix_refl _)) hlays

theorem put_accepts_iff (ht : t.LinkFree) (hp : f.path = some p) :
    (t.put f).Accepts p ↔ t.Accepts p := by
  constructor
  · exact (put_extends ht f).accepts
  · intro haccepts
    obtain ⟨hparent, hadmits, hreceives⟩ := haccepts
    have hl := hreceives.ne_nil
    obtain ⟨hopen, hfits, hfree⟩ := (receives_iff hl).mp hreceives
    have hmade : (t.put f).Made p.location.tail :=
      put_made ⟨p, hp, hparent, List.suffix_refl _, hopen⟩
    refine ⟨hparent, hadmits, (receives_iff hl).mpr ⟨hmade.isOpen, hfits, ?_⟩⟩
    intro hdirectory
    by_cases hassigns : t.Assigns f p.location
    · cases (put_of_assigns hassigns).symm.trans hdirectory
    · rw [put_elsewhere hassigns] at hdirectory
      · exact hfree hdirectory
      · rintro ⟨q, hq, hpaves⟩
        cases hp.symm.trans hq
        exact not_suffix_tail hl hpaves.2.1

theorem put_takes_iff (ht : t.LinkFree) : (t.put f).Takes f ↔ t.Takes f :=
  exists_congr fun _ => and_congr_right (put_accepts_iff ht)

theorem put_assigns_iff (ht : t.LinkFree) : (t.put f).Assigns f s ↔ t.Assigns f s := by
  constructor
  · rintro ⟨p, hp, hs, haccepts, hdevice⟩
    refine ⟨p, hp, hs, (put_accepts_iff ht hp).mp haccepts, ?_⟩
    intro h
    exact hdevice ((put_extends ht f).same h (by simp))
  · intro h
    have hfile := put_of_assigns h
    obtain ⟨p, hp, hs, haccepts, _⟩ := h
    refine ⟨p, hp, hs, (put_accepts_iff ht hp).mpr haccepts, ?_⟩
    rw [hfile]
    simp

theorem put_settled (ht : t.LinkFree) (f : Placement) : (t.put f).Settled f := by
  constructor
  · intro s hlays
    exact put_made (hlays.extends (put_extends ht f))
  · intro p hp haccepts
    by_cases hassigns : t.Assigns f p.location
    · rw [put_of_assigns hassigns]
      exact Option.some_ne_none _
    · -- Only a device does not give way to the file.
      have hdevice : t p.location = some .device := by
        apply Decidable.not_not.mp
        intro hother
        exact hassigns ⟨p, hp, rfl, (put_accepts_iff ht hp).mp haccepts, hother⟩
      apply (put_extends ht f).there
      rw [hdevice]
      exact Option.some_ne_none _

theorem Settled.extends (h : t.Settled f) (hx : t.Extends t') : t'.Settled f := by
  constructor
  · intro s hlays
    exact hx.made (h.laid s (hlays.extends hx))
  · intro p hp haccepts
    exact hx.there (h.there p hp (hx.accepts haccepts))

theorem Settled.accepts_iff (h : t.Settled f) (hx : t.Extends t') (hp : f.path = some p) :
    t'.Accepts p ↔ t.Accepts p := by
  constructor
  · exact hx.accepts
  · intro haccepts
    have hthere := h.there p hp haccepts
    obtain ⟨hparent, hadmits, hreceives⟩ := haccepts
    have hl := hreceives.ne_nil
    obtain ⟨hopen, hfits, hfree⟩ := (receives_iff hl).mp hreceives
    have hmade := h.laid _ ⟨p, hp, hparent, List.suffix_refl _, hopen⟩
    refine ⟨hparent, hadmits, (receives_iff hl).mpr ⟨(hx.made hmade).isOpen, hfits, ?_⟩⟩
    intro hdirectory
    exact hfree (hx.same_before hdirectory (by simp) hthere)

theorem Settled.takes_iff (h : t.Settled f) (hx : t.Extends t') : t'.Takes f ↔ t.Takes f :=
  exists_congr fun _ => and_congr_right (h.accepts_iff hx)

theorem Settled.assigns_iff (h : t.Settled f) (hx : t.Extends t') :
    t'.Assigns f s ↔ t.Assigns f s := by
  constructor
  · rintro ⟨p, hp, hs, haccepts, hdevice⟩
    refine ⟨p, hp, hs, hx.accepts haccepts, ?_⟩
    intro hbefore
    exact hdevice (hx.same hbefore (by simp))
  · rintro ⟨p, hp, rfl, haccepts, hdevice⟩
    refine ⟨p, hp, rfl, (h.accepts_iff hx hp).mpr haccepts, ?_⟩
    intro hafter
    exact hdevice (hx.same_before hafter (by simp) (h.there p hp haccepts))

theorem Settled.put_elsewhere (h : t.Settled f) (ht : t.LinkFree) (hs : ¬ t.Assigns f s) :
    t.put f s = t s := by
  by_cases hlays : t.Lays f s
  · rw [put_of_lays hs hlays, (h.laid s hlays).directory ht]
  · exact Tree.put_elsewhere hs hlays

def putAll (t : Tree) (fs : List Placement) : Tree := fs.foldl put t

theorem putAll_append : t.putAll (front ++ rest) = (t.putAll front).putAll rest := List.foldl_append

theorem putAll_linkFree (ht : t.LinkFree) (fs : List Placement) : (t.putAll fs).LinkFree := by
  induction fs generalizing t with
  | nil => exact ht
  | cons f rest ih => exact ih (put_linkFree ht f)

theorem putAll_extends (ht : t.LinkFree) (fs : List Placement) : t.Extends (t.putAll fs) := by
  induction fs generalizing t with
  | nil => exact Extends.refl t
  | cons f rest ih => exact (put_extends ht f).trans (ih (put_linkFree ht f))

theorem putAll_device (h : t.putAll fs s = some .device) : t s = some .device := by
  induction fs generalizing t with
  | nil => exact h
  | cons f rest ih => exact put_device (ih h)

theorem putAll_settled (ht : t.LinkFree) (front : List Placement) (f : Placement)
    (rest : List Placement) :
    (t.putAll (front ++ f :: rest)).Settled f ∧
      ((t.putAll (front ++ f :: rest)).Takes f ↔ (t.putAll front).Takes f) := by
  have hfront := putAll_linkFree ht front
  have hextends := putAll_extends (put_linkFree hfront f) rest
  rw [putAll_append]
  constructor
  · exact (put_settled hfront f).extends hextends
  · exact ((put_settled hfront f).takes_iff hextends).trans (put_takes_iff hfront)

theorem settled_of_mem (ht : t.LinkFree) (hf : f ∈ fs) : (t.putAll fs).Settled f := by
  obtain ⟨front, rest, rfl⟩ := List.append_of_mem hf
  exact (putAll_settled ht front f rest).1

/-- What is there stays as it is if none of the files put later takes its location. -/
theorem putAll_kept (ht : t.LinkFree) {e : Entry} (hs : t s = some e)
    (hfree : ∀ g ∈ fs, ¬ (t.putAll fs).Assigns g s) : t.putAll fs s = some e := by
  induction fs generalizing t with
  | nil => exact hs
  | cons g rest ih =>
    obtain ⟨hfirst, hrest⟩ := List.forall_mem_cons.mp hfree
    have hextends := putAll_extends (put_linkFree ht g) rest
    apply ih (put_linkFree ht g) _ hrest
    apply put_of_there ht hs
    rw [← put_assigns_iff ht, ← (put_settled ht g).assigns_iff hextends]
    exact hfirst

theorem putAll_last (ht : t.LinkFree)
    (h : (t.putAll (front ++ f :: rest)).Assigns f s)
    (hlast : ∀ g ∈ rest, ¬ (t.putAll (front ++ f :: rest)).Assigns g s) :
    t.putAll (front ++ f :: rest) s = some (.file f.content) := by
  have hfront := putAll_linkFree ht front
  have hextends := putAll_extends (put_linkFree hfront f) rest
  rw [putAll_append] at h hlast ⊢
  apply putAll_kept (put_linkFree hfront f) _ hlast
  apply put_of_assigns
  rw [← put_assigns_iff hfront, ← (put_settled hfront f).assigns_iff hextends]
  exact h

/-- The rest of a run, done again on a tree that differs from what the run left only where that rest
puts files. -/
theorem putAll_rest (ht : t.LinkFree) (hu : u.LinkFree) (hfs : fs = front ++ rest)
    (hx : (t.putAll fs).Extends u)
    (hsame : ∀ s, u s = t.putAll fs s ∨ ∃ g ∈ rest, (t.putAll fs).Assigns g s) :
    u.putAll rest = t.putAll fs := by
  induction rest generalizing front u with
  | nil =>
    funext s
    rcases hsame s with h | ⟨g, hg, _⟩
    · exact h
    · exact absurd hg List.not_mem_nil
  | cons f rest ih =>
    have hsettled : (t.putAll fs).Settled f :=
      settled_of_mem ht (hfs ▸ List.mem_append_right front List.mem_cons_self)
    have hassigns : ∀ s, u.Assigns f s ↔ (t.putAll fs).Assigns f s := fun s =>
      hsettled.assigns_iff hx
    apply ih (put_linkFree hu f) (hfs.trans (List.append_cons front f rest))
      (hx.trans (put_extends hu f))
    intro s
    by_cases hlater : ∃ g ∈ rest, (t.putAll fs).Assigns g s
    · exact Or.inr hlater
    · left
      by_cases hf : (t.putAll fs).Assigns f s
      · rw [put_of_assigns ((hassigns s).mpr hf)]
        subst hfs
        exact (putAll_last ht hf fun g hg h => hlater ⟨g, hg, h⟩).symm
      · rw [(hsettled.extends hx).put_elsewhere hu fun h => hf ((hassigns s).mp h)]
        rcases hsame s with h | ⟨g, hg, h⟩
        · exact h
        · rcases List.mem_cons.mp hg with rfl | hg
          · exact absurd h hf
          · exact absurd ⟨g, hg, h⟩ hlater

theorem putAll_putAll (ht : t.LinkFree) (fs : List Placement) :
    (t.putAll fs).putAll fs = t.putAll fs :=
  putAll_rest ht (putAll_linkFree ht fs) (List.nil_append fs).symm (Extends.refl _)
    fun _ => Or.inl rfl

end SourceRecovery.Tree
