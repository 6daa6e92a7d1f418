import Mathlib.Data.List.Forall2
import SourceRecovery.Proofs.WriteRuns

/-! Requests that keep out of each other's way, on a disk without links. Directories on the way to
several files are made by whoever comes first, and a file that cannot be put where it is wanted
still has them made; neither shows in what is left or in what is answered. -/
namespace SourceRecovery

namespace Tree

variable {t : Tree} {f g : Placement} {fs gs : List Placement} {l s : Location} {q : Path}

/-- Neither file is wanted where the other is or on the way to it. -/
def Apart (f g : Placement) : Prop :=
  ∀ p q, f.path = some p → g.path = some q →
    ¬ p.location <:+ q.location ∧ ¬ q.location <:+ p.location

theorem Apart.symm (h : Apart f g) : Apart g f := fun p q hp hq => (h q p hq hp).symm

theorem put_open_iff (h : ∀ p, f.path = some p → ¬ p.location <:+ l) :
    (t.put f).Open l ↔ t.Open l := by
  apply open_iff_of_made
  intro s hs
  have hassigns : ¬ t.Assigns f s := by
    rintro ⟨p, hp, hfills⟩
    exact h p hp (hfills.1 ▸ hs)
  by_cases hlays : t.Lays f s
  · have hmade := put_of_lays hassigns hlays
    obtain ⟨p, _, hpaves⟩ := hlays
    exact Or.inr ⟨hpaves.2.2, hmade⟩
  · exact Or.inl (put_elsewhere hassigns hlays)

theorem Apart.open_iff (h : Apart f g) (hq : g.path = some q) (hs : s <:+ q.location) :
    (t.put f).Open s ↔ t.Open s := by
  apply put_open_iff
  intro p hp hbelow
  exact (h p q hp hq).1 (hbelow.trans hs)

theorem Apart.at_location (h : Apart f g) (hq : g.path = some q) :
    t.put f q.location = t q.location := by
  apply put_elsewhere
  · rintro ⟨p, hp, hs, _⟩
    exact (h p q hp hq).1 (hs ▸ List.suffix_refl _)
  · rintro ⟨p, hp, hpaves⟩
    exact (h p q hp hq).2 (hpaves.2.1.trans (List.tail_suffix _))

theorem Apart.accepts_iff (h : Apart f g) (hq : g.path = some q) :
    (t.put f).Accepts q ↔ t.Accepts q := by
  have hreceives : (t.put f).Receives q.location ↔ t.Receives q.location := by
    by_cases hl : q.location = []
    · rw [hl]
      exact Iff.rfl
    · rw [receives_iff hl, receives_iff hl, h.open_iff hq (List.tail_suffix _), h.at_location hq]
  rw [Accepts, Accepts, hreceives]

theorem Apart.takes_iff (h : Apart f g) : (t.put f).Takes g ↔ t.Takes g :=
  exists_congr fun _ => and_congr_right h.accepts_iff

theorem Apart.assigns_iff (h : Apart f g) : (t.put f).Assigns g s ↔ t.Assigns g s := by
  apply exists_congr
  intro q
  apply and_congr_right
  intro hq
  apply and_congr_right
  rintro rfl
  rw [h.accepts_iff hq, h.at_location hq]

theorem Apart.lays_iff (h : Apart f g) : (t.put f).Lays g s ↔ t.Lays g s := by
  apply exists_congr
  intro q
  apply and_congr_right
  intro hq
  apply and_congr_right
  intro _
  apply and_congr_right
  intro hs
  exact h.open_iff hq (hs.trans (List.tail_suffix _))

theorem Apart.untouched (h : Apart f g) (hf : t.Assigns f s) : (t.put f).put g s = t.put f s := by
  obtain ⟨p, hp, rfl, _⟩ := hf
  apply put_elsewhere
  · rintro ⟨q, hq, hs, _⟩
    exact (h p q hp hq).1 (hs ▸ List.suffix_refl _)
  · rintro ⟨q, hq, hpaves⟩
    exact (h p q hp hq).1 (hpaves.2.1.trans (List.tail_suffix _))

theorem Apart.put_comm (h : Apart f g) : (t.put f).put g = (t.put g).put f := by
  funext s
  by_cases hf : t.Assigns f s
  · rw [h.untouched hf, put_of_assigns hf, put_of_assigns (h.symm.assigns_iff.mpr hf)]
  · by_cases hg : t.Assigns g s
    · rw [h.symm.untouched hg, put_of_assigns hg, put_of_assigns (h.assigns_iff.mpr hg)]
    · have hf' : ¬ (t.put g).Assigns f s := fun hassigns => hf (h.symm.assigns_iff.mp hassigns)
      have hg' : ¬ (t.put f).Assigns g s := fun hassigns => hg (h.assigns_iff.mp hassigns)
      -- No file is put here. It is a directory if either of the two needs one.
      by_cases hlays : t.Lays f s
      · rw [put_of_lays hf' (h.symm.lays_iff.mpr hlays)]
        by_cases hlays' : t.Lays g s
        · exact put_of_lays hg' (h.lays_iff.mpr hlays')
        · rw [put_elsewhere hg' fun hlater => hlays' (h.lays_iff.mp hlater), put_of_lays hf hlays]
      · rw [put_elsewhere hf' fun hlater => hlays (h.symm.lays_iff.mp hlater)]
        by_cases hlays' : t.Lays g s
        · rw [put_of_lays hg' (h.lays_iff.mpr hlays'), put_of_lays hg hlays']
        · rw [put_elsewhere hg' fun hlater => hlays' (h.lays_iff.mp hlater), put_elsewhere hf hlays,
            put_elsewhere hg hlays']

theorem putAll_perm (hperm : fs.Perm gs) (h : fs.Pairwise Apart) : t.putAll fs = t.putAll gs := by
  induction hperm generalizing t with
  | nil => rfl
  | cons f _ ih => exact ih (List.pairwise_cons.mp h).2
  | swap f g rest =>
    have hapart : Apart g f := (List.pairwise_cons.mp h).1 f List.mem_cons_self
    exact congrArg (fun u => Tree.putAll u rest) hapart.put_comm
  | trans hfirst _ ih ih' => exact (ih h).trans (ih' (h.perm hfirst fun hapart => hapart.symm))

theorem putAll_takes_iff (h : ∀ g ∈ fs, Apart g f) : (t.putAll fs).Takes f ↔ t.Takes f := by
  induction fs generalizing t with
  | nil => exact Iff.rfl
  | cons g rest ih =>
    obtain ⟨hfirst, hrest⟩ := List.forall_mem_cons.mp h
    exact (ih hrest).trans hfirst.takes_iff

end Tree

namespace Output

structure Request where
  destination : String
  contain : Bool
  name : String
  text : String
  deriving DecidableEq, Repr

def withoutReason (result : Except WriteIssue WrittenFile) : Except WriteIssue WrittenFile :=
  result.mapError WriteIssue.unexplained

theorem withoutReason_eq_ok {result : Except WriteIssue WrittenFile} {f : WrittenFile} :
    withoutReason result = .ok f ↔ result = .ok f := mapError_eq_ok

namespace Request

def options (r : Request) : Options := ⟨Path.ofString r.destination, r.contain⟩

def perform (d : Disk) (r : Request) : Disk × Except WriteIssue WrittenFile :=
  write d r.options r.name r.text

def wanted (base : Path) (r : Request) : Placement := placement base r.options r.name r.text

def foreseen (base : Path) (r : Request) (taken : Bool) : Except WriteIssue WrittenFile :=
  answer base r.options r.name r.text taken

/-- The paths of two requests lead neither to one place nor one of them to a place above the other.
-/
def Apart (base : Path) (r r' : Request) : Prop :=
  ∀ path, resolve base r.options r.name = .ok path →
    ∀ path', resolve base r'.options r'.name = .ok path' →
      ¬ path.location <:+ path'.location ∧ ¬ path'.location <:+ path.location

theorem Apart.wanted {base : Path} {r r' : Request} (h : Apart base r r') :
    Tree.Apart (r.wanted base) (r'.wanted base) := fun path path' hpath hpath' =>
  h path (placement_path.mp hpath) path' (placement_path.mp hpath')

theorem Apart.symm {base : Path} {r r' : Request} (h : Apart base r r') : Apart base r' r :=
  fun path hpath path' hpath' => (h path' hpath' path hpath).symm

instance (base : Path) (r r' : Request) : Decidable (Apart base r r') :=
  decidable_of_iff
    (∀ path ∈ (r.wanted base).path, ∀ path' ∈ (r'.wanted base).path,
      ¬ path.location <:+ path'.location ∧ ¬ path'.location <:+ path.location)
    (by simp only [Apart, Request.wanted, Option.mem_def, placement_path])

theorem perform_puts : Puts perform wanted withoutReason foreseen := by
  constructor
  · intro d hd r
    exact (write_follows hd r.destination r.contain r.name r.text).tree
  · intro d hd r
    exact (write_follows hd r.destination r.contain r.name r.text).workingDirectory
  · intro d hd r
    exact (write_follows hd r.destination r.contain r.name r.text).answered

theorem foreseen_eq_ok_iff {base : Path} {r : Request} {taken : Bool} {f : WrittenFile} :
    r.foreseen base taken = .ok f ↔ taken = true ∧
      resolve base r.options r.name = .ok f.path ∧ f.document = r.name ∧
        f.size = (markedBytes r.text).length := by
  unfold foreseen answer
  split
  · rename_i hpath
    simp [hpath]
  · rename_i path hpath
    obtain ⟨fpath, document, size⟩ := f
    cases taken <;> simp [hpath, eq_comm]

variable {d : Disk} {rs rs' : List Request}

def leave (d : Disk) (rs : List Request) : Tree := Disk.entry? (feed perform d rs).1

theorem leave_eq (hd : d.LinkFree) (rs : List Request) :
    leave d rs = Tree.putAll d.entry? (rs.map (wanted d.workingDirectory)) :=
  (perform_puts.run hd rs).1

/-- In whatever order they are performed, requests that are apart leave one tree, and each of them
is answered as if it were the only one. -/
theorem perform_perm (hd : d.LinkFree) (h : rs.Pairwise (Apart d.workingDirectory))
    (hperm : rs.Perm rs') :
    leave d rs' = leave d rs ∧
    (feed perform d rs').2.map withoutReason = rs'.map fun r => withoutReason (perform d r).2 := by
  obtain ⟨hentries', _, _, hanswers'⟩ := perform_puts.run hd rs'
  have hapart : (rs.map (wanted d.workingDirectory)).Pairwise Tree.Apart :=
    List.pairwise_map.mpr (h.imp fun hr => hr.wanted)
  constructor
  · rw [leave_eq hd, leave_eq hd]
    exact (Tree.putAll_perm (hperm.map _) hapart).symm
  · rw [hanswers']
    apply List.map_congr_left
    intro r hr
    rw [perform_puts.answered hd]
    congr 1
    apply decide_eq_decide.mpr
    rw [hentries']
    obtain ⟨front, rest, rfl⟩ := List.append_of_mem hr
    have hfront : ∀ g ∈ front.map (wanted d.workingDirectory),
        Tree.Apart g (r.wanted d.workingDirectory) := by
      rw [List.forall_mem_map]
      intro other hother
      have hsplit := List.pairwise_append.mp (h.perm hperm fun hother => hother.symm)
      exact (hsplit.2.2 other hother r List.mem_cons_self).wanted
    rw [List.map_append, List.map_cons, (Tree.putAll_settled hd.tree _ _ _).2]
    exact Tree.putAll_takes_iff hfront

theorem written_iff (hd : d.LinkFree) {i : Nat} {r : Request} (hr : rs[i]? = some r)
    {f : WrittenFile} :
    (feed perform d rs).2[i]? = some (.ok f) ↔
      Tree.Takes (leave d rs) (r.wanted d.workingDirectory) ∧
      resolve d.workingDirectory r.options r.name = .ok f.path ∧ f.document = r.name ∧
        f.size = (markedBytes r.text).length := by
  obtain ⟨_, _, _, hanswers⟩ := perform_puts.run hd rs
  have hplace := congrArg (fun answers => answers[i]?) hanswers
  simp only [List.getElem?_map, hr, Option.map_some] at hplace
  obtain ⟨result, hresult, hanswer⟩ := Option.map_eq_some_iff.mp hplace
  rw [hresult, Option.some.injEq, ← withoutReason_eq_ok, hanswer, foreseen_eq_ok_iff,
    decide_eq_true_iff]
  rfl

/-- Of all requests whose file was written to one place, the last one has its text read there. -/
theorem last_read (hd : d.LinkFree) {i : Nat} {r : Request} {f : WrittenFile}
    (hr : rs[i]? = some r) (h : (feed perform d rs).2[i]? = some (.ok f))
    (hlast : ∀ j g, i < j → (feed perform d rs).2[j]? = some (.ok g) →
      g.path.location ≠ f.path.location)
    (hdevice : d.entry? f.path.location ≠ some .device) :
    (feed perform d rs).1.read f.path = .ok (markedBytes r.text) := by
  obtain ⟨_, _, hlinkFree, _⟩ := perform_puts.run hd rs
  obtain ⟨htakes, hpath, _⟩ := (written_iff hd hr).mp h
  have hlater : ∀ r' ∈ rs.drop (i + 1),
      ¬ Tree.Assigns (leave d rs) (r'.wanted d.workingDirectory) f.path.location := by
    rintro r' hr' ⟨path, hwanted, hlocation, haccepts, _⟩
    obtain ⟨k, hk⟩ := List.getElem?_of_mem hr'
    rw [List.getElem?_drop] at hk
    have hwritten := (written_iff (f := ⟨path, r'.name, (markedBytes r'.text).length⟩) hd hk).mpr
      ⟨⟨path, hwanted, haccepts⟩, placement_path.mp hwanted, rfl, rfl⟩
    exact hlast _ _ (by omega) hwritten hlocation.symm
  have hsplit : rs.take i ++ r :: rs.drop (i + 1) = rs := by
    obtain ⟨hi, rfl⟩ := List.getElem?_eq_some_iff.mp hr
    rw [List.getElem_cons_drop hi, List.take_append_drop]
  have hwanted : (r.wanted d.workingDirectory).path = some f.path := placement_path.mpr hpath
  obtain ⟨path, hwanted', haccepts⟩ := htakes
  cases hwanted.symm.trans hwanted'
  have hfile : leave d rs f.path.location = some (.file (markedBytes r.text)) := by
    have hfs := congrArg (List.map (wanted d.workingDirectory)) hsplit
    rw [List.map_append, List.map_cons] at hfs
    rw [leave_eq hd, ← hfs] at haccepts hlater ⊢
    apply Tree.putAll_last hd.tree ⟨f.path, hwanted, rfl, haccepts, fun h => hdevice ?_⟩
    · rw [List.forall_mem_map]
      exact hlater
    · exact Tree.putAll_device h
  have hmade : Tree.Made (leave d rs) f.path.location.tail := by
    have hsettled := Tree.settled_of_mem hd.tree
      (List.mem_map_of_mem (f := wanted d.workingDirectory) (List.mem_of_getElem? hr))
    rw [← leave_eq hd] at hsettled
    exact hsettled.laid _ ⟨f.path, hwanted, haccepts.1, List.suffix_refl _,
      haccepts.2.2.open_above⟩
  have hfits := ((Tree.receives_iff haccepts.location_ne_nil).mp haccepts.2.2).2.1
  have hstat := hlinkFree.stat_eq (resolve_canonical hd.base hpath) haccepts.2.1 hmade hfits hfile
  exact Disk.read_of_stat hstat

/-- Requests whose paths lead neither to one place nor to a place above another leave one tree in
whatever order they are performed, and each is answered as if it were the only one, but for the
reasons why nothing is written. Of any requests, what is read at a path at which a file was written
is the text of the last one whose file was written to that place, unless there is a device. -/
theorem independent_writes_commute (hd : d.LinkFree) (rs : List Request) :
    (rs.Pairwise (Apart d.workingDirectory) → ∀ rs', rs.Perm rs' →
      Disk.entry? (feed perform d rs').1 = Disk.entry? (feed perform d rs).1 ∧
      (feed perform d rs').2.map withoutReason =
        rs'.map fun r => withoutReason (perform d r).2) ∧
    ∀ (i : Nat) (r : Request) (f : WrittenFile), rs[i]? = some r →
      (feed perform d rs).2[i]? = some (.ok f) →
      (∀ (j : Nat) (g : WrittenFile), i < j → (feed perform d rs).2[j]? = some (.ok g) →
        g.path.location ≠ f.path.location) →
      d.entry? f.path.location ≠ some .device →
      (feed perform d rs).1.read f.path = .ok (markedBytes r.text) :=
  ⟨fun h _ hperm => perform_perm hd h hperm,
    fun _ _ _ hr h hlast hdevice => last_read hd hr h hlast hdevice⟩

def sharedDisk : Disk where
  workingDirectory := ⟨.root, ["w"]⟩
  entries := [(["w"], .directory), (["out", "w"], .directory), (["f", "out", "w"], .file [1])]

theorem sharedDisk_linkFree : sharedDisk.LinkFree := by
  constructor
  · refine ⟨by decide, ?_⟩
    intro name hname
    obtain rfl := List.mem_singleton.mp hname
    exact ⟨by decide, by decide, by decide, by decide⟩
  · intro location target hlink
    rcases Disk.mem_entries_of_eq_some hlink with h | h
    · cases h
    · simp [sharedDisk] at h

theorem crossing_requests_commute :
    let rs : List Request := [⟨"out", false, "x/a", "A"⟩, ⟨"out", true, "C:\\x/b", "B"⟩,
      ⟨"out", false, "f/c", "C"⟩, ⟨"out", true, "..", "D"⟩]
    let again : List Request := [⟨"out", false, "a", "A"⟩, ⟨"out", true, "/a", "B"⟩]
    Disk.entry? (feed perform sharedDisk rs.reverse).1 =
      Disk.entry? (feed perform sharedDisk rs).1 ∧
    (feed perform sharedDisk rs.reverse).2.map withoutReason =
      [.error ⟨"..", ""⟩, .error ⟨"/w/out/f/c", ""⟩,
        .ok ⟨⟨.root, ["w", "out", "x", "b"]⟩, "C:\\x/b", 4⟩,
        .ok ⟨⟨.root, ["w", "out", "x", "a"]⟩, "x/a", 4⟩] ∧
    (feed perform sharedDisk again).1.read ⟨.root, ["w", "out", "a"]⟩ =
      .ok [0xEF, 0xBB, 0xBF, 66] := by
  intro rs again
  obtain ⟨hcommute, _⟩ := independent_writes_commute sharedDisk_linkFree rs
  obtain ⟨htree, hanswers⟩ := hcommute (by decide +kernel) rs.reverse (List.reverse_perm rs).symm
  obtain ⟨_, hlast⟩ := independent_writes_commute sharedDisk_linkFree again
  refine ⟨htree, hanswers.trans (by decide +kernel), ?_⟩
  refine hlast 1 ⟨"out", true, "/a", "B"⟩ ⟨⟨.root, ["w", "out", "a"]⟩, "/a", 4⟩ rfl
    (by decide +kernel) ?_ (by decide)
  intro j g hj hg
  -- There is no request behind the second one.
  have hlength : (feed perform sharedDisk again).2.length = 2 := by decide +kernel
  have hj' := (List.getElem?_eq_some_iff.mp hg).1
  omega

/-- Two paths that are not the same may lead to one place all the same, and then the order matters.
Of what is written to a device nothing is read. -/
theorem paths_apart_share_place :
    let d : Disk := ⟨⟨.root, []⟩, [(["null"], .device)]⟩
    let a : Request := ⟨"/out", false, "a", "A"⟩
    let b : Request := ⟨"//out", false, "a", "B"⟩
    let c : Request := ⟨"/", false, "null", "C"⟩
    d.LinkFree ∧
    (∃ path path', resolve d.workingDirectory a.options a.name = .ok path ∧
      resolve d.workingDirectory b.options b.name = .ok path' ∧
      path ≠ path' ∧ ¬ path.LeadsTo path' ∧ ¬ path'.LeadsTo path) ∧
    Disk.entry? (feed perform d [a, b]).1 ≠ Disk.entry? (feed perform d [b, a]).1 ∧
    (perform d c).2 = .ok ⟨⟨.root, ["null"]⟩, "null", 4⟩ ∧
    (perform d c).1.read ⟨.root, ["null"]⟩ = .ok [] := by
  intro d a b c
  refine ⟨?_, ⟨⟨.root, ["out", "a"]⟩, ⟨.doubleRoot, ["out", "a"]⟩, by decide +kernel,
    by decide +kernel, by decide, ?_, ?_⟩, ?_, by decide +kernel, by decide +kernel⟩
  · constructor
    · exact ⟨by decide, by simp [d]⟩
    · intro location target hlink
      rcases Disk.mem_entries_of_eq_some hlink with h | h
      · cases h
      · simp [d] at h
  · intro h
    cases h.anchor
  · intro h
    cases h.anchor
  · intro h
    have hplace := congrFun h ["a", "out"]
    revert hplace
    decide +kernel

end Request
end Output
end SourceRecovery
