import SourceRecovery.Output
import SourceRecovery.Proofs.PathLookup

/-! What a write does to a disk. Besides the file itself nothing but directories on the way to it is
new, and a write that fails leaves every file as it was. -/
namespace SourceRecovery

/-- A path that is `p` or that the names of `p` lead through. -/
structure Path.LeadsTo (q p : Path) : Prop where
  anchor : q.anchor = p.anchor
  names : q.names <+: p.names

theorem Path.LeadsTo.refl (p : Path) : p.LeadsTo p := ⟨rfl, List.prefix_refl _⟩

theorem Path.LeadsTo.trans {p q r : Path} (h : p.LeadsTo q) (h' : q.LeadsTo r) : p.LeadsTo r :=
  ⟨h.anchor.trans h'.anchor, h.names.trans h'.names⟩

theorem Path.absolute_anchor {base p : Path} (h : base.anchor ≠ .relative) :
    (base.absolute p).anchor ≠ .relative := by
  unfold absolute join
  split
  · exact h
  · rename_i hanchor
    exact hanchor

namespace Disk

variable {d d' d'' : Disk} {p q : Path} {file : Option Location}

/-- Disk `d'` has what `d` has, and whatever it has beyond that is a directory on the way to `p`.
Nothing is said about the content of `file`. -/
structure Grown (d d' : Disk) (p : Path) (file : Option Location) : Prop where
  extended : d.Extends d'
  kept : ∀ {location e}, some location ≠ file → d.entry? location = some e →
    d'.entry? location = some e
  new : ∀ {location e}, some location ≠ file → d'.entry? location = some e →
    d.entry? location = some e ∨
      e = .directory ∧ ∃ q, q.LeadsTo p ∧ d'.stat q = .ok (location, .directory)

theorem Grown.refl (d : Disk) (p : Path) : d.Grown d p none :=
  ⟨.refl d, fun _ h => h, fun _ h => Or.inl h⟩

theorem Grown.mono (h : d.Grown d' q file) (hq : q.LeadsTo p) : d.Grown d' p file := by
  refine ⟨h.extended, h.kept, fun hfile he => ?_⟩
  rcases h.new hfile he with hold | ⟨hdirectory, r, hr, hstat⟩
  · exact Or.inl hold
  · exact Or.inr ⟨hdirectory, r, hr.trans hq, hstat⟩

theorem Grown.trans (h : d.Grown d' p none) (h' : d'.Grown d'' p file) : d.Grown d'' p file := by
  refine ⟨h.extended.trans h'.extended, fun hfile he => h'.kept hfile (h.kept (by simp) he),
    fun hfile he => ?_⟩
  rcases h'.new hfile he with hmiddle | hnew
  · rcases h.new (by simp) hmiddle with hold | ⟨hdirectory, q, hq, hstat⟩
    · exact Or.inl hold
    · -- A directory that was made first is still where its path leads.
      obtain ⟨e', hstat', hkind⟩ := h'.extended.stat hstat
      rw [Entry.eq_of_kind_eq hkind (by simp)] at hstat'
      exact Or.inr ⟨hdirectory, q, hq, hstat'⟩
  · exact Or.inr hnew

theorem Extends.put_vacant {follow : Bool} {directory : Location} {name : String} (e : Entry)
    (h : d.locate follow p = .ok (.vacant directory name)) :
    d.Extends (d.put (name :: directory) e) := by
  refine .put d fun old hold => ?_
  rw [(locate_vacant h).2] at hold
  cases hold

theorem makeDirectory_grown (h : d.makeDirectory p = .ok d') : d.Grown d' p none := by
  obtain ⟨place, hplace, h⟩ := bind_eq_ok.mp h
  cases place with
  | taken location => cases h
  | vacant directory name =>
    cases h
    have hextends := Extends.put_vacant .directory hplace
    have hmade := entry?_put_self d .directory (List.cons_ne_nil name directory)
    have hstat := hextends.stat_filled hplace hmade (by simp [Entry.IsLink])
    refine ⟨hextends, fun {location e} _ he => ?_, fun {location e} _ he => ?_⟩
    · by_cases hlocation : location = name :: directory
      · subst hlocation
        rw [(locate_vacant hplace).2] at he
        cases he
      · exact (entry?_put_of_ne d .directory hlocation).trans he
    · by_cases hlocation : location = name :: directory
      · subst hlocation
        rw [hmade] at he
        cases he
        exact Or.inr ⟨rfl, p, .refl p, hstat⟩
      · exact Or.inl ((entry?_put_of_ne d .directory hlocation).symm.trans he)

theorem unlessDirectory_disk (d : Disk) (p : Path) (e : Error) : (d.unlessDirectory p e).1 = d := by
  unfold unlessDirectory
  split
  · rfl
  · split <;> rfl

theorem makeInParent_grown (d : Disk) (p : Path) : d.Grown (d.makeInParent p).1 p none := by
  unfold makeInParent
  split
  · rename_i made hmade
    exact makeDirectory_grown hmade
  · exact .refl d p
  · rw [unlessDirectory_disk]
    exact .refl d p

theorem makeAll_grown (anchor : Anchor) (names : List String) (d : Disk) :
    d.Grown (makeAll anchor names d).1 ⟨anchor, names.reverse⟩ none := by
  induction names generalizing d with
  | nil => exact makeInParent_grown d _
  | cons name above ih =>
    have hparent : Path.LeadsTo ⟨anchor, above.reverse⟩ ⟨anchor, (name :: above).reverse⟩ :=
      ⟨rfl, List.reverse_cons ▸ List.prefix_append _ _⟩
    have habove := (ih d).mono hparent
    simp only [makeAll]
    split
    · rename_i made hmade
      exact makeDirectory_grown hmade
    · split
      · rename_i between e hbetween
        exact hbetween ▸ habove
      · rename_i between done hbetween
        rw [hbetween] at habove
        exact habove.trans (makeInParent_grown between _)
    · rw [unlessDirectory_disk]
      exact .refl d _

theorem makeDirectories_grown (d : Disk) (p : Path) : d.Grown (d.makeDirectories p).1 p none := by
  have hgrown := makeAll_grown p.anchor p.names.reverse d
  rwa [List.reverse_reverse] at hgrown

/-- There is nothing but files, directories and links, and paths are told from the root. -/
structure Plain (d : Disk) : Prop where
  absolute : d.workingDirectory.anchor ≠ .relative
  no_device : ∀ location, d.entry? location ≠ some .device

theorem Grown.plain (h : d.Grown d' p none) (hd : d.Plain) : d'.Plain := by
  refine ⟨h.extended.workingDirectory ▸ hd.absolute, fun location hdevice => ?_⟩
  rcases h.new (by simp) hdevice with hold | ⟨hdirectory, _⟩
  · exact hd.no_device location hold
  · cases hdirectory

theorem write_grown (hd : d.Plain) (hp : p.anchor ≠ .relative) {content : Bytes}
    (h : d.write p content = .ok d') (q : Path) :
    ∃ location, d'.stat p = .ok (location, .file content) ∧ d.Grown d' q (some location) := by
  -- Whatever the file replaces, it is put in one place, where the path still leads.
  have hgrown : ∀ location, d.Extends (d.put location (.file content)) →
      d.Grown (d.put location (.file content)) q (some location) := by
    intro location hextends
    refine ⟨hextends, fun {other e} hother he => ?_, fun {other e} hother he => ?_⟩
    · exact (entry?_put_of_ne d _ fun h => hother (congrArg some h)).trans he
    · exact Or.inl ((entry?_put_of_ne d _ fun h => hother (congrArg some h)).symm.trans he)
  obtain ⟨place, hplace, h⟩ := bind_eq_ok.mp h
  rw [mapError_eq_ok] at hplace
  cases place with
  | vacant directory name =>
    cases h
    have hextends := Extends.put_vacant (.file content) hplace
    have hmade := entry?_put_self d (.file content) (List.cons_ne_nil name directory)
    exact ⟨_, hextends.stat_filled hplace hmade (by simp [Entry.IsLink]), hgrown _ hextends⟩
  | taken location =>
    obtain ⟨e, he, hlink⟩ := locate_rooted hp hplace
    simp only [he] at h
    cases e with
    | directory => cases h
    | device => exact absurd he (hd.no_device location)
    | link target => exact absurd ⟨target, rfl⟩ hlink
    | file old =>
      cases h
      have hroot : location ≠ [] := by
        rintro rfl
        cases he
      have hextends : d.Extends (d.put location (.file content)) := by
        refine .put d fun other hother => ⟨hroot, ?_⟩
        rw [he] at hother
        cases hother
        rfl
      obtain ⟨e', hstat, _⟩ := hextends.stat (stat_eq_ok_iff.mpr ⟨hplace, he⟩)
      have hmade := (stat_eq_ok_iff.mp hstat).2
      rw [entry?_put_self d _ hroot] at hmade
      cases hmade
      exact ⟨location, hstat, hgrown location hextends⟩

end Disk

namespace Output

open Disk

/-- The bytes of a text: a byte-order mark, unless the text has one in front, and its encoding. -/
def markedBytes (text : String) : Bytes :=
  (if text.toList.head? = some byteOrderMark then [] else [0xEF, 0xBB, 0xBF]) ++ Utf8.encode text

theorem encode_marked (text : String) : Utf8.encode (marked text) = markedBytes text := by
  unfold marked markedBytes
  split
  · rfl
  · rw [Utf8.encode, String.toList_append, List.flatMap_append]
    rfl

theorem resolve_anchor {base path : Path} {options : Options} {name : String}
    (hbase : base.anchor ≠ .relative) (h : resolve base options name = .ok path) :
    path.anchor ≠ .relative := by
  unfold resolve at h
  split at h
  · split at h
    · cases h
    · cases h
      exact Path.absolute_anchor hbase
  · cases h
    exact Path.absolute_anchor hbase

theorem resolve_error {base : Path} {options : Options} {name : String} {e : NameError}
    (h : resolve base options name = .error e) : e = ⟨name⟩ := by
  unfold resolve at h
  split at h
  · split at h
    · cases h
      rfl
    · cases h
  · cases h

/-- The ways in which a request to write a document ends. -/
inductive Writes (d : Disk) (options : Options) (name text : String) :
    Disk → Except WriteIssue WrittenFile → Prop
  | unnamed {e} (hpath : resolve d.workingDirectory options name = .error e) :
      Writes d options name text d (.error ⟨name, e.message⟩)
  | blocked {path between e} (hpath : resolve d.workingDirectory options name = .ok path)
      (hparent : d.makeDirectories path.parent = (between, .error e)) :
      Writes d options name text between (.error ⟨path.render, e.message⟩)
  | failed {path between e} (hpath : resolve d.workingDirectory options name = .ok path)
      (hparent : d.makeDirectories path.parent = (between, .ok ()))
      (hwrite : between.write path (markedBytes text) = .error e) :
      Writes d options name text between (.error ⟨path.render, e.message⟩)
  | written {path between after} (hpath : resolve d.workingDirectory options name = .ok path)
      (hparent : d.makeDirectories path.parent = (between, .ok ()))
      (hwrite : between.write path (markedBytes text) = .ok after) :
      Writes d options name text after (.ok ⟨path, name, (markedBytes text).length⟩)

theorem write_writes (d : Disk) (options : Options) (name text : String) :
    Writes d options name text (write d options name text).1 (write d options name text).2 := by
  simp only [write, encode_marked]
  split
  · rename_i e hpath
    exact .unnamed hpath
  · rename_i path hpath
    split
    · rename_i between e hparent
      exact .blocked hpath hparent
    · rename_i between done hparent
      split
      · rename_i e hwrite
        exact .failed hpath hparent hwrite
      · rename_i after hwrite
        exact .written hpath hparent hwrite

/-- A document that was written is read back with its byte-order mark at the path reported, and no
other file has changed. One that was not written has changed no file at all. In either case nothing
is gone or of another kind, and what is new besides is directories on the way to the path. -/
theorem write_changes_one_file {d : Disk} (hd : d.Plain) (options : Options) (name text : String) :
    let after := (write d options name text).1
    let result := (write d options name text).2
    (∀ f, result = .ok f → f.document = name ∧ f.size = (markedBytes text).length ∧
      resolve d.workingDirectory options name = .ok f.path ∧
      after.read f.path = .ok (markedBytes text) ∧
      ∃ location, after.stat f.path = .ok (location, .file (markedBytes text)) ∧
        d.Grown after f.path.parent (some location)) ∧
    ∀ i, result = .error i →
      (after = d ∧ i.path = name ∧
        resolve d.workingDirectory options name = .error ⟨name⟩) ∨
      ∃ path, resolve d.workingDirectory options name = .ok path ∧ i.path = path.render ∧
        d.Grown after path.parent none := by
  intro after result
  have hwrites : Writes d options name text after result := write_writes d options name text
  have hparent : ∀ {path : Path} {between : Disk} {made : Except Error Unit},
      d.makeDirectories path.parent = (between, made) → d.Grown between path.parent none := by
    intro path between made h
    have hgrown := makeDirectories_grown d path.parent
    rwa [h] at hgrown
  clear_value after result
  constructor
  · rintro f rfl
    cases hwrites with
    | written hpath hmade hwrite =>
      have hgrown := hparent hmade
      obtain ⟨location, hstat, hfile⟩ := write_grown (hgrown.plain hd)
        (resolve_anchor hd.absolute hpath) hwrite _
      exact ⟨rfl, rfl, hpath, read_of_stat hstat, location, hstat, hgrown.trans hfile⟩
  · rintro i rfl
    cases hwrites with
    | unnamed hpath =>
      obtain rfl := resolve_error hpath
      exact Or.inl ⟨rfl, rfl, hpath⟩
    | blocked hpath hmade => exact Or.inr ⟨_, hpath, rfl, hparent hmade⟩
    | failed hpath hmade _ => exact Or.inr ⟨_, hpath, rfl, hparent hmade⟩

def linkedDestination : Disk where
  workingDirectory := ⟨.root, ["w"]⟩
  entries := [(["w"], .directory), (["out", "w"], .link "../t/./"), (["t"], .directory),
    (["b.cs", "t"], .file [1])]

theorem linked_destination_changes_one_file :
    let after := (write linkedDestination ⟨⟨.relative, ["out"]⟩, true⟩ "C:\\x/../a.cs" "A").1
    after.read ⟨.root, ["w", "out", "x", "a.cs"]⟩ = .ok [0xEF, 0xBB, 0xBF, 65] ∧
      after.entry? ["b.cs", "t"] = some (.file [1]) := by
  intro after
  have hplain : linkedDestination.Plain := by
    refine ⟨by decide, fun location hdevice => ?_⟩
    rcases mem_entries_of_eq_some hdevice with h | h
    · cases h
    · exact absurd rfl ((by decide : ∀ entry ∈ linkedDestination.entries, entry.2 ≠ .device) _ h)
  obtain ⟨hwritten, _⟩ := write_changes_one_file hplain ⟨⟨.relative, ["out"]⟩, true⟩
    "C:\\x/../a.cs" "A"
  obtain ⟨_, _, _, hread, location, hstat, hgrown⟩ :=
    hwritten ⟨⟨.root, ["w", "out", "x", "a.cs"]⟩, "C:\\x/../a.cs", 4⟩ rfl
  -- The path leads through the link, so the file that was there is another one.
  have hplace : after.stat ⟨.root, ["w", "out", "x", "a.cs"]⟩ =
      .ok (["a.cs", "x", "t"], .file [0xEF, 0xBB, 0xBF, 65]) := rfl
  obtain rfl : location = ["a.cs", "x", "t"] := by
    cases hstat.symm.trans hplace
    rfl
  exact ⟨hread, hgrown.kept (by decide) rfl⟩

end Output
end SourceRecovery
