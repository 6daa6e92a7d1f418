import SourceRecovery.Proofs.EventGroups
import SourceRecovery.Proofs.PathLookup

/-! No input of the built-in sources ends in a fault but one kind: a path that is looked at for its
suffix and that the file system does not look up because it is too long. -/
namespace SourceRecovery.Pipeline

variable {sources : List Source} {source : Source} {d : Disk} {p : Path}

/-- A path with the suffix of an image or a PDB that is too long to be looked up. That may be by its
names or by those that links on the way lead to. -/
structure Unexaminable (d : Disk) (p : Path) : Prop where
  suffix : Discovery.hasCandidateSuffix p = true
  refused : d.stat p = .error (.refused .nameTooLong p)

theorem Unexaminable.isFile (h : Unexaminable d p) :
    d.isFile p = .error (.refused .nameTooLong p) :=
  Disk.isFile_eq_error_iff.mpr ⟨h.refused, rfl⟩

theorem isFileWith_of_mem {suffixes : List String} (h : Discovery.lowerSuffix p ∈ suffixes) :
    isFileWith suffixes d p = (d.isFile p).mapError .disk := by
  rw [isFileWith, if_pos (List.contains_iff_mem.mpr h)]

theorem sourceFor_eq_none (h : ∀ source ∈ sources, source.handles d p = .ok false) :
    sourceFor d p sources = .ok none := by
  induction sources with
  | nil => rfl
  | cons first rest ih =>
    obtain ⟨hfirst, hrest⟩ := List.forall_mem_cons.mp h
    exact bind_eq_ok.mpr ⟨false, hfirst, ih hrest⟩

/-- Where all other sources turn a path down, the answer of one decides. -/
theorem sourceFor_of_others (front back : List Source)
    (hfront : ∀ other ∈ front, other.handles d p = .ok false)
    (hback : ∀ other ∈ back, other.handles d p = .ok false) :
    sourceFor d p (front ++ source :: back) =
      (source.handles d p).map fun found => if found then some source else none := by
  induction front with
  | nil =>
    rw [List.nil_append, sourceFor, sourceFor_eq_none hback]
    cases source.handles d p with
    | error f => rfl
    | ok found => cases found <;> rfl
  | cons first front ih =>
    obtain ⟨hfirst, hfront⟩ := List.forall_mem_cons.mp hfront
    rw [List.cons_append, sourceFor, hfirst]
    exact ih hfront

theorem sourceFor_builtin (d : Disk) (h : Discovery.hasCandidateSuffix p = true) :
    ∃ source ∈ builtinSources, sourceFor d p builtinSources =
      ((d.isFile p).mapError .disk).map fun found => if found then some source else none := by
  by_cases hpdb : Discovery.lowerSuffix p ∈ Discovery.pdbSuffixes
  · have himage : Discovery.lowerSuffix p ∉ Discovery.imageSuffixes := by
      rw [List.mem_singleton.mp hpdb]
      decide
    refine ⟨pdbSource, List.mem_cons_self, ?_⟩
    rw [← isFileWith_of_mem hpdb]
    exact sourceFor_of_others [] [imageSource] (fun _ hother => absurd hother List.not_mem_nil)
      (List.forall_mem_singleton.mpr (isFileWith_of_not_mem himage))
  · have himage : Discovery.lowerSuffix p ∈ Discovery.imageSuffixes := by
      rw [Discovery.hasCandidateSuffix, List.contains_iff_mem, List.mem_append] at h
      exact h.resolve_right hpdb
    refine ⟨imageSource, List.mem_cons_of_mem _ List.mem_cons_self, ?_⟩
    rw [← isFileWith_of_mem himage]
    exact sourceFor_of_others [pdbSource] []
      (List.forall_mem_singleton.mpr (isFileWith_of_not_mem hpdb))
      (fun _ hother => absurd hother List.not_mem_nil)

/-- The ways in which the built-in sources take an input. -/
inductive Taken (d : Disk) (p : Path) : Reading → Prop
  | unexaminable (h : Unexaminable d p) :
      Taken d p ⟨none, .failed (.disk (.refused .nameTooLong p))⟩
  | passed (h : ¬ Unexaminable d p) : Taken d p (skip p "not dll, exe or pdb")
  | opened {source content} (hsource : source ∈ builtinSources) (hread : d.read p = .ok content) :
      Taken d p (readWith source d p)

theorem builtin_taken (d : Disk) (p : Path) : Taken d p (read builtinSources d p) := by
  cases hsuffix : Discovery.hasCandidateSuffix p with
  | false =>
    have hnone := sourceFor_eq_none fun source hsource =>
      builtin_handles_other (d := d) hsource hsuffix
    rw [read, hnone]
    exact .passed fun h => Bool.false_ne_true (hsuffix.symm.trans h.suffix)
  | true =>
    obtain ⟨source, hsource, hfor⟩ := sourceFor_builtin d hsuffix
    rw [read, hfor]
    cases hfile : d.isFile p with
    | error e =>
      obtain ⟨rfl, hrefused⟩ := Disk.isFile_error hfile
      exact .unexaminable ⟨hsuffix, hrefused⟩
    | ok found =>
      cases found with
      | false =>
        -- The answer that there is no file is not the one for a path that is too long.
        refine .passed fun h => ?_
        cases h.isFile.symm.trans hfile
      | true =>
        obtain ⟨location, content, hstat⟩ := Disk.isFile_eq_true_iff.mp hfile
        exact .opened hsource (Disk.read_of_stat hstat)

theorem builtin_part_finishes (hsource : source ∈ builtinSources) {part : Part}
    (hpart : part ∈ (source.parts d p).items) : part.Finishes := by
  cases part with
  | issue i => trivial
  | container c =>
    obtain ⟨pdb, hpdb, rfl⟩ := builtin_container hsource hpart
    intro f hf
    rw [Pdb.Image.container_extract_complete hpdb] at hf
    cases hf

theorem builtin_parts_fault (hsource : source ∈ builtinSources) {content : Bytes} {f : Fault}
    (hread : d.read p = .ok content) (hf : (source.parts d p).fault = some f) :
    ∃ reason, f = .format reason := by
  rcases mem_builtinSources.mp hsource with rfl | rfl
  · simp only [pdbSource, hread] at hf
    split at hf <;> cases hf
    exact ⟨_, rfl⟩
  · simp only [imageSource, hread] at hf
    split at hf <;> cases hf
    exact ⟨_, rfl⟩

/-- Once a built-in source has the bytes of an input, its events come to an end. -/
theorem builtin_events_end (hsource : source ∈ builtinSources) {content : Bytes}
    (hread : d.read p = .ok content) : (readWith source d p).events.fault = none := by
  have hreads := readWith_reads source d p
  generalize readWith source d p = reading at hreads
  cases hreads with
  | skipped => rfl
  | failed hfault hskips =>
    obtain ⟨reason, rfl⟩ := builtin_parts_fault hsource hread hfault
    exact absurd (.format reason) (hskips _)
  | gathered hparts =>
    refine Sequence.concatMap_fault_eq_none.mpr fun part hpart => ?_
    have hmem : part ∈ (source.parts d p).items := by
      rw [hparts]
      exact hpart
    exact partEvents_fault_eq_none.mpr (builtin_part_finishes hsource hmem)

theorem settleAll_length (options : Output.Options) (d : Disk) (events : List Event) :
    (settleAll options d events).2.length = events.length := by
  induction events generalizing d with
  | nil => rfl
  | cons event rest ih => exact congrArg (· + 1) (ih (settle options d event).1)

theorem extractFile_of_failed {f : Fault} (h : read sources d p = ⟨none, .failed f⟩)
    (options : Output.Options) : extractFile sources options d p = ⟨none, .failed f, d⟩ := by
  simp only [extractFile, h, Sequence.failed, settleAll]

/-- The events of an input end in a fault only if its path is too long to be looked up, and then
there are none and nothing is written. Every other input is read to its end, and written with one
outcome for each event; if its bytes cannot be had, all that is said is that it is skipped. -/
theorem only_unexaminable_inputs_fail (d : Disk) (p : Path) :
    (Unexaminable d p →
      (read builtinSources d p).events = .failed (.disk (.refused .nameTooLong p)) ∧
      ∀ options, extractFile builtinSources options d p =
        ⟨none, .failed (.disk (.refused .nameTooLong p)), d⟩) ∧
    (¬ Unexaminable d p →
      (read builtinSources d p).events.fault = none ∧
      (∀ options, (extractFile builtinSources options d p).outcomes.fault = none ∧
        (extractFile builtinSources options d p).outcomes.items.length =
          (read builtinSources d p).events.items.length) ∧
      ∀ e, d.read p = .error e →
        (read builtinSources d p).events = .ofList [.skipped ⟨p.render, "not dll, exe or pdb"⟩] ∧
        ∀ options, extractFile builtinSources options d p =
          ⟨none, .ofList [.skipped ⟨p.render, "not dll, exe or pdb"⟩], d⟩) := by
  have htaken := builtin_taken d p
  generalize hreading : read builtinSources d p = reading at htaken
  constructor
  · intro hrefused
    cases htaken with
    | unexaminable => exact ⟨rfl, extractFile_of_failed hreading⟩
    | passed h => exact absurd hrefused h
    | opened _ hread =>
      obtain ⟨found, hstat, _⟩ := bind_eq_ok.mp hread
      cases hrefused.refused.symm.trans hstat
  · intro hexamined
    have hend : reading.events.fault = none := by
      cases htaken with
      | unexaminable h => exact absurd h hexamined
      | passed => rfl
      | opened hsource hread => exact builtin_events_end hsource hread
    refine ⟨hend, fun options => ⟨?_, ?_⟩, fun e he => ?_⟩
    · rw [extractFile, hreading]
      exact hend
    · rw [extractFile, hreading]
      exact settleAll_length options d reading.events.items
    · cases htaken with
      | unexaminable h => exact absurd h hexamined
      | passed => exact ⟨rfl, extractFile_of_skip hreading⟩
      | opened _ hread => cases he.symm.trans hread

def linkTo (target : String) : Disk := ⟨⟨.root, []⟩, [(["x.pdb"], .link target)]⟩

theorem linkTo_unexaminable {target : String} (hnames : Disk.targetNames target = [target])
    (hlong : Disk.nameMax < target.utf8ByteSize) :
    Unexaminable (linkTo target) ⟨.relative, ["x.pdb"]⟩ := by
  have hne : ∀ short : String, short.utf8ByteSize ≤ Disk.nameMax → target ≠ short := by
    rintro short hshort rfl
    exact absurd hlong (Nat.not_lt.mpr hshort)
  have hlink : (linkTo target).walk true [] ["x.pdb"] = .detour [] [target] := by
    have hwalks : (linkTo target).Walks true [] ["x.pdb"]
        (.detour (if target.toList.head? = some '/' then [] else [])
          (Disk.targetNames target ++ [])) :=
      .detour rfl ⟨by decide, by decide, by decide⟩ rfl fun _ => rfl
    rw [ite_self, hnames] at hwalks
    exact hwalks.walk_eq
  have hrefused : (linkTo target).walk true [] [target] = .refused .nameTooLong := by
    simp [Disk.walk, Disk.entry?, hne "." (by decide), hne ".." (by decide), hlong]
  have hresolve : (linkTo target).resolve true (Disk.linksMax + 1) [] ["x.pdb"] =
      .error .nameTooLong := by
    simp only [Disk.linksMax, Disk.resolve, hlink, hrefused]
  refine ⟨by decide +kernel, bind_eq_error.mpr (Or.inl ?_)⟩
  -- The path itself is short; it is the link that leads to the name.
  rw [Disk.locate, if_neg (by decide), if_neg (by decide)]
  exact mapError_eq_error.mpr ⟨_, hresolve, rfl⟩

theorem linkTo_long_unexaminable :
    Unexaminable (linkTo (String.ofList (List.replicate 300 'a'))) ⟨.relative, ["x.pdb"]⟩ := by
  refine linkTo_unexaminable ?_ (by decide +kernel)
  rw [Disk.targetNames, String.toList_ofList]
  decide +kernel

theorem looping_link_skipped :
    let p : Path := ⟨.relative, ["x.pdb"]⟩
    let long := String.ofList (List.replicate 300 'a')
    (read builtinSources (linkTo "x.pdb") p).events =
      .ofList [.skipped ⟨"x.pdb", "not dll, exe or pdb"⟩] ∧
    (read builtinSources (linkTo long) p).events = .failed (.disk (.refused .nameTooLong p)) := by
  intro p long
  have hrefused : Unexaminable (linkTo long) p := linkTo_long_unexaminable
  have hloop : (linkTo "x.pdb").stat p = .error (.refused .tooManyLinks p) := rfl
  have hexamined : ¬ Unexaminable (linkTo "x.pdb") p := fun h => by
    cases hloop.symm.trans h.refused
  have hread : (linkTo "x.pdb").read p = .error (.refused .tooManyLinks p) := by
    rw [Disk.read, hloop]
    rfl
  exact ⟨(((only_unexaminable_inputs_fail _ p).2 hexamined).2.2 _ hread).1,
    ((only_unexaminable_inputs_fail _ p).1 hrefused).1⟩

end SourceRecovery.Pipeline
