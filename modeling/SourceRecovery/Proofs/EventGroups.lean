import Mathlib.Data.List.Forall2
import SourceRecovery.Proofs.DeclaredFaults

/-! The shape of what is reported of an input. Either it is skipped as a whole, with nothing else
said of it, or each of its parts contributes one group of events and no part hides another. -/
namespace SourceRecovery

theorem contribution_error {d : Document} {f : Fault} (h : contribution d = .error f) :
    ¬ f.Contained := by
  unfold contribution at h
  split at h
  · cases h
  · split at h
    · cases h
    · split at h
      · cases h
      · cases h
      · rename_i fault hformat hdecode _
        cases h
        cases f with
        | format reason => exact absurd rfl (hformat reason)
        | decode reason => exact absurd rfl (hdecode reason)
        | _ => exact id
      · cases h
      · split at h <;> cases h

/-- Malformed content can end an extraction only where documents are listed. -/
theorem extract_fault {c : Container} {f : Fault} (h : (extract c).fault = some f)
    (hf : f.Contained) : c.documents.fault = some f := by
  unfold extract Sequence.append at h
  split at h
  · rename_i g hg
    rw [hg] at h
    cases h
    -- A fault that ends a document is none of malformed content, which is reported instead.
    have hsteps : (Sequence.ofSteps contribution c.documents.items).fault = some f := hg
    obtain ⟨d, _, herror⟩ := Sequence.ofSteps_fault hsteps
    exact absurd hf (contribution_error herror)
  · exact h

theorem extract_fault_eq_none {c : Container} (h : (extract c).fault = none) :
    c.documents.fault = none := by
  unfold extract Sequence.append at h
  split at h
  · rename_i g hg
    rw [hg] at h
    cases h
  · exact h

theorem extract_length_le (c : Container) :
    (extract c).items.length ≤ c.documents.items.length := by
  have hshares : (contributions c.documents.items).items.length ≤ c.documents.items.length :=
    Nat.le_trans (List.length_filterMap_le _ _) (Sequence.ofSteps_length_le _ _)
  unfold extract Sequence.append
  split
  · exact hshares
  · simpa [Sequence.after] using hshares

namespace Pipeline

variable {sources : List Source} {source : Source} {d : Disk} {p : Path}

/-- Of all sources this is the first to handle a path. -/
def FirstToHandle (sources : List Source) (d : Disk) (p : Path) (source : Source) : Prop :=
  ∃ front back, sources = front ++ source :: back ∧
    (∀ other ∈ front, other.handles d p = .ok false) ∧ source.handles d p = .ok true

theorem sourceFor_eq_some_iff :
    sourceFor d p sources = .ok (some source) ↔ FirstToHandle sources d p source := by
  induction sources with
  | nil => simp [sourceFor, FirstToHandle]
  | cons first rest ih =>
    rw [sourceFor]
    constructor
    · intro h
      obtain ⟨handled, hhandled, h⟩ := bind_eq_ok.mp h
      cases handled with
      | true =>
        cases h
        exact ⟨[], rest, rfl, by simp, hhandled⟩
      | false =>
        obtain ⟨front, back, rfl, hfront, hsource⟩ := ih.mp h
        exact ⟨first :: front, back, rfl, List.forall_mem_cons.mpr ⟨hhandled, hfront⟩, hsource⟩
    · rintro ⟨front, back, hsources, hfront, hsource⟩
      cases front with
      | nil =>
        cases hsources
        exact bind_eq_ok.mpr ⟨true, hsource, rfl⟩
      | cons other front =>
        cases hsources
        obtain ⟨hother, hfront⟩ := List.forall_mem_cons.mp hfront
        exact bind_eq_ok.mpr ⟨false, hother, ih.mpr ⟨front, back, rfl, hfront, hsource⟩⟩

theorem FirstToHandle.unique {source' : Source} (h : FirstToHandle sources d p source)
    (h' : FirstToHandle sources d p source') : source = source' := by
  cases (sourceFor_eq_some_iff.mpr h).symm.trans (sourceFor_eq_some_iff.mpr h')
  rfl

theorem mem_builtinSources :
    source ∈ builtinSources ↔ source = pdbSource ∨ source = imageSource := by
  simp only [builtinSources, List.mem_cons, List.not_mem_nil, or_false]

theorem isFileWith_of_not_mem {suffixes : List String}
    (h : Discovery.lowerSuffix p ∉ suffixes) : isFileWith suffixes d p = .ok false := by
  rw [isFileWith, if_neg fun hcontains => h (List.contains_iff_mem.mp hcontains)]

theorem builtin_handles_other (hsource : source ∈ builtinSources)
    (h : Discovery.hasCandidateSuffix p = false) : source.handles d p = .ok false := by
  have hother : Discovery.lowerSuffix p ∉ Discovery.imageSuffixes ++ Discovery.pdbSuffixes :=
    fun hmem => Bool.false_ne_true (h.symm.trans (List.contains_iff_mem.mpr hmem))
  rw [List.mem_append, not_or] at hother
  rcases mem_builtinSources.mp hsource with rfl | rfl
  · exact isFileWith_of_not_mem hother.2
  · exact isFileWith_of_not_mem hother.1

/-- The faults among its parts for which an input is skipped, with what is said of it. -/
inductive Skips : Fault → String → Prop
  | format (reason) : Skips (.format reason) ("not supported image, " ++ reason)
  | system (reason) : Skips (.system reason) ("cannot read, " ++ reason)
  | disk (cause q) :
      Skips (.disk (.refused cause q)) ("cannot read, " ++ (Disk.Error.refused cause q).message)

/-- The ways in which reading an input with its source comes out. -/
inductive Reads (source : Source) (d : Disk) (p : Path) : Reading → Prop
  | skipped {f reason} (hfault : (source.parts d p).fault = some f) (hskips : Skips f reason) :
      Reads source d p (skip p reason)
  | failed {f} (hfault : (source.parts d p).fault = some f) (hskips : ∀ reason, ¬ Skips f reason) :
      Reads source d p ⟨none, .failed f⟩
  | gathered {note parts} (hparts : source.parts d p = .ofList parts) :
      Reads source d p ⟨some note, Sequence.concatMap (partEvents p) parts⟩

theorem readWith_reads (source : Source) (d : Disk) (p : Path) :
    Reads source d p (readWith source d p) := by
  unfold readWith
  dsimp only
  split
  · exact .skipped ‹_› (.format _)
  · exact .skipped ‹_› (.system _)
  · exact .skipped ‹_› (.disk _ _)
  · rename_i fault hformat hsystem hdisk hfault
    refine .failed hfault fun reason hskips => ?_
    cases hskips with
    | format reason => exact hformat reason rfl
    | system reason => exact hsystem reason rfl
    | disk cause q => exact hdisk cause q rfl
  · rename_i hfault
    refine .gathered ?_
    rw [Sequence.ofList, ← hfault]

/-- The events of one part. A container is opened, and then come files and issues of its documents;
only if the list of its documents broke off is there an issue of the container itself, at the end. -/
inductive Group (p : Path) : Part → List Event → Prop
  | issue (i : ContainerIssue) :
      Group p (.issue i) [.containerIssue ⟨s!"{p.render} ({i.source})", i.reason⟩]
  | listed {c : Container} (hend : c.documents.fault = none) :
      Group p (.container c)
        (.opened ⟨p.render, c.documentCount⟩ :: (extract c).items.map extractedEvent)
  | corrupt {c : Container} {reason} (hend : c.documents.fault = some (.format reason)) :
      Group p (.container c)
        (.opened ⟨p.render, c.documentCount⟩ :: (extract c).items.map extractedEvent ++
          [.containerIssue ⟨p.render, "document table is corrupt, " ++ reason⟩])

/-- What would end the events of an input: an extraction that fails otherwise than by its format. -/
def Part.Finishes : Part → Prop
  | .issue _ => True
  | .container c => ∀ f, (extract c).fault = some f → ∃ reason, f = .format reason

theorem partEvents_fault_eq_none {part : Part} :
    (partEvents p part).fault = none ↔ part.Finishes := by
  cases part with
  | issue i => simp [partEvents, Part.Finishes, Sequence.ofList]
  | container c =>
    simp only [partEvents, Part.Finishes]
    split
    · rename_i reason hfault
      refine iff_of_true rfl fun f hf => ⟨reason, ?_⟩
      rw [hfault] at hf
      exact (Option.some.inj hf).symm
    · rename_i fault hformat
      constructor
      · intro h f hf
        rw [h] at hf
        cases hf
      · intro h
        cases hf : (extract c).fault with
        | none => rfl
        | some f =>
          obtain ⟨reason, rfl⟩ := h f hf
          exact absurd hf (hformat reason)

theorem group_partEvents {part : Part} (h : (partEvents p part).fault = none) :
    Group p part (partEvents p part).items := by
  cases part with
  | issue i => exact .issue i
  | container c =>
    cases hextract : (extract c).fault with
    | none =>
      have hevents : (partEvents p (.container c)).items =
          .opened ⟨p.render, c.documentCount⟩ :: (extract c).items.map extractedEvent := by
        simp only [partEvents, hextract]
      exact hevents ▸ .listed (extract_fault_eq_none hextract)
    | some f =>
      obtain ⟨reason, rfl⟩ := partEvents_fault_eq_none.mp h f hextract
      have hevents : (partEvents p (.container c)).items =
          .opened ⟨p.render, c.documentCount⟩ :: (extract c).items.map extractedEvent ++
            [.containerIssue ⟨p.render, "document table is corrupt, " ++ reason⟩] := by
        simp only [partEvents, hextract, Sequence.ofList]
      exact hevents ▸ .corrupt (extract_fault hextract trivial)

theorem Group.not_skipped {part : Part} {events : List Event} (h : Group p part events)
    (s : InputSkipped) : .skipped s ∉ events := by
  have hextracted : ∀ c : Container, .skipped s ∉ (extract c).items.map extractedEvent := by
    intro c hmem
    obtain ⟨e, _, he⟩ := List.mem_map.mp hmem
    cases e <;> cases he
  cases h with
  | issue i => simp
  | listed => simpa using hextracted _
  | corrupt => simpa using hextracted _

theorem not_skipped_of_groups {parts : List Part} {groups : List (List Event)}
    (h : List.Forall₂ (Group p) parts groups) (s : InputSkipped) :
    .skipped s ∉ groups.flatten := by
  induction h with
  | nil => exact List.not_mem_nil
  | cons hgroup _ ih =>
    rw [List.flatten_cons, List.mem_append, not_or]
    exact ⟨hgroup.not_skipped s, ih⟩

theorem gathered_groups {parts : List Part} (h : ∀ part ∈ parts, part.Finishes) :
    ∃ groups, List.Forall₂ (Group p) parts groups ∧
      Sequence.concatMap (partEvents p) parts = .ofList groups.flatten := by
  have hfault : ∀ part ∈ parts, (partEvents p part).fault = none :=
    fun part hpart => partEvents_fault_eq_none.mpr (h part hpart)
  refine ⟨parts.map fun part => (partEvents p part).items, ?_, ?_⟩
  · rw [List.forall₂_map_right_iff]
    exact List.forall₂_same.mpr fun part hpart => group_partEvents (hfault part hpart)
  · rw [Sequence.ofList, ← Sequence.concatMap_items hfault,
      ← Sequence.concatMap_fault_eq_none.mpr hfault]

theorem builtin_container_listed (hsource : source ∈ builtinSources) {c : Container}
    (hc : .container c ∈ (source.parts d p).items) :
    c.documents.fault = none ∧ c.documents.items.length = c.documentCount := by
  obtain ⟨pdb, hpdb, rfl⟩ := builtin_container hsource hc
  obtain ⟨r, hr, hof⟩ := (Pdb.Reader.ofImage_of pdb).parentIndex
  obtain ⟨hfault, hrows⟩ := hof.documents_complete hpdb
  have hlength := congrArg List.length hrows
  rw [List.length_map, List.length_range'] at hlength
  have hcontainer : pdb.container = r.container := by
    rw [Pdb.Image.container, hr]
  have hcount : r.container.documentCount = pdb.tableRows .document := by
    rw [Pdb.Reader.container, hof.image]
  rw [hcontainer, hcount]
  exact ⟨hfault, hlength⟩

theorem Group.of_listed {c : Container} {events : List Event}
    (h : Group p (.container c) events) (hend : c.documents.fault = none) :
    events = .opened ⟨p.render, c.documentCount⟩ :: (extract c).items.map extractedEvent := by
  cases h with
  | listed => rfl
  | corrupt hcorrupt =>
    rw [hend] at hcorrupt
    cases hcorrupt

theorem read_of_first (h : FirstToHandle sources d p source) :
    read sources d p = readWith source d p := by
  rw [read, sourceFor_eq_some_iff.mpr h]

theorem readWith_of_skips {f : Fault} {reason : String}
    (hfault : (source.parts d p).fault = some f) (hskips : Skips f reason) :
    readWith source d p = skip p reason := by
  cases hskips <;> simp only [readWith, hfault]

theorem readWith_of_parts {parts : List Part} (h : source.parts d p = .ofList parts) :
    (readWith source d p).events = Sequence.concatMap (partEvents p) parts := by
  simp only [readWith, h, Sequence.ofList]

theorem extractFile_of_skip {reason : String} (h : read sources d p = skip p reason)
    (options : Output.Options) :
    extractFile sources options d p = ⟨none, .ofList [.skipped ⟨p.render, reason⟩], d⟩ := by
  simp only [extractFile, h, skip, Sequence.ofList, settleAll, settle]

/-- Once the events of an input are complete, they are that it is skipped and nothing else, or one
group for each part in order and no word of skipping. They are complete unless a container fails
otherwise than by its format. A fault that was met while parts were gathered leaves none of those
before it, and nothing is written. A container of the built-in sources is opened and followed by no
more items than it has documents, none of them an issue of the container. -/
theorem finished_events_grouped :
    (∀ sources d p, (read sources d p).events.fault = none →
      (∃ reason, (read sources d p).events = .ofList [.skipped ⟨p.render, reason⟩]) ∨
      ∃ source parts groups, FirstToHandle sources d p source ∧
        source.parts d p = .ofList parts ∧ List.Forall₂ (Group p) parts groups ∧
        (read sources d p).events = .ofList groups.flatten ∧
        ∀ s, .skipped s ∉ groups.flatten) ∧
    (∀ sources d p source parts, FirstToHandle sources d p source →
      source.parts d p = .ofList parts →
        ((read sources d p).events.fault = none ↔ ∀ part ∈ parts, part.Finishes)) ∧
    (∀ sources d p source f reason, FirstToHandle sources d p source →
      (source.parts d p).fault = some f → Skips f reason →
        (read sources d p).events = .ofList [.skipped ⟨p.render, reason⟩] ∧
        ∀ options, (extractFile sources options d p).outcomes =
            .ofList [.skipped ⟨p.render, reason⟩] ∧
          (extractFile sources options d p).disk = d) ∧
    ∀ source ∈ builtinSources, ∀ d p c events, .container c ∈ (source.parts d p).items →
      Group p (.container c) events →
        ∃ items, events = .opened ⟨p.render, c.documentCount⟩ :: items ∧
          items.length ≤ c.documentCount ∧ ∀ i, .containerIssue i ∉ items := by
  refine ⟨?_, ?_, ?_, ?_⟩
  · intro sources d p hfinished
    unfold read at hfinished ⊢
    split at hfinished
    · cases hfinished
    · exact .inl ⟨_, rfl⟩
    · rename_i source hsource
      -- The reading is taken as such, so that the way it came about can be told apart.
      have hreads := readWith_reads source d p
      revert hfinished
      generalize readWith source d p = reading at hreads
      intro hfinished
      cases hreads with
      | skipped => exact .inl ⟨_, rfl⟩
      | failed => cases hfinished
      | @gathered note parts hparts =>
        have hall : ∀ part ∈ parts, part.Finishes := fun part hpart =>
          partEvents_fault_eq_none.mp (Sequence.concatMap_fault_eq_none.mp hfinished part hpart)
        obtain ⟨groups, hgroups, hevents⟩ := gathered_groups hall
        refine .inr ⟨source, parts, groups, sourceFor_eq_some_iff.mp hsource, hparts, hgroups,
          hevents, not_skipped_of_groups hgroups⟩
  · intro sources d p source parts hfirst hparts
    rw [read_of_first hfirst, readWith_of_parts hparts, Sequence.concatMap_fault_eq_none]
    exact forall₂_congr fun part _ => partEvents_fault_eq_none
  · intro sources d p source f reason hfirst hfault hskips
    have hread : read sources d p = skip p reason :=
      (read_of_first hfirst).trans (readWith_of_skips hfault hskips)
    refine ⟨by rw [hread, skip], fun options => ?_⟩
    rw [extractFile_of_skip hread]
    exact ⟨rfl, rfl⟩
  · intro source hsource d p c events hc hgroup
    obtain ⟨hend, hcount⟩ := builtin_container_listed hsource hc
    refine ⟨_, hgroup.of_listed hend, ?_, fun i hi => ?_⟩
    · rw [List.length_map, ← hcount]
      exact extract_length_le c
    · obtain ⟨e, _, he⟩ := List.mem_map.mp hi
      cases e <;> cases he

def sourcesWith (parts : Sequence Part) : List Source :=
  builtinSources ++ [⟨"custom", fun _ _ => .ok true, fun _ _ => parts⟩]

theorem sourcesWith_first (parts : Sequence Part)
    (h : Discovery.hasCandidateSuffix p = false) :
    ∃ source, FirstToHandle (sourcesWith parts) d p source ∧ source.parts d p = parts :=
  ⟨_, ⟨builtinSources, [], rfl, fun _ hother => builtin_handles_other hother h, rfl⟩, rfl⟩

/-- A container whose list of documents breaks off behind the first, an entry that could not be
opened and a container without documents. -/
def threeParts : List Part :=
  [.container ⟨2, ⟨[⟨1, "a.cs", none, .ofList [⟨embeddedSourceKind, [0, 0, 0, 0, 65]⟩]⟩],
      some (.format "row 2 out of range")⟩⟩,
    .issue ⟨"entry 1", "no data"⟩, .container ⟨0, .ofList []⟩]

def folderContainer : Container where
  documentCount := 2
  documents := .ofList [⟨1, "src/a", none,
      .ofList [⟨embeddedSourceKind, [0, 0, 0, 0, 65]⟩, ⟨.nil, []⟩]⟩,
    ⟨2, "src/b", none, .ofList [⟨.nil, [1]⟩]⟩]

theorem threeParts_grouped :
    let p : Path := ⟨.root, ["in.bin"]⟩
    let gathered := (read (sourcesWith (.ofList threeParts)) twoInputs p).events
    (∃ groups, List.Forall₂ (Group p) threeParts groups ∧ gathered = .ofList groups.flatten) ∧
    gathered = .ofList [.opened ⟨"/in.bin", 2⟩, .file ⟨"a.cs", "A", false⟩,
      .containerIssue ⟨"/in.bin", "document table is corrupt, row 2 out of range"⟩,
      .containerIssue ⟨"/in.bin (entry 1)", "no data"⟩, .opened ⟨"/in.bin", 0⟩] ∧
    (∀ part ∈ threeParts, part.Finishes) ∧
    (extractFile (sourcesWith ⟨threeParts, some (.format "cut off")⟩) ⟨p, true⟩ twoInputs p).disk =
      twoInputs ∧
    .container folderContainer ∈ (pdbSource.parts twoInputs ⟨.root, ["good.pdb"]⟩).items ∧
    ∃ items, (partEvents ⟨.root, ["good.pdb"]⟩ (.container folderContainer)).items =
      .opened ⟨"/good.pdb", 2⟩ :: items ∧ items.length ≤ 2 := by
  intro p gathered
  obtain ⟨hshape, hcomplete, hfailing, hbuiltin⟩ := finished_events_grouped
  have hother : Discovery.hasCandidateSuffix p = false := by decide +kernel
  have hevents : gathered = .ofList [.opened ⟨"/in.bin", 2⟩, .file ⟨"a.cs", "A", false⟩,
      .containerIssue ⟨"/in.bin", "document table is corrupt, row 2 out of range"⟩,
      .containerIssue ⟨"/in.bin (entry 1)", "no data"⟩, .opened ⟨"/in.bin", 0⟩] := by
    decide +kernel
  have hend : gathered.fault = none := hevents ▸ rfl
  obtain ⟨source, hfirst, hparts⟩ := sourcesWith_first (d := twoInputs) (.ofList threeParts) hother
  have hmem : .container folderContainer ∈
      (pdbSource.parts twoInputs ⟨.root, ["good.pdb"]⟩).items := by decide +kernel
  refine ⟨?_, hevents, (hcomplete _ _ _ source _ hfirst hparts).mp hend, ?_, hmem, ?_⟩
  · rcases hshape _ _ _ hend with ⟨reason, hskip⟩ | ⟨source', parts, groups, hfirst', hparts', h⟩
    · cases hevents.symm.trans hskip
    · obtain rfl := hfirst.unique hfirst'
      cases hparts.symm.trans hparts'
      exact ⟨groups, h.1, h.2.1⟩
  · obtain ⟨failing, hfirst, hparts⟩ :=
      sourcesWith_first (d := twoInputs) ⟨threeParts, some (.format "cut off")⟩ hother
    have hfault : (failing.parts twoInputs p).fault = some (.format "cut off") := hparts ▸ rfl
    exact ((hfailing _ _ _ failing _ _ hfirst hfault (.format _)).2 ⟨p, true⟩).2
  · have hgroup : Group ⟨.root, ["good.pdb"]⟩ (.container folderContainer)
        (partEvents ⟨.root, ["good.pdb"]⟩ (.container folderContainer)).items :=
      group_partEvents (by decide +kernel)
    obtain ⟨items, hitems, hlength, _⟩ :=
      hbuiltin pdbSource List.mem_cons_self _ _ _ _ hmem hgroup
    exact ⟨items, hitems, hlength⟩

end Pipeline
end SourceRecovery
