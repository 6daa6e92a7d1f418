import SourceRecovery.Pdb.Writer
import SourceRecovery.Proofs.BuiltinInputs
import SourceRecovery.Proofs.EventsOnDemand
import SourceRecovery.Proofs.WriteRuns

/-! Extracting an input twice, on a disk without links. The first run leaves the input as it was, so
the second finds the same documents, and each of them is written or refused as before: what is in
its way now was in its way when its turn came. -/
namespace SourceRecovery

def Outcome.unexplained : Outcome → Outcome
  | .writeIssue i => .writeIssue i.unexplained
  | o => o

namespace Pipeline

open Output (Options)

variable {d d' : Disk} {p : Path} {options : Options} {events : List Event}

theorem reported_unexplained (result : Except Output.WriteIssue Output.WrittenFile) :
    (reported result).unexplained = reported (result.mapError Output.WriteIssue.unexplained) := by
  cases result <;> rfl

/-- The file that an event asks for. -/
def wanted (options : Options) (base : Path) : Event → Placement
  | .file f => Output.placement base options f.name f.text
  | _ => ⟨none, []⟩

def foreseen (options : Options) (base : Path) (event : Event) (taken : Bool) : Outcome :=
  match event with
  | .file f => reported (Output.answer base options f.name f.text taken)
  | .opened o => .opened o
  | .extractionIssue i => .extractionIssue i
  | .containerIssue i => .containerIssue i
  | .skipped s => .skipped s

theorem settle_puts (destination : String) (contain : Bool) :
    let options : Options := ⟨Path.ofString destination, contain⟩
    Puts (settle options) (wanted options) Outcome.unexplained (foreseen options) := by
  intro options
  constructor
  · intro d hd event
    cases event with
    | file f =>
      rw [settle_file]
      exact (Output.write_follows hd destination contain f.name f.text).tree
    | _ => rfl
  · intro d hd event
    cases event with
    | file f =>
      rw [settle_file]
      exact (Output.write_follows hd destination contain f.name f.text).workingDirectory
    | _ => rfl
  · intro d hd event
    cases event with
    | file f =>
      rw [settle_file, reported_unexplained,
        (Output.write_follows hd destination contain f.name f.text).answered]
      rfl
    | _ => rfl

theorem feed_settle_stat (hd : d.LinkFree) (destination : String) (contain : Bool)
    {events : List Event} {location : Location} {e : Entry} (hstat : d.stat p = .ok (location, e))
    (hspared : ∀ f, .file f ∈ events → ∀ path,
      Output.resolve d.workingDirectory ⟨Path.ofString destination, contain⟩ f.name = .ok path →
        path.location ≠ location) :
    (feed (settle ⟨Path.ofString destination, contain⟩) d events).1.stat p = .ok (location, e) := by
  obtain ⟨htree, hworking, _⟩ := (settle_puts destination contain).run hd events
  generalize (feed _ d events).1 = after at htree hworking ⊢
  have hextends : d.Extends after := by
    refine ⟨hworking, ?_⟩
    intro l old hold
    rw [htree]
    exact Tree.putAll_extends hd.tree _ l old hold
  obtain ⟨e', hstat', _⟩ := hextends.stat hstat
  have hkept : after.entry? location = some e := by
    rw [htree]
    apply Tree.putAll_kept hd.tree (Disk.stat_eq_ok_iff.mp hstat).2
    rintro g hg ⟨path, hpath, hfills⟩
    obtain ⟨event, hevent, rfl⟩ := List.mem_map.mp hg
    cases event with
    | file f => exact hspared f hevent path (Output.placement_path.mp hpath) hfills.1.symm
    | _ => cases hpath
  cases (Disk.stat_eq_ok_iff.mp hstat').2.symm.trans hkept
  exact hstat'

theorem read_builtin_congr (h : d'.stat p = d.stat p) :
    read builtinSources d' p = read builtinSources d p := by
  have hfile : d'.isFile p = d.isFile p := by
    rw [Disk.isFile, Disk.isFile, h]
  have hread : d'.read p = d.read p := by
    rw [Disk.read, Disk.read, h]
  have hhandles : sourceFor d' p builtinSources = sourceFor d p builtinSources := by
    simp only [builtinSources, sourceFor, pdbSource, imageSource, isFileWith, hfile]
  rw [read, read, hhandles]
  cases hfor : sourceFor d p builtinSources with
  | error f => rfl
  | ok found =>
    cases found with
    | none => rfl
    | some source =>
      obtain ⟨front, back, hsources, _⟩ := sourceFor_eq_some_iff.mp hfor
      have hparts : source.parts d' p = source.parts d p := by
        have hmem : source ∈ builtinSources :=
          hsources ▸ List.mem_append_right front List.mem_cons_self
        rcases mem_builtinSources.mp hmem with rfl | rfl
        · simp only [pdbSource, hread]
        · simp only [imageSource, hread]
      simp only [readWith, hparts]

theorem feed_settle_without_files (options : Options) (d : Disk) (h : ∀ f, .file f ∉ events) :
    (feed (settle options) d events).1 = d := by
  induction events with
  | nil => rfl
  | cons event rest ih =>
    have hrest := ih fun f hf => h f (List.mem_cons_of_mem event hf)
    cases event with
    | file f => exact absurd List.mem_cons_self (h f)
    | _ => exact hrest

/-- The files of an input are not written over it, so it is read as it was before they were written.
-/
theorem read_settled (hd : d.LinkFree) (destination : String) (contain : Bool)
    (hspared : ∀ f, .file f ∈ (read builtinSources d p).events.items → ∀ path,
      Output.resolve d.workingDirectory ⟨Path.ofString destination, contain⟩ f.name = .ok path →
        ∀ found, d.stat p = .ok found → path.location ≠ found.1) :
    read builtinSources (feed (settle ⟨Path.ofString destination, contain⟩) d
      (read builtinSources d p).events.items).1 p = read builtinSources d p := by
  by_cases hfiles : ∃ f, .file f ∈ (read builtinSources d p).events.items
  · obtain ⟨f, hf⟩ := hfiles
    have htaken := builtin_taken d p
    apply read_builtin_congr
    generalize read builtinSources d p = reading at htaken hf hspared ⊢
    cases htaken with
    | unexaminable => exact absurd hf List.not_mem_nil
    | passed => cases List.mem_singleton.mp hf
    | opened _ hread =>
      obtain ⟨⟨location, e⟩, hstat, _⟩ := bind_eq_ok.mp hread
      rw [hstat]
      apply feed_settle_stat hd destination contain hstat
      intro f hf path hpath
      exact hspared f hf path hpath (location, e) hstat
  · rw [feed_settle_without_files _ d fun f hf => hfiles ⟨f, hf⟩]

/-- On a disk without links, if no document of an input leads to the input itself, extracting it
once more leaves the tree as it is and has the outcomes that it had before, but for the reasons why
documents are not written. -/
theorem extraction_repeats (hd : d.LinkFree) (destination : String) (contain : Bool) (p : Path) :
    let options : Options := ⟨Path.ofString destination, contain⟩
    let first := extractFile builtinSources options d p
    let second := extractFile builtinSources options first.disk p
    (∀ f, .file f ∈ (read builtinSources d p).events.items → ∀ path,
      Output.resolve d.workingDirectory options f.name = .ok path →
        ∀ found, d.stat p = .ok found → path.location ≠ found.1) →
    second.disk.entry? = first.disk.entry? ∧
    second.disk.workingDirectory = first.disk.workingDirectory ∧
    second.outcomes.fault = first.outcomes.fault ∧
    second.outcomes.items.map Outcome.unexplained =
      first.outcomes.items.map Outcome.unexplained := by
  intro options first second hspared
  have hfirst : first = _ := extractFile_eq_feed builtinSources options d p
  have hreading : read builtinSources first.disk p = read builtinSources d p := by
    rw [hfirst]
    exact read_settled hd destination contain hspared
  have hsecond : second = _ := extractFile_eq_feed builtinSources options first.disk p
  rw [hreading] at hsecond
  obtain ⟨htree, hworking, houtcomes⟩ :=
    (settle_puts destination contain).run_again hd (read builtinSources d p).events.items
  rw [hsecond, hfirst]
  exact ⟨htree, hworking, rfl, houtcomes⟩

def collidingPdb : Bytes :=
  let document := fun (name : String) (text : UInt8) =>
    (⟨name, [⟨embeddedSourceKind, [0, 0, 0, 0, text]⟩]⟩ : Pdb.Writer.DocumentSpec)
  Pdb.Writer.write ⟨[document "x" 49, document "x/y" 50, document "d/e" 51, document "d" 52,
    document "x" 53], 0, 0, false⟩

def collidingDisk : Disk where
  workingDirectory := ⟨.root, ["w"]⟩
  entries := [(["w"], .directory), (["a.pdb", "w"], .file collidingPdb)]

theorem collidingDisk_linkFree : collidingDisk.LinkFree := by
  constructor
  · refine ⟨by decide, ?_⟩
    intro name hname
    obtain rfl := List.mem_singleton.mp hname
    exact ⟨by decide, by decide, by decide, by decide⟩
  · intro location target hlink
    rcases Disk.mem_entries_of_eq_some hlink with h | h
    · cases h
    · simp [collidingDisk] at h

theorem colliding_documents_repeat :
    let options : Options := ⟨Path.ofString "out", false⟩
    let first := extractFile builtinSources options collidingDisk ⟨.relative, ["a.pdb"]⟩
    let second := extractFile builtinSources options first.disk ⟨.relative, ["a.pdb"]⟩
    second.disk.entry? = first.disk.entry? ∧
    second.outcomes.items.map Outcome.unexplained =
      [.opened ⟨"a.pdb", 5⟩, .written ⟨⟨.root, ["w", "out", "x"]⟩, "x", 4⟩,
        .writeIssue ⟨"/w/out/x/y", ""⟩, .written ⟨⟨.root, ["w", "out", "d", "e"]⟩, "d/e", 4⟩,
        .writeIssue ⟨"/w/out/d", ""⟩, .written ⟨⟨.root, ["w", "out", "x"]⟩, "x", 4⟩] := by
  intro options first second
  have hevents : (read builtinSources collidingDisk ⟨.relative, ["a.pdb"]⟩).events.items =
      [.opened ⟨"a.pdb", 5⟩, .file ⟨"x", "1", false⟩, .file ⟨"x/y", "2", false⟩,
        .file ⟨"d/e", "3", false⟩, .file ⟨"d", "4", false⟩, .file ⟨"x", "5", false⟩] := by
    decide +kernel
  have hstat : collidingDisk.stat ⟨.relative, ["a.pdb"]⟩ =
      .ok (["a.pdb", "w"], .file collidingPdb) := rfl
  have helsewhere : ∀ name ∈ ["x", "x/y", "d/e", "d"],
      (Output.resolve collidingDisk.workingDirectory options name).map Path.location ≠
        .ok ["a.pdb", "w"] := by
    decide +kernel
  obtain ⟨htree, _, _, houtcomes⟩ := extraction_repeats collidingDisk_linkFree "out" false
    ⟨.relative, ["a.pdb"]⟩ (by
      intro f hf path hpath found hfound
      cases hstat.symm.trans hfound
      intro hlocation
      apply helsewhere f.name
      · rw [hevents] at hf
        simp at hf
        rcases hf with rfl | rfl | rfl | rfl | rfl <;> decide
      · rw [hpath]
        exact congrArg Except.ok hlocation)
  refine ⟨htree, houtcomes.trans ?_⟩
  decide +kernel

end Pipeline
end SourceRecovery
