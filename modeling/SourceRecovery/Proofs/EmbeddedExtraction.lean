import SourceRecovery.Proofs.DeclaredFaults
import SourceRecovery.Proofs.EntryIsolation
import SourceRecovery.Proofs.ImageLayout

/-! A PDB is extracted alike from a file of its own and from an image that embeds it. What its file
gives is reported under the path of the image; why its file is skipped is said of its entry. -/
namespace SourceRecovery

def Event.movedTo (path : Path) : Event → Event
  | .opened o => .opened { o with source := path.render }
  | .containerIssue i => .containerIssue { i with source := path.render }
  | .skipped s => .skipped { s with source := path.render }
  | event => event

namespace Pipeline

open Pe Pe.Writer

structure Holds (d : Disk) (path : Path) (suffixes : List String) (content : Bytes) : Prop where
  suffix : Discovery.lowerSuffix path ∈ suffixes
  file : d.isFile path = .ok true
  content : d.read path = .ok content

variable {d : Disk} {path : Path} {content : Bytes}

theorem Holds.read_pdb (h : Holds d path Discovery.pdbSuffixes content) :
    read builtinSources d path = readWith pdbSource d path := by
  have hsuffix := List.contains_iff_mem.mpr h.suffix
  have hhandles : pdbSource.handles d path = .ok true := by
    simp only [pdbSource, isFileWith, hsuffix, if_true, h.file, mapError_ok]
  simp only [read, sourceFor, builtinSources, hhandles, bind, Except.bind]
  rfl

theorem Holds.read_image (h : Holds d path Discovery.imageSuffixes content) :
    read builtinSources d path = readWith imageSource d path := by
  have hsuffix := List.contains_iff_mem.mpr h.suffix
  -- Sources are asked in order, so the one for PDBs has to turn the path down first.
  have hother : Discovery.pdbSuffixes.contains (Discovery.lowerSuffix path) = false := by
    have hmem := h.suffix
    simp only [Discovery.imageSuffixes, List.mem_cons, List.not_mem_nil, or_false] at hmem
    rcases hmem with hdll | hexe
    · rw [hdll]
      decide
    · rw [hexe]
      decide
  have hpasses : pdbSource.handles d path = .ok false := by
    simp only [pdbSource, isFileWith, hother]
    rfl
  have hhandles : imageSource.handles d path = .ok true := by
    simp only [imageSource, isFileWith, hsuffix, if_true, h.file, mapError_ok]
  simp only [read, sourceFor, builtinSources, hpasses, hhandles, bind, Except.bind]
  rfl

def containerEvents (path : Path) (c : Container) : List Event :=
  .opened ⟨path.render, c.documentCount⟩ :: (extract c).items.map extractedEvent

theorem partEvents_of_read {pdb : Pdb.Image} (h : Pdb.Image.read content = .ok pdb) (path : Path) :
    partEvents path (.container pdb.container) = .ofList (containerEvents path pdb.container) := by
  have hcomplete := Pdb.Image.container_extract_complete (Pdb.Image.read_wellFormed h)
  simp only [partEvents, hcomplete]
  rfl

theorem containerEvents_movedTo (path path' : Path) (c : Container) :
    (containerEvents path c).map (·.movedTo path') = containerEvents path' c := by
  rw [containerEvents, List.map_cons, List.map_map]
  refine congrArg _ (List.map_congr_left fun e _ => ?_)
  cases e <;> rfl

theorem Holds.pdb_events (h : Holds d path Discovery.pdbSuffixes content) :
    (read builtinSources d path).events = .ofList (match Pdb.Image.read content with
      | .ok pdb => containerEvents path pdb.container
      | .error e => [.skipped ⟨path.render, "not supported image, " ++ e.message⟩]) := by
  rw [h.read_pdb]
  cases hread : Pdb.Image.read content with
  | error e =>
    have hparts : pdbSource.parts d path = .failed (.format e.message) := by
      simp only [pdbSource, h.content, hread]
    rw [readWith, hparts]
    rfl
  | ok pdb =>
    have hparts : pdbSource.parts d path = .ofList [.container pdb.container] := by
      simp only [pdbSource, h.content, hread]
    have hevents : Sequence.concatMap (partEvents path) [.container pdb.container] =
        .ofList (containerEvents path pdb.container) := by
      rw [Sequence.concatMap_singleton, partEvents_of_read hread path]
    rw [readWith, hparts]
    exact hevents

/-- What an entry of an image is there for: a PDB with a Deflate stream of it, or other data. -/
inductive Carried where
  | pdb (content stream : Bytes)
  | other (kind : Nat) (data : Bytes)
  deriving DecidableEq, Repr

namespace Carried

def spec : Carried → EntrySpec
  | .pdb content stream => ⟨embeddedPdbKind, embeddedPdbData content stream⟩
  | .other kind data => ⟨kind, data⟩

/-- The stream decodes to the PDB, whose size has room in its field. Other data is of another kind. -/
def Sound : Carried → Prop
  | .pdb content stream => content.length < Bytes.capacity 4 ∧
      Deflate.Decodes .blockStart #[] (Deflate.BitStream.ofBytes stream) ⟨content, .finished⟩
  | .other kind _ => kind ≠ embeddedPdbKind

def events (path : Path) (alone : Bytes → List Event) (index : Nat) : Carried → List Event
  | .pdb content _ =>
    match Pdb.Image.read content with
    | .ok _ => (alone content).map (·.movedTo path)
    | .error e => [.containerIssue
        ⟨path.render ++ " (debug directory entry " ++ toString index ++ ")", e.message⟩]
  | .other _ _ => []

end Carried

theorem openEntry_of_data {p : Pe.Image} {entry : DebugEntry} {stream : Bytes}
    (hdata : p.entryData entry = .ok (embeddedPdbData content stream))
    (hsound : (Carried.pdb content stream).Sound) :
    p.openEntry entry = (Pdb.Image.read content).mapError .pdb := by
  have hunpack : Pe.Image.unpackPdb entry.index (embeddedPdbData content stream) = .ok content :=
    Pe.Image.unpackPdb_eq_ok_iff.mpr ⟨_, stream, rfl, Bytes.ofNatLE_length 4 _,
      Bytes.toNatLE_ofNatLE hsound.1, hsound.2⟩
  simp only [Pe.Image.openEntry, Pe.Image.embeddedPdb, hdata, hunpack, mapError_ok, bind,
    Except.bind]

theorem partEvents_partOf {p : Pe.Image} {entry : DebugEntry} {stream : Bytes}
    {alone : Bytes → List Event}
    (hdata : p.entryData entry = .ok (embeddedPdbData content stream))
    (hsound : (Carried.pdb content stream).Sound)
    (halone : ∀ pdb, Pdb.Image.read content = .ok pdb →
      (alone content).map (·.movedTo path) = containerEvents path pdb.container) :
    partEvents path (partOf p entry) =
      .ofList ((Carried.pdb content stream).events path alone entry.index) := by
  rw [partOf, openEntry_of_data hdata hsound, Carried.events]
  cases hread : Pdb.Image.read content with
  | ok pdb =>
    simp only [mapError_ok, embeddedPart, halone pdb hread]
    exact partEvents_of_read hread path
  | error e =>
    have hjoin : " (debug directory entry " = " (" ++ "debug directory entry " := rfl
    simp only [mapError_error, embeddedPart, partEvents, Pe.Image.OpenError.message, toString,
      String.append_assoc]
    rw [hjoin, String.append_assoc]

/-- Read in the order of the directory, the entries of an image give the events of what they are
there for. -/
theorem written_parts_events {p : Pe.Image} {entries : List Carried} {index offset : Nat}
    (path : Path) (alone : Bytes → List Event)
    (hdescribed : List.Forall₂ (Describes p)
      (writtenEntries index offset (entries.map Carried.spec)) (entries.map Carried.spec))
    (hsound : ∀ e ∈ entries, e.Sound)
    (halone : ∀ content stream, .pdb content stream ∈ entries → ∀ pdb,
      Pdb.Image.read content = .ok pdb →
        (alone content).map (·.movedTo path) = containerEvents path pdb.container) :
    Sequence.concatMap (partEvents path)
      (((writtenEntries index offset (entries.map Carried.spec)).filter
        (·.isEmbeddedPdb)).map (partOf p)) =
      .ofList ((entries.zipIdx index).flatMap fun (e, i) => e.events path alone i) := by
  induction entries generalizing index offset with
  | nil => rfl
  | cons e rest ih =>
    rw [List.map_cons, writtenEntries] at hdescribed ⊢
    obtain ⟨hfirst, hrest⟩ := List.forall₂_cons.mp hdescribed
    have hothers := ih hrest (fun c hc => hsound c (List.mem_cons_of_mem e hc))
      fun content stream hc => halone content stream (List.mem_cons_of_mem e hc)
    rw [List.zipIdx_cons, List.flatMap_cons]
    cases e with
    | other kind data =>
      -- Other data gives no part, but takes a number and room in the section.
      have hkind : kind ≠ embeddedPdbKind := hsound _ List.mem_cons_self
      rw [List.filter_cons_of_neg (by simp [DebugEntry.isEmbeddedPdb, Carried.spec, hkind])]
      exact hothers
    | pdb content stream =>
      have hevents := partEvents_partOf hfirst.data (hsound _ List.mem_cons_self)
        (halone content stream List.mem_cons_self)
      rw [List.filter_cons_of_pos (by simp [DebugEntry.isEmbeddedPdb, Carried.spec]), List.map_cons,
        Sequence.concatMap, hevents, hothers]
      rfl

/-- From an image with PDBs in it, good or bad and in any streams, and from a file of each the same
is extracted: every good PDB gives the events of its file under the path of the image, its container
and what that holds; every bad one gives an issue of its entry with the words its file is skipped
with. They come in the order of the entries. -/
theorem embedded_extracted_like_standalone (format : Format) (entries : List Carried)
    (hsound : ∀ e ∈ entries, e.Sound) (hfits : Fits (entries.map Carried.spec))
    {d : Disk} {path : Path}
    (himage : Holds d path Discovery.imageSuffixes (write format (entries.map Carried.spec)))
    {home : Bytes → Disk × Path} (hhome : ∀ content stream, .pdb content stream ∈ entries →
      Holds (home content).1 (home content).2 Discovery.pdbSuffixes content) :
    let alone := fun content => (read builtinSources (home content).1 (home content).2).events
    (read builtinSources d path).events = .ofList (entries.zipIdx.flatMap fun (e, index) =>
      e.events path (fun content => (alone content).items) index) ∧
    ∀ content stream, .pdb content stream ∈ entries →
      (∀ pdb, Pdb.Image.read content = .ok pdb →
        alone content = .ofList (containerEvents (home content).2 pdb.container)) ∧
      ∀ e, Pdb.Image.read content = .error e →
        alone content = .ofList
          [.skipped ⟨(home content).2.render, "not supported image, " ++ e.message⟩] := by
  intro alone
  have hparts := imageSource_parts himage.content (write_read format hfits)
    (imageOf_debugEntries format hfits)
  have hevents := written_parts_events path (fun content => (alone content).items)
    (imageOf_describes format (entries.map Carried.spec)) hsound
    fun content stream hc pdb hread => by
      simp only [alone, (hhome content stream hc).pdb_events, hread]
      exact containerEvents_movedTo _ path pdb.container
  refine ⟨?_, fun content stream hc => ⟨fun pdb hread => ?_, fun e hread => ?_⟩⟩
  · rw [himage.read_image, readWith, hparts]
    exact hevents
  · simp only [alone, (hhome content stream hc).pdb_events, hread]
  · simp only [alone, (hhome content stream hc).pdb_events, hread]

def mixedEntries : List Carried :=
  [.pdb emptyPdb (storedBlock emptyPdb), .other 2 [9, 9], .pdb [1, 2, 3] (storedBlock [1, 2, 3])]

def lone (name : String) (content : Bytes) : Disk :=
  ⟨⟨.root, []⟩, [([name], .file content)]⟩

theorem mixedEntries_extracted :
    let image := write .pe32Plus (mixedEntries.map Carried.spec)
    (read builtinSources (lone "a.dll" image) ⟨.root, ["a.dll"]⟩).events =
      .ofList [.opened ⟨"/a.dll", 0⟩,
        .containerIssue ⟨"/a.dll (debug directory entry 2)", "missing metadata root signature"⟩] := by
  intro image
  have hsound : ∀ e ∈ mixedEntries, e.Sound := by
    intro e he
    simp only [mixedEntries, List.mem_cons, List.not_mem_nil, or_false] at he
    rcases he with rfl | rfl | rfl
    · have hstored : Deflate.inflate (storedBlock emptyPdb) = ⟨emptyPdb, .finished⟩ := by
        decide +kernel
      exact ⟨by decide +kernel, hstored ▸ Deflate.inflate_decodes _⟩
    · exact (by decide : 2 ≠ embeddedPdbKind)
    · have hstored : Deflate.inflate (storedBlock [1, 2, 3]) = ⟨[1, 2, 3], .finished⟩ := by
        decide +kernel
      exact ⟨by decide, hstored ▸ Deflate.inflate_decodes _⟩
  have hfits : Fits (mixedEntries.map Carried.spec) :=
    ⟨by decide +kernel, by decide +kernel⟩
  have himage : Holds (lone "a.dll" image) ⟨.root, ["a.dll"]⟩ Discovery.imageSuffixes image :=
    ⟨by decide +kernel, rfl, rfl⟩
  have hpdb : Discovery.lowerSuffix ⟨.root, ["x.pdb"]⟩ ∈ Discovery.pdbSuffixes := by decide +kernel
  let home : Bytes → Disk × Path := fun content => (lone "x.pdb" content, ⟨.root, ["x.pdb"]⟩)
  have hhome : ∀ content stream, .pdb content stream ∈ mixedEntries →
      Holds (home content).1 (home content).2 Discovery.pdbSuffixes content :=
    fun _ _ _ => ⟨hpdb, rfl, rfl⟩
  rw [(embedded_extracted_like_standalone .pe32Plus mixedEntries hsound hfits himage hhome).1]
  decide +kernel

end Pipeline
end SourceRecovery
