import SourceRecovery.Discovery
import SourceRecovery.Outcome
import SourceRecovery.Pdb.Reader
import SourceRecovery.Pe.DebugDirectory

/-!
From an input file to events, and from events to written files. An input is read to its end before
the first of its documents is written.
-/
namespace SourceRecovery.Pipeline

/-- A part of an input: a container, or why one could not be opened. -/
inductive Part where
  | container (c : Container)
  | issue (i : ContainerIssue)
  deriving DecidableEq, Repr

/-- A kind of input: which files it handles and how it reads them. -/
structure Source where
  label : String
  handles : Disk → Path → Except Fault Bool
  parts : Disk → Path → Sequence Part

def isFileWith (suffixes : List String) (d : Disk) (p : Path) : Except Fault Bool :=
  if suffixes.contains (Discovery.lowerSuffix p) then (d.isFile p).mapError .disk else .ok false

def pdbSource : Source where
  label := "pdb"
  handles := isFileWith Discovery.pdbSuffixes
  parts := fun d p =>
    match d.read p with
    | .error e => .failed (.disk e)
    | .ok data =>
      match Pdb.Image.read data with
      | .error e => .failed (.format e.message)
      | .ok pdb => .ofList [.container pdb.container]

def embeddedPart : Pe.DebugEntry × Except Pe.Image.OpenError Pdb.Image → Part
  | (_, .ok pdb) => .container pdb.container
  | (entry, .error e) => .issue ⟨s!"debug directory entry {entry.index}", e.message⟩

def imageSource : Source where
  label := "pe"
  handles := isFileWith Discovery.imageSuffixes
  parts := fun d p =>
    match d.read p with
    | .error e => .failed (.disk e)
    | .ok data =>
      match (Pe.Image.read data).bind (·.openEmbedded) with
      | .error e => .failed (.format e.message)
      | .ok opened => .ofList (opened.map embeddedPart)

def builtinSources : List Source := [pdbSource, imageSource]

def sourceFor (d : Disk) (p : Path) : List Source → Except Fault (Option Source)
  | [] => .ok none
  | source :: rest => do
    if ← source.handles d p then return some source else sourceFor d p rest

/-- The events of an input and, where its containers could be listed, a note of how many it has. -/
structure Reading where
  note : Option String
  events : Sequence Event
  deriving DecidableEq, Repr

def extractedEvent : Extracted → Event
  | .file f => .file f
  | .issue i => .extractionIssue i

/-- The events of one part. A document table that turns out malformed closes its own part only. -/
def partEvents (p : Path) : Part → Sequence Event
  | .issue i => .ofList [.containerIssue ⟨s!"{p.render} ({i.source})", i.reason⟩]
  | .container c =>
    let extracted := extract c
    let events := .opened ⟨p.render, c.documentCount⟩ :: extracted.items.map extractedEvent
    match extracted.fault with
    | some (.format reason) =>
      .ofList (events ++ [.containerIssue ⟨p.render, "document table is corrupt, " ++ reason⟩])
    | fault => ⟨events, fault⟩

def skip (p : Path) (reason : String) : Reading := ⟨none, .ofList [.skipped ⟨p.render, reason⟩]⟩

/-- Reads an input. All its parts are gathered first, so a fault among them leaves none. -/
def readWith (source : Source) (d : Disk) (p : Path) : Reading :=
  let parts := source.parts d p
  match parts.fault with
  | some (.format reason) => skip p ("not supported image, " ++ reason)
  | some (.system reason) => skip p ("cannot read, " ++ reason)
  | some (.disk (.refused cause q)) =>
    skip p ("cannot read, " ++ (Disk.Error.refused cause q).message)
  | some fault => ⟨none, .failed fault⟩
  | none =>
    ⟨some s!"{p.render}: {source.label} with {parts.items.length} container(s)",
      Sequence.concatMap (partEvents p) parts.items⟩

def read (sources : List Source) (d : Disk) (p : Path) : Reading :=
  match sourceFor d p sources with
  | .error fault => ⟨none, .failed fault⟩
  | .ok none => skip p "not dll, exe or pdb"
  | .ok (some source) => readWith source d p

/-- Writes a recovered file; every other event stands for itself. -/
def settle (options : Output.Options) (d : Disk) : Event → Disk × Outcome
  | .file f =>
    match Output.write d options f.name f.text with
    | (d, .ok written) => (d, .written written)
    | (d, .error issue) => (d, .writeIssue issue)
  | .opened o => (d, .opened o)
  | .extractionIssue i => (d, .extractionIssue i)
  | .containerIssue i => (d, .containerIssue i)
  | .skipped s => (d, .skipped s)

def settleAll (options : Output.Options) : Disk → List Event → Disk × List Outcome
  | d, [] => (d, [])
  | d, event :: rest =>
    let (d, outcome) := settle options d event
    let (d, outcomes) := settleAll options d rest
    (d, outcome :: outcomes)

/-- The outcomes of an input and the disk they leave. -/
structure Extraction where
  note : Option String
  outcomes : Sequence Outcome
  disk : Disk
  deriving DecidableEq, Repr

def extractFile (sources : List Source) (options : Output.Options) (d : Disk) (p : Path) :
    Extraction :=
  let reading := read sources d p
  let (disk, outcomes) := settleAll options d reading.events.items
  ⟨reading.note, ⟨outcomes, reading.events.fault⟩, disk⟩

end SourceRecovery.Pipeline
