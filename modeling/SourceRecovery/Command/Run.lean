import SourceRecovery.Command.Invocation
import SourceRecovery.Shelf

/-!
Carrying out a request on a disk: what is printed and logged, the exit code, and the disk that is
left. The tool server and the deck are only started here.
-/
namespace SourceRecovery.Command

inductive Level where
  | debug
  | info
  | warning
  | error
  deriving DecidableEq, Repr

structure LogLine where
  level : Level
  text : String
  deriving DecidableEq, Repr

/-- What takes over when a command has done its part. -/
inductive FrontEnd where
  | server (transport : String)
  | deck (source output : String)
  deriving DecidableEq, Repr

/-- What has happened since the program began. Lines are in order; the log has all levels. -/
structure Progress where
  disk : Disk
  printed : List String := []
  log : List LogLine := []
  summary : Summary := {}
  started : Option FrontEnd := none
  deriving DecidableEq, Repr

namespace Progress

def addLog (s : Progress) (lines : List LogLine) : Progress := { s with log := s.log ++ lines }

def info (s : Progress) (text : String) : Progress := s.addLog [⟨.info, text⟩]

def error (s : Progress) (text : String) : Progress := s.addLog [⟨.error, text⟩]

def print (s : Progress) (line : String) : Progress := { s with printed := s.printed ++ [line] }

end Progress

def noteLines (note : Option String) : List LogLine := note.toList.map (⟨.debug, ·⟩)

def outcomeLevel : Outcome → Level
  | .written _ => .info
  | .opened _ => .debug
  | _ => .warning

def outcomeLine (o : Outcome) : LogLine := ⟨outcomeLevel o, o.describe⟩

def recordOutcome (s : Progress) (o : Outcome) : Progress :=
  { s with summary := s.summary.record o }.addLog [outcomeLine o]

def countInput (s : Progress) : Progress :=
  { s with summary := { s.summary with inputs := s.summary.inputs + 1 } }

def extractInput (sources : List Pipeline.Source) (options : Output.Options) (s : Progress)
    (p : Path) : Progress × Option Fault :=
  let extraction := Pipeline.extractFile sources options s.disk p
  let s := { countInput s with disk := extraction.disk }.addLog (noteLines extraction.note)
  (extraction.outcomes.items.foldl recordOutcome s, extraction.outcomes.fault)

def closingLine (s : Summary) (options : Output.Options) : String :=
  s!"Extracted {s.written} files from {s.containers} containers " ++
    s!"({s.issues} failed, {s.skipped} skipped) -> {options.destination.render}"

def extractAll (sources : List Pipeline.Source) (options : Output.Options)
    (query : Discovery.Query) (s : Progress) : Progress × Option Fault :=
  let visitor : Discovery.Visitor Progress := ⟨Progress.disk, extractInput sources options⟩
  match Discovery.visitInputs visitor query s with
  | (s, some fault) => (s, some fault)
  | (s, none) => ((s.info "").info (closingLine s.summary options), none)

def documentRow (f : ExtractedFile) : String :=
  "  " ++ padRight 60 f.name ++ " " ++ padLeft 8 (if f.compressed then "deflate" else "raw") ++
    " " ++ padLeft 10 (toString (Utf8.size f.text)) ++ " B"

/-- Containers and documents are printed, everything else is logged. -/
def showEvent (s : Progress) : Event → Progress
  | .opened o => s.print s!"{o.source} ({o.documents} documents)"
  | .file f => s.print (documentRow f)
  | .extractionIssue i => s.addLog [outcomeLine (.extractionIssue i)]
  | .containerIssue i => s.addLog [outcomeLine (.containerIssue i)]
  | .skipped i => s.addLog [outcomeLine (.skipped i)]

def listInput (sources : List Pipeline.Source) (s : Progress) (p : Path) :
    Progress × Option Fault :=
  let reading := Pipeline.read sources s.disk p
  (reading.events.items.foldl showEvent (s.addLog (noteLines reading.note)), reading.events.fault)

def listAll (sources : List Pipeline.Source) (query : Discovery.Query) (s : Progress) :
    Progress × Option Fault :=
  Discovery.visitInputs ⟨Progress.disk, listInput sources⟩ query s

def startServer (sources : List Pipeline.Source) (source transport : String) (s : Progress) :
    Progress × Option Fault :=
  let s := s.info s!"Serving {source} via {transport}"
  let reading := Pipeline.read sources s.disk (Path.ofString source)
  let s := s.addLog (noteLines reading.note)
  match reading.events.fault with
  | some fault => (s, some fault)
  | none => ({ s with started := some (.server transport) }, none)

/-- The texts that the deck begins with; empty texts count as missing. -/
def deckStart (source output : Option String) : FrontEnd :=
  match output with
  | none | some "" => .deck (source.getD "") "recovered"
  | some output => .deck (source.getD "") output

inductive Ending where
  | done
  | noInput (source : String)
  | fault (f : Fault)
  deriving DecidableEq, Repr

def Ending.exitCode : Ending → Nat
  | .done => 0
  | _ => 1

def Ending.log : Ending → List LogLine
  | .done => []
  | .noInput source => [⟨.error, "File or directory not found: " ++ source⟩]
  | .fault f => [⟨.error, s!"{programName}: an error occurred, {f.message}"⟩]

def endingOf (r : Progress × Option Fault) : Progress × Ending :=
  match r.2 with
  | none => (r.1, .done)
  | some fault => (r.1, .fault fault)

/-- Begins only if there is something at the source. -/
def requireInput (source : String) (s : Progress)
    (begin : Progress → Progress × Option Fault) : Progress × Ending :=
  match s.disk.exists? (Path.ofString source) with
  | .error e => (s, .fault (.disk e))
  | .ok false => (s, .noInput source)
  | .ok true => endingOf (begin s)

def Request.perform (sources : List Pipeline.Source) (s : Progress) : Request → Progress × Ending
  | .extract selection output contain =>
    requireInput selection.source s
      (extractAll sources ⟨Path.ofString output, contain⟩ selection.query)
  | .list selection => requireInput selection.source s (listAll sources selection.query)
  | .serve source transport => requireInput source s (startServer sources source transport)
  | .deck source output => ({ s with started := some (deckStart source output) }, .done)

/-- What a run of the program leaves: texts on the two output streams, the log as far as it is
shown, and the disk. -/
structure Run where
  exitCode : Nat
  output : String
  complaint : String
  log : List LogLine
  started : Option FrontEnd
  disk : Disk
  deriving DecidableEq, Repr

def stopped (d : Disk) : Stop → Run
  | .help g => ⟨0, g.help, "", [], none, d⟩
  | .refused g c =>
    ⟨2, "", g.usage ++ s!"{g.program}: error: {c.message}\n", [], none, d⟩

/-- Debug lines are shown only on demand. -/
def shownLog (verbose : Bool) (log : List LogLine) : List LogLine :=
  log.filter fun line => verbose || line.level != .debug

def Invocation.run (sources : List Pipeline.Source) (d : Disk) (i : Invocation) : Run :=
  let (s, ending) := i.request.perform sources { disk := d }
  { exitCode := ending.exitCode, output := String.join (s.printed.map (· ++ "\n"))
    complaint := "", log := shownLog i.verbose (s.log ++ ending.log)
    started := s.started, disk := s.disk }

def run (sources : List Pipeline.Source) (d : Disk) (arguments : List String) : Run :=
  match Invocation.ofArguments arguments with
  | .error stop => stopped d stop
  | .ok invocation => invocation.run sources d

end SourceRecovery.Command
