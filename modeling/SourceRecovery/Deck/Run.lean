import SourceRecovery.Deck.Message
import SourceRecovery.Pipeline

/-!
A run that the deck starts: the inputs are listed first and then extracted one after the other,
while messages report the counters after every step.
-/
namespace SourceRecovery.Deck

structure Form where
  source : String
  output : String
  recursive : Bool
  contain : Bool
  deriving DecidableEq, Repr

def refusal : String := styled "red" "Both an input and an output directory are required"

/-- The run that a form asks for, or the log line that refuses it. Blanks around texts are
dropped. -/
def Form.submit (f : Form) : Except String Form :=
  let trimmed := { f with source := strip f.source, output := strip f.output }
  if trimmed.source = "" ∨ trimmed.output = "" then .error refusal else .ok trimmed

def Form.query (f : Form) : Discovery.Query := ⟨Path.ofString f.source, f.recursive, []⟩

def Form.options (f : Form) : Output.Options := ⟨Path.ofString f.output, f.contain⟩

structure Clock where
  start : Time
  finish : Time
  deriving DecidableEq, Repr

structure Progress where
  disk : Disk
  stats : Stats
  messages : List Message
  deriving DecidableEq, Repr

namespace Progress

def post (s : Progress) (messages : List Message) : Progress :=
  { s with messages := s.messages ++ messages }

def postStats (s : Progress) : Progress := s.post [.stats s.stats]

def report (s : Progress) (o : Outcome) : Progress :=
  ({ s with stats := s.stats.record o }.post (outcomeMessages o)).postStats

def finish (s : Progress) (status : Status) (line : String) : Progress :=
  ({ s with stats := { s.stats with status } }.postStats).post [.log line]

end Progress

def extractInput (sources : List Pipeline.Source) (options : Output.Options) (s : Progress)
    (p : Path) : Progress × Option Fault :=
  let extraction := Pipeline.extractFile sources options s.disk p
  let s := { s with disk := extraction.disk, stats := { s.stats with currentFile := p.render } }
  let s := extraction.outcomes.items.foldl Progress.report s
  match extraction.outcomes.fault with
  | some fault => (s, some fault)
  | none =>
    let stats := { s.stats with processed := s.stats.processed + 1 }
    ({ s with stats }.postStats, none)

def stopLine (s : Stats) (fault : Fault) : String :=
  styled "red" s!"Extraction stopped at {s.currentFile}: {fault.message}"

def closingLine (s : Summary) (options : Output.Options) : String :=
  styled "cyan" (s!"Extracted {s.written} files from {s.containers} containers -> " ++
    options.destination.render)

def extractAll (sources : List Pipeline.Source) (clock : Clock) (f : Form) (inputs : List Path)
    (s : Progress) : Progress :=
  match Discovery.foldUntil (extractInput sources f.options) inputs s with
  | (s, some fault) =>
    { s with stats := { s.stats with endTime := some clock.finish } }.finish .error
      (stopLine s.stats fault)
  | (s, none) =>
    { s with stats := { s.stats with endTime := some clock.finish, currentFile := "" } }.finish
      .complete (closingLine s.stats.summary f.options)

def isSystemFault : Fault → Bool
  | .disk (.refused _ _) | .system _ => true
  | _ => false

/-- The run for a form, and a fault that ends it without a message: only while the source is looked
for and listed can there be one. -/
def run (sources : List Pipeline.Source) (clock : Clock) (d : Disk) (f : Form) :
    Progress × Option Fault :=
  let s : Progress := ⟨d, { status := .running, startTime := some clock.start }, []⟩
  match d.exists? (Path.ofString f.source) with
  | .error e => (s, some (.disk e))
  | .ok false => (s.finish .error (styled "red" ("Path not found: " ++ f.source)), none)
  | .ok true =>
    let found := Discovery.inputs d f.query
    match found.fault with
    | some fault =>
      if isSystemFault fault then
        (s.finish .error (styled "red" s!"Cannot read {f.source}: {fault.message}"), none)
      else (s, some fault)
    | none =>
      let count := found.items.length
      let s := { s with stats := { s.stats with discovered := count } }.postStats
      let s := s.post [.log s!"{count} input file(s) in {f.source}"]
      (extractAll sources clock f found.items s, none)

end SourceRecovery.Deck
