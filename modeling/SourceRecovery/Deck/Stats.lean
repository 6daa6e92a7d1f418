import SourceRecovery.Outcome
import SourceRecovery.Text.Size
import SourceRecovery.Text.Upper

/-!
The state of a run as the deck shows it, and the panel with its counters.
-/
namespace SourceRecovery.Deck

inductive Status where
  | idle
  | running
  | complete
  | error
  | other (name : String)
  deriving DecidableEq, Repr

def Status.name : Status → String
  | .idle => "idle"
  | .running => "running"
  | .complete => "complete"
  | .error => "error"
  | .other name => name

def Status.style : Status → String
  | .running => "green"
  | .complete => "cyan"
  | .error => "red"
  | _ => "dim"

abbrev Time := Int

structure Stats where
  discovered : Nat := 0
  processed : Nat := 0
  documents : Nat := 0
  summary : Summary := {}
  currentFile : String := ""
  status : Status := .idle
  startTime : Option Time := none
  endTime : Option Time := none
  deriving DecidableEq, Repr

def styled (style text : String) : String := s!"[{style}]{text}[/]"

def twoDigits (n : Int) : String := if 0 ≤ n ∧ n < 10 then s!"0{n}" else toString n

def microsecondsPerSecond : Int := 1000000

/-- Minutes and seconds of a run that has not begun, has ended, or goes on at `now`. Parts of a
second do not count. -/
def Stats.elapsed (s : Stats) (now : Time) : String :=
  match s.startTime with
  | none => "00:00"
  | some start =>
    let seconds := (s.endTime.getD now - start).tdiv microsecondsPerSecond
    twoDigits (seconds / 60) ++ ":" ++ twoDigits (seconds % 60)

def shownName : Nat := 34

def shortName (name : String) : String :=
  if shownName < name.length then
    "..." ++ String.ofList (name.toList.drop (name.length - (shownName - 3)))
  else name

def Stats.panel (s : Stats) (now : Time) : String :=
  let current := if s.currentFile = "" then "no input" else shortName s.currentFile
  "\n".intercalate
    [styled s.status.style (upperText s.status.name) ++ "  " ++ s.elapsed now,
      "",
      s!"inputs      {s.processed}/{s.discovered}",
      s!"skipped     {s.summary.skipped}",
      s!"containers  {s.summary.containers}",
      s!"documents   {s.documents}",
      "written     " ++ styled "green" (toString s.summary.written),
      "failed      " ++ styled "red" (toString s.summary.issues),
      "bytes       " ++ grouped s.summary.totalBytes,
      "",
      styled "dim" current]

end SourceRecovery.Deck
