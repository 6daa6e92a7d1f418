import SourceRecovery.Pattern.Matcher
import SourceRecovery.Pipeline
import SourceRecovery.Text.Layout
import SourceRecovery.Text.Size

/-!
The sources recovered from one input, kept in memory, and the three tools that show them: listing
by the beginning of a name, reading, and searching for a pattern line by line. Tools answer in
text, also about what they do not find.
-/
namespace SourceRecovery

/-- Files with different names, in the order in which they were recovered. -/
structure Shelf where
  files : List ExtractedFile
  deriving DecidableEq, Repr

namespace Shelf

def file? (s : Shelf) (name : String) : Option ExtractedFile := s.files.find? (·.name = name)

/-- The first file of a name stays. -/
def add (s : Shelf) (f : ExtractedFile) : Shelf :=
  match s.file? f.name with
  | some _ => s
  | none => ⟨s.files ++ [f]⟩

def addEvent (s : Shelf) : Event → Shelf
  | .file f => s.add f
  | _ => s

def ofEvents (events : List Event) : Shelf := events.foldl addEvent ⟨[]⟩

/-- The shelf for an input. A fault while it is read leaves none. -/
def load (sources : List Pipeline.Source) (d : Disk) (p : Path) : Except Fault Shelf :=
  let events := (Pipeline.read sources d p).events
  match events.fault with
  | some fault => .error fault
  | none => .ok (ofEvents events.items)

/-- The files in code-point order of their names. -/
def sorted (s : Shelf) : List ExtractedFile := s.files.mergeSort fun a b => a.name ≤ b.name

def joinLines (rows : List String) : String := "\n".intercalate rows

def listingRow (f : ExtractedFile) : String :=
  padRight 60 f.name ++ " " ++ padLeft 10 (humanSize (Utf8.size f.text)) ++ " " ++
    if f.compressed then "[deflate]" else ""

def list (s : Shelf) (start : String) : String :=
  match s.sorted.filter fun f => start.toList.isPrefixOf f.name.toList with
  | [] => s!"No files found matching '{start}'"
  | found => joinLines (found.map listingRow)

def read (s : Shelf) (name : String) : String :=
  match s.file? name with
  | some f => f.text
  | none => "Error: File not found: " ++ name

/-- A line in which the pattern was found; lines count from one. -/
structure Hit where
  name : String
  number : Nat
  line : List Char
  deriving DecidableEq, Repr

def shownLength : Nat := 200

def Hit.row (h : Hit) : String :=
  s!"{h.name}:{h.number}: " ++
    String.ofList ((strip (String.ofList h.line)).toList.take shownLength)

/-- The hits in the lines of one file, the first of them numbered `number`. No line is looked at
once there are `room` hits. -/
def searchLines (test : List Char → Bool) (name : String) :
    (room number : Nat) → List (List Char) → List Hit
  | 0, _, _ => []
  | _ + 1, _, [] => []
  | room + 1, number, line :: rest =>
    if test line then ⟨name, number, line⟩ :: searchLines test name room (number + 1) rest
    else searchLines test name (room + 1) (number + 1) rest

/-- The hits in files, one file after the other, until there are `room`. -/
def searchFiles (test : List Char → Bool) (room : Nat) : List ExtractedFile → List Hit
  | [] => []
  | f :: rest =>
    let hits := searchLines test f.name room 1 (linesOf f.text)
    if hits.length < room then hits ++ searchFiles test (room - hits.length) rest else hits

def usualLimit : Int := 20

/-- Searches every line for a pattern, at least one result being wanted. A malformed pattern is
answered; one that is beyond what can be searched for is not. -/
def search (s : Shelf) (pattern : String) (limit : Int)
    (engine : Pattern.Engine := Pattern.engine) : Except Pattern.Error String :=
  match engine pattern with
  | .error e =>
    if e.isMalformed then .ok ("Error: Invalid pattern: " ++ e.message pattern) else .error e
  | .ok test =>
    match searchFiles test (max limit 1).toNat s.sorted with
    | [] => .ok ("No results found for: " ++ pattern)
    | hits => .ok (joinLines (hits.map Hit.row))

end Shelf
end SourceRecovery
