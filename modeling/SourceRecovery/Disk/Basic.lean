import SourceRecovery.Bytes
import SourceRecovery.Disk.Error

/-!
A file system as a finite map from locations to entries, seen from a working directory. Looking a
path up follows symbolic links, at most forty of them.
-/
namespace SourceRecovery

inductive Entry where
  | file (content : Bytes)
  | directory
  | link (target : String)
  | device
  deriving DecidableEq, Repr

/-- The names that lead from the root to an entry, the last of them first. -/
abbrev Location := List String

structure Disk where
  workingDirectory : Path
  entries : List (Location × Entry)
  deriving DecidableEq, Repr

namespace Disk

/-- The root is always a directory. -/
def entry? (d : Disk) : Location → Option Entry
  | [] => some .directory
  | location => d.entries.lookup location

def replace (location : Location) (e : Entry) : List (Location × Entry) → List (Location × Entry)
  | [] => [(location, e)]
  | (l, old) :: rest =>
    if l = location then (l, e) :: rest else (l, old) :: replace location e rest

def put (d : Disk) (location : Location) (e : Entry) : Disk :=
  { d with entries := replace location e d.entries }

def children (d : Disk) (directory : Location) : List (String × Entry) :=
  d.entries.filterMap fun (location, e) =>
    match location with
    | name :: parent => if parent = directory then some (name, e) else none
    | [] => none

def nameMax : Nat := 255

def pathMax : Nat := 4096

/-- A link target as a path; a slash at its end asks for a directory. -/
def targetNames (target : String) : List String :=
  let names := ((segments (· == '/') target.toList).map String.ofList).filter (· ≠ "")
  if target.toList.getLast? = some '/' then names ++ ["."] else names

/-- Where a walk along names ends: at an entry, at a name its directory does not have, or at a
symbolic link, from which the walk goes on elsewhere. -/
inductive Walk where
  | arrived (location : Location)
  | vacant (directory : Location) (name : String)
  | detour (start : Location) (names : List String)
  | refused (cause : Cause)
  deriving DecidableEq, Repr

def walk (d : Disk) (follow : Bool) (here : Location) : List String → Walk
  | [] => .arrived here
  | name :: rest =>
    if d.entry? here ≠ some .directory then .refused .notDirectory
    else if name = "." then walk d follow here rest
    else if name = ".." then walk d follow here.tail rest
    else if nameMax < name.utf8ByteSize then .refused .nameTooLong
    else
      match d.entry? (name :: here) with
      | none => if rest.isEmpty then .vacant here name else .refused .noEntry
      | some (.link target) =>
        if rest.isEmpty && !follow then .arrived (name :: here)
        else
          .detour (if target.toList.head? = some '/' then [] else here) (targetNames target ++ rest)
      | some _ => walk d follow (name :: here) rest

inductive Place where
  | taken (location : Location)
  | vacant (directory : Location) (name : String)
  deriving DecidableEq, Repr

def resolve (d : Disk) (follow : Bool) :
    (walks : Nat) → Location → List String → Except Cause Place
  | 0, _, _ => .error .tooManyLinks
  | walks + 1, start, names =>
    match walk d follow start names with
    | .arrived location => .ok (.taken location)
    | .vacant directory name => .ok (.vacant directory name)
    | .refused cause => .error cause
    | .detour start names => resolve d follow walks start names

def linksMax : Nat := 40

def start (d : Disk) (p : Path) : Location :=
  match p.anchor with
  | .relative => d.workingDirectory.names.reverse
  | _ => []

/-- Finds the place of a path. A link in the last position is followed only if `follow` is set. -/
def locate (d : Disk) (follow : Bool) (p : Path) : Except Error Place :=
  if p.names.any (·.toList.contains '\x00') then .error .zeroInPath
  else if pathMax ≤ p.render.utf8ByteSize then .error (.refused .nameTooLong p)
  else (d.resolve follow (linksMax + 1) (d.start p) p.names).mapError (.refused · p)

def stat (d : Disk) (p : Path) : Except Error (Location × Entry) := do
  match ← d.locate true p with
  | .vacant _ _ => .error (.refused .noEntry p)
  | .taken location =>
    match d.entry? location with
    | some e => .ok (location, e)
    | none => .error (.refused .noEntry p)

/-- Turns the error of a path with nothing at it into `absent`. -/
def orAbsent {α : Type} (absent : α) : Except Error α → Except Error α
  | .ok a => .ok a
  | .error e => if e.isAbsence then .ok absent else .error e

def exists? (d : Disk) (p : Path) : Except Error Bool :=
  orAbsent false ((d.stat p).map fun _ => true)

def isFile (d : Disk) (p : Path) : Except Error Bool :=
  orAbsent false ((d.stat p).map fun (_, e) => match e with
    | .file _ => true
    | _ => false)

def isDirectory (d : Disk) (p : Path) : Except Error Bool :=
  orAbsent false ((d.stat p).map fun (_, e) => e = .directory)

def read (d : Disk) (p : Path) : Except Error Bytes := do
  match ← d.stat p with
  | (_, .file content) => .ok content
  | (_, .directory) => .error (.refused .isDirectory p)
  | _ => .ok []

/-- The names in a directory with what is there, links not followed. -/
def list (d : Disk) (p : Path) : Except Error (List (String × Entry)) := do
  match ← d.stat p with
  | (location, .directory) => .ok (d.children location)
  | _ => .error (.refused .notDirectory p)

end Disk
end SourceRecovery
