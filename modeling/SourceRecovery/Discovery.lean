import SourceRecovery.Disk.Basic
import SourceRecovery.Fault
import SourceRecovery.Text.Blank
import SourceRecovery.Text.Layout

/-!
Finding the input files for a path. A file stands for itself; in a directory the files count whose
suffix marks an image or a PDB. The tree is visited while the visitor may change it: a directory is
listed when its turn comes.
-/
namespace SourceRecovery.Discovery

def imageSuffixes : List String := [".dll", ".exe"]

def pdbSuffixes : List String := [".pdb"]

/-- The suffix in lower case. Only ASCII letters matter: no other character's lower case is a
letter of the suffixes compared with. -/
def lowerSuffix (p : Path) : String := p.suffix.map Char.toLower

def hasCandidateSuffix (p : Path) : Bool := (imageSuffixes ++ pdbSuffixes).contains (lowerSuffix p)

def splitExcludes (values : List String) : List String :=
  ((values.flatMap fun value =>
    (segments (fun c => c == ',' || c == ';') value.toList).map fun piece =>
      strip (String.ofList piece)).filter (· ≠ "")).eraseDups

def isCandidate (excludes : List String) (p : Path) : Bool :=
  hasCandidateSuffix p && !excludes.any fun piece => occursIn piece.toList p.render.toList

def sortNames (names : List String) : List String := names.mergeSort fun a b => a ≤ b

/-- A visit to the input files of a tree: where the tree is in the visitor's state, and what is
done with a file. A fault ends the visit. -/
structure Visitor (σ : Type) where
  disk : σ → Disk
  visit : σ → Path → σ × Option Fault

/-- Goes through a list until a step ends in a fault. -/
def foldUntil {σ α : Type} (step : σ → α → σ × Option Fault) : List α → σ → σ × Option Fault
  | [], s => (s, none)
  | a :: rest, s =>
    match step s a with
    | (s, none) => foldUntil step rest s
    | (s, some fault) => (s, some fault)

variable {σ : Type}

def visitCandidate (v : Visitor σ) (excludes : List String) (s : σ) (p : Path) :
    σ × Option Fault :=
  if isCandidate excludes p then v.visit s p else (s, none)

def visitFlat (v : Visitor σ) (excludes : List String) (dir : Path) (s : σ) : σ × Option Fault :=
  match (v.disk s).list dir with
  | .error e => (s, some (.disk e))
  | .ok entries =>
    foldUntil
      (fun s name =>
        match (v.disk s).isFile (dir.child name) with
        | .error e => (s, some (.disk e))
        | .ok isFile => if isFile then visitCandidate v excludes s (dir.child name) else (s, none))
      (sortNames (entries.map Prod.fst)) s

/-- Names in a directory, told apart by what they lead to. -/
structure Listing where
  files : List String
  directories : List String
  deriving DecidableEq, Repr

/-- Whether an entry of a directory is no file: it is a directory or a link to one. -/
def leadsToDirectory (d : Disk) (dir : Path) : String × Entry → Bool
  | (_, .directory) => true
  | (name, .link _) => (d.isDirectory (dir.child name)).toOption.getD false
  | _ => false

/-- Links to directories are not entered; what is no directory counts as a file. -/
def listing (d : Disk) (dir : Path) (entries : List (String × Entry)) : Listing where
  files := sortNames ((entries.filter fun entry => !leadsToDirectory d dir entry).map Prod.fst)
  directories := sortNames ((entries.filter fun (_, e) => e = .directory).map Prod.fst)

/-- The path under which a walk through `source` looks up what it shows as `p`: below the directory
`.` that stays in front. -/
def lookedUp (source p : Path) : Path :=
  if source = ⟨.relative, []⟩ then ⟨.relative, "." :: p.names⟩ else p

/-- Visits the files of a directory in `source` and then each directory below it. A directory that
cannot be listed holds nothing; as path lengths are bounded, so is the depth. A limit on nested
calls, which a deep tree may meet first, is left out. -/
def visitTree (v : Visitor σ) (excludes : List String) (source : Path) :
    (levels : Nat) → Path → σ → σ × Option Fault
  | 0, _, s => (s, none)
  | levels + 1, dir, s =>
    match (v.disk s).list (lookedUp source dir) with
    | .error .zeroInPath => (s, some (.disk .zeroInPath))
    | .error (.refused _ _) => (s, none)
    | .ok entries =>
      let names := listing (v.disk s) (lookedUp source dir) entries
      match foldUntil (fun s name => visitCandidate v excludes s (dir.child name)) names.files s with
      | (s, some fault) => (s, some fault)
      | (s, none) =>
        foldUntil (fun s name => visitTree v excludes source levels (dir.child name) s)
          names.directories s

structure Query where
  source : Path
  recursive : Bool
  excludes : List String
  deriving DecidableEq, Repr

def visitInputs (v : Visitor σ) (q : Query) (s : σ) : σ × Option Fault :=
  match (v.disk s).isFile q.source with
  | .error e => (s, some (.disk e))
  | .ok true => v.visit s q.source
  | .ok false =>
    if q.recursive then visitTree v q.excludes q.source Disk.pathMax q.source s
    else visitFlat v q.excludes q.source s

/-- Collects the files visited, the last one first. -/
def collector (d : Disk) : Visitor (List Path) where
  disk := fun _ => d
  visit := fun found p => (p :: found, none)

/-- The input files in the order in which they are visited, on a disk that stays as it is. -/
def inputs (d : Disk) (q : Query) : Sequence Path :=
  let (found, fault) := visitInputs (collector d) q []
  ⟨found.reverse, fault⟩

end SourceRecovery.Discovery
