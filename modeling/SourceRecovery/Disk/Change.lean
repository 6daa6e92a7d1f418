import SourceRecovery.Disk.Basic

/-!
Making directories and writing files. A request that fails may leave behind the directories it made
on the way.
-/
namespace SourceRecovery.Disk

/-- The disk after a request, and the error if it was refused. -/
abbrev Change := Disk × Except Error Unit

def makeDirectory (d : Disk) (p : Path) : Except Error Disk := do
  match ← d.locate false p with
  | .vacant directory name => .ok (d.put (name :: directory) .directory)
  | .taken _ => .error (.refused .exists p)

/-- Judges a refusal to make a directory: where one already is, nothing was needed. -/
def unlessDirectory (d : Disk) (p : Path) (e : Error) : Change :=
  match e with
  | .zeroInPath => (d, .error e)
  | .refused _ _ =>
    match d.isDirectory p with
    | .ok true => (d, .ok ())
    | .ok false => (d, .error e)
    | .error e => (d, .error e)

/-- A second attempt, after the parent was made. -/
def makeInParent (d : Disk) (p : Path) : Change :=
  match d.makeDirectory p with
  | .ok made => (made, .ok ())
  | .error (.refused .noEntry q) => (d, .error (.refused .noEntry q))
  | .error e => d.unlessDirectory p e

/-- Makes the directory with these names, the last name first, and those above it. -/
def makeAll (anchor : Anchor) : List String → Disk → Change
  | [], d => d.makeInParent ⟨anchor, []⟩
  | name :: above, d =>
    let p : Path := ⟨anchor, (name :: above).reverse⟩
    match d.makeDirectory p with
    | .ok made => (made, .ok ())
    | .error (.refused .noEntry _) =>
      match makeAll anchor above d with
      | (d, .error e) => (d, .error e)
      | (d, .ok _) => d.makeInParent p
    | .error e => d.unlessDirectory p e

/-- Makes a directory and those above it; one that exists is left as it is. A limit on nested calls,
which very many missing directories may meet first, is left out. -/
def makeDirectories (d : Disk) (p : Path) : Change := makeAll p.anchor p.names.reverse d

/-- Whether a name is followed by a slash at the end of a link target, and by nothing else. -/
def endsInSlash (target : String) : Bool :=
  target.toList.getLast? = some '/' &&
    !(["", ".", ".."].contains ((targetNames target).dropLast.getLastD ""))

/-- Whether a file that is to be made at these names would be called something with a slash behind
it, which a link in the last position may ask for. -/
def meetsSlash (d : Disk) : (walks : Nat) → Location → List String → Bool
  | 0, _, _ => false
  | walks + 1, start, names =>
    match walk d false start names with
    | .detour start names => meetsSlash d walks start names
    | .arrived location =>
      match d.entry? location with
      | some (.link target) =>
        let start := if target.toList.head? = some '/' then [] else location.tail
        let names := targetNames target
        if endsInSlash target then
          match d.resolve true walks start names.dropLast.dropLast with
          | .ok (.taken directory) => d.entry? directory = some .directory
          | _ => false
        else meetsSlash d walks start names
      | _ => false
    | _ => false

/-- What becomes of the refusal of a path if a file is to be made there. -/
def whenMaking (d : Disk) (p : Path) : Error → Error
  | .zeroInPath => .zeroInPath
  | .refused cause q =>
    if p.render.utf8ByteSize < pathMax && d.meetsSlash (linksMax + 1) (d.start p) p.names then
      .refused .isDirectory p
    else .refused cause q

/-- Writes a file, making it or replacing its content. Links are followed, so a link to nothing
makes its target. A device takes the bytes and keeps none. -/
def write (d : Disk) (p : Path) (content : Bytes) : Except Error Disk := do
  match ← (d.locate true p).mapError (d.whenMaking p) with
  | .vacant directory name => .ok (d.put (name :: directory) (.file content))
  | .taken location =>
    match d.entry? location with
    | some .directory => .error (.refused .isDirectory p)
    | some .device => .ok d
    | _ => .ok (d.put location (.file content))

def makeLink (d : Disk) (p : Path) (target : String) : Except Error Disk := do
  match ← d.locate false p with
  | .vacant directory name => .ok (d.put (name :: directory) (.link target))
  | .taken _ => .error (.refused .exists p)

end SourceRecovery.Disk
