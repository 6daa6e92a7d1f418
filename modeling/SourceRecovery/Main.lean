import SourceRecovery.Command.Run

/-!
The program: it brings the files that a request names onto a disk value, runs the request on it and
stores what has changed.
-/
namespace SourceRecovery.Program

def locationOf (path : String) : Location := (Path.ofString path).names.reverse

/-- Adds a directory entry and what is below it. Contents are read only if they are wanted. -/
partial def loadEntry (contents : Bool) (found : List (Location × Entry)) (e : IO.FS.DirEntry) :
    IO (List (Location × Entry)) := do
  let location := locationOf e.path.toString
  match (← e.path.symlinkMetadata).type with
  | .file =>
    let content ← if contents then IO.FS.readBinFile e.path else pure ByteArray.empty
    return (location, .file content.toList) :: found
  | .dir => (← e.path.readDir).foldlM (loadEntry contents) ((location, .directory) :: found)
  | .symlink =>
    try return (location, .link (← IO.FS.realPath e.path).toString) :: found
    catch _ => return (location, .link "") :: found
  | .other => return (location, .device) :: found

def above : Location → List (Location × Entry)
  | [] | [_] => []
  | _ :: parent => (parent, .directory) :: above parent

/-- Adds what is at a path, if there is something, and the directories above it. -/
def loadPath (contents : Bool) (found : List (Location × Entry)) (path : String) :
    IO (List (Location × Entry)) := do
  try
    let full ← IO.FS.realPath path
    let location := locationOf full.toString
    let found := found ++ above location
    if ← full.isDir then
      (← full.readDir).foldlM (loadEntry contents) (found ++ [(location, .directory)])
    else if contents then
      return (location, .file (← IO.FS.readBinFile full).toList) :: found
    else return (location, .file []) :: found
  catch _ => return found

def pathsOf (arguments : List String) : List String × List String :=
  match Command.Invocation.ofArguments arguments with
  | .ok ⟨_, .extract selection output _⟩ => ([selection.source], [output])
  | .ok ⟨_, .list selection⟩ => ([selection.source], [])
  | .ok ⟨_, .serve source _⟩ => ([source], [])
  | _ => ([], [])

def loadDisk (arguments : List String) : IO Disk := do
  let here := Path.ofString (← IO.currentDir).toString
  let (read, written) := pathsOf arguments
  let location := here.names.reverse
  let places ← written.foldlM (loadPath false) ((location, .directory) :: above location)
  return { workingDirectory := here, entries := ← read.foldlM (loadPath true) places }

def store (before : Disk) (change : Location × Entry) : IO Unit := do
  let path := "/" ++ "/".intercalate change.1.reverse
  if before.entry? change.1 ≠ some change.2 then
    match change.2 with
    | .directory => IO.FS.createDirAll path
    | .file content => IO.FS.writeBinFile path ⟨content.toArray⟩
    | _ => return ()

def run (arguments : List String) : IO UInt32 := do
  let before ← loadDisk arguments
  let result := Command.run Pipeline.builtinSources before arguments
  for change in result.disk.entries do
    store before change
  IO.print result.output
  IO.eprint result.complaint
  for line in result.log do
    IO.eprintln line.text
  return UInt32.ofNat result.exitCode

end SourceRecovery.Program

def main (arguments : List String) : IO UInt32 := SourceRecovery.Program.run arguments
