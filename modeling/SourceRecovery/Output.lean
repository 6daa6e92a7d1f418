import SourceRecovery.Disk.Change
import SourceRecovery.Text.Utf8

/-!
Writing a recovered document. Its name chooses the file below the destination; an absolute name
leaves the destination unless names are contained, when anchors and parent references are dropped.
-/
namespace SourceRecovery.Output

/-- A drive such as `C:` or a scheme such as `https:`; a line break may follow. -/
def isAnchorSegment (segment : List Char) : Bool :=
  match if segment.getLast? = some '\n' then segment.dropLast else segment with
  | [] => false
  | first :: rest =>
    first.isAlpha && rest.getLast? = some ':' &&
      rest.dropLast.all fun c => c.isAlphanum || c = '+' || c = '.' || c = '-'

def dropAnchor : List (List Char) → List (List Char)
  | [] => []
  | first :: rest => if isAnchorSegment first then rest else first :: rest

def isUsable (segment : List Char) : Bool := segment ≠ [] ∧ segment ≠ ['.'] ∧ segment ≠ ['.', '.']

/-- The segments of a name that are kept below the destination. -/
def containedNames (name : String) : List String :=
  ((dropAnchor (segments (fun c => c == '\\' || c == '/') name.toList)).filter isUsable).map
    String.ofList

structure Options where
  destination : Path
  contain : Bool
  deriving DecidableEq, Repr

/-- The name has nothing left to write to once it is contained. -/
structure NameError where
  name : String
  deriving DecidableEq, Repr

def NameError.message (e : NameError) : String :=
  "document name has no usable path segments: " ++ Quoted.render e.name

/-- The absolute path at which a document is written by a process working in `base`. -/
def resolve (base : Path) (options : Options) (name : String) : Except NameError Path :=
  if options.contain then
    match containedNames name with
    | [] => .error ⟨name⟩
    | names => .ok (base.absolute ⟨options.destination.anchor, options.destination.names ++ names⟩)
  else .ok (base.absolute (options.destination.join (Path.ofString name)))

structure WrittenFile where
  path : Path
  document : String
  size : Nat
  deriving DecidableEq, Repr

/-- A document that was not written, with the path tried or else its name. -/
structure WriteIssue where
  path : String
  reason : String
  deriving DecidableEq, Repr

def byteOrderMark : Char := '\uFEFF'

/-- Text that begins with a byte-order mark, which is added unless it is there. -/
def marked (text : String) : String :=
  if text.toList.head? = some byteOrderMark then text else byteOrderMark.toString ++ text

def write (d : Disk) (options : Options) (name text : String) :
    Disk × Except WriteIssue WrittenFile :=
  match resolve d.workingDirectory options name with
  | .error e => (d, .error ⟨name, e.message⟩)
  | .ok path =>
    let content := Utf8.encode (marked text)
    match d.makeDirectories path.parent with
    | (d, .error e) => (d, .error ⟨path.render, e.message⟩)
    | (d, .ok _) =>
      match d.write path content with
      | .error e => (d, .error ⟨path.render, e.message⟩)
      | .ok d => (d, .ok ⟨path, name, content.length⟩)

end SourceRecovery.Output
