import SourceRecovery.Command.Arguments
import SourceRecovery.Command.Help
import SourceRecovery.Discovery

/-!
The commands of the program, their grammars, and what arguments ask for.
-/
namespace SourceRecovery.Command

def helpFlag : Flag := { key := .help, names := ["-h", "--help"] }

def helpRow : HelpRow := ⟨2, "-h, --help", ["show this help message and exit"]⟩

def grammarOf (program : String) (page : HelpPage) (flags : List Flag) (operand : Operand) :
    Grammar :=
  ⟨program, page.usageText, page.render, helpFlag :: flags, operand⟩

inductive Verb where
  | extract
  | list
  | serve
  | deck
  deriving DecidableEq, Repr

def Verb.name : Verb → String
  | .extract => "extract"
  | .list => "list"
  | .serve => "serve"
  | .deck => "deck"

def verbs : List Verb := [.extract, .list, .serve, .deck]

def verb? (name : String) : Option Verb := verbs.find? (·.name = name)

def programName : String := "embedsrc"

def programPage : HelpPage where
  usage := ["usage: embedsrc [-h] [-v] \x7bextract,list,serve,deck\x7d ..."]
  purpose := some "Recover source files embedded in Portable PDB debug information"
  column := 24
  operands :=
    [⟨2, "\x7bextract,list,serve,deck\x7d", []⟩,
      ⟨4, "extract", ["Write embedded sources to a directory"]⟩,
      ⟨4, "list", ["List embedded sources without writing them"]⟩,
      ⟨4, "serve", ["Start MCP server for a file's embedded sources"]⟩,
      ⟨4, "deck", ["Launch Extraction Deck TUI"]⟩]
  options := [helpRow, ⟨2, "-v, --verbose", ["Show debug output"]⟩]

def programGrammar : Grammar :=
  grammarOf programName programPage [{ key := .verbose, names := ["-v", "--verbose"] }]
    (.command "command" (verbs.map Verb.name))

def inputRow : HelpRow := ⟨2, "source", ["Input .pdb/.dll/.exe file or directory"]⟩

def recursiveRow : HelpRow :=
  ⟨2, "-r, --recursive", ["Scan subdirectories when the input is a directory"]⟩

def inputFlags : List Flag :=
  [{ key := .recursive, names := ["-r", "--recursive"] },
    { key := .exclude, names := ["--exclude"], takesValue := true }]

def outputFlag : Flag := { key := .output, names := ["-o", "--output"], takesValue := true }

def extractPage : HelpPage where
  usage :=
    ["usage: embedsrc extract [-h] [-r] [--exclude PATTERNS] [-o OUTPUT] [--contain]",
      "                        source"]
  purpose := none
  column := 24
  operands := [inputRow]
  options :=
    [helpRow, recursiveRow,
      ⟨2, "--exclude PATTERNS",
        ["Skip input paths containing any of these substrings", "(',' or ';' separated)"]⟩,
      ⟨2, "-o OUTPUT, --output OUTPUT", ["Output directory (default: current directory)"]⟩,
      ⟨2, "--contain",
        ["Write absolute document paths under the output", "directory too"]⟩]

def listPage : HelpPage where
  usage := ["usage: embedsrc list [-h] [-r] [--exclude PATTERNS] source"]
  purpose := none
  column := 22
  operands := [inputRow]
  options :=
    [helpRow, recursiveRow,
      ⟨2, "--exclude PATTERNS",
        ["Skip input paths containing any of these substrings (','", "or ';' separated)"]⟩]

def servePage : HelpPage where
  usage := ["usage: embedsrc serve [-h] [--transport \x7bstdio,sse\x7d] source"]
  purpose := none
  column := 24
  operands := [⟨2, "source", ["Path to a .pdb, .dll or .exe file"]⟩]
  options :=
    [helpRow,
      ⟨2, "--transport \x7bstdio,sse\x7d", ["Transport protocol (default: stdio)"]⟩]

def deckPage : HelpPage where
  usage := ["usage: embedsrc deck [-h] [-o OUTPUT] [source]"]
  purpose := none
  column := 24
  operands := [⟨2, "source", ["Input to prefill"]⟩]
  options :=
    [helpRow, ⟨2, "-o OUTPUT, --output OUTPUT", ["Output directory to prefill"]⟩]

def Verb.page : Verb → HelpPage
  | .extract => extractPage
  | .list => listPage
  | .serve => servePage
  | .deck => deckPage

def Verb.flags : Verb → List Flag
  | .extract => inputFlags ++ [outputFlag, { key := .contain, names := ["--contain"] }]
  | .list => inputFlags
  | .serve =>
    [{ key := .transport, names := ["--transport"], takesValue := true,
       choices := ["stdio", "sse"] }]
  | .deck => [outputFlag]

def Verb.operand : Verb → Operand
  | .deck => .optional
  | _ => .required "source"

def Verb.grammar (v : Verb) : Grammar :=
  grammarOf (programName ++ " " ++ v.name) v.page v.flags v.operand

structure Selection where
  source : String
  recursive : Bool
  excludes : List String
  deriving DecidableEq, Repr

def Selection.query (s : Selection) : Discovery.Query :=
  ⟨Path.ofString s.source, s.recursive, s.excludes⟩

inductive Request where
  | extract (selection : Selection) (output : String) (contain : Bool)
  | list (selection : Selection)
  | serve (source transport : String)
  | deck (source output : Option String)
  deriving DecidableEq, Repr

structure Invocation where
  verbose : Bool
  request : Request
  deriving DecidableEq, Repr

/-- The only word of the operand. A grammar that requires one has checked that it is there. -/
def Reading.word? (r : Reading) : Option String := r.operand.bind List.head?

def selectionOf (r : Reading) : Selection :=
  ⟨r.word?.getD "", r.has .recursive, Discovery.splitExcludes (r.values .exclude)⟩

def Verb.request (r : Reading) : Verb → Request
  | .extract => .extract (selectionOf r) ((r.value? .output).getD ".") (r.has .contain)
  | .list => .list (selectionOf r)
  | .serve => .serve (r.word?.getD "") ((r.value? .transport).getD "stdio")
  | .deck => .deck r.word? (r.value? .output)

/-- What the arguments of the program ask for. Arguments nothing was made of, by the program or by
the command, are refused when all others have been read. -/
def Invocation.ofArguments (arguments : List String) : Except Stop Invocation := do
  let outer ← programGrammar.read arguments
  match outer.operand.getD [] with
  | [] => .error (.refused programGrammar (.missing "command"))
  | name :: rest =>
    match verb? name with
    | none =>
      .error (.refused programGrammar (.invalidChoice "command" name (verbs.map Verb.name)))
    | some verb =>
      let inner ← verb.grammar.read rest
      match outer.extras ++ inner.extras with
      | [] => .ok ⟨outer.has .verbose, verb.request inner⟩
      | extras => .error (.refused programGrammar (.unrecognized extras))

end SourceRecovery.Command
