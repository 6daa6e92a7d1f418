import SourceRecovery.Text.Quoted

/-!
The grammar of a command line: flags, with or without a value, and one operand. What can be wrong
with the arguments is a complaint about that grammar.
-/
namespace SourceRecovery.Command

inductive Key where
  | help
  | verbose
  | recursive
  | exclude
  | output
  | contain
  | transport
  deriving DecidableEq, Repr

structure Flag where
  key : Key
  names : List String
  takesValue : Bool := false
  /-- The values allowed; if there are none, any value is. -/
  choices : List String := []
  deriving DecidableEq, Repr

def Flag.title (f : Flag) : String := "/".intercalate f.names

/-- The operand of a command: one argument, at most one, or the name of a command with all the
arguments that follow it. -/
inductive Operand where
  | required (title : String)
  | optional
  | command (title : String) (names : List String)
  deriving DecidableEq, Repr

structure Grammar where
  program : String
  usage : String
  help : String
  flags : List Flag
  operand : Operand
  deriving DecidableEq, Repr

def Grammar.flag? (g : Grammar) (name : String) : Option Flag :=
  g.flags.find? (·.names.contains name)

def Grammar.names (g : Grammar) : List (String × Flag) :=
  g.flags.flatMap fun f => f.names.map fun name => (name, f)

inductive Complaint where
  | ambiguous (argument : String) (names : List String)
  | unusedValue (title value : String)
  | valueMissing (title : String)
  | invalidChoice (title value : String) (choices : List String)
  | missing (title : String)
  | unrecognized (arguments : List String)
  deriving DecidableEq, Repr

def commaSeparated (items : List String) : String := ", ".intercalate items

def Complaint.message : Complaint → String
  | .ambiguous argument names =>
    s!"ambiguous option: {argument} could match {commaSeparated names}"
  | .unusedValue title value =>
    s!"argument {title}: ignored explicit argument {Quoted.render value}"
  | .valueMissing title => s!"argument {title}: expected one argument"
  | .invalidChoice title value choices =>
    s!"argument {title}: invalid choice: {Quoted.render value} (choose from " ++
      commaSeparated (choices.map Quoted.render) ++ ")"
  | .missing title => "the following arguments are required: " ++ title
  | .unrecognized arguments => "unrecognized arguments: " ++ " ".intercalate arguments

/-- Why arguments are not carried out: help was asked for, or they are refused. -/
inductive Stop where
  | help (g : Grammar)
  | refused (g : Grammar) (c : Complaint)
  deriving DecidableEq, Repr

end SourceRecovery.Command
