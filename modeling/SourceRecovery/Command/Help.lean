import SourceRecovery.Text.Layout

/-!
The text of a help page: how the program is used, what it is for, and rows of names with what each
of them means.
-/
namespace SourceRecovery.Command

structure HelpRow where
  indent : Nat
  name : String
  lines : List String

/-- The column in which meanings begin. A name that reaches it stands on a line of its own. -/
def HelpRow.render (column : Nat) (r : HelpRow) : List String :=
  let name := spaces r.indent ++ r.name
  match r.lines with
  | [] => [name]
  | first :: others =>
    let rest := others.map (spaces column ++ ·)
    if name.length + 2 ≤ column then (padRight column name ++ first) :: rest
    else name :: (spaces column ++ first) :: rest

structure HelpPage where
  usage : List String
  purpose : Option String
  column : Nat
  operands : List HelpRow
  options : List HelpRow

def HelpPage.usageText (h : HelpPage) : String := String.join (h.usage.map (· ++ "\n"))

def HelpPage.lines (h : HelpPage) : List String :=
  let purpose := match h.purpose with
    | some text => ["", text]
    | none => []
  h.usage ++ purpose ++
    ["", "positional arguments:"] ++ h.operands.flatMap (HelpRow.render h.column) ++
    ["", "options:"] ++ h.options.flatMap (HelpRow.render h.column)

def HelpPage.render (h : HelpPage) : String := String.join (h.lines.map (· ++ "\n"))

end SourceRecovery.Command
