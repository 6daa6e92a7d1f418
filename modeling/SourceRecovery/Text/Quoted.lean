import SourceRecovery.Text.Layout
import SourceRecovery.Text.Printable

/-!
Text inside quotes. Apostrophes quote unless the text has one and no double quote; the quote, the
backslash and characters that cannot be printed are escaped.
-/
namespace SourceRecovery.Quoted

def delimiter (text : List Char) : Char :=
  if text.contains '\'' && !text.contains '"' then '"' else '\''

/-- The shortest numeric escape that holds the code point. -/
def numeric (n : Nat) : String :=
  if n < 0x100 then "\\x" ++ hexPadded 2 n
  else if n < 0x10000 then "\\u" ++ hexPadded 4 n
  else "\\U" ++ hexPadded 8 n

def escape (quote c : Char) : String :=
  if c = quote ∨ c = '\\' then String.ofList ['\\', c]
  else if c = '\n' then "\\n"
  else if c = '\r' then "\\r"
  else if c = '\t' then "\\t"
  else if isPrintable c then c.toString
  else numeric c.toNat

def render (text : String) : String :=
  let quote := delimiter text.toList
  quote.toString ++ String.join (text.toList.map (escape quote)) ++ quote.toString

end SourceRecovery.Quoted
