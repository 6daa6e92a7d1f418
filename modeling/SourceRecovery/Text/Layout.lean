/-!
How texts are laid out: pieces of a text, lower-case hexadecimal numerals, columns and lines.
-/
namespace SourceRecovery

/-- Whether `piece` occurs in a text; the empty piece occurs in every text. -/
def occursIn (piece : List Char) : List Char → Bool
  | [] => piece.isEmpty
  | c :: rest => piece.isPrefixOf (c :: rest) || occursIn piece rest

def hex (n : Nat) : String := String.ofList (Nat.toDigits 16 n)

def hexPadded (width n : Nat) : String := String.ofList ((Nat.toDigits 16 n).leftpad width '0')

def spaces (count : Nat) : String := String.ofList (List.replicate count ' ')

/-- A column of text; one longer than its column is not cut. -/
def padRight (width : Nat) (text : String) : String := text ++ spaces (width - text.length)

def padLeft (width : Nat) (text : String) : String := spaces (width - text.length) ++ text

/-- Besides line feed and carriage return, alone or as a pair, the vertical separators of Unicode
end a line. -/
def isLineEnd (c : Char) : Bool :=
  let n := c.toNat
  (0x0A ≤ n && n ≤ 0x0D) || (0x1C ≤ n && n ≤ 0x1E) || n = 0x85 || n = 0x2028 || n = 0x2029

/-- Lines of a text whose first line has already begun with `line`, its last character first. A
line end closes a line, so nothing follows the last of them. -/
def linesFrom (line : List Char) : List Char → List (List Char)
  | [] => if line.isEmpty then [] else [line.reverse]
  | '\r' :: '\n' :: rest => line.reverse :: linesFrom [] rest
  | c :: rest => if isLineEnd c then line.reverse :: linesFrom [] rest else linesFrom (c :: line) rest

def linesOf (text : String) : List (List Char) := linesFrom [] text.toList

end SourceRecovery
