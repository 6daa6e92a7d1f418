import SourceRecovery.Pattern.Reader

/-!
Escapes, inside a set and outside one.
-/
namespace SourceRecovery.Pattern

def isOctal (c : Char) : Bool := '0' ≤ c && c ≤ '7'

def isHex (c : Char) : Bool := c.isDigit || ('a' ≤ c && c ≤ 'f') || ('A' ≤ c && c ≤ 'F')

def digitValue (c : Char) : Nat :=
  if c.isDigit then c.toNat - '0'.toNat else c.toLower.toNat - 'a'.toNat + 10

def numeral (base : Nat) (digits : List Char) : Nat :=
  digits.foldl (fun n c => n * base + digitValue c) 0

def escapeText (c : Char) (digits : List Char) : String := String.ofList ('\\' :: c :: digits)

def controlCode? : Char → Option Nat
  | 'a' => some 7
  | 'b' => some 8
  | 't' => some 9
  | 'n' => some 10
  | 'v' => some 11
  | 'f' => some 12
  | 'r' => some 13
  | '\\' => some 92
  | _ => none

def kind? : Char → Option SetItem
  | 'd' => some (.kind .digit false)
  | 'D' => some (.kind .digit true)
  | 's' => some (.kind .space false)
  | 'S' => some (.kind .space true)
  | 'w' => some (.kind .word false)
  | 'W' => some (.kind .word true)
  | _ => none

def place? (ascii : Bool) : Char → Option Place
  | 'A' => some .start
  | 'Z' => some .finish
  | 'b' => some (.wordEdge ascii)
  | 'B' => some (.noWordEdge ascii)
  | _ => none

def codeLimit : Nat := 0x110000

def hexCode (letter : Char) (count : Nat) : Reader Nat := do
  let digits ← takeChars isHex count
  let text := escapeText letter digits
  if digits.length ≠ count then fail (.incompleteEscape text) text.length
  else if codeLimit ≤ numeral 16 digits then fail (.badEscape text) text.length
  else return numeral 16 digits

def octalCode (digits : List Char) : Reader Nat :=
  let text := String.ofList ('\\' :: digits)
  if 0o377 < numeral 8 digits then fail (.octalRange text) text.length
  else pure (numeral 8 digits)

def namedCode : Reader Nat := do
  if !(← accept '\x7b') then fail .missingBrace 0
  else
    let name ← takeName '\x7d' "character name"
    match (← get).characters name with
    | none => fail (.unknownCharacter name) (name.length + 4)
    | some code => return code

/-- A numeric or named code, or the character itself unless it is a letter or digit. -/
def plainCode (c : Char) : Reader Nat :=
  match c with
  | 'x' => hexCode c 2
  | 'u' => hexCode c 4
  | 'U' => hexCode c 8
  | 'N' => namedCode
  | _ => if c.isAlphanum then fail (.badEscape (escapeText c [])) 2 else pure c.toNat

/-- A member of a set: a single code point, which can begin or end a range, or a kind. -/
inductive Member where
  | code (n : Nat)
  | kind (item : SetItem)
  deriving DecidableEq, Repr

def Member.item : Member → SetItem
  | .code n => .code n
  | .kind item => item

def escapeInSet (c : Char) : Reader Member := do
  match controlCode? c, kind? c with
  | some code, _ => return .code code
  | none, some item => return .kind item
  | none, none =>
    if isOctal c then return .code (← octalCode (c :: (← takeChars isOctal 2)))
    else return .code (← plainCode c)

def setNode (flags : Flags) (negated : Bool) (items : List SetItem) : Node :=
  .char ⟨negated, items, modeOf flags⟩

def codeNode (flags : Flags) (n : Nat) : Node := setNode flags false [.code n]

def backReference (flags : Flags) (digits : List Char) : Reader Node := do
  let number := numeral 10 digits
  if (← groupCount) ≤ number then fail (.invalidReference number) digits.length
  else if !(← isClosed number) then fail .openGroup (digits.length + 1)
  else
    checkLookBehind number
    return .sameAs number (modeOf flags)

/-- A digit from 1 on begins an octal code of three digits or else the number of a group. -/
def digitEscape (flags : Flags) (first : Char) : Reader Node := do
  match ← takeChars Char.isDigit 1 with
  | [second] =>
    if isOctal first && isOctal second then
      match ← takeChars isOctal 1 with
      | [third] => return codeNode flags (← octalCode [first, second, third])
      | _ => backReference flags [first, second]
    else backReference flags [first, second]
  | _ => backReference flags [first]

def escapeNode (flags : Flags) (c : Char) : Reader Node := do
  match kind? c, place? (flags.contains 'a') c, controlCode? c with
  | some item, _, _ => return setNode flags false [item]
  | none, some p, _ => return .place p
  | none, none, some code => return codeNode flags code
  | none, none, none =>
    if c = '0' then
      return codeNode flags (numeral 8 (c :: (← takeChars isOctal 2)))
    else if c.isDigit then digitEscape flags c
    else return codeNode flags (← plainCode c)

end SourceRecovery.Pattern
