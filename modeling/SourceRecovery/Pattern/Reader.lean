import SourceRecovery.Pattern.Basic
import SourceRecovery.Pattern.Error

/-!
Reading the text of a pattern token by token. A token is a character or a backslash with the
character after it. The next token is always looked at in advance, so a backslash at the very end
is noticed when the token before it is taken.
-/
namespace SourceRecovery.Pattern

inductive Token where
  | plain (c : Char)
  | escaped (c : Char)
  deriving DecidableEq, Repr

def Token.text : Token → String
  | .plain c => c.toString
  | .escaped c => String.ofList ['\\', c]

def Token.size : Token → Nat
  | .plain _ => 1
  | .escaped _ => 2

def tokensOf : List Char → List Token × Bool
  | [] => ([], false)
  | ['\\'] => ([], true)
  | '\\' :: c :: rest => let (tokens, dangling) := tokensOf rest; (.escaped c :: tokens, dangling)
  | c :: rest => let (tokens, dangling) := tokensOf rest; (.plain c :: tokens, dangling)

abbrev Flags := List Char

def modeOf (flags : Flags) : Mode := ⟨flags.contains 'i', flags.contains 'a'⟩

abbrev CharacterNames := String → Option Nat

structure State where
  characters : CharacterNames
  tokens : List Token
  dangling : Bool
  /-- Where the next token begins. -/
  position : Nat
  flags : Flags := []
  /-- The width of each group opened so far, once it is closed. -/
  groups : List (Option Width) := []
  names : List (String × Nat) := []
  /-- Conditions on groups by number, with the place of each. -/
  conditions : List (Nat × Nat) := []
  /-- Number of groups where the outermost look-behind being read began. -/
  lookBehind : Option Nat := none

abbrev Reader := StateT State (Except Error)

/-- Fails `back` characters before the next token. -/
def fail {α : Type} (f : Flaw) (back : Nat) : Reader α := fun s =>
  .error (.flaw f (s.position - back))

def stop {α : Type} (e : Error) : Reader α := fun _ => .error e

def peek : Reader (Option Token) := fun s => .ok (s.tokens.head?, s)

def position : Reader Nat := fun s => .ok (s.position, s)

/-- Notices a backslash that has nothing after it. -/
def lookAhead : Reader Unit := fun s =>
  if s.tokens.isEmpty && s.dangling then .error (.flaw .danglingEscape s.position) else .ok ((), s)

def take : Reader (Option Token) := fun s =>
  match s.tokens with
  | [] => .ok (none, s)
  | token :: rest =>
    (lookAhead { s with tokens := rest, position := s.position + token.size }).map fun (_, s) =>
      (some token, s)

def accept (c : Char) : Reader Bool := do
  if (← peek) = some (.plain c) then
    let _ ← take
    return true
  else return false

def takeChars (p : Char → Bool) : (count : Nat) → Reader (List Char)
  | 0 => pure []
  | count + 1 => do
    match ← peek with
    | some (.plain c) =>
      if p c then
        let _ ← take
        return c :: (← takeChars p count)
      else return []
    | _ => return []

def tokensLeft : Reader Nat := fun s => .ok (s.tokens.length, s)

def nameUpTo (close : Char) (what : String) : (fuel : Nat) → (read : String) → Reader String
  | 0, _ => fail (.missingName what) 0
  | fuel + 1, read => do
    match ← take with
    | none =>
      if read = "" then fail (.missingName what) 0
      else fail (.unterminatedName close) read.length
    | some token =>
      if token = .plain close then
        if read = "" then fail (.missingName what) 1 else return read
      else nameUpTo close what fuel (read ++ token.text)

/-- The text up to a closing character, which is taken too. -/
def takeName (close : Char) (what : String) : Reader String := do
  nameUpTo close what ((← tokensLeft) + 1) ""

def checkName (name : String) : Reader Unit :=
  if isIdentifier name then pure () else fail (.badNameCharacter name) (name.length + 1)

def groupCount : Reader Nat := fun s => .ok (s.groups.length + 1, s)

def closedWidth? (s : State) (number : Nat) : Option Width :=
  match number with
  | 0 => none
  | index + 1 => s.groups.getD index none

def groupWidth (s : State) (number : Nat) : Width := (closedWidth? s number).getD ⟨0, 0⟩

def isClosed (number : Nat) : Reader Bool := fun s => .ok ((closedWidth? s number).isSome, s)

/-- A look-behind can refer only to groups closed before it began. -/
def checkLookBehind (number : Nat) : Reader Unit := do
  match (← get).lookBehind with
  | none => pure ()
  | some count =>
    if !(← isClosed number) then fail .openGroup 0
    else if count ≤ number then fail .groupInLookBehind 0
    else pure ()

def openGroup (name : Option String) : Reader Nat := do
  let number ← groupCount
  match name with
  | none => pure ()
  | some name =>
    match (← get).names.lookup name with
    | some earlier => fail (.redefinedName name number earlier) (name.length + 1)
    | none => modify fun s => { s with names := s.names ++ [(name, number)] }
  modify fun s => { s with groups := s.groups ++ [none] }
  return number

def closeGroup (number : Nat) (body : Node) : Reader Unit :=
  modify fun s =>
    { s with groups := s.groups.set (number - 1) (some (body.width (groupWidth s))) }

end SourceRecovery.Pattern
