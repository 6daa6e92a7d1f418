import SourceRecovery.Pattern.Flags
import SourceRecovery.Pattern.Set

/-!
Patterns from their text. A parenthesis goes four calls deeper and no other token further, so four
times their number bounds how deep reading goes. How deep calls may be nested at all
is left out.
-/
namespace SourceRecovery.Pattern

def sequenceNode : List Node → Node
  | [] => .empty
  | [n] => n
  | n :: rest => .seq n (sequenceNode rest)

/-- What was read last: a node, or the items of a group that only holds them together to be
repeated. -/
inductive Piece where
  | node (n : Node)
  | loose (items : List Node)
  deriving DecidableEq, Repr

def Piece.items : Piece → List Node
  | .node n => [n]
  | .loose items => items

/-- Whether a node is told from others by how it is written, so that alternatives can share it. -/
def Node.isShared : Node → Bool
  | .char _ | .place _ | .sameAs _ _ => true
  | _ => false

/-- What all alternatives begin with, and how each of them goes on. -/
def sharedFront : (first : List Node) → (others : List (List Node)) →
    List Node × List (List Node)
  | n :: first, others =>
    if n.isShared && others.all (·.head? = some n) then
      let (front, rests) := sharedFront first (others.map List.tail)
      (n :: front, rests)
    else ([], (n :: first) :: others)
  | [], others => ([], [] :: others)

def oneSet? : List Node → Option CharSet
  | [.char set] => if set.negated then none else some set
  | _ => none

def eitherNode : (first : List Node) → (others : List (List Node)) → Node
  | first, [] => sequenceNode first
  | first, next :: others => .either (sequenceNode first) (eitherNode next others)

/-- Alternatives of which each is a single character make up one set. -/
def branchNode (flags : Flags) (alternatives : List (List Node)) : Node :=
  match alternatives.mapM oneSet?, alternatives with
  | some sets, _ => .char ⟨false, (sets.flatMap CharSet.items).eraseDups, modeOf flags⟩
  | none, [] => .empty
  | none, first :: others => eitherNode first others

/-- Joins alternatives. What they all begin with stands once in front of them. -/
def joinAlternatives (flags : Flags) : List (List Node) → List Node
  | [] => []
  | [only] => only
  | first :: others =>
    let (front, rests) := sharedFront first others
    front ++ [branchNode flags rests]

structure Times where
  least : Nat
  most : Option Nat
  deriving DecidableEq, Repr

def repetitionLimit : Nat := 0xFFFFFFFF

def groupLimit : Nat := 0x3FFFFFFF

def boundOf (digits : List Char) : Reader Nat :=
  if digitsMax < digits.length then stop (.tooManyDigits digits.length)
  else if repetitionLimit ≤ numeral 10 digits then stop .repetitionTooLarge
  else pure (numeral 10 digits)

/-- The rest of a counted repetition after its brace. Where it is not of the form of one, nothing is
read and the brace stands for itself. -/
def countedTimes : Reader (Option Times) := do
  let before ← get
  if (← peek) = some (.plain '\x7d') then return none
  else
    let left ← tokensLeft
    let lo ← takeChars Char.isDigit left
    let hi ← if ← accept ',' then takeChars Char.isDigit left else pure lo
    if !(← accept '\x7d') then
      set before
      return none
    else
      let least ← if lo = [] then pure 0 else boundOf lo
      if hi = [] then return some ⟨least, none⟩
      else
        let most ← boundOf hi
        if most < least then fail .reversedRepeat ((← position) - before.position)
        else return some ⟨least, some most⟩

def times? (quantifier : Char) : Reader (Option Times) :=
  match quantifier with
  | '?' => pure (some ⟨0, some 1⟩)
  | '*' => pure (some ⟨0, none⟩)
  | '+' => pure (some ⟨1, none⟩)
  | _ => countedTimes

def greed : Reader Greed := do
  if ← accept '?' then return .sparing
  else if ← accept '+' then return .possessive
  else return .greedy

/-- Repeats the last piece read. `start` is where the quantifier begins. -/
def repeatLast (start : Nat) (t : Times) (read : List Piece) : Reader (List Piece) := do
  let back := (← position) - start
  match read with
  | [] | .node (.place _) :: _ => fail .nothingToRepeat back
  | .node (.repeated ..) :: _ => fail .multipleRepeat back
  | piece :: rest =>
    return .node (.repeated (← greed) t.least t.most (sequenceNode piece.items)) :: rest

def conditionGroup (name : String) : Reader Nat := do
  if isIdentifier name then
    match (← get).names.lookup name with
    | none => fail (.unknownName name) (name.length + 1)
    | some number => return number
  else
    match integer? name with
    | none | some (.negSucc _) => fail (.badNameCharacter name) (name.length + 1)
    | some (.ofNat number) =>
      if number = 0 then fail .badGroupNumber (name.length + 1)
      else if groupLimit ≤ number then fail (.invalidReference number) (name.length + 1)
      else
        modify fun s => { s with
          conditions := s.conditions ++ [(number, s.position - name.length - 1)] }
        return number

def namedReference (flags : Flags) : Reader Node := do
  let name ← takeName ')' "group name"
  checkName name
  match (← get).names.lookup name with
  | none => fail (.unknownName name) (name.length + 1)
  | some number =>
    if !(← isClosed number) then fail .openGroup (name.length + 1)
    else
      checkLookBehind number
      return .sameAs number (modeOf flags)

def skipComment (start : Nat) : (fuel : Nat) → Reader Unit
  | 0 => pure ()
  | fuel + 1 => do
    match ← take with
    | none => fail .unterminatedComment ((← position) - start)
    | some token => if token = .plain ')' then pure () else skipComment start fuel

def skipLine : (fuel : Nat) → Reader Unit
  | 0 => pure ()
  | fuel + 1 => do
    match ← take with
    | none => pure ()
    | some token => if token = .plain '\n' then pure () else skipLine fuel

def isPatternSpace (c : Char) : Bool := c = ' ' || (0x09 ≤ c.toNat && c.toNat ≤ 0x0D)

/-- Where a look-behind begins; only the outermost one counts. -/
def enterLookBehind : Reader (Option Nat) := do
  let outer := (← get).lookBehind
  let count ← groupCount
  modify fun s => { s with lookBehind := some (outer.getD count) }
  return outer

def lookBehindNode (outer : Option Nat) (negated : Bool) (body : Node) : Reader Node := do
  let width := body.width (groupWidth (← get))
  modify fun s => { s with lookBehind := outer }
  return .behind negated width body

def closeParenthesis (start : Nat) : Reader Unit := do
  if ← accept ')' then pure () else fail .unterminatedGroup ((← position) - start)

inductive Opening where
  | node (n : Node)
  | nothing
  | flags (on : Flags)
  | capture (name : Option String)
  | loose
  | scope (flags : Flags)
  | atomic
  | ahead (negated : Bool)
  | behind (negated : Bool)
  | condition

def namedOpening (flags : Flags) : Reader Opening := do
  if ← accept '<' then
    let name ← takeName '>' "group name"
    checkName name
    return .capture (some name)
  else if ← accept '=' then return .node (← namedReference flags)
  else
    match ← take with
    | none => fail .unexpectedEnd 0
    | some token => fail (.unknownExtension ("P" ++ token.text)) (token.size + 2)

def behindOpening : Reader Opening := do
  match ← take with
  | none => fail .unexpectedEnd 0
  | some (.plain '=') => return .behind false
  | some (.plain '!') => return .behind true
  | some token => fail (.unknownExtension ("<" ++ token.text)) (token.size + 2)

def opening (flags : Flags) (start : Nat) : Reader Opening := do
  if !(← accept '?') then return .capture none
  else
    match ← take with
    | none => fail .unexpectedEnd 0
    | some (.escaped c) => fail (.unknownExtension (Token.escaped c).text) 3
    | some (.plain c) =>
      match c with
      | 'P' => namedOpening flags
      | ':' => return .loose
      | '#' =>
        skipComment start ((← tokensLeft) + 1)
        return .nothing
      | '=' => return .ahead false
      | '!' => return .ahead true
      | '<' => behindOpening
      | '(' => return .condition
      | '>' => return .atomic
      | _ =>
        if flagLetters.contains c ∨ c = '-' then
          match ← flagGroup c with
          | .whole on => return .flags on
          | .scoped on off => return .scope (combineFlags flags on off)
        else fail (.unknownExtension c.toString) 2

mutual

/-- The items of the alternatives up to a closing parenthesis or the end. Only the first of the
whole pattern may set flags. -/
def alternatives : (fuel : Nat) → Flags → (whole first : Bool) → Reader (List (List Node))
  | 0, _, _, _ => pure []
  | fuel + 1, flags, whole, first => do
    let read ← items fuel flags (whole && first) []
    if ← accept '|' then
      let now ← get
      return read :: (← alternatives fuel (if whole then now.flags else flags) whole false)
    else return [read]

/-- Items up to a bar, a closing parenthesis or the end; `read` has the last one first. -/
def items : (fuel : Nat) → Flags → (flagsAllowed : Bool) → (read : List Piece) →
    Reader (List Node)
  | 0, _, _, read => pure (read.reverse.flatMap Piece.items)
  | fuel + 1, flags, flagsAllowed, read => do
    let start ← position
    match ← peek with
    | none | some (.plain '|') | some (.plain ')') => return read.reverse.flatMap Piece.items
    | some (.escaped c) =>
      let _ ← take
      items fuel flags flagsAllowed (.node (← escapeNode flags c) :: read)
    | some (.plain c) =>
      let _ ← take
      if flags.contains 'x' && isPatternSpace c then items fuel flags flagsAllowed read
      else if flags.contains 'x' && c = '#' then
        skipLine ((← tokensLeft) + 1)
        items fuel flags flagsAllowed read
      else
        match c with
        | '[' => items fuel flags flagsAllowed (.node (← setBody flags) :: read)
        | '.' =>
          let lineEnd := if flags.contains 's' then [] else [SetItem.range 10 10]
          items fuel flags flagsAllowed (.node (.char ⟨true, lineEnd, ⟨false, false⟩⟩) :: read)
        | '^' =>
          let p := if flags.contains 'm' then .lineStart else .start
          items fuel flags flagsAllowed (.node (.place p) :: read)
        | '$' =>
          let p := if flags.contains 'm' then .lineEnd else .lastLineEnd
          items fuel flags flagsAllowed (.node (.place p) :: read)
        | '(' =>
          match ← opening flags start with
          | .nothing => items fuel flags flagsAllowed read
          | .flags on =>
            if !flagsAllowed || read != [] then fail .flagsNotAtStart ((← position) - start)
            else
              modify fun s => { s with flags := s.flags ++ on }
              items fuel (flags ++ on) flagsAllowed read
          | o => items fuel flags flagsAllowed ((← parenthesis fuel flags start o) :: read)
        | _ =>
          if c = '?' ∨ c = '*' ∨ c = '+' ∨ c = '\x7b' then
            match ← times? c with
            | none => items fuel flags flagsAllowed (.node (codeNode flags c.toNat) :: read)
            | some t => items fuel flags flagsAllowed (← repeatLast start t read)
          else items fuel flags flagsAllowed (.node (codeNode flags c.toNat) :: read)

def parenthesis : (fuel : Nat) → Flags → (start : Nat) → Opening → Reader Piece
  | 0, _, _, _ => pure (.loose [])
  | fuel + 1, flags, start, o => do
    match o with
    | .node n => return .node n
    | .nothing | .flags _ => return .loose []
    | .capture name =>
      let number ← openGroup name
      let body ← inside fuel flags start
      closeGroup number (sequenceNode body)
      return .node (.group number (sequenceNode body))
    | .loose => return .loose (← inside fuel flags start)
    | .scope inner => return .node (.scope (sequenceNode (← inside fuel inner start)))
    | .atomic => return .node (.atomic (sequenceNode (← inside fuel flags start)))
    | .ahead negated => return .node (.ahead negated (sequenceNode (← inside fuel flags start)))
    | .behind negated =>
      let outer ← enterLookBehind
      let body ← inside fuel flags start
      return .node (← lookBehindNode outer negated (sequenceNode body))
    | .condition =>
      let number ← conditionGroup (← takeName ')' "group name")
      checkLookBehind number
      let yes ← items fuel flags false []
      if ← accept '|' then
        let no ← items fuel flags false []
        if (← peek) = some (.plain '|') then fail .tooManyBranches 0
        else
          closeParenthesis start
          return .node (.ifGroup number (sequenceNode yes) (sequenceNode no))
      else
        closeParenthesis start
        return .node (.ifGroup number (sequenceNode yes) .empty)

/-- The alternatives in a parenthesis that began at `start`, which is closed behind them. -/
def inside : (fuel : Nat) → Flags → (start : Nat) → Reader (List Node)
  | 0, _, _ => pure []
  | fuel + 1, flags, start => do
    let read ← alternatives fuel flags false false
    closeParenthesis start
    return joinAlternatives flags read

end

/-- Conditions may ask only about groups that the whole pattern has. -/
def checkConditions : List (Nat × Nat) → Reader Unit
  | [] => pure ()
  | (number, place) :: rest => do
    if (← groupCount) ≤ number then stop (.flaw (.invalidReference number) place)
    else checkConditions rest

def lookBehindMax : Nat := 0xFFFFFFFF

def Greed.operator : Greed → String
  | .greedy => "MAX_REPEAT"
  | .sparing => "MIN_REPEAT"
  | .possessive => "POSSESSIVE_REPEAT"

/-- What is wrong with the first node that cannot be searched for. -/
def Node.fault? (template : Bool) : Node → Option Error
  | .empty | .char _ | .sameAs _ _ | .place _ => none
  | .seq a b | .either a b | .ifGroup _ a b => (a.fault? template).or (b.fault? template)
  | .repeated greed _ _ body =>
    if template then some (.inTemplate greed.operator) else body.fault? template
  | .group _ body | .scope body | .atomic body | .ahead _ body => body.fault? template
  | .behind _ width body =>
    if lookBehindMax < width.least then some .farLookBehind
    else if width.least ≠ width.most then some .variableLookBehind
    else body.fault? template

def whole (fuel : Nat) : Reader Program := do
  lookAhead
  let read ← alternatives fuel [] true true
  let now ← get
  let root := sequenceNode (joinAlternatives now.flags read)
  if now.flags.contains 'a' ∧ now.flags.contains 'u' then stop .contraryFlags
  else if (← peek) ≠ none then fail .unbalanced 0
  else
    checkConditions now.conditions
    match root.fault? (now.flags.contains globalFlag) with
    | some e => stop e
    | none => return ⟨root, root.startSet? (groupWidth now) (now.flags.contains 'a')⟩

def parse (characters : CharacterNames) (text : String) : Except Error Program :=
  let (tokens, dangling) := tokensOf text.toList
  ((whole (4 * tokens.length + 4)).run
    { characters, tokens, dangling, position := 0 }).map Prod.fst

end SourceRecovery.Pattern
