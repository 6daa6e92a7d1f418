import SourceRecovery.Pattern.Parser
import SourceRecovery.Text.CharacterNames

/-!
Searching a line for a pattern. A pattern is tried with what has to follow it, so that another way
of matching it is looked for when that fails. What groups have matched is marked on the way; a way
that fails leaves its marks behind, and not all of them are put back before the next way is tried.
-/
namespace SourceRecovery.Pattern

/-- Where groups begin and end, two marks for each of them in the order of their numbers. -/
abbrev Marks := List (Option Nat)

/-- A position in a line, the marks made so far, and the text on both sides, the nearest character
first. -/
structure Cursor where
  before : List Char
  rest : List Char
  position : Nat
  marks : Marks

namespace Cursor

def ofLine (line : List Char) : Cursor := ⟨[], line, 0, []⟩

def advance (c : Cursor) : Cursor :=
  match c.rest with
  | [] => c
  | x :: rest => { c with before := x :: c.before, rest, position := c.position + 1 }

def retreat (c : Cursor) : Cursor :=
  match c.before with
  | [] => c
  | x :: before => { c with before, rest := x :: c.rest, position := c.position - 1 }

def holds (c : Cursor) : Place → Bool
  | .start => c.before.isEmpty
  | .lineStart => c.before.isEmpty || c.before.head? = some '\n'
  | .finish => c.rest.isEmpty
  | .lastLineEnd => c.rest.isEmpty || c.rest = ['\n']
  | .lineEnd => c.rest.isEmpty || c.rest.head? = some '\n'
  | .wordEdge ascii => isNonempty c && isEdge ascii c
  | .noWordEdge ascii => isNonempty c && !isEdge ascii c
where
  /-- An empty line has no edges and no places without one. -/
  isNonempty (c : Cursor) : Bool := !(c.before.isEmpty && c.rest.isEmpty)
  isEdge (ascii : Bool) (c : Cursor) : Bool :=
    c.before.head?.any (isWordChar ascii) != c.rest.head?.any (isWordChar ascii)

/-- Marks the position. Marks skipped on the way are none yet. -/
def mark (number : Nat) (c : Cursor) : Cursor :=
  let marks := c.marks ++ List.replicate (number + 1 - c.marks.length) none
  { c with marks := marks.set number (some c.position) }

/-- The text that a group matched last. It has none before it is closed, nor while it has begun once
more, behind its end. -/
def groupText? (number : Nat) (c : Cursor) : Option (List Char) :=
  match c.marks.getD (2 * number - 2) none, c.marks.getD (2 * number - 1) none with
  | some first, some last =>
    if last < first then none
    else some (((c.before.reverse ++ c.rest).drop first).take (last - first))
  | _, _ => none

end Cursor

/-- What has to follow: the cursor where it ends, or the marks left where it fails. -/
abbrev Next := Cursor → Except Marks Cursor

/-- The marks after a way failed. In a repetition they are those from before it; elsewhere only the
marks made beyond those are dropped. -/
def restore (inRepeat : Bool) (saved failed : Marks) : Marks :=
  if inRepeat then saved else failed.take saved.length

/-- Puts marks back if a way fails. -/
def restoring (inRepeat : Bool) (way : Next) : Next := fun c =>
  (way c).mapError (restore inRepeat c.marks)

def orElse (one other : Next) : Next := fun c =>
  match one c with
  | .ok e => .ok e
  | .error marks => other { c with marks }

def refuse : Next := fun c => .error c.marks

/-- Goes on behind what was matched alone, without trying another way of matching that. -/
def thenOnce (alone k : Next) : Next := fun c => (alone c).bind k

/-- The cursors after each number of characters in the set, the most first. -/
def charRun (set : CharSet) (most : Option Nat) :
    List Char → (count : Nat) → Cursor → List Cursor → List Cursor
  | [], _, c, found => c :: found
  | x :: rest, count, c, found =>
    if most.all (count < ·) && set.has x then
      charRun set most rest (count + 1) c.advance (c :: found)
    else c :: found

def firstOf (way : Next) : List Cursor → (marks : Marks) → Except Marks Cursor
  | [], marks => .error marks
  | c :: rest, marks =>
    match way { c with marks } with
    | .ok e => .ok e
    | .error marks => firstOf way rest marks

def repeatChars (greed : Greed) (inRepeat : Bool) (set : CharSet) (least : Nat)
    (most : Option Nat) (k : Next) : Next := fun c =>
  let longest := charRun set most c.rest 0 c []
  let enough := longest.take (longest.length - least)
  match greed with
  | .greedy => firstOf (restoring inRepeat k) enough c.marks
  | .sparing => firstOf (restoring inRepeat k) enough.reverse c.marks
  | .possessive => firstOf k (enough.take 1) c.marks

/-- Repeats `body`. After the least number of times it is repeated again only if the last repetition
moved on, so `fuel` beyond the least number and the rest of the line is never used up. -/
def repeatBody (body : Next → Next) (inRepeat sparing : Bool) (least : Nat) (most : Option Nat)
    (k : Next) : (fuel count : Nat) → (last : Option Nat) → Next
  | 0, _, _ => k
  | fuel + 1, count, last => fun c =>
    if count < least then
      body (repeatBody body inRepeat sparing least most k fuel (count + 1) last) c
    else
      let more : Next :=
        if most.all (count < ·) && last != some c.position then
          body (repeatBody body inRepeat sparing least most k fuel (count + 1) (some c.position))
        else refuse
      if sparing then orElse (restoring inRepeat k) more c
      else orElse (restoring true more) k c

/-- Repeats `body` as often as it can be, no other way of matching it once being looked for. -/
def repeatAlone (body : Next) (least : Nat) (most : Option Nat) : (fuel count : Nat) → Next
  | 0, _ => .ok
  | fuel + 1, count => fun c =>
    if count < least then (body c).bind (repeatAlone body least most fuel (count + 1))
    else if most.all (count < ·) then
      match body c with
      | .error _ => .ok c
      | .ok e =>
        if e.position = c.position then .ok e
        else repeatAlone body least most fuel (count + 1) e
    else .ok c

def follow (mode : Mode) : List Char → Next
  | [] => .ok
  | x :: text => fun c =>
    match c.rest with
    | [] => refuse c
    | y :: _ => if mode.fold x = mode.fold y then follow mode text c.advance else refuse c

def Node.oneChar? : Node → Option CharSet
  | .char set => some set
  | .scope body => body.oneChar?
  | _ => none

/-- Matches a node at a cursor so that `k` succeeds after it. -/
def run : Node → (inRepeat : Bool) → Next → Next
  | .empty, _, k => k
  | .char set, _, k => fun c =>
    match c.rest with
    | [] => refuse c
    | x :: _ => if set.has x then k c.advance else refuse c
  | .seq a b, inRepeat, k => run a inRepeat (run b inRepeat k)
  | .either a b, inRepeat, k =>
    orElse (restoring inRepeat (run a inRepeat k)) (restoring inRepeat (run b inRepeat k))
  | .repeated greed least most body, inRepeat, k => fun c =>
    match body.oneChar?, greed with
    | some set, _ => repeatChars greed inRepeat set least most k c
    | none, .possessive =>
      thenOnce (repeatAlone (run body true .ok) least most (least + c.rest.length + 1) 0) k c
    | none, _ =>
      repeatBody (run body true) inRepeat (greed = .sparing) least most k
        (least + c.rest.length + 2) 0 none c
  | .group number body, inRepeat, k => fun c =>
    run body inRepeat (fun e => k (e.mark (2 * number - 1))) (c.mark (2 * number - 2))
  | .scope body, inRepeat, k => run body inRepeat k
  | .atomic body, inRepeat, k => thenOnce (run body inRepeat .ok) k
  | .sameAs number mode, _, k => fun c =>
    match c.groupText? number with
    | none => refuse c
    | some text => thenOnce (follow mode text) k c
  | .place p, _, k => fun c => if c.holds p then k c else refuse c
  | .ahead negated body, inRepeat, k => look negated inRepeat (run body inRepeat .ok) k id
  | .behind negated width body, inRepeat, k => fun c =>
    if c.position < width.least then if negated then k c else refuse c
    else look negated inRepeat (run body inRepeat .ok) k (Nat.repeat Cursor.retreat width.least) c
  | .ifGroup number yes no, inRepeat, k => fun c =>
    if (c.groupText? number).isSome then run yes inRepeat k c else run no inRepeat k c
where
  /-- Goes on where a text is found, or is not found, at a place nearby. -/
  look (negated inRepeat : Bool) (body k : Next) (place : Cursor → Cursor) : Next := fun c =>
    match body (place c), negated with
    | .ok e, false => k { c with marks := e.marks }
    | .ok e, true => .error e.marks
    | .error marks, false => .error marks
    | .error marks, true => k { c with marks := restore inRepeat c.marks marks }

def matchesAt (p : Program) (c : Cursor) : Bool := (run p.root false .ok c).isOk

def canStart (p : Program) (x : Char) : Bool := p.starts.all (·.has x)

/-- Tries a pattern at one position after the other. Marks are made anew at each. -/
def searchFrom (p : Program) : List Char → Cursor → Bool
  | [], c => p.starts.isNone && matchesAt p c
  | x :: rest, c => (canStart p x && matchesAt p c) || searchFrom p rest c.advance

def search (p : Program) (line : List Char) : Bool := searchFrom p line (Cursor.ofLine line)

/-- What a server searches with: the text of a pattern is refused with an error or becomes a test of
lines. -/
abbrev Engine := String → Except Error (List Char → Bool)

def engineFor (characters : CharacterNames) : Engine := fun text =>
  (parse characters text).map search

def engine : Engine := engineFor characterNamed?

end SourceRecovery.Pattern
