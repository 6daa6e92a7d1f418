import SourceRecovery.Text.Alphanumeric
import SourceRecovery.Text.Upper

/-!
Search patterns and the sets of characters in them.
-/
namespace SourceRecovery.Pattern

inductive CharKind where
  | digit
  | space
  | word
  deriving DecidableEq, Repr

/-- Whether letters of either case count as the same, and whether ASCII alone has letters, digits
and blanks. -/
structure Mode where
  ignoreCase : Bool
  ascii : Bool
  deriving DecidableEq, Repr

/-- An item of a set: a code point, a range of them, or a kind of character or its complement. -/
inductive SetItem where
  | code (n : Nat)
  | range (first last : Nat)
  | kind (k : CharKind) (negated : Bool)
  deriving DecidableEq, Repr

structure CharSet where
  negated : Bool
  items : List SetItem
  mode : Mode
  deriving DecidableEq, Repr

def isWordChar (ascii : Bool) (c : Char) : Bool :=
  c = '_' || if ascii then c.isAlphanum else isAlphanumeric c

def CharKind.has (ascii : Bool) (c : Char) : CharKind → Bool
  | .digit => if ascii then c.isDigit else isDecimalDigit c
  | .space => if ascii then c = ' ' || (0x09 ≤ c.toNat && c.toNat ≤ 0x0D) else isBlank c
  | .word => isWordChar ascii c

def Mode.fold (m : Mode) (c : Char) : Char :=
  if !m.ignoreCase then c else if m.ascii then c.toLower else lowerChar c

def Mode.spellings (m : Mode) (c : Char) : List Nat :=
  if !m.ignoreCase then [c.toNat]
  else if m.ascii then [c.toLower.toNat, c.toUpper.toNat]
  else sameLetter c

def basicPlane : Nat := 0x10000

/-- Whether an item of a set has a character. The code points of the basic plane stand for all
spellings of theirs; one beyond it is compared as it is with the character in lower case, a range
that goes beyond it also with the upper case of that. -/
def SetItem.has (m : Mode) (c : Char) (item : SetItem) : Bool :=
  let folded := m.fold c
  match item with
  | .kind k negated => k.has m.ascii folded != negated
  | .code n => if n < basicPlane then (m.spellings c).contains n else folded.toNat = n
  | .range first last =>
    let within (n : Nat) : Bool := first ≤ n && n ≤ last
    (m.spellings c).any (fun n => n < basicPlane && within n) ||
      (basicPlane ≤ last && (within folded.toNat ||
        (m.ignoreCase && ((upperForm folded).head?.any fun upper => within upper.toNat))))

/-- Membership. A set of a single code point is a literal, which has all spellings of it. -/
def CharSet.has (s : CharSet) (c : Char) : Bool :=
  let found :=
    match s.items with
    | [.code n] => (s.mode.spellings c).contains n
    | items => items.any (·.has s.mode c)
  found != s.negated

inductive Place where
  | start
  | lineStart
  | finish
  | lastLineEnd
  | lineEnd
  | wordEdge (ascii : Bool)
  | noWordEdge (ascii : Bool)
  deriving DecidableEq, Repr

/-- Whether repetition takes as much as it can, as little as it can, or all without going back. -/
inductive Greed where
  | greedy
  | sparing
  | possessive
  deriving DecidableEq, Repr

/-- Least and greatest number of characters that a pattern takes. -/
structure Width where
  least : Nat
  most : Nat
  deriving DecidableEq, Repr

inductive Node where
  | empty
  | char (set : CharSet)
  | seq (first second : Node)
  | either (first second : Node)
  | repeated (greed : Greed) (least : Nat) (most : Option Nat) (body : Node)
  | group (number : Nat) (body : Node)
  /-- A group for flags of its own, which its nodes already have. -/
  | scope (body : Node)
  | atomic (body : Node)
  | sameAs (number : Nat) (mode : Mode)
  | place (p : Place)
  | ahead (negated : Bool) (body : Node)
  | behind (negated : Bool) (width : Width) (body : Node)
  | ifGroup (number : Nat) (yes no : Node)
  deriving DecidableEq, Repr

def widthMax : Nat := 0x10000000000000000

def Node.width (groups : Nat → Width) : Node → Width
  | .empty | .place _ | .ahead _ _ | .behind _ _ _ => ⟨0, 0⟩
  | .char _ => ⟨1, 1⟩
  | .seq a b => ⟨(a.width groups).least + (b.width groups).least,
      (a.width groups).most + (b.width groups).most⟩
  | .either a b => ⟨min (a.width groups).least (b.width groups).least,
      max (a.width groups).most (b.width groups).most⟩
  | .repeated _ least most body => ⟨(body.width groups).least * least,
      (body.width groups).most * most.getD widthMax⟩
  | .group _ body | .scope body | .atomic body => body.width groups
  | .sameAs number _ => groups number
  | .ifGroup _ yes no => ⟨min (yes.width groups).least (no.width groups).least,
      max (yes.width groups).most (no.width groups).most⟩

/-- The set that the first character of every match is in, where a pattern begins with one. -/
def Node.firstSet? : Node → Option CharSet
  | .char set => some set
  | .seq a _ => a.firstSet?
  | .group _ body | .scope body => body.firstSet?
  | _ => none

def isCased (ascii : Bool) (n : Nat) : Bool :=
  let c := Char.ofNat n
  if ascii then c.isAlpha else lowerChar c != c || (upperForm c).head?.any (· != c)

def SetItem.isCased (ascii : Bool) : SetItem → Bool
  | .code n => Pattern.isCased ascii n
  | .range first last =>
    basicPlane ≤ last ||
      (List.range (last + 1 - first)).any fun i => Pattern.isCased ascii (first + i)
  | .kind _ _ => false

def SetItem.isKind : SetItem → Bool
  | .kind _ _ => true
  | _ => false

/-- The characters at which alone a search for a pattern begins: those of the set in which every
match begins, where that has whole kinds of characters and no letters that count as others. The
kinds are those of the pattern as a whole, also where flags for a part of it say otherwise. -/
def Node.startSet? (groups : Nat → Width) (ascii : Bool) (root : Node) : Option CharSet :=
  if (root.width groups).least = 0 then none
  else
    root.firstSet?.bind fun set =>
      if !set.items.any SetItem.isKind then none
      else if set.mode.ignoreCase && set.items.any (·.isCased set.mode.ascii) then none
      else some { set with mode := ⟨false, ascii⟩ }

structure Program where
  root : Node
  starts : Option CharSet
  deriving DecidableEq, Repr

end SourceRecovery.Pattern
