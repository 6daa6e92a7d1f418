/-!
File paths: an anchor and the names below it. Empty and `.` segments of the text are dropped, `..`
stays a name until the path is made absolute. Exactly two slashes in front are an anchor of their
own, more are the root.
-/
namespace SourceRecovery

inductive Anchor where
  | relative
  | root
  | doubleRoot
  deriving DecidableEq, Repr

def Anchor.text : Anchor → String
  | .relative => ""
  | .root => "/"
  | .doubleRoot => "//"

def Anchor.ofChars : List Char → Anchor
  | '/' :: '/' :: '/' :: _ => .root
  | '/' :: '/' :: _ => .doubleRoot
  | '/' :: _ => .root
  | _ => .relative

/-- Cuts a list at every element that satisfies `p`; there is always a last segment. -/
def segments {α : Type} (p : α → Bool) : List α → List (List α)
  | [] => [[]]
  | a :: rest =>
    if p a then [] :: segments p rest
    else
      match segments p rest with
      | [] => [[a]]
      | first :: others => (a :: first) :: others

structure Path where
  anchor : Anchor
  names : List String
  deriving DecidableEq, Repr

namespace Path

def ofString (text : String) : Path where
  anchor := Anchor.ofChars text.toList
  names := ((segments (· == '/') text.toList).map String.ofList).filter
    fun name => name ≠ "" ∧ name ≠ "."

def render (p : Path) : String :=
  match p with
  | ⟨.relative, []⟩ => "."
  | ⟨anchor, names⟩ => anchor.text ++ "/".intercalate names

/-- `p` seen from `base`: an absolute path stands for itself. -/
def join (base p : Path) : Path :=
  match p.anchor with
  | .relative => ⟨base.anchor, base.names ++ p.names⟩
  | _ => p

def child (p : Path) (name : String) : Path := ⟨p.anchor, p.names ++ [name]⟩

def parent (p : Path) : Path := ⟨p.anchor, p.names.dropLast⟩

/-- Lets each `..` cancel the name before it; at the top there is nothing to cancel. `above` has
the last name first. -/
def cancelFrom (above : List String) : List String → List String
  | [] => above.reverse
  | name :: rest =>
    if name = ".." then cancelFrom above.tail rest else cancelFrom (name :: above) rest

/-- The path from the root that `p` means in directory `base`, which is absolute. -/
def absolute (base p : Path) : Path :=
  let joined := base.join p
  ⟨joined.anchor, cancelFrom [] joined.names⟩

def name (p : Path) : String := p.names.getLastD ""

/-- The last dot of a name and what follows it, unless the dot is its first or last character. -/
def suffixOf (name : List Char) : List Char :=
  let tail := (name.reverse.takeWhile (· ≠ '.')).reverse
  if tail = [] ∨ name.length ≤ tail.length + 1 then [] else '.' :: tail

def suffix (p : Path) : String := String.ofList (suffixOf p.name.toList)

end Path
end SourceRecovery
