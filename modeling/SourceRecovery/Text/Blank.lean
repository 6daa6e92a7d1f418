/-!
Sets of characters given by ascending ranges of code points, both ends included, and the first such
set: the blank characters, controls and separators of Unicode that stand between words.
-/
namespace SourceRecovery

/-- Whether `n` lies in one of the ranges. They ascend, so the first that begins beyond `n` ends the
search. -/
def inRanges (n : Nat) : List (Nat × Nat) → Bool
  | [] => false
  | (first, last) :: rest =>
    if n < first then false else if n ≤ last then true else inRanges n rest

def blankRanges : List (Nat × Nat) :=
  [(0x09, 0x0D), (0x1C, 0x20), (0x85, 0x85), (0xA0, 0xA0), (0x1680, 0x1680), (0x2000, 0x200A),
    (0x2028, 0x2029), (0x202F, 0x202F), (0x205F, 0x205F), (0x3000, 0x3000)]

def isBlank (c : Char) : Bool := inRanges c.toNat blankRanges

/-- What is left of a text without the characters of one kind at its ends. -/
def trim (p : Char → Bool) (text : List Char) : List Char :=
  ((text.dropWhile p).reverse.dropWhile p).reverse

def strip (text : String) : String := String.ofList (trim isBlank text.toList)

end SourceRecovery
