import SourceRecovery.Deflate.BitStream

/-!
Prefix codes as binary trees. A code is given by the length of each symbol's codeword: shorter
codewords come first, codewords of one length in the order of their symbols.
-/
namespace SourceRecovery.Deflate

inductive PrefixCode where
  | gap
  | symbol (n : Nat)
  | fork (zero one : PrefixCode)
  deriving DecidableEq, Repr

namespace PrefixCode

/-- Reads one codeword; `some none` is a codeword that stands for no symbol. -/
def read? : PrefixCode → BitStream → Option (Option Nat × BitStream)
  | .gap, s => some (none, s)
  | .symbol n, s => some (some n, s)
  | .fork zero one, s =>
    match s.next? with
    | none => none
    | some (false, s) => zero.read? s
    | some (true, s) => one.read? s

def maxLength : Nat := 15

/-- The symbols that have a codeword, with its length, in the order of their codewords. -/
def codewords (lengths : List Nat) : List (Nat × Nat) :=
  (List.range' 1 maxLength).flatMap fun length =>
    lengths.zipIdx.filterMap fun (l, n) => if l = length then some (length, n) else none

/-- Hangs codewords below a node at `depth`, from left to right, and returns those that found no
room. -/
def grow : (levels depth : Nat) → List (Nat × Nat) → PrefixCode × List (Nat × Nat)
  | _, _, [] => (.gap, [])
  | 0, _, (_, n) :: rest => (.symbol n, rest)
  | levels + 1, depth, (length, n) :: rest =>
    if length = depth then (.symbol n, rest)
    else
      let (zero, rest) := grow levels (depth + 1) ((length, n) :: rest)
      let (one, rest) := grow levels (depth + 1) rest
      (.fork zero one, rest)

/-- The part of the code space that codewords of these lengths take, in units of the smallest. -/
def occupied (words : List (Nat × Nat)) : Nat :=
  (words.map fun (length, _) => 1 <<< (maxLength - length)).sum

/-- The code of the given lengths. Codewords must fill the code space exactly; a set without
codewords passes, as does a single codeword of one bit where `allowSingle` says so. -/
def ofLengths? (allowSingle : Bool) (lengths : List Nat) : Option PrefixCode :=
  match codewords lengths with
  | [] => some (.fork .gap .gap)
  | words =>
    if occupied words = 1 <<< maxLength ∨ (allowSingle ∧ words.map Prod.fst = [1]) then
      some (grow maxLength 0 words).1
    else none

end PrefixCode
end SourceRecovery.Deflate
