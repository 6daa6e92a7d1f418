/-!
Sizes for people: bytes below a kibibyte, else kibibytes or mebibytes with one decimal, and numbers
with their digits in groups of three.
-/
namespace SourceRecovery

/-- The quotient rounded to the nearest number, a tie to the even one. -/
def roundDiv (n d : Nat) : Nat :=
  let q := n / d
  let r := n % d
  if 2 * r < d then q else if d < 2 * r then q + 1 else q + q % 2

/-- The number with all but its 53 leading binary digits rounded away. -/
def leadingBits (n : Nat) : Nat :=
  let unit := 1 <<< (n.log2 + 1 - 53)
  roundDiv n unit * unit

def oneDecimal (n d : Nat) : String :=
  let tenths := roundDiv (10 * n) d
  s!"{tenths / 10}.{tenths % 10}"

def kibibyte : Nat := 1024

def mebibyte : Nat := 1024 * 1024

def humanSize (size : Nat) : String :=
  if size < kibibyte then s!"{size} B"
  else if size < mebibyte then oneDecimal (leadingBits size) kibibyte ++ " KB"
  else oneDecimal (leadingBits size) mebibyte ++ " MB"

/-- Puts a comma before every third digit; the last digit comes first. -/
def groupDigits : List Char → List Char
  | a :: b :: c :: d :: rest => a :: b :: c :: ',' :: groupDigits (d :: rest)
  | digits => digits

def grouped (n : Nat) : String := String.ofList (groupDigits (toString n).toList.reverse).reverse

end SourceRecovery
