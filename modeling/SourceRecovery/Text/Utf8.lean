import SourceRecovery.Bytes

/-!
UTF-8. A byte string is cut into characters and maximal ill-formed pieces; strict decoding refuses
the first such piece, lenient decoding puts U+FFFD in the place of each.
-/
namespace SourceRecovery.Utf8

inductive Flaw where
  | invalidStart
  | invalidContinuation
  | unexpectedEnd
  deriving DecidableEq, Repr

def Flaw.message : Flaw → String
  | .invalidStart => "invalid start byte"
  | .invalidContinuation => "invalid continuation byte"
  | .unexpectedEnd => "unexpected end of data"

/-- A piece of a byte string: one character, or the longest beginning of a sequence that no
character has. -/
inductive Piece where
  | char (c : Char)
  | bad (bytes : Bytes) (flaw : Flaw)
  deriving DecidableEq, Repr

def Piece.size : Piece → Nat
  | .char c => c.utf8Size
  | .bad bytes _ => bytes.length

/-- What a lead byte promises: how many bytes follow it and the range of the first of them. The
range leaves out overlong forms, surrogates and values above U+10FFFF. -/
inductive Lead where
  | alone
  | follow (count : Nat) (low high : UInt8)
  | invalid
  deriving DecidableEq, Repr

def lead (b : UInt8) : Lead :=
  if b < 0x80 then .alone
  else if b < 0xC2 then .invalid
  else if b < 0xE0 then .follow 1 0x80 0xBF
  else if b = 0xE0 then .follow 2 0xA0 0xBF
  else if b = 0xED then .follow 2 0x80 0x9F
  else if b < 0xF0 then .follow 2 0x80 0xBF
  else if b = 0xF0 then .follow 3 0x90 0xBF
  else if b < 0xF4 then .follow 3 0x80 0xBF
  else if b = 0xF4 then .follow 3 0x80 0x8F
  else .invalid

def payload (b : UInt8) : Nat := (b &&& 0x3F).toNat

def leadPayload (count : Nat) (b : UInt8) : Nat := b.toNat % (64 >>> count)

/-- Reads on in a sequence that still owes `owed` bytes, the next within `low` and `high`. -/
def sequel (start : Bytes) (value : Nat) : (owed : Nat) → (low high : UInt8) → Bytes → Piece × Bytes
  | 0, _, _, rest => (.char (Char.ofNat value), rest)
  | _ + 1, _, _, [] => (.bad start .unexpectedEnd, [])
  | owed + 1, low, high, b :: rest =>
    if low ≤ b ∧ b ≤ high then
      sequel (start ++ [b]) (value * 64 + payload b) owed 0x80 0xBF rest
    else (.bad start .invalidContinuation, b :: rest)

def next (b : UInt8) (rest : Bytes) : Piece × Bytes :=
  match lead b with
  | .alone => (.char (Char.ofNat b.toNat), rest)
  | .follow count low high => sequel [b] (leadPayload count b) count low high rest
  | .invalid => (.bad [b] .invalidStart, rest)

theorem sequel_length (start : Bytes) (value owed : Nat) (low high : UInt8) (data : Bytes) :
    (sequel start value owed low high data).2.length ≤ data.length := by
  induction data generalizing start value owed low high with
  | nil => cases owed <;> simp [sequel]
  | cons b rest ih =>
    cases owed with
    | zero => simp [sequel]
    | succ owed =>
      rw [sequel]
      split
      · exact Nat.le_succ_of_le (ih ..)
      · exact Nat.le_refl _

theorem next_length (b : UInt8) (rest : Bytes) : (next b rest).2.length ≤ rest.length := by
  unfold next
  split
  · exact Nat.le_refl _
  · exact sequel_length ..
  · exact Nat.le_refl _

def cut (done : Array Piece) : Bytes → Array Piece
  | [] => done
  | b :: rest => cut (done.push (next b rest).1) (next b rest).2
termination_by data => data.length
decreasing_by exact Nat.lt_succ_of_le (next_length b rest)

def pieces (data : Bytes) : List Piece := (cut #[] data).toList

structure Malformed where
  position : Nat
  bytes : Bytes
  flaw : Flaw
  deriving DecidableEq, Repr

def hexByte (b : UInt8) : String :=
  String.ofList [Nat.digitChar (b.toNat / 16), Nat.digitChar (b.toNat % 16)]

/-- A single byte is shown; of several only the range of their positions is given. -/
def Malformed.message (e : Malformed) : String :=
  match e.bytes with
  | [b] => s!"'utf-8' codec can't decode byte 0x{hexByte b} in position {e.position}: " ++
      e.flaw.message
  | bytes => s!"'utf-8' codec can't decode bytes in position {e.position}-" ++
      s!"{e.position + bytes.length - 1}: " ++ e.flaw.message

/-- Joins pieces into text, up to the first ill-formed one. -/
def join (text : List Char) (position : Nat) : List Piece → Except Malformed String
  | [] => .ok (String.ofList text.reverse)
  | .char c :: rest => join (c :: text) (position + c.utf8Size) rest
  | .bad bytes flaw :: _ => .error ⟨position, bytes, flaw⟩

def decode (data : Bytes) : Except Malformed String := join [] 0 (pieces data)

def Piece.shown : Piece → Char
  | .char c => c
  | .bad _ _ => '\uFFFD'

def decodeLenient (data : Bytes) : String := String.ofList ((pieces data).map Piece.shown)

def encode (text : String) : Bytes := text.toList.flatMap String.utf8EncodeChar

def size (text : String) : Nat := (encode text).length

end SourceRecovery.Utf8

namespace SourceRecovery.Ascii

/-- Each byte below 0x80 is its character and every other byte U+FFFD. -/
def decodeLenient (data : Bytes) : String :=
  String.ofList (data.map fun b => if b < 0x80 then Char.ofNat b.toNat else '\uFFFD')

end SourceRecovery.Ascii
