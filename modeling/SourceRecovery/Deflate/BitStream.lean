import SourceRecovery.Bytes

/-!
A byte string read bit by bit, the least significant bit of each byte first. Aligning gives up the
rest of the byte being read.
-/
namespace SourceRecovery.Deflate

structure BitStream where
  pending : List Bool
  bytes : Bytes
  deriving DecidableEq, Repr

def bitsOf (b : UInt8) : List Bool :=
  [b &&& 1 != 0, b &&& 2 != 0, b &&& 4 != 0, b &&& 8 != 0,
    b &&& 16 != 0, b &&& 32 != 0, b &&& 64 != 0, b &&& 128 != 0]

namespace BitStream

def ofBytes (data : Bytes) : BitStream := ⟨[], data⟩

def toList (s : BitStream) : List Bool := s.pending ++ s.bytes.flatMap bitsOf

def next? : BitStream → Option (Bool × BitStream)
  | ⟨bit :: pending, bytes⟩ => some (bit, ⟨pending, bytes⟩)
  | ⟨[], b :: bytes⟩ => some (b &&& 1 != 0, ⟨(bitsOf b).tail, bytes⟩)
  | ⟨[], []⟩ => none

/-- Number of `count` bits, the least significant first. -/
def field? : (count : Nat) → BitStream → Option (Nat × BitStream)
  | 0, s => some (0, s)
  | count + 1, s => do
    let (bit, s) ← s.next?
    let (high, s) ← field? count s
    return (bit.toNat + 2 * high, s)

def align (s : BitStream) : BitStream := ⟨[], s.bytes⟩

def nextByte? (s : BitStream) : Option (UInt8 × BitStream) :=
  match s.bytes with
  | [] => none
  | b :: bytes => some (b, ⟨[], bytes⟩)

end BitStream
end SourceRecovery.Deflate
