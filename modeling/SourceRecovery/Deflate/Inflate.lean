import SourceRecovery.Deflate.Block

/-!
Inflation of a raw Deflate stream, with or without a limit on the output. Under a limit reading
goes on until a byte beyond it would have to be written, so what lies between the last byte that
fits and the next one is still seen.
-/
namespace SourceRecovery.Deflate

inductive Phase where
  | blockStart
  | stored (final : Bool) (left : Nat)
  | coded (final : Bool) (codes : Codes)

inductive Write where
  | nothing
  | byte (b : UInt8)
  | copy (distance length : Nat)
  deriving DecidableEq, Repr

/-- What one read asks to be written, and the phase that follows unless the stream is complete. -/
structure Move where
  write : Write
  next : Option Phase

def afterBlock (final : Bool) : Option Phase := if final then none else some .blockStart

def move : Phase → Reader Move
  | .blockStart => do
    let ⟨final, start⟩ ← header
    match start with
    | .stored 0 => return ⟨.nothing, afterBlock final⟩
    | .stored length => return ⟨.nothing, some (.stored final length)⟩
    | .coded codes => return ⟨.nothing, some (.coded final codes)⟩
  | .stored final left => do
    let b ← byte
    return ⟨.byte b, if left ≤ 1 then afterBlock final else some (.stored final (left - 1))⟩
  | .coded final codes => do
    match ← element codes with
    | .literal b => return ⟨.byte b, some (.coded final codes)⟩
    | .copy distance length => return ⟨.copy distance length, some (.coded final codes)⟩
    | .endOfBlock => return ⟨.nothing, afterBlock final⟩

def hasRoom : (limit : Option Nat) → (size : Nat) → Bool
  | none, _ => true
  | some limit, size => size < limit

inductive Ending where
  | finished
  | inputEnd
  | limitReached
  | flaw (f : Flaw)
  deriving DecidableEq, Repr

/-- Output so far, and why no more of it is written if there is a reason. -/
structure Written where
  out : Array UInt8
  stop : Option Ending

def copyBack (limit : Option Nat) (distance : Nat) : (length : Nat) → Array UInt8 → Written
  | 0, out => ⟨out, none⟩
  | length + 1, out =>
    if hasRoom limit out.size then
      copyBack limit distance length (out.push (out.getD (out.size - distance) 0))
    else ⟨out, some .limitReached⟩

/-- Writes what a move asks for. How far back a copy reaches matters only if there is room for its
first byte. -/
def Write.apply (limit : Option Nat) (out : Array UInt8) : Write → Written
  | .nothing => ⟨out, none⟩
  | .byte b => if hasRoom limit out.size then ⟨out.push b, none⟩ else ⟨out, some .limitReached⟩
  | .copy distance length =>
    if hasRoom limit out.size && out.size < distance then ⟨out, some (.flaw .distanceTooFar)⟩
    else copyBack limit distance length out

structure Inflated where
  data : Bytes
  ending : Ending
  deriving DecidableEq, Repr

/-- Moves until the stream, the input or the room ends. Every move reads a bit at least, so `fuel`
above the number of bits is never used up. -/
def run (limit : Option Nat) : (fuel : Nat) → Phase → Array UInt8 → BitStream → Inflated
  | 0, _, out, _ => ⟨out.toList, .inputEnd⟩
  | fuel + 1, phase, out, input =>
    match (move phase).run input with
    | .error .inputEnd => ⟨out.toList, .inputEnd⟩
    | .error (.flaw f) => ⟨out.toList, .flaw f⟩
    | .ok (⟨write, next⟩, input) =>
      match write.apply limit out with
      | ⟨out, some ending⟩ => ⟨out.toList, ending⟩
      | ⟨out, none⟩ =>
        match next with
        | none => ⟨out.toList, .finished⟩
        | some phase => run limit fuel phase out input

/-- Inflates until the stream ends or `limit` bytes are written and another is due. -/
def inflateUpTo (limit : Option Nat) (data : Bytes) : Inflated :=
  run limit (8 * data.length + 1) .blockStart #[] (BitStream.ofBytes data)

def inflate (data : Bytes) : Inflated := inflateUpTo none data

end SourceRecovery.Deflate
