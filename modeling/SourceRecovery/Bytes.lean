/-!
Byte strings and the little-endian fields inside them. A read that would leave the string fails
with the extent it asked for, so a caller can name the field that was cut.
-/
namespace SourceRecovery

abbrev Bytes := List UInt8

/-- The zero from which sums of sizes start, the same one whatever else is imported. -/
instance (priority := 2000) zeroSize : Zero Nat := ⟨0⟩

structure Overrun where
  size : Nat
  offset : Nat
  length : Nat
  deriving DecidableEq, Repr

def Overrun.message (e : Overrun) : String :=
  s!"unpack_from requires a buffer of at least {e.offset + e.size} bytes for unpacking " ++
    s!"{e.size} bytes at offset {e.offset} (actual buffer size is {e.length})"

namespace Bytes

/-- The `size` bytes from `offset` on, fewer where the string ends first. -/
def slice (data : Bytes) (offset size : Nat) : Bytes := (data.drop offset).take size

def field (data : Bytes) (offset size : Nat) : Except Overrun Bytes :=
  if offset + size ≤ data.length then .ok (data.slice offset size)
  else .error ⟨size, offset, data.length⟩

/-- The value whose least significant byte comes first. -/
def toNatLE : Bytes → Nat
  | [] => 0
  | b :: rest => b.toNat + 256 * toNatLE rest

/-- The `width` low bytes of a number, the least significant first. -/
def ofNatLE : (width : Nat) → Nat → Bytes
  | 0, _ => []
  | width + 1, n => UInt8.ofNat n :: ofNatLE width (n / 256)

/-- The value whose most significant byte comes first. -/
def toNatBE (data : Bytes) : Nat := data.foldl (fun n b => n * 256 + b.toNat) 0

def ofNatBE (width n : Nat) : Bytes := (ofNatLE width n).reverse

def uintAt (data : Bytes) (width offset : Nat) : Except Overrun Nat :=
  (data.field offset width).map toNatLE

def untilZero (data : Bytes) : Bytes := data.takeWhile (· != 0)

def trimZeros (data : Bytes) : Bytes := (data.reverse.dropWhile (· == 0)).reverse

/-- `data` filled up with zero bytes to a multiple of `unit`. -/
def padTo (unit : Nat) (data : Bytes) : Bytes :=
  data ++ List.replicate ((unit - data.length % unit) % unit) 0

end Bytes
end SourceRecovery
