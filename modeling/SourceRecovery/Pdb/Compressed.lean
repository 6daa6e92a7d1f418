import SourceRecovery.Bytes
import SourceRecovery.Text.Layout

/-!
Compressed unsigned integers: the leading bits of the first byte tell whether one, two or four
bytes hold the value, the most significant first.
-/
namespace SourceRecovery.Pdb.Compressed

inductive Error where
  | outOfRange (offset : Nat)
  | truncated (offset : Nat)
  | leadByte (b : UInt8)
  deriving DecidableEq, Repr

def Error.message : Error → String
  | .outOfRange offset => s!"compressed integer out of range at offset {offset}"
  | .truncated offset => s!"truncated compressed integer at offset {offset}"
  | .leadByte b => "invalid compressed integer lead byte 0x" ++ hexPadded 2 b.toNat

def bound : Nat := 0x20000000

def read (data : Bytes) (offset : Nat) : Except Error (Nat × Nat) :=
  match data.drop offset with
  | [] => .error (.outOfRange offset)
  | a :: rest =>
    if a < 0x80 then .ok (a.toNat, offset + 1)
    else if a < 0xC0 then
      match rest with
      | b :: _ => .ok (a.toNat % 64 * 0x100 + b.toNat, offset + 2)
      | _ => .error (.truncated offset)
    else if a < 0xE0 then
      match rest with
      | b :: c :: d :: _ =>
        .ok (a.toNat % 32 * 0x1000000 + b.toNat * 0x10000 + c.toNat * 0x100 + d.toNat, offset + 4)
      | _ => .error (.truncated offset)
    else .error (.leadByte a)

/-- The shortest form of a value below `bound`. -/
def encode (value : Nat) : Bytes :=
  if value < 0x80 then [UInt8.ofNat value]
  else if value < 0x4000 then Bytes.ofNatBE 2 (0x8000 + value)
  else Bytes.ofNatBE 4 (0xC0000000 + value)

end SourceRecovery.Pdb.Compressed
