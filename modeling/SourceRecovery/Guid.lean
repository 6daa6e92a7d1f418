import SourceRecovery.Bytes
import SourceRecovery.Text.Layout

/-!
Globally unique identifiers. Their text shows all digits from the most significant on, while the
first three fields are stored with the least significant byte first.
-/
namespace SourceRecovery

structure Guid where
  data1 : UInt32
  data2 : UInt16
  data3 : UInt16
  data4 : UInt64
  deriving DecidableEq, Repr

namespace Guid

def nil : Guid := ⟨0, 0, 0, 0⟩

def ofBytes (data : Bytes) : Guid where
  data1 := UInt32.ofNat (Bytes.toNatLE (data.slice 0 4))
  data2 := UInt16.ofNat (Bytes.toNatLE (data.slice 4 2))
  data3 := UInt16.ofNat (Bytes.toNatLE (data.slice 6 2))
  data4 := UInt64.ofNat (Bytes.toNatBE (data.slice 8 8))

def toBytes (g : Guid) : Bytes :=
  Bytes.ofNatLE 4 g.data1.toNat ++ Bytes.ofNatLE 2 g.data2.toNat ++ Bytes.ofNatLE 2 g.data3.toNat ++
    Bytes.ofNatBE 8 g.data4.toNat

def ofNat (n : Nat) : Guid where
  data1 := UInt32.ofNat (n >>> 96)
  data2 := UInt16.ofNat (n >>> 80)
  data3 := UInt16.ofNat (n >>> 64)
  data4 := UInt64.ofNat n

def render (g : Guid) : String :=
  "-".intercalate [hexPadded 8 g.data1.toNat, hexPadded 4 g.data2.toNat, hexPadded 4 g.data3.toNat,
    hexPadded 4 (g.data4.toNat / 0x1000000000000),
    hexPadded 12 (g.data4.toNat % 0x1000000000000)]

end Guid
end SourceRecovery
