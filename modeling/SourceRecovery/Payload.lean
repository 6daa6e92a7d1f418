import SourceRecovery.Deflate.Inflate
import SourceRecovery.Text.Utf8

/-!
The blob that carries a document's source text: four bytes of declared size, zero for text stored
as it is, then the UTF-8 text or its Deflate stream.
-/
namespace SourceRecovery

inductive DecodeError where
  | tooShort (length : Nat)
  | deflate (f : Deflate.Flaw)
  | expandsPast (size : Nat)
  | truncated
  | sizeMismatch (actual declared : Nat)
  | text (e : Utf8.Malformed)
  deriving DecidableEq, Repr

def DecodeError.message : DecodeError → String
  | .tooShort length => s!"blob is {length} bytes, expected at least 4"
  | .deflate f => "invalid deflate stream: " ++ f.message
  | .expandsPast size => s!"deflate stream expands past declared size of {size} bytes"
  | .truncated => "deflate stream is truncated"
  | .sizeMismatch actual declared =>
    s!"deflate stream expands to {actual} bytes, declared {declared}"
  | .text e => "source is not valid UTF-8: " ++ e.message

/-- Inflates a stream that must expand to exactly `size` bytes. One byte more than that is enough
to see that a stream is too long. A library that takes this number as a machine word refuses sizes
of 2 ^ 63 - 1 bytes and more; that limit is left out. -/
def inflateExact (data : Bytes) (size : Nat) : Except DecodeError Bytes :=
  let inflated := Deflate.inflateUpTo (some (size + 1)) data
  match inflated.ending with
  | .flaw f => .error (.deflate f)
  | ending =>
    if size < inflated.data.length then .error (.expandsPast size)
    else if ending ≠ .finished then .error .truncated
    else if inflated.data.length ≠ size then
      .error (.sizeMismatch inflated.data.length size)
    else .ok inflated.data

structure Payload where
  declaredSize : Nat
  data : Bytes
  deriving DecidableEq, Repr

namespace Payload

def headerSize : Nat := 4

def compressed (p : Payload) : Bool := p.declaredSize != 0

def ofBlob (blob : Bytes) : Except DecodeError Payload :=
  if blob.length < headerSize then .error (.tooShort blob.length)
  else .ok ⟨Bytes.toNatLE (blob.take headerSize), blob.drop headerSize⟩

def text (p : Payload) : Except DecodeError String := do
  let raw ← if p.compressed then inflateExact p.data p.declaredSize else .ok p.data
  (Utf8.decode raw).mapError .text

end Payload

def decodeSource (blob : Bytes) : Except DecodeError String := do
  (← Payload.ofBlob blob).text

end SourceRecovery
