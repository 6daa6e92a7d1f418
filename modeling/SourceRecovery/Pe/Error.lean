import SourceRecovery.Payload
import SourceRecovery.Text.Layout

/-!
What can be wrong with an executable image. Headers and the debug directory are read before any
entry is; what is wrong with one entry leaves the others readable.
-/
namespace SourceRecovery.Pe

inductive FormatError where
  | truncated (e : Overrun)
  | missingDosHeader
  | missingPeHeader
  | unknownMagic (magic : Nat)
  | directoryUnmapped (address : Nat)
  | directoryPastEnd
  deriving DecidableEq, Repr

def FormatError.message : FormatError → String
  | .truncated e => "truncated PE headers: " ++ e.message
  | .missingDosHeader => "missing DOS header signature"
  | .missingPeHeader => "missing PE signature"
  | .unknownMagic magic => "unknown optional header magic 0x" ++ hex magic
  | .directoryUnmapped address =>
    "debug directory RVA 0x" ++ hex address ++ " is not mapped by any section"
  | .directoryPastEnd => "debug directory extends past end of image"

inductive EntryFlaw where
  | outOfRange
  | missingSignature
  | payload (e : DecodeError)
  deriving DecidableEq, Repr

structure EntryError where
  index : Nat
  flaw : EntryFlaw
  deriving DecidableEq, Repr

def EntryError.message (e : EntryError) : String :=
  match e.flaw with
  | .outOfRange => s!"debug entry {e.index} data is out of range"
  | .missingSignature => s!"debug entry {e.index} has no MPDB signature"
  | .payload cause => s!"debug entry {e.index}: " ++ cause.message

end SourceRecovery.Pe
