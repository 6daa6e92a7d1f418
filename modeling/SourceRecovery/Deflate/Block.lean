import SourceRecovery.Deflate.PrefixCode

/-!
The fields of Deflate blocks: block headers, the two prefix codes of a compressed block and the
elements those codes spell. Reading stops either because the input ends or because of a flaw.
-/
namespace SourceRecovery.Deflate

inductive Flaw where
  | blockType
  | storedLengths
  | symbolCounts
  | codeLengths
  | lengthRepeat
  | missingEndOfBlock
  | literalSet
  | distanceSet
  | literalCode
  | distanceCode
  | distanceTooFar
  deriving DecidableEq, Repr

def Flaw.message (f : Flaw) : String :=
  "Error -3 while decompressing data: " ++ match f with
  | .blockType => "invalid block type"
  | .storedLengths => "invalid stored block lengths"
  | .symbolCounts => "too many length or distance symbols"
  | .codeLengths => "invalid code lengths set"
  | .lengthRepeat => "invalid bit length repeat"
  | .missingEndOfBlock => "invalid code -- missing end-of-block"
  | .literalSet => "invalid literal/lengths set"
  | .distanceSet => "invalid distances set"
  | .literalCode => "invalid literal/length code"
  | .distanceCode => "invalid distance code"
  | .distanceTooFar => "invalid distance too far back"

inductive Stop where
  | inputEnd
  | flaw (f : Flaw)
  deriving DecidableEq, Repr

abbrev Reader := StateT BitStream (Except Stop)

/-- Makes a reader of a step that has no answer where the input ends. -/
def Reader.ofStep {α : Type} (step : BitStream → Option (α × BitStream)) : Reader α := fun s =>
  match step s with
  | some r => .ok r
  | none => .error .inputEnd

def Reader.fail {α : Type} (f : Flaw) : Reader α := fun _ => .error (.flaw f)

def bits (count : Nat) : Reader Nat := Reader.ofStep (BitStream.field? count)

def byte : Reader UInt8 := Reader.ofStep BitStream.nextByte?

def codeword (code : PrefixCode) : Reader (Option Nat) := Reader.ofStep code.read?

def Reader.align : Reader Unit := fun s => .ok ((), s.align)

structure Codes where
  literals : PrefixCode
  distances : PrefixCode
  deriving DecidableEq, Repr

def fixedLiteralLengths : List Nat :=
  List.replicate 144 8 ++ List.replicate 112 9 ++ List.replicate 24 7 ++ List.replicate 8 8

def fixedCodes : Codes :=
  { literals := (PrefixCode.grow PrefixCode.maxLength 0 (PrefixCode.codewords fixedLiteralLengths)).1
    distances := (PrefixCode.grow PrefixCode.maxLength 0
      (PrefixCode.codewords (List.replicate 32 5))).1 }

def codeLengthOrder : List Nat :=
  [16, 17, 18, 0, 8, 7, 9, 6, 10, 5, 11, 4, 12, 3, 13, 2, 14, 1, 15]

def readAll {α : Type} (item : Reader α) : (count : Nat) → Reader (List α)
  | 0 => pure []
  | count + 1 => do
    let first ← item
    let rest ← readAll item count
    return first :: rest

def codeLengthLengths (sent : List Nat) : List Nat :=
  (List.range codeLengthOrder.length).map fun symbol =>
    sent.getD (codeLengthOrder.idxOf symbol) 0

/-- One element of the list of lengths: the length to add and how often. Codewords of an empty
code stand for a zero length. -/
def lengthRun (code : PrefixCode) (last : Option Nat) : Reader (Nat × Nat) := do
  match (← codeword code).getD 0 with
  | 16 =>
    let more ← bits 2
    match last with
    | none => Reader.fail .lengthRepeat
    | some length => return (length, 3 + more)
  | 17 => return (0, 3 + (← bits 3))
  | 18 => return (0, 11 + (← bits 7))
  | length => return (length, 1)

/-- Reads runs until `wanted` further lengths are there; `done` has the last one first. -/
def lengthRuns (code : PrefixCode) : (fuel wanted : Nat) → (done : List Nat) → Reader (List Nat)
  | 0, _, done => pure done.reverse
  | fuel + 1, wanted, done =>
    if wanted = 0 then pure done.reverse
    else do
      let (length, count) ← lengthRun code done.head?
      if wanted < count then Reader.fail .lengthRepeat
      else lengthRuns code fuel (wanted - count) (List.replicate count length ++ done)

def orFail {α : Type} (f : Flaw) : Option α → Reader α
  | some a => pure a
  | none => Reader.fail f

def dynamicCodes : Reader Codes := do
  let literalCount := 257 + (← bits 5)
  let distanceCount := 1 + (← bits 5)
  let sentCount := 4 + (← bits 4)
  if 286 < literalCount ∨ 30 < distanceCount then Reader.fail .symbolCounts
  else do
    let sent ← readAll (bits 3) sentCount
    let code ← orFail .codeLengths (PrefixCode.ofLengths? false (codeLengthLengths sent))
    let total := literalCount + distanceCount
    let lengths ← lengthRuns code total total []
    if lengths.getD 256 0 = 0 then Reader.fail .missingEndOfBlock
    else do
      let literals ← orFail .literalSet (PrefixCode.ofLengths? true (lengths.take literalCount))
      let distances ← orFail .distanceSet (PrefixCode.ofLengths? true (lengths.drop literalCount))
      return { literals, distances }

inductive BlockStart where
  | stored (length : Nat)
  | coded (codes : Codes)

structure Header where
  final : Bool
  start : BlockStart

/-- The length of a stored block, sent with its complement. -/
def storedLength : Reader Nat := do
  Reader.align
  let sent ← readAll byte 4
  let length := Bytes.toNatLE (sent.take 2)
  if length + Bytes.toNatLE (sent.drop 2) = 0xFFFF then return length
  else Reader.fail .storedLengths

def header : Reader Header := do
  let final := (← bits 1) = 1
  match ← bits 2 with
  | 0 => return ⟨final, .stored (← storedLength)⟩
  | 1 => return ⟨final, .coded fixedCodes⟩
  | 2 => return ⟨final, .coded (← dynamicCodes)⟩
  | _ => Reader.fail .blockType

def lengthSymbols : List (Nat × Nat) :=
  [(3, 0), (4, 0), (5, 0), (6, 0), (7, 0), (8, 0), (9, 0), (10, 0), (11, 1), (13, 1), (15, 1),
    (17, 1), (19, 2), (23, 2), (27, 2), (31, 2), (35, 3), (43, 3), (51, 3), (59, 3), (67, 4),
    (83, 4), (99, 4), (115, 4), (131, 5), (163, 5), (195, 5), (227, 5), (258, 0)]

def distanceSymbols : List (Nat × Nat) :=
  [(1, 0), (2, 0), (3, 0), (4, 0), (5, 1), (7, 1), (9, 2), (13, 2), (17, 3), (25, 3), (33, 4),
    (49, 4), (65, 5), (97, 5), (129, 6), (193, 6), (257, 7), (385, 7), (513, 8), (769, 8),
    (1025, 9), (1537, 9), (2049, 10), (3073, 10), (4097, 11), (6145, 11), (8193, 12),
    (12289, 12), (16385, 13), (24577, 13)]

inductive Element where
  | literal (b : UInt8)
  | copy (distance length : Nat)
  | endOfBlock
  deriving DecidableEq, Repr

def copyElement (codes : Codes) (lengthSymbol : Nat × Nat) : Reader Element := do
  let length := lengthSymbol.1 + (← bits lengthSymbol.2)
  let (least, extra) ←
    orFail .distanceCode ((← codeword codes.distances).bind (distanceSymbols[·]?))
  return .copy (least + (← bits extra)) length

def element (codes : Codes) : Reader Element := do
  match ← codeword codes.literals with
  | none => Reader.fail .literalCode
  | some symbol =>
    if symbol < 256 then return .literal (UInt8.ofNat symbol)
    else if symbol = 256 then return .endOfBlock
    else do
      copyElement codes (← orFail .literalCode lengthSymbols[symbol - 257]?)

end SourceRecovery.Deflate
