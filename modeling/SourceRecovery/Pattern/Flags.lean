import SourceRecovery.Pattern.Reader

/-!
Flags inside a pattern: letters to turn on, then after a hyphen letters to turn off.
-/
namespace SourceRecovery.Pattern

def flagLetters : List Char := ['i', 'L', 'm', 's', 'x', 'a', 't', 'u']

def typeFlags : List Char := ['a', 'u', 'L']

def globalFlag : Char := 't'

/-- The flags in force once some are turned on and others off. -/
def combineFlags (flags on off : Flags) : Flags :=
  let kept := if on.any typeFlags.contains then flags.filter (!typeFlags.contains ·) else flags
  (kept ++ on).filter (!off.contains ·)

inductive FlagGroup where
  /-- Flags for the whole pattern. -/
  | whole (on : Flags)
  | scoped (on off : Flags)
  deriving DecidableEq, Repr

def flagsOn : (fuel : Nat) → (letter : Char) → (on : Flags) → Reader (Flags × Char)
  | 0, _, _ => fail .missingFlagsEnd 0
  | fuel + 1, letter, on => do
    if letter = 'L' then fail .localeFlag 0
    else if typeFlags.contains letter ∧ on.any fun c => typeFlags.contains c && c != letter then
      fail .incompatibleFlags 0
    else
      match ← take with
      | none => fail .missingFlagsEnd 0
      | some (.plain c) =>
        if c = ')' ∨ c = '-' ∨ c = ':' then return (letter :: on, c)
        else if flagLetters.contains c then flagsOn fuel c (letter :: on)
        else fail (if isLetter c then .unknownFlag else .missingFlagsEnd) 1
      | some token => fail .missingFlagsEnd token.size

def flagsOff : (fuel : Nat) → (letter : Char) → (off : Flags) → Reader Flags
  | 0, _, _ => fail .missingColon 0
  | fuel + 1, letter, off => do
    if typeFlags.contains letter then fail .typeFlagOff 0
    else
      match ← take with
      | none => fail .missingColon 0
      | some (.plain c) =>
        if c = ':' then return letter :: off
        else if flagLetters.contains c then flagsOff fuel c (letter :: off)
        else fail (if isLetter c then .unknownFlag else .missingColon) 1
      | some token => fail .missingColon token.size

def scopedFlags (on off : Flags) : Reader FlagGroup :=
  if off.contains globalFlag then fail .globalFlagOff 1
  else if on.any off.contains then fail .flagOnAndOff 1
  else pure (.scoped on off)

def offGroup (on : Flags) : Reader FlagGroup := do
  match ← take with
  | none => fail .missingFlag 0
  | some (.plain c) =>
    if flagLetters.contains c then scopedFlags on (← flagsOff ((← tokensLeft) + 1) c [])
    else fail (if isLetter c then .unknownFlag else .missingFlag) 1
  | some token => fail .missingFlag token.size

def flagGroup (first : Char) : Reader FlagGroup := do
  if first = '-' then offGroup []
  else
    let (on, last) ← flagsOn ((← tokensLeft) + 1) first []
    if last = ')' then return .whole on
    else if on.contains globalFlag then fail .globalFlagOn 1
    else if last = '-' then offGroup on
    else scopedFlags on []

end SourceRecovery.Pattern
