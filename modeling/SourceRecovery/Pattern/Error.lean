import SourceRecovery.Text.Identifier
import SourceRecovery.Text.Quoted

/-!
What can be wrong with the text of a pattern, and where.
-/
namespace SourceRecovery.Pattern

inductive Flaw where
  | danglingEscape
  | badEscape (text : String)
  | incompleteEscape (text : String)
  | octalRange (text : String)
  | missingBrace
  | unknownCharacter (name : String)
  | openGroup
  | groupInLookBehind
  | invalidReference (number : Nat)
  | unterminatedSet
  | badRange (first last : String)
  | reversedRepeat
  | nothingToRepeat
  | multipleRepeat
  | unexpectedEnd
  | missingName (what : String)
  | unterminatedName (close : Char)
  | badNameCharacter (name : String)
  | unknownName (name : String)
  | redefinedName (name : String) (number earlier : Nat)
  | badGroupNumber
  | tooManyBranches
  | unknownExtension (text : String)
  | unterminatedComment
  | unterminatedGroup
  | unbalanced
  | flagsNotAtStart
  | localeFlag
  | incompatibleFlags
  | missingFlagsEnd
  | unknownFlag
  | missingFlag
  | missingColon
  | typeFlagOff
  | globalFlagOn
  | globalFlagOff
  | flagOnAndOff
  deriving DecidableEq, Repr

def Flaw.message : Flaw → String
  | .danglingEscape => "bad escape (end of pattern)"
  | .badEscape text => "bad escape " ++ text
  | .incompleteEscape text => "incomplete escape " ++ text
  | .octalRange text => "octal escape value " ++ text ++ " outside of range 0-0o377"
  | .missingBrace => "missing \x7b"
  | .unknownCharacter name => "undefined character name " ++ Quoted.render name
  | .openGroup => "cannot refer to an open group"
  | .groupInLookBehind => "cannot refer to group defined in the same lookbehind subpattern"
  | .invalidReference number => s!"invalid group reference {number}"
  | .unterminatedSet => "unterminated character set"
  | .badRange first last => "bad character range " ++ first ++ "-" ++ last
  | .reversedRepeat => "min repeat greater than max repeat"
  | .nothingToRepeat => "nothing to repeat"
  | .multipleRepeat => "multiple repeat"
  | .unexpectedEnd => "unexpected end of pattern"
  | .missingName what => "missing " ++ what
  | .unterminatedName close => s!"missing {close}, unterminated name"
  | .badNameCharacter name => "bad character in group name " ++ Quoted.render name
  | .unknownName name => "unknown group name " ++ Quoted.render name
  | .redefinedName name number earlier =>
    "redefinition of group name " ++ Quoted.render name ++
      s!" as group {number}; was group {earlier}"
  | .badGroupNumber => "bad group number"
  | .tooManyBranches => "conditional backref with more than two branches"
  | .unknownExtension text => "unknown extension ?" ++ text
  | .unterminatedComment => "missing ), unterminated comment"
  | .unterminatedGroup => "missing ), unterminated subpattern"
  | .unbalanced => "unbalanced parenthesis"
  | .flagsNotAtStart => "global flags not at the start of the expression"
  | .localeFlag => "bad inline flags: cannot use 'L' flag with a str pattern"
  | .incompatibleFlags => "bad inline flags: flags 'a', 'u' and 'L' are incompatible"
  | .missingFlagsEnd => "missing -, : or )"
  | .unknownFlag => "unknown flag"
  | .missingFlag => "missing flag"
  | .missingColon => "missing :"
  | .typeFlagOff => "bad inline flags: cannot turn off flags 'a', 'u' and 'L'"
  | .globalFlagOn => "bad inline flags: cannot turn on global flag"
  | .globalFlagOff => "bad inline flags: cannot turn off global flag"
  | .flagOnAndOff => "bad inline flags: flag turned on and off"

/-- A flaw has a place in the pattern. Some are found only when the whole pattern was read and have
none, and some limits are no flaws. -/
inductive Error where
  | flaw (f : Flaw) (position : Nat)
  | farLookBehind
  | variableLookBehind
  /-- A repetition where flags ask for a template. -/
  | inTemplate (operator : String)
  | repetitionTooLarge
  | tooManyDigits (count : Nat)
  | contraryFlags
  deriving DecidableEq, Repr

def Error.isMalformed : Error → Bool
  | .flaw _ _ | .farLookBehind | .variableLookBehind | .inTemplate _ => true
  | .repetitionTooLarge | .tooManyDigits _ | .contraryFlags => false

/-- The message for a pattern; where it has several lines, line and column are given as well. -/
def Error.message (pattern : String) : Error → String
  | .farLookBehind => "looks too much behind"
  | .variableLookBehind => "look-behind requires fixed-width pattern"
  | .inTemplate operator => "internal: unsupported template operator " ++ operator
  | .repetitionTooLarge => "the repetition number is too large"
  | .tooManyDigits count =>
    s!"Exceeds the limit ({digitsMax} digits) for integer string conversion: " ++
      s!"value has {count} digits; use sys.set_int_max_str_digits() to increase the limit"
  | .contraryFlags => "ASCII and UNICODE flags are incompatible"
  | .flaw f position =>
    let before := pattern.toList.take position
    let line := before.count '\n' + 1
    let column := (before.reverse.takeWhile (· ≠ '\n')).length + 1
    f.message ++ s!" at position {position}" ++
      if pattern.toList.contains '\n' then s!" (line {line}, column {column})" else ""

end SourceRecovery.Pattern
