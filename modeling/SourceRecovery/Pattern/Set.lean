import SourceRecovery.Pattern.Escape

/-!
Sets of characters in brackets. A bracket that closes stands for itself in the first place, a hyphen
in the last.
-/
namespace SourceRecovery.Pattern

def memberOf : Token → Reader Member
  | .plain c => pure (.code c.toNat)
  | .escaped c => escapeInSet c

def rangeItem (first last : Member) (firstToken lastToken : Token) : Reader SetItem :=
  let refuse : Reader SetItem :=
    fail (.badRange firstToken.text lastToken.text) (firstToken.size + 1 + lastToken.size)
  match first, last with
  | .code lo, .code hi => if hi < lo then refuse else pure (.range lo hi)
  | _, _ => refuse

/-- Reads members up to the closing bracket of the set that began at `start`. -/
def setItems (start : Nat) : (fuel : Nat) → (items : List SetItem) → Reader (List SetItem)
  | 0, items => pure items
  | fuel + 1, items => do
    match ← take with
    | none => fail .unterminatedSet ((← position) - start)
    | some token =>
      if token = .plain ']' ∧ items ≠ [] then return items
      else
        let first ← memberOf token
        if ← accept '-' then
          match ← take with
          | none => fail .unterminatedSet ((← position) - start)
          | some (.plain ']') => return items ++ [first.item, .code '-'.toNat]
          | some lastToken =>
            let last ← memberOf lastToken
            setItems start fuel (items ++ [← rangeItem first last token lastToken])
        else setItems start fuel (items ++ [first.item])

def setBody (flags : Flags) : Reader Node := do
  let start := (← position) - 1
  let negated ← accept '^'
  return setNode flags negated (← setItems start ((← tokensLeft) + 1) []).eraseDups

end SourceRecovery.Pattern
