import SourceRecovery.Deck.Stats

/-!
Messages from a run to the deck, and what the outcomes of an extraction turn into.
-/
namespace SourceRecovery.Deck

inductive Message where
  | stats (s : Stats)
  | log (text : String)
  | source (document : String) (ok : Bool) (size : Nat)
  deriving DecidableEq, Repr

structure Row where
  document : String
  result : String
  size : String
  deriving DecidableEq, Repr

def rowOf (document : String) (ok : Bool) (size : Nat) : Row :=
  if ok then ⟨document, styled "green" "ok", toString size⟩
  else ⟨document, styled "red" "failed", ""⟩

def Message.row? : Message → Option Row
  | .source document ok size => some (rowOf document ok size)
  | _ => none

def Stats.record (s : Stats) (o : Outcome) : Stats :=
  let s := { s with summary := s.summary.record o }
  match o with
  | .opened c => { s with documents := s.documents + c.documents }
  | _ => s

def outcomeMessages (o : Outcome) : List Message :=
  match o with
  | .opened _ => [.log o.describe]
  | .written f => [.source f.document true f.size]
  | .extractionIssue i => [.source i.document false 0, .log (styled "red" o.describe)]
  | .writeIssue i => [.source i.path false 0, .log (styled "red" o.describe)]
  | .containerIssue _ => [.log (styled "red" o.describe)]
  | .skipped _ => [.log (styled "dim" o.describe)]

end SourceRecovery.Deck
