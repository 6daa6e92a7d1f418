import SourceRecovery.Command.Run
import SourceRecovery.Deck.Run
import SourceRecovery.Proofs.PathLookup

/-! What one input adds to the progress of a front-end: the extracting command, the listing command
and the deck each go through its outcomes or events and report them. -/
namespace SourceRecovery

namespace Discovery

variable {σ : Type} {v : Visitor σ} {q : Query} {s : σ}

theorem visitInputs_of_file (h : (v.disk s).isFile q.source = .ok true) :
    visitInputs v q s = v.visit s q.source := by
  rw [visitInputs, h]

end Discovery

open Pipeline (Extraction)

def outcomesOf (extractions : List Extraction) : List Outcome :=
  extractions.flatMap fun extraction => extraction.outcomes.items

/-- What a front-end has told of the inputs so far: how many there were, the counts of their
outcomes and its lines. -/
structure Account (γ : Type) where
  inputs : Nat
  summary : Summary
  lines : List γ

namespace Account

variable {γ : Type} {linesOf : Extraction → List γ}

def add (linesOf : Extraction → List γ) (a : Account γ) (x : Extraction) : Account γ :=
  ⟨a.inputs + 1, x.outcomes.items.foldl Summary.record a.summary, a.lines ++ linesOf x⟩

theorem foldl_add (a : Account γ) (extractions : List Extraction) :
    extractions.foldl (add linesOf) a =
      ⟨a.inputs + extractions.length, (outcomesOf extractions).foldl Summary.record a.summary,
        a.lines ++ extractions.flatMap linesOf⟩ := by
  induction extractions generalizing a with
  | nil => simp [outcomesOf]
  | cons x rest ih =>
    rw [List.foldl_cons, ih]
    simp [add, outcomesOf, Nat.add_assoc, Nat.add_comm 1]

end Account

theorem Summary.foldl_record_inputs (outcomes : List Outcome) (s : Summary) (n : Nat) :
    outcomes.foldl Summary.record { s with inputs := n } =
      { outcomes.foldl Summary.record s with inputs := n } := by
  induction outcomes generalizing s with
  | nil => rfl
  | cons o rest ih =>
    have hone : Summary.record { s with inputs := n } o = { s.record o with inputs := n } := by
      cases o <;> rfl
    rw [List.foldl_cons, hone, ih, List.foldl_cons]

namespace Command

variable (sources : List Pipeline.Source) (options : Output.Options) (s : Progress) (p : Path)

theorem foldl_recordOutcome (outcomes : List Outcome) :
    outcomes.foldl recordOutcome s =
      { s with
        summary := outcomes.foldl Summary.record s.summary
        log := s.log ++ outcomes.map outcomeLine } := by
  induction outcomes generalizing s with
  | nil => simp
  | cons o rest ih => simp [ih, recordOutcome, Progress.addLog]

theorem extractInput_eq :
    let extraction := Pipeline.extractFile sources options s.disk p
    let counted := { s.summary with inputs := s.summary.inputs + 1 }
    extractInput sources options s p =
      ({ s with
          disk := extraction.disk
          summary := extraction.outcomes.items.foldl Summary.record counted
          log := s.log ++ (noteLines extraction.note ++
            extraction.outcomes.items.map outcomeLine) },
        extraction.outcomes.fault) := by
  simp only [extractInput, foldl_recordOutcome, countInput, Progress.addLog, List.append_assoc]

def inputLines (x : Extraction) : List LogLine :=
  noteLines x.note ++ x.outcomes.items.map outcomeLine

def account (s : Progress) : Account LogLine :=
  ⟨s.summary.inputs, { s.summary with inputs := 0 }, s.log⟩

theorem summary_of_account {s : Progress} {n : Nat} {counts : Summary} {lines : List LogLine}
    (h : account s = ⟨n, counts, lines⟩) : s.summary = { counts with inputs := n } := by
  obtain ⟨hinputs, hcounts, _⟩ := Account.mk.inj h
  rw [← hcounts, ← hinputs]

theorem extractInput_account :
    account (extractInput sources options s p).1 =
      (account s).add inputLines (Pipeline.extractFile sources options s.disk p) := by
  rw [extractInput_eq]
  simp only [account, Account.add, inputLines, Summary.foldl_record_inputs]

def printedLines : Event → List String
  | .opened o => [s!"{o.source} ({o.documents} documents)"]
  | .file f => [documentRow f]
  | .extractionIssue _ | .containerIssue _ | .skipped _ => []

def loggedLines : Event → List LogLine
  | .opened _ | .file _ => []
  | .extractionIssue i => [outcomeLine (.extractionIssue i)]
  | .containerIssue i => [outcomeLine (.containerIssue i)]
  | .skipped i => [outcomeLine (.skipped i)]

theorem foldl_showEvent (events : List Event) :
    events.foldl showEvent s =
      { s with
        printed := s.printed ++ events.flatMap printedLines
        log := s.log ++ events.flatMap loggedLines } := by
  induction events generalizing s with
  | nil => simp
  | cons event rest ih =>
    rw [List.foldl_cons, ih]
    cases event <;> simp [showEvent, printedLines, loggedLines, Progress.print, Progress.addLog]

theorem listInput_eq :
    let reading := Pipeline.read sources s.disk p
    listInput sources s p =
      ({ s with
          printed := s.printed ++ reading.events.items.flatMap printedLines
          log := s.log ++ (noteLines reading.note ++ reading.events.items.flatMap loggedLines) },
        reading.events.fault) := by
  simp only [listInput, foldl_showEvent, Progress.addLog, List.append_assoc]

theorem requireInput_of_file {source : String}
    (h : s.disk.isFile (Path.ofString source) = .ok true)
    (begin : Progress → Progress × Option Fault) :
    requireInput source s begin = endingOf (begin s) := by
  obtain ⟨location, content, hstat⟩ := Disk.isFile_eq_true_iff.mp h
  have hthere : s.disk.exists? (Path.ofString source) = .ok true := by
    rw [Disk.exists?, hstat]
    rfl
  rw [requireInput, hthere]

theorem endingOf_fst (s : Progress) (fault : Option Fault) : (endingOf (s, fault)).1 = s := by
  cases fault <;> rfl

theorem endingOf_snd (s s' : Progress) (fault : Option Fault) :
    (endingOf (s, fault)).2 = (endingOf (s', fault)).2 := by
  cases fault <;> rfl

variable {s} {selection : Selection}

theorem perform_list_of_file (h : s.disk.isFile (Path.ofString selection.source) = .ok true) :
    Request.perform sources s (.list selection) =
      endingOf (listInput sources s (Path.ofString selection.source)) := by
  have hvisit : listAll sources selection.query s =
      listInput sources s (Path.ofString selection.source) := Discovery.visitInputs_of_file h
  rw [Request.perform, requireInput_of_file s h, hvisit]

theorem perform_extract_of_file (output : String) (contain : Bool)
    (h : s.disk.isFile (Path.ofString selection.source) = .ok true) :
    let visited := extractInput sources ⟨Path.ofString output, contain⟩ s
      (Path.ofString selection.source)
    let extracted := Request.perform sources s (.extract selection output contain)
    extracted.2 = (endingOf visited).2 ∧ extracted.1.disk = visited.1.disk ∧
      visited.1.log <+: extracted.1.log := by
  intro visited extracted
  have hvisit : Discovery.visitInputs
      ⟨Progress.disk, extractInput sources ⟨Path.ofString output, contain⟩⟩ selection.query s =
        visited := Discovery.visitInputs_of_file h
  have hextracted : extracted = _ := requireInput_of_file s h _
  rw [extractAll, hvisit] at hextracted
  clear_value visited extracted
  obtain ⟨after, fault⟩ := visited
  subst hextracted
  cases fault with
  | some fault => exact ⟨rfl, rfl, List.prefix_refl _⟩
  | none =>
    refine ⟨rfl, rfl, ?_⟩
    exact (List.prefix_append _ _).trans (List.prefix_append _ _)

end Command

namespace Deck

def Message.isCount : Message → Bool
  | .stats _ => true
  | _ => false

def told (messages : List Message) : List Message := messages.filter fun m => !m.isCount

def account (s : Progress) : Account Message :=
  ⟨s.stats.processed, s.stats.summary, told s.messages⟩

variable (sources : List Pipeline.Source) (options : Output.Options) (s : Progress) (p : Path)

theorem told_append (front rest : List Message) : told (front ++ rest) = told front ++ told rest :=
  List.filter_append front rest

theorem told_outcomeMessages (o : Outcome) : told (outcomeMessages o) = outcomeMessages o := by
  cases o <;> rfl

theorem report_account (o : Outcome) :
    (s.report o).disk = s.disk ∧ (s.report o).stats.discovered = s.stats.discovered ∧
      account (s.report o) = ⟨s.stats.processed, s.stats.summary.record o,
        told s.messages ++ outcomeMessages o⟩ := by
  have htold : told (s.report o).messages = told s.messages ++ outcomeMessages o := by
    have hcount : told [.stats (s.stats.record o)] = [] := rfl
    have hmessages : (s.report o).messages =
        s.messages ++ outcomeMessages o ++ [.stats (s.stats.record o)] := rfl
    rw [hmessages, told_append, told_append, told_outcomeMessages, hcount, List.append_nil]
  rw [account, htold]
  cases o <;> exact ⟨rfl, rfl, rfl⟩

theorem foldl_report (outcomes : List Outcome) :
    let after := outcomes.foldl Progress.report s
    after.disk = s.disk ∧ after.stats.discovered = s.stats.discovered ∧
      account after = ⟨s.stats.processed, outcomes.foldl Summary.record s.stats.summary,
        told s.messages ++ outcomes.flatMap outcomeMessages⟩ := by
  induction outcomes generalizing s with
  | nil => simp [account]
  | cons o rest ih =>
    obtain ⟨hdisk, hdiscovered, haccount⟩ := ih (s.report o)
    obtain ⟨hdisk', hdiscovered', haccount'⟩ := report_account s o
    obtain ⟨hprocessed, hsummary, htold⟩ := Account.mk.inj haccount'
    refine ⟨hdisk.trans hdisk', hdiscovered.trans hdiscovered', haccount.trans ?_⟩
    rw [hprocessed, hsummary, htold, List.flatMap_cons, List.append_assoc, List.foldl_cons]

def inputMessages (x : Extraction) : List Message := x.outcomes.items.flatMap outcomeMessages

theorem extractInput_spec :
    let x := Pipeline.extractFile sources options s.disk p
    let after := extractInput sources options s p
    after.1.disk = x.disk ∧ after.2 = x.outcomes.fault ∧
      after.1.stats.discovered = s.stats.discovered ∧
      (after.2 = none → account after.1 = (account s).add inputMessages x) := by
  intro x after
  let begun : Progress :=
    { s with disk := x.disk, stats := { s.stats with currentFile := p.render } }
  let reported := x.outcomes.items.foldl Progress.report begun
  obtain ⟨hdisk, hdiscovered, haccount⟩ := foldl_report begun x.outcomes.items
  cases hfault : x.outcomes.fault with
  | some fault =>
    have hafter : after = (reported, some fault) := by
      simp only [after, extractInput]
      rw [hfault]
    rw [hafter]
    exact ⟨hdisk, rfl, hdiscovered, fun h => by cases h⟩
  | none =>
    let stats := { reported.stats with processed := reported.stats.processed + 1 }
    have hafter : after = (({ reported with stats } : Progress).postStats, none) := by
      simp only [after, extractInput]
      rw [hfault]
    obtain ⟨hprocessed, hsummary, htold⟩ := Account.mk.inj haccount
    rw [hafter]
    refine ⟨hdisk, rfl, hdiscovered, fun _ => ?_⟩
    have hcount : told (reported.messages ++ [.stats stats]) = told reported.messages := by
      rw [told_append]
      exact List.append_nil _
    simp only [account, Progress.postStats, Progress.post, hcount]
    simp only [stats, reported, hprocessed, hsummary, htold]
    rfl

end Deck

end SourceRecovery
