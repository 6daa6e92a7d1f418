import Mathlib.Data.List.Forall2
import SourceRecovery.Pdb.Writer
import SourceRecovery.Proofs.EventsOnDemand
import SourceRecovery.Proofs.InputReports
import SourceRecovery.Proofs.WriteEffect

/-! Listing an input and extracting it. Both go through the events of the input as it was before the
first document is written: listing prints what extracting writes or fails to write. -/
namespace SourceRecovery

namespace Output

def markSize (text : String) : Nat := if text.toList.head? = some byteOrderMark then 0 else 3

theorem markedBytes_length (text : String) :
    (markedBytes text).length = Utf8.size text + markSize text := by
  rw [markedBytes, List.length_append, Utf8.size, markSize, Nat.add_comm]
  split <;> rfl

end Output

namespace Pipeline

variable {sources : List Source} {d : Disk} {p : Path} {options : Output.Options}

/-- What becomes of an event. A document is written with all its bytes, or it is reported that it
could not be written; everything else stands for itself. -/
inductive Settles : Event → Outcome → Prop
  | written (f : ExtractedFile) (path : Path) :
      Settles (.file f) (.written ⟨path, f.name, Utf8.size f.text + Output.markSize f.text⟩)
  | failed (f : ExtractedFile) (issue : Output.WriteIssue) : Settles (.file f) (.writeIssue issue)
  | opened (o : ContainerOpened) : Settles (.opened o) (.opened o)
  | extractionIssue (i : ExtractionIssue) : Settles (.extractionIssue i) (.extractionIssue i)
  | containerIssue (i : ContainerIssue) : Settles (.containerIssue i) (.containerIssue i)
  | skipped (s : InputSkipped) : Settles (.skipped s) (.skipped s)

theorem settle_settles (options : Output.Options) (d : Disk) (e : Event) :
    Settles e (settle options d e).2 := by
  cases e with
  | file f =>
    rw [settle_file]
    have hwrites := Output.write_writes d options f.name f.text
    generalize Output.write d options f.name f.text = written at hwrites
    obtain ⟨after, result⟩ := written
    cases hwrites with
    | written =>
      rw [Output.markedBytes_length]
      exact .written f _
    | _ => exact .failed f _
  | opened o => exact .opened o
  | extractionIssue i => exact .extractionIssue i
  | containerIssue i => exact .containerIssue i
  | skipped s => exact .skipped s

theorem feed_settles (options : Output.Options) (d : Disk) (events : List Event) :
    List.Forall₂ Settles events (feed (settle options) d events).2 := by
  induction events generalizing d with
  | nil => exact .nil
  | cons e rest ih => exact .cons (settle_settles options d e) (ih _)

def look (d : Disk) (e : Event) : Disk × Event := (d, e)

theorem feed_look (d : Disk) (events : List Event) : feed look d events = (d, events) := by
  induction events with
  | nil => rfl
  | cons e rest ih => simp only [feed, look, ih]

end Pipeline

namespace Command

open Pipeline

/-- Extracting an input to its end while its documents are written, one when it is asked for after
the other, settles the very events that were there to be looked at before. So for an input that is a
file listing prints, in order, the documents that extracting reports as written or as failed, with
the size of what is written but for the mark in front. -/
theorem extraction_undisturbed (sources : List Source) (d : Disk) :
    (∀ (p : Path) (options : Output.Options),
      let events := (read sources d p).events
      let settled := feed (settle options) d events.items
      (∀ after shown fault, Demands sources p look d .untouched after shown fault ↔
        after = d ∧ shown = events.items ∧ fault = events.fault) ∧
      (∀ after outcomes fault, Demands sources p (settle options) d .untouched after outcomes fault ↔
        after = settled.1 ∧ outcomes = settled.2 ∧ fault = events.fault) ∧
      (extractFile sources options d p).outcomes = ⟨settled.2, events.fault⟩ ∧
      (extractFile sources options d p).disk = settled.1 ∧
      List.Forall₂ Settles events.items settled.2) ∧
    ∀ (selection : Selection) (output : String) (contain : Bool),
      d.isFile (Path.ofString selection.source) = .ok true →
      let p := Path.ofString selection.source
      let reading := read sources d p
      let extraction := extractFile sources ⟨Path.ofString output, contain⟩ d p
      let listed := Request.perform sources { disk := d } (.list selection)
      let extracted := Request.perform sources { disk := d } (.extract selection output contain)
      listed.1.printed = reading.events.items.flatMap printedLines ∧
      listed.1.log = noteLines reading.note ++ reading.events.items.flatMap loggedLines ∧
      noteLines reading.note ++ extraction.outcomes.items.map outcomeLine <+: extracted.1.log ∧
      extracted.1.disk = extraction.disk ∧
      extracted.2 = listed.2 ∧
      List.Forall₂ Settles reading.events.items extraction.outcomes.items := by
  constructor
  · intro p options events settled
    have hextraction := extractFile_eq_feed sources options d p
    refine ⟨?_, ?_, ?_, ?_, feed_settles options d events.items⟩
    · intro after shown fault
      rw [demands_iff, feed_look, Prod.mk.injEq, and_assoc]
      rfl
    · intro after outcomes fault
      rw [demands_iff, ← Prod.eta (feed _ _ _), Prod.mk.injEq, and_assoc]
      rfl
    · rw [hextraction]
    · rw [hextraction]
  · intro selection output contain hfile p reading extraction listed extracted
    have hlisted : listed = endingOf (listInput sources { disk := d } p) :=
      perform_list_of_file sources hfile
    obtain ⟨hending, hdisk, hlog⟩ :=
      perform_extract_of_file (s := { disk := d }) sources output contain hfile
    rw [listInput_eq] at hlisted
    rw [extractInput_eq] at hending hdisk hlog
    have hextraction : extraction = _ :=
      extractFile_eq_feed sources ⟨Path.ofString output, contain⟩ d p
    refine ⟨?_, ?_, ?_, hdisk, ?_, ?_⟩
    · rw [hlisted, endingOf_fst]
      exact List.nil_append _
    · rw [hlisted, endingOf_fst]
      exact List.nil_append _
    · rw [List.nil_append] at hlog
      exact hlog
    · refine hending.trans ?_
      rw [hlisted]
      exact endingOf_snd _ _ _
    · rw [hextraction]
      exact feed_settles _ d reading.events.items

def overwritingPdb : Bytes :=
  let document := fun (name : String) (text : UInt8) =>
    (⟨name, [⟨embeddedSourceKind, [0, 0, 0, 0, text]⟩]⟩ : Pdb.Writer.DocumentSpec)
  Pdb.Writer.write ⟨[document "link" 49, document "a.pdb" 50, document "b" 51], 0, 0, false⟩

def overwrittenDisk : Disk where
  workingDirectory := ⟨.root, ["w"]⟩
  entries := [(["w"], .directory), (["a.pdb", "w"], .file overwritingPdb),
    (["link", "w"], .link "a.pdb")]

theorem overwriting_documents_listed :
    let p := Path.ofString "a.pdb"
    (∃ after, Demands builtinSources p (settle ⟨Path.ofString ".", false⟩) overwrittenDisk .untouched
        after [.opened ⟨"a.pdb", 3⟩, .written ⟨⟨.root, ["w", "link"]⟩, "link", 4⟩,
          .written ⟨⟨.root, ["w", "a.pdb"]⟩, "a.pdb", 4⟩,
          .written ⟨⟨.root, ["w", "b"]⟩, "b", 4⟩] none ∧
        after.read p = .ok [0xEF, 0xBB, 0xBF, 50]) ∧
    (Request.perform builtinSources { disk := overwrittenDisk }
        (.list ⟨"a.pdb", false, []⟩)).1.printed =
      ["a.pdb (3 documents)", documentRow ⟨"link", "1", false⟩, documentRow ⟨"a.pdb", "2", false⟩,
        documentRow ⟨"b", "3", false⟩] := by
  intro p
  obtain ⟨hinputs, hfiles⟩ := extraction_undisturbed builtinSources overwrittenDisk
  have hevents : (read builtinSources overwrittenDisk p).events =
      .ofList [.opened ⟨"a.pdb", 3⟩, .file ⟨"link", "1", false⟩, .file ⟨"a.pdb", "2", false⟩,
        .file ⟨"b", "3", false⟩] := by
    decide +kernel
  obtain ⟨_, hdemands, _⟩ := hinputs p ⟨Path.ofString ".", false⟩
  obtain ⟨hprinted, _⟩ := hfiles ⟨"a.pdb", false, []⟩ "." false (by decide +kernel)
  refine ⟨⟨_, (hdemands _ _ _).mpr ⟨rfl, ?_, ?_⟩, ?_⟩, ?_⟩
  · rw [hevents]
    decide +kernel
  · rw [hevents]
    rfl
  · rw [hevents]
    decide +kernel
  · refine hprinted.trans ?_
    rw [hevents]
    decide +kernel

end Command
end SourceRecovery
