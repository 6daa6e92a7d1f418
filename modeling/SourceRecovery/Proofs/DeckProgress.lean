import SourceRecovery.Proofs.FrontEnds
import SourceRecovery.Proofs.VisitedInputs

/-! What a run of the deck reports of itself. Every snapshot of the counters that it posts counts
what had happened until then, no more and no less. That is kept by each outcome and at the end of
each input, and so by all of a run, whether it is complete or stopped between any two outcomes. -/
namespace SourceRecovery

structure Summary.AtMost (s t : Summary) : Prop where
  inputs : s.inputs ≤ t.inputs
  containers : s.containers ≤ t.containers
  written : s.written ≤ t.written
  issues : s.issues ≤ t.issues
  skipped : s.skipped ≤ t.skipped
  totalBytes : s.totalBytes ≤ t.totalBytes

theorem Summary.AtMost.refl (s : Summary) : s.AtMost s := by
  constructor <;> exact Nat.le_refl _

theorem Summary.AtMost.trans {s t u : Summary} (h : s.AtMost t) (h' : t.AtMost u) : s.AtMost u := by
  constructor
  · exact Nat.le_trans h.inputs h'.inputs
  · exact Nat.le_trans h.containers h'.containers
  · exact Nat.le_trans h.written h'.written
  · exact Nat.le_trans h.issues h'.issues
  · exact Nat.le_trans h.skipped h'.skipped
  · exact Nat.le_trans h.totalBytes h'.totalBytes

theorem Summary.record_atMost (s : Summary) (o : Outcome) : s.AtMost (s.record o) := by
  cases o <;> constructor <;> simp [Summary.record]

theorem Summary.foldl_record_atMost (s : Summary) (outcomes : List Outcome) :
    s.AtMost (outcomes.foldl Summary.record s) := by
  induction outcomes generalizing s with
  | nil => exact .refl s
  | cons o rest ih => exact (s.record_atMost o).trans (ih (s.record o))

open Pipeline (Source Extraction Course course course_of_fault course_of_done course_done
  course_length course_faulted burningSource)

namespace Deck

/-- What is counted while inputs are extracted: one more outcome, or that an input is done. -/
inductive Incident where
  | outcome (o : Outcome)
  | finished
  deriving DecidableEq, Repr

def Incident.outcome? : Incident → Option Outcome
  | .outcome o => some o
  | .finished => none

def outcomesIn (happened : List Incident) : List Outcome := happened.filterMap Incident.outcome?

def incidents (x : Extraction) : List Incident :=
  x.outcomes.items.map .outcome ++ if x.outcomes.fault.isNone then [.finished] else []

theorem outcomesIn_incidents (x : Extraction) : outcomesIn (incidents x) = x.outcomes.items := by
  have hitems : (x.outcomes.items.map Incident.outcome).filterMap Incident.outcome? =
      x.outcomes.items := by
    rw [List.filterMap_map]
    exact List.filterMap_some
  rw [outcomesIn, incidents, List.filterMap_append, hitems]
  split <;> simp [Incident.outcome?]

theorem outcomesIn_flatMap (extractions : List Extraction) :
    outcomesIn (extractions.flatMap incidents) = outcomesOf extractions := by
  induction extractions with
  | nil => rfl
  | cons x rest ih =>
    have houtcomes : outcomesIn (incidents x ++ rest.flatMap incidents) =
        outcomesIn (incidents x) ++ outcomesIn (rest.flatMap incidents) := List.filterMap_append
    rw [List.flatMap_cons, houtcomes, outcomesIn_incidents, ih]
    rfl

theorem count_finished (x : Extraction) :
    (incidents x).count .finished = if x.outcomes.fault.isNone then 1 else 0 := by
  have hitems : (x.outcomes.items.map Incident.outcome).count .finished = 0 := by
    simp [List.count_eq_zero]
  rw [incidents, List.count_append, hitems, Nat.zero_add]
  split <;> rfl

theorem count_finished_of_done {extractions : List Extraction}
    (h : ∀ x ∈ extractions, x.outcomes.fault = none) :
    (extractions.flatMap incidents).count .finished = extractions.length := by
  induction extractions with
  | nil => rfl
  | cons x rest ih =>
    obtain ⟨hx, hrest⟩ := List.forall_mem_cons.mp h
    rw [List.flatMap_cons, List.count_append, count_finished, hx, ih hrest, List.length_cons,
      Nat.add_comm]
    rfl

theorem count_finished_of_faulted {front : List Extraction} {x : Extraction} {fault : Fault}
    (h : ∀ y ∈ front, y.outcomes.fault = none) (hx : x.outcomes.fault = some fault) :
    ((front ++ [x]).flatMap incidents).count .finished = front.length := by
  rw [List.flatMap_append, List.flatMap_singleton, List.count_append, count_finished_of_done h,
    count_finished, hx]
  rfl

theorem count_finished_le (sources : List Source) (options : Output.Options) (d : Disk)
    (ps : List Path) :
    ((course sources options d ps).extractions.flatMap incidents).count .finished ≤ ps.length := by
  cases hfault : (course sources options d ps).fault with
  | none =>
    rw [count_finished_of_done (course_done hfault).2]
    exact Nat.le_of_eq (course_length hfault)
  | some fault =>
    obtain ⟨front, p, x, rest, hextracted, hps, hx, hfront⟩ := course_faulted hfault
    have hextractions : (course sources options d ps).extractions = front.map Prod.snd ++ [x] := by
      rw [Course.extractions, hextracted, List.map_append]
      rfl
    rw [hextractions, count_finished_of_faulted hfront hx, List.length_map]
    simp [hps]

def documentsOf : Outcome → Nat
  | .opened c => c.documents
  | _ => 0

/-- Counters that say just what has happened. -/
structure Counts (inputs : Nat) (happened : List Incident) (s : Stats) : Prop where
  discovered : s.discovered = inputs
  processed : s.processed = happened.count .finished
  documents : s.documents = ((outcomesIn happened).map documentsOf).sum
  summary : s.summary = (outcomesIn happened).foldl Summary.record {}

structure Stats.AtMost (s t : Stats) : Prop where
  discovered : s.discovered ≤ t.discovered
  processed : s.processed ≤ t.processed
  documents : s.documents ≤ t.documents
  summary : s.summary.AtMost t.summary

variable {inputs : Nat} {happened before : List Incident} {s t : Stats}

theorem Counts.atMost (h : Counts inputs before s) (h' : Counts inputs happened t)
    (hfront : before <+: happened) : s.AtMost t := by
  obtain ⟨later, rfl⟩ := hfront
  have houtcomes : outcomesIn (before ++ later) = outcomesIn before ++ outcomesIn later :=
    List.filterMap_append
  constructor
  · exact Nat.le_of_eq (h.discovered.trans h'.discovered.symm)
  · rw [h.processed, h'.processed, List.count_append]
    exact Nat.le_add_right _ _
  · rw [h.documents, h'.documents, houtcomes, List.map_append, List.sum_append_nat]
    exact Nat.le_add_right _ _
  · rw [h.summary, h'.summary, houtcomes, List.foldl_append]
    exact Summary.foldl_record_atMost _ _

theorem Counts.outcome (h : Counts inputs happened s) (o : Outcome) :
    Counts inputs (happened ++ [.outcome o]) (s.record o) := by
  obtain ⟨hdiscovered, hprocessed, hdocuments, hsummary⟩ := h
  have houtcomes : outcomesIn (happened ++ [.outcome o]) = outcomesIn happened ++ [o] :=
    List.filterMap_append
  constructor
  · cases o <;> exact hdiscovered
  · rw [List.count_append, ← hprocessed]
    cases o <;> rfl
  · rw [houtcomes, List.map_append, List.sum_append_nat, ← hdocuments]
    cases o <;> rfl
  · rw [houtcomes, List.foldl_append, ← hsummary]
    cases o <;> rfl

theorem Counts.finished (h : Counts inputs happened s) :
    Counts inputs (happened ++ [.finished]) { s with processed := s.processed + 1 } := by
  have houtcomes : outcomesIn (happened ++ [.finished]) = outcomesIn happened := by
    simp [outcomesIn, Incident.outcome?]
  constructor
  · exact h.discovered
  · rw [List.count_append, ← h.processed]
    rfl
  · rw [houtcomes]
    exact h.documents
  · rw [houtcomes]
    exact h.summary

def Message.snapshot? : Message → Option Stats
  | .stats s => some s
  | _ => none

def snapshots (messages : List Message) : List Stats := messages.filterMap Message.snapshot?

def Message.source? : Message → Option (String × Bool × Nat)
  | .source document ok size => some (document, ok, size)
  | _ => none

def sourceOf : Outcome → Option (String × Bool × Nat)
  | .written f => some (f.document, true, f.size)
  | .extractionIssue i => some (i.document, false, 0)
  | .writeIssue i => some (i.path, false, 0)
  | .opened _ | .containerIssue _ | .skipped _ => none

theorem snapshots_append (front rest : List Message) :
    snapshots (front ++ rest) = snapshots front ++ snapshots rest := List.filterMap_append

theorem snapshots_outcomeMessages (o : Outcome) : snapshots (outcomeMessages o) = [] := by
  cases o <;> rfl

theorem snapshots_told_outcomes (outcomes : List Outcome) :
    snapshots (outcomes.flatMap outcomeMessages) = [] := by
  rw [snapshots, List.filterMap_flatMap, List.flatMap_eq_nil_iff]
  intro o _
  exact snapshots_outcomeMessages o

theorem told_outcomes (outcomes : List Outcome) :
    told (outcomes.flatMap outcomeMessages) = outcomes.flatMap outcomeMessages := by
  induction outcomes with
  | nil => rfl
  | cons o rest ih => rw [List.flatMap_cons, told_append, told_outcomeMessages, ih]

theorem sources_outcomes (outcomes : List Outcome) :
    (outcomes.flatMap outcomeMessages).filterMap Message.source? = outcomes.filterMap sourceOf := by
  induction outcomes with
  | nil => rfl
  | cons o rest ih =>
    rw [List.flatMap_cons, List.filterMap_append, ih]
    cases o <;> rfl

theorem mem_snapshots {messages : List Message} :
    s ∈ snapshots messages ↔ ∃ front rest, messages = front ++ .stats s :: rest := by
  rw [snapshots, List.mem_filterMap]
  constructor
  · rintro ⟨m, hm, hsnapshot⟩
    cases m <;> cases hsnapshot
    exact List.mem_iff_append.mp hm
  · rintro ⟨front, rest, rfl⟩
    exact ⟨.stats s, List.mem_append_right front List.mem_cons_self, rfl⟩

/-- Every snapshot has a property that depends on the messages before it. -/
def AtSnapshots (P : List Message → Stats → Prop) (messages : List Message) : Prop :=
  ∀ front snapshot rest, messages = front ++ .stats snapshot :: rest → P front snapshot

theorem AtSnapshots.nil (P : List Message → Stats → Prop) : AtSnapshots P [] := by
  intro front snapshot rest heq
  simp at heq

theorem AtSnapshots.concat {P : List Message → Stats → Prop} {messages : List Message} {m : Message}
    (h : AtSnapshots P messages) (hlast : ∀ snapshot, m = .stats snapshot → P messages snapshot) :
    AtSnapshots P (messages ++ [m]) := by
  intro front snapshot rest heq
  -- The snapshot is the last message, or the last message comes behind it.
  rcases List.eq_nil_or_concat rest with rfl | ⟨others, last, rfl⟩
  · obtain ⟨rfl, hm⟩ := List.append_inj' heq rfl
    exact hlast snapshot (List.cons.inj hm).1
  · have hsplit : messages ++ [m] = (front ++ .stats snapshot :: others) ++ [last] := by
      rw [heq, List.append_assoc, List.cons_append, List.concat_eq_append]
    obtain ⟨rfl, _⟩ := List.append_inj' hsplit rfl
    exact h front snapshot others rfl

theorem AtSnapshots.append {P : List Message → Stats → Prop} {messages lines : List Message}
    (h : AtSnapshots P messages) (hlines : snapshots lines = []) :
    AtSnapshots P (messages ++ lines) := by
  induction lines generalizing messages with
  | nil => rwa [List.append_nil]
  | cons m rest ih =>
    have hnone := List.filterMap_eq_nil_iff.mp hlines m List.mem_cons_self
    rw [List.append_cons]
    apply ih
    · apply h.concat
      rintro snapshot rfl
      cases hnone
    · rw [snapshots, List.filterMap_cons, hnone] at hlines
      exact hlines

/-- There is a snapshot before anything has happened and one for each thing that happens. -/
def happenedBefore (happened : List Incident) (front : List Message) : List Incident :=
  happened.take (snapshots front).length

/-- A snapshot counts what has happened until it is taken, and just that is told before it. The line
that opens a run does not matter. -/
structure Exact (inputs : Nat) (happened : List Incident) (front : List Message)
    (snapshot : Stats) : Prop where
  told_tail : (told front).tail =
    (outcomesIn (happenedBefore happened front)).flatMap outcomeMessages
  counts : Counts inputs (happenedBefore happened front) snapshot

theorem happenedBefore_append {front : List Message} (later : List Incident)
    (h : (snapshots front).length ≤ happened.length) :
    happenedBefore (happened ++ later) front = happenedBefore happened front :=
  List.take_append_of_le_length h

theorem happenedBefore_eq_self {front : List Message}
    (h : happened.length ≤ (snapshots front).length) : happenedBefore happened front = happened :=
  List.take_of_length_le h

/-- What is kept throughout a run and still holds of its last messages. -/
structure Faithful (inputs : Nat) (happened : List Incident) (s : Progress) : Prop where
  counts : Counts inputs happened s.stats
  exact_snapshots : AtSnapshots (Exact inputs happened) s.messages
  ordered : (snapshots s.messages).Pairwise Stats.AtMost
  sources : s.messages.filterMap Message.source? = (outcomesIn happened).filterMap sourceOf

namespace Faithful

variable {s : Progress} {lines : List Message} {later : List Incident}

theorem begun (h : Counts inputs [] t) (d : Disk) : Faithful inputs [] ⟨d, t, []⟩ :=
  ⟨h, .nil _, .nil, rfl⟩

theorem restated (h : Faithful inputs happened s) (hcounts : Counts inputs happened t) (d : Disk) :
    Faithful inputs happened ⟨d, t, s.messages⟩ :=
  ⟨hcounts, h.exact_snapshots, h.ordered, h.sources⟩

theorem atMost (h : Faithful inputs happened s) (hcounts : Counts inputs (happened ++ later) t) :
    ∀ snapshot ∈ snapshots s.messages, snapshot.AtMost t := by
  intro snapshot hsnapshot
  obtain ⟨front, rest, heq⟩ := mem_snapshots.mp hsnapshot
  have hfront : happenedBefore happened front <+: happened ++ later :=
    (List.take_prefix _ happened).trans (List.prefix_append happened later)
  exact (h.exact_snapshots front snapshot rest heq).counts.atMost hcounts hfront

theorem posted (h : Faithful inputs happened s) (lines : List Message) (later : List Incident)
    (hcounts : Counts inputs (happened ++ later) t) (hlines : snapshots lines = [])
    (hmost : (snapshots s.messages).length ≤ happened.length + 1)
    (hleast : (happened ++ later).length ≤ (snapshots s.messages).length)
    (hsources : lines.filterMap Message.source? = (outcomesIn later).filterMap sourceOf)
    (htold : (told (s.messages ++ lines)).tail =
      (outcomesIn (happened ++ later)).flatMap outcomeMessages) (d : Disk) :
    Faithful inputs (happened ++ later) ⟨d, t, s.messages ++ lines ++ [.stats t]⟩ := by
  have hearlier : AtSnapshots (Exact inputs (happened ++ later)) s.messages := by
    intro front snapshot rest heq
    have hshort : (snapshots front).length ≤ happened.length := by
      rw [heq, snapshots_append, List.length_append] at hmost
      have hone : 0 < (snapshots (.stats snapshot :: rest)).length := Nat.succ_pos _
      omega
    obtain ⟨htail, hfront⟩ := h.exact_snapshots front snapshot rest heq
    rw [← happenedBefore_append later hshort] at htail hfront
    exact ⟨htail, hfront⟩
  have hall : happenedBefore (happened ++ later) (s.messages ++ lines) = happened ++ later := by
    apply happenedBefore_eq_self
    rwa [snapshots_append, hlines, List.append_nil]
  constructor
  · exact hcounts
  · apply (hearlier.append hlines).concat
    intro snapshot hlast
    cases hlast
    constructor
    · rw [hall]
      exact htold
    · rw [hall]
      exact hcounts
  · have hall : snapshots (s.messages ++ lines ++ [.stats t]) = snapshots s.messages ++ [t] := by
      rw [snapshots_append, snapshots_append, hlines, List.append_nil]
      rfl
    rw [hall, List.pairwise_append]
    refine ⟨h.ordered, List.pairwise_singleton _ t, ?_⟩
    intro snapshot hsnapshot last hlast
    cases List.mem_singleton.mp hlast
    exact h.atMost hcounts snapshot hsnapshot
  · have houtcomes : outcomesIn (happened ++ later) = outcomesIn happened ++ outcomesIn later :=
      List.filterMap_append
    rw [List.filterMap_append, List.filterMap_append, h.sources, hsources, houtcomes,
      List.filterMap_append]
    exact List.append_nil _

theorem logged (h : Faithful inputs happened s) (line : String) :
    Faithful inputs happened (s.post [.log line]) := by
  constructor
  · exact h.counts
  · exact h.exact_snapshots.append rfl
  · have hall : snapshots (s.messages ++ [.log line]) = snapshots s.messages := by
      rw [snapshots_append]
      exact List.append_nil _
    exact hall ▸ h.ordered
  · have hall : (s.post [.log line]).messages.filterMap Message.source? =
        s.messages.filterMap Message.source? := by
      rw [Progress.post, List.filterMap_append]
      exact List.append_nil _
    exact hall.trans h.sources

theorem finish (h : Faithful inputs happened s)
    (hmost : (snapshots s.messages).length ≤ happened.length + 1)
    (hleast : happened.length ≤ (snapshots s.messages).length)
    (htold : (told s.messages).tail = (outcomesIn happened).flatMap outcomeMessages)
    (status : Status) (line : String) : Faithful inputs happened (s.finish status line) := by
  obtain ⟨hdiscovered, hprocessed, hdocuments, hsummary⟩ := h.counts
  have hcounts : Counts inputs (happened ++ []) { s.stats with status } := by
    rw [List.append_nil]
    exact ⟨hdiscovered, hprocessed, hdocuments, hsummary⟩
  have hposted := h.posted [] [] hcounts rfl hmost (by simpa using hleast) rfl
    (by simpa using htold) s.disk
  rw [List.append_nil, List.append_nil] at hposted
  exact hposted.logged line

end Faithful

/-- The progress of a run that has opened with a line and goes on. -/
structure Reports (opening : Message) (inputs : Nat) (happened : List Incident) (s : Progress) :
    Prop extends Faithful inputs happened s where
  told_lines : told s.messages = opening :: (outcomesIn happened).flatMap outcomeMessages
  snapshot_count : (snapshots s.messages).length = happened.length + 1
  running : s.stats.status = .running
  running_before : ∀ snapshot ∈ snapshots s.messages, snapshot.status = .running

namespace Reports

variable {s : Progress} {opening : Message} {lines : List Message} {later : List Incident}

theorem told_tail (h : Reports opening inputs happened s) :
    (told s.messages).tail = (outcomesIn happened).flatMap outcomeMessages := by
  rw [h.told_lines, List.tail_cons]

theorem snapshot_least (h : Reports opening inputs happened s) :
    happened.length ≤ (snapshots s.messages).length := by
  rw [h.snapshot_count]
  exact Nat.le_succ _

theorem posted (h : Reports opening inputs happened s) (lines : List Message)
    (later : List Incident) (hcounts : Counts inputs (happened ++ later) t)
    (hrunning : t.status = .running) (hone : later.length = 1)
    (hlines : lines = (outcomesIn later).flatMap outcomeMessages) (d : Disk) :
    Reports opening inputs (happened ++ later) ⟨d, t, s.messages ++ lines ++ [.stats t]⟩ := by
  have houtcomes : outcomesIn (happened ++ later) = outcomesIn happened ++ outcomesIn later :=
    List.filterMap_append
  have hnone : snapshots lines = [] := hlines ▸ snapshots_told_outcomes _
  have htold : told (s.messages ++ lines) =
      opening :: (outcomesIn (happened ++ later)).flatMap outcomeMessages := by
    rw [told_append, h.told_lines, hlines, told_outcomes, houtcomes, List.flatMap_append,
      List.cons_append]
  have hcount : (happened ++ later).length = (snapshots s.messages).length := by
    rw [List.length_append, hone, h.snapshot_count]
  constructor
  · exact h.toFaithful.posted lines later hcounts hnone (Nat.le_of_eq h.snapshot_count)
      (Nat.le_of_eq hcount) (hlines ▸ sources_outcomes _) (congrArg List.tail htold) d
  · rw [told_append, htold]
    exact List.append_nil _
  · rw [snapshots_append, snapshots_append, hnone, List.append_nil, List.length_append, hcount]
    rfl
  · exact hrunning
  · intro snapshot hsnapshot
    rw [snapshots_append, snapshots_append, hnone, List.append_nil] at hsnapshot
    rcases List.mem_append.mp hsnapshot with hbefore | hlast
    · exact h.running_before snapshot hbefore
    · cases List.mem_singleton.mp hlast
      exact hrunning

theorem outcome (h : Reports opening inputs happened s) (o : Outcome) :
    Reports opening inputs (happened ++ [.outcome o]) (s.report o) := by
  have hlines : outcomeMessages o =
      (outcomesIn [Incident.outcome o]).flatMap outcomeMessages := (List.append_nil _).symm
  apply h.posted (outcomeMessages o) [.outcome o] (h.counts.outcome o) _ rfl hlines
  rw [← h.running]
  cases o <;> rfl

theorem outcomes (h : Reports opening inputs happened s) (outcomes : List Outcome) :
    Reports opening inputs (happened ++ outcomes.map .outcome)
      (outcomes.foldl Progress.report s) := by
  induction outcomes generalizing happened s with
  | nil => rwa [List.map_nil, List.append_nil]
  | cons o rest ih =>
    rw [List.map_cons, List.append_cons]
    exact ih (h.outcome o)

theorem finished (h : Reports opening inputs happened s) :
    Reports opening inputs (happened ++ [.finished])
      ({ s with stats := { s.stats with processed := s.stats.processed + 1 } }.postStats) := by
  have hposted := h.posted [] [.finished] h.counts.finished h.running rfl rfl s.disk
  rwa [List.append_nil] at hposted

theorem turned (h : Reports opening inputs happened s) (d : Disk) (name : String) :
    Reports opening inputs happened
      { s with disk := d, stats := { s.stats with currentFile := name } } := by
  obtain ⟨hdiscovered, hprocessed, hdocuments, hsummary⟩ := h.counts
  have hcounts : Counts inputs happened { s.stats with currentFile := name } :=
    ⟨hdiscovered, hprocessed, hdocuments, hsummary⟩
  exact ⟨h.toFaithful.restated hcounts d, h.told_lines, h.snapshot_count, h.running,
    h.running_before⟩

end Reports

theorem foldl_report_currentFile (outcomes : List Outcome) (s : Progress) :
    (outcomes.foldl Progress.report s).stats.currentFile = s.stats.currentFile := by
  induction outcomes generalizing s with
  | nil => rfl
  | cons o rest ih =>
    rw [List.foldl_cons, ih]
    cases o <;> rfl

section Extracting

variable {s : Progress} {opening : Message} (sources : List Source) (options : Output.Options)

theorem Reports.input (h : Reports opening inputs happened s) (p : Path) :
    let x := Pipeline.extractFile sources options s.disk p
    Reports opening inputs (happened ++ incidents x) (extractInput sources options s p).1 ∧
      (extractInput sources options s p).1.stats.currentFile = p.render := by
  intro x
  have hreported := (h.turned x.disk p.render).outcomes x.outcomes.items
  have hcurrent := foldl_report_currentFile x.outcomes.items
    { s with disk := x.disk, stats := { s.stats with currentFile := p.render } }
  cases hfault : x.outcomes.fault with
  | some fault =>
    have hincidents : incidents x = x.outcomes.items.map .outcome := by
      rw [incidents, hfault]
      exact List.append_nil _
    simp only [extractInput, x, hfault, hincidents]
    exact ⟨hreported, hcurrent⟩
  | none =>
    have hincidents : incidents x = x.outcomes.items.map .outcome ++ [.finished] := by
      rw [incidents, hfault]
      rfl
    simp only [extractInput, x, hfault, hincidents, ← List.append_assoc]
    exact ⟨hreported.finished, hcurrent⟩

theorem Reports.extracted (h : Reports opening inputs happened s) (ps : List Path) :
    let c := course sources options s.disk ps
    let after := Discovery.foldUntil (extractInput sources options) ps s
    Reports opening inputs (happened ++ c.extractions.flatMap incidents) after.1 ∧
      after.2 = c.fault ∧ after.1.disk = c.disk ∧
      after.1.stats.currentFile =
        c.extracted.foldl (fun _ x => x.1.render) s.stats.currentFile := by
  induction ps generalizing happened s with
  | nil =>
    refine ⟨?_, rfl, rfl, rfl⟩
    have hnothing : happened ++ ([] : List Extraction).flatMap incidents = happened :=
      List.append_nil _
    exact hnothing.symm ▸ h
  | cons p rest ih =>
    obtain ⟨hreports, hcurrent⟩ := h.input sources options p
    obtain ⟨hdisk, hfault, _, _⟩ := extractInput_spec sources options s p
    rw [Discovery.foldUntil]
    cases hinput : extractInput sources options s p with
    | mk after fault =>
      rw [hinput] at hreports hcurrent hdisk hfault
      dsimp only at hreports hcurrent hdisk hfault
      cases fault with
      | some fault =>
        rw [course_of_fault hfault.symm]
        refine ⟨?_, rfl, hdisk, hcurrent⟩
        rw [Course.extractions, List.map_singleton, List.flatMap_singleton]
        exact hreports
      | none =>
        obtain ⟨hlater, hends, hlast, hname⟩ := ih hreports
        rw [hdisk] at hlater hends hlast hname
        rw [course_of_done hfault.symm]
        refine ⟨?_, hends, hlast, ?_⟩
        · rw [Course.extractions, List.map_cons, List.flatMap_cons, ← List.append_assoc]
          exact hlater
        · rw [List.foldl_cons, ← hcurrent]
          exact hname

end Extracting

def begun (clock : Clock) (d : Disk) : Progress :=
  ⟨d, { status := .running, startTime := some clock.start }, []⟩

structure Listable (d : Disk) (f : Form) : Prop where
  there : d.exists? (Path.ofString f.source) = .ok true
  found : (Discovery.inputs d f.query).fault = none

def listed (d : Disk) (f : Form) : List Path :=
  match d.exists? (Path.ofString f.source), (Discovery.inputs d f.query).fault with
  | .ok true, none => (Discovery.inputs d f.query).items
  | _, _ => []

theorem listed_of_listable {d : Disk} {f : Form} (h : Listable d f) :
    listed d f = (Discovery.inputs d f.query).items := by
  rw [listed, h.there, h.found]

theorem listed_of_not {d : Disk} {f : Form} (h : ¬ Listable d f) : listed d f = [] := by
  rw [listed]
  split
  · rename_i hthere hfound
    exact absurd ⟨hthere, hfound⟩ h
  · rfl

def stoppedBy (clock : Clock) (s : Progress) (fault : Fault) : Progress :=
  { s with stats := { s.stats with endTime := some clock.finish } }.finish .error
    (stopLine s.stats fault)

/-- The ways in which a run goes: it fails to look for its inputs, with a message or with a fault,
or it goes through all of them that it finds, until one stops it. -/
inductive Goes (sources : List Source) (clock : Clock) (d : Disk) (f : Form) :
    Progress × Option Fault → Prop
  | unexamined {e} (hthere : d.exists? (Path.ofString f.source) = .error e) :
      Goes sources clock d f (begun clock d, some (.disk e))
  | missing (hthere : d.exists? (Path.ofString f.source) = .ok false) :
      Goes sources clock d f
        ((begun clock d).finish .error (styled "red" ("Path not found: " ++ f.source)), none)
  | refused {fault} (hthere : d.exists? (Path.ofString f.source) = .ok true)
      (hfault : (Discovery.inputs d f.query).fault = some fault)
      (hsystem : isSystemFault fault = true) :
      Goes sources clock d f
        ((begun clock d).finish .error
          (styled "red" s!"Cannot read {f.source}: {fault.message}"), none)
  | unlisted {fault} (hthere : d.exists? (Path.ofString f.source) = .ok true)
      (hfault : (Discovery.inputs d f.query).fault = some fault)
      (hsystem : isSystemFault fault = false) :
      Goes sources clock d f (begun clock d, some fault)
  | stopped {after fault} (hlistable : Listable d f)
      (hextract : Discovery.foldUntil (extractInput sources f.options) (listed d f)
        (found clock d f (listed d f).length) = (after, some fault)) :
      Goes sources clock d f (stoppedBy clock after fault, none)
  | completed {after} (hlistable : Listable d f)
      (hextract : Discovery.foldUntil (extractInput sources f.options) (listed d f)
        (found clock d f (listed d f).length) = (after, none)) :
      Goes sources clock d f (closed clock f after, none)

theorem run_goes (sources : List Source) (clock : Clock) (d : Disk) (f : Form) :
    Goes sources clock d f (run sources clock d f) := by
  cases hthere : d.exists? (Path.ofString f.source) with
  | error e =>
    simp only [run, hthere]
    exact .unexamined hthere
  | ok there =>
    cases there with
    | false =>
      simp only [run, hthere]
      exact .missing hthere
    | true =>
      cases hfault : (Discovery.inputs d f.query).fault with
      | some fault =>
        simp only [run, hthere, hfault]
        cases hsystem : isSystemFault fault with
        | true => exact .refused hthere hfault hsystem
        | false => exact .unlisted hthere hfault hsystem
      | none =>
        have hlistable : Listable d f := ⟨hthere, hfault⟩
        rw [run_of_found sources clock hthere hfault, ← listed_of_listable hlistable]
        cases hextract : Discovery.foldUntil (extractInput sources f.options) (listed d f)
            (found clock d f (listed d f).length) with
        | mk after fault =>
          rw [extractAll, hextract]
          cases fault with
          | some fault => exact .stopped hlistable hextract
          | none => exact .completed hlistable hextract

def happenedIn (sources : List Source) (d : Disk) (f : Form) : List Incident :=
  (course sources f.options d (listed d f)).extractions.flatMap incidents

theorem found_reports (clock : Clock) (d : Disk) (f : Form) (count : Nat) :
    Reports (.log s!"{count} input file(s) in {f.source}") count [] (found clock d f count) := by
  have hcounts : Counts count [] (found clock d f count).stats := ⟨rfl, rfl, rfl, rfl⟩
  have hfirst := (Faithful.begun hcounts d).posted [] [] hcounts rfl (Nat.zero_le _)
    (Nat.le_refl _) rfl rfl d
  refine ⟨hfirst.logged _, rfl, rfl, rfl, ?_⟩
  intro snapshot hsnapshot
  cases List.mem_singleton.mp hsnapshot
  rfl

/-- After all inputs, or those up to a fault, all that has happened was reported. -/
theorem extracted_reports {sources : List Source} {clock : Clock} {d : Disk} {f : Form}
    {after : Progress} {fault : Option Fault}
    (h : Discovery.foldUntil (extractInput sources f.options) (listed d f)
      (found clock d f (listed d f).length) = (after, fault)) :
    let c := course sources f.options d (listed d f)
    Reports (.log s!"{(listed d f).length} input file(s) in {f.source}") (listed d f).length
        (happenedIn sources d f) after ∧
      c.fault = fault ∧ after.disk = c.disk ∧
      after.stats.currentFile = c.extracted.foldl (fun _ x => x.1.render) "" := by
  have hextracted := (found_reports clock d f (listed d f).length).extracted sources f.options
    (listed d f)
  have hdisk : (found clock d f (listed d f).length).disk = d := rfl
  have hcurrent : (found clock d f (listed d f).length).stats.currentFile = "" := rfl
  simp only [h, hdisk, hcurrent, List.nil_append] at hextracted
  obtain ⟨hreports, hfault, hafter, hlast⟩ := hextracted
  exact ⟨hreports, hfault.symm, hafter, hlast⟩

theorem Faithful.of_not_listable {sources : List Source} {d : Disk} {f : Form} {s : Progress}
    (hs : Faithful 0 [] s) (h : ¬ Listable d f) :
    Faithful (listed d f).length (happenedIn sources d f) s := by
  rw [happenedIn, listed_of_not h]
  exact hs

/-- However a run goes, it reports what has happened. -/
theorem Goes.faithful {sources : List Source} {clock : Clock} {d : Disk} {f : Form}
    {ended : Progress × Option Fault} (h : Goes sources clock d f ended) :
    Faithful (listed d f).length (happenedIn sources d f) ended.1 := by
  have hcounts : Counts 0 [] (begun clock d).stats := ⟨rfl, rfl, rfl, rfl⟩
  have hbegun : Faithful 0 [] (begun clock d) := .begun hcounts d
  have hfinished (line : String) : Faithful 0 [] ((begun clock d).finish .error line) :=
    hbegun.finish (Nat.zero_le _) (Nat.le_refl _) rfl .error line
  cases h with
  | unexamined hthere =>
    exact hbegun.of_not_listable fun h => by cases hthere.symm.trans h.there
  | missing hthere =>
    exact (hfinished _).of_not_listable fun h => by cases hthere.symm.trans h.there
  | refused _ hfault =>
    exact (hfinished _).of_not_listable fun h => by cases hfault.symm.trans h.found
  | unlisted _ hfault =>
    exact hbegun.of_not_listable fun h => by cases hfault.symm.trans h.found
  | @stopped after fault hlistable hextract =>
    obtain ⟨hreports, _⟩ := extracted_reports hextract
    obtain ⟨hdiscovered, hprocessed, hdocuments, hsummary⟩ := hreports.counts
    have hended : Counts (listed d f).length (happenedIn sources d f)
        { after.stats with endTime := some clock.finish } :=
      ⟨hdiscovered, hprocessed, hdocuments, hsummary⟩
    have hrestated := hreports.toFaithful.restated hended after.disk
    exact hrestated.finish (Nat.le_of_eq hreports.snapshot_count) hreports.snapshot_least
      hreports.told_tail .error (stopLine after.stats fault)
  | @completed after hlistable hextract =>
    obtain ⟨hreports, _⟩ := extracted_reports hextract
    obtain ⟨hdiscovered, hprocessed, hdocuments, hsummary⟩ := hreports.counts
    have hended : Counts (listed d f).length (happenedIn sources d f)
        { after.stats with endTime := some clock.finish, currentFile := "" } :=
      ⟨hdiscovered, hprocessed, hdocuments, hsummary⟩
    have hrestated := hreports.toFaithful.restated hended after.disk
    exact hrestated.finish (Nat.le_of_eq hreports.snapshot_count) hreports.snapshot_least
      hreports.told_tail .complete (closingLine after.stats.summary f.options)

theorem finish_messages (s : Progress) (status : Status) (line : String) :
    (s.finish status line).messages =
      s.messages ++ [.stats (s.finish status line).stats, .log line] :=
  List.append_assoc _ _ _

theorem finish_snapshots (s : Progress) (status : Status) (line : String) :
    (snapshots (s.finish status line).messages).length = (snapshots s.messages).length + 1 := by
  rw [finish_messages, snapshots_append, List.length_append]
  rfl

section Endings

variable {sources : List Source} {clock : Clock} {d : Disk} {f : Form}
variable {ended : Progress × Option Fault}

theorem Goes.of_done (h : Goes sources clock d f ended) (hlistable : Listable d f)
    (hdone : (course sources f.options d (listed d f)).fault = none) :
    ∃ after, ended = (closed clock f after, none) := by
  cases h with
  | unexamined hthere | missing hthere => cases hthere.symm.trans hlistable.there
  | refused _ hfault | unlisted _ hfault => cases hfault.symm.trans hlistable.found
  | stopped _ hextract =>
    obtain ⟨_, hfault, _⟩ := extracted_reports hextract
    cases hdone.symm.trans hfault
  | @completed after => exact ⟨after, rfl⟩

theorem Goes.snapshot_count (h : Goes sources clock d f ended) (hlistable : Listable d f) :
    (snapshots ended.1.messages).length = (happenedIn sources d f).length + 2 := by
  cases h with
  | unexamined hthere | missing hthere => cases hthere.symm.trans hlistable.there
  | refused _ hfault | unlisted _ hfault => cases hfault.symm.trans hlistable.found
  | stopped _ hextract | completed _ hextract =>
    obtain ⟨hreports, _⟩ := extracted_reports hextract
    exact (finish_snapshots _ _ _).trans (congrArg (· + 1) hreports.snapshot_count)

theorem Goes.done_of_complete (h : Goes sources clock d f ended)
    (hcomplete : ended.1.stats.status = .complete) :
    Listable d f ∧ (course sources f.options d (listed d f)).fault = none := by
  cases h with
  | completed hlistable hextract =>
    obtain ⟨_, hfault, _⟩ := extracted_reports hextract
    exact ⟨hlistable, hfault⟩
  | _ => cases hcomplete

theorem Goes.of_fault {fault : Fault} (h : Goes sources clock d f ended)
    (hfault : (course sources f.options d (listed d f)).fault = some fault) :
    ∃ after, ended = (stoppedBy clock after fault, none) ∧ after.stats.currentFile =
      (course sources f.options d (listed d f)).extracted.foldl (fun _ x => x.1.render) "" := by
  have hlistable : Listable d f := by
    refine Classical.byContradiction fun hnot => ?_
    rw [listed_of_not hnot] at hfault
    cases hfault
  cases h with
  | unexamined hthere | missing hthere => cases hthere.symm.trans hlistable.there
  | refused _ hrefused | unlisted _ hrefused => cases hrefused.symm.trans hlistable.found
  | @stopped after _ _ hextract =>
    obtain ⟨_, hsame, _, hcurrent⟩ := extracted_reports hextract
    cases hfault.symm.trans hsame
    exact ⟨after, rfl, hcurrent⟩
  | completed _ hextract =>
    obtain ⟨_, hsame, _⟩ := extracted_reports hextract
    cases hfault.symm.trans hsame

end Endings

/-- A run posts its counters before anything has happened, after each outcome, after each input that
is done and at the end. Each snapshot is that of the outcomes told and the inputs done before it, no
counter ever goes back, and every document that was written or failed is named once. A run is
complete just if its inputs could be looked for and none of them ended in a fault, and then it has
counted all outcomes of all of them. A fault of an input stops it with the outcomes before the fault
counted and that input named. -/
theorem progress_exact (sources : List Source) (clock : Clock) (d : Disk) (f : Form) :
    let deck := (run sources clock d f).1
    let inputs := listed d f
    let c := course sources f.options d inputs
    let happened := c.extractions.flatMap incidents
    let outcomes := outcomesOf c.extractions
    (∀ front snapshot rest, deck.messages = front ++ .stats snapshot :: rest →
      let before := happened.take (snapshots front).length
      (told front).tail = (outcomesIn before).flatMap outcomeMessages ∧
        Counts inputs.length before snapshot ∧ snapshot.processed ≤ snapshot.discovered) ∧
    (Listable d f → (snapshots deck.messages).length = happened.length + 2) ∧
    (snapshots deck.messages).Pairwise Stats.AtMost ∧
    deck.messages.filterMap Message.source? = outcomes.filterMap sourceOf ∧
    outcomesIn happened = outcomes ∧ Counts inputs.length happened deck.stats ∧
    (deck.stats.status = .complete ↔ Listable d f ∧ c.fault = none) ∧
    (deck.stats.status = .complete →
      inputs = (Discovery.inputs d f.query).items ∧ c.extracted.map Prod.fst = inputs ∧
      (∀ x ∈ c.extractions, x.outcomes.fault = none) ∧
      deck.stats.processed = deck.stats.discovered ∧
      ∃ front line, deck.messages = front ++ [.stats deck.stats, .log line]) ∧
    ∀ fault, c.fault = some fault → deck.stats.status = .error ∧
      ∃ done p x rest, inputs = done.map Prod.fst ++ p :: rest ∧ c.extracted = done ++ [(p, x)] ∧
        (∀ y ∈ done.map Prod.snd, y.outcomes.fault = none) ∧ x.outcomes.fault = some fault ∧
        deck.stats.processed = done.length ∧
        ∃ front, deck.messages = front ++ [.stats deck.stats,
          .log (styled "red" s!"Extraction stopped at {p.render}: {fault.message}")] := by
  intro deck inputs c happened outcomes
  have hgoes := run_goes sources clock d f
  obtain ⟨hcounts, hexact, hordered, hsources⟩ := hgoes.faithful
  have houtcomes : outcomesIn happened = outcomes := outcomesIn_flatMap c.extractions
  have hcomplete : deck.stats.status = .complete ↔ Listable d f ∧ c.fault = none := by
    refine ⟨hgoes.done_of_complete, fun ⟨hlistable, hdone⟩ => ?_⟩
    obtain ⟨after, hafter⟩ := hgoes.of_done hlistable hdone
    rw [show deck = _ from congrArg Prod.fst hafter]
    rfl
  refine ⟨?_, hgoes.snapshot_count, hordered, houtcomes ▸ hsources, houtcomes, hcounts, hcomplete,
    ?_, ?_⟩
  · intro front snapshot rest hmessages
    obtain ⟨htold, hbefore⟩ := hexact front snapshot rest hmessages
    refine ⟨htold, hbefore, ?_⟩
    rw [hbefore.processed, hbefore.discovered]
    exact Nat.le_trans ((List.take_sublist _ happened).count_le _)
      (count_finished_le sources f.options d inputs)
  · intro hstatus
    obtain ⟨hlistable, hdone⟩ := hcomplete.mp hstatus
    obtain ⟨after, hafter⟩ := hgoes.of_done hlistable hdone
    obtain ⟨hpaths, hfaults⟩ := course_done hdone
    refine ⟨listed_of_listable hlistable, hpaths, hfaults, ?_, ?_⟩
    · rw [hcounts.processed, hcounts.discovered, happenedIn, count_finished_of_done hfaults]
      exact course_length hdone
    · rw [show deck = _ from congrArg Prod.fst hafter]
      exact ⟨_, _, finish_messages _ _ _⟩
  · intro fault hfault
    obtain ⟨after, hafter, hcurrent⟩ := hgoes.of_fault hfault
    obtain ⟨done, p, x, rest, hextracted, hinputs, hx, hdone⟩ := course_faulted hfault
    have hprocessed : deck.stats.processed = done.length := by
      rw [hcounts.processed, happenedIn, Course.extractions, hextracted, List.map_append,
        List.map_singleton, count_finished_of_faulted hdone hx, List.length_map]
    rw [hextracted, List.foldl_append] at hcurrent
    rw [show deck = _ from congrArg Prod.fst hafter] at hprocessed ⊢
    refine ⟨rfl, done, p, x, rest, hinputs, hextracted, hdone, hx, hprocessed, after.messages, ?_⟩
    have hline : stopLine after.stats fault =
        styled "red" s!"Extraction stopped at {p.render}: {fault.message}" := by
      rw [stopLine, hcurrent]
      rfl
    rw [stoppedBy, finish_messages, hline]

/-- The second input stops the run between its outcomes. Alone, the first one is complete. -/
theorem burning_run_exact :
    let d := nestedDisk "x.cs"
    let deck := (run [burningSource] ⟨3, 5⟩ d ⟨"in", "out", true, false⟩).1
    let alone := (run [burningSource] ⟨3, 5⟩ d ⟨"in/a.pdb", "out", true, false⟩).1
    deck.stats.status = .error ∧ deck.stats.processed = 1 ∧ deck.stats.discovered = 2 ∧
    deck.stats.documents = 4 ∧ deck.stats.summary = ⟨0, 2, 2, 0, 0, 8⟩ ∧
    (∃ front, deck.messages = front ++ [.stats deck.stats,
      .log "[red]Extraction stopped at in/sub/b.pdb: disk on fire[/]"]) ∧
    alone.stats.status = .complete ∧ alone.stats.processed = alone.stats.discovered := by
  intro d deck alone
  let f : Form := ⟨"in", "out", true, false⟩
  have hfault : (course [burningSource] f.options d (listed d f)).fault =
      some (.other "disk on fire") := by
    decide +kernel
  have hcomplete : alone.stats.status = .complete := by decide +kernel
  have hcounts : deck.stats.processed = 1 ∧ deck.stats.discovered = 2 ∧
      deck.stats.documents = 4 ∧ deck.stats.summary = ⟨0, 2, 2, 0, 0, 8⟩ := by
    decide +kernel
  have hnames : (course [burningSource] f.options d (listed d f)).extracted.map Prod.fst =
      [⟨.relative, ["in", "a.pdb"]⟩] ++ [⟨.relative, ["in", "sub", "b.pdb"]⟩] := by
    decide +kernel
  obtain ⟨_, _, _, _, _, _, _, _, hstopped⟩ := progress_exact [burningSource] ⟨3, 5⟩ d f
  obtain ⟨hstatus, done, p, x, rest, _, hextracted, _, _, _, front, hmessages⟩ := hstopped _ hfault
  rw [hextracted, List.map_append] at hnames
  obtain rfl := List.singleton_inj.mp (List.append_inj' hnames rfl).2
  obtain ⟨hprocessed, hdiscovered, hdocuments, hsummary⟩ := hcounts
  obtain ⟨_, _, _, _, _, _, _, hdone, _⟩ :=
    progress_exact [burningSource] ⟨3, 5⟩ d ⟨"in/a.pdb", "out", true, false⟩
  obtain ⟨_, _, _, hall, _⟩ := hdone hcomplete
  exact ⟨hstatus, hprocessed, hdiscovered, hdocuments, hsummary, ⟨front, hmessages⟩, hcomplete,
    hall⟩

end Deck
end SourceRecovery
