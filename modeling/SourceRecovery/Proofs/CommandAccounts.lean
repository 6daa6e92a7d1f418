import SourceRecovery.Proofs.FrontEnds
import SourceRecovery.Proofs.VisitedInputs

/-! What the extracting command gives account of. Its counts, the records that it logs of outcomes
and its exit code agree, over any inputs that it comes upon and wherever a fault cuts it short. -/
namespace SourceRecovery

def Outcome.word : Outcome → String
  | .opened _ => "Open: "
  | .written _ => "Extract: "
  | .extractionIssue _ | .writeIssue _ | .containerIssue _ => "Failed: "
  | .skipped _ => "Skip: "

def BeginsWith (word text : String) : Prop := ∃ rest, text = word ++ rest

theorem BeginsWith.append {word text : String} (h : BeginsWith word text) (more : String) :
    BeginsWith word (text ++ more) := by
  obtain ⟨rest, rfl⟩ := h
  exact ⟨rest ++ more, String.append_assoc⟩

theorem beginsWith_append (word rest : String) : BeginsWith word (word ++ rest) := ⟨rest, rfl⟩

theorem Outcome.describe_word (o : Outcome) : BeginsWith o.word o.describe := by
  cases o with
  | opened o => exact (((beginsWith_append "Open: " o.source).append _).append _).append _
  | written f => exact beginsWith_append "Extract: " f.path.render
  | extractionIssue i => exact ((beginsWith_append "Failed: " i.document).append _).append _
  | writeIssue i => exact ((beginsWith_append "Failed: " i.path).append _).append _
  | containerIssue i => exact ((beginsWith_append "Failed: " i.source).append _).append _
  | skipped s => exact (((beginsWith_append "Skip: " s.source).append _).append _).append _

def Outcome.size? : Outcome → Option Nat
  | .written f => some f.size
  | _ => none

theorem Summary.foldl_record_totalBytes (outcomes : List Outcome) (s : Summary) :
    (outcomes.foldl record s).totalBytes =
      s.totalBytes + (outcomes.filterMap Outcome.size?).sum := by
  induction outcomes generalizing s with
  | nil => rfl
  | cons o rest ih =>
    rw [List.foldl_cons, ih]
    cases o with
    | written f => exact Nat.add_assoc _ _ _
    | _ => rfl

open Pipeline (Source Extraction Course course course_of_fault course_of_done burningSource)
open Discovery (visited Visits visitInputs_visits)

namespace Command

def LogLine.begins (level : Level) (word : String) (line : LogLine) : Bool :=
  line.level = level && word.toList.isPrefixOf line.text.toList

/-- The counts of outcomes can be read off the records. -/
structure Tallies (s : Summary) (records : List LogLine) : Prop where
  containers : s.containers = records.countP (LogLine.begins .debug "Open: ")
  written : s.written = records.countP (LogLine.begins .info "Extract: ")
  issues : s.issues = records.countP (LogLine.begins .warning "Failed: ")
  skipped : s.skipped = records.countP (LogLine.begins .warning "Skip: ")

theorem Tallies.record {s : Summary} {records : List LogLine} (h : Tallies s records)
    (o : Outcome) : Tallies (s.record o) (records ++ [outcomeLine o]) := by
  obtain ⟨hcontainers, hwritten, hissues, hskipped⟩ := h
  obtain ⟨rest, hrest⟩ := o.describe_word
  cases o <;> constructor <;>
    simp [LogLine.begins, outcomeLine, outcomeLevel, hrest, Outcome.word, Summary.record,
      hcontainers, hwritten, hissues, hskipped]

theorem Tallies.records {s : Summary} {records : List LogLine} (h : Tallies s records)
    (outcomes : List Outcome) :
    Tallies (outcomes.foldl Summary.record s) (records ++ outcomes.map outcomeLine) := by
  induction outcomes generalizing s records with
  | nil =>
    rw [List.map_nil, List.append_nil]
    exact h
  | cons o rest ih =>
    have hrest := ih (h.record o)
    rw [List.append_assoc] at hrest
    exact hrest

def closingLines (s : Summary) (options : Output.Options) : List LogLine :=
  [⟨.info, ""⟩, ⟨.info, closingLine s options⟩]

theorem closingLine_begins (s : Summary) (options : Output.Options) :
    BeginsWith "Extracted " (closingLine s options) := by
  have hword := beginsWith_append "Extracted " (toString s.written)
  exact (((hword.append _).append _).append _).append _

theorem Tallies.closing {s : Summary} {records : List LogLine} (h : Tallies s records)
    (options : Output.Options) : Tallies s (records ++ closingLines s options) := by
  obtain ⟨hcontainers, hwritten, hissues, hskipped⟩ := h
  obtain ⟨rest, hrest⟩ := closingLine_begins s options
  constructor <;>
    simp [LogLine.begins, closingLines, hrest, hcontainers, hwritten, hissues, hskipped]

theorem inputLines_no_error (x : Extraction) : ∀ line ∈ inputLines x, line.level ≠ .error := by
  intro line hline
  rcases List.mem_append.mp hline with hnote | houtcome
  · obtain ⟨note, _, rfl⟩ := List.mem_map.mp hnote
    exact fun h => by cases h
  · obtain ⟨o, _, rfl⟩ := List.mem_map.mp houtcome
    cases o <;> exact fun h => by cases h

/-- No input has a line like the one that closes the log. -/
theorem inputLines_no_closing (x : Extraction) :
    ∀ line ∈ inputLines x, line.begins .info "Extracted " = false := by
  intro line hline
  rcases List.mem_append.mp hline with hnote | houtcome
  · obtain ⟨note, _, rfl⟩ := List.mem_map.mp hnote
    rfl
  · obtain ⟨o, _, rfl⟩ := List.mem_map.mp houtcome
    obtain ⟨rest, hrest⟩ := o.describe_word
    cases o <;>
      simp [LogLine.begins, outcomeLine, outcomeLevel, hrest, Outcome.word, List.isPrefixOf]

theorem visits_account {sources : List Source} {options : Output.Options} {s after : Progress}
    {ps : List Path} {fault : Option Fault}
    (h : Visits (visitor sources options) s ps after fault) :
    let c := course sources options s.disk ps
    c.extracted.map Prod.fst = ps ∧ after.disk = c.disk ∧
      (∀ f, c.fault = some f → fault = some f) ∧
      account after = c.extractions.foldl (Account.add inputLines) (account s) := by
  induction h with
  | ended s fault => exact ⟨rfl, rfl, fun f hf => (by cases hf), rfl⟩
  | @faulted s p after fault h =>
    have haccount := extractInput_account sources options s p
    have hinput := extractInput_eq sources options s p
    have hvisit : extractInput sources options s p = (after, some fault) := h
    rw [hvisit] at haccount hinput
    obtain ⟨hafter, hfault⟩ := Prod.mk.inj hinput
    rw [course_of_fault hfault.symm]
    exact ⟨rfl, hafter ▸ rfl, fun f hf => hf, haccount⟩
  | @next s p between rest after fault h _ ih =>
    have haccount := extractInput_account sources options s p
    have hinput := extractInput_eq sources options s p
    have hvisit : extractInput sources options s p = (between, none) := h
    rw [hvisit] at haccount hinput
    obtain ⟨hbetween, hfault⟩ := Prod.mk.inj hinput
    have hdisk : between.disk = (Pipeline.extractFile sources options s.disk p).disk :=
      hbetween ▸ rfl
    rw [hdisk, haccount] at ih
    obtain ⟨hpaths, hafter, hlater, htold⟩ := ih
    rw [course_of_done hfault.symm]
    exact ⟨congrArg (p :: ·) hpaths, hafter, hlater, htold⟩

/-- What a run shows that has failed: a record that says so, and none that closes the log. -/
structure Run.Fails (r : Run) : Prop where
  exitCode : r.exitCode = 1
  one_error : (r.log.countP fun line => line.level = .error) = 1
  no_closing : ∀ line ∈ r.log, line.begins .info "Extracted " = false

/-- The ways in which extracting goes: there is no source to begin with, a fault is the end, or all
inputs are done. -/
inductive Goes (sources : List Source) (d : Disk) (selection : Selection)
    (options : Output.Options) : Progress × Ending → Prop
  | unbegun {ending} (hthere : d.exists? (Path.ofString selection.source) ≠ .ok true)
      (hending : ∃ text, ending.log = [⟨.error, text⟩]) :
      Goes sources d selection options ({ disk := d }, ending)
  | faulted {after fault} (hthere : d.exists? (Path.ofString selection.source) = .ok true)
      (hvisit : Discovery.visitInputs (visitor sources options) selection.query { disk := d } =
        (after, some fault)) :
      Goes sources d selection options (after, .fault fault)
  | completed {after} (hthere : d.exists? (Path.ofString selection.source) = .ok true)
      (hvisit : Discovery.visitInputs (visitor sources options) selection.query { disk := d } =
        (after, none)) :
      Goes sources d selection options (closed options after, .done)

theorem perform_goes (sources : List Source) (d : Disk) (selection : Selection) (output : String)
    (contain : Bool) :
    Goes sources d selection ⟨Path.ofString output, contain⟩
      (Request.perform sources { disk := d } (.extract selection output contain)) := by
  cases hthere : d.exists? (Path.ofString selection.source) with
  | error e =>
    simp only [Request.perform, requireInput, hthere]
    exact .unbegun (by rw [hthere]; simp) ⟨_, rfl⟩
  | ok there =>
    cases there with
    | false =>
      simp only [Request.perform, requireInput, hthere]
      exact .unbegun (by rw [hthere]; simp) ⟨_, rfl⟩
    | true =>
      cases hvisit : Discovery.visitInputs (visitor sources ⟨Path.ofString output, contain⟩)
          selection.query { disk := d } with
      | mk after fault =>
        cases fault with
        | none =>
          rw [perform_extract_of_visited (s := { disk := d }) hthere hvisit]
          exact .completed hthere hvisit
        | some fault =>
          have hplain := hvisit
          rw [visitor] at hplain
          have hperform : Request.perform sources { disk := d }
              (.extract selection output contain) = (after, .fault fault) := by
            simp only [Request.perform, requireInput, hthere, extractAll, hplain]
            rfl
          rw [hperform]
          exact .faulted hthere hvisit

section

variable {sources : List Source} {d : Disk} {selection : Selection} {options : Output.Options}
variable {ended : Progress × Ending} {after : Progress} {fault : Fault}

theorem Goes.of_visited (h : Goes sources d selection options ended)
    (hthere : d.exists? (Path.ofString selection.source) = .ok true)
    (hvisit : Discovery.visitInputs (visitor sources options) selection.query { disk := d } =
      (after, none)) : ended = (closed options after, .done) := by
  cases h with
  | unbegun hnot => exact absurd hthere hnot
  | faulted _ hfaulted => cases hvisit.symm.trans hfaulted
  | completed _ hcompleted =>
    cases hvisit.symm.trans hcompleted
    rfl

theorem Goes.of_fault (h : Goes sources d selection options ended)
    (hthere : d.exists? (Path.ofString selection.source) = .ok true)
    (hvisit : Discovery.visitInputs (visitor sources options) selection.query { disk := d } =
      (after, some fault)) : ended = (after, .fault fault) := by
  cases h with
  | unbegun hnot => exact absurd hthere hnot
  | faulted _ hfaulted =>
    cases hvisit.symm.trans hfaulted
    rfl
  | completed _ hcompleted => cases hvisit.symm.trans hcompleted

theorem Goes.of_no_source (h : Goes sources d selection options ended)
    (hthere : d.exists? (Path.ofString selection.source) ≠ .ok true) :
    ∃ ending text, ended = ({ disk := d }, ending) ∧ ending.log = [⟨.error, text⟩] := by
  cases h with
  | @unbegun ending _ hending =>
    obtain ⟨text, htext⟩ := hending
    exact ⟨ending, text, rfl, htext⟩
  | faulted hfound | completed hfound => exact absurd hfound hthere

end

theorem shownLog_append (verbose : Bool) (front rest : List LogLine) :
    shownLog verbose (front ++ rest) = shownLog verbose front ++ shownLog verbose rest :=
  List.filter_append _ _

theorem fails_of_error {r : Run} {verbose : Bool} {extractions : List Extraction} {text : String}
    (hcode : r.exitCode = 1)
    (hlog : r.log = shownLog verbose (extractions.flatMap inputLines ++ [⟨.error, text⟩])) :
    r.Fails := by
  have hshown : ∀ line ∈ shownLog verbose (extractions.flatMap inputLines),
      ∃ x ∈ extractions, line ∈ inputLines x := by
    intro line hline
    exact List.mem_flatMap.mp (List.mem_filter.mp hline).1
  have hlast : shownLog verbose [⟨.error, text⟩] = [⟨.error, text⟩] := by
    cases verbose <;> rfl
  rw [shownLog_append, hlast] at hlog
  refine ⟨hcode, ?_, ?_⟩
  · rw [hlog, List.countP_append, List.countP_eq_zero.mpr]
    · rfl
    · intro line hline
      obtain ⟨x, _, hx⟩ := hshown line hline
      simpa using inputLines_no_error x line hx
  · rw [hlog]
    intro line hline
    rcases List.mem_append.mp hline with hinput | herror
    · obtain ⟨x, _, hx⟩ := hshown line hinput
      exact inputLines_no_closing x line hx
    · cases List.mem_singleton.mp herror
      rfl

theorem run_of_extract (sources : List Source) (d : Disk) {arguments : List String}
    {verbose : Bool} {request : Request}
    (h : Invocation.ofArguments arguments = .ok ⟨verbose, request⟩) :
    let performed := request.perform sources { disk := d }
    let r := run sources d arguments
    r.exitCode = performed.2.exitCode ∧ r.disk = performed.1.disk ∧
      r.log = shownLog verbose (performed.1.log ++ performed.2.log) := by
  simp only [run, h, Invocation.run, and_self]

/-- What has been logged, counted and left on the disk when the inputs come to an end. -/
theorem visited_account (sources : List Source) (options : Output.Options) (d : Disk)
    (query : Discovery.Query) :
    let looked := Discovery.visitInputs (visitor sources options) query { disk := d }
    let inputs := visited (visitor sources options) query { disk := d }
    let c := course sources options d inputs
    c.extracted.map Prod.fst = inputs ∧ looked.1.disk = c.disk ∧
      (∀ fault, c.fault = some fault → looked.2 = some fault) ∧
      looked.1.log = c.extractions.flatMap inputLines ∧
      looked.1.summary = { (outcomesOf c.extractions).foldl Summary.record {} with
        inputs := inputs.length } := by
  intro looked inputs c
  have hvisits : Visits (visitor sources options) { disk := d } inputs looked.1 looked.2 :=
    visitInputs_visits (visitor sources options) query { disk := d }
  obtain ⟨hpaths, hdisk, hfault, haccount⟩ := visits_account hvisits
  have hlength : c.extractions.length = inputs.length := by
    rw [← congrArg List.length hpaths, Course.extractions, List.length_map, List.length_map]
  have hbegun : account { disk := d } = ⟨0, {}, []⟩ := rfl
  rw [Account.foldl_add, hbegun, Nat.zero_add, List.nil_append, hlength] at haccount
  exact ⟨hpaths, hdisk, hfault, congrArg Account.lines haccount, summary_of_account haccount⟩

theorem run_of_closed {sources : List Source} {d : Disk} {arguments : List String}
    {verbose : Bool} {request : Request} {options : Output.Options} {after : Progress} {n : Nat}
    {extractions : List Extraction}
    (h : Invocation.ofArguments arguments = .ok ⟨verbose, request⟩)
    (hended : request.perform sources { disk := d } = (closed options after, .done))
    (hlog : after.log = extractions.flatMap inputLines)
    (hsummary : after.summary =
      { (outcomesOf extractions).foldl Summary.record {} with inputs := n }) :
    let summary := (request.perform sources { disk := d }).1.summary
    let r := run sources d arguments
    let outcomes := outcomesOf extractions
    r.exitCode = 0 ∧ r.disk = after.disk ∧ summary.inputs = n ∧
      Tallies summary (outcomes.map outcomeLine ++ closingLines summary options) ∧
      summary.totalBytes = (outcomes.filterMap Outcome.size?).sum ∧
      r.log = shownLog verbose (extractions.flatMap inputLines ++ closingLines summary options) := by
  intro summary r outcomes
  obtain ⟨hcode, hleft, hshown⟩ := run_of_extract sources d h
  have hcounts : summary = after.summary := congrArg (·.1.summary) hended
  rw [hended] at hcode hleft hshown
  have hrecords : Tallies summary (outcomes.map outcomeLine) := by
    have hnone : Tallies {} [] := ⟨rfl, rfl, rfl, rfl⟩
    obtain ⟨hcontainers, hwritten, hissues, hskipped⟩ := hnone.records outcomes
    rw [hcounts, hsummary]
    exact ⟨hcontainers, hwritten, hissues, hskipped⟩
  have hclosed : (closed options after).log =
      extractions.flatMap inputLines ++ closingLines summary options := by
    rw [hcounts, ← hlog]
    exact congrArg Account.lines (closed_account options after)
  refine ⟨hcode, hleft, ?_, hrecords.closing options, ?_, ?_⟩
  · rw [hcounts, hsummary]
  · rw [hcounts, hsummary]
    exact (Summary.foldl_record_totalBytes outcomes {}).trans (Nat.zero_add _)
  · rw [hshown, hclosed]
    exact congrArg (shownLog verbose) (List.append_nil _)

/-- A run that comes upon inputs and looks for them without a fault exits with 0, whatever becomes
of their documents, and its counts are those of the inputs, of its own records and of the bytes
written. Any other run exits with 1, shows one error and no closing line, and leaves what was
written until then. -/
theorem extraction_accounted (sources : List Source) (d : Disk) {arguments : List String}
    {verbose contain : Bool} {selection : Selection} {output : String}
    (h : Invocation.ofArguments arguments = .ok ⟨verbose, .extract selection output contain⟩) :
    let options : Output.Options := ⟨Path.ofString output, contain⟩
    let there := d.exists? (Path.ofString selection.source)
    let looked := Discovery.visitInputs (visitor sources options) selection.query { disk := d }
    let inputs := visited (visitor sources options) selection.query { disk := d }
    let c := course sources options d inputs
    let outcomes := outcomesOf c.extractions
    let summary :=
      (Request.perform sources { disk := d } (.extract selection output contain)).1.summary
    let r := run sources d arguments
    (∀ fault, c.fault = some fault → looked.2 = some fault) ∧
    c.extracted.map Prod.fst = inputs ∧
    (there = .ok true → looked.2 = none →
      r.exitCode = 0 ∧ r.disk = c.disk ∧ summary.inputs = inputs.length ∧
      Tallies summary (outcomes.map outcomeLine ++ closingLines summary options) ∧
      summary.totalBytes = (outcomes.filterMap Outcome.size?).sum ∧
      r.log = shownLog verbose (c.extractions.flatMap inputLines ++ [⟨.info, ""⟩,
      ⟨.info, s!"Extracted {summary.written} files from {summary.containers} containers " ++
      s!"({summary.issues} failed, {summary.skipped} skipped) -> {options.destination.render}"⟩])) ∧
    (there = .ok true → ∀ fault, looked.2 = some fault →
      r.Fails ∧ r.disk = c.disk ∧
      r.log = shownLog verbose (c.extractions.flatMap inputLines ++
        [⟨.error, s!"{programName}: an error occurred, {fault.message}"⟩])) ∧
    (there ≠ .ok true → r.Fails ∧ r.disk = d) := by
  intro options there looked inputs c outcomes summary r
  obtain ⟨hpaths, hdisk, hfault, hlog, hsummary⟩ :=
    visited_account sources options d selection.query
  obtain ⟨hcode, hleft, hshown⟩ := run_of_extract sources d h
  have hgoes := perform_goes sources d selection output contain
  refine ⟨hfault, hpaths, fun hthere hdone => ?_, fun hthere fault hstopped => ?_, fun hthere => ?_⟩
  · have hended := hgoes.of_visited hthere (Prod.ext rfl hdone)
    obtain ⟨hcode, hleft, hinputs, hrecords, hbytes, hshown⟩ :=
      run_of_closed h hended hlog hsummary
    exact ⟨hcode, hleft.trans hdisk, hinputs, hrecords, hbytes, hshown⟩
  · have hended := hgoes.of_fault hthere (Prod.ext rfl hstopped)
    rw [hended] at hcode hleft hshown
    dsimp only at hshown
    rw [hlog] at hshown
    exact ⟨fails_of_error hcode hshown, hleft.trans hdisk, hshown⟩
  · obtain ⟨ending, text, hended, htext⟩ := hgoes.of_no_source hthere
    rw [hended] at hcode hleft hshown
    have hone : ending.exitCode = 1 := by
      cases ending with
      | done => cases htext
      | _ => rfl
    have hfails : r.Fails := by
      dsimp only at hshown
      rw [htext] at hshown
      have hno_input : shownLog verbose ([] ++ [⟨.error, text⟩]) =
          shownLog verbose (List.flatMap inputLines [] ++ [⟨.error, text⟩]) := rfl
      exact fails_of_error (hcode.trans hone) (hshown.trans hno_input)
    exact ⟨hfails, hleft⟩

/-- One run that comes to an end, one that a fault cuts short and one without a source. -/
theorem burning_extraction_accounted :
    let d := nestedDisk "x.cs"
    let whole := run [burningSource] d ["extract", "in/a.pdb", "-o", "out"]
    let burnt := run [burningSource] d ["-v", "extract", "in", "-r", "-o", "out"]
    let missing := run [burningSource] d ["extract", "nowhere"]
    whole.exitCode = 0 ∧ whole.log = [⟨.info, "Extract: /w/out/a.pdb.cs"⟩, ⟨.info, ""⟩,
      ⟨.info, "Extracted 1 files from 1 containers (0 failed, 0 skipped) -> out"⟩] ∧
    burnt.Fails ∧
    burnt.disk.entry? ["b.pdb.cs", "out", "w"] = some (.file [0xEF, 0xBB, 0xBF, 65]) ∧
    missing.Fails ∧ missing.disk = d := by
  intro d whole burnt missing
  have hwhole : Invocation.ofArguments ["extract", "in/a.pdb", "-o", "out"] =
      .ok ⟨false, .extract ⟨"in/a.pdb", false, []⟩ "out" false⟩ := rfl
  have hburnt : Invocation.ofArguments ["-v", "extract", "in", "-r", "-o", "out"] =
      .ok ⟨true, .extract ⟨"in", true, []⟩ "out" false⟩ := rfl
  have hmissing : Invocation.ofArguments ["extract", "nowhere"] =
      .ok ⟨false, .extract ⟨"nowhere", false, []⟩ "." false⟩ := rfl
  obtain ⟨_, _, hdone, _⟩ := extraction_accounted [burningSource] d hwhole
  obtain ⟨_, _, _, hstopped, _⟩ := extraction_accounted [burningSource] d hburnt
  obtain ⟨_, _, _, _, hnowhere⟩ := extraction_accounted [burningSource] d hmissing
  have hgone : d.exists? (Path.ofString "nowhere") = .ok false := rfl
  obtain ⟨hcode, _⟩ := hdone rfl (by decide +kernel)
  obtain ⟨hfails, _⟩ := hstopped rfl (.other "disk on fire") (by decide +kernel)
  obtain ⟨hno, hsame⟩ := hnowhere fun hthere => by cases hgone.symm.trans hthere
  exact ⟨hcode, by decide +kernel, hfails, by decide +kernel, hno, hsame⟩

end Command
end SourceRecovery
