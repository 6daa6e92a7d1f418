import SourceRecovery.Pdb.Writer
import SourceRecovery.Proofs.LazyDiscovery

/-! The two front-ends that extract. The command looks for inputs while it extracts them and the
deck lists them first, but what each makes of an input is the same extraction on the disk that the
inputs before it have left. So they differ only if extracting changes which inputs are found. -/
namespace SourceRecovery

theorem feed_length {σ α β : Type} (act : σ → α → σ × β) (s : σ) (as : List α) :
    (feed act s as).2.length = as.length := by
  induction as generalizing s with
  | nil => rfl
  | cons a rest ih => simp only [feed, List.length_cons, ih]

theorem Discovery.foldUntil_same {σ α β : Type} {step : σ → α → σ × Option Fault} (view : σ → β)
    (h : ∀ s a, view (step s a).1 = view s) (as : List α) (s : σ) :
    view (foldUntil step as s).1 = view s := by
  induction as generalizing s with
  | nil => rfl
  | cons a rest ih =>
    have hone := h s a
    rw [foldUntil]
    split <;> rename_i after hstep <;> rw [hstep] at hone
    · exact (ih _).trans hone
    · exact hone

namespace Pipeline

def extractNext (sources : List Source) (options : Output.Options) (d : Disk) (p : Path) :
    Disk × Extraction :=
  let extraction := extractFile sources options d p
  (extraction.disk, extraction)

/-- A visitor that extracts each input: it goes on where the outcomes have left the disk, stops
where they stop and gives account of them. -/
structure Extracts {σ γ : Type} (sources : List Source) (options : Output.Options)
    (v : Discovery.Visitor σ) (account : σ → Account γ) (linesOf : Extraction → List γ) : Prop where
  disk : ∀ s p, v.disk (v.visit s p).1 = (extractFile sources options (v.disk s) p).disk
  fault : ∀ s p, (v.visit s p).2 = (extractFile sources options (v.disk s) p).outcomes.fault
  told : ∀ s p, (v.visit s p).2 = none →
    account (v.visit s p).1 = (account s).add linesOf (extractFile sources options (v.disk s) p)

namespace Extracts

variable {σ γ : Type} {sources : List Source} {options : Output.Options} {v : Discovery.Visitor σ}
variable {account : σ → Account γ} {linesOf : Extraction → List γ} {s : σ} {d : Disk}

theorem adding (h : Extracts sources options v account linesOf) : v.Adding := by
  intro s p hs
  rw [h.disk]
  exact extractFile_adds hs sources options p

theorem faultless_iff (h : Extracts sources options v account linesOf) (hs : v.disk s = d)
    (ps : List Path) :
    (Discovery.foldUntil v.visit ps s).2 = none ↔
      ∀ x ∈ (feed (extractNext sources options) d ps).2, x.outcomes.fault = none := by
  induction ps generalizing s d with
  | nil => exact iff_of_true rfl fun _ hnone => absurd hnone List.not_mem_nil
  | cons p rest ih =>
    subst hs
    have hdisk := h.disk s p
    have hfault := h.fault s p
    rw [Discovery.foldUntil]
    simp only [feed, extractNext, List.forall_mem_cons, ← hfault]
    cases hvisit : v.visit s p with
    | mk after fault =>
      rw [hvisit] at hdisk
      cases fault with
      | some fault => exact iff_of_false (by simp) fun hnone => by cases hnone.1
      | none => exact (ih hdisk).trans (and_iff_right rfl).symm

theorem run (h : Extracts sources options v account linesOf) (hs : v.disk s = d) {ps : List Path}
    (hfaultless : (Discovery.foldUntil v.visit ps s).2 = none) :
    let extracted := feed (extractNext sources options) d ps
    let after := (Discovery.foldUntil v.visit ps s).1
    v.disk after = extracted.1 ∧
      account after = ⟨(account s).inputs + ps.length,
        (outcomesOf extracted.2).foldl Summary.record (account s).summary,
        (account s).lines ++ extracted.2.flatMap linesOf⟩ := by
  suffices hfold : v.disk (Discovery.foldUntil v.visit ps s).1 =
      (feed (extractNext sources options) d ps).1 ∧
      account (Discovery.foldUntil v.visit ps s).1 =
        (feed (extractNext sources options) d ps).2.foldl (Account.add linesOf) (account s) by
    rw [Account.foldl_add, feed_length] at hfold
    exact hfold
  induction ps generalizing s d with
  | nil => exact ⟨hs, rfl⟩
  | cons p rest ih =>
    subst hs
    have hdisk := h.disk s p
    have htold := h.told s p
    rw [Discovery.foldUntil] at hfaultless ⊢
    simp only [feed, extractNext, List.foldl_cons]
    cases hvisit : v.visit s p with
    | mk after fault =>
      rw [hvisit] at hfaultless htold hdisk
      cases fault with
      | some fault => cases hfaultless
      | none =>
        obtain ⟨hlast, hview⟩ := ih hdisk hfaultless
        rw [← htold rfl]
        exact ⟨hlast, hview⟩

end Extracts

end Pipeline

open Pipeline

namespace Command

variable (sources : List Source) (options : Output.Options)

def visitor : Discovery.Visitor Progress := ⟨Progress.disk, extractInput sources options⟩

theorem visitor_extracts :
    Extracts sources options (visitor sources options) account inputLines := by
  constructor
  · intro s p
    have hvisit : (visitor sources options).visit s p = _ := extractInput_eq sources options s p
    rw [hvisit]
    rfl
  · intro s p
    have hvisit : (visitor sources options).visit s p = _ := extractInput_eq sources options s p
    rw [hvisit]
    rfl
  · intro s p _
    exact extractInput_account sources options s p

def closed (options : Output.Options) (s : Progress) : Progress :=
  (s.info "").info (closingLine s.summary options)

theorem closed_account (s : Progress) :
    account (closed options s) = ⟨s.summary.inputs, { s.summary with inputs := 0 },
      s.log ++ [⟨.info, ""⟩, ⟨.info, closingLine s.summary options⟩]⟩ := by
  simp only [account, closed, Progress.info, Progress.addLog, List.append_assoc]
  rfl

theorem perform_extract_of_visited {sources : List Source} {selection : Selection} {output : String}
    {contain : Bool} {s after : Progress}
    (hthere : s.disk.exists? (Path.ofString selection.source) = .ok true)
    (hvisited : Discovery.visitInputs (visitor sources ⟨Path.ofString output, contain⟩)
      selection.query s = (after, none)) :
    Request.perform sources s (.extract selection output contain) =
      (closed ⟨Path.ofString output, contain⟩ after, .done) := by
  rw [visitor] at hvisited
  rw [Request.perform, requireInput, hthere]
  simp only [extractAll, hvisited]
  rfl

/-- Extracting tells of all the inputs that were there at first, if these can be extracted and
looking for them afterwards finds the same. -/
theorem perform_extract_told {sources : List Source} {d : Disk} (hd : d.IsTree)
    (selection : Selection) (output : String) (contain : Bool)
    (hthere : d.exists? (Path.ofString selection.source) = .ok true)
    (hfault : (Discovery.inputs d selection.query).fault = none) :
    let options : Output.Options := ⟨Path.ofString output, contain⟩
    let inputs := (Discovery.inputs d selection.query).items
    let extracted := feed (extractNext sources options) d inputs
    let outcomes := outcomesOf extracted.2
    let command := Request.perform sources { disk := d } (.extract selection output contain)
    (∀ x ∈ extracted.2, x.outcomes.fault = none) →
    Discovery.Steady d extracted.1 selection.query →
      command.2 = .done ∧ command.1.disk = extracted.1 ∧
      account command.1 = ⟨inputs.length, outcomes.foldl Summary.record {},
        extracted.2.flatMap inputLines ++
          [⟨.info, ""⟩, ⟨.info, closingLine command.1.summary options⟩]⟩ := by
  intro options inputs extracted outcomes command hfaults hsteady
  have hvisitor := visitor_extracts sources options
  have hstart : (visitor sources options).disk { disk := d } = d := rfl
  have hfaultless := (hvisitor.faultless_iff hstart inputs).mpr hfaults
  obtain ⟨hdisk, haccount⟩ := hvisitor.run hstart hfaultless
  have hvisited : Discovery.visitInputs (visitor sources options) selection.query { disk := d } =
      Discovery.foldUntil (visitor sources options).visit inputs { disk := d } :=
    Discovery.visitInputs_eq hvisitor.adding hstart hd hfault hfaultless hdisk hsteady
  cases hvisit : Discovery.foldUntil (visitor sources options).visit inputs { disk := d } with
  | mk after fault =>
    rw [hvisit] at hvisited hfaultless hdisk haccount
    dsimp only at hfaultless
    subst hfaultless
    have hcommand : command = (closed options after, .done) :=
      perform_extract_of_visited hthere hvisited
    have hafter : account after = ⟨inputs.length, outcomes.foldl Summary.record {},
        extracted.2.flatMap inputLines⟩ := by
      have hbegun : account { disk := d } = ⟨0, {}, []⟩ := rfl
      rw [haccount, hbegun]
      simp only [Nat.zero_add, List.nil_append, outcomes, extracted]
    obtain ⟨hinputs, hsummary, hlog⟩ := Account.mk.inj hafter
    rw [hcommand]
    refine ⟨rfl, hdisk, ?_⟩
    rw [closed_account, hinputs, hsummary, hlog]
    rfl

end Command

namespace Deck

variable (sources : List Source) (options : Output.Options)

def visitor : Discovery.Visitor Progress := ⟨Progress.disk, extractInput sources options⟩

theorem visitor_extracts :
    Extracts sources options (visitor sources options) account inputMessages := by
  constructor
  · intro s p
    exact (extractInput_spec sources options s p).1
  · intro s p
    exact (extractInput_spec sources options s p).2.1
  · intro s p
    exact (extractInput_spec sources options s p).2.2.2

def found (clock : Clock) (d : Disk) (f : Form) (count : Nat) : Progress :=
  let stats : Stats :=
    { status := .running, startTime := some clock.start, discovered := count }
  ⟨d, stats, [.stats stats, .log s!"{count} input file(s) in {f.source}"]⟩

def closed (clock : Clock) (f : Form) (s : Progress) : Progress :=
  { s with
    stats := { s.stats with endTime := some clock.finish, currentFile := "" } }.finish .complete
      (closingLine s.stats.summary f.options)

theorem closed_account (clock : Clock) (f : Form) (s : Progress) :
    account (closed clock f s) = ⟨s.stats.processed, s.stats.summary,
      told s.messages ++ [.log (closingLine s.stats.summary f.options)]⟩ := by
  simp only [account, closed, Progress.finish, Progress.postStats, Progress.post, told_append,
    List.append_assoc]
  rfl

theorem run_of_found (sources : List Source) (clock : Clock) {d : Disk} {f : Form}
    (hthere : d.exists? (Path.ofString f.source) = .ok true)
    (hfault : (Discovery.inputs d f.query).fault = none) :
    let inputs := (Discovery.inputs d f.query).items
    run sources clock d f =
      (extractAll sources clock f inputs (found clock d f inputs.length), none) := by
  simp only [run, hthere, hfault]
  rfl

theorem extractAll_eq {sources : List Source} (clock : Clock) {f : Form} {inputs : List Path}
    {s after : Progress} {fault : Option Fault}
    (h : Discovery.foldUntil (visitor sources f.options).visit inputs s = (after, fault)) :
    match fault with
    | none => extractAll sources clock f inputs s = closed clock f after
    | some _ => (extractAll sources clock f inputs s).stats.status = .error := by
  have hfold : Discovery.foldUntil (extractInput sources f.options) inputs s = (after, fault) := h
  rw [extractAll, hfold]
  cases fault <;> rfl

theorem run_of_complete {sources : List Source} {clock : Clock} {d : Disk} {f : Form}
    (h : (run sources clock d f).1.stats.status = .complete) :
    let inputs := (Discovery.inputs d f.query).items
    d.exists? (Path.ofString f.source) = .ok true ∧
      (Discovery.inputs d f.query).fault = none ∧
      ∃ after, Discovery.foldUntil (visitor sources f.options).visit inputs
          (found clock d f inputs.length) = (after, none) ∧
        run sources clock d f = (closed clock f after, none) := by
  intro inputs
  have hlisted : d.exists? (Path.ofString f.source) = .ok true ∧
      (Discovery.inputs d f.query).fault = none := by
    unfold run at h
    cases hthere : d.exists? (Path.ofString f.source) with
    | error err =>
      rw [hthere] at h
      cases h
    | ok there =>
      rw [hthere] at h
      cases there with
      | false => cases h
      | true =>
        refine ⟨rfl, ?_⟩
        cases hfault : (Discovery.inputs d f.query).fault with
        | none => rfl
        | some fault =>
          dsimp only at h
          rw [hfault] at h
          dsimp only at h
          split at h <;> cases h
  obtain ⟨hthere, hfault⟩ := hlisted
  refine ⟨hthere, hfault, ?_⟩
  have hrun := run_of_found sources clock hthere hfault
  cases hvisit : Discovery.foldUntil (visitor sources f.options).visit inputs
      (found clock d f inputs.length) with
  | mk after fault =>
    have hall := extractAll_eq clock hvisit
    rw [hrun] at h ⊢
    cases fault with
    | some fault => cases hall.symm.trans h
    | none => exact ⟨after, rfl, congrArg (·, none) hall⟩

/-- A complete run has told of all the inputs that were there before it. -/
theorem run_told {sources : List Source} {clock : Clock} {d : Disk} {f : Form}
    (h : (run sources clock d f).1.stats.status = .complete) :
    let deck := run sources clock d f
    let inputs := (Discovery.inputs d f.query).items
    let extracted := feed (extractNext sources f.options) d inputs
    let outcomes := outcomesOf extracted.2
    deck.2 = none ∧ deck.1.disk = extracted.1 ∧ deck.1.stats.discovered = inputs.length ∧
      (∀ x ∈ extracted.2, x.outcomes.fault = none) ∧
      account deck.1 = ⟨inputs.length, outcomes.foldl Summary.record {},
        .log s!"{inputs.length} input file(s) in {f.source}" ::
          (outcomes.flatMap outcomeMessages ++
            [.log (closingLine deck.1.stats.summary f.options)])⟩ := by
  intro deck inputs extracted outcomes
  obtain ⟨_, _, after, hvisit, hdeck⟩ := run_of_complete h
  have hvisitor := visitor_extracts sources f.options
  have hfaultless := congrArg Prod.snd hvisit
  have hstart : (visitor sources f.options).disk (found clock d f inputs.length) = d := rfl
  have hfaults := (hvisitor.faultless_iff hstart inputs).mp hfaultless
  obtain ⟨hdisk, haccount⟩ := hvisitor.run hstart hfaultless
  have hdiscovered := Discovery.foldUntil_same (fun s => s.stats.discovered)
    (fun s p => (extractInput_spec sources f.options s p).2.2.1) inputs
    (found clock d f inputs.length)
  have hlines : extracted.2.flatMap inputMessages = outcomes.flatMap outcomeMessages :=
    List.flatMap_assoc.symm
  have hvisit' : Discovery.foldUntil (extractInput sources f.options) inputs
      (found clock d f inputs.length) = (after, none) := hvisit
  rw [hvisit] at hdisk haccount
  rw [hvisit'] at hdiscovered
  have hafter : account after = ⟨inputs.length, outcomes.foldl Summary.record {},
      .log s!"{inputs.length} input file(s) in {f.source}" ::
        outcomes.flatMap outcomeMessages⟩ := by
    have hfound : account (found clock d f inputs.length) =
        ⟨0, {}, [.log s!"{inputs.length} input file(s) in {f.source}"]⟩ := rfl
    rw [haccount, hfound, ← hlines]
    simp only [Nat.zero_add, List.singleton_append, outcomes, extracted, inputs]
  obtain ⟨hprocessed, hsummary, htold⟩ := Account.mk.inj hafter
  have hdeck : deck = (closed clock f after, none) := hdeck
  rw [hdeck]
  refine ⟨rfl, hdisk, hdiscovered, hfaults, ?_⟩
  rw [closed_account, hprocessed, hsummary, htold]
  have hclosed : (closed clock f after).stats.summary = after.stats.summary := rfl
  rw [hclosed, hsummary]
  rfl

end Deck

/-- The command and the deck agree. If the deck completes, and looking for inputs afterwards finds
the same as before as far as names go that the source had, then the command is done as well. Both
extract the inputs that were there before the run, in one order and with the same outcomes, counts
and tree. -/
theorem front_ends_agree (sources : List Source) (clock : Deck.Clock) {d : Disk} (hd : d.IsTree)
    (f : Deck.Form) (hcomplete : (Deck.run sources clock d f).1.stats.status = .complete)
    (hsteady : Discovery.Steady d (Deck.run sources clock d f).1.disk f.query) :
    let deck := Deck.run sources clock d f
    let command := Command.Request.perform sources { disk := d }
      (.extract ⟨f.source, f.recursive, []⟩ f.output f.contain)
    let inputs := (Discovery.inputs d f.query).items
    let extracted := feed (extractNext sources f.options) d inputs
    let outcomes := outcomesOf extracted.2
    deck.2 = none ∧ command.2 = .done ∧
    deck.1.disk = extracted.1 ∧ command.1.disk = extracted.1 ∧
    deck.1.stats.discovered = inputs.length ∧ deck.1.stats.processed = inputs.length ∧
    deck.1.stats.summary = outcomes.foldl Summary.record {} ∧
    command.1.summary = { deck.1.stats.summary with inputs := inputs.length } ∧
    Deck.told deck.1.messages =
      .log s!"{inputs.length} input file(s) in {f.source}" ::
        (outcomes.flatMap Deck.outcomeMessages ++
          [.log (Deck.closingLine deck.1.stats.summary f.options)]) ∧
    command.1.log = extracted.2.flatMap Command.inputLines ++
      [⟨.info, ""⟩, ⟨.info, Command.closingLine command.1.summary f.options⟩] := by
  intro deck command inputs extracted outcomes
  obtain ⟨hthere, hfault, _, _⟩ := Deck.run_of_complete hcomplete
  obtain ⟨hdeck, hdisk, hdiscovered, hfaults, htold⟩ := Deck.run_told hcomplete
  rw [hdisk] at hsteady
  obtain ⟨hdone, hdisk', htold'⟩ := Command.perform_extract_told hd ⟨f.source, f.recursive, []⟩
    f.output f.contain hthere hfault hfaults hsteady
  obtain ⟨hprocessed, hcounts, hmessages⟩ := Account.mk.inj htold
  refine ⟨hdeck, hdone, hdisk, hdisk', hdiscovered, hprocessed, hcounts, ?_, hmessages,
    congrArg Account.lines htold'⟩
  rw [show deck.1.stats.summary = _ from hcounts]
  exact Command.summary_of_account htold'

def singlePdb (name : String) : Bytes :=
  Pdb.Writer.write ⟨[⟨name, [⟨embeddedSourceKind, [0, 0, 0, 0, 65]⟩]⟩], 0, 0, false⟩

def nestedDisk (name : String) : Disk where
  workingDirectory := ⟨.root, ["w"]⟩
  entries := [(["w"], .directory), (["in", "w"], .directory),
    (["a.pdb", "in", "w"], .file (singlePdb name)), (["sub", "in", "w"], .directory),
    (["b.pdb", "sub", "in", "w"], .file (singlePdb name))]

def nestedForm : Deck.Form := ⟨"in", "in", true, false⟩

theorem nested_extraction_agrees :
    let d := nestedDisk "sub/deep/x.cs"
    let deck := Deck.run builtinSources ⟨0, 0⟩ d nestedForm
    let command := Command.Request.perform builtinSources { disk := d }
      (.extract ⟨"in", true, []⟩ "in" false)
    command.2 = .done ∧ command.1.disk = deck.1.disk ∧ command.1.summary = ⟨2, 2, 2, 0, 0, 8⟩ := by
  intro d deck command
  have hinputs : Discovery.inputs d nestedForm.query =
      .ofList [⟨.relative, ["in", "a.pdb"]⟩, ⟨.relative, ["in", "sub", "b.pdb"]⟩] := by
    decide +kernel
  have hdeck : deck.1.stats.status = .complete ∧ deck.1.stats.summary = ⟨0, 2, 2, 0, 0, 8⟩ ∧
      Discovery.inputs deck.1.disk nestedForm.query = Discovery.inputs d nestedForm.query := by
    decide +kernel
  obtain ⟨hcomplete, hcounts, hsame⟩ := hdeck
  obtain ⟨_, hdone, hdisk, hdisk', _, _, _, hsummary, _⟩ :=
    front_ends_agree builtinSources ⟨0, 0⟩ (d := d) (by decide +kernel) nestedForm hcomplete
      (.of_eq (hinputs ▸ rfl) hsame)
  refine ⟨hdone, hdisk'.trans hdisk.symm, hsummary.trans ?_⟩
  rw [show (Deck.run builtinSources ⟨0, 0⟩ d nestedForm).1.stats.summary = _ from hcounts, hinputs]
  rfl

/-- A document that looks like an input is one for the command if it is written where the command
has not been yet. The deck does not see it. -/
example :
    let d := nestedDisk "sub/deep/z.pdb"
    let deck := Deck.run builtinSources ⟨0, 0⟩ d nestedForm
    let command := Command.Request.perform builtinSources { disk := d }
      (.extract ⟨"in", true, []⟩ "in" false)
    deck.1.stats.summary = ⟨0, 2, 2, 0, 0, 8⟩ ∧ command.1.summary = ⟨3, 2, 2, 0, 1, 8⟩ := by
  decide +kernel

end SourceRecovery
