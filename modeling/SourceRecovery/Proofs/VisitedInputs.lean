import SourceRecovery.Proofs.InputSearch

/-! Input files as they are handed to a visitor, one at a time and the next one looked for only when
it is done with the last, and what comes of extracting inputs in the order in which they are handed
over. In both a fault is the end. -/
namespace SourceRecovery

namespace Discovery

variable {σ α : Type} {v : Visitor σ}

def Visitor.recording (v : Visitor σ) : Visitor (σ × List Path) where
  disk := fun s => v.disk s.1
  visit := fun s p => (((v.visit s.1 p).1, s.2 ++ [p]), (v.visit s.1 p).2)

def visited (v : Visitor σ) (q : Query) (s : σ) : List Path :=
  (visitInputs v.recording q (s, [])).1.2

/-- Visits to files one after the other, with the state and the fault that they end in. That is a
fault of the last visit or one of the search, which goes on when a visit is over. -/
inductive Visits (v : Visitor σ) : σ → List Path → σ → Option Fault → Prop
  | ended (s fault) : Visits v s [] s fault
  | faulted {s p after fault} (h : v.visit s p = (after, some fault)) :
      Visits v s [p] after (some fault)
  | next {s p between rest after fault} (h : v.visit s p = (between, none))
      (hrest : Visits v between rest after fault) : Visits v s (p :: rest) after fault

theorem Visits.append {s between after : σ} {front rest : List Path} {gone fault : Option Fault}
    (h : Visits v s front between gone) (hgone : gone = none)
    (hrest : Visits v between rest after fault) : Visits v s (front ++ rest) after fault := by
  induction h with
  | ended => exact hrest
  | faulted => cases hgone
  | next hvisit _ ih => exact .next hvisit (ih hgone hrest)

/-- A part of the search, once with a visitor and once with the same one that also puts down the
files: all the same comes of it, by visits to the files put down. -/
def Records (v : Visitor σ) (plain : σ → σ × Option Fault)
    (recorded : σ × List Path → (σ × List Path) × Option Fault) : Prop :=
  ∀ s before, ∃ ps, recorded (s, before) = (((plain s).1, before ++ ps), (plain s).2) ∧
    Visits v s ps (plain s).1 (plain s).2

theorem records_stop (v : Visitor σ) (fault : Option Fault) :
    Records v (fun s => (s, fault)) (fun s => (s, fault)) := by
  intro s before
  exact ⟨[], by rw [List.append_nil], .ended s fault⟩

theorem records_visit (v : Visitor σ) (p : Path) :
    Records v (v.visit · p) (v.recording.visit · p) := by
  intro s before
  refine ⟨[p], rfl, ?_⟩
  dsimp only
  cases hvisit : v.visit s p with
  | mk after fault =>
    cases fault with
    | some fault => exact .faulted hvisit
    | none => exact .next hvisit (.ended after none)

/-- What follows visits without a fault goes on with what these have put down. -/
theorem Visits.followed {s between : σ} {ps before : List Path} {second : σ → σ × Option Fault}
    {second' : σ × List Path → (σ × List Path) × Option Fault} (h : Visits v s ps between none)
    (hnext : Records v second second') :
    ∃ qs, second' (between, before ++ ps) =
        (((second between).1, before ++ qs), (second between).2) ∧
      Visits v s qs (second between).1 (second between).2 := by
  obtain ⟨rest, hsecond, hvisits⟩ := hnext between (before ++ ps)
  refine ⟨ps ++ rest, ?_, h.append rfl hvisits⟩
  rw [← List.append_assoc]
  exact hsecond

theorem records_foldUntil {plain : σ → α → σ × Option Fault}
    {recorded : σ × List Path → α → (σ × List Path) × Option Fault}
    (h : ∀ a, Records v (plain · a) (recorded · a)) (as : List α) :
    Records v (foldUntil plain as) (foldUntil recorded as) := by
  induction as with
  | nil => exact records_stop v none
  | cons a rest ih =>
    intro s before
    obtain ⟨ps, hfirst, hvisits⟩ := h a s before
    dsimp only at hfirst hvisits
    rw [foldUntil, foldUntil, hfirst]
    generalize plain s a = result at hvisits
    obtain ⟨between, fault⟩ := result
    cases fault with
    | some fault => exact ⟨ps, rfl, hvisits⟩
    | none => exact hvisits.followed ih

theorem records_visitCandidate (v : Visitor σ) (excludes : List String) (p : Path) :
    Records v (visitCandidate v excludes · p) (visitCandidate v.recording excludes · p) := by
  intro s before
  simp only [visitCandidate]
  split
  · exact records_visit v p s before
  · exact records_stop v none s before

theorem records_visitFlat (v : Visitor σ) (excludes : List String) (dir : Path) :
    Records v (visitFlat v excludes dir) (visitFlat v.recording excludes dir) := by
  intro s before
  have hdisk : v.recording.disk (s, before) = v.disk s := rfl
  simp only [visitFlat, hdisk]
  cases (v.disk s).list dir with
  | error err => exact records_stop v (some (.disk err)) s before
  | ok entries =>
    refine records_foldUntil (fun name s before => ?_) (sortNames (entries.map Prod.fst)) s before
    have hdisk : v.recording.disk (s, before) = v.disk s := rfl
    simp only [hdisk]
    cases (v.disk s).isFile (dir.child name) with
    | error err => exact records_stop v (some (.disk err)) s before
    | ok isFile =>
      cases isFile with
      | true => exact records_visitCandidate v excludes (dir.child name) s before
      | false => exact records_stop v none s before

theorem records_visitTree (v : Visitor σ) (excludes : List String) (source : Path) (levels : Nat)
    (dir : Path) :
    Records v (visitTree v excludes source levels dir)
      (visitTree v.recording excludes source levels dir) := by
  induction levels generalizing dir with
  | zero => exact records_stop v none
  | succ levels ih =>
    intro s before
    have hdisk : v.recording.disk (s, before) = v.disk s := rfl
    simp only [visitTree, hdisk]
    cases (v.disk s).list (lookedUp source dir) with
    | error err =>
      cases err with
      | zeroInPath => exact records_stop v (some (.disk .zeroInPath)) s before
      | refused => exact records_stop v none s before
    | ok entries =>
      obtain ⟨ps, hfiles, hvisits⟩ := records_foldUntil
        (fun name => records_visitCandidate v excludes (dir.child name))
        (listing (v.disk s) (lookedUp source dir) entries).files s before
      have hdirectories := records_foldUntil (fun name => ih (dir.child name))
        (listing (v.disk s) (lookedUp source dir) entries).directories
      dsimp only
      rw [hfiles]
      generalize foldUntil _ _ s = result at hvisits
      obtain ⟨between, fault⟩ := result
      cases fault with
      | some fault => exact ⟨ps, rfl, hvisits⟩
      | none => exact hvisits.followed hdirectories

theorem records_visitInputs (v : Visitor σ) (q : Query) :
    Records v (visitInputs v q) (visitInputs v.recording q) := by
  intro s before
  have hdisk : v.recording.disk (s, before) = v.disk s := rfl
  simp only [visitInputs, hdisk]
  cases (v.disk s).isFile q.source with
  | error err => exact records_stop v (some (.disk err)) s before
  | ok isFile =>
    cases isFile with
    | true => exact records_visit v q.source s before
    | false =>
      cases q.recursive with
      | true => exact records_visitTree v q.excludes q.source Disk.pathMax q.source s before
      | false => exact records_visitFlat v q.excludes q.source s before

theorem visitInputs_visits (v : Visitor σ) (q : Query) (s : σ) :
    Visits v s (visited v q s) (visitInputs v q s).1 (visitInputs v q s).2 := by
  obtain ⟨ps, hrecorded, hvisits⟩ := records_visitInputs v q s []
  have hvisited : visited v q s = ps := by
    rw [visited, hrecorded]
    rfl
  rw [hvisited]
  exact hvisits

end Discovery

namespace Pipeline

/-- What comes of inputs that are extracted one after the other, each on the disk that those before
it have left, until the outcomes of one end in a fault. -/
structure Course where
  extracted : List (Path × Extraction)
  fault : Option Fault
  disk : Disk

def course (sources : List Source) (options : Output.Options) : Disk → List Path → Course
  | d, [] => ⟨[], none, d⟩
  | d, p :: rest =>
    let x := extractFile sources options d p
    match x.outcomes.fault with
    | some fault => ⟨[(p, x)], some fault, x.disk⟩
    | none =>
      let later := course sources options x.disk rest
      { later with extracted := (p, x) :: later.extracted }

def Course.extractions (c : Course) : List Extraction := c.extracted.map Prod.snd

variable {sources : List Source} {options : Output.Options} {d : Disk} {p : Path} {rest : List Path}

theorem course_of_fault {fault : Fault}
    (h : (extractFile sources options d p).outcomes.fault = some fault) :
    course sources options d (p :: rest) =
      let x := extractFile sources options d p
      ⟨[(p, x)], some fault, x.disk⟩ := by
  simp only [course, h]

theorem course_of_done (h : (extractFile sources options d p).outcomes.fault = none) :
    course sources options d (p :: rest) =
      let x := extractFile sources options d p
      let later := course sources options x.disk rest
      { later with extracted := (p, x) :: later.extracted } := by
  simp only [course, h]

theorem course_done {ps : List Path} (h : (course sources options d ps).fault = none) :
    (course sources options d ps).extracted.map Prod.fst = ps ∧
      ∀ x ∈ (course sources options d ps).extractions, x.outcomes.fault = none := by
  induction ps generalizing d with
  | nil => exact ⟨rfl, fun _ hx => absurd hx List.not_mem_nil⟩
  | cons p rest ih =>
    cases hfault : (extractFile sources options d p).outcomes.fault with
    | some fault =>
      rw [course_of_fault hfault] at h
      cases h
    | none =>
      rw [course_of_done hfault] at h ⊢
      obtain ⟨hpaths, hfaults⟩ := ih h
      exact ⟨congrArg (p :: ·) hpaths, List.forall_mem_cons.mpr ⟨hfault, hfaults⟩⟩

theorem course_length {ps : List Path} (h : (course sources options d ps).fault = none) :
    (course sources options d ps).extractions.length = ps.length := by
  rw [Course.extractions, List.length_map]
  exact (List.length_map _).symm.trans (congrArg List.length (course_done h).1)

theorem course_faulted {ps : List Path} {fault : Fault}
    (h : (course sources options d ps).fault = some fault) :
    ∃ front p x rest, (course sources options d ps).extracted = front ++ [(p, x)] ∧
      ps = front.map Prod.fst ++ p :: rest ∧ x.outcomes.fault = some fault ∧
      ∀ y ∈ front.map Prod.snd, y.outcomes.fault = none := by
  induction ps generalizing d with
  | nil => cases h
  | cons p rest ih =>
    cases hfault : (extractFile sources options d p).outcomes.fault with
    | some first =>
      rw [course_of_fault hfault] at h ⊢
      cases h
      exact ⟨[], p, _, rest, rfl, rfl, hfault, fun _ hy => absurd hy List.not_mem_nil⟩
    | none =>
      rw [course_of_done hfault] at h ⊢
      obtain ⟨front, last, x, others, hextracted, rfl, hx, hfront⟩ := ih h
      refine ⟨(p, _) :: front, last, x, others, congrArg _ hextracted, rfl, hx, ?_⟩
      exact List.forall_mem_cons.mpr ⟨hfault, hfront⟩

/-- Every input has two documents, and in one input the second of them cannot be reached. -/
def burningSource : Source where
  label := "burning"
  handles := fun _ _ => .ok true
  parts := fun _ p =>
    let document : Document :=
      ⟨1, p.name ++ ".cs", none, .ofList [⟨embeddedSourceKind, [0, 0, 0, 0, 65]⟩]⟩
    .ofList [.container ⟨2, ⟨[document],
      if p.name = "b.pdb" then some (.other "disk on fire") else none⟩⟩]

end Pipeline
end SourceRecovery
