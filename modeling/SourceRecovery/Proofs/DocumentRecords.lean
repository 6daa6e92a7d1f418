import SourceRecovery.Extraction
import SourceRecovery.Pdb.Writer
import SourceRecovery.Proofs.TableLayout

/-! The records of a document, whatever has been asked of the reader before. The direct reading goes
through the table row by row and takes apart the parent column; the reader looks a parent up in an
index that it gathers once. Both give the same answers at every step of every walk. -/
namespace SourceRecovery.Pdb

theorem ParentIndex.rowsOf_add (x : ParentIndex) (parent row other : Nat) :
    (x.add parent row).rowsOf other =
      if other = parent then x.rowsOf other ++ [row] else x.rowsOf other := by
  obtain ⟨groups⟩ := x
  simp only [add, rowsOf]
  induction groups with
  | nil =>
    by_cases h : other = parent
    · simp [addTo, h]
    · simp [addTo, List.lookup_cons, beq_false_of_ne h, h]
  | cons group rest ih =>
    obtain ⟨named, rows⟩ := group
    by_cases hparent : parent = named
    · subst hparent
      by_cases h : other = parent
      · simp [addTo, h]
      · simp [addTo, List.lookup_cons, beq_false_of_ne h, h]
    · simp only [addTo, if_neg hparent, List.lookup_cons]
      by_cases h : other = named
      · have hne : ¬ named = parent := fun e => hparent e.symm
        simp [h, hne]
      · simpa [beq_false_of_ne h] using ih

namespace Image

variable {p : Image}

/-- Row `n` of custom debug information names the document: the low five bits of its parent are
the tag of documents, and the bits above are the document's row. -/
def Names (p : Image) (n document : Nat) : Prop :=
  match p.debugRow n with
  | .ok row => row.parent % 32 = documentTag ∧ row.parent / 32 = document
  | .error _ => False

instance (n document : Nat) : Decidable (p.Names n document) := by
  unfold Names
  split <;> infer_instance

theorem names_iff {n document : Nat} : p.Names n document ↔
    ∃ row, p.debugRow n = .ok row ∧ row.parent % 32 = documentTag ∧ row.parent / 32 = document := by
  unfold Names
  cases p.debugRow n <;> simp

theorem names_iff_parent {n : Nat} {row : DebugRow} (h : p.debugRow n = .ok row) (document : Nat) :
    p.Names n document ↔ row.parent = documentParent document := by
  simp only [Names, h, documentParent, parentTags, documentTag]
  omega

def rowsNaming (p : Image) (document : Nat) : List Nat :=
  (p.rowNumbers .customDebugInformation).filter (p.Names · document)

theorem mem_rowsNaming {n document : Nat} : n ∈ p.rowsNaming document ↔
    n ∈ p.rowNumbers .customDebugInformation ∧ p.Names n document := by
  simp [rowsNaming]

theorem rowsNaming_ascending (p : Image) (document : Nat) :
    (p.rowsNaming document).Pairwise (· < ·) :=
  List.Pairwise.filter _ List.pairwise_lt_range'

/-- What rows deliver: the GUID and the blob that each points to, until the first of them leads
nowhere. -/
inductive Delivers (p : Image) : List Nat → Sequence Record → Prop where
  | none : Delivers p [] ⟨[], none⟩
  | record {n rest row kind value items fault} : p.debugRow n = .ok row →
      p.guid row.kind = .ok kind → p.blob row.value = .ok value →
      Delivers p rest ⟨items, fault⟩ → Delivers p (n :: rest) ⟨⟨kind, value⟩ :: items, fault⟩
  | badKind {n rest row e} : p.debugRow n = .ok row → p.guid row.kind = .error e →
      Delivers p (n :: rest) ⟨[], some (.format e.message)⟩
  | badValue {n rest row kind e} : p.debugRow n = .ok row → p.guid row.kind = .ok kind →
      p.blob row.value = .error e → Delivers p (n :: rest) ⟨[], some (.format e.message)⟩

theorem delivers_ofSteps {rows : List Nat}
    (h : ∀ n ∈ rows, ∃ row, p.debugRow n = .ok row) :
    p.Delivers rows (Sequence.ofSteps p.recordAt rows) := by
  induction rows with
  | nil => exact .none
  | cons n rest ih =>
    obtain ⟨row, hrow⟩ := h n List.mem_cons_self
    have hrest := ih fun m hm => h m (List.mem_cons_of_mem n hm)
    have hstep : p.recordAt n = (p.record row).mapError heapFault := by
      simp [recordAt, hrow, bind, Except.bind]
    cases hkind : p.guid row.kind with
    | error e =>
      have hfail : p.recordAt n = .error (.format e.message) := by
        simp [hstep, record, hkind, bind, Except.bind, heapFault]
      rw [Sequence.ofSteps, hfail]
      exact .badKind hrow hkind
    | ok kind =>
      cases hvalue : p.blob row.value with
      | error e =>
        have hfail : p.recordAt n = .error (.format e.message) := by
          simp [hstep, record, hkind, hvalue, bind, Except.bind, heapFault]
        rw [Sequence.ofSteps, hfail]
        exact .badValue hrow hkind hvalue
      | ok value =>
        have hok : p.recordAt n = .ok ⟨kind, value⟩ := by
          simp [hstep, record, hkind, hvalue, bind, Except.bind, pure, Except.pure]
        rw [Sequence.ofSteps, hok]
        exact .record hrow hkind hvalue hrest

theorem Delivers.fault_format {rows : List Nat} {s : Sequence Record} (h : p.Delivers rows s)
    {fault : Fault} (hfault : s.fault = some fault) : ∃ reason, fault = .format reason := by
  induction h with
  | none => cases hfault
  | record _ _ _ _ ih => exact ih hfault
  | badKind => exact ⟨_, (Option.some.inj hfault).symm⟩
  | badValue => exact ⟨_, (Option.some.inj hfault).symm⟩

/-- Gathering keeps, for every parent, the rows that name it in the order in which they came. -/
theorem gatherParents_rowsOf {rows : List Nat} {x y : ParentIndex}
    (h : p.gatherParents rows x = .ok y) (document : Nat) :
    y.rowsOf (documentParent document) =
      x.rowsOf (documentParent document) ++ rows.filter (p.Names · document) := by
  induction rows generalizing x with
  | nil =>
    cases h
    simp
  | cons n rest ih =>
    obtain ⟨row, hrow, h⟩ := bind_eq_ok.mp h
    rw [mapError_eq_ok] at hrow
    rw [ih h, ParentIndex.rowsOf_add]
    have hnames := names_iff_parent hrow document
    by_cases hparent : row.parent = documentParent document
    · simp [hnames, hparent]
    · have hne : ¬ documentParent document = row.parent := fun e => hparent e.symm
      simp [hnames, hparent, hne]

theorem gatherParents_ok {rows : List Nat} {x : ParentIndex}
    (h : ∀ n ∈ rows, ∃ row, p.debugRow n = .ok row) : ∃ y, p.gatherParents rows x = .ok y := by
  induction rows generalizing x with
  | nil => exact ⟨x, rfl⟩
  | cons n rest ih =>
    obtain ⟨row, hrow⟩ := h n List.mem_cons_self
    obtain ⟨y, hy⟩ := ih (x := x.add row.parent n) fun m hm => h m (List.mem_cons_of_mem n hm)
    exact ⟨y, bind_eq_ok.mpr ⟨row, mapError_eq_ok.mpr hrow, hy⟩⟩

theorem WellFormed.parentIndex_ok (hp : p.WellFormed) :
    ∃ x, p.parentIndex = .ok x ∧
      ∀ document, x.rowsOf (documentParent document) = p.rowsNaming document := by
  obtain ⟨x, hx⟩ := gatherParents_ok (x := .empty) fun n hn => hp.debugRow_ok hn
  exact ⟨x, hx, gatherParents_rowsOf hx⟩

def recordsNaming (p : Image) (document : Nat) : Sequence Record :=
  Sequence.ofSteps p.recordAt (p.rowsNaming document)

theorem WellFormed.delivers_recordsNaming (hp : p.WellFormed) (document : Nat) :
    p.Delivers (p.rowsNaming document) (p.recordsNaming document) :=
  delivers_ofSteps fun _ hn => hp.debugRow_ok (mem_rowsNaming.mp hn).1

end Image

/-- What a request for the next of a sequence of records is answered. -/
def firstAnswer (s : Sequence Record) : Answer :=
  match s.items, s.fault with
  | record :: _, _ => .record record
  | [], some fault => .fault fault
  | [], none => .done

def remaining (s : Sequence Record) : Sequence Record :=
  match s.items with
  | _ :: items => ⟨items, s.fault⟩
  | [] => ⟨[], none⟩

def answers (s : Sequence Record) : (count : Nat) → List Answer
  | 0 => []
  | count + 1 => firstAnswer s :: answers (remaining s) count

def remainingAfter (s : Sequence Record) : (count : Nat) → Sequence Record
  | 0 => s
  | count + 1 => remainingAfter (remaining s) count

theorem answers_succ (s : Sequence Record) (count : Nat) :
    answers s (count + 1) = answers s count ++ [firstAnswer (remainingAfter s count)] := by
  induction count generalizing s with
  | zero => rfl
  | succ count ih =>
    rw [answers, ih]
    rfl

theorem remainingAfter_succ (s : Sequence Record) (count : Nat) :
    remainingAfter s (count + 1) = remaining (remainingAfter s count) := by
  induction count generalizing s with
  | zero => rfl
  | succ count ih => exact ih (remaining s)

def Walk.pending (p : Image) : Walk → Sequence Record
  | .unstarted document => p.recordsNaming document
  | .among rows => Sequence.ofSteps p.recordAt rows
  | .ended => ⟨[], none⟩

structure Reader.Of (p : Image) (r : Reader) : Prop where
  image : r.image = p
  parents : ∀ x, r.parents = some x → p.parentIndex = .ok x

variable {p : Image}

theorem Reader.ofImage_of (p : Image) : (Reader.ofImage p).Of p :=
  ⟨rfl, fun _ h => by cases h⟩

theorem Reader.Of.parentIndex {r : Reader} (h : r.Of p) :
    ∃ r', r.parentIndex = (p.parentIndex, r') ∧ r'.Of p := by
  obtain ⟨himage, hparents⟩ := h
  unfold Reader.parentIndex
  cases hknown : r.parents with
  | some x => exact ⟨r, by rw [hparents x hknown], himage, hparents⟩
  | none =>
    simp only [himage]
    cases hx : p.parentIndex with
    | error fault => exact ⟨r, rfl, himage, hparents⟩
    | ok x =>
      refine ⟨{ r with parents := some x }, by rw [← himage], himage, ?_⟩
      intro y hy
      cases hy
      exact hx

theorem Reader.advance_spec (p : Image) (rows : List Nat) :
    (advance p rows).1 = firstAnswer (Sequence.ofSteps p.recordAt rows) ∧
    (advance p rows).2.pending p = remaining (Sequence.ofSteps p.recordAt rows) := by
  cases rows with
  | nil => exact ⟨rfl, rfl⟩
  | cons n rest =>
    cases h : p.recordAt n with
    | ok record => simp [advance, h, Sequence.ofSteps, Sequence.after, firstAnswer, remaining,
        Walk.pending]
    | error fault => simp [advance, h, Sequence.ofSteps, Sequence.failed, firstAnswer, remaining,
        Walk.pending]

/-- One step of a walk answers what the direct reading has next, whatever the reader has seen. -/
theorem Reader.Of.resume {r : Reader} (h : r.Of p) (hp : p.WellFormed) (walk : Walk) :
    (r.resume walk).1.1 = firstAnswer (walk.pending p) ∧
    (r.resume walk).1.2.pending p = remaining (walk.pending p) ∧ (r.resume walk).2.Of p := by
  cases walk with
  | ended => exact ⟨rfl, rfl, h⟩
  | among rows =>
    obtain ⟨hanswer, hleft⟩ := advance_spec p rows
    simp only [Reader.resume, h.image]
    exact ⟨hanswer, hleft, h⟩
  | unstarted document =>
    obtain ⟨x, hx, hrows⟩ := hp.parentIndex_ok
    obtain ⟨r', hindex, hof⟩ := h.parentIndex
    obtain ⟨hanswer, hleft⟩ := advance_spec p (p.rowsNaming document)
    simp only [Reader.resume, hindex, hx, hof.image, hrows]
    exact ⟨hanswer, hleft, hof⟩

theorem Reader.Of.records {r : Reader} (h : r.Of p) (hp : p.WellFormed) (document : Nat) :
    (r.records document).1 = p.recordsNaming document ∧ (r.records document).2.Of p := by
  obtain ⟨x, hx, hrows⟩ := hp.parentIndex_ok
  obtain ⟨r', hindex, hof⟩ := h.parentIndex
  simp only [Reader.records, hindex, hx, hof.image, hrows]
  exact ⟨rfl, hof⟩

theorem Reader.Of.document_of_row {r : Reader} (h : r.Of p) (hp : p.WellFormed) {row : Nat}
    {values : List Nat} (hrow : p.row .document row = .ok values) :
    r.document row = .ok (match p.documentName (values.headD 0) with
      | .ok name => ⟨row, name, none, p.recordsNaming row⟩
      | .error e => ⟨row, "", some e.message, p.recordsNaming row⟩) := by
  have hrecords := (h.records hp row).1
  simp only [Reader.document, h.image, hrow, mapError_ok, bind, Except.bind, hrecords]
  cases p.documentName (values.headD 0) <;> rfl

structure Progress where
  document : Nat
  walk : Walk
  answers : List Answer

/-- A reader with the walks begun on it, none of which need ever be finished. -/
structure Session where
  reader : Reader
  walks : List Progress

inductive Call where
  | begin (document : Nat)
  | resume (walk : Nat)
  | records (document : Nat)
  deriving DecidableEq, Repr

namespace Session

def start (p : Image) : Session := ⟨Reader.ofImage p, []⟩

def call (s : Session) : Call → Session
  | .begin document => { s with walks := s.walks ++ [⟨document, .unstarted document, []⟩] }
  | .resume k =>
    match s.walks[k]? with
    | none => s
    | some w =>
      let ((answer, walk), reader) := s.reader.resume w.walk
      ⟨reader, s.walks.set k ⟨w.document, walk, w.answers ++ [answer]⟩⟩
  | .records document => { s with reader := (s.reader.records document).2 }

def after (p : Image) (calls : List Call) : Session := calls.foldl call (start p)

/-- Every walk has given the first answers of the direct reading and has the rest before it. -/
structure Consistent (p : Image) (s : Session) : Prop where
  reader : s.reader.Of p
  given : ∀ w ∈ s.walks, w.answers = Pdb.answers (p.recordsNaming w.document) w.answers.length
  pending : ∀ w ∈ s.walks,
    w.walk.pending p = remainingAfter (p.recordsNaming w.document) w.answers.length

theorem start_consistent (p : Image) : Consistent p (start p) := by
  refine ⟨Reader.ofImage_of p, ?_, ?_⟩ <;> intro w hw <;> cases hw

theorem call_consistent (hp : p.WellFormed) {s : Session} (h : Consistent p s) (c : Call) :
    Consistent p (s.call c) := by
  obtain ⟨hreader, hgiven, hpending⟩ := h
  cases c with
  | «begin» document =>
    refine ⟨hreader, ?_, ?_⟩
    · intro w hw
      rcases List.mem_append.mp hw with hw | hw
      · exact hgiven w hw
      · cases List.mem_singleton.mp hw
        rfl
    · intro w hw
      rcases List.mem_append.mp hw with hw | hw
      · exact hpending w hw
      · cases List.mem_singleton.mp hw
        rfl
  | records document => exact ⟨(hreader.records hp document).2, hgiven, hpending⟩
  | resume k =>
    simp only [call]
    cases hk : s.walks[k]? with
    | none => exact ⟨hreader, hgiven, hpending⟩
    | some w =>
      have hw := List.mem_of_getElem? hk
      obtain ⟨hanswer, hleft, hof⟩ := hreader.resume hp w.walk
      refine ⟨hof, ?_, ?_⟩
      · intro v hv
        rcases List.mem_or_eq_of_mem_set hv with hv | rfl
        · exact hgiven v hv
        · rw [List.length_append, List.length_singleton, answers_succ, ← hgiven w hw,
            ← hpending w hw, hanswer]
      · intro v hv
        rcases List.mem_or_eq_of_mem_set hv with hv | rfl
        · exact hpending v hv
        · rw [List.length_append, List.length_singleton, remainingAfter_succ, ← hpending w hw,
            hleft]

theorem after_consistent (hp : p.WellFormed) (calls : List Call) :
    Consistent p (after p calls) := by
  unfold after
  generalize hs : start p = s
  have h : Consistent p s := hs ▸ start_consistent p
  clear hs
  induction calls generalizing s with
  | nil => exact h
  | cons c rest ih => exact ih _ (call_consistent hp h c)

end Session

/-- Every row of custom debug information is delivered to the document that its parent names and
to no other. What was asked before, in whole or in part, changes no answer: asked to the end the
reader gives what the naming rows deliver, and a walk left half-way has given the front of it. -/
theorem records_delivered_to_named_document {data : Bytes} (h : Image.read data = .ok p) :
    (∀ document, (p.rowsNaming document).Pairwise (· < ·) ∧
      ∃ records, p.Delivers (p.rowsNaming document) records ∧ ∀ calls,
        ((Session.after p calls).reader.records document).1 = records ∧
        ∀ w ∈ (Session.after p calls).walks, w.document = document →
          w.answers = answers records w.answers.length) ∧
    ∀ n ∈ p.rowNumbers .customDebugInformation, ∃ row, p.debugRow n = .ok row ∧
      ∀ document, n ∈ p.rowsNaming document ↔
        row.parent % 32 = documentTag ∧ document = row.parent / 32 := by
  have hp := Image.read_wellFormed h
  constructor
  · intro document
    refine ⟨Image.rowsNaming_ascending p document, p.recordsNaming document,
      hp.delivers_recordsNaming document, fun calls => ?_⟩
    have hs := Session.after_consistent hp calls
    refine ⟨(hs.reader.records hp document).1, ?_⟩
    rintro w hw rfl
    exact hs.given w hw
  · intro n hn
    obtain ⟨row, hrow⟩ := hp.debugRow_ok hn
    refine ⟨row, hrow, fun document => ?_⟩
    rw [Image.mem_rowsNaming, and_iff_right hn, Image.names_iff]
    constructor
    · rintro ⟨row', hrow', htag, hbits⟩
      cases hrow.symm.trans hrow'
      exact ⟨htag, hbits.symm⟩
    · rintro ⟨htag, hbits⟩
      exact ⟨row, hrow, htag, hbits.symm⟩

def folder : Writer.Spec where
  documents := [⟨"src/a", [⟨embeddedSourceKind, [0, 0, 0, 0, 65]⟩, ⟨.nil, []⟩]⟩,
    ⟨"src/b", [⟨.nil, [1]⟩]⟩]

theorem folder_records_delivered :
    ∃ p, Image.read (Writer.write folder) = .ok p ∧ p.rowNumbers .customDebugInformation = [1, 2, 3] ∧
      p.rowsNaming 1 = [1, 2] ∧ ∃ records, p.Delivers (p.rowsNaming 1) records ∧
        ((Session.after p [.begin 1, .resume 0, .records 2, .resume 0]).reader.records 1).1 =
          records := by
  have hread : ((Image.read (Writer.write folder)).toOption.map fun p =>
      (p.rowNumbers .customDebugInformation, p.rowsNaming 1)) = some ([1, 2, 3], [1, 2]) := by
    decide +kernel
  cases hp : Image.read (Writer.write folder) with
  | error e => simp [hp, Except.toOption] at hread
  | ok p =>
    simp only [hp, Except.toOption, Option.map_some, Option.some.injEq, Prod.mk.injEq] at hread
    obtain ⟨_, records, hrecords, hcalls⟩ := (records_delivered_to_named_document hp).1 1
    exact ⟨p, rfl, hread.1, hread.2, records, hrecords, (hcalls _).1⟩

end SourceRecovery.Pdb
