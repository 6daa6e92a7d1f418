import SourceRecovery.Pipeline
import SourceRecovery.Proofs.DocumentRecords

/-! An image that was accepted never fails outside what is declared: a bad name is kept with its
document, a bad record ends the records of its document, and the extraction goes through. -/
namespace SourceRecovery

/-- The faults that malformed content may give rise to; every other one goes through. -/
def Fault.Contained : Fault → Prop
  | .format _ | .decode _ => True
  | _ => False

theorem selectSource_error {records : Sequence Record} {fault : Fault}
    (h : selectSource records = .error fault) : records.fault = some fault := by
  unfold selectSource at h
  split at h
  · cases h
  · split at h
    · rename_i hfault
      cases h
      exact hfault
    · cases h

theorem recover_error {records : Sequence Record} {fault : Fault}
    (hrecords : ∀ f, records.fault = some f → f.Contained)
    (h : recover records = .error fault) : fault.Contained := by
  unfold recover at h
  cases hselect : selectSource records with
  | error f =>
    rw [hselect] at h
    cases h
    exact hrecords _ (selectSource_error hselect)
  | ok blob =>
    rw [hselect] at h
    cases blob with
    | none => cases h
    | some blob =>
      cases hpayload : Payload.ofBlob blob with
      | error e =>
        simp only [hpayload, bind, Except.bind, mapError_error] at h
        cases h
        trivial
      | ok payload =>
        cases htext : payload.text with
        | error e =>
          simp only [hpayload, htext, bind, Except.bind, mapError_ok, mapError_error] at h
          cases h
          trivial
        | ok text =>
          simp only [hpayload, htext, bind, Except.bind, mapError_ok] at h
          cases h

theorem contribution_ok {d : Document} (h : ∀ f, d.records.fault = some f → f.Contained) :
    ∃ e, contribution d = .ok e := by
  unfold contribution
  split
  · exact ⟨_, rfl⟩
  · split
    · exact ⟨_, rfl⟩
    · split
      · exact ⟨_, rfl⟩
      · exact ⟨_, rfl⟩
      · rename_i fault hformat hdecode hfault
        have hcontained := recover_error h hfault
        cases fault with
        | format reason => exact (hformat reason rfl).elim
        | decode reason => exact (hdecode reason rfl).elim
        | _ => exact hcontained.elim
      · exact ⟨_, rfl⟩
      · split
        · exact ⟨_, rfl⟩
        · exact ⟨_, rfl⟩

theorem extract_complete {c : Container} (hdocuments : c.documents.fault = none)
    (h : ∀ d ∈ c.documents.items, ∀ f, d.records.fault = some f → f.Contained) :
    (extract c).fault = none := by
  have hsteps := (Sequence.ofSteps_complete fun d hd => contribution_ok (h d hd)).1
  simp only [extract, contributions, Sequence.append, hsteps, Sequence.after, hdocuments]

namespace Pdb

variable {p : Image}

/-- A document as its row has it: the name that the row points to, or why that cannot be read. -/
def Image.Describes (p : Image) (d : Document) : Prop :=
  ∃ nameIndex rest, p.row .document d.row = .ok (nameIndex :: rest) ∧
    match p.documentName nameIndex with
    | .ok name => d.name = name ∧ d.nameError = none
    | .error e => d.name = "" ∧ d.nameError = some e.message

theorem Reader.Of.document_ok {r : Reader} (h : r.Of p) (hp : p.WellFormed) {row : Nat}
    (hrow : row ∈ p.rowNumbers .document) :
    ∃ d, r.document row = .ok d ∧ d.row = row ∧ p.Describes d ∧
      d.records = p.recordsNaming row := by
  obtain ⟨hlow, hhigh⟩ := Image.mem_rowNumbers.mp hrow
  obtain ⟨values, hvalues, hlength⟩ := hp.row_ok hlow hhigh
  have hread := h.document_of_row hp hvalues
  match values, hlength with
  | nameIndex :: rest, _ =>
    cases hname : p.documentName nameIndex with
    | ok name =>
      rw [List.headD_cons, hname] at hread
      exact ⟨_, hread, rfl, ⟨nameIndex, rest, hvalues, by simp [hname]⟩, rfl⟩
    | error e =>
      rw [List.headD_cons, hname] at hread
      exact ⟨_, hread, rfl, ⟨nameIndex, rest, hvalues, by simp [hname]⟩, rfl⟩

theorem Reader.Of.documents_complete {r : Reader} (h : r.Of p) (hp : p.WellFormed) :
    r.container.documents.fault = none ∧
    r.container.documents.items.map (·.row) = List.range' 1 (p.tableRows .document) := by
  have hsteps : ∀ row ∈ p.rowNumbers .document, ∃ d, r.document row = .ok d := by
    intro row hrow
    obtain ⟨d, hd, _⟩ := h.document_ok hp hrow
    exact ⟨d, hd⟩
  have hfault : r.container.documents.fault = none := by
    simp only [Reader.container, h.image]
    exact (Sequence.ofSteps_complete hsteps).1
  refine ⟨hfault, ?_⟩
  simp only [Reader.container, h.image] at hfault ⊢
  refine (Sequence.ofSteps_map (k := id) ?_ hfault).trans (List.map_id _)
  intro row d hd
  obtain ⟨_, _, hd⟩ := bind_eq_ok.mp hd
  dsimp only at hd
  split at hd <;> cases hd <;> rfl

theorem Reader.Of.mem_documents {r : Reader} (h : r.Of p) (hp : p.WellFormed) {d : Document}
    (hd : d ∈ r.container.documents.items) :
    p.Describes d ∧ d.records = p.recordsNaming d.row := by
  simp only [Reader.container, h.image] at hd
  obtain ⟨row, hrow, hstep⟩ := Sequence.mem_ofSteps hd
  obtain ⟨d', hd', hrow', hdescribes, hrecords⟩ := h.document_ok hp hrow
  cases hstep.symm.trans hd'
  exact ⟨hdescribes, hrow'.symm ▸ hrecords⟩

theorem Reader.Of.extract_complete {r : Reader} (h : r.Of p) (hp : p.WellFormed) :
    (extract r.container).fault = none := by
  apply SourceRecovery.extract_complete (h.documents_complete hp).1
  intro d hd fault hfault
  rw [(h.mem_documents hp hd).2] at hfault
  obtain ⟨reason, rfl⟩ := (hp.delivers_recordsNaming d.row).fault_format hfault
  trivial

theorem Image.container_extract_complete (hp : p.WellFormed) :
    (extract p.container).fault = none := by
  obtain ⟨r, hr, hof⟩ := (Reader.ofImage_of p).parentIndex
  unfold Image.container
  rw [hr]
  exact hof.extract_complete hp

end Pdb

namespace Pipeline

theorem builtin_container {source : Source} (hsource : source ∈ builtinSources) {d : Disk}
    {path : Path} {c : Container} (hc : .container c ∈ (source.parts d path).items) :
    ∃ p : Pdb.Image, p.WellFormed ∧ c = p.container := by
  simp only [builtinSources, List.mem_cons, List.not_mem_nil, or_false] at hsource
  rcases hsource with rfl | rfl
  · simp only [pdbSource] at hc
    split at hc
    · cases hc
    · split at hc
      · cases hc
      · rename_i pdb hread
        simp only [Sequence.ofList, List.mem_singleton, Part.container.injEq] at hc
        exact ⟨pdb, Pdb.Image.read_wellFormed hread, hc⟩
  · simp only [imageSource] at hc
    split at hc
    · cases hc
    · split at hc
      · cases hc
      · rename_i opened hopened
        obtain ⟨image, _, hopened⟩ := bind_eq_ok.mp hopened
        obtain ⟨entries, _, rfl⟩ := map_eq_ok.mp hopened
        simp only [Sequence.ofList, List.map_map, List.mem_map, Function.comp] at hc
        obtain ⟨entry, _, hentry⟩ := hc
        cases hopen : image.openEntry entry with
        | error e => simp [hopen, embeddedPart] at hentry
        | ok pdb =>
          simp only [hopen, embeddedPart, Part.container.injEq] at hentry
          obtain ⟨data, _, hread⟩ := bind_eq_ok.mp hopen
          exact ⟨pdb, Pdb.Image.read_wellFormed (mapError_eq_ok.mp hread), hentry.symm⟩

/-- A Portable PDB that cannot be opened is refused with a format fault and nothing else. Of one
that was opened every document is listed and described, records end in a format fault at worst,
the extraction runs through, and so no built-in source meets a corrupt table of documents. -/
theorem pdb_fails_only_as_declared :
    (∀ d path data e, d.read path = .ok data → Pdb.Image.read data = .error e →
      pdbSource.parts d path = .failed (.format e.message)) ∧
    (∀ data (p : Pdb.Image) calls, Pdb.Image.read data = .ok p →
      let r := (Pdb.Session.after p calls).reader
      r.container.documents.fault = none ∧
      r.container.documents.items.map (·.row) = List.range' 1 (p.tableRows .document) ∧
      (∀ document ∈ r.container.documents.items, p.Describes document) ∧
      (∀ row fault, (r.records row).1.fault = some fault → ∃ reason, fault = .format reason) ∧
      (extract r.container).fault = none) ∧
    ∀ source ∈ builtinSources, ∀ d path c, .container c ∈ (source.parts d path).items →
      partEvents path (.container c) =
        .ofList (.opened ⟨path.render, c.documentCount⟩ :: (extract c).items.map extractedEvent) := by
  refine ⟨?_, ?_, ?_⟩
  · intro d path data e hdata hread
    simp only [pdbSource, hdata, hread]
  · intro data p calls hread
    have hp := Pdb.Image.read_wellFormed hread
    have hr := (Pdb.Session.after_consistent hp calls).reader
    obtain ⟨hfault, hrows⟩ := hr.documents_complete hp
    refine ⟨hfault, hrows, fun document hd => (hr.mem_documents hp hd).1, ?_,
      hr.extract_complete hp⟩
    intro row fault hrecords
    rw [(hr.records hp row).1] at hrecords
    exact (hp.delivers_recordsNaming row).fault_format hrecords
  · intro source hsource d path c hc
    obtain ⟨p, hp, rfl⟩ := builtin_container hsource hc
    simp only [partEvents, Pdb.Image.container_extract_complete hp]
    rfl

def twoInputs : Disk where
  workingDirectory := ⟨.root, []⟩
  entries := [(["good.pdb"], .file (Pdb.Writer.write Pdb.folder)), (["bad.pdb"], .file [])]

theorem two_inputs_fail_only_as_declared :
    pdbSource.parts twoInputs ⟨.root, ["bad.pdb"]⟩ =
      .failed (.format "missing metadata root signature") ∧
    ∃ p, Pdb.Image.read (Pdb.Writer.write Pdb.folder) = .ok p ∧
      (extract (Pdb.Session.after p [.begin 1, .resume 0]).reader.container).fault = none ∧
      .container p.container ∈ (pdbSource.parts twoInputs ⟨.root, ["good.pdb"]⟩).items ∧
      partEvents ⟨.root, ["good.pdb"]⟩ (.container p.container) =
        .ofList (.opened ⟨"/good.pdb", 2⟩ :: (extract p.container).items.map extractedEvent) := by
  obtain ⟨hrefused, hopened, hsources⟩ := pdb_fails_only_as_declared
  have hbad : twoInputs.read ⟨.root, ["bad.pdb"]⟩ = .ok [] := rfl
  have hgood : twoInputs.read ⟨.root, ["good.pdb"]⟩ = .ok (Pdb.Writer.write Pdb.folder) := rfl
  have hread : ((Pdb.Image.read (Pdb.Writer.write Pdb.folder)).toOption.map fun p =>
      p.tableRows .document) = some 2 := by decide +kernel
  refine ⟨hrefused _ _ _ .missingSignature hbad rfl, ?_⟩
  cases hp : Pdb.Image.read (Pdb.Writer.write Pdb.folder) with
  | error e => simp [hp, Except.toOption] at hread
  | ok p =>
    have hcount : p.container.documentCount = 2 := by
      obtain ⟨r, hr, hof⟩ := (Pdb.Reader.ofImage_of p).parentIndex
      simpa [hp, Except.toOption, Pdb.Image.container, hr, Pdb.Reader.container, hof.image] using
        hread
    have hmem : .container p.container ∈
        (pdbSource.parts twoInputs ⟨.root, ["good.pdb"]⟩).items := by
      simp [pdbSource, hgood, hp, Sequence.ofList]
    have hevents := hsources pdbSource (by simp [builtinSources]) _ _ _ hmem
    rw [hcount] at hevents
    exact ⟨p, rfl, (hopened _ p _ hp).2.2.2.2, hmem, hevents⟩

end Pipeline
end SourceRecovery
