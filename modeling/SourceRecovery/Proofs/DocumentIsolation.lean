import SourceRecovery.Proofs.DeclaredFaults

/-! Documents do not disturb each other. What a document contributes is told from its own row, name
and records up to its embedded source, and the output puts these shares together in order. -/
namespace SourceRecovery

/-- No record among these holds embedded source. -/
def Sourceless (records : List Record) : Prop := ∀ r ∈ records, r.kind ≠ embeddedSourceKind

/-- What a search for embedded source comes to: the value of the first such record, or nothing, or
the fault that came before any. -/
inductive Selects (s : Sequence Record) : Except Fault (Option Bytes) → Prop
  | source {front r back} (hitems : s.items = front ++ r :: back) (hfront : Sourceless front)
      (hkind : r.kind = embeddedSourceKind) : Selects s (.ok (some r.value))
  | nothing (hnone : Sourceless s.items) (hfault : s.fault = none) : Selects s (.ok none)
  | fault {f} (hnone : Sourceless s.items) (hfault : s.fault = some f) : Selects s (.error f)

theorem find?_source_eq_none {records : List Record} :
    records.find? (·.kind = embeddedSourceKind) = none ↔ Sourceless records := by
  simp [List.find?_eq_none, Sourceless]

theorem selectSource_eq_iff {s : Sequence Record} {found : Except Fault (Option Bytes)} :
    selectSource s = found ↔ Selects s found := by
  constructor
  · rintro rfl
    unfold selectSource
    split
    · rename_i r hfound
      obtain ⟨hkind, front, back, hitems, hfront⟩ := List.find?_eq_some_iff_append.mp hfound
      exact .source hitems (fun q hq => by simpa using hfront q hq) (by simpa using hkind)
    · rename_i hnone
      split
      · exact .fault (find?_source_eq_none.mp hnone) ‹_›
      · exact .nothing (find?_source_eq_none.mp hnone) ‹_›
  · intro h
    cases h with
    | source hitems hfront hkind =>
      have hnone := find?_source_eq_none.mpr hfront
      simp [selectSource, hitems, List.find?_append, hnone, hkind]
    | nothing hnone hfault => simp [selectSource, find?_source_eq_none.mpr hnone, hfault]
    | fault hnone hfault => simp [selectSource, find?_source_eq_none.mpr hnone, hfault]

/-- The records that are looked at: up to the first with embedded source, if there is one. -/
def upToSource (s : Sequence Record) : Sequence Record :=
  match s.items.find? (·.kind = embeddedSourceKind) with
  | some r => ⟨s.items.takeWhile (·.kind ≠ embeddedSourceKind) ++ [r], none⟩
  | none => s

theorem selectSource_upToSource (s : Sequence Record) :
    selectSource (upToSource s) = selectSource s := by
  unfold upToSource
  split
  · rename_i r hfound
    have hkind : r.kind = embeddedSourceKind := by simpa using List.find?_some hfound
    have hsource : Selects s (.ok (some r.value)) := by
      obtain ⟨_, front, back, hitems, hfront⟩ := List.find?_eq_some_iff_append.mp hfound
      exact .source hitems (fun q hq => by simpa using hfront q hq) hkind
    rw [selectSource_eq_iff.mpr hsource]
    refine selectSource_eq_iff.mpr (.source rfl (fun q hq => ?_) hkind)
    simpa using List.all_eq_true.mp List.all_takeWhile q hq
  · rfl

/-- A document with a name and nothing known against it. -/
structure Document.Named (d : Document) : Prop where
  readable : d.nameError = none ∨ d.nameError = some ""
  name : d.name ≠ ""

inductive Fails (s : Sequence Record) : (reason : String) → Prop
  | format {reason} (h : Selects s (.error (.format reason))) : Fails s reason
  | decode {reason} (h : Selects s (.error (.decode reason))) : Fails s reason
  | source {blob e} (h : Selects s (.ok (some blob))) (htext : decodeSource blob = .error e) :
      Fails s e.message

/-- What a document contributes, for each way in which it can or cannot be read. -/
inductive Contributes (d : Document) : Option Extracted → Prop
  | badName {reason} (hname : d.nameError = some reason) (hreason : reason ≠ "") :
      Contributes d (some (.issue ⟨s!"document row {d.row}", reason⟩))
  | nameless (hreadable : d.nameError = none ∨ d.nameError = some "") (hname : d.name = "") :
      Contributes d none
  | sourceless (hnamed : d.Named) (hsource : Selects d.records (.ok none)) : Contributes d none
  | failure {reason} (hnamed : d.Named) (hfails : Fails d.records reason) :
      Contributes d (some (.issue ⟨d.name, reason⟩))
  | empty {blob} (hnamed : d.Named) (hsource : Selects d.records (.ok (some blob)))
      (htext : decodeSource blob = .ok "") : Contributes d none
  | file {blob text} (hnamed : d.Named) (hsource : Selects d.records (.ok (some blob)))
      (htext : decodeSource blob = .ok text) (hnonempty : text ≠ "") :
      Contributes d (some (.file ⟨d.name, text, Bytes.toNatLE (blob.take 4) ≠ 0⟩))

theorem recover_of_source {s : Sequence Record} {blob : Bytes}
    (h : selectSource s = .ok (some blob)) :
    recover s = match decodeSource blob with
      | .error e => .error (.decode e.message)
      | .ok text => .ok (some (⟨Bytes.toNatLE (blob.take 4), blob.drop 4⟩, text)) := by
  unfold recover decodeSource
  simp only [h, bind, Except.bind]
  cases hpayload : Payload.ofBlob blob with
  | error e => rfl
  | ok payload =>
    -- A blob that is long enough is taken apart in one way only.
    have hparts : payload = ⟨Bytes.toNatLE (blob.take 4), blob.drop 4⟩ := by
      unfold Payload.ofBlob at hpayload
      split at hpayload
      · cases hpayload
      · exact (Except.ok.inj hpayload).symm
    subst hparts
    simp only [mapError_ok]
    cases Payload.text ⟨Bytes.toNatLE (blob.take 4), blob.drop 4⟩ with
    | error e => rfl
    | ok text => rfl

theorem recover_of_nothing {s : Sequence Record} (h : selectSource s = .ok none) :
    recover s = .ok none := by
  rw [recover, h]
  rfl

theorem recover_of_fault {s : Sequence Record} {f : Fault} (h : selectSource s = .error f) :
    recover s = .error f := by
  rw [recover, h]
  rfl

theorem contribution_of_badName {d : Document} {reason : String}
    (hname : d.nameError = some reason) (hreason : reason ≠ "") :
    contribution d = .ok (some (.issue ⟨s!"document row {d.row}", reason⟩)) := by
  have hsome : d.nameError.filter (· ≠ "") = some reason := by simp [hname, hreason]
  rw [contribution, hsome]

theorem contribution_of_readable {d : Document}
    (hreadable : d.nameError = none ∨ d.nameError = some "") :
    contribution d = if d.name = "" then .ok none else
      match recover d.records with
      | .error (.format reason) | .error (.decode reason) => .ok (some (.issue ⟨d.name, reason⟩))
      | .error fault => .error fault
      | .ok none => .ok none
      | .ok (some (payload, text)) =>
        if text = "" then .ok none else .ok (some (.file ⟨d.name, text, payload.compressed⟩)) := by
  have hnone : d.nameError.filter (· ≠ "") = none := by
    rcases hreadable with h | h <;> simp [h]
  rewrite [contribution, hnone]
  rfl

theorem Contributes.contribution_eq {d : Document} {out : Option Extracted}
    (h : Contributes d out) : contribution d = .ok out := by
  cases h with
  | badName hname hreason => exact contribution_of_badName hname hreason
  | nameless hreadable hname => rw [contribution_of_readable hreadable, if_pos hname]
  | sourceless hnamed hsource =>
    rw [contribution_of_readable hnamed.readable, if_neg hnamed.name,
      recover_of_nothing (selectSource_eq_iff.mpr hsource)]
  | failure hnamed hfails =>
    rw [contribution_of_readable hnamed.readable, if_neg hnamed.name]
    cases hfails with
    | format hfault => rw [recover_of_fault (selectSource_eq_iff.mpr hfault)]
    | decode hfault => rw [recover_of_fault (selectSource_eq_iff.mpr hfault)]
    | source hsource htext => rw [recover_of_source (selectSource_eq_iff.mpr hsource), htext]
  | empty hnamed hsource htext =>
    rw [contribution_of_readable hnamed.readable, if_neg hnamed.name,
      recover_of_source (selectSource_eq_iff.mpr hsource), htext]
    rfl
  | file hnamed hsource htext hnonempty =>
    rw [contribution_of_readable hnamed.readable, if_neg hnamed.name,
      recover_of_source (selectSource_eq_iff.mpr hsource), htext]
    dsimp only
    rw [if_neg hnonempty]
    simp only [Payload.compressed, bne, decide_not]
    rfl

/-- Where nothing but malformed content interrupts the records, one of the cases is at hand. -/
theorem exists_contributes {d : Document} (h : ∀ f, d.records.fault = some f → f.Contained) :
    ∃ out, Contributes d out := by
  by_cases hreadable : d.nameError = none ∨ d.nameError = some ""
  · by_cases hname : d.name = ""
    · exact ⟨_, .nameless hreadable hname⟩
    · have hnamed : d.Named := ⟨hreadable, hname⟩
      cases hfound : selectSource d.records with
      | error f =>
        have hcontained := h f (selectSource_error hfound)
        have hselects := selectSource_eq_iff.mp hfound
        cases f with
        | format reason => exact ⟨_, .failure hnamed (.format hselects)⟩
        | decode reason => exact ⟨_, .failure hnamed (.decode hselects)⟩
        | _ => exact hcontained.elim
      | ok found =>
        have hselects := selectSource_eq_iff.mp hfound
        cases found with
        | none => exact ⟨_, .sourceless hnamed hselects⟩
        | some blob =>
          cases htext : decodeSource blob with
          | error e => exact ⟨_, .failure hnamed (.source hselects htext)⟩
          | ok text =>
            by_cases hempty : text = ""
            · exact ⟨_, .empty hnamed hselects (hempty ▸ htext)⟩
            · exact ⟨_, .file hnamed hselects htext hempty⟩
  · cases hname : d.nameError with
    | none => exact absurd (Or.inl hname) hreadable
    | some reason =>
      refine ⟨_, .badName hname fun hempty => hreadable (Or.inr ?_)⟩
      rw [hname, hempty]

/-- A container that lists its documents to the end, with records that nothing but malformed content
interrupts. -/
structure Container.Listed (c : Container) : Prop where
  documents : c.documents.fault = none
  records : ∀ d ∈ c.documents.items, ∀ f, d.records.fault = some f → f.Contained

/-- The one item, if any, that a document adds to the output. -/
def share (d : Document) : Option Extracted := (contribution d).toOption.join

theorem Contributes.share_eq {d : Document} {out : Option Extracted} (h : Contributes d out) :
    share d = out := by
  rw [share, h.contribution_eq]
  rfl

theorem Container.Listed.contributes {c : Container} (hc : c.Listed) {d : Document}
    (hd : d ∈ c.documents.items) : Contributes d (share d) := by
  obtain ⟨out, hout⟩ := exists_contributes (hc.records d hd)
  exact hout.share_eq.symm ▸ hout

theorem Container.Listed.extract_eq {c : Container} (hc : c.Listed) :
    extract c = .ofList (c.documents.items.filterMap share) := by
  have hsteps : Sequence.ofSteps contribution (c.documents.items.map id) =
      .ofList (c.documents.items.map share) :=
    Sequence.ofSteps_of_ok fun d hd => (hc.contributes hd).contribution_eq
  rw [List.map_id] at hsteps
  simp [extract, contributions, hsteps, Sequence.append, Sequence.after, Sequence.ofList,
    hc.documents, List.filterMap_map]

/-- Documents that differ in nothing but records behind the first with embedded source. -/
structure Document.SameUpToSource (d e : Document) : Prop where
  row : d.row = e.row
  name : d.name = e.name
  nameError : d.nameError = e.nameError
  records : upToSource d.records = upToSource e.records

theorem Document.SameUpToSource.share_eq {d e : Document} (h : d.SameUpToSource e) :
    share d = share e := by
  have hsource : selectSource d.records = selectSource e.records := by
    rw [← selectSource_upToSource, h.records, selectSource_upToSource]
  have hrecover : recover d.records = recover e.records := by rw [recover, hsource, recover]
  rw [share, contribution, h.row, h.name, h.nameError, hrecover, share, contribution]

theorem Contributes.file_nonempty {d : Document} {f : ExtractedFile}
    (h : Contributes d (some (.file f))) : f.name ≠ "" ∧ f.text ≠ "" := by
  cases h with
  | file hnamed _ _ hnonempty => exact ⟨hnamed.name, hnonempty⟩

/-- The output is the shares of the documents put together in their order, each as the document's own
row, name and records up to its embedded source make it. So a change in one document leaves what the
others share as it was, and one behind its embedded source changes nothing. Files have a name and a
text; a name or a source that cannot be read is one issue of its document. -/
theorem extract_isolates_documents :
    (∀ c : Container, c.Listed →
      extract c = .ofList (c.documents.items.filterMap share) ∧
      (∀ d ∈ c.documents.items, ∀ out, Contributes d out ↔ share d = out) ∧
      ∀ f, .file f ∈ (extract c).items → f.name ≠ "" ∧ f.text ≠ "") ∧
    (∀ d e : Document, d.SameUpToSource e → share d = share e) ∧
    (∀ (c c' : Container) (front back : List Document) (d d' : Document), c.Listed → c'.Listed →
      c.documents.items = front ++ d :: back → c'.documents.items = front ++ d' :: back →
      extract c = .ofList (front.filterMap share ++ (share d).toList ++ back.filterMap share) ∧
      extract c' = .ofList (front.filterMap share ++ (share d').toList ++ back.filterMap share) ∧
      (d.SameUpToSource d' → extract c = extract c')) ∧
    (∀ (d : Document) (reason : String), d.nameError = some reason → reason ≠ "" →
      share d = some (.issue ⟨s!"document row {d.row}", reason⟩)) ∧
    ∀ (d : Document) (reason : String), d.Named → Fails d.records reason →
      share d = some (.issue ⟨d.name, reason⟩) := by
  have hparts : ∀ (front back : List Document) (d : Document),
      (front ++ d :: back).filterMap share =
        front.filterMap share ++ (share d).toList ++ back.filterMap share := by
    intro front back d
    cases hd : share d <;> simp [List.filterMap_append, hd]
  refine ⟨fun c hc => ⟨hc.extract_eq, ?_, ?_⟩, fun d e h => h.share_eq, ?_, ?_, ?_⟩
  · intro d hd out
    exact ⟨fun h => h.share_eq, fun h => h ▸ hc.contributes hd⟩
  · intro f hf
    rw [hc.extract_eq] at hf
    obtain ⟨d, hd, hshare⟩ := List.mem_filterMap.mp hf
    exact (hshare ▸ hc.contributes hd).file_nonempty
  · intro c c' front back d d' hc hc' hitems hitems'
    rw [hc.extract_eq, hc'.extract_eq, hitems, hitems', hparts, hparts]
    exact ⟨rfl, rfl, fun h => by rw [h.share_eq]⟩
  · intro d reason hname hreason
    exact (Contributes.badName hname hreason).share_eq
  · intro d reason hnamed hfails
    exact (Contributes.failure hnamed hfails).share_eq

/-- Three documents: the first has no name to be read, the records of the last break off before any
embedded source, and the one between them has embedded source and then what `late` says. -/
def threeDocuments (late : Sequence Record) : Container where
  documentCount := 3
  documents := .ofList [⟨1, "", some "blob index 9 out of range", .ofList []⟩,
    ⟨2, "a.cs", none, late.after [⟨embeddedSourceKind, [0, 0, 0, 0, 65]⟩]⟩,
    ⟨3, "b.cs", none, .failed (.format "guid index 7 out of range")⟩]

theorem threeDocuments_listed {late : Sequence Record}
    (h : ∀ f, late.fault = some f → f.Contained) : (threeDocuments late).Listed := by
  refine ⟨rfl, ?_⟩
  intro d hd f hf
  simp only [threeDocuments, Sequence.ofList, List.mem_cons, List.not_mem_nil, or_false] at hd
  rcases hd with rfl | rfl | rfl
  · cases hf
  · exact h f hf
  · cases hf
    trivial

theorem threeDocuments_isolated :
    let broken := threeDocuments (.failed (.decode "gone"))
    let whole := threeDocuments (.ofList [⟨embeddedSourceKind, [1]⟩])
    extract broken = extract whole ∧
      extract broken = .ofList [.issue ⟨"document row 1", "blob index 9 out of range"⟩,
        .file ⟨"a.cs", "A", false⟩, .issue ⟨"b.cs", "guid index 7 out of range"⟩] := by
  intro broken whole
  have hbroken : broken.Listed := threeDocuments_listed fun f hf => by cases hf; trivial
  have hwhole : whole.Listed := threeDocuments_listed fun f hf => by cases hf
  obtain ⟨hextract, _, hother, _, _⟩ := extract_isolates_documents
  obtain ⟨_, _, hsame⟩ := hother broken whole [_] [_] _ _ hbroken hwhole rfl rfl
  refine ⟨hsame ⟨rfl, rfl, rfl, by decide +kernel⟩, ?_⟩
  rw [(hextract broken hbroken).1]
  decide +kernel

end SourceRecovery
