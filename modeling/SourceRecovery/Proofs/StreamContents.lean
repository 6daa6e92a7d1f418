import SourceRecovery.Proofs.DocumentRecords
import SourceRecovery.Proofs.RootLayout

/-! Four streams decide everything that is read from an image. Two files that hold the same contents
under their names are accepted or refused alike and answer alike, however each of them is laid
out. -/
namespace SourceRecovery.Pdb

/-- What lies under a name: the contents of the first stream that bears it. -/
def contents? (data : Bytes) (headers : List Header) (name : String) : Option Bytes :=
  (headers.find? fun h => h.name = Signature.ofText name).map (Header.contents data)

/-- What an image is made of. The tables are looked for under two names, one before the other. -/
structure Streams where
  pdb : Option Bytes
  tables : Option Bytes
  blobs : Option Bytes
  guids : Option Bytes
  deriving DecidableEq, Repr

def Streams.of (data : Bytes) (headers : List Header) : Streams where
  pdb := contents? data headers "#Pdb"
  tables := (contents? data headers "#~").or (contents? data headers "#-")
  blobs := contents? data headers "#Blob"
  guids := contents? data headers "#GUID"

def Streams.image (version : String) (s : Streams) : Except FormatError Image :=
  match s.pdb with
  | none => .error .missingPdbStream
  | some pdb =>
    match s.tables with
    | none => .error .missingTableStream
    | some tables => do
      Image.ofTableStream version (← PdbStream.read pdb) (s.blobs.getD []) (s.guids.getD []) tables

theorem stream?_of_headers {data : Bytes} {headers : List Header} {version name : String}
    (hname : PlainText name) :
    Root.stream? ⟨version, headers.map (Header.stream data)⟩ name = contents? data headers name := by
  have htest : (fun s : Stream => decide (s.name = name)) ∘ Header.stream data =
      fun h => decide (h.name = Signature.ofText name) := by
    funext h
    exact decide_eq_decide.mpr (decodeLenient_eq_iff hname)
  rw [Root.stream?, List.find?_map, htest, Option.map_map]
  rfl

/-- Of a readable file nothing but the version and the four streams is seen. -/
theorem Readable.image_read {data : Bytes} {versionSize : Nat} {headers : List Header}
    (h : Readable data versionSize headers) :
    Image.read data = (Streams.of data headers).image (versionText data versionSize) := by
  have hpdb : PlainText "#Pdb" := by decide
  have htables : PlainText "#~" := by decide
  have hunordered : PlainText "#-" := by decide
  have hblobs : PlainText "#Blob" := by decide
  have hguids : PlainText "#GUID" := by decide
  simp only [Image.read, h.read, bind, Except.bind, Image.ofRoot, stream?_of_headers, hpdb,
    htables, hunordered, hblobs, hguids]
  rfl

namespace Image

def withVersion (version : String) (p : Image) : Image := { p with version }

theorem ofTableStream_version (version other : String) (pdb : PdbStream)
    (blobHeap guidHeap stream : Bytes) :
    ofTableStream other pdb blobHeap guidHeap stream =
      (ofTableStream version pdb blobHeap guidHeap stream).map (withVersion other) := by
  unfold ofTableStream
  split
  · rfl
  · rename_i heapSizes _
    cases uint stream 8 8 with
    | error e => rfl
    | ok valid =>
      cases hpresent : debugRowCountsAt stream 24 (bitsSet valid) with
      | error e => simp only [hpresent, bind, Except.bind, Except.map]
      | ok present =>
        simp only [hpresent, bind, Except.bind]
        have hsize : ∀ v, (ofCounts v pdb blobHeap guidHeap stream heapSizes present).rowsStart +
            (ofCounts v pdb blobHeap guidHeap stream heapSizes present).rowsSize =
            (ofCounts version pdb blobHeap guidHeap stream heapSizes present).rowsStart +
            (ofCounts version pdb blobHeap guidHeap stream heapSizes present).rowsSize :=
          fun _ => rfl
        rw [hsize other]
        split <;> rfl

end Image

theorem Streams.image_version (s : Streams) (version other : String) :
    s.image other = (s.image version).map (Image.withVersion other) := by
  unfold Streams.image
  cases s.pdb with
  | none => rfl
  | some pdb =>
    cases s.tables with
    | none => rfl
    | some tables =>
      cases hpdb : PdbStream.read pdb with
      | error e => simp only [hpdb, bind, Except.bind, Except.map]
      | ok pdb =>
        simp only [hpdb, bind, Except.bind]
        exact Image.ofTableStream_version version other ..

namespace Image

variable {p : Image} {version : String}

theorem nameParts_withVersion (name : Bytes) (fuel offset : Nat) :
    (p.withVersion version).nameParts name fuel offset = p.nameParts name fuel offset := by
  induction fuel generalizing offset with
  | zero => rfl
  | succ fuel ih =>
    simp only [nameParts, ih]
    rfl

theorem documentName_withVersion (index : Nat) :
    (p.withVersion version).documentName index = p.documentName index := by
  simp only [documentName, nameParts_withVersion]
  rfl

theorem recordsNaming_withVersion (document : Nat) :
    (p.withVersion version).recordsNaming document = p.recordsNaming document := rfl

theorem WellFormed.withVersion (hp : p.WellFormed) (version : String) :
    (p.withVersion version).WellFormed := ⟨hp.ascending, hp.rows_fit⟩

end Image

theorem Reader.Of.container_withVersion {p : Image} {version : String} {r r' : Reader}
    (h : r.Of p) (h' : r'.Of (p.withVersion version)) (hp : p.WellFormed) :
    r'.container = r.container := by
  have hdocument : r'.document = r.document := by
    funext row
    cases hrow : p.row .document row with
    | error e =>
      have hrow' : (p.withVersion version).row .document row = .error e := hrow
      simp only [Reader.document, h.image, h'.image, hrow, hrow', mapError_error, bind,
        Except.bind]
    | ok values =>
      rw [h.document_of_row hp hrow, h'.document_of_row (hp.withVersion version) hrow,
        Image.documentName_withVersion, Image.recordsNaming_withVersion]
  rw [Reader.container, Reader.container, hdocument, h.image, h'.image]
  rfl

/-- What two images answer alike, whatever has been asked of their readers before. -/
structure Alike (p q : Image) : Prop where
  id : p.id = q.id
  entryPoint : p.entryPoint = q.entryPoint
  records : ∀ calls calls' document, ((Session.after p calls).reader.records document).1 =
    ((Session.after q calls').reader.records document).1
  walks : ∀ calls calls', ∀ w ∈ (Session.after p calls).walks,
    ∀ w' ∈ (Session.after q calls').walks, w.document = w'.document →
      w.answers.length = w'.answers.length → w.answers = w'.answers
  documents : ∀ calls calls', (Session.after p calls).reader.container =
    (Session.after q calls').reader.container
  container : p.container = q.container
  extracted : extract p.container = extract q.container

theorem Image.WellFormed.alike_withVersion {p : Image} (hp : p.WellFormed) (version : String) :
    Alike p (p.withVersion version) := by
  have hq := hp.withVersion version
  have hcontainer : p.container = (p.withVersion version).container := by
    obtain ⟨r, hindex, hof⟩ := (Reader.ofImage_of p).parentIndex
    obtain ⟨r', hindex', hof'⟩ := (Reader.ofImage_of (p.withVersion version)).parentIndex
    rw [Image.container, Image.container, hindex, hindex']
    exact (hof.container_withVersion hof' hp).symm
  refine ⟨rfl, rfl, ?_, ?_, ?_, hcontainer, congrArg extract hcontainer⟩
  · intro calls calls' document
    rw [((Session.after_consistent hp calls).reader.records hp document).1,
      ((Session.after_consistent hq calls').reader.records hq document).1]
    rfl
  · intro calls calls' w hw w' hw' hdocument hlength
    rw [(Session.after_consistent hp calls).given w hw,
      (Session.after_consistent hq calls').given w' hw', hdocument, hlength]
    rfl
  · intro calls calls'
    exact ((Session.after_consistent hp calls).reader.container_withVersion
      (Session.after_consistent hq calls').reader hp).symm

/-- Of two readable files with the same four streams both are refused, for one reason, or both
become images that nothing but their versions tells apart. Neither the version nor other streams,
neither the number nor the order of headers, neither the places nor the overlaps of contents
matter. -/
theorem images_alike_of_same_streams {a b : Bytes} {size size' : Nat} {headers headers' : List Header}
    (ha : Readable a size headers) (hb : Readable b size' headers')
    (h : Streams.of a headers = Streams.of b headers') :
    (∃ e, Image.read a = .error e ∧ Image.read b = .error e) ∨
      ∃ p q, Image.read a = .ok p ∧ Image.read b = .ok q ∧ Alike p q := by
  have hread : Image.read b = (Image.read a).map (Image.withVersion (versionText b size')) := by
    rw [ha.image_read, hb.image_read, ← h]
    exact Streams.image_version ..
  cases hp : Image.read a with
  | error e => exact .inl ⟨e, rfl, by rw [hread, hp]; rfl⟩
  | ok p =>
    have hq : Image.read b = .ok (p.withVersion (versionText b size')) := by rw [hread, hp]; rfl
    exact .inr ⟨p, _, rfl, hq, (Image.read_wellFormed hp).alike_withVersion _⟩

def scatteredHeaders : List Header :=
  [⟨0, 100, Signature.ofText "other"⟩, ⟨216, 32, Signature.ofText "#Blob"⟩,
    ⟨248, 64, Signature.ofText "#GUID"⟩, ⟨116, 68, Signature.ofText "#-"⟩,
    ⟨184, 32, Signature.ofText "#Pdb"⟩, ⟨240, 20, Signature.ofText "#Pdb"⟩]

def scattered : Bytes :=
  Signature.portablePdb ++ List.replicate 8 0 ++ Bytes.ofNatLE 4 4 ++ [118, 50, 0, 0] ++
    Bytes.ofNatLE 2 0 ++ Bytes.ofNatLE 2 scatteredHeaders.length ++
    scatteredHeaders.flatMap (fun h => h.bytes.padTo 4) ++
    ["#~", "#Pdb", "#Blob", "#GUID"].flatMap fun name => (folder.streams.lookup name).getD []

theorem folder_scattered_alike :
    ∃ p q, Image.read (Writer.write folder) = .ok p ∧ Image.read scattered = .ok q ∧ Alike p q := by
  have hfolder : Readable (Writer.write folder) 12
      (headersFrom (Writer.bodyStart folder.streams) folder.streams) :=
    root_readable (by decide +kernel) (by decide +kernel) (by decide +kernel)
  have hscattered : Readable scattered 4 scatteredHeaders :=
    ⟨by decide +kernel, by decide +kernel, by decide +kernel, by decide +kernel,
      by decide +kernel⟩
  have hok : (Image.read scattered).toOption.isSome = true := by decide +kernel
  rcases images_alike_of_same_streams hfolder hscattered (by decide +kernel) with
    ⟨e, _, herror⟩ | halike
  · simp [herror, Except.toOption] at hok
  · exact halike

end SourceRecovery.Pdb
