import SourceRecovery.Pdb.Writer
import SourceRecovery.Proofs.StreamHeaders

/-! The reader finds every stream of a metadata root where the writer has put it. Headers and data
are followed side by side: each header names the place at which its data lies. -/
namespace SourceRecovery

/-- ASCII text without a zero. -/
def PlainText (text : String) : Prop := ∀ c ∈ text.toList, 0 < c.toNat ∧ c.toNat < 0x80

instance (text : String) : Decidable (PlainText text) :=
  List.decidableBAll (fun c : Char => 0 < c.toNat ∧ c.toNat < 0x80) text.toList

theorem PlainText.decodeLenient {text : String} (h : PlainText text) :
    Ascii.decodeLenient (Signature.ofText text) = text := by
  unfold Ascii.decodeLenient Signature.ofText
  have hchars : (text.toList.map fun c => UInt8.ofNat c.toNat).map
      (fun b : UInt8 => if b < 0x80 then Char.ofNat b.toNat else '\uFFFD') = text.toList := by
    rw [List.map_map]
    refine (List.map_congr_left fun c hc => ?_).trans (List.map_id _)
    obtain ⟨_, hlt⟩ := h c hc
    have hbyte : (UInt8.ofNat c.toNat).toNat = c.toNat := by
      rw [UInt8.toNat_ofNat']
      omega
    simp only [Function.comp_apply, UInt8.lt_iff_toNat_lt, hbyte]
    rw [if_pos (by change _ < 128; exact hlt), Char.ofNat_toNat]
    rfl
  rw [hchars, String.ofList_toList]

theorem decodeLenient_eq_iff {text : String} (h : PlainText text) {data : Bytes} :
    Ascii.decodeLenient data = text ↔ data = Signature.ofText text := by
  constructor
  · rintro rfl
    have hbyte : ∀ b ∈ data,
        UInt8.ofNat (if b < 0x80 then Char.ofNat b.toNat else '\uFFFD').toNat = b := by
      intro b hb
      have hmem : (if b < 0x80 then Char.ofNat b.toNat else '\uFFFD') ∈
          (Ascii.decodeLenient data).toList := by
        rw [Ascii.decodeLenient, String.toList_ofList]
        exact List.mem_map_of_mem hb
      obtain ⟨_, hplain⟩ := h _ hmem
      split
      · rename_i hlt
        rw [UInt8.lt_iff_toNat_lt] at hlt
        have hvalid : b.toNat.isValidChar := Or.inl (Nat.lt_trans hlt (by decide))
        rw [Char.ofNat, dif_pos hvalid]
        exact UInt8.ofNat_toNat
      · rename_i hlt
        rw [if_neg hlt] at hplain
        exact absurd hplain (by decide)
    rw [Signature.ofText, Ascii.decodeLenient, String.toList_ofList, List.map_map]
    exact ((List.map_congr_left hbyte).trans (List.map_id _)).symm
  · rintro rfl
    exact h.decodeLenient

theorem PlainText.zero_not_mem {text : String} (h : PlainText text) :
    0 ∉ Signature.ofText text := by
  intro hzero
  obtain ⟨c, hc, hbyte⟩ := List.mem_map.mp hzero
  obtain ⟨hpos, hlt⟩ := h c hc
  have hnat := congrArg UInt8.toNat hbyte
  rw [UInt8.toNat_ofNat'] at hnat
  change _ = 0 at hnat
  omega

namespace Pdb

open Writer

theorem nameBytes_length (name : String) :
    (nameBytes name).length = paddedNameSize (Signature.ofText name).length := by
  simp only [nameBytes, Bytes.padTo, paddedNameSize, List.length_append, List.length_singleton,
    List.length_replicate]
  omega

def Placeable : (offset : Nat) → List NamedStream → Prop
  | _, [] => True
  | offset, (_, data) :: rest =>
    offset < Bytes.capacity 4 ∧ data.length < Bytes.capacity 4 ∧
      Placeable (offset + data.length) rest

def decidePlaceable : (offset : Nat) → (streams : List NamedStream) →
    Decidable (Placeable offset streams)
  | _, [] => isTrue trivial
  | offset, (_, data) :: rest =>
    have := decidePlaceable (offset + data.length) rest
    inferInstanceAs (Decidable (_ ∧ _ ∧ Placeable (offset + data.length) rest))

instance (offset : Nat) (streams : List NamedStream) : Decidable (Placeable offset streams) :=
  decidePlaceable offset streams

def toStream : NamedStream → Stream
  | (name, data) => ⟨name, data⟩

theorem nameBytes_zero (name : String) :
    ∃ zeros, nameBytes name = Signature.ofText name ++ 0 :: zeros := by
  obtain ⟨zeros, hzeros⟩ := Bytes.padTo_eq 4 (Signature.ofText name ++ [0])
  exact ⟨zeros, by rw [nameBytes, hzeros, List.append_assoc, List.singleton_append]⟩

/-- The headers of streams whose contents lie one behind the other from `start` on. -/
def headersFrom : (start : Nat) → List NamedStream → List Header
  | _, [] => []
  | start, (name, data) :: rest =>
    ⟨start, data.length, Signature.ofText name⟩ :: headersFrom (start + data.length) rest

theorem headersFrom_length (start : Nat) (streams : List NamedStream) :
    (headersFrom start streams).length = streams.length := by
  induction streams generalizing start with
  | nil => rfl
  | cons s rest ih => rw [headersFrom, List.length_cons, ih, List.length_cons]

theorem headersAt_written {image : Bytes} {headerAt start : Nat} {streams : List NamedStream}
    (hheaders : image.At headerAt (streamHeaders start streams))
    (hdata : image.At start (streams.flatMap fun (_, data) => data))
    (hnames : ∀ s ∈ streams, PlainText s.1) (hplaces : Placeable start streams) :
    HeadersAt image headerAt (headersFrom start streams) := by
  induction streams generalizing headerAt start with
  | nil => trivial
  | cons s rest ih =>
    obtain ⟨name, data⟩ := s
    obtain ⟨hstart, hsize, hrest⟩ := hplaces
    rw [List.flatMap_cons] at hdata
    have hfirst := hheaders.left
    have hnext := hheaders.right
    obtain ⟨zeros, hzeros⟩ := nameBytes_zero name
    have hbytes : Bytes.ofNatLE 4 start ++ Bytes.ofNatLE 4 data.length ++ nameBytes name =
        Header.bytes ⟨start, data.length, Signature.ofText name⟩ ++ zeros := by
      rw [hzeros, Header.bytes]
      simp
    simp only [List.length_append, Bytes.ofNatLE_length, nameBytes_length, Nat.reduceAdd] at hnext
    rw [hbytes] at hfirst
    exact ⟨⟨hfirst.left, hstart, hsize, (hnames _ List.mem_cons_self).zero_not_mem,
        hdata.left.le_length⟩,
      ih hnext hdata.right (fun s hs => hnames s (List.mem_cons_of_mem _ hs)) hrest⟩

theorem headersFrom_streams {image : Bytes} {start : Nat} {streams : List NamedStream}
    (hdata : image.At start (streams.flatMap fun (_, data) => data))
    (hnames : ∀ s ∈ streams, PlainText s.1) :
    (headersFrom start streams).map (Header.stream image) = streams.map toStream := by
  induction streams generalizing start with
  | nil => rfl
  | cons s rest ih =>
    obtain ⟨name, data⟩ := s
    rw [List.flatMap_cons] at hdata
    have hothers := ih hdata.right fun s hs => hnames s (List.mem_cons_of_mem _ hs)
    have hname := (hnames _ List.mem_cons_self).decodeLenient
    rw [headersFrom, List.map_cons, List.map_cons, hothers, Header.stream, Header.contents,
      hdata.left.slice, hname, toStream]

theorem streamHeaders_length (start : Nat) (streams : List NamedStream) :
    (streamHeaders start streams).length =
      (streams.map fun (name, _) => 8 + (nameBytes name).length).sum := by
  induction streams generalizing start with
  | nil => rfl
  | cons s rest ih =>
    obtain ⟨name, data⟩ := s
    simp only [streamHeaders, List.length_append, Bytes.ofNatLE_length, ih]
    rfl

theorem version_length : version.length = 12 := by decide

theorem root_body {streams : List NamedStream} :
    (root streams).At (bodyStart streams) (streams.flatMap fun (_, data) => data) := by
  have hdata := (Bytes.At.whole (root streams)).right
  have hsize : Signature.portablePdb.length = 4 := by decide
  simp only [List.length_append, Bytes.ofNatLE_length, hsize, version_length, streamHeaders_length,
    Nat.zero_add, Nat.reduceAdd] at hdata
  rw [bodyStart, version_length]
  exact hdata

theorem root_readable {streams : List NamedStream} (hnames : ∀ s ∈ streams, PlainText s.1)
    (hcount : streams.length < Bytes.capacity 2)
    (hplaces : Placeable (bodyStart streams) streams) :
    Readable (root streams) 12 (headersFrom (bodyStart streams) streams) := by
  have hall := Bytes.At.whole (root streams)
  have hheaders := hall.left.right
  have hstreams := hall.left.left.right
  have hversion := hall.left.left.left.left.left.right
  have hsize : Signature.portablePdb.length = 4 := by decide
  simp only [List.length_append, Bytes.ofNatLE_length, hsize, version_length,
    Nat.zero_add, Nat.reduceAdd] at hheaders hstreams hversion
  have hinside := hheaders.le_length
  exact {
    signature := hall.left.left.left.left.left.left.left.left.left
    version := ⟨hversion, by decide⟩
    inside := by omega
    count := by
      rw [headersFrom_length]
      exact ⟨hstreams, hcount⟩
    headers := headersAt_written hheaders root_body hnames hplaces }

theorem root_read {streams : List NamedStream} (hnames : ∀ s ∈ streams, PlainText s.1)
    (hcount : streams.length < Bytes.capacity 2)
    (hplaces : Placeable (bodyStart streams) streams) :
    Root.read (root streams) = .ok ⟨"PDB v1.0", streams.map toStream⟩ := by
  have hversion := (Bytes.At.whole (root streams)).left.left.left.left.right.slice
  have hsize : Signature.portablePdb.length = 4 := by decide
  simp only [List.length_append, Bytes.ofNatLE_length, hsize, version_length, Nat.zero_add,
    Nat.reduceAdd] at hversion
  have hname : versionText (root streams) 12 = "PDB v1.0" := by
    rw [versionText, hversion]
    decide
  rw [(root_readable hnames hcount hplaces).read, hname, headersFrom_streams root_body hnames]

end Pdb
end SourceRecovery
