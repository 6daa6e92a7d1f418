import SourceRecovery.Proofs.HeapContents

/-! Reads in the blob heap. A compressed integer is read whole or refused, and what is read ends
behind the place where it begins. So a blob never leaves the heap, and the parts of a document name
come to an end whatever blobs they lead to. -/
namespace SourceRecovery.Pdb

namespace Compressed

inductive Form where
  | short
  | medium
  | long
  deriving DecidableEq, Repr

namespace Form

def width : Form → Nat
  | short => 1
  | medium => 2
  | long => 4

def values : Form → Nat
  | short => 0x80
  | medium => 0x4000
  | long => 0x20000000

def ofLead? (lead : UInt8) : Option Form :=
  if lead < 0x80 then some short
  else if lead < 0xC0 then some medium
  else if lead < 0xE0 then some long
  else none

theorem width_pos (form : Form) : 0 < form.width := by
  cases form <;> decide

theorem mod_values_lt (form : Form) (n : Nat) : n % form.values < bound := by
  have hpos : 0 < form.values := by cases form <;> decide
  have hbound : form.values ≤ bound := by cases form <;> decide
  exact Nat.lt_of_lt_of_le (Nat.mod_lt n hpos) hbound

end Form

/-- What reading an integer at a place comes to. A form need not be the shortest for its value. -/
inductive Reads (data : Bytes) (offset : Nat) : Except Error (Nat × Nat) → Prop
  | value {lead form} (hlead : data[offset]? = some lead) (hform : Form.ofLead? lead = some form)
      (hinside : offset + form.width ≤ data.length) :
      Reads data offset
        (.ok (Bytes.toNatBE (data.slice offset form.width) % form.values, offset + form.width))
  | cut {lead form} (hlead : data[offset]? = some lead) (hform : Form.ofLead? lead = some form)
      (hcut : data.length < offset + form.width) : Reads data offset (.error (.truncated offset))
  | reserved {lead} (hlead : data[offset]? = some lead) (hform : Form.ofLead? lead = none) :
      Reads data offset (.error (.leadByte lead))
  | beyond (hend : data.length ≤ offset) : Reads data offset (.error (.outOfRange offset))

variable {data : Bytes} {offset value next : Nat}

theorem toNatBE_short {a : UInt8} (h : a < 0x80) :
    Bytes.toNatBE [a] % Form.short.values = a.toNat := by
  have ha : a.toNat < 128 := h
  simp only [Bytes.toNatBE, List.foldl_cons, List.foldl_nil, Form.values]
  omega

theorem toNatBE_medium (a b : UInt8) :
    Bytes.toNatBE [a, b] % Form.medium.values = a.toNat % 64 * 0x100 + b.toNat := by
  have hb := b.toNat_lt
  simp only [Bytes.toNatBE, List.foldl_cons, List.foldl_nil, Form.values]
  omega

theorem toNatBE_long (a b c d : UInt8) :
    Bytes.toNatBE [a, b, c, d] % Form.long.values =
      a.toNat % 32 * 0x1000000 + b.toNat * 0x10000 + c.toNat * 0x100 + d.toNat := by
  have hb := b.toNat_lt
  have hc := c.toNat_lt
  have hd := d.toNat_lt
  simp only [Bytes.toNatBE, List.foldl_cons, List.foldl_nil, Form.values]
  omega

theorem lead_of_drop {lead : UInt8} {others : Bytes} (hdrop : data.drop offset = lead :: others) :
    data[offset]? = some lead := by
  rw [← List.head?_drop, hdrop, List.head?_cons]

theorem Reads.of_drop {lead : UInt8} {form : Form} (others more : Bytes)
    (hdrop : data.drop offset = lead :: others ++ more) (hform : Form.ofLead? lead = some form)
    (hwidth : (lead :: others).length = form.width) :
    Reads data offset
      (.ok (Bytes.toNatBE (lead :: others) % form.values, offset + form.width)) := by
  have hslice : data.slice offset form.width = lead :: others := by
    rw [Bytes.slice, hdrop, List.take_left' hwidth]
  have hinside : offset + form.width ≤ data.length := by
    have hlength := congrArg List.length hdrop
    rw [List.length_drop, List.length_append, hwidth] at hlength
    have hpos := form.width_pos
    omega
  rw [← hslice]
  exact .value (lead_of_drop hdrop) hform hinside

theorem Reads.of_short_drop {lead : UInt8} {others : Bytes} {form : Form}
    (hdrop : data.drop offset = lead :: others) (hform : Form.ofLead? lead = some form)
    (hfew : others.length + 1 < form.width) : Reads data offset (.error (.truncated offset)) := by
  have hlength := congrArg List.length hdrop
  rw [List.length_drop, List.length_cons] at hlength
  exact .cut (lead_of_drop hdrop) hform (by omega)

theorem read_reads (data : Bytes) (offset : Nat) : Reads data offset (read data offset) := by
  rw [read]
  cases hdrop : data.drop offset with
  | nil => exact .beyond (List.drop_eq_nil_iff.mp hdrop)
  | cons lead rest =>
    dsimp only
    by_cases hshort : lead < 0x80
    · rw [if_pos hshort, ← toNatBE_short hshort]
      exact .of_drop [] rest hdrop (if_pos hshort) rfl
    rw [if_neg hshort]
    by_cases hmedium : lead < 0xC0
    · have hform : Form.ofLead? lead = some .medium := by
        rw [Form.ofLead?, if_neg hshort, if_pos hmedium]
      rw [if_pos hmedium]
      rcases rest with _ | ⟨b, more⟩
      · exact .of_short_drop hdrop hform (by decide)
      · dsimp only
        rw [← toNatBE_medium]
        exact .of_drop [b] more hdrop hform rfl
    rw [if_neg hmedium]
    by_cases hlong : lead < 0xE0
    · have hform : Form.ofLead? lead = some .long := by
        rw [Form.ofLead?, if_neg hshort, if_neg hmedium, if_pos hlong]
      rw [if_pos hlong]
      rcases rest with _ | ⟨b, _ | ⟨c, _ | ⟨d, more⟩⟩⟩
      · exact .of_short_drop hdrop hform (by decide)
      · exact .of_short_drop hdrop hform (by decide : 2 < 4)
      · exact .of_short_drop hdrop hform (by decide : 3 < 4)
      · dsimp only
        rw [← toNatBE_long]
        exact .of_drop [b, c, d] more hdrop hform rfl
    · rw [if_neg hlong]
      refine .reserved (lead_of_drop hdrop) ?_
      rw [Form.ofLead?, if_neg hshort, if_neg hmedium, if_neg hlong]

theorem read_advances (h : read data offset = .ok (value, next)) :
    value < bound ∧ offset < next ∧ next ≤ data.length := by
  have hreads := read_reads data offset
  rw [h] at hreads
  cases hreads with
  | @value lead form _ _ hinside =>
    refine ⟨form.mod_values_lt _, ?_, hinside⟩
    exact Nat.lt_add_of_pos_right form.width_pos

end Compressed

namespace Image

variable {p : Image} {name : Bytes} {offset : Nat}

theorem blob_inside {index : Nat} {data : Bytes} (h : p.blob index = .ok data) :
    index = 0 ∧ data = [] ∨ ∃ start, index < start ∧ p.blobHeap.At start data := by
  unfold blob at h
  split at h
  · rename_i hzero
    cases h
    exact Or.inl ⟨hzero, rfl⟩
  split at h
  · cases h
  obtain ⟨⟨length, start⟩, hread, h⟩ := bind_eq_ok.mp h
  obtain ⟨_, hlow, _⟩ := Compressed.read_advances (mapError_eq_ok.mp hread)
  dsimp only at h
  split at h
  · cases h
  · rename_i hend
    cases h
    have hfield := Bytes.field_of_le (Nat.le_of_not_lt hend)
    exact Or.inr ⟨start, hlow, (Bytes.field_eq_ok_iff.mp hfield).1⟩

/-- Passes of the loop that takes the parts of a name from a place on, how many there are and what
they come to. Nothing here bounds their number. -/
inductive Passes (p : Image) (name : Bytes) :
    (offset passes : Nat) → Except HeapError (List String) → Prop
  | ended {offset : Nat} (hend : name.length ≤ offset) : Passes p name offset 0 (.ok [])
  | badIndex {offset : Nat} {e} (hopen : offset < name.length)
      (hread : Compressed.read name offset = .error e) : Passes p name offset 1 (.error (.length e))
  | badPart {offset index next : Nat} {e} (hopen : offset < name.length)
      (hread : Compressed.read name offset = .ok (index, next)) (hpart : p.blob index = .error e) :
      Passes p name offset 1 (.error e)
  | part {offset index next passes : Nat} {part result} (hopen : offset < name.length)
      (hread : Compressed.read name offset = .ok (index, next)) (hpart : p.blob index = .ok part)
      (hrest : Passes p name next passes result) :
      Passes p name offset (passes + 1) (result.map (Utf8.decodeLenient part :: ·))

/-- A pass takes a byte at least, so there are no more passes than bytes. -/
theorem Passes.passes_le {passes : Nat} {result : Except HeapError (List String)}
    (h : p.Passes name offset passes result) : passes ≤ name.length - offset := by
  induction h with
  | ended => exact Nat.zero_le _
  | badIndex hopen => omega
  | badPart hopen => omega
  | part hopen hread hpart hrest ih =>
    obtain ⟨_, hlow, hhigh⟩ := Compressed.read_advances hread
    omega

theorem Passes.unique {passes passes' : Nat} {result result' : Except HeapError (List String)}
    (h : p.Passes name offset passes result) (h' : p.Passes name offset passes' result') :
    passes = passes' ∧ result = result' := by
  induction h generalizing passes' result' with
  | ended hend =>
    cases h' with
    | ended => exact ⟨rfl, rfl⟩
    | badIndex hopen | badPart hopen | part hopen => omega
  | badIndex hopen hread =>
    cases h' with
    | ended hend => omega
    | badIndex _ hread' =>
      cases hread.symm.trans hread'
      exact ⟨rfl, rfl⟩
    | badPart _ hread' | part _ hread' => cases hread.symm.trans hread'
  | badPart hopen hread hpart =>
    cases h' with
    | ended hend => omega
    | badIndex _ hread' => cases hread.symm.trans hread'
    | badPart _ hread' hpart' =>
      cases hread.symm.trans hread'
      cases hpart.symm.trans hpart'
      exact ⟨rfl, rfl⟩
    | part _ hread' hpart' =>
      cases hread.symm.trans hread'
      cases hpart.symm.trans hpart'
  | part hopen hread hpart _ ih =>
    cases h' with
    | ended hend => omega
    | badIndex _ hread' => cases hread.symm.trans hread'
    | badPart _ hread' hpart' =>
      cases hread.symm.trans hread'
      cases hpart.symm.trans hpart'
    | part _ hread' hpart' hrest' =>
      cases hread.symm.trans hread'
      cases hpart.symm.trans hpart'
      obtain ⟨rfl, rfl⟩ := ih hrest'
      exact ⟨rfl, rfl⟩

theorem nameParts_passes {fuel : Nat} (hfuel : name.length - offset ≤ fuel) :
    ∃ passes, p.Passes name offset passes (p.nameParts name fuel offset) := by
  induction fuel generalizing offset with
  | zero => exact ⟨0, .ended (by omega)⟩
  | succ fuel ih =>
    rw [nameParts]
    by_cases hend : name.length ≤ offset
    · rw [if_pos hend]
      exact ⟨0, .ended hend⟩
    have hopen : offset < name.length := Nat.lt_of_not_le hend
    rw [if_neg hend]
    cases hread : Compressed.read name offset with
    | error e => exact ⟨1, .badIndex hopen hread⟩
    | ok taken =>
      obtain ⟨index, next⟩ := taken
      cases hpart : p.blob index with
      | error e =>
        simp only [mapError_ok, bind, Except.bind, hpart]
        exact ⟨1, .badPart hopen hread hpart⟩
      | ok part =>
        obtain ⟨_, hlow, hhigh⟩ := Compressed.read_advances hread
        have hleft : name.length - next ≤ fuel := by omega
        obtain ⟨passes, hrest⟩ := ih hleft
        simp only [mapError_ok, bind, Except.bind, hpart]
        refine ⟨passes + 1, ?_⟩
        have h := Passes.part hopen hread hpart hrest
        cases hresult : p.nameParts name fuel next with
        | error e => rwa [hresult] at h
        | ok parts => rwa [hresult] at h

/-- The loop over the parts of a name always ends, after fewer passes than the name's blob has
bytes, and the name is what its one run comes to. -/
theorem documentName_passes {index : Nat} {first : UInt8} {rest : Bytes}
    (h : p.blob index = .ok (first :: rest)) :
    ∃ passes result, p.Passes (first :: rest) 1 passes result ∧ passes ≤ rest.length ∧
      (∀ passes' result', p.Passes (first :: rest) 1 passes' result' →
        passes' = passes ∧ result' = result) ∧
      p.documentName index = result.map (separator first).intercalate := by
  have hfuel : (first :: rest).length - 1 ≤ (first :: rest).length := Nat.sub_le _ _
  obtain ⟨passes, hpasses⟩ := p.nameParts_passes hfuel
  refine ⟨passes, _, hpasses, hpasses.passes_le, ?_, ?_⟩
  · intro passes' result' hother
    exact hother.unique hpasses
  · simp only [documentName, h, bind, Except.bind]
    cases p.nameParts (first :: rest) (first :: rest).length 1 <;> rfl

/-- Integers come back in place from among any bytes, and whatever else is read ends inside the
string and behind its beginning or is refused. So a blob lies in the heap behind its index, and the
loop over the parts of a name ends, in one way, after fewer passes than the name has bytes. -/
theorem compressed_reads_advance :
    (∀ value (front back : Bytes), value < Compressed.bound →
      Compressed.read (front ++ Compressed.encode value ++ back) front.length =
        .ok (value, front.length + (Compressed.encode value).length)) ∧
    (∀ data offset, Compressed.Reads data offset (Compressed.read data offset)) ∧
    (∀ data offset value next, Compressed.read data offset = .ok (value, next) →
      value < Compressed.bound ∧ offset < next ∧ next ≤ data.length) ∧
    (∀ (p : Image) index data, p.blob index = .ok data →
      index = 0 ∧ data = [] ∨ ∃ start, index < start ∧ p.blobHeap.At start data) ∧
    ∀ (p : Image) index first rest, p.blob index = .ok (first :: rest) →
      ∃ passes result, p.Passes (first :: rest) 1 passes result ∧ passes ≤ rest.length ∧
        (∀ passes' result', p.Passes (first :: rest) 1 passes' result' →
          passes' = passes ∧ result' = result) ∧
        p.documentName index = result.map (separator first).intercalate := by
  refine ⟨?_, Compressed.read_reads, ?_, ?_, ?_⟩
  · intro value front back hvalue
    rw [List.append_assoc]
    exact Compressed.read_encode (.behind front _ back) hvalue
  · intro data offset value next
    exact Compressed.read_advances
  · intro p index data
    exact blob_inside
  · intro p index first rest
    exact documentName_passes

def selfNamed : Image where
  version := ""
  id := []
  entryPoint := 0
  blobHeap := [0, 4, 0x2F, 1, 1, 1]
  guidHeap := []
  tableStream := []
  wideStrings := false
  wideGuids := false
  wideBlobs := false
  referenced := []
  present := []
  rowsStart := 24

theorem selfNamed_reads :
    let part := Utf8.decodeLenient [0x2F, 1, 1, 1]
    Compressed.read [7, 0xC0, 0, 0x40, 0, 9] 1 = .ok (0x4000, 5) ∧
    Compressed.read [0x80, 1] 0 = .ok (1, 2) ∧
    selfNamed.blob 1 = .ok [0x2F, 1, 1, 1] ∧
    (∃ start, 1 < start ∧ selfNamed.blobHeap.At start [0x2F, 1, 1, 1]) ∧
    selfNamed.Passes [0x2F, 1, 1, 1] 1 3 (.ok [part, part, part]) ∧
    selfNamed.documentName 1 = .ok ("/".intercalate [part, part, part]) := by
  intro part
  obtain ⟨hencode, _, _, hblob, hname⟩ := compressed_reads_advance
  have hread : selfNamed.blob 1 = .ok [0x2F, 1, 1, 1] := by rfl
  have hthree : selfNamed.Passes [0x2F, 1, 1, 1] 1 3 (.ok [part, part, part]) :=
    .part (by decide) rfl hread (.part (by decide) rfl hread (.part (by decide) rfl hread
      (.ended (by decide))))
  obtain ⟨_, _, _, _, honly, hdocument⟩ := hname selfNamed 1 0x2F [1, 1, 1] hread
  obtain ⟨_, hresult⟩ := honly 3 _ hthree
  have hseparator : separator 0x2F = "/" := by decide +kernel
  rw [← hresult, hseparator] at hdocument
  refine ⟨hencode 0x4000 [7] [9] (by decide), rfl, hread, ?_, hthree, hdocument⟩
  rcases hblob selfNamed 1 _ hread with ⟨hzero, _⟩ | hinside
  · cases hzero
  · exact hinside

end Image
end SourceRecovery.Pdb
