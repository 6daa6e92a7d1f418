import SourceRecovery.Bytes

/-! Numbers and substrings put into a byte string are found there again.
Positions are given by what lies in front, so that a reader can follow a writer step by step. -/
namespace SourceRecovery.Bytes

/-- How many numbers `width` bytes can tell apart. -/
def capacity (width : Nat) : Nat := 1 <<< (8 * width)

theorem capacity_succ (width : Nat) : capacity (width + 1) = 256 * capacity width := by
  simp only [capacity, Nat.shiftLeft_eq, Nat.one_mul, Nat.mul_add, Nat.pow_add]
  omega

@[simp] theorem ofNatLE_length (width n : Nat) : (ofNatLE width n).length = width := by
  induction width generalizing n with
  | zero => rfl
  | succ width ih => simp [ofNatLE, ih]

theorem toNatLE_ofNatLE {width n : Nat} (h : n < capacity width) :
    toNatLE (ofNatLE width n) = n := by
  induction width generalizing n with
  | zero =>
    have hn : n = 0 := by simpa [capacity] using h
    simp [ofNatLE, toNatLE, hn]
  | succ width ih =>
    rw [capacity_succ] at h
    have hrest : n / 256 < capacity width := by omega
    simp only [ofNatLE, toNatLE, ih hrest, UInt8.toNat_ofNat']
    omega

@[simp] theorem ofNatBE_length (width n : Nat) : (ofNatBE width n).length = width := by
  simp [ofNatBE]

theorem toNatBE_append (data : Bytes) (b : UInt8) :
    toNatBE (data ++ [b]) = toNatBE data * 256 + b.toNat := by
  simp [toNatBE]

theorem toNatBE_ofNatBE {width n : Nat} (h : n < capacity width) :
    toNatBE (ofNatBE width n) = n := by
  induction width generalizing n with
  | zero =>
    have hn : n = 0 := by simpa [capacity] using h
    simp [ofNatBE, ofNatLE, toNatBE, hn]
  | succ width ih =>
    rw [capacity_succ] at h
    have hrest : n / 256 < capacity width := by omega
    have hsplit : ofNatBE (width + 1) n = ofNatBE width (n / 256) ++ [UInt8.ofNat n] := by
      simp [ofNatBE, ofNatLE]
    rw [hsplit, toNatBE_append, ih hrest, UInt8.toNat_ofNat']
    omega

/-- `part` lies in `data` from `offset` on. -/
def At (data : Bytes) (offset : Nat) (part : Bytes) : Prop :=
  ∃ front back, data = front ++ (part ++ back) ∧ front.length = offset

theorem At.whole (data : Bytes) : At data 0 data := ⟨[], [], by simp, rfl⟩

theorem At.here (part back : Bytes) : At (part ++ back) 0 part := ⟨[], back, rfl, rfl⟩

theorem At.behind (front part back : Bytes) : At (front ++ (part ++ back)) front.length part :=
  ⟨front, back, rfl, rfl⟩

theorem At.left {data : Bytes} {offset : Nat} {a b : Bytes} (h : At data offset (a ++ b)) :
    At data offset a := by
  obtain ⟨front, back, rfl, rfl⟩ := h
  exact ⟨front, b ++ back, by simp, rfl⟩

theorem At.right {data : Bytes} {offset : Nat} {a b : Bytes} (h : At data offset (a ++ b)) :
    At data (offset + a.length) b := by
  obtain ⟨front, back, rfl, rfl⟩ := h
  exact ⟨front ++ a, back, by simp, by simp⟩

theorem At.le_length {data : Bytes} {offset : Nat} {part : Bytes} (h : At data offset part) :
    offset + part.length ≤ data.length := by
  obtain ⟨front, back, rfl, rfl⟩ := h
  simp only [List.length_append]
  omega

theorem At.append {data : Bytes} {offset : Nat} {part : Bytes} (h : At data offset part)
    (more : Bytes) : At (data ++ more) offset part := by
  obtain ⟨front, back, rfl, rfl⟩ := h
  exact ⟨front, back ++ more, by simp, rfl⟩

theorem At.trans {data part inner : Bytes} {offset shift : Nat} (h : At data offset part)
    (hinner : At part shift inner) : At data (offset + shift) inner := by
  obtain ⟨front, back, rfl, rfl⟩ := h
  obtain ⟨before, behind, rfl, rfl⟩ := hinner
  exact ⟨front ++ before, behind ++ back, by simp, by simp⟩

theorem at_flatten {rows : List Bytes} {width k : Nat} {row : Bytes}
    (hwidth : ∀ r ∈ rows, r.length = width) (hrow : rows[k]? = some row) :
    At rows.flatten (width * k) row := by
  induction rows generalizing k with
  | nil => simp at hrow
  | cons first rest ih =>
    cases k with
    | zero =>
      cases hrow
      exact At.here _ _
    | succ k =>
      have hrest := ih (fun r hr => hwidth r (List.mem_cons_of_mem first hr)) (by simpa using hrow)
      have hplace := (At.behind first rest.flatten []).trans hrest
      rw [hwidth first List.mem_cons_self, List.append_nil] at hplace
      rw [List.flatten_cons, Nat.mul_succ, Nat.add_comm]
      exact hplace

theorem At.drop {data : Bytes} {offset : Nat} {part : Bytes} (h : At data offset part) :
    ∃ back, data.drop offset = part ++ back := by
  obtain ⟨front, back, rfl, rfl⟩ := h
  exact ⟨back, by simp⟩

theorem At.slice {data : Bytes} {offset : Nat} {part : Bytes} (h : At data offset part) :
    data.slice offset part.length = part := by
  obtain ⟨back, hdrop⟩ := h.drop
  simp [Bytes.slice, hdrop]

theorem At.field {data : Bytes} {offset : Nat} {part : Bytes} (h : At data offset part) :
    data.field offset part.length = .ok part := by
  rw [Bytes.field, if_pos h.le_length, h.slice]

theorem At.uintAt {data : Bytes} {offset width n : Nat} (h : At data offset (ofNatLE width n))
    (hn : n < capacity width) : data.uintAt width offset = .ok n := by
  have hfield := h.field
  rw [ofNatLE_length] at hfield
  rw [Bytes.uintAt, hfield]
  exact congrArg Except.ok (toNatLE_ofNatLE hn)

theorem field_of_le {data : Bytes} {offset size : Nat} (h : offset + size ≤ data.length) :
    data.field offset size = .ok (data.slice offset size) := by
  rw [field, if_pos h]

theorem padTo_eq (unit : Nat) (data : Bytes) : ∃ zeros, data.padTo unit = data ++ zeros :=
  ⟨_, rfl⟩

theorem ofNatLE_toNatLE (data : Bytes) : ofNatLE data.length (toNatLE data) = data := by
  induction data with
  | nil => rfl
  | cons b rest ih =>
    have hb := b.toNat_lt
    have hlow : UInt8.ofNat (b.toNat + 256 * toNatLE rest) = b := by
      rw [← UInt8.toNat_inj, UInt8.toNat_ofNat']
      omega
    have hhigh : (b.toNat + 256 * toNatLE rest) / 256 = toNatLE rest := by omega
    rw [List.length_cons, toNatLE, ofNatLE, hlow, hhigh, ih]

theorem slice_add (data : Bytes) (offset a b : Nat) :
    data.slice offset (a + b) = data.slice offset a ++ data.slice (offset + a) b := by
  rw [slice, slice, slice, List.take_add, List.drop_drop]

theorem slice_length_of_le {data : Bytes} {offset size : Nat} (h : offset + size ≤ data.length) :
    (data.slice offset size).length = size := by
  rw [slice, List.length_take, List.length_drop]
  omega

theorem flatten_slices (data : Bytes) (start width first count : Nat) :
    ((List.range' (first + 1) count).map fun n =>
      data.slice (start + (n - 1) * width) width).flatten =
      data.slice (start + first * width) (width * count) := by
  induction count generalizing first with
  | zero => simp [slice]
  | succ count ih =>
    have hnext : start + first * width + width = start + (first + 1) * width := by
      rw [Nat.succ_mul, Nat.add_assoc]
    rw [List.range'_succ, List.map_cons, List.flatten_cons, ih, Nat.add_sub_cancel,
      Nat.mul_succ, Nat.add_comm (width * count), slice_add, hnext]

theorem getElem?_of_slice_eq {a b : Bytes} {offset size i : Nat}
    (h : a.slice offset size = b.slice offset size) (hlow : offset ≤ i) (hhigh : i < offset + size) :
    a[i]? = b[i]? := by
  have hplace : ∀ data : Bytes, data[i]? = (data.slice offset size)[i - offset]? := by
    intro data
    rw [slice, List.getElem?_take_of_lt (by omega), List.getElem?_drop,
      Nat.add_sub_cancel' hlow]
  rw [hplace a, hplace b, h]

theorem slice_congr {a b : Bytes} {offset size : Nat}
    (h : ∀ i, offset ≤ i → i < offset + size → a[i]? = b[i]?) :
    a.slice offset size = b.slice offset size := by
  apply List.ext_getElem?
  intro i
  simp only [slice, List.getElem?_take, List.getElem?_drop]
  split
  · exact h (offset + i) (Nat.le_add_right _ _) (by omega)
  · rfl

theorem toNatLE_lt {data : Bytes} {width : Nat} (h : data.length = width) :
    toNatLE data < capacity width := by
  subst h
  induction data with
  | nil => decide
  | cons b rest ih =>
    have hb := b.toNat_lt
    rw [List.length_cons, capacity_succ, toNatLE]
    omega

theorem at_iff_slice {data : Bytes} {offset : Nat} {part : Bytes} : data.At offset part ↔
    offset + part.length ≤ data.length ∧ data.slice offset part.length = part := by
  constructor
  · intro h
    exact ⟨h.le_length, h.slice⟩
  · rintro ⟨hle, hslice⟩
    refine ⟨data.take offset, data.drop (offset + part.length), ?_, ?_⟩
    · have hrest : data.drop offset = part ++ data.drop (offset + part.length) := by
        rw [← List.take_append_drop part.length (data.drop offset), List.drop_drop]
        exact congrArg (· ++ data.drop (offset + part.length)) hslice
      rw [← hrest, List.take_append_drop]
    · rw [List.length_take]
      omega

instance (data : Bytes) (offset : Nat) (part : Bytes) : Decidable (data.At offset part) :=
  decidable_of_iff _ at_iff_slice.symm

theorem At.extend {data part more rest : Bytes} {offset : Nat} (h : data.At offset part)
    (hmore : data.drop (offset + part.length) = more ++ rest) : data.At offset (part ++ more) := by
  obtain ⟨front, back, rfl, rfl⟩ := h
  have hback : back = more ++ rest := by
    rw [← hmore, ← List.append_assoc, ← List.length_append, List.drop_left]
  exact ⟨front, rest, by rw [hback, List.append_assoc], rfl⟩

theorem field_eq_ok_iff {data : Bytes} {offset size : Nat} {part : Bytes} :
    data.field offset size = .ok part ↔ data.At offset part ∧ part.length = size := by
  constructor
  · intro h
    unfold field at h
    split at h
    · rename_i hle
      cases h
      have hlength := slice_length_of_le hle
      exact ⟨at_iff_slice.mpr ⟨by rwa [hlength], by rw [hlength]⟩, hlength⟩
    · cases h
  · rintro ⟨hat, rfl⟩
    exact hat.field

end SourceRecovery.Bytes
