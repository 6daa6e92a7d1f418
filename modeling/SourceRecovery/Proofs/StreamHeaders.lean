import SourceRecovery.Pdb.Root
import SourceRecovery.Proofs.ByteFields
import SourceRecovery.Proofs.Sequences

/-! The metadata root, said without a reader. Each stream header names the place of its contents
and begins where the padding of the name before it ends; reading finds these headers and no
others. -/
namespace SourceRecovery

namespace Bytes

theorem uintAt_eq_ok_iff {data : Bytes} {width offset n : Nat} :
    data.uintAt width offset = .ok n ↔ data.At offset (ofNatLE width n) ∧ n < capacity width := by
  constructor
  · intro h
    obtain ⟨part, hpart, rfl⟩ := map_eq_ok.mp h
    obtain ⟨hat, rfl⟩ := field_eq_ok_iff.mp hpart
    exact ⟨by rwa [ofNatLE_toNatLE], toNatLE_lt rfl⟩
  · rintro ⟨hat, hlt⟩
    exact hat.uintAt hlt

theorem untilZero_zero {name : Bytes} (h : 0 ∉ name) (rest : Bytes) :
    untilZero (name ++ 0 :: rest) = name := by
  have hnone : ∀ b ∈ name, (b != 0) = true := by
    intro b hb
    rw [bne_iff_ne]
    rintro rfl
    exact h hb
  rw [untilZero, List.takeWhile_append_of_pos hnone]
  simp

theorem zero_not_mem_untilZero (data : Bytes) : 0 ∉ untilZero data := by
  intro h
  have hzero := List.all_eq_true.mp (List.all_takeWhile (l := data)) 0 h
  simp at hzero

theorem eq_untilZero_zero {data : Bytes} (h : (untilZero data).length ≠ data.length) :
    ∃ rest, data = untilZero data ++ 0 :: rest := by
  induction data with
  | nil => exact absurd rfl h
  | cons b rest ih =>
    by_cases hb : b = 0
    · subst hb
      exact ⟨rest, rfl⟩
    · have hcons : untilZero (b :: rest) = b :: untilZero rest := by
        rw [untilZero, List.takeWhile_cons_of_pos (by simpa using hb), untilZero]
      rw [hcons] at h ⊢
      obtain ⟨behind, hbehind⟩ := ih (by simpa using h)
      exact ⟨behind, congrArg (b :: ·) hbehind⟩

end Bytes

namespace Pdb

/-- A stream header: where the contents begin, how many bytes they are, and the name. -/
structure Header where
  start : Nat
  size : Nat
  name : Bytes
  deriving DecidableEq, Repr

namespace Header

def bytes (h : Header) : Bytes :=
  Bytes.ofNatLE 4 h.start ++ Bytes.ofNatLE 4 h.size ++ (h.name ++ [0])

def width (h : Header) : Nat := 8 + paddedNameSize h.name.length

def contents (data : Bytes) (h : Header) : Bytes := data.slice h.start h.size

def stream (data : Bytes) (h : Header) : Stream := ⟨Ascii.decodeLenient h.name, h.contents data⟩

structure LiesAt (data : Bytes) (offset : Nat) (h : Header) : Prop where
  bytes : data.At offset h.bytes
  start : h.start < Bytes.capacity 4
  size : h.size < Bytes.capacity 4
  name : 0 ∉ h.name
  contents : h.start + h.size ≤ data.length

instance (data : Bytes) (offset : Nat) (h : Header) : Decidable (h.LiesAt data offset) :=
  decidable_of_iff (data.At offset h.bytes ∧ h.start < Bytes.capacity 4 ∧
      h.size < Bytes.capacity 4 ∧ 0 ∉ h.name ∧ h.start + h.size ≤ data.length)
    ⟨fun ⟨hbytes, hstart, hsize, hname, hcontents⟩ => ⟨hbytes, hstart, hsize, hname, hcontents⟩,
      fun ⟨hbytes, hstart, hsize, hname, hcontents⟩ => ⟨hbytes, hstart, hsize, hname, hcontents⟩⟩

end Header

theorem streamAt_of_liesAt {data : Bytes} {offset : Nat} {h : Header}
    (hlies : h.LiesAt data offset) :
    streamAt data offset = .ok (h.stream data, offset + h.width) := by
  have hfield := hlies.bytes.left.field
  have hbehind := hlies.bytes.right
  simp only [List.length_append, Bytes.ofNatLE_length, Nat.reduceAdd] at hfield hbehind
  obtain ⟨back, hdrop⟩ := hbehind.drop
  rw [List.append_assoc, List.singleton_append] at hdrop
  have hname : Bytes.untilZero (data.drop (offset + 8)) = h.name := by
    rw [hdrop, Bytes.untilZero_zero hlies.name]
  have hterminated : h.name.length ≠ (data.drop (offset + 8)).length := by
    rw [hdrop, List.length_append, List.length_cons]
    omega
  have hinside : ¬ data.length < h.start + h.size := Nat.not_lt_of_le hlies.contents
  have htake : (Bytes.ofNatLE 4 h.start ++ Bytes.ofNatLE 4 h.size).take 4 =
      Bytes.ofNatLE 4 h.start := rfl
  have hrest : (Bytes.ofNatLE 4 h.start ++ Bytes.ofNatLE 4 h.size).drop 4 =
      Bytes.ofNatLE 4 h.size := rfl
  simp only [streamAt, hfield, mapError_ok, bind, Except.bind, htake, hrest,
    Bytes.toNatLE_ofNatLE hlies.start, Bytes.toNatLE_ofNatLE hlies.size, hname]
  rw [if_neg hterminated, if_neg hinside, Nat.add_assoc]
  rfl

theorem streamAt_eq_ok_iff {data : Bytes} {offset next : Nat} {stream : Stream} :
    streamAt data offset = .ok (stream, next) ↔
      ∃ h : Header, h.LiesAt data offset ∧ h.stream data = stream ∧ offset + h.width = next := by
  constructor
  · intro h
    obtain ⟨fields, hfields, h⟩ := bind_eq_ok.mp h
    obtain ⟨hat, hlength⟩ := Bytes.field_eq_ok_iff.mp (mapError_eq_ok.mp hfields)
    dsimp only at h
    split at h
    · cases h
    · rename_i hterminated
      split at h
      · cases h
      · rename_i hinside
        obtain ⟨rest, hrest⟩ := Bytes.eq_untilZero_zero hterminated
        cases h
        have hstart : (fields.take 4).length = 4 := by rw [List.length_take, hlength]; rfl
        have hsize : (fields.drop 4).length = 4 := by rw [List.length_drop, hlength]
        refine ⟨⟨Bytes.toNatLE (fields.take 4), Bytes.toNatLE (fields.drop 4),
          Bytes.untilZero (data.drop (offset + 8))⟩, ⟨?_, ?_, ?_, ?_, ?_⟩, rfl, ?_⟩
        · have hstored := Bytes.ofNatLE_toNatLE (fields.take 4)
          have hstored' := Bytes.ofNatLE_toNatLE (fields.drop 4)
          rw [hstart] at hstored
          rw [hsize] at hstored'
          rw [Header.bytes, hstored, hstored', List.take_append_drop]
          have hname : data.drop (offset + fields.length) =
              Bytes.untilZero (data.drop (offset + 8)) ++ [0] ++ rest := by
            rw [hlength, List.append_assoc]
            exact hrest
          exact hat.extend hname
        · exact Bytes.toNatLE_lt hstart
        · exact Bytes.toNatLE_lt hsize
        · exact Bytes.zero_not_mem_untilZero _
        · exact Nat.le_of_not_lt hinside
        · rw [Header.width, Nat.add_assoc]
  · rintro ⟨h, hlies, rfl, rfl⟩
    exact streamAt_of_liesAt hlies

/-- The headers lie one behind the other from `offset` on. The padding of a name counts for where
the next header begins and need not be there behind the last. -/
def HeadersAt (data : Bytes) : (offset : Nat) → List Header → Prop
  | _, [] => True
  | offset, h :: rest => h.LiesAt data offset ∧ HeadersAt data (offset + h.width) rest

def decideHeadersAt (data : Bytes) : (offset : Nat) → (headers : List Header) →
    Decidable (HeadersAt data offset headers)
  | _, [] => isTrue trivial
  | offset, h :: rest =>
    have := decideHeadersAt data (offset + h.width) rest
    inferInstanceAs (Decidable (_ ∧ HeadersAt data (offset + h.width) rest))

instance (data : Bytes) (offset : Nat) (headers : List Header) :
    Decidable (HeadersAt data offset headers) :=
  decideHeadersAt data offset headers

theorem streamsAt_eq_ok_iff {data : Bytes} {count offset : Nat} {streams : List Stream} :
    streamsAt data count offset = .ok streams ↔ ∃ headers, headers.length = count ∧
      HeadersAt data offset headers ∧ headers.map (Header.stream data) = streams := by
  induction count generalizing offset streams with
  | zero =>
    constructor
    · intro h
      cases h
      exact ⟨[], rfl, trivial, rfl⟩
    · rintro ⟨headers, hlength, -, rfl⟩
      rw [List.length_eq_zero_iff.mp hlength]
      rfl
  | succ count ih =>
    constructor
    · intro h
      obtain ⟨⟨stream, next⟩, hfirst, h⟩ := bind_eq_ok.mp h
      obtain ⟨others, hothers, h⟩ := bind_eq_ok.mp h
      cases h
      obtain ⟨first, hlies, rfl, rfl⟩ := streamAt_eq_ok_iff.mp hfirst
      obtain ⟨rest, rfl, hrest, rfl⟩ := ih.mp hothers
      exact ⟨first :: rest, rfl, ⟨hlies, hrest⟩, rfl⟩
    · rintro ⟨headers, hlength, hat, rfl⟩
      cases headers with
      | nil => cases hlength
      | cons first rest =>
        obtain ⟨hlies, hrest⟩ := hat
        have hothers := ih.mpr ⟨rest, Nat.succ.inj hlength, hrest, rfl⟩
        exact bind_eq_ok.mpr ⟨_, streamAt_of_liesAt hlies, bind_eq_ok.mpr ⟨_, hothers, rfl⟩⟩

/-- A metadata root behind the signature: a version of `versionSize` bytes, the number of headers
and the headers themselves. -/
structure Readable (data : Bytes) (versionSize : Nat) (headers : List Header) : Prop where
  signature : data.At 0 Signature.portablePdb
  version : data.At 12 (Bytes.ofNatLE 4 versionSize) ∧ versionSize < Bytes.capacity 4
  inside : 16 + versionSize ≤ data.length
  count : data.At (16 + versionSize + 2) (Bytes.ofNatLE 2 headers.length) ∧
    headers.length < Bytes.capacity 2
  headers : HeadersAt data (16 + versionSize + 4) headers

def versionText (data : Bytes) (versionSize : Nat) : String :=
  Ascii.decodeLenient (Bytes.untilZero (data.slice 16 versionSize))

theorem isPortablePdb_iff {data : Bytes} :
    Signature.isPortablePdb data = true ↔ data.At 0 Signature.portablePdb := by
  have hslice : data.slice 0 Signature.portablePdb.length =
      data.take Signature.portablePdb.length := rfl
  rw [Bytes.at_iff_slice, hslice, Signature.isPortablePdb, Signature.startsWith, beq_iff_eq]
  constructor
  · intro h
    refine ⟨?_, h⟩
    have hlength := congrArg List.length h
    rw [List.length_take] at hlength
    omega
  · exact And.right

theorem uint_eq_ok_iff {data : Bytes} {width offset n : Nat} : uint data width offset = .ok n ↔
    data.At offset (Bytes.ofNatLE width n) ∧ n < Bytes.capacity width := by
  rw [uint, mapError_eq_ok, Bytes.uintAt_eq_ok_iff]

/-- Whatever can be read as a root is readable, and what is found is what its headers say. -/
theorem Root.read_eq_ok_iff {data : Bytes} {r : Root} : Root.read data = .ok r ↔
    ∃ versionSize headers, Readable data versionSize headers ∧
      r = ⟨versionText data versionSize, headers.map (Header.stream data)⟩ := by
  constructor
  · intro h
    unfold Root.read at h
    split at h
    · cases h
    · rename_i hsignature
      obtain ⟨versionSize, hversionSize, h⟩ := bind_eq_ok.mp h
      dsimp only at h
      split at h
      · cases h
      · rename_i hversion
        obtain ⟨count, hcount, h⟩ := bind_eq_ok.mp h
        obtain ⟨streams, hstreams, h⟩ := bind_eq_ok.mp h
        cases h
        obtain ⟨headers, rfl, hheaders, rfl⟩ := streamsAt_eq_ok_iff.mp hstreams
        exact ⟨versionSize, headers, ⟨isPortablePdb_iff.mp (by simpa using hsignature),
          uint_eq_ok_iff.mp hversionSize, Nat.le_of_not_lt hversion, uint_eq_ok_iff.mp hcount,
          hheaders⟩, rfl⟩
  · rintro ⟨versionSize, headers, h, rfl⟩
    have hversion : ¬ data.length < 16 + versionSize := Nat.not_lt_of_le h.inside
    have hstreams := streamsAt_eq_ok_iff.mpr ⟨headers, rfl, h.headers, rfl⟩
    simp only [Root.read, isPortablePdb_iff.mpr h.signature, uint_eq_ok_iff.mpr h.version,
      if_neg hversion, uint_eq_ok_iff.mpr h.count, hstreams, bind, Except.bind]
    rfl

theorem Readable.read {data : Bytes} {versionSize : Nat} {headers : List Header}
    (h : Readable data versionSize headers) : Root.read data =
      .ok ⟨versionText data versionSize, headers.map (Header.stream data)⟩ :=
  Root.read_eq_ok_iff.mpr ⟨versionSize, headers, h, rfl⟩

end Pdb
end SourceRecovery
