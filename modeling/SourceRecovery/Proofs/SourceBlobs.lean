import SourceRecovery.Proofs.ByteFields
import SourceRecovery.Proofs.Sequences
import SourceRecovery.Proofs.StreamFronts
import SourceRecovery.Proofs.Utf8Sequences

/-! The blob of an embedded source. What it stores is read off its format alone, and decoding gives
a text exactly where the encoding of this text is stored. -/
namespace SourceRecovery

open Deflate

/-- The bytes that a blob stores: as they are behind a size of zero, or in a Deflate stream behind
their own size. Nothing is said of what lies behind the stream. -/
inductive Stores (blob raw : Bytes) : Prop where
  | plain (hlength : 4 ≤ blob.length) (hsize : Bytes.toNatLE (blob.take 4) = 0)
      (hraw : blob.drop 4 = raw)
  | deflated {stream rest : Bytes} (hlength : 4 ≤ blob.length)
      (hsize : Bytes.toNatLE (blob.take 4) = raw.length) (hpos : 0 < raw.length)
      (hbody : blob.drop 4 = stream ++ rest)
      (hstream : Decodes .blockStart #[] (BitStream.ofBytes stream) ⟨raw, .finished⟩)

theorem Payload.ofBlob_eq_ok_iff {blob : Bytes} {p : Payload} : Payload.ofBlob blob = .ok p ↔
    4 ≤ blob.length ∧ p = ⟨Bytes.toNatLE (blob.take 4), blob.drop 4⟩ := by
  unfold Payload.ofBlob
  constructor
  · intro h
    split at h
    · cases h
    · rename_i hlong
      cases h
      exact ⟨Nat.le_of_not_lt hlong, rfl⟩
  · rintro ⟨hlength, rfl⟩
    have hlong : ¬ blob.length < Payload.headerSize := Nat.not_lt_of_le hlength
    rw [if_neg hlong]
    rfl

theorem Stores.decodeSource_eq {blob raw : Bytes} (h : Stores blob raw) :
    decodeSource blob = (Utf8.decode raw).mapError .text := by
  cases h with
  | plain hlength hsize hraw =>
    have hplain : Payload.compressed ⟨0, raw⟩ = false := rfl
    have hpayload := Payload.ofBlob_eq_ok_iff.mpr ⟨hlength, rfl⟩
    simp only [decodeSource, hpayload, hsize, hraw, Payload.text, hplain, bind, Except.bind]
    rfl
  | deflated hlength hsize hpos hbody hstream =>
    rename_i stream rest
    have hcompressed : Payload.compressed ⟨raw.length, stream ++ rest⟩ = true := by
      simp only [Payload.compressed, bne_iff_ne]
      omega
    have hinflated := inflateExact_append (inflateExact_eq_ok_iff.mpr ⟨hstream, rfl⟩) rest
    have hpayload := Payload.ofBlob_eq_ok_iff.mpr ⟨hlength, rfl⟩
    simp only [decodeSource, hpayload, hsize, hbody, Payload.text, hcompressed, hinflated, if_true,
      bind, Except.bind]

theorem stores_of_decodeSource {blob : Bytes} {text : String} (h : decodeSource blob = .ok text) :
    Stores blob (Utf8.encode text) := by
  obtain ⟨payload, hpayload, h⟩ := bind_eq_ok.mp h
  obtain ⟨hlength, rfl⟩ := Payload.ofBlob_eq_ok_iff.mp hpayload
  unfold Payload.text at h
  dsimp only at h
  split at h
  · rename_i hcompressed
    obtain ⟨raw, hinflated, htext⟩ := bind_eq_ok.mp h
    obtain ⟨hstream, hsize⟩ := inflateExact_eq_ok_iff.mp hinflated
    have hpos : 0 < raw.length := by
      simp only [Payload.compressed, bne_iff_ne] at hcompressed
      omega
    rw [mapError_eq_ok, Utf8.decode_eq_ok_iff] at htext
    rw [← htext]
    exact .deflated hlength hsize.symm hpos (List.append_nil _).symm hstream
  · rename_i hplain
    obtain ⟨raw, hraw, htext⟩ := bind_eq_ok.mp h
    cases hraw
    rw [mapError_eq_ok, Utf8.decode_eq_ok_iff] at htext
    exact .plain hlength (by simpa [Payload.compressed] using hplain) htext

theorem decodeSource_eq_ok_iff {blob : Bytes} {text : String} :
    decodeSource blob = .ok text ↔ Stores blob (Utf8.encode text) := by
  constructor
  · exact stores_of_decodeSource
  · intro h
    rw [h.decodeSource_eq, Utf8.decode_eq_ok_iff.mpr rfl]
    rfl

theorem stores_plain (raw : Bytes) : Stores (Bytes.ofNatLE 4 0 ++ raw) raw :=
  .plain (Nat.le_add_left 4 _) rfl rfl

theorem stores_deflated {raw stream : Bytes} (rest : Bytes) (hpos : 0 < raw.length)
    (hfits : raw.length < Bytes.capacity 4)
    (hstream : Decodes .blockStart #[] (BitStream.ofBytes stream) ⟨raw, .finished⟩) :
    Stores (Bytes.ofNatLE 4 raw.length ++ (stream ++ rest)) raw := by
  have hsize := Bytes.ofNatLE_length 4 raw.length
  refine .deflated ?_ ?_ hpos (List.drop_left' hsize) hstream
  · rw [List.length_append, hsize]
    exact Nat.le_add_right 4 _
  · rw [List.take_left' hsize, Bytes.toNatLE_ofNatLE hfits]

/-- Bytes that say zero are all zero, so that plain blobs differ in what they store only. -/
theorem eq_of_stores_plain {blob raw : Bytes} (hlength : 4 ≤ blob.length)
    (hsize : Bytes.toNatLE (blob.take 4) = 0) (hraw : blob.drop 4 = raw) :
    blob = Bytes.ofNatLE 4 0 ++ raw := by
  have hfront := Bytes.ofNatLE_toNatLE (blob.take 4)
  rw [hsize, List.length_take, Nat.min_eq_left hlength] at hfront
  rw [hfront, ← hraw, List.take_append_drop]

theorem plain_of_decodeSource {blob : Bytes} {text : String}
    (hsize : Bytes.toNatLE (blob.take 4) = 0) (h : decodeSource blob = .ok text) :
    blob = Bytes.ofNatLE 4 0 ++ Utf8.encode text := by
  cases stores_of_decodeSource h with
  | plain hlength _ hraw => exact eq_of_stores_plain hlength hsize hraw
  | deflated _ hstored hpos => omega

theorem Stores.malformed {blob raw : Bytes} (h : Stores blob raw) (hraw : ¬ Utf8.WellFormed raw) :
    ∃ e, decodeSource blob = .error (.text e) := by
  rw [h.decodeSource_eq]
  cases hdecode : Utf8.decode raw with
  | error e => exact ⟨e, rfl⟩
  | ok text => exact absurd (Utf8.wellFormed_iff.mpr ⟨text, Utf8.decode_eq_ok_iff.mp hdecode⟩) hraw

/-- Decoding inverts the format: a blob gives a text exactly if it stores its encoding and is refused
if it stores that of none. Every text comes back from a plain blob and, unless it is empty or its
size has no room, from one with any Deflate stream of it. A text has one plain blob, and what is not
well-formed is refused however it is stored. -/
theorem decodeSource_inverts_format :
    (∀ blob text, decodeSource blob = .ok text ↔ Stores blob (Utf8.encode text)) ∧
    (∀ blob, (∀ text, ¬ Stores blob (Utf8.encode text)) → ∃ e, decodeSource blob = .error e) ∧
    (∀ text, decodeSource (Bytes.ofNatLE 4 0 ++ Utf8.encode text) = .ok text) ∧
    (∀ text stream rest, 0 < Utf8.size text → Utf8.size text < Bytes.capacity 4 →
      Decodes .blockStart #[] (BitStream.ofBytes stream) ⟨Utf8.encode text, .finished⟩ →
      decodeSource (Bytes.ofNatLE 4 (Utf8.size text) ++ (stream ++ rest)) = .ok text) ∧
    (∀ blob blob' text, Bytes.toNatLE (blob.take 4) = 0 → Bytes.toNatLE (blob'.take 4) = 0 →
      decodeSource blob = .ok text → decodeSource blob' = .ok text → blob = blob') ∧
    ∀ blob raw, Stores blob raw → ¬ Utf8.WellFormed raw →
      ∃ e, decodeSource blob = .error (.text e) := by
  refine ⟨fun blob text => decodeSource_eq_ok_iff, ?_, ?_, ?_, ?_, ?_⟩
  · intro blob hnone
    cases hdecode : decodeSource blob with
    | error e => exact ⟨e, rfl⟩
    | ok text => exact absurd (stores_of_decodeSource hdecode) (hnone text)
  · intro text
    exact decodeSource_eq_ok_iff.mpr (stores_plain _)
  · intro text stream rest hpos hfits hstream
    exact decodeSource_eq_ok_iff.mpr (stores_deflated rest hpos hfits hstream)
  · intro blob blob' text hsize hsize' h h'
    rw [plain_of_decodeSource hsize h, plain_of_decodeSource hsize' h']
  · intro blob raw hstores hraw
    exact hstores.malformed hraw

/-- The same letter stored in a block with a byte behind it, and an overlong zero stored plainly. -/
theorem accent_and_overlong_decoded :
    decodeSource [2, 0, 0, 0, 1, 2, 0, 253, 255, 0xC3, 0xA9, 7] = .ok "é" ∧
    (∃ e, decodeSource [0, 0, 0, 0, 0xC0, 0x80] = .error (.text e)) ∧
    (∃ e, decodeSource [0, 0, 0] = .error e) ∧
    ∀ blob, Bytes.toNatLE (blob.take 4) = 0 → decodeSource blob = .ok "é" →
      blob = [0, 0, 0, 0, 0xC3, 0xA9] := by
  obtain ⟨_, hrefused, hplain, hdeflated, hone, hmalformed⟩ := decodeSource_inverts_format
  have hstream : inflate [1, 2, 0, 253, 255, 0xC3, 0xA9] = ⟨Utf8.encode "é", .finished⟩ := by rfl
  have hdecode : Utf8.decode [0xC0, 0x80] = .error ⟨0, [0xC0], .invalidStart⟩ := by
    decide +kernel
  have hoverlong : ¬ Utf8.WellFormed [0xC0, 0x80] := by
    intro h
    obtain ⟨text, htext⟩ := Utf8.wellFormed_iff.mp h
    cases hdecode.symm.trans (Utf8.decode_eq_ok_iff.mpr htext)
  have hshort : ∀ text, ¬ Stores [0, 0, 0] (Utf8.encode text) := by
    intro text h
    cases h with
    | plain hlength => exact absurd hlength (by decide)
    | deflated hlength => exact absurd hlength (by decide)
  refine ⟨?_, hmalformed _ _ (stores_plain [0xC0, 0x80]) hoverlong, hrefused _ hshort, ?_⟩
  · exact hdeflated "é" _ [7] (by decide) (by decide) (hstream ▸ inflate_decodes _)
  · intro blob hsize h
    exact hone blob _ "é" hsize rfl h (hplain "é")

end SourceRecovery
