import SourceRecovery.Text.Utf8

/-! Encoded text is cut into its own characters again, so decoding gives the text back. -/
namespace SourceRecovery.Utf8

def tailByte (n : Nat) : UInt8 := UInt8.ofNat (n % 64 + 128)

theorem tailByte_toNat (n : Nat) : (tailByte n).toNat = n % 64 + 128 := by
  rw [tailByte, UInt8.toNat_ofNat']
  omega

theorem payload_eq (b : UInt8) : payload b = b.toNat % 64 := by
  rw [payload, UInt8.toNat_and]
  exact Nat.and_two_pow_sub_one_eq_mod _ 6

theorem payload_tailByte (n : Nat) : payload (tailByte n) = n % 64 := by
  rw [payload_eq, tailByte_toNat]
  omega

theorem sequel_tailByte {start rest : Bytes} {value owed n : Nat} {low high : UInt8}
    (hlow : low.toNat ≤ n % 64 + 128) (hhigh : n % 64 + 128 ≤ high.toNat) :
    sequel start value (owed + 1) low high (tailByte n :: rest) =
      sequel (start ++ [tailByte n]) (value * 64 + n % 64) owed 0x80 0xBF rest := by
  have hrange : low ≤ tailByte n ∧ tailByte n ≤ high := by
    rw [UInt8.le_iff_toNat_le, UInt8.le_iff_toNat_le, tailByte_toNat]
    exact ⟨hlow, hhigh⟩
  rw [sequel, if_pos hrange, payload_tailByte]

theorem sequel_tailByte_any {start rest : Bytes} {value owed n : Nat} :
    sequel start value (owed + 1) 0x80 0xBF (tailByte n :: rest) =
      sequel (start ++ [tailByte n]) (value * 64 + n % 64) owed 0x80 0xBF rest :=
  sequel_tailByte (Nat.le_add_left 128 _) (by change n % 64 + 128 ≤ 191; omega)

theorem lead_ofNat {n : Nat} (h : n < 256) : lead (UInt8.ofNat n) =
    if n < 0x80 then .alone
    else if n < 0xC2 then .invalid
    else if n < 0xE0 then .follow 1 0x80 0xBF
    else if n = 0xE0 then .follow 2 0xA0 0xBF
    else if n = 0xED then .follow 2 0x80 0x9F
    else if n < 0xF0 then .follow 2 0x80 0xBF
    else if n = 0xF0 then .follow 3 0x90 0xBF
    else if n < 0xF4 then .follow 3 0x80 0xBF
    else if n = 0xF4 then .follow 3 0x80 0x8F
    else .invalid := by
  have hn : (UInt8.ofNat n).toNat = n := by
    rw [UInt8.toNat_ofNat']
    omega
  simp only [lead, UInt8.lt_iff_toNat_lt, ← UInt8.toNat_inj, hn, UInt8.toNat_ofNat]

theorem leadPayload_ofNat {count n : Nat} (h : n < 256) :
    leadPayload count (UInt8.ofNat n) = n % (64 >>> count) := by
  rw [leadPayload, UInt8.toNat_ofNat', Nat.mod_eq_of_lt h]

theorem scalar_value (c : Char) : c.toNat < 0xD800 ∨ 0xDFFF < c.toNat ∧ c.toNat < 0x110000 :=
  c.valid

theorem lead_three {v : Nat} (hlow : 0x800 ≤ v) (hhigh : v < 0x10000)
    (hscalar : v < 0xD800 ∨ 0xDFFF < v) :
    ∃ low high, lead (UInt8.ofNat (v / 4096 % 16 + 0xE0)) = .follow 2 low high ∧
      low.toNat ≤ v / 64 % 64 + 128 ∧ v / 64 % 64 + 128 ≤ high.toNat := by
  rw [lead_ofNat (by omega)]
  by_cases hfirst : v / 4096 % 16 + 0xE0 = 0xE0
  · exact ⟨0xA0, 0xBF, by simp [hfirst], by change 160 ≤ _; omega, by change _ ≤ 191; omega⟩
  · by_cases hed : v / 4096 % 16 + 0xE0 = 0xED
    · exact ⟨0x80, 0x9F, by simp [hed], by change 128 ≤ _; omega, by change _ ≤ 159; omega⟩
    · refine ⟨0x80, 0xBF, ?_, by change 128 ≤ _; omega, by change _ ≤ 191; omega⟩
      rw [if_neg (by omega), if_neg (by omega), if_neg (by omega), if_neg hfirst, if_neg hed,
        if_pos (by omega)]

theorem lead_four {v : Nat} (hlow : 0x10000 ≤ v) (hhigh : v < 0x110000) :
    ∃ low high, lead (UInt8.ofNat (v / 262144 % 8 + 0xF0)) = .follow 3 low high ∧
      low.toNat ≤ v / 4096 % 64 + 128 ∧ v / 4096 % 64 + 128 ≤ high.toNat := by
  rw [lead_ofNat (by omega)]
  by_cases hfirst : v / 262144 % 8 + 0xF0 = 0xF0
  · exact ⟨0x90, 0xBF, by simp [hfirst], by change 144 ≤ _; omega, by change _ ≤ 191; omega⟩
  · by_cases hlast : v / 262144 % 8 + 0xF0 = 0xF4
    · exact ⟨0x80, 0x8F, by simp [hlast], by change 128 ≤ _; omega, by change _ ≤ 143; omega⟩
    · refine ⟨0x80, 0xBF, ?_, by change 128 ≤ _; omega, by change _ ≤ 191; omega⟩
      rw [if_neg (by omega), if_neg (by omega), if_neg (by omega), if_neg (by omega),
        if_neg (by omega), if_neg (by omega), if_neg hfirst, if_pos (by omega)]

theorem utf8EncodeChar_eq (c : Char) : String.utf8EncodeChar c =
    if c.toNat ≤ 0x7F then [UInt8.ofNat c.toNat]
    else if c.toNat ≤ 0x7FF then [UInt8.ofNat (c.toNat / 64 % 32 + 0xC0), tailByte c.toNat]
    else if c.toNat ≤ 0xFFFF then
      [UInt8.ofNat (c.toNat / 4096 % 16 + 0xE0), tailByte (c.toNat / 64), tailByte c.toNat]
    else
      [UInt8.ofNat (c.toNat / 262144 % 8 + 0xF0), tailByte (c.toNat / 4096),
        tailByte (c.toNat / 64), tailByte c.toNat] := rfl

theorem next_utf8EncodeChar (c : Char) (rest : Bytes) :
    ∃ b tail, String.utf8EncodeChar c = b :: tail ∧ next b (tail ++ rest) = (.char c, rest) := by
  have hscalar := scalar_value c
  have hc : Char.ofNat c.toNat = c := Char.ofNat_toNat c
  rw [utf8EncodeChar_eq]
  generalize c.toNat = v at hscalar hc
  by_cases h1 : v ≤ 0x7F
  · refine ⟨UInt8.ofNat v, [], if_pos h1, ?_⟩
    rw [next, lead_ofNat (by omega), if_pos (by omega)]
    simp only [UInt8.toNat_ofNat', Nat.mod_eq_of_lt (show v < 2 ^ 8 by omega), hc, List.nil_append]
  rw [if_neg h1]
  by_cases h2 : v ≤ 0x7FF
  · refine ⟨UInt8.ofNat (v / 64 % 32 + 0xC0), [tailByte v], if_pos h2, ?_⟩
    have hvalue : (v / 64 % 32 + 0xC0) % (64 >>> 1) * 64 + v % 64 = v := by
      change (v / 64 % 32 + 0xC0) % 32 * 64 + v % 64 = v
      omega
    rw [next, lead_ofNat (by omega), if_neg (by omega), if_neg (by omega), if_pos (by omega)]
    simp only [leadPayload_ofNat (show v / 64 % 32 + 0xC0 < 256 by omega), List.singleton_append]
    rw [sequel_tailByte_any, sequel, hvalue, hc]
  rw [if_neg h2]
  by_cases h3 : v ≤ 0xFFFF
  · refine ⟨_, _, if_pos h3, ?_⟩
    obtain ⟨low, high, hlead, hlow, hhigh⟩ := lead_three (v := v) (by omega) (by omega) (by omega)
    have hvalue : ((v / 4096 % 16 + 0xE0) % (64 >>> 2) * 64 + v / 64 % 64) * 64 + v % 64 = v := by
      change ((v / 4096 % 16 + 0xE0) % 16 * 64 + v / 64 % 64) * 64 + v % 64 = v
      omega
    rw [next, hlead]
    simp only [leadPayload_ofNat (show v / 4096 % 16 + 0xE0 < 256 by omega), List.cons_append,
      List.nil_append]
    rw [sequel_tailByte hlow hhigh, sequel_tailByte_any, sequel, hvalue, hc]
  rw [if_neg h3]
  refine ⟨_, _, rfl, ?_⟩
  obtain ⟨low, high, hlead, hlow, hhigh⟩ := lead_four (v := v) (by omega) (by omega)
  have hvalue : (((v / 262144 % 8 + 0xF0) % (64 >>> 3) * 64 + v / 4096 % 64) * 64 +
      v / 64 % 64) * 64 + v % 64 = v := by
    change (((v / 262144 % 8 + 0xF0) % 8 * 64 + v / 4096 % 64) * 64 + v / 64 % 64) * 64 + v % 64 = v
    omega
  rw [next, hlead]
  simp only [leadPayload_ofNat (show v / 262144 % 8 + 0xF0 < 256 by omega), List.cons_append,
    List.nil_append]
  rw [sequel_tailByte hlow hhigh, sequel_tailByte_any, sequel_tailByte_any, sequel, hvalue, hc]

theorem cut_encode (done : Array Piece) (text : List Char) :
    (cut done (text.flatMap String.utf8EncodeChar)).toList =
      done.toList ++ text.map Piece.char := by
  induction text generalizing done with
  | nil => simp [cut]
  | cons c rest ih =>
    obtain ⟨b, tail, hencode, hnext⟩ := next_utf8EncodeChar c (rest.flatMap String.utf8EncodeChar)
    rw [List.flatMap_cons, hencode, List.cons_append, cut, hnext, ih]
    simp

theorem pieces_encode (text : String) : pieces (encode text) = text.toList.map .char := by
  simp [pieces, encode, cut_encode]

theorem decodeLenient_encode (text : String) : decodeLenient (encode text) = text := by
  have hshown : (text.toList.map Piece.char).map Piece.shown = text.toList := by
    simp [List.map_map, Function.comp_def, Piece.shown]
  rw [decodeLenient, pieces_encode, hshown, String.ofList_toList]

end SourceRecovery.Utf8
