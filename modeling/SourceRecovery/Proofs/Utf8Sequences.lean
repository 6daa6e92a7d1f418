import SourceRecovery.Proofs.Utf8RoundTrip

/-! Well-formed UTF-8: sequences that spell scalar values by the scheme of lead and continuation
bytes, each in the fewest bytes. These byte strings are the encoded texts, and strict decoding
accepts them and no others. -/
namespace SourceRecovery.Utf8

def IsTail (b : UInt8) : Prop := 0x80 ≤ b.toNat ∧ b.toNat < 0xC0

/-- The value that a lead byte and as many continuation bytes as it calls for spell by the scheme,
be it a good one or not. -/
inductive Spells : Bytes → Nat → Prop where
  | one {a : UInt8} (ha : a.toNat < 0x80) : Spells [a] a.toNat
  | two {a b : UInt8} (ha : 0xC0 ≤ a.toNat ∧ a.toNat < 0xE0) (hb : IsTail b) :
      Spells [a, b] (a.toNat % 32 * 64 + b.toNat % 64)
  | three {a b c : UInt8} (ha : 0xE0 ≤ a.toNat ∧ a.toNat < 0xF0) (hb : IsTail b) (hc : IsTail c) :
      Spells [a, b, c] ((a.toNat % 16 * 64 + b.toNat % 64) * 64 + c.toNat % 64)
  | four {a b c d : UInt8} (ha : 0xF0 ≤ a.toNat ∧ a.toNat < 0xF8) (hb : IsTail b) (hc : IsTail c)
      (hd : IsTail d) : Spells [a, b, c, d]
        (((a.toNat % 8 * 64 + b.toNat % 64) * 64 + c.toNat % 64) * 64 + d.toNat % 64)

/-- The least value that needs so many bytes; what spells a smaller one is overlong. -/
def leastOfSize : (size : Nat) → Nat
  | 2 => 0x80
  | 3 => 0x800
  | 4 => 0x10000
  | _ => 0

def IsScalar (v : Nat) : Prop := (v < 0xD800 ∨ 0xDFFF < v) ∧ v ≤ 0x10FFFF

/-- Neither overlong nor a surrogate nor above the last code point. -/
def WellFormedSequence (seq : Bytes) : Prop :=
  ∃ v, Spells seq v ∧ leastOfSize seq.length ≤ v ∧ IsScalar v

/-- All bytes belong to well-formed sequences: none is stray and no sequence is cut. -/
def WellFormed (data : Bytes) : Prop :=
  ∃ seqs : List Bytes, data = seqs.flatten ∧ ∀ seq ∈ seqs, WellFormedSequence seq

theorem toNat_ofNat_scalar {v : Nat} (h : IsScalar v) : (Char.ofNat v).toNat = v := by
  obtain ⟨hrange, hlast⟩ := h
  have hvalid : v.isValidChar := by
    unfold Nat.isValidChar
    omega
  rw [Char.ofNat, dif_pos hvalid]
  rfl

theorem ofNat_eq_byte {n : Nat} {b : UInt8} (h : n % 256 = b.toNat) : UInt8.ofNat n = b := by
  rw [← UInt8.toNat_inj, UInt8.toNat_ofNat']
  exact h

theorem IsTail.tailByte_eq {b : UInt8} (h : IsTail b) {n : Nat} (hn : n % 64 = b.toNat % 64) :
    tailByte n = b := by
  obtain ⟨hlow, hhigh⟩ := h
  apply ofNat_eq_byte
  omega

theorem Spells.eq_encode {seq : Bytes} {v : Nat} (h : Spells seq v)
    (hleast : leastOfSize seq.length ≤ v) (hscalar : IsScalar v) :
    seq = String.utf8EncodeChar (Char.ofNat v) := by
  have hvalue := toNat_ofNat_scalar hscalar
  rw [utf8EncodeChar_eq, hvalue]
  cases h with
  | one ha => rw [if_pos (by omega), UInt8.ofNat_toNat]
  | two ha hb =>
    rename_i a b
    change 0x80 ≤ _ at hleast
    have hfirst : UInt8.ofNat ((a.toNat % 32 * 64 + b.toNat % 64) / 64 % 32 + 0xC0) = a :=
      ofNat_eq_byte (by omega)
    rw [if_neg (by omega), if_pos (by omega), hfirst, hb.tailByte_eq (by omega)]
  | three ha hb hc =>
    rename_i a b c
    change 0x800 ≤ _ at hleast
    generalize hv : (a.toNat % 16 * 64 + b.toNat % 64) * 64 + c.toNat % 64 = v at hleast ⊢
    have hfirst : UInt8.ofNat (v / 4096 % 16 + 0xE0) = a := ofNat_eq_byte (by omega)
    rw [if_neg (by omega), if_neg (by omega), if_pos (by omega), hfirst,
      hb.tailByte_eq (by omega), hc.tailByte_eq (by omega)]
  | four ha hb hc hd =>
    rename_i a b c d
    change 0x10000 ≤ _ at hleast
    generalize hv : ((a.toNat % 8 * 64 + b.toNat % 64) * 64 + c.toNat % 64) * 64 + d.toNat % 64 = v
      at hleast ⊢
    have hfirst : UInt8.ofNat (v / 262144 % 8 + 0xF0) = a := ofNat_eq_byte (by omega)
    rw [if_neg (by omega), if_neg (by omega), if_neg (by omega), hfirst,
      hb.tailByte_eq (by omega), hc.tailByte_eq (by omega), hd.tailByte_eq (by omega)]

theorem tailByte_isTail (n : Nat) : IsTail (tailByte n) := by
  unfold IsTail
  rw [tailByte_toNat]
  omega

theorem isScalar_toNat (c : Char) : IsScalar c.toNat := by
  have h := scalar_value c
  unfold IsScalar
  omega

theorem wellFormedSequence_encode (c : Char) : WellFormedSequence (String.utf8EncodeChar c) := by
  have hscalar := isScalar_toNat c
  have hlast := hscalar.2
  rw [utf8EncodeChar_eq]
  generalize c.toNat = v at hscalar hlast
  have hbyte : ∀ n < 256, (UInt8.ofNat n).toNat = n := by
    intro n hn
    rw [UInt8.toNat_ofNat']
    omega
  by_cases h1 : v ≤ 0x7F
  · have hfirst := hbyte v (by omega)
    have hspells := Spells.one (a := UInt8.ofNat v) (by omega)
    rw [hfirst] at hspells
    rw [if_pos h1]
    exact ⟨v, hspells, Nat.zero_le v, hscalar⟩
  rw [if_neg h1]
  by_cases h2 : v ≤ 0x7FF
  · have hfirst := hbyte (v / 64 % 32 + 0xC0) (by omega)
    have hspells := Spells.two (a := UInt8.ofNat (v / 64 % 32 + 0xC0)) (by omega)
      (tailByte_isTail v)
    have hvalue : (v / 64 % 32 + 0xC0) % 32 * 64 + (v % 64 + 128) % 64 = v := by omega
    rw [hfirst, tailByte_toNat, hvalue] at hspells
    rw [if_pos h2]
    exact ⟨v, hspells, by change 0x80 ≤ v; omega, hscalar⟩
  rw [if_neg h2]
  by_cases h3 : v ≤ 0xFFFF
  · have hfirst := hbyte (v / 4096 % 16 + 0xE0) (by omega)
    have hspells := Spells.three (a := UInt8.ofNat (v / 4096 % 16 + 0xE0)) (by omega)
      (tailByte_isTail (v / 64)) (tailByte_isTail v)
    have hvalue : ((v / 4096 % 16 + 0xE0) % 16 * 64 + (v / 64 % 64 + 128) % 64) * 64 +
        (v % 64 + 128) % 64 = v := by omega
    rw [hfirst, tailByte_toNat, tailByte_toNat, hvalue] at hspells
    rw [if_pos h3]
    exact ⟨v, hspells, by change 0x800 ≤ v; omega, hscalar⟩
  · have hfirst := hbyte (v / 262144 % 8 + 0xF0) (by omega)
    have hspells := Spells.four (a := UInt8.ofNat (v / 262144 % 8 + 0xF0)) (by omega)
      (tailByte_isTail (v / 4096)) (tailByte_isTail (v / 64)) (tailByte_isTail v)
    have hvalue : (((v / 262144 % 8 + 0xF0) % 8 * 64 + (v / 4096 % 64 + 128) % 64) * 64 +
        (v / 64 % 64 + 128) % 64) * 64 + (v % 64 + 128) % 64 = v := by omega
    rw [hfirst, tailByte_toNat, tailByte_toNat, tailByte_toNat, hvalue] at hspells
    rw [if_neg h3]
    exact ⟨v, hspells, by change 0x10000 ≤ v; omega, hscalar⟩

theorem wellFormed_encode (text : String) : WellFormed (encode text) := by
  refine ⟨text.toList.map String.utf8EncodeChar, ?_, ?_⟩
  · rw [encode, List.flatMap_def]
  · intro seq hseq
    obtain ⟨c, _, rfl⟩ := List.mem_map.mp hseq
    exact wellFormedSequence_encode c

/-- The well-formed byte strings are the encodings of texts. -/
theorem wellFormed_iff {data : Bytes} : WellFormed data ↔ ∃ text, data = encode text := by
  constructor
  · rintro ⟨seqs, rfl, hseqs⟩
    induction seqs with
    | nil => exact ⟨"", rfl⟩
    | cons seq rest ih =>
      obtain ⟨v, hspells, hleast, hscalar⟩ := hseqs seq List.mem_cons_self
      obtain ⟨text, htext⟩ := ih fun s hs => hseqs s (List.mem_cons_of_mem seq hs)
      refine ⟨String.ofList (Char.ofNat v :: text.toList), ?_⟩
      rw [List.flatten_cons, htext, hspells.eq_encode hleast hscalar, encode, encode,
        String.toList_ofList, List.flatMap_cons]
  · rintro ⟨text, rfl⟩
    exact wellFormed_encode text

theorem sequel_eq_char {start data rest : Bytes} {value owed : Nat} {low high : UInt8} {c : Char}
    (h : sequel start value (owed + 1) low high data = (.char c, rest)) :
    ∃ b more, data = b :: more ∧ low.toNat ≤ b.toNat ∧ b.toNat ≤ high.toNat ∧
      sequel (start ++ [b]) (value * 64 + b.toNat % 64) owed 0x80 0xBF more = (.char c, rest) := by
  cases data with
  | nil => cases h
  | cons b more =>
    rw [sequel] at h
    split at h
    · rename_i hrange
      obtain ⟨hlow, hhigh⟩ := hrange
      rw [payload_eq] at h
      exact ⟨b, more, rfl, hlow, hhigh, h⟩
    · cases h

/-- What a lead byte promises, as ranges of numbers. -/
inductive Promises (b : UInt8) : Lead → Prop where
  | alone (h : b.toNat < 0x80) : Promises b .alone
  | one (hlow : 0xC2 ≤ b.toNat) (hhigh : b.toNat < 0xE0) : Promises b (.follow 1 0x80 0xBF)
  | two {low high : UInt8} (hb : 0xE0 ≤ b.toNat ∧ b.toNat < 0xF0)
      (hrange : 0x80 ≤ low.toNat ∧ high.toNat ≤ 0xBF) (hlow : b.toNat = 0xE0 → 0xA0 ≤ low.toNat)
      (hhigh : b.toNat = 0xED → high.toNat ≤ 0x9F) : Promises b (.follow 2 low high)
  | three {low high : UInt8} (hb : 0xF0 ≤ b.toNat ∧ b.toNat ≤ 0xF4)
      (hrange : 0x80 ≤ low.toNat ∧ high.toNat ≤ 0xBF) (hlow : b.toNat = 0xF0 → 0x90 ≤ low.toNat)
      (hhigh : b.toNat = 0xF4 → high.toNat ≤ 0x8F) : Promises b (.follow 3 low high)
  | invalid : Promises b .invalid

theorem lead_promises (b : UInt8) : Promises b (lead b) := by
  have hb := b.toNat_lt
  have hlead := lead_ofNat hb
  rw [UInt8.ofNat_toNat] at hlead
  rw [hlead]
  split
  · exact .alone (by omega)
  split
  · exact .invalid
  split
  · exact .one (by omega) (by omega)
  split
  · exact .two (by omega) (by decide) (fun _ => by decide) (fun _ => by omega)
  split
  · exact .two (by omega) (by decide) (fun _ => by omega) (fun _ => by decide)
  split
  · exact .two (by omega) (by decide) (fun _ => by omega) (fun _ => by omega)
  split
  · exact .three (by omega) (by decide) (fun _ => by decide) (fun _ => by omega)
  split
  · exact .three (by omega) (by decide) (fun _ => by omega) (fun _ => by omega)
  split
  · exact .three (by omega) (by decide) (fun _ => by omega) (fun _ => by decide)
  · exact .invalid

theorem next_eq_char {b : UInt8} {rest rest' : Bytes} {c : Char}
    (h : next b rest = (.char c, rest')) : b :: rest = String.utf8EncodeChar c ++ rest' := by
  have hpromises := lead_promises b
  unfold next at h
  generalize lead b = promised at h hpromises
  cases hpromises with
  | alone ha =>
    cases h
    rw [← (Spells.one ha).eq_encode (Nat.zero_le _) ⟨by omega, by omega⟩]
    rfl
  | one hlow hhigh =>
    obtain ⟨x, more, rfl, hx, hx', h⟩ := sequel_eq_char h
    change 0x80 ≤ x.toNat at hx
    change x.toNat ≤ 0xBF at hx'
    rw [sequel] at h
    cases h
    have hspells := Spells.two (a := b) (b := x) (by omega) ⟨hx, by omega⟩
    have hencode := hspells.eq_encode (by change 0x80 ≤ _; omega) ⟨by omega, by omega⟩
    exact congrArg (· ++ _) hencode
  | two hb hrange hlow hhigh =>
    obtain ⟨x, more, rfl, hx, hx', h⟩ := sequel_eq_char h
    obtain ⟨y, more, rfl, hy, hy', h⟩ := sequel_eq_char h
    change 0x80 ≤ y.toNat at hy
    change y.toNat ≤ 0xBF at hy'
    rw [sequel] at h
    cases h
    -- The range of the second byte leaves out overlong forms and surrogates.
    have hspells := Spells.three (a := b) (b := x) (c := y) hb ⟨by omega, by omega⟩ ⟨hy, by omega⟩
    have hencode := hspells.eq_encode (by change 0x800 ≤ _; omega) ⟨by omega, by omega⟩
    exact congrArg (· ++ _) hencode
  | three hb hrange hlow hhigh =>
    obtain ⟨x, more, rfl, hx, hx', h⟩ := sequel_eq_char h
    obtain ⟨y, more, rfl, hy, hy', h⟩ := sequel_eq_char h
    obtain ⟨z, more, rfl, hz, hz', h⟩ := sequel_eq_char h
    change 0x80 ≤ y.toNat at hy
    change y.toNat ≤ 0xBF at hy'
    change 0x80 ≤ z.toNat at hz
    change z.toNat ≤ 0xBF at hz'
    rw [sequel] at h
    cases h
    -- Here it leaves out overlong forms and what lies above the last code point.
    have hspells := Spells.four (a := b) (b := x) (c := y) (d := z) (by omega)
      ⟨by omega, by omega⟩ ⟨hy, by omega⟩ ⟨hz, by omega⟩
    have hencode := hspells.eq_encode (by change 0x10000 ≤ _; omega) ⟨by omega, by omega⟩
    exact congrArg (· ++ _) hencode
  | invalid => cases h

theorem pieces_nil : pieces [] = [] := by
  simp [pieces, cut]

theorem cut_toList (done : Array Piece) (data : Bytes) :
    (cut done data).toList = done.toList ++ pieces data := by
  induction hlength : data.length using Nat.strongRecOn generalizing done data with
  | ind length ih =>
    cases data with
    | nil => simp [cut, pieces_nil]
    | cons b rest =>
      have hshort : (next b rest).2.length < length := by
        have := next_length b rest
        simp only [List.length_cons] at hlength
        omega
      have hrest := fun done => ih _ hshort done _ rfl
      rw [cut, pieces, cut, hrest, hrest]
      simp

theorem pieces_cons (b : UInt8) (rest : Bytes) :
    pieces (b :: rest) = (next b rest).1 :: pieces (next b rest).2 := by
  rw [pieces, cut, cut_toList]
  rfl

theorem eq_encode_of_pieces {data : Bytes} {text : List Char}
    (h : pieces data = text.map Piece.char) : data = text.flatMap String.utf8EncodeChar := by
  induction text generalizing data with
  | nil =>
    cases data with
    | nil => rfl
    | cons b rest =>
      rw [pieces_cons] at h
      cases h
  | cons c text ih =>
    cases data with
    | nil =>
      rw [pieces_nil] at h
      cases h
    | cons b rest =>
      rw [pieces_cons] at h
      obtain ⟨hc, hrest⟩ := List.cons.inj h
      have hfirst : next b rest = (.char c, (next b rest).2) := by rw [← hc]
      rw [next_eq_char hfirst, List.flatMap_cons, ← ih hrest]

theorem join_eq_ok {done : List Char} {position : Nat} {cut : List Piece} {text : String}
    (h : join done position cut = .ok text) :
    ∃ chars, cut = chars.map Piece.char ∧ text = String.ofList (done.reverse ++ chars) := by
  induction cut generalizing done position with
  | nil =>
    cases h
    exact ⟨[], rfl, by rw [List.append_nil]⟩
  | cons piece rest ih =>
    cases piece with
    | bad bytes flaw => cases h
    | char c =>
      obtain ⟨chars, rfl, rfl⟩ := ih h
      exact ⟨c :: chars, rfl, by simp⟩

theorem join_chars (done : List Char) (position : Nat) (chars : List Char) :
    join done position (chars.map Piece.char) = .ok (String.ofList (done.reverse ++ chars)) := by
  induction chars generalizing done position with
  | nil => simp [join]
  | cons c rest ih => simp [join, ih]

/-- Strict decoding accepts the encoding of a text, as this text, and nothing else. -/
theorem decode_eq_ok_iff {data : Bytes} {text : String} :
    decode data = .ok text ↔ data = encode text := by
  constructor
  · intro h
    obtain ⟨chars, hpieces, rfl⟩ := join_eq_ok h
    rw [encode, List.reverse_nil, List.nil_append, String.toList_ofList]
    exact eq_encode_of_pieces hpieces
  · rintro rfl
    rw [decode, pieces_encode, join_chars, List.reverse_nil, List.nil_append, String.ofList_toList]

end SourceRecovery.Utf8
