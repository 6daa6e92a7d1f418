import SourceRecovery.Deflate.Inflate

/-! How much input a read uses up and what it gives. Every move of the inflater reads a bit at
least; for codewords this rests on literal codes being proper trees, which the phases keep. No move
copies nothing. -/
namespace SourceRecovery.Deflate

namespace BitStream

def size (s : BitStream) : Nat := s.pending.length + 8 * s.bytes.length

theorem next?_size {s t : BitStream} {bit : Bool} (h : s.next? = some (bit, t)) :
    t.size + 1 = s.size := by
  obtain ⟨pending, bytes⟩ := s
  cases pending with
  | cons b pending =>
    cases h
    simp only [size, List.length_cons]
    omega
  | nil =>
    cases bytes with
    | nil => cases h
    | cons b bytes =>
      cases h
      simp only [size, bitsOf, List.tail_cons, List.length_cons, List.length_nil]
      omega

theorem field?_size {count : Nat} {s t : BitStream} {n : Nat}
    (h : field? count s = some (n, t)) : t.size + count = s.size := by
  induction count generalizing s n with
  | zero =>
    cases h
    rfl
  | succ count ih =>
    simp only [field?, Option.bind_eq_bind, Option.bind_eq_some_iff, Prod.exists] at h
    obtain ⟨bit, u, hnext, high, v, hfield, h⟩ := h
    cases h
    have hone := next?_size hnext
    have hrest := ih hfield
    omega

theorem align_size (s : BitStream) : s.align.size ≤ s.size := by
  simp [align, size]

theorem nextByte?_size {s t : BitStream} {b : UInt8} (h : s.nextByte? = some (b, t)) :
    t.size + 8 ≤ s.size := by
  obtain ⟨pending, bytes⟩ := s
  cases bytes with
  | nil => cases h
  | cons c bytes =>
    cases h
    simp only [size, List.length_cons, List.length_nil]
    omega

end BitStream

namespace PrefixCode

/-- The root of the code is a choice, so that each codeword has a bit. -/
def IsFork (code : PrefixCode) : Prop := ∃ zero one, code = .fork zero one

theorem read?_size {code : PrefixCode} {s t : BitStream} {symbol : Option Nat}
    (h : code.read? s = some (symbol, t)) : t.size ≤ s.size := by
  induction code generalizing s with
  | gap =>
    cases h
    exact Nat.le_refl _
  | symbol n =>
    cases h
    exact Nat.le_refl _
  | fork zero one ihzero ihone =>
    simp only [read?] at h
    split at h
    · cases h
    · rename_i u hnext
      have hone := BitStream.next?_size hnext
      have hrest := ihzero h
      omega
    · rename_i u hnext
      have hone := BitStream.next?_size hnext
      have hrest := ihone h
      omega

theorem IsFork.read?_size {code : PrefixCode} (hcode : code.IsFork) {s t : BitStream}
    {symbol : Option Nat} (h : code.read? s = some (symbol, t)) : t.size + 1 ≤ s.size := by
  obtain ⟨zero, one, rfl⟩ := hcode
  simp only [read?] at h
  split at h
  · cases h
  · rename_i u hnext
    have hone := BitStream.next?_size hnext
    have hrest := PrefixCode.read?_size h
    omega
  · rename_i u hnext
    have hone := BitStream.next?_size hnext
    have hrest := PrefixCode.read?_size h
    omega

theorem codewords_pos {lengths : List Nat} {word : Nat × Nat} (h : word ∈ codewords lengths) :
    0 < word.1 := by
  simp only [codewords, List.mem_flatMap, List.mem_range'_1, List.mem_filterMap] at h
  obtain ⟨length, hlength, entry, _, hword⟩ := h
  split at hword
  · cases hword
    exact hlength.1
  · cases hword

theorem grow_isFork {word : Nat × Nat} (rest : List (Nat × Nat)) (h : 0 < word.1) :
    (grow maxLength 0 (word :: rest)).1.IsFork := by
  obtain ⟨length, n⟩ := word
  have hne : length ≠ 0 := Nat.ne_of_gt h
  simp only [maxLength, grow, if_neg hne]
  exact ⟨_, _, rfl⟩

theorem ofLengths?_isFork {allowSingle : Bool} {lengths : List Nat} {code : PrefixCode}
    (h : ofLengths? allowSingle lengths = some code) : code.IsFork := by
  unfold ofLengths? at h
  cases hwords : codewords lengths with
  | nil =>
    simp only [hwords, Option.some.injEq] at h
    exact ⟨_, _, h.symm⟩
  | cons word rest =>
    simp only [hwords] at h
    split at h
    · cases h
      exact grow_isFork rest (codewords_pos (hwords ▸ List.mem_cons_self))
    · cases h

end PrefixCode

def Yields {α : Type} (r : Reader α) (least : Nat) (P : α → Prop) : Prop :=
  ∀ s a t, r s = .ok (a, t) → t.size + least ≤ s.size ∧ P a

namespace Yields

variable {α β : Type} {r : Reader α} {P Q : α → Prop} {R : β → Prop} {m n : Nat}

theorem mono (h : Yields r n P) (hle : m ≤ n) (hpost : ∀ a, P a → Q a) : Yields r m Q := by
  intro s a t hr
  obtain ⟨hsize, ha⟩ := h s a t hr
  exact ⟨by omega, hpost a ha⟩

theorem forget (h : Yields r n P) : Yields r 0 P := h.mono (Nat.zero_le n) fun _ ha => ha

theorem pure {a : α} (h : P a) : Yields (pure a) 0 P := by
  intro s b t hr
  cases hr
  exact ⟨Nat.le_refl _, h⟩

theorem fail (f : Flaw) : Yields (Reader.fail f : Reader α) n P := by
  intro s a t hr
  cases hr

theorem bind {f : α → Reader β} (h : Yields r m P) (hf : ∀ a, P a → Yields (f a) n R) :
    Yields (r >>= f) (m + n) R := by
  intro s b u hr
  simp only [Bind.bind, StateT.bind] at hr
  cases hfirst : r s with
  | error e => simp [hfirst, Except.bind] at hr
  | ok q =>
    obtain ⟨a, t⟩ := q
    simp only [hfirst, Except.bind] at hr
    obtain ⟨hsize, ha⟩ := h s a t hfirst
    obtain ⟨hrest, hb⟩ := hf a ha t b u hr
    exact ⟨by omega, hb⟩

theorem ofStep {step : BitStream → Option (α × BitStream)}
    (h : ∀ s a t, step s = some (a, t) → t.size + n ≤ s.size) :
    Yields (Reader.ofStep step) n fun _ => True := by
  intro s a t hr
  simp only [Reader.ofStep] at hr
  cases hstep : step s with
  | none => simp [hstep] at hr
  | some q =>
    simp only [hstep] at hr
    cases hr
    exact ⟨h s a t hstep, trivial⟩

end Yields

theorem bits_yields (count : Nat) : Yields (bits count) count fun _ => True :=
  Yields.ofStep fun _ _ _ h => Nat.le_of_eq (BitStream.field?_size h)

theorem byte_yields : Yields byte 8 fun _ => True :=
  Yields.ofStep fun _ _ _ h => BitStream.nextByte?_size h

theorem codeword_yields (code : PrefixCode) : Yields (codeword code) 0 fun _ => True :=
  Yields.ofStep fun _ _ _ h => PrefixCode.read?_size h

theorem codeword_yields_of_isFork {code : PrefixCode} (h : code.IsFork) :
    Yields (codeword code) 1 fun _ => True :=
  Yields.ofStep fun _ _ _ hread => h.read?_size hread

theorem align_yields : Yields Reader.align 0 fun _ => True := by
  intro s a t hr
  cases hr
  exact ⟨BitStream.align_size s, trivial⟩

theorem orFail_yields {α : Type} (f : Flaw) {x : Option α} {P : α → Prop}
    (h : ∀ a, x = some a → P a) : Yields (orFail f x) 0 P := by
  cases x with
  | none => exact Yields.fail f
  | some a => exact Yields.pure (h a rfl)

theorem readAll_yields {α : Type} {item : Reader α} {n : Nat}
    (h : Yields item n fun _ => True) (count : Nat) :
    Yields (readAll item count) 0 fun _ => True := by
  induction count with
  | zero => exact Yields.pure trivial
  | succ count ih =>
    exact (h.bind fun _ _ => ih.bind fun _ _ => Yields.pure trivial).forget

theorem lengthRun_yields (code : PrefixCode) (last : Option Nat) :
    Yields (lengthRun code last) 0 fun _ => True := by
  refine (codeword_yields code).bind (n := 0) fun symbol _ => ?_
  split
  · refine ((bits_yields 2).bind (n := 0) fun more _ => ?_).forget
    cases last with
    | none => exact Yields.fail _
    | some length => exact Yields.pure trivial
  · exact ((bits_yields 3).bind fun more _ => Yields.pure trivial).forget
  · exact ((bits_yields 7).bind fun more _ => Yields.pure trivial).forget
  · exact Yields.pure trivial

theorem lengthRuns_yields (code : PrefixCode) (fuel wanted : Nat) (done : List Nat) :
    Yields (lengthRuns code fuel wanted done) 0 fun _ => True := by
  induction fuel generalizing wanted done with
  | zero => exact Yields.pure trivial
  | succ fuel ih =>
    unfold lengthRuns
    split
    · exact Yields.pure trivial
    · refine (lengthRun_yields code done.head?).bind (n := 0) fun run _ => ?_
      obtain ⟨length, count⟩ := run
      dsimp only
      split
      · exact Yields.fail _
      · exact ih _ _

/-- Codes whose literals can be read without standing still. -/
def Codes.Proper (codes : Codes) : Prop := codes.literals.IsFork

theorem dynamicCodes_yields : Yields dynamicCodes 0 Codes.Proper := by
  refine ((bits_yields 5).bind (n := 0) fun literalBits _ => ?_).forget
  refine ((bits_yields 5).bind (n := 0) fun distanceBits _ => ?_).forget
  refine ((bits_yields 4).bind (n := 0) fun sentBits _ => ?_).forget
  dsimp only
  split
  · exact Yields.fail _
  · refine (readAll_yields (bits_yields 3) _).bind (n := 0) fun sent _ => ?_
    refine (orFail_yields _ fun _ _ => trivial).bind (P := fun _ => True) (n := 0) fun code _ => ?_
    refine (lengthRuns_yields code _ _ _).bind (n := 0) fun lengths _ => ?_
    split
    · exact Yields.fail _
    · refine (orFail_yields _ fun _ h => PrefixCode.ofLengths?_isFork h).bind (n := 0)
        fun literals hliterals => ?_
      refine (orFail_yields _ fun _ _ => trivial).bind (P := fun _ => True) (n := 0)
        fun distances _ => ?_
      exact Yields.pure hliterals

theorem fixedCodes_proper : fixedCodes.Proper := by
  have hwords : (PrefixCode.codewords fixedLiteralLengths).head? = some (7, 256) := by
    decide +kernel
  unfold Codes.Proper fixedCodes
  cases h : PrefixCode.codewords fixedLiteralLengths with
  | nil => simp [h] at hwords
  | cons word rest =>
    exact PrefixCode.grow_isFork rest (PrefixCode.codewords_pos (h ▸ List.mem_cons_self))

theorem storedLength_yields : Yields storedLength 0 fun _ => True := by
  refine align_yields.bind (n := 0) fun _ _ => ?_
  refine (readAll_yields byte_yields 4).bind (n := 0) fun sent _ => ?_
  dsimp only
  split
  · exact Yields.pure trivial
  · exact Yields.fail _

def BlockStart.Proper : BlockStart → Prop
  | .stored _ => True
  | .coded codes => codes.Proper

theorem header_yields : Yields header 1 fun h => h.start.Proper := by
  refine (bits_yields 1).bind (n := 0) fun final _ => ?_
  refine ((bits_yields 2).bind (n := 0) fun kind _ => ?_).forget
  split
  · exact storedLength_yields.bind fun length _ => Yields.pure trivial
  · exact Yields.pure fixedCodes_proper
  · refine dynamicCodes_yields.bind (n := 0) fun codes hcodes => ?_
    exact Yields.pure hcodes
  · exact Yields.fail _

def Element.Sound : Element → Prop
  | .copy _ length => 0 < length
  | _ => True

theorem lengthSymbols_pos {i : Nat} {symbol : Nat × Nat} (h : lengthSymbols[i]? = some symbol) :
    0 < symbol.1 := by
  have hall : ∀ s ∈ lengthSymbols, 0 < s.1 := by decide
  exact hall symbol (List.mem_of_getElem? h)

theorem copyElement_yields (codes : Codes) {symbol : Nat × Nat} (h : 0 < symbol.1) :
    Yields (copyElement codes symbol) 0 Element.Sound := by
  refine ((bits_yields symbol.2).bind (n := 0) fun more _ => ?_).forget
  refine (codeword_yields codes.distances).bind (n := 0) fun word _ => ?_
  refine (orFail_yields _ fun _ _ => trivial).bind (P := fun _ => True) (n := 0)
    fun distance _ => ?_
  obtain ⟨least, extra⟩ := distance
  refine ((bits_yields extra).bind (n := 0) fun far _ => ?_).forget
  exact Yields.pure (Nat.add_pos_left h more)

theorem element_yields {codes : Codes} (h : codes.Proper) :
    Yields (element codes) 1 Element.Sound := by
  refine (codeword_yields_of_isFork h).bind (n := 0) fun word _ => ?_
  split
  · exact Yields.fail _
  · split
    · exact Yields.pure trivial
    · split
      · exact Yields.pure trivial
      · refine (orFail_yields _ fun _ hsymbol => lengthSymbols_pos hsymbol).bind (n := 0)
          fun symbol hpos => ?_
        exact copyElement_yields codes hpos

def Phase.Proper : Phase → Prop
  | .coded _ codes => codes.Proper
  | _ => True

theorem afterBlock_proper {final : Bool} {phase : Phase} (h : afterBlock final = some phase) :
    phase.Proper := by
  unfold afterBlock at h
  split at h <;> cases h
  trivial

def Write.Sound : Write → Prop
  | .copy _ length => 0 < length
  | _ => True

structure Move.Proper (m : Move) : Prop where
  write : m.write.Sound
  next : ∀ next, m.next = some next → next.Proper

theorem move_yields {phase : Phase} (h : phase.Proper) : Yields (move phase) 1 Move.Proper := by
  cases phase with
  | blockStart =>
    refine header_yields.bind (n := 0) fun head hhead => ?_
    obtain ⟨final, start⟩ := head
    dsimp only
    split
    · exact Yields.pure ⟨trivial, fun _ hnext => afterBlock_proper hnext⟩
    · exact Yields.pure ⟨trivial, fun _ hnext => by cases hnext; trivial⟩
    · exact Yields.pure ⟨trivial, fun _ hnext => by cases hnext; exact hhead⟩
  | stored final left =>
    refine (byte_yields.bind (n := 0) fun b _ => ?_).mono (by omega) fun _ h => h
    refine Yields.pure ⟨trivial, fun next hnext => ?_⟩
    dsimp only at hnext
    split at hnext
    · exact afterBlock_proper hnext
    · cases hnext
      trivial
  | coded final codes =>
    refine (element_yields h).bind (n := 0) fun e he => ?_
    cases e with
    | literal b => exact Yields.pure ⟨trivial, fun _ hnext => by cases hnext; exact h⟩
    | copy distance length => exact Yields.pure ⟨he, fun _ hnext => by cases hnext; exact h⟩
    | endOfBlock => exact Yields.pure ⟨trivial, fun _ hnext => afterBlock_proper hnext⟩

end SourceRecovery.Deflate
