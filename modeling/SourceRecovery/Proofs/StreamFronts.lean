import Mathlib.Data.Nat.Find
import SourceRecovery.Proofs.CappedInflation

/-! What lies behind the final block of a Deflate stream is not read, and a stream that is cut short
ends with its input. Both rest on one fact about every reader: more input changes what it gives only
if it came to the end of the input before. -/
namespace SourceRecovery.Deflate

namespace BitStream

def extend (s : BitStream) (more : Bytes) : BitStream := ⟨s.pending, s.bytes ++ more⟩

theorem ofBytes_append (data more : Bytes) : ofBytes (data ++ more) = (ofBytes data).extend more :=
  rfl

variable {s t : BitStream} (more : Bytes)

theorem next?_extend {bit : Bool} (h : s.next? = some (bit, t)) :
    (s.extend more).next? = some (bit, t.extend more) := by
  obtain ⟨pending, bytes⟩ := s
  cases pending with
  | cons b pending =>
    cases h
    rfl
  | nil =>
    cases bytes with
    | nil => cases h
    | cons b bytes =>
      cases h
      rfl

theorem field?_extend {count n : Nat} (h : field? count s = some (n, t)) :
    field? count (s.extend more) = some (n, t.extend more) := by
  induction count generalizing s n with
  | zero =>
    cases h
    rfl
  | succ count ih =>
    simp only [field?, Option.bind_eq_bind, Option.bind_eq_some_iff, Prod.exists] at h ⊢
    obtain ⟨bit, u, hnext, high, v, hfield, h⟩ := h
    cases h
    exact ⟨bit, _, next?_extend more hnext, high, _, ih hfield, rfl⟩

theorem nextByte?_extend {b : UInt8} (h : s.nextByte? = some (b, t)) :
    (s.extend more).nextByte? = some (b, t.extend more) := by
  obtain ⟨pending, bytes⟩ := s
  cases bytes with
  | nil => cases h
  | cons c bytes =>
    cases h
    rfl

end BitStream

theorem PrefixCode.read?_extend {code : PrefixCode} {s t : BitStream} {symbol : Option Nat}
    (more : Bytes) (h : code.read? s = some (symbol, t)) :
    code.read? (s.extend more) = some (symbol, t.extend more) := by
  induction code generalizing s with
  | gap =>
    cases h
    rfl
  | symbol n =>
    cases h
    rfl
  | fork zero one ihzero ihone =>
    simp only [read?] at h ⊢
    split at h
    · cases h
    · rename_i u hnext
      rw [BitStream.next?_extend more hnext]
      exact ihzero h
    · rename_i u hnext
      rw [BitStream.next?_extend more hnext]
      exact ihone h

/-- Unless the reader comes to the end of the input, more input changes nothing but what is left. -/
def Steady {α : Type} (r : Reader α) : Prop :=
  ∀ s more, r s = .error .inputEnd ∨
    r (s.extend more) = (r s).map fun (a, t) => (a, t.extend more)

namespace Steady

variable {α β : Type} {r : Reader α}

theorem ok (h : Steady r) {s t : BitStream} {a : α} (more : Bytes) (hr : r s = .ok (a, t)) :
    r (s.extend more) = .ok (a, t.extend more) := by
  rcases h s more with hend | hsame
  · cases hr.symm.trans hend
  · rw [hsame, hr]
    rfl

theorem flaw (h : Steady r) {s : BitStream} {f : Flaw} (more : Bytes)
    (hr : r s = .error (.flaw f)) : r (s.extend more) = .error (.flaw f) := by
  rcases h s more with hend | hsame
  · cases hr.symm.trans hend
  · rw [hsame, hr]
    rfl

theorem pure (a : α) : Steady (pure a : Reader α) := fun _ _ => Or.inr rfl

theorem fail (f : Flaw) : Steady (Reader.fail f : Reader α) := fun _ _ => Or.inr rfl

theorem bind {f : α → Reader β} (h : Steady r) (hf : ∀ a, Steady (f a)) : Steady (r >>= f) := by
  intro s more
  simp only [Bind.bind, StateT.bind]
  rcases h s more with hend | hsame
  · left
    rw [hend]
    rfl
  · rw [hsame]
    cases hr : r s with
    | error stop => exact Or.inr rfl
    | ok q => exact hf q.1 q.2 more

theorem ofStep {step : BitStream → Option (α × BitStream)}
    (h : ∀ s a t more, step s = some (a, t) → step (s.extend more) = some (a, t.extend more)) :
    Steady (Reader.ofStep step) := by
  intro s more
  simp only [Reader.ofStep]
  cases hstep : step s with
  | none => exact Or.inl rfl
  | some q =>
    right
    rw [h s q.1 q.2 more hstep]
    rfl

end Steady

theorem bits_steady (count : Nat) : Steady (bits count) :=
  Steady.ofStep fun _ _ _ more h => BitStream.field?_extend more h

theorem byte_steady : Steady byte :=
  Steady.ofStep fun _ _ _ more h => BitStream.nextByte?_extend more h

theorem codeword_steady (code : PrefixCode) : Steady (codeword code) :=
  Steady.ofStep fun _ _ _ more h => PrefixCode.read?_extend more h

theorem align_steady : Steady Reader.align := fun _ _ => Or.inr rfl

theorem orFail_steady {α : Type} (f : Flaw) (x : Option α) : Steady (orFail f x) := by
  cases x with
  | none => exact Steady.fail f
  | some a => exact Steady.pure a

theorem readAll_steady {α : Type} {item : Reader α} (h : Steady item) (count : Nat) :
    Steady (readAll item count) := by
  induction count with
  | zero => exact Steady.pure []
  | succ count ih => exact h.bind fun _ => ih.bind fun _ => Steady.pure _

theorem lengthRun_steady (code : PrefixCode) (last : Option Nat) :
    Steady (lengthRun code last) := by
  refine (codeword_steady code).bind fun symbol => ?_
  split
  · refine (bits_steady 2).bind fun more => ?_
    cases last with
    | none => exact Steady.fail _
    | some length => exact Steady.pure _
  · exact (bits_steady 3).bind fun more => Steady.pure _
  · exact (bits_steady 7).bind fun more => Steady.pure _
  · exact Steady.pure _

theorem lengthRuns_steady (code : PrefixCode) (fuel wanted : Nat) (done : List Nat) :
    Steady (lengthRuns code fuel wanted done) := by
  induction fuel generalizing wanted done with
  | zero => exact Steady.pure _
  | succ fuel ih =>
    unfold lengthRuns
    split
    · exact Steady.pure _
    · refine (lengthRun_steady code done.head?).bind fun run => ?_
      obtain ⟨length, count⟩ := run
      dsimp only
      split
      · exact Steady.fail _
      · exact ih _ _

theorem dynamicCodes_steady : Steady dynamicCodes := by
  refine (bits_steady 5).bind fun literalBits => ?_
  refine (bits_steady 5).bind fun distanceBits => ?_
  refine (bits_steady 4).bind fun sentBits => ?_
  dsimp only
  split
  · exact Steady.fail _
  · refine (readAll_steady (bits_steady 3) _).bind fun sent => ?_
    refine (orFail_steady _ _).bind fun code => ?_
    refine (lengthRuns_steady code _ _ _).bind fun lengths => ?_
    split
    · exact Steady.fail _
    · refine (orFail_steady _ _).bind fun literals => ?_
      refine (orFail_steady _ _).bind fun distances => ?_
      exact Steady.pure _

theorem storedLength_steady : Steady storedLength := by
  refine align_steady.bind fun _ => ?_
  refine (readAll_steady byte_steady 4).bind fun sent => ?_
  dsimp only
  split
  · exact Steady.pure _
  · exact Steady.fail _

theorem header_steady : Steady header := by
  refine (bits_steady 1).bind fun final => ?_
  refine (bits_steady 2).bind fun kind => ?_
  split
  · exact storedLength_steady.bind fun length => Steady.pure _
  · exact Steady.pure _
  · exact dynamicCodes_steady.bind fun codes => Steady.pure _
  · exact Steady.fail _

theorem copyElement_steady (codes : Codes) (symbol : Nat × Nat) :
    Steady (copyElement codes symbol) := by
  refine (bits_steady symbol.2).bind fun more => ?_
  refine (codeword_steady codes.distances).bind fun word => ?_
  refine (orFail_steady _ _).bind fun distance => ?_
  obtain ⟨least, extra⟩ := distance
  exact (bits_steady extra).bind fun far => Steady.pure _

theorem element_steady (codes : Codes) : Steady (element codes) := by
  refine (codeword_steady codes.literals).bind fun word => ?_
  split
  · exact Steady.fail _
  · split
    · exact Steady.pure _
    · split
      · exact Steady.pure _
      · exact (orFail_steady _ _).bind fun symbol => copyElement_steady codes symbol

theorem move_steady (phase : Phase) : Steady (move phase) := by
  cases phase with
  | blockStart =>
    refine header_steady.bind fun head => ?_
    obtain ⟨final, start⟩ := head
    dsimp only
    split <;> exact Steady.pure _
  | stored final left => exact byte_steady.bind fun b => Steady.pure _
  | coded final codes =>
    refine (element_steady codes).bind fun e => ?_
    cases e <;> exact Steady.pure _

variable {phase : Phase} {out : Array UInt8} {s : BitStream} {r whole : Inflated}

/-- A result that did not come from the end of the input stands, whatever follows. -/
theorem Decodes.extend (h : Decodes phase out s r) (hend : r.ending ≠ .inputEnd) (more : Bytes) :
    Decodes phase out (s.extend more) r := by
  induction h with
  | inputEnd hmove => exact absurd rfl hend
  | flaw hmove => exact .flaw ((move_steady _).flaw more hmove)
  | refused hmove hwrite => exact .refused ((move_steady _).ok more hmove) hwrite
  | finished hmove hwrite hnext => exact .finished ((move_steady _).ok more hmove) hwrite hnext
  | step hmove hwrite hnext hrest ih =>
    exact .step ((move_steady _).ok more hmove) hwrite hnext (ih hend)

theorem Decodes.extends (h : Decodes phase out s r) : out.toList <+: r.data := by
  induction h with
  | inputEnd hmove => exact List.prefix_refl _
  | flaw hmove => exact List.prefix_refl _
  | refused hmove hwrite =>
    rename_i out _ m _ written ending
    have hout := (m.write.apply_none out).1
    rwa [hwrite] at hout
  | finished hmove hwrite hnext =>
    rename_i out _ m _ written
    have hout := (m.write.apply_none out).1
    rwa [hwrite] at hout
  | step hmove hwrite hnext hrest ih =>
    rename_i out _ m _ written _ _
    have hout := (m.write.apply_none out).1
    rw [hwrite] at hout
    exact hout.trans ih

theorem Decodes.front (h : Decodes phase out s r) (hend : r.ending = .inputEnd) {more : Bytes}
    (hwhole : Decodes phase out (s.extend more) whole) : r.data <+: whole.data := by
  induction h with
  | inputEnd hmove => exact hwhole.extends
  | flaw hmove => cases hend
  | refused hmove hwrite =>
    rename_i out _ m _ written ending
    rcases (m.write.apply_none out).2 with hstop | hfar
    · rw [hwrite] at hstop
      cases hstop
    · rw [hwrite] at hfar
      cases hfar
      cases hend
  | finished hmove hwrite hnext => cases hend
  | step hmove hwrite hnext hrest ih =>
    have hmove' := (move_steady _).ok more hmove
    cases hwhole with
    | step hmoved hwritten hnexted hwhole =>
      cases hmove'.symm.trans hmoved
      cases hwrite.symm.trans hwritten
      cases hnext.symm.trans hnexted
      exact ih hend hwhole
    | _ => simp_all

/-- Of a stream that decodes to its end, a front decodes to the same or ends too early with a front
of the output. -/
theorem inflate_front {front more b : Bytes} (h : inflate (front ++ more) = ⟨b, .finished⟩) :
    inflate front = ⟨b, .finished⟩ ∨
      (inflate front).ending = .inputEnd ∧ (inflate front).data <+: b := by
  have hfront := inflate_decodes front
  have hwhole := inflate_decodes (front ++ more)
  rw [h, BitStream.ofBytes_append] at hwhole
  by_cases hend : (inflate front).ending = .inputEnd
  · exact Or.inr ⟨hend, hfront.front hend hwhole⟩
  · exact Or.inl ((hfront.extend hend more).unique hwhole)

end SourceRecovery.Deflate

namespace SourceRecovery

open Deflate

theorem inflateExact_append {s b : Bytes} {n : Nat} (h : inflateExact s n = .ok b) (more : Bytes) :
    inflateExact (s ++ more) n = .ok b := by
  obtain ⟨hdecodes, hlength⟩ := inflateExact_eq_ok_iff.mp h
  exact inflateExact_eq_ok_iff.mpr ⟨hdecodes.extend (by simp) more, hlength⟩

theorem Judged.of_inputEnd {n : Nat} {whole : Inflated} {verdict : Except DecodeError Bytes}
    (h : Judged n whole verdict) (hend : whole.ending = .inputEnd) (hfits : whole.data.length ≤ n) :
    verdict = .error .truncated := by
  cases h with
  | truncated => rfl
  | accepted hfinished => cases hfinished.symm.trans hend
  | short hfinished => cases hfinished.symm.trans hend
  | flaw hflaw => cases hflaw.symm.trans hend
  | long hlong => omega

theorem inflateExact_front {front s b : Bytes} {n : Nat} (h : inflateExact s n = .ok b)
    (hfront : front <+: s) :
    inflateExact front n = .ok b ∨ inflateExact front n = .error .truncated := by
  obtain ⟨more, rfl⟩ := hfront
  obtain ⟨hwhole, hlength⟩ := ((inflateExact_judged (front ++ more) n).ok_iff b).mp h
  have hjudged := inflateExact_judged front n
  rcases inflate_front hwhole with hsame | ⟨hend, hout⟩
  · left
    exact (hjudged.ok_iff b).mpr ⟨hsame, hlength⟩
  · -- The output so far fits, so that the missing end is all there is to say.
    right
    have hfits := hout.length_le
    exact hjudged.of_inputEnd hend (by omega)

/-- Bytes behind an accepted stream do not matter, and it is complete from one length on: every
shorter front is truncated and nothing else, every other one gives what the stream gives. -/
theorem accepted_stream_extended_or_cut {s b : Bytes} {n : Nat} (h : inflateExact s n = .ok b) :
    (∀ more, inflateExact (s ++ more) n = .ok b) ∧
    (∃ least ≤ s.length, ∀ front, front <+: s →
      inflateExact front n = if front.length < least then .error .truncated else .ok b) ∧
    DecodeError.truncated.message = "deflate stream is truncated" := by
  refine ⟨inflateExact_append h, ?_, rfl⟩
  classical
  have hexists : ∃ k, inflateExact (s.take k) n = .ok b := ⟨s.length, by rwa [List.take_length]⟩
  refine ⟨Nat.find hexists, Nat.find_min' hexists (by rwa [List.take_length]), ?_⟩
  intro front hfront
  have htake : s.take front.length = front := (List.prefix_iff_eq_take.mp hfront).symm
  split
  · rename_i hshort
    rcases inflateExact_front h hfront with hok | htruncated
    · exact absurd (htake.symm ▸ hok) (Nat.find_min hexists hshort)
    · exact htruncated
  · rename_i hlong
    have hle : Nat.find hexists ≤ front.length := Nat.le_of_not_lt hlong
    obtain ⟨more, hmore⟩ := List.take_prefix_take_left hle (l := s)
    rw [htake] at hmore
    rw [← hmore]
    exact inflateExact_append (Nat.find_spec hexists) more

/-- A block of two bytes as they are, with a byte more and with a byte less. -/
theorem cut_block_truncated :
    inflateExact [1, 2, 0, 253, 255, 65, 66] 2 = .ok [65, 66] ∧
    inflateExact [1, 2, 0, 253, 255, 65, 66, 9] 2 = .ok [65, 66] ∧
    ∃ least ≤ 7, 6 < least ∧ inflateExact [1, 2, 0, 253, 255, 65] 2 = .error .truncated := by
  have haccepted : inflateExact [1, 2, 0, 253, 255, 65, 66] 2 = .ok [65, 66] := by rfl
  obtain ⟨hextended, ⟨least, hleast, hcut⟩, _⟩ := accepted_stream_extended_or_cut haccepted
  have hfront := hcut [1, 2, 0, 253, 255, 65] ⟨[66], rfl⟩
  refine ⟨haccepted, hextended [9], least, hleast, ?_⟩
  by_cases hshort : 6 < least
  · exact ⟨hshort, hfront.trans (if_pos hshort)⟩
  · cases hfront.trans (if_neg hshort)

end SourceRecovery
