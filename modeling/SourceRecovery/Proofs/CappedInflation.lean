import SourceRecovery.Payload
import SourceRecovery.Proofs.BitConsumption

/-! A limit on the output changes what inflation gives only for streams with more output than fits:
those are cut at the limit. So a stream is accepted for a size exactly when the inflater without a
limit reaches the end of a final block after that many bytes. -/
namespace SourceRecovery.Deflate

/-- What an inflater without a limit makes of the rest of a stream, however many moves it takes. -/
inductive Decodes : Phase → Array UInt8 → BitStream → Inflated → Prop
  | inputEnd {phase out s} (hmove : move phase s = .error .inputEnd) :
      Decodes phase out s ⟨out.toList, .inputEnd⟩
  | flaw {phase out s f} (hmove : move phase s = .error (.flaw f)) :
      Decodes phase out s ⟨out.toList, .flaw f⟩
  | refused {phase out s m t written ending} (hmove : move phase s = .ok (m, t))
      (hwrite : m.write.apply none out = ⟨written, some ending⟩) :
      Decodes phase out s ⟨written.toList, ending⟩
  | finished {phase out s m t written} (hmove : move phase s = .ok (m, t))
      (hwrite : m.write.apply none out = ⟨written, none⟩) (hnext : m.next = none) :
      Decodes phase out s ⟨written.toList, .finished⟩
  | step {phase out s m t written next r} (hmove : move phase s = .ok (m, t))
      (hwrite : m.write.apply none out = ⟨written, none⟩) (hnext : m.next = some next)
      (hrest : Decodes next written t r) : Decodes phase out s r

theorem Decodes.unique {phase : Phase} {out : Array UInt8} {s : BitStream} {r r' : Inflated}
    (h : Decodes phase out s r) (h' : Decodes phase out s r') : r = r' := by
  induction h with
  | inputEnd hmove => cases h' <;> simp_all
  | flaw hmove => cases h' <;> simp_all
  | refused hmove hwrite => cases h' <;> simp_all
  | finished hmove hwrite hnext => cases h' <;> simp_all
  | step hmove hwrite hnext hrest ih =>
    cases h' with
    | step hmove' hwrite' hnext' hrest' =>
      simp only [hmove, Except.ok.injEq, Prod.mk.injEq] at hmove'
      obtain ⟨rfl, rfl⟩ := hmove'
      simp only [hwrite, Written.mk.injEq, and_true] at hwrite'
      subst hwrite'
      simp only [hnext, Option.some.injEq] at hnext'
      subst hnext'
      exact ih hrest'
    | _ => simp_all

/-- With more fuel than the input has bits the fuel is never used up. -/
theorem run_decodes {fuel : Nat} {phase : Phase} {out : Array UInt8} {s : BitStream}
    (hphase : phase.Proper) (hfuel : s.size < fuel) :
    Decodes phase out s (run none fuel phase out s) := by
  induction fuel generalizing phase out s with
  | zero => omega
  | succ fuel ih =>
    unfold run
    split
    · exact .inputEnd ‹_›
    · exact .flaw ‹_›
    · rename_i write next t hmove
      obtain ⟨hsize, hproper⟩ := move_yields hphase _ _ _ hmove
      split
      · exact .refused hmove ‹_›
      · rename_i written hwrite
        cases next with
        | none => exact .finished hmove hwrite rfl
        | some next => exact .step hmove hwrite rfl (ih (hproper.next next rfl) (by omega))

theorem inflate_decodes (data : Bytes) :
    Decodes .blockStart #[] (BitStream.ofBytes data) (inflate data) := by
  refine run_decodes trivial ?_
  simp only [BitStream.size, BitStream.ofBytes, List.length_nil]
  omega

theorem push_extends (out : Array UInt8) (b : UInt8) : out.toList <+: (out.push b).toList := by
  rw [Array.toList_push]
  exact List.prefix_append _ _

theorem copyBack_none (distance length : Nat) (out : Array UInt8) :
    (copyBack none distance length out).stop = none ∧
      out.toList <+: (copyBack none distance length out).out.toList := by
  induction length generalizing out with
  | zero => exact ⟨rfl, List.prefix_refl _⟩
  | succ length ih =>
    simp only [copyBack, hasRoom, if_true]
    obtain ⟨hstop, hout⟩ := ih (out.push (out.getD (out.size - distance) 0))
    exact ⟨hstop, (push_extends out _).trans hout⟩

/-- Without a limit output is only added to, and only a copy from too far back is refused. -/
theorem Write.apply_none (out : Array UInt8) (write : Write) :
    out.toList <+: (write.apply none out).out.toList ∧
      ((write.apply none out).stop = none ∨
        write.apply none out = ⟨out, some (.flaw .distanceTooFar)⟩) := by
  cases write with
  | nothing => exact ⟨List.prefix_refl _, Or.inl rfl⟩
  | byte b =>
    refine ⟨?_, Or.inl rfl⟩
    simp only [Write.apply, hasRoom, if_true]
    exact push_extends out b
  | copy distance length =>
    obtain ⟨hstop, hout⟩ := copyBack_none distance length out
    simp only [Write.apply, hasRoom, Bool.true_and, decide_eq_true_eq]
    split
    · exact ⟨List.prefix_refl _, Or.inr rfl⟩
    · exact ⟨hout, Or.inl hstop⟩

theorem Decodes.ending_ne {phase : Phase} {out : Array UInt8} {s : BitStream}
    {r : Inflated} (h : Decodes phase out s r) : r.ending ≠ .limitReached := by
  induction h with
  | refused hmove hwrite =>
    rename_i out _ m _ written ending
    rcases (m.write.apply_none out).2 with hstop | hfar
    · simp [hwrite] at hstop
    · simp only [hwrite, Written.mk.injEq, Option.some.injEq] at hfar
      simp [hfar.2]
  | step _ _ _ _ ih => exact ih
  | _ => simp

/-- What is written without a limit does not fit, and `capped` is the part that does. A copy from
too far back that finds no room is not looked at. -/
structure Written.CutAt (m : Nat) (whole capped : Written) : Prop where
  stop : capped.stop = some .limitReached
  out : capped.out.toList = whole.out.toList.take m
  overflow : m < whole.out.size ∨
    whole.out.size = m ∧ whole.stop = some (.flaw .distanceTooFar)

theorem copyBack_limit {m : Nat} {out : Array UInt8} (distance length : Nat)
    (hfits : out.size ≤ m) :
    (copyBack (some m) distance length out = copyBack none distance length out ∧
      (copyBack none distance length out).out.size ≤ m) ∨
    (copyBack none distance length out).CutAt m (copyBack (some m) distance length out) := by
  induction length generalizing out with
  | zero => exact Or.inl ⟨rfl, hfits⟩
  | succ length ih =>
    simp only [copyBack, hasRoom, if_true, decide_eq_true_eq]
    by_cases hroom : out.size < m
    · rw [if_pos hroom]
      exact ih (by rw [Array.size_push]; omega)
    · rw [if_neg hroom]
      obtain rfl : out.size = m := by omega
      obtain ⟨_, hout⟩ := copyBack_none distance length
        (out.push (out.getD (out.size - distance) 0))
      have hsize := hout.length_le
      simp only [Array.length_toList, Array.size_push] at hsize
      exact Or.inr ⟨rfl, List.prefix_iff_eq_take.mp ((push_extends out _).trans hout),
        Or.inl (by omega)⟩

theorem Write.apply_limit {m : Nat} {out : Array UInt8} {write : Write} (hsound : write.Sound)
    (hfits : out.size ≤ m) :
    (write.apply (some m) out = write.apply none out ∧ (write.apply none out).out.size ≤ m) ∨
    (write.apply none out).CutAt m (write.apply (some m) out) := by
  cases write with
  | nothing => exact Or.inl ⟨rfl, hfits⟩
  | byte b =>
    simp only [Write.apply, hasRoom, if_true, decide_eq_true_eq]
    by_cases hroom : out.size < m
    · rw [if_pos hroom]
      exact Or.inl ⟨rfl, by rw [Array.size_push]; omega⟩
    · rw [if_neg hroom]
      obtain rfl : out.size = m := by omega
      exact Or.inr ⟨rfl, List.prefix_iff_eq_take.mp (push_extends out b), Or.inl (by simp)⟩
  | copy distance length =>
    simp only [Write.apply, hasRoom, Bool.true_and, Bool.and_eq_true, decide_eq_true_eq]
    by_cases hfar : out.size < distance
    · by_cases hroom : out.size < m
      · rw [if_pos ⟨hroom, hfar⟩, if_pos hfar]
        exact Or.inl ⟨rfl, hfits⟩
      · rw [if_neg (fun h => hroom h.1), if_pos hfar]
        obtain rfl : out.size = m := by omega
        obtain ⟨more, rfl⟩ : ∃ more, length = more + 1 :=
          ⟨length - 1, (Nat.succ_pred_eq_of_pos hsound).symm⟩
        simp only [copyBack, hasRoom, decide_eq_true_eq, if_neg hroom]
        exact Or.inr ⟨rfl, List.prefix_iff_eq_take.mp (List.prefix_refl _), Or.inr ⟨rfl, rfl⟩⟩
    · rw [if_neg (fun h => hfar h.2), if_neg hfar]
      exact copyBack_limit distance length hfits

theorem run_none_extends (fuel : Nat) (phase : Phase) (out : Array UInt8) (s : BitStream) :
    out.toList <+: (run none fuel phase out s).data := by
  induction fuel generalizing phase out s with
  | zero => exact List.prefix_refl _
  | succ fuel ih =>
    unfold run
    split
    · exact List.prefix_refl _
    · exact List.prefix_refl _
    · rename_i write next t hmove
      have hwrite := (write.apply_none out).1
      split
      · rename_i written ending happly
        rwa [happly] at hwrite
      · rename_i written happly
        rw [happly] at hwrite
        cases next with
        | none => exact hwrite
        | some next => exact hwrite.trans (ih next written t)

inductive Capped (m : Nat) (whole : Inflated) : Inflated → Prop
  | fits (h : whole.data.length ≤ m) : Capped m whole whole
  | cut (h : m < whole.data.length ∨
      whole.data.length = m ∧ whole.ending = .flaw .distanceTooFar) :
      Capped m whole ⟨whole.data.take m, .limitReached⟩

theorem Capped.cut_at_front {m : Nat} {written : List UInt8} {whole : Inflated}
    (hfront : written <+: whole.data) (h : m < written.length) :
    Capped m whole ⟨written.take m, .limitReached⟩ := by
  have hle := hfront.length_le
  obtain ⟨rest, hdata⟩ := hfront
  have hcut : written.take m = whole.data.take m := by
    rw [← hdata, List.take_append_of_le_length (Nat.le_of_lt h)]
  rw [hcut]
  exact .cut (Or.inl (by omega))

/-- One induction over the moves relates the two inflaters: they agree as long as the output fits,
and the first write that does not fit ends the limited one. -/
theorem run_capped {m : Nat} (fuel : Nat) {phase : Phase} {out : Array UInt8} {s : BitStream}
    (hphase : phase.Proper) (hfits : out.size ≤ m) :
    Capped m (run none fuel phase out s) (run (some m) fuel phase out s) := by
  induction fuel generalizing phase out s with
  | zero => exact .fits hfits
  | succ fuel ih =>
    unfold run
    split
    · exact .fits hfits
    · exact .fits hfits
    · rename_i write next t hmove
      obtain ⟨_, hproper⟩ := move_yields hphase _ _ _ hmove
      rcases write.apply_limit hproper.write hfits with ⟨hsame, hroom⟩ | hcut
      · rw [hsame]
        split
        · rename_i written ending happly
          exact .fits (by rwa [happly] at hroom)
        · rename_i written happly
          rw [happly] at hroom
          cases next with
          | none => exact .fits hroom
          | some next => exact ih (hproper.next next rfl) hroom
      · -- Without the limit the run goes on from here, so its output begins with what was cut.
        obtain ⟨hstop, hout, hoverflow⟩ := hcut
        generalize write.apply (some m) out = capped at hstop hout ⊢
        obtain ⟨cappedOut, stop⟩ := capped
        subst hstop
        simp only at hout ⊢
        rw [hout]
        split
        · rename_i written ending happly
          rw [happly] at hoverflow ⊢
          refine .cut (hoverflow.imp id fun ⟨hsize, hfar⟩ => ⟨hsize, ?_⟩)
          exact Option.some.inj hfar
        · rename_i written happly
          rw [happly] at hoverflow ⊢
          have hlong : m < written.toList.length := by simpa using hoverflow
          cases next with
          | none => exact .cut (Or.inl hlong)
          | some next => exact .cut_at_front (run_none_extends fuel next written t) hlong

end SourceRecovery.Deflate

namespace SourceRecovery

open Deflate

/-- What is to be said of a stream that must expand to `n` bytes and decodes to `whole`. -/
inductive Judged (n : Nat) (whole : Inflated) : Except DecodeError Bytes → Prop
  | accepted (hend : whole.ending = .finished) (hlength : whole.data.length = n) :
      Judged n whole (.ok whole.data)
  | short (hend : whole.ending = .finished) (hlength : whole.data.length < n) :
      Judged n whole (.error (.sizeMismatch whole.data.length n))
  | truncated (hend : whole.ending = .inputEnd) (hlength : whole.data.length ≤ n) :
      Judged n whole (.error .truncated)
  | flaw {f} (hend : whole.ending = .flaw f) (hlength : whole.data.length ≤ n + 1) :
      Judged n whole (.error (.deflate f))
  | long (hlength : n < whole.data.length) : Judged n whole (.error (.expandsPast n))

theorem inflateExact_judged (data : Bytes) (n : Nat) :
    Judged n (inflate data) (inflateExact data n) := by
  have hcapped : Capped (n + 1) (inflate data) (inflateUpTo (some (n + 1)) data) :=
    run_capped _ trivial (Nat.zero_le _)
  have hreached := (inflate_decodes data).ending_ne
  unfold inflateExact
  generalize inflateUpTo (some (n + 1)) data = capped at hcapped
  generalize inflate data = whole at hcapped hreached
  cases hcapped with
  | fits hfits =>
    simp only
    cases hend : capped.ending with
    | flaw f => exact .flaw hend hfits
    | limitReached => exact absurd hend hreached
    | finished =>
      simp only
      split
      · exact .long ‹_›
      · simp only [ne_eq, not_true_eq_false, if_false]
        split
        · exact .short hend (by omega)
        · exact .accepted hend (by omega)
    | inputEnd =>
      simp only
      split
      · exact .long ‹_›
      · exact .truncated hend (by omega)
  | cut hover =>
    have hlong : n + 1 ≤ whole.data.length := by
      rcases hover with hmore | ⟨hsize, _⟩ <;> omega
    have htaken : n < (whole.data.take (n + 1)).length := by
      rw [List.length_take]
      omega
    simp only [if_pos htaken]
    exact .long (by omega)

theorem Judged.ok_iff {n : Nat} {whole : Inflated} {verdict : Except DecodeError Bytes}
    (h : Judged n whole verdict) (b : Bytes) :
    verdict = .ok b ↔ whole = ⟨b, .finished⟩ ∧ b.length = n := by
  constructor
  · rintro rfl
    cases h with
    | accepted hend hlength => exact ⟨by rw [← hend], hlength⟩
  · rintro ⟨rfl, hlength⟩
    cases h with
    | accepted => rfl
    | short _ hshort => exact absurd hlength (Nat.ne_of_lt hshort)
    | truncated hend => cases hend
    | flaw hend => cases hend
    | long hlong => exact absurd hlength.symm (Nat.ne_of_lt hlong)

theorem inflateExact_eq_ok_iff {data b : Bytes} {n : Nat} : inflateExact data n = .ok b ↔
    Decodes .blockStart #[] (BitStream.ofBytes data) ⟨b, .finished⟩ ∧ b.length = n := by
  rw [(inflateExact_judged data n).ok_iff b]
  refine and_congr_left fun _ => ⟨fun h => h ▸ inflate_decodes data, fun h => ?_⟩
  exact (inflate_decodes data).unique h

/-- The fuel of `inflate` is out of the picture, the accepted streams are those that end after `n`
bytes without a limit, every other one is refused for a reason it has without a limit, and no stream
has two sizes. -/
theorem accepted_iff_whole_output_has_size (data : Bytes) (n : Nat) :
    (∀ r, Decodes .blockStart #[] (BitStream.ofBytes data) r ↔ inflate data = r) ∧
    (∀ b, inflateExact data n = .ok b ↔
      Decodes .blockStart #[] (BitStream.ofBytes data) ⟨b, .finished⟩ ∧ b.length = n) ∧
    Judged n (inflate data) (inflateExact data n) ∧
    ∀ m b c, inflateExact data n = .ok b → inflateExact data m = .ok c → n = m := by
  have hdecodes : ∀ r, Decodes .blockStart #[] (BitStream.ofBytes data) r ↔ inflate data = r :=
    fun r => ⟨fun h => (inflate_decodes data).unique h, fun h => h ▸ inflate_decodes data⟩
  refine ⟨hdecodes, fun b => ?_, inflateExact_judged data n, fun m b c hn hm => ?_⟩
  · rw [hdecodes]
    exact (inflateExact_judged data n).ok_iff b
  · obtain ⟨hb, rfl⟩ := ((inflateExact_judged data n).ok_iff b).1 hn
    obtain ⟨hc, rfl⟩ := ((inflateExact_judged data m).ok_iff c).1 hm
    rw [hb, Inflated.mk.injEq] at hc
    rw [hc.1]

/-- A stored block with one byte, then an empty final block: the end is seen past the last byte. -/
theorem late_final_block_accepted :
    inflateExact [0, 1, 0, 254, 255, 65, 3, 0] 1 = .ok [65] ∧
    ∀ m c, inflateExact [0, 1, 0, 254, 255, 65, 3, 0] m = .ok c → 1 = m := by
  obtain ⟨hdecodes, haccepted, _, hone⟩ :=
    accepted_iff_whole_output_has_size [0, 1, 0, 254, 255, 65, 3, 0] 1
  have hwhole : inflate [0, 1, 0, 254, 255, 65, 3, 0] = ⟨[65], .finished⟩ := by decide +kernel
  have hok := (haccepted [65]).2 ⟨(hdecodes _).2 hwhole, rfl⟩
  exact ⟨hok, fun m c => hone m [65] c hok⟩

end SourceRecovery
