import SourceRecovery.Pattern.Matcher

/-!
Repetitions end by themselves. What has to follow a node is asked for only at or behind the place
where the node is tried. So whenever a repetition goes on, there is less of the line left or it
does not go on once more, and the turns it is given are never used up.
-/
namespace SourceRecovery.Pattern

namespace Cursor

/-- `d` is in the line of `c`, there or further on. Marks do not count. -/
def Onward (c d : Cursor) : Prop :=
  c.position ≤ d.position ∧ d.position + d.rest.length = c.position + c.rest.length

theorem Onward.refl (c : Cursor) : c.Onward c := ⟨Nat.le_refl _, rfl⟩

theorem Onward.trans {c d e : Cursor} (h : c.Onward d) (h' : d.Onward e) : c.Onward e := by
  obtain ⟨hle, hline⟩ := h
  obtain ⟨hle', hline'⟩ := h'
  exact ⟨by omega, by omega⟩

theorem onward_advance (c : Cursor) : c.Onward c.advance := by
  unfold advance
  split
  · exact .refl c
  · next hrest =>
    simp only [Onward, hrest, List.length_cons]
    omega

end Cursor

/-- Two ways that do the same, and end where `P` holds if they end at all. -/
inductive Agree (P : Cursor → Prop) : Except Marks Cursor → Except Marks Cursor → Prop where
  | ok {e : Cursor} (h : P e) : Agree P (.ok e) (.ok e)
  | error (marks : Marks) : Agree P (.error marks) (.error marks)

variable {P Q : Cursor → Prop} {k k' : Next} {c : Cursor} {inRepeat : Bool}

namespace Agree

theorem eq {x y : Except Marks Cursor} (h : Agree P x y) : x = y := by
  cases h <;> rfl

theorem refl (x : Except Marks Cursor) : Agree (fun _ => True) x x := by
  cases x with
  | error marks => exact .error marks
  | ok e => exact .ok trivial

theorem bind {x y : Except Marks Cursor} (h : Agree Q x y)
    (hk : ∀ e, Q e → Agree P (k e) (k' e)) : Agree P (x.bind k) (y.bind k') := by
  cases h with
  | ok h => exact hk _ h
  | error marks => exact .error marks

theorem restoring {way way' : Next} (h : Agree P (way c) (way' c)) :
    Agree P (restoring inRepeat way c) (restoring inRepeat way' c) := by
  unfold Pattern.restoring
  generalize way c = x, way' c = y at h ⊢
  cases h with
  | ok h => exact .ok h
  | error marks => exact .error _

theorem orElse {one one' other other' : Next} (h : Agree P (one c) (one' c))
    (ho : ∀ marks, Agree P (other { c with marks }) (other' { c with marks })) :
    Agree P (orElse one other c) (orElse one' other' c) := by
  unfold Pattern.orElse
  generalize one c = x, one' c = y at h ⊢
  cases h with
  | ok h => exact .ok h
  | error marks => exact ho marks

theorem guarded {way way' : Next} {go : Bool} (h : go = true → Agree P (way c) (way' c)) :
    Agree P ((if go then way else refuse) c) ((if go then way' else refuse) c) := by
  cases go with
  | true => exact h rfl
  | false => exact .error c.marks

theorem firstOf {way way' : Next} {found : List Cursor} {marks : Marks}
    (h : ∀ d ∈ found, ∀ marks, Agree P (way { d with marks }) (way' { d with marks })) :
    Agree P (firstOf way found marks) (firstOf way' found marks) := by
  induction found generalizing marks with
  | nil => exact .error marks
  | cons d found ih =>
    have hfirst := h d List.mem_cons_self marks
    unfold Pattern.firstOf
    generalize way { d with marks } = x, way' { d with marks } = y at hfirst ⊢
    cases hfirst with
    | ok h => exact .ok h
    | error marks => exact ih fun d hd => h d (List.mem_cons_of_mem _ hd)

end Agree

/-- What follows counts only at or behind the place where a way is tried. -/
def Local (way : Next → Next) : Prop :=
  ∀ (P : Cursor → Prop) (k k' : Next) (c : Cursor),
    (∀ d, c.Onward d → Agree P (k d) (k' d)) → Agree P (way k c) (way k' c)

theorem Local.alone {way : Next → Next} (h : Local way) (c : Cursor) :
    Agree c.Onward (way .ok c) (way .ok c) :=
  h c.Onward .ok .ok c fun _ hd => .ok hd

/-- The most turns that a repetition takes from a place on, `count` of them behind it. -/
def turnsLeft (least count : Nat) (last : Option Nat) (c : Cursor) : Nat :=
  (least - count) + c.rest.length + if last = some c.position then 1 else 2

theorem turnsLeft_pos (least count : Nat) (last : Option Nat) (c : Cursor) :
    0 < turnsLeft least count last c := by
  unfold turnsLeft
  split <;> omega

theorem turnsLeft_least {least count : Nat} (last : Option Nat) {d : Cursor}
    (hcount : count < least) (hd : c.Onward d) :
    turnsLeft least (count + 1) last d < turnsLeft least count last c := by
  obtain ⟨hle, hline⟩ := hd
  unfold turnsLeft
  by_cases hsame : d.position = c.position
  · rw [hsame]
    omega
  · split <;> split <;> omega

theorem turnsLeft_more (least count : Nat) {last : Option Nat} {d : Cursor}
    (hlast : last ≠ some c.position) (hd : c.Onward d) :
    turnsLeft least (count + 1) (some c.position) d < turnsLeft least count last c := by
  obtain ⟨hle, hline⟩ := hd
  unfold turnsLeft
  rw [if_neg hlast]
  split
  · omega
  · next hmoved =>
    have hmoved : c.position ≠ d.position := by simpa using hmoved
    omega

theorem repeatBody_agree {body : Next → Next} (hbody : Local body) {sparing : Bool} {least : Nat}
    {most : Option Nat} {turns turns' count : Nat} {last : Option Nat}
    (hturns : turnsLeft least count last c ≤ turns)
    (hturns' : turnsLeft least count last c ≤ turns')
    (hk : ∀ d, c.Onward d → Agree P (k d) (k' d)) :
    Agree P (repeatBody body inRepeat sparing least most k turns count last c)
      (repeatBody body inRepeat sparing least most k' turns' count last c) := by
  induction turns generalizing turns' count last c with
  | zero =>
    have hpos := turnsLeft_pos least count last c
    omega
  | succ turns ih =>
    have hpos := turnsLeft_pos least count last c
    obtain ⟨turns', rfl⟩ : ∃ n, turns' = n + 1 := ⟨turns' - 1, by omega⟩
    unfold repeatBody
    -- Both sides try the same ways in the same order; where one of them goes on with the body, what
    -- follows it has fewer turns left to take, so the induction applies to that.
    by_cases hcount : count < least
    · simp only [if_pos hcount]
      apply hbody
      intro d hd
      have hless := turnsLeft_least last hcount hd
      exact ih (by omega) (by omega) fun e he => hk e (hd.trans he)
    · simp only [if_neg hcount]
      have hagain : ∀ marks, last ≠ some c.position →
          Agree P
            (body (repeatBody body inRepeat sparing least most k turns (count + 1)
              (some c.position)) { c with marks })
            (body (repeatBody body inRepeat sparing least most k' turns' (count + 1)
              (some c.position)) { c with marks }) := by
        intro marks hlast
        apply hbody
        intro d hd
        have hless := turnsLeft_more (c := c) least count hlast hd
        exact ih (by omega) (by omega) fun e he => hk e (Cursor.Onward.trans (c := c) hd he)
      cases sparing with
      | true =>
        refine .orElse (.restoring (hk c (.refl c))) fun marks => .guarded fun hgo => ?_
        simp only [Bool.and_eq_true, bne_iff_ne] at hgo
        exact hagain marks hgo.2
      | false =>
        refine .orElse (.restoring (.guarded fun hgo => ?_)) fun marks => hk _ (.refl c)
        simp only [Bool.and_eq_true, bne_iff_ne] at hgo
        exact hagain c.marks hgo.2

theorem repeatAlone_agree {body : Next} (hbody : ∀ c, Agree c.Onward (body c) (body c))
    {least : Nat} {most : Option Nat} {turns turns' count : Nat}
    (hturns : (least - count) + c.rest.length < turns)
    (hturns' : (least - count) + c.rest.length < turns') (hP : ∀ d, c.Onward d → P d) :
    Agree P (repeatAlone body least most turns count c)
      (repeatAlone body least most turns' count c) := by
  induction turns generalizing turns' count c with
  | zero => omega
  | succ turns ih =>
    obtain ⟨turns', rfl⟩ : ∃ n, turns' = n + 1 := ⟨turns' - 1, by omega⟩
    have hfirst := hbody c
    unfold repeatAlone
    by_cases hcount : count < least
    · simp only [if_pos hcount]
      refine hfirst.bind fun e he => ?_
      have ⟨hle, hline⟩ := he
      exact ih (by omega) (by omega) fun d hd => hP d (he.trans hd)
    · simp only [if_neg hcount]
      split
      · generalize body c = x at hfirst ⊢
        cases hfirst with
        | error marks => exact .ok (hP c (.refl c))
        | @ok e he =>
          simp only
          split
          · exact .ok (hP e he)
          · next hmoved =>
            have ⟨hle, hline⟩ := he
            exact ih (by omega) (by omega) fun d hd => hP d (he.trans hd)
      · exact .ok (hP c (.refl c))

theorem onward_of_mem_charRun {set : CharSet} {most : Option Nat} {text : List Char} {count : Nat}
    {d e : Cursor} {found : List Cursor} (hd : c.Onward d) (hfound : ∀ e ∈ found, c.Onward e)
    (he : e ∈ charRun set most text count d found) : c.Onward e := by
  induction text generalizing count d found with
  | nil =>
    rcases List.mem_cons.mp he with rfl | he
    · exact hd
    · exact hfound e he
  | cons x text ih =>
    have hall : ∀ e ∈ d :: found, c.Onward e := by
      intro e he
      rcases List.mem_cons.mp he with rfl | he
      · exact hd
      · exact hfound e he
    unfold charRun at he
    split at he
    · exact ih (hd.trans (Cursor.onward_advance d)) hall he
    · exact hall e he

theorem repeatChars_agree {greed : Greed} {set : CharSet} {least : Nat} {most : Option Nat}
    (hk : ∀ d, c.Onward d → Agree P (k d) (k' d)) :
    Agree P (repeatChars greed inRepeat set least most k c)
      (repeatChars greed inRepeat set least most k' c) := by
  have hfound : ∀ d ∈ charRun set most c.rest 0 c [], ∀ marks,
      Agree P (k { d with marks }) (k' { d with marks }) := by
    intro d hd marks
    have honward : c.Onward d := onward_of_mem_charRun (.refl c) (by simp) hd
    exact hk _ honward
  cases greed with
  | greedy => exact .firstOf fun d hd marks => .restoring (hfound d (List.mem_of_mem_take hd) marks)
  | sparing =>
    refine .firstOf fun d hd marks => .restoring (hfound d ?_ marks)
    exact List.mem_of_mem_take (List.mem_reverse.mp hd)
  | possessive =>
    refine .firstOf fun d hd marks => hfound d ?_ marks
    exact List.mem_of_mem_take (List.mem_of_mem_take hd)

theorem follow_agree (mode : Mode) (text : List Char) (hP : ∀ d, c.Onward d → P d) :
    Agree P (follow mode text c) (follow mode text c) := by
  induction text generalizing c with
  | nil => exact .ok (hP c (.refl c))
  | cons x text ih =>
    unfold follow
    split
    · exact .error c.marks
    · split
      · exact ih fun d hd => hP d ((Cursor.onward_advance c).trans hd)
      · exact .error c.marks

theorem look_agree {negated : Bool} {body : Next} {place : Cursor → Cursor}
    (hk : ∀ d, c.Onward d → Agree P (k d) (k' d)) :
    Agree P (run.look negated inRepeat body k place c)
      (run.look negated inRepeat body k' place c) := by
  unfold run.look
  cases body (place c) with
  | error marks =>
    cases negated with
    | true => exact hk _ (.refl c)
    | false => exact .error marks
  | ok e =>
    cases negated with
    | true => exact .error e.marks
    | false => exact hk _ (.refl c)

/-- A node asks for what follows it at or behind the place where it is tried. -/
theorem run_local (node : Node) (inRepeat : Bool) : Local (run node inRepeat) := by
  induction node generalizing inRepeat with
  | empty =>
    intro P k k' c hk
    exact hk c (.refl c)
  | char set =>
    intro P k k' c hk
    unfold run
    split
    · exact .error c.marks
    · split
      · exact hk _ (Cursor.onward_advance c)
      · exact .error c.marks
  | seq a b iha ihb =>
    intro P k k' c hk
    unfold run
    exact iha inRepeat _ _ _ _ fun d hd => ihb inRepeat _ _ _ _ fun e he => hk e (hd.trans he)
  | either a b iha ihb =>
    intro P k k' c hk
    unfold run
    exact .orElse (.restoring (iha inRepeat _ _ _ _ hk)) fun marks =>
      .restoring (ihb inRepeat _ _ _ _ hk)
  | repeated greed least most body ih =>
    intro P k k' c hk
    unfold run
    split
    · exact repeatChars_agree hk
    · refine .bind (repeatAlone_agree (ih true).alone (by omega) (by omega) fun _ hd => hd) hk
    · exact repeatBody_agree (ih true) (by simp [turnsLeft]) (by simp [turnsLeft]) hk
  | group number body ih =>
    intro P k k' c hk
    unfold run
    exact ih inRepeat _ _ _ _ fun d hd => hk _ hd
  | scope body ih => exact ih inRepeat
  | atomic body ih =>
    intro P k k' c hk
    unfold run
    exact .bind ((ih inRepeat).alone c) hk
  | sameAs number mode =>
    intro P k k' c hk
    unfold run
    split
    · exact .error c.marks
    · exact .bind (follow_agree mode _ fun _ hd => hd) hk
  | place p =>
    intro P k k' c hk
    unfold run
    split
    · exact hk c (.refl c)
    · exact .error c.marks
  | ahead negated body ih =>
    intro P k k' c hk
    unfold run
    exact look_agree hk
  | behind negated width body ih =>
    intro P k k' c hk
    unfold run
    split
    · split
      · exact hk c (.refl c)
      · exact .error c.marks
    · exact look_agree hk
  | ifGroup number yes no ihy ihn =>
    intro P k k' c hk
    unfold run
    split
    · exact ihy inRepeat _ _ _ _ hk
    · exact ihn inRepeat _ _ _ _ hk

/-- A repetition that is given more turns does the same. -/
theorem run_repeated_of_turns {body : Node} (hbody : body.oneChar? = none) (greed : Greed)
    (least : Nat) (most : Option Nat) (inRepeat : Bool) (k : Next) (c : Cursor) {turns : Nat}
    (hturns : least + c.rest.length + 2 ≤ turns) :
    run (.repeated greed least most body) inRepeat k c =
      match greed with
      | .possessive => thenOnce (repeatAlone (run body true .ok) least most turns 0) k c
      | .greedy => repeatBody (run body true) inRepeat false least most k turns 0 none c
      | .sparing => repeatBody (run body true) inRepeat true least most k turns 0 none c := by
  have hk : ∀ d, c.Onward d → Agree (fun _ => True) (k d) (k d) := fun d _ => .refl (k d)
  have hlocal := run_local body true
  simp only [run, hbody]
  cases greed with
  | possessive =>
    have halone : Agree c.Onward
        (repeatAlone (run body true .ok) least most (least + c.rest.length + 1) 0 c)
        (repeatAlone (run body true .ok) least most turns 0 c) :=
      repeatAlone_agree hlocal.alone (by omega) (by omega) fun _ hd => hd
    exact (halone.bind hk).eq
  | greedy | sparing =>
    exact (repeatBody_agree hlocal (by simp [turnsLeft]) (by simpa [turnsLeft] using hturns) hk).eq

end SourceRecovery.Pattern
