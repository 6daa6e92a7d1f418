import SourceRecovery.Text.Layout

/-! The lines of a text. How a text falls into lines is said of the text alone; cutting it up gives
these lines and no others. -/
namespace SourceRecovery

def Unbroken (line : List Char) : Prop := ∀ c ∈ line, isLineEnd c = false

theorem unbroken_nil : Unbroken [] := fun _ hc => absurd hc List.not_mem_nil

/-- Each line but perhaps the last is followed by what ends it. A carriage return and the line feed
behind it are one end. -/
inductive FallsInto : List Char → List (List Char) → Prop
  | empty : FallsInto [] []
  | last {line} (hline : Unbroken line) (hsome : line ≠ []) : FallsInto line [line]
  | pair {line rest lines} (hline : Unbroken line) (hrest : FallsInto rest lines) :
      FallsInto (line ++ '\r' :: '\n' :: rest) (line :: lines)
  | single {line c rest lines} (hline : Unbroken line) (hend : isLineEnd c = true)
      (halone : c = '\r' → rest.head? ≠ some '\n') (hrest : FallsInto rest lines) :
      FallsInto (line ++ c :: rest) (line :: lines)

variable {c : Char} {line rest text : List Char} {lines : List (List Char)}

theorem linesFrom_of_end (hend : isLineEnd c = true)
    (halone : c = '\r' → rest.head? ≠ some '\n') (line : List Char) :
    linesFrom line (c :: rest) = line.reverse :: linesFrom [] rest := by
  rw [linesFrom, if_pos hend]
  rintro more rfl rfl
  exact halone rfl rfl

theorem linesFrom_of_inner (hinner : isLineEnd c = false) (line rest : List Char) :
    linesFrom line (c :: rest) = linesFrom (c :: line) rest := by
  have hreturn : isLineEnd '\r' = true := by decide
  rw [linesFrom, if_neg (by simp [hinner])]
  rintro more rfl
  simp [hreturn] at hinner

theorem linesFrom_append (hfront : Unbroken text) (line rest : List Char) :
    linesFrom line (text ++ rest) = linesFrom (text.reverse ++ line) rest := by
  induction text generalizing line with
  | nil => rfl
  | cons c more ih =>
    have hmore : Unbroken more := fun d hd => hfront d (List.mem_cons_of_mem c hd)
    rw [List.cons_append, linesFrom_of_inner (hfront c List.mem_cons_self), ih hmore,
      List.reverse_cons, List.append_assoc]
    rfl

theorem fallsInto_linesFrom (hline : Unbroken line) (text : List Char) :
    FallsInto (line.reverse ++ text) (linesFrom line text) := by
  have hreverse : ∀ {line : List Char}, Unbroken line → Unbroken line.reverse :=
    fun hline c hc => hline c (List.mem_reverse.mp hc)
  fun_induction linesFrom line text with
  | case1 line hempty =>
    rw [List.isEmpty_iff.mp hempty]
    exact .empty
  | case2 line hsome =>
    rw [List.append_nil]
    refine .last (hreverse hline) ?_
    simpa using hsome
  | case3 line rest ih => exact .pair (hreverse hline) (ih unbroken_nil)
  | case4 line c rest hpair hend ih =>
    refine .single (hreverse hline) hend ?_ (ih unbroken_nil)
    rintro rfl hfeed
    obtain ⟨more, rfl⟩ := List.head?_eq_some_iff.mp hfeed
    exact hpair more rfl rfl
  | case5 line c rest hpair hend ih =>
    rw [List.append_cons, ← List.reverse_cons]
    apply ih
    intro d hd
    rcases List.mem_cons.mp hd with rfl | hd
    · simpa using hend
    · exact hline d hd

theorem FallsInto.linesFrom_eq (h : FallsInto text lines) : linesFrom [] text = lines := by
  induction h with
  | empty => rfl
  | @last line hline hsome =>
    have hcut := linesFrom_append hline [] []
    rw [List.append_nil, List.append_nil] at hcut
    rw [hcut, linesFrom, if_neg (by simpa using hsome), List.reverse_reverse]
  | pair hline _ ih =>
    rw [linesFrom_append hline, List.append_nil]
    rw [linesFrom, ih, List.reverse_reverse]
  | single hline hend halone _ ih =>
    rw [linesFrom_append hline, List.append_nil, linesFrom_of_end hend halone, ih,
      List.reverse_reverse]

theorem fallsInto_iff {text : String} : FallsInto text.toList lines ↔ linesOf text = lines := by
  constructor
  · exact FallsInto.linesFrom_eq
  · rintro rfl
    exact fallsInto_linesFrom unbroken_nil text.toList

end SourceRecovery
