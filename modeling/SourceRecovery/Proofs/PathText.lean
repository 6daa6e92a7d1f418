import SourceRecovery.Proofs.Containment

/-! The text of paths. A path from the root whose names all lead down is read back from its text,
and to join two texts is to join the paths they stand for, so what is said of one can be said of the
other. -/
namespace SourceRecovery

section Segments

variable {α : Type} {p q : α → Bool} {separator : α} {l : List α} {parts : List (List α)}

theorem segments_ne_nil (p : α → Bool) (l : List α) : segments p l ≠ [] := by
  cases l with
  | nil => exact List.cons_ne_nil _ _
  | cons a rest =>
    rw [segments]
    split
    · exact List.cons_ne_nil _ _
    · split <;> exact List.cons_ne_nil _ _

theorem segments_append (h : p separator = true) (front rest : List α) :
    segments p (front ++ separator :: rest) = segments p front ++ segments p rest := by
  induction front with
  | nil => simp [segments, h]
  | cons a front ih =>
    rw [List.cons_append, segments, segments, ih]
    split
    · rfl
    · cases hfront : segments p front with
      | nil => exact absurd hfront (segments_ne_nil p front)
      | cons first others => rfl

theorem segments_of_none (h : ∀ a ∈ l, p a = false) : segments p l = [l] := by
  induction l with
  | nil => rfl
  | cons a rest ih =>
    obtain ⟨ha, hrest⟩ := List.forall_mem_cons.mp h
    rw [segments, ha, ih hrest]
    rfl

theorem segments_intercalate (h : p separator = true) (hparts : parts ≠ [])
    (hnone : ∀ part ∈ parts, ∀ a ∈ part, p a = false) :
    segments p ([separator].intercalate parts) = parts := by
  induction parts with
  | nil => exact absurd rfl hparts
  | cons part rest ih =>
    obtain ⟨hpart, hrest⟩ := List.forall_mem_cons.mp hnone
    by_cases hlast : rest = []
    · subst hlast
      rw [List.intercalate_singleton, segments_of_none hpart]
    · rw [List.intercalate_cons_of_ne_nil hlast, List.append_assoc, List.singleton_append,
        segments_append h, segments_of_none hpart, ih hlast hrest, List.singleton_append]

theorem segments_congr (h : ∀ a ∈ l, p a = q a) : segments p l = segments q l := by
  induction l with
  | nil => rfl
  | cons a rest ih =>
    obtain ⟨ha, hrest⟩ := List.forall_mem_cons.mp h
    rw [segments, segments, ha, ih hrest]

end Segments

def TwoSlashes (text : String) : Prop :=
  ∃ rest, text.toList = '/' :: '/' :: rest ∧ rest.head? ≠ some '/'

namespace Anchor

variable {text : String} {chars front back : List Char}

theorem ofChars_single (h : chars.head? ≠ some '/') : ofChars ('/' :: chars) = .root := by
  cases chars with
  | nil => rfl
  | cons c rest => simp_all [ofChars]

theorem ofChars_double (h : chars.head? ≠ some '/') :
    ofChars ('/' :: '/' :: chars) = .doubleRoot := by
  cases chars with
  | nil => rfl
  | cons c rest => simp_all [ofChars]

theorem ofChars_eq_relative : ofChars chars = .relative ↔ chars.head? ≠ some '/' := by
  cases chars with
  | nil => exact iff_of_true rfl (by simp)
  | cons c rest =>
    unfold ofChars
    split <;> simp_all

theorem ofChars_eq_doubleRoot : ofChars text.toList = .doubleRoot ↔ TwoSlashes text := by
  constructor
  · intro h
    unfold ofChars at h
    split at h
    · cases h
    · rename_i rest hmore htext
      refine ⟨rest, htext, fun hhead => ?_⟩
      obtain ⟨rest', rfl⟩ := List.head?_eq_some_iff.mp hhead
      exact hmore rest' rfl
    · cases h
    · cases h
  · rintro ⟨rest, htext, hhead⟩
    rw [htext, ofChars_double hhead]

theorem ofChars_three (c c' c'' : Char) (rest : List Char) :
    ofChars (c :: c' :: c'' :: rest) =
      if c ≠ '/' then .relative
      else if c' = '/' ∧ c'' ≠ '/' then .doubleRoot
      else .root := by
  by_cases hc : c = '/' <;> by_cases hc' : c' = '/' <;> by_cases hc'' : c'' = '/' <;>
    simp [ofChars, hc, hc', hc'']

theorem ofChars_append (hfront : front ≠ [])
    (h : front.getLast? = some '/' → back.head? ≠ some '/') :
    ofChars (front ++ back) = ofChars front := by
  by_cases hhead : front.head? = some '/'
  · obtain ⟨rest, rfl⟩ := List.head?_eq_some_iff.mp hhead
    match rest with
    | [] => exact ofChars_single (h rfl)
    | [c] =>
      by_cases hc : c = '/'
      · subst hc
        exact ofChars_double (h rfl)
      · rw [ofChars_single (by simpa using hc)]
        exact ofChars_single (by simpa using hc)
    | c :: c' :: rest => exact (ofChars_three ..).trans (ofChars_three ..).symm
  · have hboth : (front ++ back).head? ≠ some '/' := by
      rwa [List.head?_append, Option.or_of_isSome (List.isSome_head?.mpr hfront)]
    rw [ofChars_eq_relative.mpr hhead, ofChars_eq_relative.mpr hboth]

end Anchor

namespace Path

variable {p : Path} {names : List String}

def namesOf (text : List Char) : List String :=
  ((segments (· == '/') text).map String.ofList).filter fun name => name ≠ "" ∧ name ≠ "."

theorem namesOf_append (front rest : List Char) :
    namesOf (front ++ '/' :: rest) = namesOf front ++ namesOf rest := by
  rw [namesOf, segments_append (by decide), List.map_append, List.filter_append]
  rfl

theorem namesOf_slash (rest : List Char) : namesOf ('/' :: rest) = namesOf rest :=
  namesOf_append [] rest

theorem namesOf_intercalate (h : ∀ name ∈ names, IsStep name) :
    namesOf (['/'].intercalate (names.map String.toList)) = names := by
  by_cases hnames : names = []
  · subst hnames
    rfl
  · have hwhole : ∀ part ∈ names.map String.toList, ∀ c ∈ part, (c == '/') = false := by
      intro part hpart c hc
      obtain ⟨name, hname, rfl⟩ := List.mem_map.mp hpart
      exact beq_false_of_ne fun hslash => (h name hname).whole (hslash ▸ hc)
    rw [namesOf, segments_intercalate (by decide) (by simpa using hnames) hwhole, List.map_map,
      List.filter_eq_self.mpr]
    · simp
    · intro name hname
      obtain ⟨other, hother, rfl⟩ := List.mem_map.mp hname
      simpa using ⟨(h other hother).nonempty, (h other hother).not_here⟩

theorem head?_intercalate_ne (h : ∀ name ∈ names, IsStep name) :
    (['/'].intercalate (names.map String.toList)).head? ≠ some '/' := by
  cases names with
  | nil => simp
  | cons name rest =>
    have hname := h name List.mem_cons_self
    obtain ⟨c, chars, hchars⟩ := List.exists_cons_of_ne_nil
      (fun hempty => hname.nonempty (String.toList_eq_nil_iff.mp hempty))
    have hc : c ≠ '/' := by
      rintro rfl
      exact hname.whole (hchars ▸ List.mem_cons_self)
    cases rest with
    | nil => simpa [hchars] using hc
    | cons other rest => simpa [List.intercalate_cons_cons, hchars] using hc

theorem Canonical.ofString_render (h : p.Canonical) : ofString p.render = p := by
  obtain ⟨anchor, names⟩ := p
  have hhead := head?_intercalate_ne h.steps
  have hnames := namesOf_intercalate h.steps
  cases anchor with
  | relative => exact absurd rfl h.absolute
  | root =>
    have htext : (render ⟨.root, names⟩).toList =
        '/' :: ['/'].intercalate (names.map String.toList) := by
      simp [render, Anchor.text]
    have hread : ofString (render ⟨.root, names⟩) = ⟨.ofChars _, namesOf _⟩ := rfl
    rw [hread, htext, Anchor.ofChars_single hhead, namesOf_slash, hnames]
  | doubleRoot =>
    have htext : (render ⟨.doubleRoot, names⟩).toList =
        '/' :: '/' :: ['/'].intercalate (names.map String.toList) := by
      simp [render, Anchor.text]
    have hread : ofString (render ⟨.doubleRoot, names⟩) = ⟨.ofChars _, namesOf _⟩ := rfl
    rw [hread, htext, Anchor.ofChars_double hhead, namesOf_slash, namesOf_slash, hnames]

def joinText (front back : String) : String :=
  if back.toList.head? = some '/' then back
  else if front = "" ∨ front.toList.getLast? = some '/' then front ++ back
  else front ++ "/" ++ back

theorem join_of_relative {base : Path} (h : p.anchor = .relative) :
    base.join p = ⟨base.anchor, base.names ++ p.names⟩ := by
  rw [join, h]

theorem join_of_absolute {base : Path} (h : p.anchor ≠ .relative) : base.join p = p := by
  unfold join
  split
  · rename_i hrelative
    exact absurd hrelative h
  · rfl

theorem ofString_joinText (front back : String) :
    ofString (joinText front back) = (ofString front).join (ofString back) := by
  by_cases hback : back.toList.head? = some '/'
  · have habsolute : (ofString back).anchor ≠ .relative :=
      fun h => Anchor.ofChars_eq_relative.mp h hback
    rw [joinText, if_pos hback, join_of_absolute habsolute]
  rw [joinText, if_neg hback, join_of_relative (Anchor.ofChars_eq_relative.mpr hback)]
  by_cases hempty : front = ""
  · subst hempty
    have hrelative : (ofString back).anchor = .relative := Anchor.ofChars_eq_relative.mpr hback
    rw [if_pos (Or.inl rfl), String.empty_append]
    exact congrArg (Path.mk · (ofString back).names) hrelative
  have hchars : front.toList ≠ [] := fun h => hempty (String.toList_eq_nil_iff.mp h)
  by_cases hlast : front.toList.getLast? = some '/'
  · rw [if_pos (Or.inr hlast)]
    have hanchor : Anchor.ofChars (front ++ back).toList = .ofChars front.toList := by
      rw [String.toList_append, Anchor.ofChars_append hchars fun _ => hback]
    have hnames : namesOf (front ++ back).toList = namesOf front.toList ++ namesOf back.toList := by
      obtain ⟨chars, htext⟩ := List.getLast?_eq_some_iff.mp hlast
      have hfront : namesOf (chars ++ ['/']) = namesOf chars := by
        rw [namesOf_append]
        exact List.append_nil _
      rw [String.toList_append, htext, hfront, List.append_assoc, List.singleton_append,
        namesOf_append]
    exact congr (congrArg Path.mk hanchor) hnames
  · rw [if_neg (not_or.mpr ⟨hempty, hlast⟩)]
    have htext : (front ++ "/" ++ back).toList = front.toList ++ '/' :: back.toList := by simp
    have hanchor : Anchor.ofChars (front ++ "/" ++ back).toList = .ofChars front.toList := by
      rw [htext, Anchor.ofChars_append hchars fun h => absurd h hlast]
    have hnames : namesOf (front ++ "/" ++ back).toList =
        namesOf front.toList ++ namesOf back.toList := by
      rw [htext, namesOf_append]
    exact congr (congrArg Path.mk hanchor) hnames

end Path
end SourceRecovery
