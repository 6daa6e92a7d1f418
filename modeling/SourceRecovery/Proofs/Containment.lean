import SourceRecovery.Output

/-! Contained names stay below the destination. What is kept of a name is segments that neither
begin a path anew nor lead up, so nothing of the destination is ever cancelled. -/
namespace SourceRecovery

theorem not_of_mem_segments {α : Type} {p : α → Bool} {l segment : List α}
    (h : segment ∈ segments p l) : ∀ a ∈ segment, p a = false := by
  induction l generalizing segment with
  | nil =>
    obtain rfl := List.mem_singleton.mp h
    intro a ha
    cases ha
  | cons b rest ih =>
    rw [segments] at h
    split at h
    · rcases List.mem_cons.mp h with rfl | h
      · intro a ha
        cases ha
      · exact ih h
    · rename_i hb
      split at h
      · obtain rfl := List.mem_singleton.mp h
        intro a ha
        obtain rfl := List.mem_singleton.mp ha
        exact Bool.eq_false_iff.mpr hb
      · rename_i first others hrest
        rcases List.mem_cons.mp h with rfl | h
        · intro a ha
          rcases List.mem_cons.mp ha with rfl | ha
          · exact Bool.eq_false_iff.mpr hb
          · exact ih (hrest ▸ List.mem_cons_self) a ha
        · exact ih (hrest ▸ List.mem_cons_of_mem first h)

namespace Path

structure IsStep (name : String) : Prop where
  nonempty : name ≠ ""
  not_here : name ≠ "."
  not_up : name ≠ ".."
  whole : '/' ∉ name.toList

/-- A path from the root on which every name leads down. -/
structure Canonical (p : Path) : Prop where
  absolute : p.anchor ≠ .relative
  steps : ∀ name ∈ p.names, IsStep name

theorem mem_ofString_names {text name : String} (h : name ∈ (ofString text).names) :
    name ≠ "" ∧ name ≠ "." ∧ '/' ∉ name.toList := by
  obtain ⟨hmem, hkept⟩ := List.mem_filter.mp h
  obtain ⟨segment, hsegment, rfl⟩ := List.mem_map.mp hmem
  obtain ⟨hempty, hdot⟩ := of_decide_eq_true hkept
  refine ⟨hempty, hdot, fun hslash => ?_⟩
  rw [String.toList_ofList] at hslash
  exact absurd (not_of_mem_segments hsegment '/' hslash) (by decide)

theorem cancelFrom_append (above front back : List String) :
    cancelFrom above (front ++ back) = cancelFrom (cancelFrom above front).reverse back := by
  induction front generalizing above with
  | nil => rw [List.nil_append, cancelFrom, List.reverse_reverse]
  | cons name rest ih =>
    rw [List.cons_append, cancelFrom, cancelFrom]
    split
    · exact ih above.tail
    · exact ih (name :: above)

theorem cancelFrom_of_no_up {above names : List String} (h : ∀ name ∈ names, name ≠ "..") :
    cancelFrom above names = above.reverse ++ names := by
  induction names generalizing above with
  | nil => rw [cancelFrom, List.append_nil]
  | cons name rest ih =>
    rw [cancelFrom, if_neg (h name List.mem_cons_self),
      ih fun other hother => h other (List.mem_cons_of_mem name hother), List.reverse_cons,
      List.append_assoc, List.singleton_append]

theorem mem_cancelFrom {above names : List String} {name : String}
    (h : name ∈ cancelFrom above names) : name ∈ above ∨ name ∈ names ∧ name ≠ ".." := by
  induction names generalizing above with
  | nil => exact Or.inl (List.mem_reverse.mp h)
  | cons other rest ih =>
    rw [cancelFrom] at h
    split at h
    · rcases ih h with habove | ⟨hrest, hup⟩
      · exact Or.inl (List.mem_of_mem_tail habove)
      · exact Or.inr ⟨List.mem_cons_of_mem other hrest, hup⟩
    · rename_i hother
      rcases ih h with habove | ⟨hrest, hup⟩
      · rcases List.mem_cons.mp habove with rfl | habove
        · exact Or.inr ⟨List.mem_cons_self, hother⟩
        · exact Or.inl habove
      · exact Or.inr ⟨List.mem_cons_of_mem other hrest, hup⟩

theorem Canonical.absolute_of_names {base p : Path} (h : base.Canonical)
    (hp : ∀ name ∈ p.names, name ≠ "" ∧ name ≠ "." ∧ '/' ∉ name.toList) :
    (base.absolute p).Canonical := by
  -- Whether the path is absolute or not, its names and those of `base` are all there are.
  have hjoin : (base.join p).anchor ≠ .relative ∧
      ∀ name ∈ (base.join p).names, name ≠ ".." → IsStep name := by
    have hnames : ∀ name ∈ p.names, name ≠ ".." → IsStep name := by
      intro name hname hup
      obtain ⟨hempty, hdot, hslash⟩ := hp name hname
      exact ⟨hempty, hdot, hup, hslash⟩
    unfold join
    split
    · refine ⟨h.absolute, fun name hname hup => ?_⟩
      rcases List.mem_append.mp hname with hbase | hname
      · exact h.steps name hbase
      · exact hnames name hname hup
    · rename_i hanchor
      exact ⟨hanchor, hnames⟩
  refine ⟨hjoin.1, fun name hname => ?_⟩
  rcases mem_cancelFrom hname with habove | ⟨hname, hup⟩
  · cases habove
  · exact hjoin.2 name hname hup

theorem Canonical.absolute_ofString {base : Path} (h : base.Canonical) (text : String) :
    (base.absolute (ofString text)).Canonical :=
  h.absolute_of_names fun _ => mem_ofString_names

theorem absolute_behind {base p : Path} {names : List String} (h : ∀ name ∈ names, IsStep name) :
    base.absolute ⟨p.anchor, p.names ++ names⟩ =
      ⟨(base.absolute p).anchor, (base.absolute p).names ++ names⟩ := by
  have hcancel : ∀ front, cancelFrom [] (front ++ names) = cancelFrom [] front ++ names := by
    intro front
    rw [cancelFrom_append, cancelFrom_of_no_up fun name hname => (h name hname).not_up,
      List.reverse_reverse]
  obtain ⟨anchor, front⟩ := p
  unfold absolute join
  cases anchor with
  | relative =>
    dsimp only
    rw [← List.append_assoc, hcancel]
  | root =>
    dsimp only
    rw [hcancel]
  | doubleRoot =>
    dsimp only
    rw [hcancel]

end Path

namespace Output

/-- Segment `index` of a name, where it is no drive or scheme in front and neither empty, `.` nor
`..`. -/
structure Usable (name : String) (index : Nat) (segment : List Char) : Prop where
  place : (segments (fun c => c == '\\' || c == '/') name.toList)[index]? = some segment
  proper : segment ≠ [] ∧ segment ≠ ['.'] ∧ segment ≠ ['.', '.']
  no_anchor : index = 0 → isAnchorSegment segment = false

theorem mem_dropAnchor {parts : List (List Char)} {segment : List Char} :
    segment ∈ dropAnchor parts ↔
      ∃ index : Nat, parts[index]? = some segment ∧ (index = 0 → isAnchorSegment segment = false) := by
  cases parts with
  | nil => simp [dropAnchor]
  | cons first rest =>
    rw [dropAnchor]
    constructor
    · intro h
      split at h
      · obtain ⟨index, hindex⟩ := List.mem_iff_getElem?.mp h
        exact ⟨index + 1, by rw [List.getElem?_cons_succ, hindex], by simp⟩
      · rename_i hfirst
        obtain ⟨index, hindex⟩ := List.mem_iff_getElem?.mp h
        refine ⟨index, hindex, fun hzero => ?_⟩
        subst hzero
        cases hindex
        exact Bool.eq_false_iff.mpr hfirst
    · rintro ⟨index, hindex, hzero⟩
      split
      · rename_i hfirst
        cases index with
        | zero =>
          cases hindex
          rw [hzero rfl] at hfirst
          cases hfirst
        | succ index => exact List.mem_of_getElem? hindex
      · exact List.mem_of_getElem? hindex

theorem mem_containedNames {name kept : String} :
    kept ∈ containedNames name ↔ ∃ index, Usable name index kept.toList := by
  have hmem : kept ∈ containedNames name ↔
      kept.toList ∈ dropAnchor (segments (fun c => c == '\\' || c == '/') name.toList) ∧
        isUsable kept.toList = true := by
    rw [containedNames, List.mem_map]
    constructor
    · rintro ⟨segment, hsegment, rfl⟩
      rw [String.toList_ofList]
      exact List.mem_filter.mp hsegment
    · intro h
      exact ⟨kept.toList, List.mem_filter.mpr h, String.ofList_toList⟩
  rw [hmem, mem_dropAnchor]
  constructor
  · rintro ⟨⟨index, hplace, hanchor⟩, hproper⟩
    exact ⟨index, hplace, of_decide_eq_true hproper, hanchor⟩
  · rintro ⟨index, h⟩
    exact ⟨⟨index, h.place, h.no_anchor⟩, decide_eq_true h.proper⟩

theorem Usable.isStep {name kept : String} {index : Nat} (h : Usable name index kept.toList) :
    Path.IsStep kept ∧ '\\' ∉ kept.toList := by
  have hseparator := not_of_mem_segments (List.mem_of_getElem? h.place)
  obtain ⟨hempty, hdot, hup⟩ := h.proper
  refine ⟨⟨?_, ?_, ?_, fun hslash => ?_⟩, fun hback => ?_⟩
  · rintro rfl
    exact hempty rfl
  · rintro rfl
    exact hdot rfl
  · rintro rfl
    exact hup rfl
  · exact absurd (hseparator '/' hslash) (by decide)
  · exact absurd (hseparator '\\' hback) (by decide)

theorem containedNames_eq_nil {name : String} :
    containedNames name = [] ↔ ∀ index segment, ¬ Usable name index segment := by
  rw [List.eq_nil_iff_forall_not_mem]
  constructor
  · intro h index segment husable
    exact h (String.ofList segment)
      (mem_containedNames.mpr ⟨index, by rwa [String.toList_ofList]⟩)
  · intro h kept hkept
    obtain ⟨index, husable⟩ := mem_containedNames.mp hkept
    exact h index kept.toList husable

theorem containedNames_isStep {name kept : String} (h : kept ∈ containedNames name) :
    Path.IsStep kept ∧ '\\' ∉ kept.toList := by
  obtain ⟨index, husable⟩ := mem_containedNames.mp h
  exact husable.isStep

theorem resolve_contained (base destination : Path) (name : String) :
    resolve base ⟨destination, true⟩ name =
      if containedNames name = [] then .error ⟨name⟩
      else .ok ⟨(base.absolute destination).anchor,
        (base.absolute destination).names ++ containedNames name⟩ := by
  simp only [resolve, if_true]
  split
  · rename_i hnone
    rw [if_pos hnone]
  · rename_i hsome
    rw [if_neg hsome, Path.absolute_behind fun kept hkept => (containedNames_isStep hkept).1]

theorem resolve_canonical {base path : Path} (hbase : base.Canonical) {destination name : String}
    {contain : Bool} (h : resolve base ⟨Path.ofString destination, contain⟩ name = .ok path) :
    path.Canonical := by
  cases contain with
  | true =>
    have hhome := hbase.absolute_ofString destination
    rw [resolve_contained] at h
    split at h
    · cases h
    · cases h
      refine ⟨hhome.absolute, fun step hstep => ?_⟩
      rcases List.mem_append.mp hstep with hstep | hkept
      · exact hhome.steps step hstep
      · exact (containedNames_isStep hkept).1
  | false =>
    cases h
    refine hbase.absolute_of_names fun step hstep => ?_
    unfold Path.join at hstep
    split at hstep
    · rcases List.mem_append.mp hstep with hstep | hstep
      · exact Path.mem_ofString_names hstep
      · exact Path.mem_ofString_names hstep
    · exact Path.mem_ofString_names hstep

/-- A contained name is refused exactly if it has no usable segment. Otherwise it leads to the
absolute path of the destination and behind that down its usable segments, at least one. -/
theorem contained_name_leads_below {base : Path} (hbase : base.Canonical)
    (destination name : String) :
    let home := base.absolute (Path.ofString destination)
    let result := resolve base ⟨Path.ofString destination, true⟩ name
    home.Canonical ∧
    (result = .error ⟨name⟩ ↔ ∀ index segment, ¬ Usable name index segment) ∧
    (result ≠ .error ⟨name⟩ → ∃ further, further ≠ [] ∧
      result = .ok ⟨home.anchor, home.names ++ further⟩ ∧
      (∀ kept, kept ∈ further ↔ ∃ index, Usable name index kept.toList) ∧
      ∀ kept ∈ further, Path.IsStep kept ∧ '\\' ∉ kept.toList) := by
  intro home result
  have hresult : result = _ := resolve_contained base (Path.ofString destination) name
  refine ⟨hbase.absolute_ofString destination, ?_, ?_⟩
  · rw [hresult, ← containedNames_eq_nil]
    split
    · rename_i hnone
      exact iff_of_true rfl hnone
    · rename_i hsome
      exact iff_of_false (fun h => by cases h) hsome
  · intro hused
    rw [hresult] at hused ⊢
    split at hused
    · exact absurd rfl hused
    · rename_i hsome
      exact ⟨containedNames name, hsome, if_neg hsome, fun _ => mem_containedNames,
        fun _ => containedNames_isStep⟩

/-- A drive in front, both kinds of slash, more steps up than there are directories, and a scheme
that is not in front and so is a name like any other. -/
theorem climbing_name_leads_below :
    ∃ further, "https:" ∈ further ∧
      resolve ⟨.root, ["home"]⟩ ⟨Path.ofString "out//../to/.", true⟩
        "C:\\..\\../..//https:/./x.cs" = .ok ⟨.root, ["home", "to"] ++ further⟩ := by
  have hbase : Path.Canonical ⟨.root, ["home"]⟩ := by
    refine ⟨by decide, fun name hname => ?_⟩
    obtain rfl := List.mem_singleton.mp hname
    exact ⟨by decide, by decide, by decide, by decide⟩
  have hhome : Path.absolute ⟨.root, ["home"]⟩ (Path.ofString "out//../to/.") =
      ⟨.root, ["home", "to"]⟩ := by
    decide +kernel
  have husable : Usable "C:\\..\\../..//https:/./x.cs" 5 "https:".toList :=
    ⟨by decide +kernel, by decide, by decide⟩
  obtain ⟨_, hrefused, hbelow⟩ := contained_name_leads_below hbase "out//../to/."
    "C:\\..\\../..//https:/./x.cs"
  obtain ⟨further, _, hresult, hmem, _⟩ := hbelow fun h => hrefused.mp h _ _ husable
  rw [hhome] at hresult
  exact ⟨further, (hmem "https:").mpr ⟨5, husable⟩, hresult⟩

end Output
end SourceRecovery
