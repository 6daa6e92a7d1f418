import Mathlib.Data.String.Basic
import SourceRecovery.Proofs.PathText

/-! Names that are resolved a second time. The path of a name that is not contained stands for
itself wherever it is used, and a name in which there is nothing to drop is resolved alike in both
ways. A name that was contained stays as it is, unless what was dropped in front of it had kept a
drive or a scheme from being the first segment: that one is dropped the second time. -/
namespace SourceRecovery

namespace Path

variable {base p : Path}

theorem absolute_of_anchored (h : p.anchor ≠ .relative) (base : Path) :
    base.absolute p = ⟨p.anchor, cancelFrom [] p.names⟩ := by
  rw [absolute, join_of_absolute h]

theorem Canonical.absolute_eq (h : p.Canonical) (base : Path) : base.absolute p = p := by
  rw [absolute_of_anchored h.absolute,
    cancelFrom_of_no_up fun name hname => (h.steps name hname).not_up]
  rfl

end Path

namespace Output

variable {base : Path} {destination name : String} {names : List String}
variable {parts : List (List Char)} {segment other : List Char} {index index' : Nat}

theorem dropAnchor_eq_self (h : ∀ first ∈ parts.head?, isAnchorSegment first = false) :
    dropAnchor parts = parts := by
  cases parts with
  | nil => rfl
  | cons first rest => rw [dropAnchor, h first rfl, if_neg Bool.false_ne_true]

theorem resolve_plain (base : Path) (destination name : String) :
    resolve base ⟨Path.ofString destination, false⟩ name =
      .ok (base.absolute (Path.ofString (Path.joinText destination name))) := by
  rw [Path.ofString_joinText]
  rfl

/-- A relative name without a drive, a scheme or `..`, in which only slashes separate. -/
structure Harmless (name : String) : Prop where
  relative : name.toList.head? ≠ some '/'
  no_backslash : '\\' ∉ name.toList
  no_anchor : ∀ first ∈ (segments (· == '/') name.toList).head?, isAnchorSegment first = false
  no_up : ['.', '.'] ∉ segments (· == '/') name.toList
  named : ∃ segment ∈ segments (· == '/') name.toList, segment ≠ [] ∧ segment ≠ ['.']

theorem Harmless.containedNames_eq (h : Harmless name) :
    containedNames name = Path.namesOf name.toList := by
  have hsegments : segments (fun c => c == '\\' || c == '/') name.toList =
      segments (· == '/') name.toList := by
    apply segments_congr
    intro c hc
    have hother : c ≠ '\\' := fun heq => h.no_backslash (heq ▸ hc)
    rw [beq_false_of_ne hother, Bool.false_or]
  rw [containedNames, hsegments, dropAnchor_eq_self h.no_anchor, Path.namesOf, List.filter_map]
  apply congrArg
  apply List.filter_congr
  intro segment hsegment
  have hup : segment ≠ ['.', '.'] := fun heq => h.no_up (heq ▸ hsegment)
  simp [isUsable, hup, String.ofList_eq]

theorem Harmless.containedNames_ne_nil (h : Harmless name) : containedNames name ≠ [] := by
  obtain ⟨segment, hmem, hempty, hdot⟩ := h.named
  rw [h.containedNames_eq]
  apply List.ne_nil_of_mem (a := String.ofList segment)
  refine List.mem_filter.mpr ⟨List.mem_map_of_mem hmem, decide_eq_true ⟨?_, ?_⟩⟩
  · simpa [String.ofList_eq] using hempty
  · simpa [String.ofList_eq] using hdot

theorem Harmless.resolve_contained (h : Harmless name) (base destination : Path) :
    resolve base ⟨destination, true⟩ name = resolve base ⟨destination, false⟩ name := by
  have hrelative : (Path.ofString name).anchor = .relative :=
    Anchor.ofChars_eq_relative.mpr h.relative
  have hplain : resolve base ⟨destination, false⟩ name =
      .ok (base.absolute ⟨destination.anchor, destination.names ++ Path.namesOf name.toList⟩) :=
    congrArg (Except.ok ∘ base.absolute) (Path.join_of_relative hrelative)
  rw [hplain, ← h.containedNames_eq, resolve, if_pos rfl]
  split
  · rename_i hnone
    exact absurd hnone h.containedNames_ne_nil
  · rfl

/-- A harmless name is resolved alike in both ways. Without being contained a name leads along a
path from the root on which every name is a step down; it begins with two slashes if the joined text
does. An absolute name leads there from anywhere, and so does the path itself. -/
theorem plain_resolution_canonical (hbase : base.Canonical) (destination name : String) :
    (Harmless name →
      resolve base ⟨Path.ofString destination, true⟩ name =
        resolve base ⟨Path.ofString destination, false⟩ name) ∧
    ∃ path, resolve base ⟨Path.ofString destination, false⟩ name = .ok path ∧
      path.Canonical ∧
      (path.anchor = .doubleRoot ↔
        TwoSlashes (Path.joinText base.render (Path.joinText destination name))) ∧
      (name.toList.head? = some '/' → ∀ elsewhere other,
        resolve elsewhere ⟨Path.ofString other, false⟩ name = .ok path) ∧
      ∀ elsewhere other,
        resolve elsewhere ⟨Path.ofString other, false⟩ path.render = .ok path := by
  refine ⟨fun h => h.resolve_contained base _, _, resolve_plain base destination name, ?_⟩
  have hcanonical := hbase.absolute_ofString (Path.joinText destination name)
  refine ⟨hcanonical, ?_, ?_, ?_⟩
  · rw [← Anchor.ofChars_eq_doubleRoot]
    have hjoined := Path.ofString_joinText base.render (Path.joinText destination name)
    rw [hbase.ofString_render] at hjoined
    exact iff_of_eq (congrArg (·.anchor = Anchor.doubleRoot) hjoined.symm)
  · intro habsolute elsewhere other
    have hanchored : (Path.ofString name).anchor ≠ .relative :=
      fun h => Anchor.ofChars_eq_relative.mp h habsolute
    simp only [resolve_plain, Path.joinText, if_pos habsolute, Path.absolute_of_anchored hanchored]
  · intro elsewhere other
    have hself := hcanonical.ofString_render
    have hanchored : (Path.ofString (base.absolute
        (Path.ofString (Path.joinText destination name))).render).anchor ≠ .relative := by
      rw [hself]
      exact hcanonical.absolute
    rw [resolve_plain, Path.ofString_joinText, Path.join_of_absolute hanchored, hself,
      hcanonical.absolute_eq]

/-- Under a destination that goes up, slashes and dots in a harmless name; and an absolute name with
two slashes that goes up from the top. -/
theorem dotted_names_resolved :
    resolve ⟨.root, ["home"]⟩ ⟨Path.ofString "../out//.", true⟩ "src//./a:.cs" =
      resolve ⟨.root, ["home"]⟩ ⟨Path.ofString "../out//.", false⟩ "src//./a:.cs" ∧
    ∀ elsewhere other, resolve elsewhere ⟨Path.ofString other, false⟩ "//../srv/./a.cs" =
      .ok ⟨.doubleRoot, ["srv", "a.cs"]⟩ := by
  have hbase : Path.Canonical ⟨.root, ["home"]⟩ := by
    refine ⟨by decide, fun name hname => ?_⟩
    obtain rfl := List.mem_singleton.mp hname
    exact ⟨by decide, by decide, by decide, by decide⟩
  have hharmless : Harmless "src//./a:.cs" :=
    ⟨by decide +kernel, by decide +kernel, by decide +kernel, by decide +kernel,
      by decide +kernel⟩
  refine ⟨(plain_resolution_canonical hbase "../out//." "src//./a:.cs").1 hharmless, ?_⟩
  obtain ⟨path, hpath, _, _, habsolute, _⟩ :=
    (plain_resolution_canonical hbase "../out//." "//../srv/./a.cs").2
  have hsame : resolve ⟨.root, ["home"]⟩ ⟨Path.ofString "../out//.", false⟩ "//../srv/./a.cs" =
      .ok ⟨.doubleRoot, ["srv", "a.cs"]⟩ := by
    decide +kernel
  obtain rfl := Except.ok.inj (hpath.symm.trans hsame)
  exact habsolute (by decide)

def FirstUsable (name : String) (index : Nat) (segment : List Char) : Prop :=
  Usable name index segment ∧ ∀ earlier < index, ∀ other, ¬ Usable name earlier other

theorem FirstUsable.unique (h : FirstUsable name index segment)
    (h' : FirstUsable name index' other) : segment = other := by
  have hindex : index = index' := by
    rcases Nat.lt_trichotomy index index' with hlt | heq | hgt
    · exact absurd h.1 (h'.2 index hlt segment)
    · exact heq
    · exact absurd h'.1 (h.2 index' hgt other)
  subst hindex
  exact Option.some.inj (h.1.place.symm.trans h'.1.place)

theorem dropAnchor_eq_drop (parts : List (List Char)) :
    ∃ dropped, dropAnchor parts = parts.drop dropped ∧
      ∀ (index : Nat) segment, parts[index]? = some segment →
        (dropped ≤ index ↔ (index = 0 → isAnchorSegment segment = false)) := by
  cases parts with
  | nil => exact ⟨0, rfl, by simp⟩
  | cons first rest =>
    cases hfirst : isAnchorSegment first with
    | true =>
      refine ⟨1, by rw [dropAnchor, if_pos hfirst]; rfl, fun index segment hplace => ?_⟩
      cases index with
      | zero =>
        cases hplace
        simp [hfirst]
      | succ index => simp
    | false =>
      refine ⟨0, dropAnchor_eq_self (by simpa using hfirst), fun index segment hplace => ?_⟩
      cases index with
      | zero =>
        cases hplace
        simp [hfirst]
      | succ index => simp

theorem firstUsable_of_containedNames {first : String} {rest : List String}
    (h : containedNames name = first :: rest) : ∃ index, FirstUsable name index first.toList := by
  obtain ⟨segment, kept, hfilter, rfl, _⟩ := List.map_eq_cons_iff.mp h
  obtain ⟨front, back, hparts, hfront, hsegment, _⟩ := List.filter_eq_cons_iff.mp hfilter
  obtain ⟨dropped, hdrop, hindices⟩ :=
    dropAnchor_eq_drop (segments (fun c => c == '\\' || c == '/') name.toList)
  rw [hdrop] at hparts
  have hplace : (segments (fun c => c == '\\' || c == '/') name.toList)[dropped + front.length]? =
      some segment := by
    rw [← List.getElem?_drop, hparts]
    simp
  rw [String.toList_ofList]
  refine ⟨dropped + front.length, ⟨hplace, of_decide_eq_true hsegment, ?_⟩, ?_⟩
  · exact (hindices _ _ hplace).mp (Nat.le_add_right _ _)
  · intro earlier hearlier other husable
    have hkept : dropped ≤ earlier := (hindices _ _ husable.place).mpr husable.no_anchor
    obtain ⟨offset, rfl⟩ := Nat.exists_eq_add_of_le hkept
    have hother := husable.place
    rw [← List.getElem?_drop, hparts,
      List.getElem?_append_left (Nat.lt_of_add_lt_add_left hearlier)] at hother
    exact hfront other (List.mem_of_getElem? hother) (decide_eq_true husable.proper)

/-- A drive or a scheme is the first segment that is kept; in front of it is what is dropped. -/
def HidesAnchor (name : String) : Prop :=
  ∃ index segment, FirstUsable name index segment ∧ isAnchorSegment segment = true

theorem hidesAnchor_iff {first : String} {rest : List String}
    (h : containedNames name = first :: rest) :
    HidesAnchor name ↔ isAnchorSegment first.toList = true := by
  obtain ⟨index, hfirst⟩ := firstUsable_of_containedNames h
  constructor
  · rintro ⟨other, segment, hother, hanchor⟩
    rwa [hfirst.unique hother]
  · intro hanchor
    exact ⟨index, _, hfirst, hanchor⟩

theorem not_hidesAnchor (h : containedNames name = []) : ¬ HidesAnchor name := by
  rintro ⟨index, segment, hfirst, _⟩
  exact containedNames_eq_nil.mp h index segment hfirst.1

theorem containedNames_intercalate (h : ∀ step ∈ names, Path.IsStep step ∧ '\\' ∉ step.toList) :
    containedNames ("/".intercalate names) =
      (dropAnchor (names.map String.toList)).map String.ofList := by
  by_cases hnames : names = []
  · subst hnames
    decide
  · have hwhole : ∀ part ∈ names.map String.toList, ∀ c ∈ part,
        (c == '\\' || c == '/') = false := by
      intro part hpart c hc
      obtain ⟨step, hstep, rfl⟩ := List.mem_map.mp hpart
      have hback : c ≠ '\\' := fun heq => (h step hstep).2 (heq ▸ hc)
      have hslash : c ≠ '/' := fun heq => (h step hstep).1.whole (heq ▸ hc)
      rw [beq_false_of_ne hback, beq_false_of_ne hslash, Bool.or_false]
    have htext : ("/".intercalate names).toList = ['/'].intercalate (names.map String.toList) :=
      String.toList_intercalate
    rw [containedNames, htext, segments_intercalate (by decide) (by simpa using hnames) hwhole,
      List.filter_eq_self.mpr]
    intro segment hsegment
    obtain ⟨dropped, hdrop, _⟩ := dropAnchor_eq_drop (names.map String.toList)
    obtain ⟨step, hstep, rfl⟩ := List.mem_map.mp (List.mem_of_mem_drop (hdrop ▸ hsegment))
    have hstep := (h step hstep).1
    refine decide_eq_true ⟨?_, ?_, ?_⟩
    · exact fun heq => hstep.nonempty (String.toList_inj.mp heq)
    · exact fun heq => hstep.not_here (String.toList_inj.mp heq)
    · exact fun heq => hstep.not_up (String.toList_inj.mp heq)

theorem containedNames_again {first : String} {rest : List String}
    (h : containedNames name = first :: rest) :
    containedNames ("/".intercalate (first :: rest)) =
      if isAnchorSegment first.toList then rest else first :: rest := by
  have hsteps : ∀ step ∈ first :: rest, Path.IsStep step ∧ '\\' ∉ step.toList :=
    fun step hstep => containedNames_isStep (h ▸ hstep)
  have hback : ∀ names : List String, (names.map String.toList).map String.ofList = names := by
    simp
  rw [containedNames_intercalate hsteps, List.map_cons, dropAnchor, ← List.map_cons]
  split
  · exact hback rest
  · exact hback (first :: rest)

theorem containedNames_again_eq_iff (name : String) :
    containedNames ("/".intercalate (containedNames name)) = containedNames name ↔
      ¬ HidesAnchor name := by
  cases hkept : containedNames name with
  | nil => exact iff_of_true (by decide) (not_hidesAnchor hkept)
  | cons first rest =>
    rw [hidesAnchor_iff hkept, containedNames_again hkept]
    cases isAnchorSegment first.toList with
    | true => exact iff_of_false (List.cons_ne_self first rest).symm (not_not_intro rfl)
    | false => exact iff_of_true rfl Bool.false_ne_true

/-- Where something is kept, paths tell apart what is kept. -/
theorem resolve_contained_eq_iff {again : String} (base destination : Path)
    (h : containedNames name ≠ []) :
    resolve base ⟨destination, true⟩ again = resolve base ⟨destination, true⟩ name ↔
      containedNames again = containedNames name := by
  rw [Output.resolve_contained, Output.resolve_contained, if_neg h]
  split
  · rename_i hnone
    rw [hnone]
    exact iff_of_false (fun heq => by cases heq) h.symm
  · constructor
    · intro heq
      exact List.append_cancel_left (congrArg Path.names (Except.ok.inj heq))
    · intro heq
      rw [heq]

/-- What is kept of a name are steps. Contained again it stays as it is, and leads along the same
path, exactly if its first step is not a drive or a scheme that was hidden behind what was dropped;
such a one is dropped now, and nothing else is. -/
theorem contained_name_contained_again (base destination : Path) (name : String) :
    let again := "/".intercalate (containedNames name)
    (∀ step ∈ containedNames name, Path.IsStep step ∧ '\\' ∉ step.toList) ∧
    (containedNames again = containedNames name ↔ ¬ HidesAnchor name) ∧
    (HidesAnchor name → ∃ anchor, isAnchorSegment anchor.toList = true ∧
      containedNames name = anchor :: containedNames again) ∧
    (containedNames name ≠ [] →
      (resolve base ⟨destination, true⟩ again = resolve base ⟨destination, true⟩ name ↔
        ¬ HidesAnchor name)) := by
  have hagain := containedNames_again_eq_iff name
  refine ⟨fun _ => containedNames_isStep, hagain, fun hhides => ?_,
    fun hkept => (resolve_contained_eq_iff base destination hkept).trans hagain⟩
  cases hkept : containedNames name with
  | nil => exact absurd hhides (not_hidesAnchor hkept)
  | cons first rest =>
    have hanchor := (hidesAnchor_iff hkept).mp hhides
    exact ⟨first, hanchor, by rw [containedNames_again hkept, if_pos hanchor]⟩

/-- A scheme in front of slashes in front of a drive: the scheme is dropped, and the drive only when
the name is contained again. -/
theorem drive_behind_scheme_dropped_late :
    HidesAnchor "file:///C:/src/a.cs" ∧
    containedNames "file:///C:/src/a.cs" = ["C:", "src", "a.cs"] ∧
    containedNames "C:/src/a.cs" = ["src", "a.cs"] ∧
    resolve ⟨.root, ["home"]⟩ ⟨Path.ofString "out", true⟩ "C:/src/a.cs" ≠
      resolve ⟨.root, ["home"]⟩ ⟨Path.ofString "out", true⟩ "file:///C:/src/a.cs" := by
  have hkept : containedNames "file:///C:/src/a.cs" = ["C:", "src", "a.cs"] := by decide +kernel
  have hhides : HidesAnchor "file:///C:/src/a.cs" :=
    (hidesAnchor_iff hkept).mpr (by decide +kernel)
  obtain ⟨_, _, hagain, hpath⟩ := contained_name_contained_again ⟨.root, ["home"]⟩
    (Path.ofString "out") "file:///C:/src/a.cs"
  obtain ⟨anchor, _, hdropped⟩ := hagain hhides
  have hpath := hpath (by rw [hkept]; exact List.cons_ne_nil _ _)
  have htext : "/".intercalate (containedNames "file:///C:/src/a.cs") = "C:/src/a.cs" := by
    rw [hkept]
    decide +kernel
  rw [htext] at hdropped hpath
  rw [hkept] at hdropped
  exact ⟨hhides, hkept, (List.cons.inj hdropped).2.symm, fun heq => hpath.mp heq hhides⟩

end Output
end SourceRecovery
