import SourceRecovery.Proofs.ShelfTools
import SourceRecovery.Proofs.TextLines

/-! A limited search on a shelf. What it tells is a front of the list of all hits, which stand in
the order of names and line numbers; the limit decides where the front ends and nothing else. -/
namespace SourceRecovery.Shelf

variable {s : Shelf} {f : ExtractedFile} {m : String → Option ExtractedFile}
  {test : List Char → Bool} {name : String} {hit : Hit}

def hitsFrom (test : List Char → Bool) (name : String) (number : Nat) (lines : List (List Char)) :
    List Hit :=
  ((lines.zipIdx number).map fun (line, n) => ⟨name, n, line⟩).filter
    fun hit => test hit.line

def hitsIn (test : List Char → Bool) (f : ExtractedFile) : List Hit :=
  hitsFrom test f.name 1 (linesOf f.text)

def hits (s : Shelf) (test : List Char → Bool) : List Hit := s.sorted.flatMap (hitsIn test)

/-- One hit is told before another: in a file of an earlier name, or further up in the same file. -/
def Hit.Before (h k : Hit) : Prop := h.name < k.name ∨ h.name = k.name ∧ h.number < k.number

/-- The list of all hits in the files that a map has under their names. -/
structure ListsHits (m : String → Option ExtractedFile) (test : List Char → Bool)
    (found : List Hit) : Prop where
  mem_iff : ∀ hit, hit ∈ found ↔ IsHit m test hit
  ordered : found.Pairwise Hit.Before

theorem Hit.Before.asymm {h k : Hit} (hbefore : h.Before k) : ¬ k.Before h := by
  rcases hbefore with hname | ⟨hname, hnumber⟩
  · rintro (hother | ⟨hother, _⟩)
    · exact String.lt_asymm hname hother
    · exact String.lt_irrefl _ (hother ▸ hname)
  · rintro (hother | ⟨_, hother⟩)
    · exact String.lt_irrefl _ (hname ▸ hother)
    · exact Nat.lt_asymm hnumber hother

theorem ListsHits.unique {found other : List Hit} (h : ListsHits m test found)
    (hother : ListsHits m test other) : other = found := by
  have hnodup : ∀ {l : List Hit}, l.Pairwise Hit.Before → l.Nodup := by
    intro l hl
    apply hl.imp
    rintro a _ hbefore rfl
    exact hbefore.asymm hbefore
  have hperm : other.Perm found := by
    rw [List.perm_ext_iff_of_nodup (hnodup hother.ordered) (hnodup h.ordered)]
    intro hit
    rw [hother.mem_iff, h.mem_iff]
  apply hperm.eq_of_pairwise _ hother.ordered h.ordered
  intro a b _ _ hab hba
  exact absurd hba hab.asymm

theorem mem_hitsIn : hit ∈ hitsIn test f ↔ hit.name = f.name ∧ 1 ≤ hit.number ∧
    (linesOf f.text)[hit.number - 1]? = some hit.line ∧ test hit.line = true := by
  rw [hitsIn, hitsFrom, List.mem_filter, List.mem_map]
  constructor
  · rintro ⟨⟨⟨line, n⟩, hline, rfl⟩, hsearch⟩
    obtain ⟨hlow, hget⟩ := List.mem_zipIdx_iff_le_and_getElem?_sub.mp hline
    exact ⟨rfl, hlow, hget, hsearch⟩
  · rintro ⟨hname, hlow, hget, hsearch⟩
    refine ⟨⟨(hit.line, hit.number), ?_, ?_⟩, hsearch⟩
    · exact List.mem_zipIdx_iff_le_and_getElem?_sub.mpr ⟨hlow, hget⟩
    · rw [← hname]

theorem hitsIn_ordered (test : List Char → Bool) (f : ExtractedFile) :
    (hitsIn test f).Pairwise Hit.Before := by
  apply List.Pairwise.filter
  have hnumbers : ((linesOf f.text).zipIdx 1).Pairwise fun a b => a.2 < b.2 := by
    rw [← List.pairwise_map, List.zipIdx_map_snd]
    exact List.pairwise_lt_range' 1
  rw [List.pairwise_map]
  exact hnumbers.imp fun hlt => Or.inr ⟨rfl, hlt⟩

section Holding

variable (h : Holds m s)
include h

theorem Holds.name_eq (hfile : m name = some f) : f.name = name := by
  rw [← h.file?] at hfile
  simpa using List.find?_some hfile

theorem Holds.mem_hits : hit ∈ s.hits test ↔ IsHit m test hit := by
  rw [hits, List.mem_flatMap]
  constructor
  · rintro ⟨f, hf, hhit⟩
    obtain ⟨hname, hlow, hget, hsearch⟩ := mem_hitsIn.mp hhit
    refine ⟨hlow, ⟨f, ?_, hget⟩, hsearch⟩
    rw [hname]
    exact h.mem_sorted_iff.mp hf
  · rintro ⟨hlow, ⟨f, hfile, hget⟩, hsearch⟩
    have hname := h.name_eq hfile
    refine ⟨f, ?_, mem_hitsIn.mpr ⟨hname.symm, hlow, hget, hsearch⟩⟩
    rw [h.mem_sorted_iff, hname]
    exact hfile

theorem Holds.listsHits (test : List Char → Bool) : ListsHits m test (s.hits test) := by
  refine ⟨fun hit => h.mem_hits, ?_⟩
  rw [hits, List.pairwise_flatMap]
  refine ⟨fun f _ => hitsIn_ordered test f, ?_⟩
  apply h.sorted_ascending.imp
  intro f g hlt a ha b hb
  rw [Hit.Before, (mem_hitsIn.mp ha).1, (mem_hitsIn.mp hb).1]
  exact Or.inl hlt

end Holding

theorem searchLines_eq_take (room number : Nat) (lines : List (List Char)) :
    searchLines test name room number lines =
      (hitsFrom test name number lines).take room := by
  induction lines generalizing room number with
  | nil => cases room <;> rfl
  | cons line rest ih =>
    cases room with
    | zero => rfl
    | succ room =>
      rw [searchLines, hitsFrom, List.zipIdx_cons, List.map_cons, List.filter_cons]
      split
      · rw [List.take_succ_cons, ih]
        rfl
      · exact ih (room + 1) (number + 1)

/-- The room that the hits in one file leave is the room for those in the files behind it. -/
theorem searchFiles_eq_take (room : Nat) (files : List ExtractedFile) :
    searchFiles test room files = (files.flatMap (hitsIn test)).take room := by
  induction files generalizing room with
  | nil => exact List.take_nil.symm
  | cons f rest ih =>
    rw [searchFiles, List.flatMap_cons, List.take_append]
    have hfirst : searchLines test f.name room 1 (linesOf f.text) =
        (hitsIn test f).take room := searchLines_eq_take room 1 (linesOf f.text)
    by_cases hroom : (hitsIn test f).length < room
    · have hall : (hitsIn test f).take room = hitsIn test f :=
        List.take_of_length_le (Nat.le_of_lt hroom)
      simp only [hfirst, hall, if_pos hroom, ih]
    · have hfull : ((hitsIn test f).take room).length = room := by
        rw [List.length_take]
        omega
      have hnone : room - (hitsIn test f).length = 0 := by omega
      simp only [hfirst, hfull, Nat.lt_irrefl, if_false, hnone, List.take_zero,
        List.append_nil]

theorem exists_room (limit : Int) : ∃ room, (max limit 1).toNat = room + 1 :=
  ⟨(max limit 1).toNat - 1, by omega⟩

/-- The rows that are told of all hits under a limit, of which at least one is kept. -/
def frontRows (found : List Hit) (limit : Int) : List String :=
  (found.take (max limit 1).toNat).map Hit.row

def noResultsWords : String := "No results found for: "

def noResults (pattern : String) : String := noResultsWords ++ pattern

theorem frontRows_mono (found : List Hit) {l₁ l₂ : Int} (h : l₁ ≤ l₂) :
    frontRows found l₁ <+: frontRows found l₂ := by
  have hle : (max l₁ 1).toNat ≤ (max l₂ 1).toNat := by omega
  exact (List.take_prefix_take_left hle).map Hit.row

theorem search_eq {engine : Pattern.Engine} {pattern : String} (htest : engine pattern = .ok test)
    (limit : Int) : s.search pattern limit engine =
      .ok (if s.hits test = [] then noResults pattern
        else joinLines (frontRows (s.hits test) limit)) := by
  have hfound : searchFiles test (max limit 1).toNat s.sorted =
      (s.hits test).take (max limit 1).toNat := searchFiles_eq_take _ _
  simp only [search, htest, hfound]
  cases hhits : s.hits test with
  | nil =>
    rw [List.take_nil, if_pos rfl]
    rfl
  | cons hit rest =>
    obtain ⟨room, hroom⟩ := exists_room limit
    rw [frontRows, hroom, if_neg (List.cons_ne_nil hit rest)]
    rfl

theorem row_toList (hit : Hit) : ∃ shown, hit.row.toList =
    hit.name.toList ++ ':' :: (Nat.toDigits 10 hit.number ++ ':' :: shown) := by
  refine ⟨' ' :: (strip (String.ofList hit.line)).toList.take shownLength, ?_⟩
  have hrow : hit.row = hit.name ++ ":" ++ hit.number.repr ++ ": " ++
      String.ofList ((strip (String.ofList hit.line)).toList.take shownLength) := rfl
  rw [hrow]
  simp [Nat.toList_repr]

theorem joinLines_cons (row : String) (rows : List String) :
    ∃ more, joinLines (row :: rows) = row ++ more := by
  by_cases hrows : rows = []
  · subst hrows
    exact ⟨"", String.append_empty.symm⟩
  · rw [joinLines, String.intercalate_cons_of_ne_nil hrows, String.append_assoc]
    exact ⟨_, rfl⟩

theorem digits_append_ne_blank (n : Nat) (more rest : List Char) :
    Nat.toDigits 10 n ++ ':' :: more ≠ ' ' :: rest := by
  intro h
  cases hdigits : Nat.toDigits 10 n with
  | nil =>
    rw [hdigits] at h
    exact absurd (List.cons.inj h).1 (by decide)
  | cons c others =>
    have hdigit : c.isDigit = true :=
      Nat.isDigit_of_mem_toDigits (by decide) (by decide) (hdigits ▸ List.mem_cons_self)
    rw [hdigits] at h
    rw [(List.cons.inj h).1] at hdigit
    exact absurd hdigit (by decide)

theorem behind_colon_of_words {front behind : List Char}
    (h : noResultsWords.toList = front ++ ':' :: behind) : behind = [' '] := by
  have hcolon : noResultsWords.toList[front.length]? = some ':' := by
    rw [h, List.getElem?_append_right (Nat.le_refl _), Nat.sub_self, List.getElem?_cons_zero]
  have honly : ∀ i < 22, noResultsWords.toList[i]? = some ':' → i = 20 := by decide +kernel
  have hlength : front.length < 22 := by
    have htotal := congrArg List.length h
    rw [List.length_append, List.length_cons] at htotal
    have hwords : noResultsWords.toList.length = 22 := by decide +kernel
    omega
  have hfront := honly front.length hlength hcolon
  have hdrop : noResultsWords.toList.drop (front.length + 1) = behind := by
    rw [h, ← List.drop_drop]
    simp
  rw [hfront] at hdrop
  rw [← hdrop]
  decide +kernel

/-- A row can be taken for the message only if the name in it begins as the message does: behind the
colon of the message there is a blank, behind that of a row a number. -/
theorem words_of_row_eq {hit : Hit} {text more : String}
    (h : hit.row ++ more = noResultsWords ++ text) :
    noResultsWords.toList <+: hit.name.toList := by
  obtain ⟨shown, hrow⟩ := row_toList hit
  have hlist := congrArg String.toList h
  rw [String.toList_append, String.toList_append, hrow, List.append_assoc] at hlist
  rcases List.append_eq_append_iff.mp hlist with ⟨between, hwords, hrest⟩ | ⟨behind, hname, _⟩
  · cases between with
    | nil =>
      rw [List.append_nil] at hwords
      exact hwords ▸ List.prefix_refl _
    | cons c others =>
      rw [List.cons_append, List.cons_append] at hrest
      obtain ⟨rfl, hbehind⟩ := List.cons.inj hrest
      rw [behind_colon_of_words hwords, List.append_assoc] at hbehind
      exact absurd hbehind (digits_append_ne_blank _ _ _)
  · exact ⟨behind, hname.symm⟩

theorem joinLines_frontRows_ne {found : List Hit} (hfound : found ≠ [])
    (hnames : ∀ hit ∈ found, ¬ noResultsWords.toList <+: hit.name.toList) (text : String)
    (limit : Int) : joinLines (frontRows found limit) ≠ noResults text := by
  intro hsame
  obtain ⟨hit, rest, rfl⟩ := List.exists_cons_of_ne_nil hfound
  obtain ⟨room, hroom⟩ := exists_room limit
  rw [frontRows, hroom, List.take_succ_cons, List.map_cons] at hsame
  obtain ⟨more, hmore⟩ := joinLines_cons hit.row ((rest.take room).map Hit.row)
  rw [hmore] at hsame
  exact hnames hit List.mem_cons_self (words_of_row_eq hsame)

/-- For a pattern that an engine can search for there is one list of all hits in the files that were
recovered, in the lines that their texts fall into. The answer to a search is the message if that
list is empty and else tells of its front, of as many hits as the limit says and of one at least, so
that a larger limit adds rows and changes none. No answer with rows reads as the message unless a
file has a name that begins as it does. -/
theorem search_tells_front (events : List Event) {engine : Pattern.Engine} {pattern : String}
    {test : List Char → Bool} (htest : engine pattern = .ok test) :
    (∀ (source : String) lines, FallsInto source.toList lines ↔ linesOf source = lines) ∧
    ∃ found, ListsHits (firstFile events) test found ∧
      (∀ other, ListsHits (firstFile events) test other → other = found) ∧
      (∀ limit, (ofEvents events).search pattern limit engine =
        .ok (if found = [] then noResults pattern else joinLines (frontRows found limit))) ∧
      (∀ l₁ l₂, l₁ ≤ l₂ → frontRows found l₁ <+: frontRows found l₂) ∧
      ((∀ hit ∈ found, ¬ noResultsWords.toList <+: hit.name.toList) →
        ∀ limit, (ofEvents events).search pattern limit engine = .ok (noResults pattern) ↔
          found = []) := by
  refine ⟨fun source lines => fallsInto_iff, ?_⟩
  have hlists := (ofEvents_holds events).listsHits test
  refine ⟨_, hlists, fun _ => hlists.unique, search_eq htest, fun _ _ => frontRows_mono _, ?_⟩
  intro hnames limit
  rw [search_eq htest]
  constructor
  · intro hsame
    by_cases hnone : (ofEvents events).hits test = []
    · exact hnone
    · rw [if_neg hnone] at hsame
      exact absurd (Except.ok.inj hsame) (joinLines_frontRows_ne hnone hnames pattern limit)
  · intro hnone
    rw [if_pos hnone]

/-- Line ends of several kinds, a character given by its name, a blank that is matched and not
shown, and the earlier name last. -/
theorem two_files_searched :
    let b : ExtractedFile := ⟨"b.cs", "x\u2028A \r\nB", false⟩
    let a : ExtractedFile := ⟨"a.cs", "B\x0cA", true⟩
    let events : List Event := [.file b, .file a]
    let pattern := "A\\N\x7bSPACE\x7d|B"
    ∃ test found, Pattern.engine pattern = .ok test ∧ ListsHits (firstFile events) test found ∧
      found ≠ [] ∧ (ofEvents events).search pattern 2 = .ok "a.cs:1: B\nb.cs:2: A" ∧
      (ofEvents events).search pattern (-1) = .ok (joinLines (frontRows found 1)) ∧
      frontRows found 2 <+: frontRows found 20 := by
  intro b a events pattern
  obtain ⟨test, htest⟩ : ∃ test, Pattern.engine pattern = .ok test := by
    have hsome : (Pattern.engine pattern).toOption.isSome = true := by decide +kernel
    cases htest : Pattern.engine pattern with
    | ok test => exact ⟨test, rfl⟩
    | error e =>
      rw [htest] at hsome
      cases hsome
  have hsearch : (ofEvents events).search pattern 2 = .ok "a.cs:1: B\nb.cs:2: A" := by
    have hfiles : ofEvents events = ⟨[b, a]⟩ := by decide +kernel
    have hsorted : sorted ⟨[b, a]⟩ = [a, b] := by simp [sorted, List.mergeSort, a, b]
    rw [hfiles, search, hsorted]
    decide +kernel
  obtain ⟨_, found, hlists, _, htold, hmono, _⟩ := search_tells_front events htest
  have hsome : found ≠ [] := by
    rintro rfl
    have hnone := (htold 2).symm.trans hsearch
    exact absurd (Except.ok.inj hnone) (by decide +kernel)
  refine ⟨test, found, htest, hlists, hsome, hsearch, ?_, hmono 2 20 (by decide)⟩
  rw [htold, if_neg hsome]
  rfl

end SourceRecovery.Shelf
